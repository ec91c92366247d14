import RustdResolved.Edns.Opt
import RustdResolved.Lib.Stateful
import RustdResolved.Resolver.Error
import RustdResolved.Resolver.Modes
import RustdResolved.Wire.DnssecRecords

/-! # An exchange with a server

`exchange_with_features` asks a server at the best feature level it may have, and asks again at
another level when the answer shows that the server does not have it. Each round of its loop is one
attempt. What comes from outside (the server's answers, the clock, a cancellation) is a `Network`;
the packets that were sent are kept in a history. -/

namespace RustdResolved.Edns.Exchange

open Lib Loop Stateful Wire Octets PacketHeader Packet DnssecRecords Resolver Error Modes Servers
open Opt

def rcodeFormerr : Nat := 1
def rcodeServfail : Nat := 2
def rcodeNotimp : Nat := 4
def rcodeBadvers : Nat := 16
def edeNotReady : Nat := 14
def maxFeatureRetries : Nat := 2
def maxTransportRetries : Nat := 2
def dnsTransactionAttemptsMax : Nat := 24

/-- How a packet is sent. -/
inductive Route
  | tls
  | udp
  | tcp
  deriving DecidableEq, Repr

/-- A packet that was sent, what came back, and what was known about the server's signatures
then. -/
structure Sent where
  route : Route
  packet : Bytes
  response : Except ResolveError Bytes
  missingRootRrsig : Bool
  deriving DecidableEq, Repr

structure DnsAttemptBudget where
  attempts : Nat
  deadline : Nat
  deriving DecidableEq, Repr

def DnsAttemptBudget.exhausted (budget : DnsAttemptBudget) : Bool :=
  dnsTransactionAttemptsMax ≤ budget.attempts

structure Server where
  dnssecMode : ValidationMode
  tlsMode : TlsMode
  ipv6 : Bool
  loopback : Bool
  deriving DecidableEq, Repr

/-- What comes from outside. The answers are those to the first packet sent, the second and so
on. -/
structure Network where
  tls : Nat → Bytes → Except ResolveError Bytes
  /-- The response, and the size of its largest fragment. -/
  udp : Nat → Bytes → Except ResolveError (Bytes × Nat)
  tcp : Nat → Bytes → Except ResolveError Bytes
  /-- Whether the stream for a packet is a pooled one, with time for a fresh one if it fails. -/
  pooled : Nat → Bool
  pathMtu : Nat → Option Nat
  instant : Nat → Nat
  cancelled : Nat → Bool

structure ExchangeState where
  server : ServerState
  budget : DnsAttemptBudget
  instantReads : Nat
  sent : List Sent
  deriving DecidableEq, Repr

structure Vars where
  forcedLevel : Option FeatureLevel
  rcodeProbe : Bool
  servfailRetried : Bool
  featureRetries : Nat
  transportRetries : Nat
  deriving DecidableEq, Repr

def Vars.initial : Vars := ⟨none, false, false, 0, 0⟩

/-- Another attempt at a level, which counts as a feature retry. -/
def Vars.retryAt (vars : Vars) (level : FeatureLevel) : Vars :=
  { vars with forcedLevel := some level, featureRetries := vars.featureRetries + 1 }

abbrev Answer := Except ResolveError Bytes

/-- A part of a round. It can end the exchange with an answer or begin another round. -/
abbrev Attempt (α : Type) := Effect ExchangeState (LoopFlow Answer Vars) α

def returnError {α : Type} (error : ResolveError) : Attempt α := fail (.done (.error error))

def continueWith {α : Type} (vars : Vars) : Attempt α := fail (.again vars)

/-- A `?`. -/
def orReturn {α : Type} : Except ResolveError α → Attempt α
  | .ok a => pure a
  | .error error => returnError error

def returnResponse {α : Type} (query response : Bytes) : Attempt α :=
  fail (.done (liftWire (responseForClient query response)))

/-- An `if` without `else`. -/
def onlyIf (condition : Bool) (x : Attempt Unit) : Attempt Unit :=
  if condition then x else pure ()

/-- Reads and changes the state of the server. -/
def onServer {α : Type} (f : ServerState → α × ServerState) : Attempt α :=
  act fun state => ((f state.server).1, { state with server := (f state.server).2 })

def preferredFeatureLevel (dnssecMode : ValidationMode) (tlsMode : TlsMode) : FeatureLevel :=
  match decide (tlsMode ≠ .no), decide (dnssecMode ≠ .no) with
  | true, true => .tlsDnssecOk
  | true, false => .tlsPlain
  | false, true => .dnssecOk
  | false, false => .edns0

def dnssecExtendedError (code : Nat) : Bool :=
  code == 1 || code == 2 || (decide (5 ≤ code) && decide (code ≤ 12))

def udpRequiresTcpRetry (truncated : Bool) (fragmentSize : Nat) (level : FeatureLevel) : Bool :=
  truncated || (fragmentSize != 0 && decide (.udp < level))

def rcodeRequestsFeatureDowngrade (rcode : Nat) : Bool :=
  rcode == rcodeFormerr || rcode == rcodeServfail || rcode == rcodeNotimp

def recordTypeIsDnssec (rrType : Nat) : Bool :=
  rrType == typeDs || rrType == typeRrsig || rrType == typeNsec || rrType == typeDnskey ||
    rrType == typeNsec3 || rrType == typeNsec3param

section
variable (server : Server) (network : Network)

def readInstant : Attempt Nat :=
  act fun state =>
    (network.instant state.instantReads, { state with instantReads := state.instantReads + 1 })

/-- Reads and changes the state of the server at the present time. -/
def onServerNow {α : Type} (f : Nat → ServerState → α × ServerState) : Attempt α := do
  let now ← readInstant network
  onServer (f now)

/-! ### What is recorded -/

def clearTransportFailures : Attempt Unit :=
  onServer fun state => ((), { state with transport := state.transport.clearFailures })

variable (level : FeatureLevel)

def downgradeFeature : Attempt Unit :=
  onServerNow network fun now state => ((), { state with
    features := state.features.downgradeTo level now, transport := state.transport.clearFailures })

def recordBadOpt (level : FeatureLevel) : Attempt FeatureLevel :=
  onServerNow network fun now state => ((state.features.recordBadOpt level now).1, { state with
    features := (state.features.recordBadOpt level now).2
    transport := state.transport.clearFailures })

def recordRequiredBadOpt : Attempt Unit :=
  onServer fun state => ((), { state with features := state.features.recordRequiredBadOpt })

def recordDoOff (level : FeatureLevel) : Attempt FeatureLevel :=
  onServerNow network fun now state => ((state.features.recordDoOff level now).1, { state with
    packetDoOff := true
    features := (state.features.recordDoOff level now).2
    transport := state.transport.clearFailures })

def recordMissingRootRrsig (allowDowngrade : Bool) : Attempt FeatureLevel := do
  onServer fun state => ((), { state with missingRootRrsig := true })
  if allowDowngrade then do
    downgradeFeature network .edns0
    pure .edns0
  else pure .edns0

def recordTransportSuccess (mode : TransportMode) : Attempt Unit :=
  onServer fun state => ((), { state with transport := state.transport.recordSuccess mode })

/-- The mode that is switched to, and the failures that are counted now. -/
def recordTransportFailure (mode : TransportMode) : Attempt (Option TransportMode × Nat) :=
  onServer fun state =>
    let recorded := state.transport.recordFailure mode
    ((recorded.1, recorded.2.failures mode), { state with transport := recorded.2 })

def recordTransportTruncated : Attempt Unit :=
  onServer fun state => ((), { state with transport := state.transport.recordTruncated })

def recordUdpPacket (dnsSize fragmentSize : Nat) : Attempt Unit :=
  onServer fun state => ((), { state with
    transport := state.transport.recordUdpPacket dnsSize fragmentSize server.ipv6 })

/-- The level below, as a packet that cannot be read may lower it. -/
def invalidPacketLevel : Option FeatureLevel :=
  let strictTls := decide (server.tlsMode = .yes)
  let lower :=
    if strictTls then
      match level with
      | .tlsDnssecOk => .tlsPlain
      | .tlsPlain => .tlsPlain
      | _ => level.lower
    else level.lower
  if lower = level then none
  else if strictTls && !lower.usesTls && decide (lower ≠ .udp) then none
  else some lower

def recordInvalidPacket : Attempt (Option FeatureLevel) := do
  onServer fun state => ((), { state with packetInvalid := true })
  if server.dnssecMode = .yes then pure none
  else
    match invalidPacketLevel server level with
    | none => pure none
    | some lower => do
      downgradeFeature network lower
      pure (some lower)

/-! ### The budget -/

def remaining : Attempt Nat := do
  let now ← readInstant network
  let deadline ← act fun state => (state.budget.deadline, state)
  if now < deadline then pure (deadline - now) else returnError (.io .timedOut)

def beginAttempt : Attempt Nat := do
  let budget ← act fun state => (state.budget, state)
  if network.cancelled budget.attempts then returnError .queryAborted
  else if budget.exhausted then returnError .maxAttemptsReached
  else do
    let left ← remaining network
    act fun state => (left, { state with
      budget := { state.budget with attempts := state.budget.attempts + 1 } })

/-! ### Sending -/

/-- Sends a packet, and keeps that it was sent. -/
def send {α : Type} (route : Route) (packet : Bytes) (answers : Nat → Bytes → Except ResolveError α)
    (responseOf : α → Bytes) : Attempt (Except ResolveError α) :=
  act fun state =>
    let answer := answers state.sent.length packet
    (answer, { state with
      sent := state.sent ++
        [⟨route, packet, answer.map responseOf, state.server.missingRootRrsig⟩] })

/-- Sends a packet over a stream, and once more over a fresh one if a pooled one failed. -/
def exchangeStream (route : Route) (answers : Nat → Bytes → Except ResolveError Bytes)
    (packet : Bytes) : Attempt (Except ResolveError Bytes) := do
  let reused ← act fun state => (network.pooled state.sent.length, state)
  match ← send route packet answers id with
  | .ok response => pure (.ok response)
  | .error error => if reused then send route packet answers id else pure (.error error)

def exchangeTls (packet : Bytes) : Attempt (Except ResolveError Bytes) :=
  exchangeStream network .tls network.tls packet

def exchangeUdp (packet : Bytes) : Attempt (Except ResolveError (Bytes × Nat)) :=
  send .udp packet network.udp Prod.fst

def exchangeTcp (packet : Bytes) : Attempt (Except ResolveError Bytes) :=
  exchangeStream network .tcp network.tcp packet

/-! ### The level of an attempt -/

/-- What an attempt is made with. -/
structure Choice where
  level : FeatureLevel
  transport : TransportMode
  payloadSize : Nat
  deriving DecidableEq, Repr

/-- The best level that is asked for: a server without signatures for the root gets none for
DNSSEC. -/
def bestLevel (state : ServerState) : FeatureLevel :=
  if state.missingRootRrsig && decide (server.dnssecMode ≠ .yes) then .edns0
  else preferredFeatureLevel server.dnssecMode server.tlsMode

/-- The forced level, or the one that is possible now. -/
def candidateLevel (forcedLevel : Option FeatureLevel) : Attempt FeatureLevel :=
  match forcedLevel with
  | some level => pure level
  | none =>
    onServerNow network fun now state =>
      let minimum := if server.tlsMode = .yes then FeatureLevel.tlsPlain else .udp
      let possible := state.features.possibleLevel (bestLevel server state) minimum now
      (possible.1, { state with features := possible.2 })

/-- With strict TLS, a level without TLS is replaced by the best one, if that uses TLS. -/
def guardedLevel (best level : FeatureLevel) : FeatureLevel :=
  if decide (server.tlsMode = .yes) && best.usesTls && !level.usesTls then best else level

def chooseLevel (forcedLevel : Option FeatureLevel) : Attempt Choice := do
  let best ← onServer fun state => (bestLevel server state, state)
  let candidate ← candidateLevel server network forcedLevel
  let level := guardedLevel server best candidate
  let pathMtu ← act fun state =>
    (if level.usesTls then none else network.pathMtu state.sent.length, state)
  onServer fun state =>
    ({ level := level
       transport := state.transport.mode
       payloadSize := dnsUdpPayloadSize pathMtu server.ipv6 server.loopback
        state.transport.packetFragmented state.transport.receivedUdpFragmentMax }, state)

/-! ### Answers and failures -/

/-- Goes on at a lower level, if there is one and there are retries left. -/
def retryLower {α : Type} (vars : Vars) (lower : Option FeatureLevel) (otherwise : Attempt α) :
    Attempt α :=
  match lower with
  | some lower =>
    if vars.featureRetries < maxFeatureRetries then continueWith (vars.retryAt lower) else otherwise
  | none => otherwise

/-- The response over TLS. With strict TLS there is no level below. -/
def attemptTls (vars : Vars) (level : FeatureLevel) (packet : Bytes) : Attempt Bytes := do
  match ← exchangeTls network packet with
  | .ok response => pure response
  | .error (.io kind) =>
    if server.tlsMode = .yes then returnError (.io kind)
    else do
      let lower ← onServerNow network fun now state =>
        ((state.features.recordTlsFailure level now).1,
          { state with features := (state.features.recordTlsFailure level now).2 })
      match lower with
      | some lower =>
        if vars.featureRetries < maxFeatureRetries then do
          clearTransportFailures
          continueWith (vars.retryAt lower)
        else returnError (.io kind)
      | none => returnError (.io kind)
  | .error error => returnError error

/-- The response over TCP to a packet whose response over UDP was not complete. -/
def attemptTcpRetry (vars : Vars) (level : FeatureLevel) (packet : Bytes) : Attempt Bytes := do
  let _ ← remaining network
  match ← exchangeTcp network packet with
  | .ok response => do
    recordTransportSuccess .tcp
    pure response
  | .error error => do
    let (_, failures) ← recordTransportFailure .tcp
    if transportRetryAttempts ≤ failures ∧ .udp < level ∧ server.dnssecMode ≠ .yes ∧
        vars.featureRetries < maxFeatureRetries then do
      downgradeFeature network level.lower
      continueWith (vars.retryAt level.lower)
    else returnError error

/-- The level below, after the last of several losses at a level. -/
def recordUdpLoss (managedOpt : Bool) : Attempt (Option FeatureLevel) :=
  if managedOpt = true ∧ server.dnssecMode ≠ .yes then
    onServerNow network fun now state => ((state.features.recordFailure level now).1,
      { state with features := (state.features.recordFailure level now).2 })
  else pure none

def udpFailure {α : Type} (vars : Vars) (level : FeatureLevel) (managedOpt : Bool)
    (error : ResolveError) : Attempt α := do
  let lower ← recordUdpLoss server network level managedOpt
  match lower.filter fun _ => vars.featureRetries < maxFeatureRetries with
  | some lower => do
    clearTransportFailures
    continueWith (vars.retryAt lower)
  | none =>
    if level = .udp then do
      let (switched, _) ← recordTransportFailure .udp
      if switched = some .tcp ∧ vars.transportRetries < maxTransportRetries then
        continueWith { vars with transportRetries := vars.transportRetries + 1 }
      else returnError error
    else returnError error

def attemptUdp (vars : Vars) (level : FeatureLevel) (outbound : PreparedQuery) :
    Attempt (Bytes × TransportMode) := do
  match ← exchangeUdp network outbound.packet with
  | .ok (response, fragmentSize) => do
    recordUdpPacket server response.length fragmentSize
    let header ← orReturn (liftWire (Header.parse response))
    if udpRequiresTcpRetry header.truncated fragmentSize level then do
      recordTransportSuccess .udp
      onlyIf header.truncated recordTransportTruncated
      let response ← attemptTcpRetry server network vars level outbound.packet
      pure (response, .tcp)
    else do
      recordTransportSuccess .udp
      pure (response, .udp)
  | .error error => udpFailure server network vars level outbound.managedOpt error

def attemptTcp (vars : Vars) (packet : Bytes) : Attempt (Bytes × TransportMode) := do
  match ← exchangeTcp network packet with
  | .ok response => do
    recordTransportSuccess .tcp
    pure (response, .tcp)
  | .error error => do
    let (switched, _) ← recordTransportFailure .tcp
    if switched = some .udp ∧ vars.transportRetries < maxTransportRetries then
      continueWith { vars with transportRetries := vars.transportRetries + 1 }
    else returnError error

/-- The response, the transport it came by, and whether that was TLS. -/
def attemptSend (vars : Vars) (choice : Choice) (outbound : PreparedQuery) :
    Attempt (Bytes × TransportMode × Bool) :=
  if choice.level.usesTls then do
    let response ← attemptTls server network vars choice.level outbound.packet
    pure (response, .tcp, true)
  else
    match choice.transport with
    | .udp => do
      let (response, transport) ← attemptUdp server network vars choice.level outbound
      pure (response, transport, false)
    | .tcp => do
      let (response, transport) ← attemptTcp network vars outbound.packet
      pure (response, transport, false)

/-- A part of a response that must be readable. -/
def readOrRetry {α : Type} (vars : Vars) (level : FeatureLevel) : Except WireError α → Attempt α
  | .ok a => pure a
  | .error error => do
    let lower ← recordInvalidPacket server network level
    retryLower vars lower (returnError (.wire error))

/-- A response without the OPT record or the version that was asked for. -/
def optUnsupported {α : Type} (vars : Vars) (level : FeatureLevel) (query response : Bytes)
    (message : Text) (retries : Bool) : Attempt α :=
  if server.dnssecMode = .yes then returnError (.protocol message)
  else if server.tlsMode = .yes then do
    recordRequiredBadOpt
    returnResponse query response
  else do
    let lower ← recordBadOpt network level
    if retries then retryLower vars (some lower) (returnResponse query response)
    else returnResponse query response

section
variable (vars : Vars) (level : FeatureLevel) (query : Bytes)

def checkOpt (response : Bytes) (opt : Option OptRecord) (rcode : Nat) : Attempt Unit :=
  match opt with
  | none =>
    optUnsupported server network vars level query response
      "DNS server omitted a required EDNS response".toList
      (!(rcode == 0 || !rcodeRequestsFeatureDowngrade rcode))
  | some opt =>
    if opt.version ≠ 0 ∨ rcode = rcodeBadvers then
      optUnsupported server network vars level query response
        "DNS server does not support the required EDNS version".toList true
    else if level.sendsDnssecOk && !opt.dnssecOk then
      if server.dnssecMode = .yes then
        returnError (.protocol "DNS server did not echo the EDNS DO flag".toList)
      else do
        let lower ← recordDoOff network level
        retryLower vars (some lower) (returnResponse query response)
    else pure ()

def checkRootRrsig (response : Bytes) : Attempt Unit := do
  if ← orReturn (liftWire (rootRrsigMissing response)) then do
    let lower ← recordMissingRootRrsig network (decide (server.dnssecMode ≠ .yes))
    if server.dnssecMode = .yes then
      returnError (.protocol "DNS server omitted required root RRSIG records".toList)
    else
      retryLower vars (some lower)
        (returnError
          (.protocol "DNS server repeatedly omitted required root RRSIG records".toList))
  else pure ()

def extendedErrorOf : Option OptRecord → Except WireError (Option (Nat × Option Text))
  | none => .ok none
  | some opt => extendedError opt

/-- A server failure: an extended error ends the exchange, or the attempt is made again. -/
def checkServfail (opt : Option OptRecord) (rcode : Nat) : Attempt Unit := do
  match ← orReturn (liftWire (extendedErrorOf opt)) with
  | some (ede, message) =>
    if ede = edeNotReady then do
      let _ ← remaining network
      continueWith { vars with forcedLevel := some level }
    else do
      let question ← orReturn (liftWire (firstQuestion query))
      if dnssecExtendedError ede then
        returnError (.dnssecValidationFailed "upstream-failure".toList (some ede) message)
      else returnError (.dnsError rcode question.name.text (some ede) message)
  | none =>
    if .udp < level ∧ server.dnssecMode ≠ .yes ∧ vars.servfailRetried = false then
      continueWith { vars with servfailRetried := true, forcedLevel := some level }
    else pure ()

/-- A response code that asks for a lower level. -/
def checkRcode (response : Bytes) (rcode : Nat) : Attempt Unit :=
  if rcodeRequestsFeatureDowngrade rcode = true ∧ .udp < level ∧ server.dnssecMode ≠ .yes ∧
      vars.featureRetries < maxFeatureRetries then
    if server.tlsMode = .yes ∧ level.lower.usesTls = false then returnResponse query response
    else continueWith { vars.retryAt level.lower with rcodeProbe := true }
  else pure ()

/-- What is learned from a response that is kept. -/
def recordVerified (verifiedLevel : FeatureLevel) (rcode : Nat) : Attempt Unit := do
  onlyIf (vars.rcodeProbe && !rcodeRequestsFeatureDowngrade rcode) (downgradeFeature network level)
  onServer fun state => ((), { state with features := state.features.recordSuccess verifiedLevel })

/-- What is done with a response. -/
def judge (outbound : PreparedQuery)
    (response : Bytes) (transport : TransportMode) (viaTls : Bool) : Attempt Answer := do
  let opt ← readOrRetry server network vars level (inspectOpt response)
  let rcode ← readOrRetry server network vars level (fullRcode response opt)
  onlyIf (outbound.managedOpt && outbound.sentEdns)
    (checkOpt server network vars level query response opt rcode)
  onlyIf (outbound.managedOpt && level.sendsDnssecOk) (checkRootRrsig server network vars response)
  onlyIf (rcode == rcodeServfail) (checkServfail server network vars level query opt rcode)
  checkRcode server vars level query response rcode
  onlyIf outbound.managedOpt
    (recordVerified network vars level
      (if transport = .udp ∨ viaTls = true then level else .udp) rcode)
  pure (liftWire (responseForClient query response))

end

/-- Records of DNSSEC are not asked for below the level of DNSSEC. -/
def checkQuestion (query : Bytes) (level : FeatureLevel) : Attempt Unit :=
  onlyIf (decide (level < .dnssecOk)) do
    let question ← orReturn (liftWire (firstQuestion query))
    if recordTypeIsDnssec question.rrType then returnError .resourceRecordTypeUnsupported
    else pure ()

/-- One round of the loop. -/
def attempt (query : Bytes) (vars : Vars) : Attempt Answer := do
  let choice ← chooseLevel server network vars.forcedLevel
  checkQuestion query choice.level
  let outbound ← orReturn (liftWire (prepareQuery query choice.level choice.payloadSize))
  let _ ← beginAttempt network
  let (response, transport, viaTls) ← attemptSend server network vars choice outbound
  judge server network vars choice.level query outbound response transport viaTls

/-- The answer of the server to a query. Each round takes one attempt of the budget, so that one
round more than there are attempts is enough. -/
def exchangeWithFeatures (query : Bytes) : ExchangeState → Answer × ExchangeState :=
  rounds (.error .maxAttemptsReached) (attempt server network query) (dnsTransactionAttemptsMax + 1)
    .initial

end

end RustdResolved.Edns.Exchange
