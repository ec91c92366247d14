import RustdResolved.Edns.Exchange

/-! # What a round may do

Once its level is chosen, a round sends packets, records what it learns of the server and ends with
an answer or goes on at a level. `RoundRules` says what an invariant of the round must allow for
that; the round then keeps it (`meets_attemptSend`, `meets_judge`). -/

namespace RustdResolved.Edns.Rounds

open Lib Loop Stateful Wire.Octets Resolver.Error Servers Opt Exchange

variable {outbound : PreparedQuery} {rcode : Nat}

/-- A property that the clock does not touch, and from which an exchange may end with any error. -/
structure Interruptible (inside : ExchangeState → Prop)
    (ends : LoopFlow Answer Vars → ExchangeState → Prop) : Prop where
  error : ∀ {state} error, inside state → ends (.done (.error error)) state
  clock : ∀ {state reads}, inside state → inside { state with instantReads := reads }

/-- A part of a round that keeps a property. -/
abbrev Keeps {α : Type} (inside : ExchangeState → Prop)
    (ends : LoopFlow Answer Vars → ExchangeState → Prop) (x : Attempt α) : Prop :=
  Meets inside x (fun _ => inside) ends

namespace Interruptible
variable {network : Network} {inside : ExchangeState → Prop}
  {ends : LoopFlow Answer Vars → ExchangeState → Prop} {α : Type} {Q : α → ExchangeState → Prop}
  (rules : Interruptible inside ends)
include rules

theorem returnError (error : ResolveError) : Meets inside (returnError error : Attempt α) Q ends :=
  meets_fail fun _ h => rules.error error h

theorem orReturn (x : Except ResolveError α) :
    Meets inside (orReturn x) (fun a state => x = .ok a ∧ inside state) ends := by
  cases x with
  | ok a => exact meets_pure fun _ h => ⟨rfl, h⟩
  | error error => exact rules.returnError error

theorem readInstant : Keeps inside ends (readInstant network) := meets_act fun _ h => rules.clock h

theorem remaining : Keeps inside ends (remaining network) := by
  refine meets_bind rules.readInstant fun now => ?_
  refine meets_bind meets_read fun deadline => ?_
  exact meets_ite (fun _ => meets_pure fun _ h => h) fun _ => rules.returnError _

theorem checkQuestion {query : Bytes} {level : FeatureLevel} :
    Keeps inside ends (checkQuestion query level) := by
  refine meets_ite (fun _ => ?_) fun _ => meets_pure fun _ h => h
  refine meets_bind (rules.orReturn _) fun question => meets_assume fun _ => ?_
  exact meets_ite (fun _ => rules.returnError _) fun _ => meets_pure fun _ h => h

/-- An attempt is begun only if there is one left. -/
theorem beginAttempt : Meets inside (beginAttempt network)
    (fun _ state => ∃ before, inside before ∧ before.budget.attempts < dnsTransactionAttemptsMax ∧
      state = { before with
        budget := { before.budget with attempts := before.budget.attempts + 1 } }) ends := by
  refine meets_bind (Q := fun budget state => state.budget = budget ∧ inside state)
    (meets_act fun _ h => ⟨rfl, h⟩) fun budget => ?_
  have hrules : Interruptible (fun state => state.budget = budget ∧ inside state) ends :=
    ⟨fun error h => rules.error error h.2, fun h => ⟨h.1, rules.clock h.2⟩⟩
  refine meets_ite (fun _ => hrules.returnError _) fun _ => ?_
  refine meets_ite (fun _ => hrules.returnError _) fun hleft => ?_
  refine meets_bind hrules.remaining fun left => meets_act fun state h => ⟨state, h.2, ?_, rfl⟩
  rw [h.1]
  simpa [DnsAttemptBudget.exhausted] using hleft

/-- A response without signatures for the root changes what is known of the server, and its features
only where DNSSEC is not required. -/
theorem checkRootRrsig {server : Server} {vars : Vars} {response : Bytes}
    (hserver : ∀ {state server'}, server'.features = state.server.features ∨
      server.dnssecMode ≠ .yes →
      inside state → inside { state with server := server' })
    (hagain : ∀ {state vars'}, server.dnssecMode ≠ .yes → inside state →
      ends (.again vars') state) :
    Keeps inside ends (checkRootRrsig server network vars response) := by
  refine meets_bind (rules.orReturn _) fun missing => meets_assume fun _ => ?_
  refine meets_ite (fun _ => ?_) fun _ => meets_pure fun _ h => h
  refine meets_bind (Q := fun _ => inside) ?_ fun lower => ?_
  · refine meets_bind (Q := fun _ => inside) (meets_act fun _ => hserver (.inl rfl)) fun _ => ?_
    refine meets_ite (fun hallow => ?_) fun _ => meets_pure fun _ h => h
    refine meets_bind ?_ fun _ => meets_pure fun _ h => h
    exact meets_bind rules.readInstant fun _ => meets_act fun _ =>
      hserver (.inr (of_decide_eq_true hallow))
  · refine meets_ite (fun _ => rules.returnError _) fun hmode => ?_
    exact meets_ite (fun _ => meets_fail fun _ => hagain hmode) fun _ => rules.returnError _

end Interruptible

/-- How what is known of the features of a server may change in a round at a level. -/
inductive Change (server : Server) (level : FeatureLevel) (next : FeatureLevel → Prop)
    (features : ServerFeatureState) : ServerFeatureState → Prop
  | same : Change server level next features features
  | lax (h : server.dnssecMode ≠ .yes) {features' : ServerFeatureState} :
    Change server level next features features'
  | downgrade {lower : FeatureLevel} (h : next lower) (now : Nat) :
    Change server level next features (features.downgradeTo lower now)
  | tlsFailure (now : Nat) :
    Change server level next features (features.recordTlsFailure level now).2
  | success (verified : FeatureLevel) :
    Change server level next features (features.recordSuccess verified)

/-- What has been sent in a round, and the last response that has come back. -/
structure Progress where
  routes : List Route
  response : Option Bytes

/-- What an attempt may send: a datagram and then the packet twice over TCP at most, or twice over
TLS. -/
def OneAttempt (routes : List Route) : Prop :=
  routes.Sublist [.udp, .tcp, .tcp] ∨ routes.Sublist [.tls, .tls]

/-- Rules for a round: `inside` holds within it and may tell of its progress, `ends` where it ends,
and it may go on at the levels of `next`. -/
structure RoundRules (server : Server) (network : Network) (query : Bytes) (vars : Vars)
    (level : FeatureLevel) (packet : Bytes) (inside : Progress → ExchangeState → Prop)
    (ends : LoopFlow Answer Vars → ExchangeState → Prop) (next : FeatureLevel → Prop) : Prop where
  interruptible : ∀ received, Interruptible (inside received) ends
  response : ∀ {received state} raw, inside received state →
    ends (.done (liftWire (responseForClient query raw))) state
  again : ∀ {received state vars'}, (vars'.forcedLevel = vars.forcedLevel ∨
    ∃ level, vars'.forcedLevel = some level ∧ next level) → inside received state →
    ends (.again vars') state
  change : ∀ {received state server'}, server'.missingRootRrsig = state.server.missingRootRrsig →
    Change server level next state.server.features server'.features → inside received state →
    inside received { state with server := server' }
  sent : ∀ {received state route answer}, (route = .tls ↔ level.usesTls = true) →
    OneAttempt (received.routes ++ [route]) → inside received state →
    inside ⟨received.routes ++ [route], answer.toOption⟩ { state with
      sent := state.sent ++ [⟨route, packet, answer, state.server.missingRootRrsig⟩] }
  rootRrsig : ∀ routes response, Meets (inside ⟨routes, some response⟩)
    (checkRootRrsig server network vars response) (fun _ => inside ⟨routes, some response⟩) ends
  same : next level
  tlsFailure : ∀ {received state lower now}, server.tlsMode ≠ .yes → inside received state →
    (state.server.features.recordTlsFailure level now).1 = some lower → next lower
  failure : ∀ {features : ServerFeatureState} {lower now}, server.dnssecMode ≠ .yes →
    (features.recordFailure level now).1 = some lower → next lower
  invalid : ∀ {lower}, server.dnssecMode ≠ .yes → invalidPacketLevel server level = some lower →
    next lower
  badOpt : ∀ {lower}, server.dnssecMode ≠ .yes → server.tlsMode ≠ .yes → next lower
  doOff : ∀ {features : ServerFeatureState} {now}, server.dnssecMode ≠ .yes →
    level.sendsDnssecOk = true → next (features.recordDoOff level now).1
  lower : server.dnssecMode ≠ .yes → next level.lower

namespace RoundRules
variable {server : Server} {network : Network} {query packet response : Bytes} {vars vars' : Vars}
  {level lower : FeatureLevel} {inside : Progress → ExchangeState → Prop}
  {ends : LoopFlow Answer Vars → ExchangeState → Prop} {next : FeatureLevel → Prop}
  {received : Progress} {routes : List Route} {α : Type} {Q : α → ExchangeState → Prop}
  (rules : RoundRules server network query vars level packet inside ends next)
  {opt : Option OptRecord}
include rules

/-! ### Parts of a round -/

theorem meets_returnError (error : ResolveError) :
    Meets (inside received) (returnError error : Attempt α) Q ends :=
  (rules.interruptible received).returnError error

theorem meets_returnResponse (raw : Bytes) :
    Meets (inside received) (returnResponse query raw : Attempt α) Q ends :=
  meets_fail fun _ h => rules.response raw h

theorem meets_continueAt (h : vars'.forcedLevel = some lower) (hlower : next lower) :
    Meets (inside received) (continueWith vars' : Attempt α) Q ends :=
  meets_fail fun _ hinside => rules.again (.inr ⟨lower, h, hlower⟩) hinside

theorem meets_continueSame (h : vars'.forcedLevel = vars.forcedLevel) :
    Meets (inside received) (continueWith vars' : Attempt α) Q ends :=
  meets_fail fun _ hinside => rules.again (.inl h) hinside

omit rules in
theorem meets_onlyIf {condition : Bool} {x : Attempt Unit}
    (hx : condition = true → Keeps (inside received) ends x) :
    Keeps (inside received) ends (onlyIf condition x) :=
  meets_ite hx fun _ => meets_pure fun _ h => h

/-- A change of what is known of the server, with a property of the value it returns. -/
theorem meets_onServerNow {f : Nat → ServerState → α × ServerState} {V : α → Prop}
    (hmissing : ∀ now state, (f now state).2.missingRootRrsig = state.missingRootRrsig)
    (hchange : ∀ now state, Change server level next state.features (f now state).2.features)
    (hvalue : ∀ now state, inside received state → V (f now state.server).1) :
    Meets (inside received) (onServerNow network f) (fun a state => V a ∧
      inside received state) ends :=
  meets_bind ((rules.interruptible received).readInstant) fun now =>
    meets_act fun state h => ⟨hvalue now state h, rules.change (hmissing now _) (hchange now _) h⟩

theorem keeps_onServer {f : ServerState → α × ServerState}
    (hmissing : ∀ state, (f state).2.missingRootRrsig = state.missingRootRrsig)
    (hchange : ∀ state, Change server level next state.features (f state).2.features) :
    Keeps (inside received) ends (onServer f) :=
  meets_act fun _ h => rules.change (hmissing _) (hchange _) h

theorem keeps_clearTransportFailures : Keeps (inside received) ends clearTransportFailures :=
  rules.keeps_onServer (fun _ => rfl) fun _ => .same

theorem keeps_recordTransportSuccess (mode : TransportMode) :
    Keeps (inside received) ends (recordTransportSuccess mode) :=
  rules.keeps_onServer (fun _ => rfl) fun _ => .same

theorem keeps_recordTransportFailure (mode : TransportMode) :
    Keeps (inside received) ends (recordTransportFailure mode) :=
  rules.keeps_onServer (fun _ => rfl) fun _ => .same

theorem keeps_downgradeFeature (hlower : next lower) :
    Keeps (inside received) ends (downgradeFeature network lower) :=
  meets_bind ((rules.interruptible received).readInstant) fun now =>
    rules.keeps_onServer (fun _ => rfl) fun _ => .downgrade hlower now

theorem meets_retryLower {lower : Option FeatureLevel} {otherwise : Attempt α}
    (hlower : ∀ l, lower = some l → next l)
    (hotherwise : Meets (inside received) otherwise Q ends) :
    Meets (inside received) (retryLower vars lower otherwise) Q ends := by
  cases lower with
  | none => exact hotherwise
  | some l =>
    exact meets_ite (fun _ => rules.meets_continueAt rfl (hlower l rfl)) fun _ => hotherwise

/-! ### Sending -/

theorem meets_send {route : Route} {answers : Nat → Bytes → Except ResolveError α}
    {responseOf : α → Bytes} (hroute : route = .tls ↔ level.usesTls = true)
    (hone : OneAttempt (received.routes ++ [route])) :
    Meets (inside received) (send route packet answers responseOf)
      (fun answer => inside ⟨received.routes ++ [route], (answer.map responseOf).toOption⟩) ends :=
  meets_act fun _ h => rules.sent hroute hone h

theorem meets_exchangeStream {route : Route} {answers : Nat → Bytes → Except ResolveError Bytes}
    (hroute : route = .tls ↔ level.usesTls = true)
    (htwice : OneAttempt (received.routes ++ [route] ++ [route])) :
    Meets (inside received) (exchangeStream network route answers packet)
      (fun answer state => ∃ routes, inside ⟨routes, answer.toOption⟩ state) ends := by
  have hone : OneAttempt (received.routes ++ [route]) :=
    htwice.imp (List.sublist_append_left _ _).trans (List.sublist_append_left _ _).trans
  refine meets_bind meets_read fun reused => ?_
  refine meets_bind (rules.meets_send hroute hone) fun answer => ?_
  cases answer with
  | ok response => exact meets_pure fun _ h => ⟨_, h⟩
  | error error =>
    refine meets_ite (fun _ => ?_) fun _ => meets_pure fun _ h => ⟨_, h⟩
    refine (rules.meets_send hroute htwice).imp fun answer _ h => ?_
    cases answer <;> exact ⟨_, h⟩

theorem meets_attemptTls (hlevel : level.usesTls = true) :
    Meets (inside ⟨[], none⟩) (attemptTls server network vars level packet)
      (fun response state => ∃ routes, inside ⟨routes, some response⟩ state) ends := by
  refine meets_bind (rules.meets_exchangeStream (by simp [hlevel]) (.inr (List.Sublist.refl _)))
    fun answer => meets_exists fun routes => ?_
  match answer with
  | .ok response => exact meets_pure fun _ h => ⟨_, h⟩
  | .error (.io kind) =>
    refine meets_ite (fun _ => rules.meets_returnError _) fun hmode => ?_
    refine meets_bind (rules.meets_onServerNow (V := fun lower => ∀ l, lower = some l → next l)
      (fun _ _ => rfl) (fun now _ => .tlsFailure now) fun _ _ h _ => rules.tlsFailure hmode h)
      fun lower => meets_assume fun hlower => ?_
    cases lower with
    | none => exact rules.meets_returnError _
    | some l =>
      refine meets_ite (fun _ => ?_) fun _ => rules.meets_returnError _
      exact meets_bind (rules.keeps_clearTransportFailures) fun _ =>
        rules.meets_continueAt rfl (hlower l rfl)
  | .error (.wire _) | .error .link | .error .noNameServers | .error .noSuchResourceRecord
  | .error (.dnsError ..) | .error (.dnssecValidationFailed ..) | .error .noTrustAnchor
  | .error .queryAborted | .error .queryRefused | .error .maxAttemptsReached
  | .error .resourceRecordTypeUnsupported | .error .resourceRecordTypeObsolete
  | .error .inconsistentServiceRecords | .error .stubLoop | .error (.unsupportedFamily _)
  | .error (.protocol _) => exact rules.meets_returnError _

theorem meets_attemptTcpRetry (hlevel : level.usesTls = false) :
    Meets (inside ⟨[.udp], some response⟩) (attemptTcpRetry server network vars level packet)
      (fun response state => ∃ routes, inside ⟨routes, some response⟩ state) ends := by
  refine meets_bind ((rules.interruptible _).remaining) fun _ => ?_
  refine meets_bind (rules.meets_exchangeStream (by simp [hlevel]) (.inl (List.Sublist.refl _)))
    fun answer => meets_exists fun routes => ?_
  cases answer with
  | ok response =>
    exact meets_bind (rules.keeps_recordTransportSuccess .tcp) fun _ => meets_pure fun _ h => ⟨_, h⟩
  | error error =>
    refine meets_bind (rules.keeps_recordTransportFailure .tcp) fun _ => ?_
    refine meets_ite (fun hlower => ?_) fun _ => rules.meets_returnError _
    have hnext := rules.lower hlower.2.2.1
    exact meets_bind (rules.keeps_downgradeFeature hnext) fun _ => rules.meets_continueAt rfl hnext

theorem meets_recordUdpLoss (managedOpt : Bool) :
    Meets (inside received) (recordUdpLoss server network level managedOpt)
      (fun lower state => (∀ l, lower = some l → next l) ∧ inside received state) ends := by
  refine meets_ite (fun hmanaged => ?_) fun _ => meets_pure fun _ h => ⟨by simp, h⟩
  exact rules.meets_onServerNow (fun _ _ => rfl) (fun _ _ => .lax hmanaged.2)
    fun _ _ _ _ => rules.failure hmanaged.2

theorem meets_udpFailure {managedOpt : Bool} {error : ResolveError} :
    Meets (inside received) (udpFailure server network vars level managedOpt error : Attempt α) Q
      ends := by
  refine meets_bind (rules.meets_recordUdpLoss managedOpt) fun lower =>
    meets_assume fun hlower => ?_
  cases hretry : lower.filter fun _ => vars.featureRetries < maxFeatureRetries with
  | some l =>
    refine meets_bind (rules.keeps_clearTransportFailures) fun _ => ?_
    exact rules.meets_continueAt rfl (hlower l (Option.filter_eq_some_iff.mp hretry).1)
  | none =>
    refine meets_ite (fun _ => ?_) fun _ => rules.meets_returnError _
    refine meets_bind (rules.keeps_recordTransportFailure .udp) fun _ => ?_
    exact meets_ite (fun _ => rules.meets_continueSame rfl) fun _ => rules.meets_returnError _

theorem meets_attemptUdp (houtbound : outbound.packet = packet) (hlevel : level.usesTls = false) :
    Meets (inside ⟨[], none⟩) (attemptUdp server network vars level outbound)
      (fun answer state => ∃ routes, inside ⟨routes, some answer.1⟩ state) ends := by
  subst houtbound
  refine meets_bind (rules.meets_send (by simp [hlevel]) (.inl (by simp))) fun answer => ?_
  match answer with
  | .ok (response, fragmentSize) =>
    refine meets_bind (rules.keeps_onServer (fun _ => rfl) fun _ => .same) fun _ => ?_
    refine meets_bind ((rules.interruptible _).orReturn _) fun header => meets_assume fun _ => ?_
    refine meets_ite (fun _ => ?_) fun _ => ?_
    · refine meets_bind (rules.keeps_recordTransportSuccess .udp) fun _ => ?_
      refine meets_bind (meets_onlyIf fun _ =>
        rules.keeps_onServer (fun _ => rfl) fun _ => .same) fun _ => ?_
      exact meets_bind (rules.meets_attemptTcpRetry hlevel) fun _ => meets_pure fun _ h => h
    · exact meets_bind (rules.keeps_recordTransportSuccess .udp) fun _ =>
        meets_pure fun _ h => ⟨_, h⟩
  | .error error => exact rules.meets_udpFailure

theorem meets_attemptTcp (hlevel : level.usesTls = false) :
    Meets (inside ⟨[], none⟩) (attemptTcp network vars packet)
      (fun answer state => ∃ routes, inside ⟨routes, some answer.1⟩ state) ends := by
  refine meets_bind (rules.meets_exchangeStream (by simp [hlevel]) (.inl (by decide)))
    fun answer => meets_exists fun routes => ?_
  cases answer with
  | ok response =>
    exact meets_bind (rules.keeps_recordTransportSuccess .tcp) fun _ => meets_pure fun _ h => ⟨_, h⟩
  | error error =>
    refine meets_bind (rules.keeps_recordTransportFailure .tcp) fun _ => ?_
    exact meets_ite (fun _ => rules.meets_continueSame rfl) fun _ => rules.meets_returnError _

/-! ### Responses -/

theorem meets_recordInvalidPacket :
    Meets (inside received) (recordInvalidPacket server network level)
      (fun lower state => (∀ l, lower = some l → next l) ∧ inside received state) ends := by
  refine meets_bind (rules.keeps_onServer (fun _ => rfl) fun _ => .same) fun _ => ?_
  refine meets_ite (fun _ => meets_pure fun _ h => ⟨by simp, h⟩) fun hmode => ?_
  cases hlower : invalidPacketLevel server level with
  | none => exact meets_pure fun _ h => ⟨by simp, h⟩
  | some lower =>
    have hnext := rules.invalid hmode hlower
    exact meets_bind (rules.keeps_downgradeFeature hnext) fun _ =>
      meets_pure fun _ h => ⟨fun l hl => Option.some.inj hl ▸ hnext, h⟩

theorem keeps_readOrRetry (x : Except WireError α) :
    Keeps (inside received) ends (readOrRetry server network vars level x) := by
  cases x with
  | ok a => exact meets_pure fun _ h => h
  | error error =>
    refine meets_bind (rules.meets_recordInvalidPacket) fun lower => meets_assume fun hlower => ?_
    exact rules.meets_retryLower hlower (rules.meets_returnError _)

theorem keeps_optUnsupported {message : Text} {retries : Bool} :
    Meets (inside received)
      (optUnsupported server network vars level query response message retries : Attempt α)
      Q ends := by
  refine meets_ite (fun _ => rules.meets_returnError _) fun hmode => ?_
  refine meets_ite (fun _ => ?_) fun htls => ?_
  · exact meets_bind (rules.keeps_onServer (fun _ => rfl) fun _ => .lax hmode) fun _ =>
      rules.meets_returnResponse _
  · refine meets_bind (meets_bind ((rules.interruptible received).readInstant) fun _ =>
      rules.keeps_onServer (fun _ => rfl) fun _ => .lax hmode) fun lower => ?_
    refine meets_ite (fun _ => ?_) fun _ => rules.meets_returnResponse _
    exact rules.meets_retryLower (fun _ _ => rules.badOpt hmode htls) (rules.meets_returnResponse _)

theorem keeps_checkOpt :
    Keeps (inside received) ends (checkOpt server network vars level query response opt rcode) := by
  cases opt with
  | none => exact rules.keeps_optUnsupported
  | some opt =>
    refine meets_ite (fun _ => rules.keeps_optUnsupported) fun _ => ?_
    refine meets_ite (fun hdo => ?_) fun _ => meets_pure fun _ h => h
    refine meets_ite (fun _ => rules.meets_returnError _) fun hmode => ?_
    have hsends : level.sendsDnssecOk = true := (Bool.and_eq_true_iff.mp hdo).1
    refine meets_bind (rules.meets_onServerNow (V := next) (fun _ _ => rfl) (fun _ _ => .lax hmode)
      fun _ _ _ => rules.doOff hmode hsends) fun lower => meets_assume fun hlower => ?_
    exact rules.meets_retryLower (fun l hl => Option.some.inj hl ▸ hlower)
      (rules.meets_returnResponse _)

theorem keeps_checkServfail :
    Keeps (inside received) ends (checkServfail server network vars level query opt rcode) := by
  refine meets_bind ((rules.interruptible _).orReturn _) fun extended => meets_assume fun _ => ?_
  match extended with
  | some (ede, message) =>
    refine meets_ite (fun _ => ?_) fun _ => ?_
    · exact meets_bind ((rules.interruptible received).remaining) fun _ =>
        rules.meets_continueAt rfl rules.same
    · refine meets_bind ((rules.interruptible _).orReturn _) fun question =>
        meets_assume fun _ => ?_
      exact meets_ite (fun _ => rules.meets_returnError _) fun _ => rules.meets_returnError _
  | none =>
    exact meets_ite (fun _ => rules.meets_continueAt rfl rules.same) fun _ =>
      meets_pure fun _ h => h

theorem keeps_checkRcode :
    Keeps (inside received) ends (checkRcode server vars level query response rcode) := by
  refine meets_ite (fun hlower => ?_) fun _ => meets_pure fun _ h => h
  refine meets_ite (fun _ => rules.meets_returnResponse _) fun _ => ?_
  exact rules.meets_continueAt rfl (rules.lower hlower.2.2.1)

theorem keeps_recordVerified {verifiedLevel : FeatureLevel} :
    Keeps (inside received) ends (recordVerified network vars level verifiedLevel rcode) := by
  refine meets_bind (meets_onlyIf fun _ => rules.keeps_downgradeFeature rules.same) fun _ => ?_
  exact rules.keeps_onServer (fun _ => rfl) fun _ => .success verifiedLevel

/-- **What is done with a response keeps the rules**, and the answer is that for the client. -/
theorem meets_judge {transport : TransportMode} {viaTls : Bool} :
    Meets (fun state => ∃ routes, inside ⟨routes, some response⟩ state)
      (judge server network vars level query outbound response transport viaTls)
      (fun answer state => answer = liftWire (responseForClient query response) ∧
        ∃ routes, inside ⟨routes, some response⟩ state) ends := by
  refine meets_exists fun routes => ?_
  refine meets_bind (rules.keeps_readOrRetry _) fun opt => ?_
  refine meets_bind (rules.keeps_readOrRetry _) fun rcode => ?_
  refine meets_bind (meets_onlyIf fun _ => rules.keeps_checkOpt) fun _ => ?_
  refine meets_bind (meets_onlyIf fun _ => rules.rootRrsig routes response) fun _ => ?_
  refine meets_bind (meets_onlyIf fun _ => rules.keeps_checkServfail) fun _ => ?_
  refine meets_bind (rules.keeps_checkRcode) fun _ => ?_
  refine meets_bind (meets_onlyIf fun _ => rules.keeps_recordVerified) fun _ => ?_
  exact meets_pure fun _ h => ⟨rfl, routes, h⟩

end RoundRules

/-- **Sending keeps the rules**, and a response has come back. -/
theorem meets_attemptSend {server : Server} {network : Network} {query : Bytes} {vars : Vars}
    {choice : Choice} {inside : Progress → ExchangeState → Prop}
    {ends : LoopFlow Answer Vars → ExchangeState → Prop} {next : FeatureLevel → Prop}
    (rules : RoundRules server network query vars choice.level outbound.packet inside ends next) :
    Meets (inside ⟨[], none⟩) (attemptSend server network vars choice outbound)
      (fun answer state => ∃ routes, inside ⟨routes, some answer.1⟩ state) ends := by
  refine meets_ite (fun htls => ?_) fun hplain => ?_
  · exact meets_bind (rules.meets_attemptTls htls) fun _ => meets_pure fun _ h => h
  · have hplain : choice.level.usesTls = false := by simpa using hplain
    cases choice.transport with
    | udp => exact meets_bind (rules.meets_attemptUdp rfl hplain) fun _ => meets_pure fun _ h => h
    | tcp => exact meets_bind (rules.meets_attemptTcp hplain) fun _ => meets_pure fun _ h => h

end RustdResolved.Edns.Rounds
