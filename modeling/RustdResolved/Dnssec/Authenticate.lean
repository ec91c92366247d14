import RustdResolved.Dnssec.Rrsets
import RustdResolved.Dnssec.Semantics
import RustdResolved.Lib.Stateful
import RustdResolved.Resolver.Modes
import RustdResolved.Rfc5011.Runtime

/-! # Authentication of a response

`authenticateDnsResponse` asks for a verified signature over every record set of a response, by a
key that a chain of signed delegations connects to a trust anchor, and then looks at what the
response says.

The validator fetches keys, reads clocks, keeps keys in a cache and changes the state file of RFC
5011. What comes from outside is a function of how often it was asked for; the rest is state
(`World`). The state also has the list of the calls of `verify_rrsig`, which nothing reads. -/

namespace RustdResolved.Dnssec.Authenticate

open Lib Stateful Maps Wire Octets PacketHeader Record DnssecRecords Packet Resolver Error Modes
open NameText
open Dnssec.Canonical (SystemTime nanosPerSecond durationSince)
open Verify Rrsets Semantics
open Rfc5011.Manager (AnchorId)
open Rfc5011.Runtime

/-- What the validator finds around it. -/
structure Surroundings where
  native : Native
  sha1 : Bytes → Bytes
  mode : ValidationMode
  /-- Which of the resolver's servers is asked. -/
  server : Nat
  negativeAnchors : List Text
  positiveAnchors : List PositiveTrustAnchor
  /-- `CacheMaxTTL`, in nanoseconds. -/
  cacheMaxTtl : Nat
  /-- The answer of each exchange with the server. -/
  exchange : Nat → Bytes → Except ResolveError Bytes
  transactionId : Nat → Nat
  systemTime : Nat → SystemTime
  /-- The readings of the monotonic clock, in nanoseconds. -/
  instant : Nat → Nat
  io : Nat → RuntimeIo
  /-- The order of each hash map that the RFC 5011 manager goes over. -/
  order : Nat → List AnchorId → List AnchorId

structure DnskeyCacheKey where
  server : Nat
  zone : Text
  deriving DecidableEq, Repr

structure DnskeyCacheEntry where
  keys : List ResourceRecord
  expires : Nat
  deriving DecidableEq, Repr

structure VerifyCall where
  io : RuntimeIo
  order : List AnchorId → List AnchorId
  anchors : List PositiveTrustAnchor
  packet : Bytes
  rrsigRecord : ResourceRecord
  rrset : List ResourceRecord
  dnskeyRecord : ResourceRecord
  now : SystemTime

/-- What a call does to the files of RFC 5011, and its answer. -/
def VerifyCall.perform (native : Native) (call : VerifyCall) (store : RuntimeStore) :
    Except DnssecError Bool × RuntimeStore :=
  verifyRrsig native call.io call.order call.packet call.rrsigRecord call.rrset call.dnskeyRecord
    call.now store

/-- The state of the validator: the files of RFC 5011, the cache of keys, and what has been done. -/
structure World where
  store : RuntimeStore
  dnskeyCache : FiniteMap DnskeyCacheKey DnskeyCacheEntry
  exchanges : Nat
  clockReads : Nat
  instantReads : Nat
  calls : List VerifyCall

/-- The state in which the resolver starts, without files. -/
def startWorld : World := ⟨⟨.absent, none⟩, ∅, 0, 0, 0, []⟩

abbrev Validator (α : Type) := Effect World ResolveError α

section
variable (env : Surroundings) (anchors : List PositiveTrustAnchor)

def readClock : Validator SystemTime :=
  act fun world =>
    (env.systemTime world.clockReads, { world with clockReads := world.clockReads + 1 })

def readInstant : Validator Nat :=
  act fun world =>
    (env.instant world.instantReads, { world with instantReads := world.instantReads + 1 })

/-! ### Verification with a set of keys -/

section
variable (packet : Bytes)

def callVerifyRrsig (signature : ResourceRecord) (rrset : List ResourceRecord)
    (key : ResourceRecord) (now : SystemTime) : Validator (Except DnssecError Bool) :=
  act fun world =>
    let call : VerifyCall :=
      ⟨env.io world.calls.length, env.order world.calls.length, anchors, packet, signature,
        rrset, key, now⟩
    let (answer, store) := call.perform env.native world.store
    (answer, { world with store := store, calls := world.calls ++ [call] })

def verifyRrsetWithKeysAt (signature : ResourceRecord) (rrset : List ResourceRecord)
    (now : SystemTime) : List ResourceRecord → Validator Bool
  | [] => pure false
  | key :: rest => do
    match ← callVerifyRrsig env anchors packet signature rrset key now with
    | .ok true => pure true
    | .ok false => verifyRrsetWithKeysAt signature rrset now rest
    | .error error => fail (dnssecValidationError (error.toText env.native))

def verifyRrsetWithKeys (signature : ResourceRecord) (rrset keys : List ResourceRecord) :
    Validator Bool := do
  let now ← readClock env
  verifyRrsetWithKeysAt env anchors packet signature rrset now keys

/-- The first of the signatures that one of the keys verifies. -/
def anyVerifies (rrset keys : List ResourceRecord) (now : SystemTime) :
    List ResourceRecord → Validator Bool
  | [] => pure false
  | signature :: rest => do
    if ← verifyRrsetWithKeysAt env anchors packet signature rrset now keys then pure true
    else anyVerifies rrset keys now rest

def verifyPacketRrsetAt (owner : Text) (rrType : Nat) (keys : List ResourceRecord)
    (now : SystemTime) : Validator Bool := do
  let sections ← lift (parseWholePacket packet)
  match sections.records.find? fun record =>
    record.rrType == rrType && dnsNamesEqual record.name.text owner with
  | none => pure false
  | some first => do
    let key : RrsetKey := ⟨first.name.canonicalWire, rrType, first.rrClass⟩
    let signatures ← lift (matchingSignatures packet sections.records key)
    anyVerifies env anchors packet (matchingRrset sections.records key) keys now signatures

def verifyPacketRrset (owner : Text) (rrType : Nat) (keys : List ResourceRecord) :
    Validator Bool := do
  let now ← readClock env
  verifyPacketRrsetAt env anchors packet owner rrType keys now

/-! ### Chains of trust -/

def dnssecFetch (name : Text) (rrType : Nat) : Validator Bytes := do
  let exchanges ← act fun world =>
    (world.exchanges, { world with exchanges := world.exchanges + 1 })
  let query ← lift (liftWire (makeQueryWithClass name rrType classIn (env.transactionId exchanges)))
  lift (env.exchange exchanges query)

def verifyDenialRecords (parentKeys : List ResourceRecord) :
    List ResourceRecord → Validator (Option Bool)
  | [] => pure none
  | record :: rest => do
    if ← verifyPacketRrset env anchors packet record.name.text record.rrType parentKeys then do
      let others ← verifyDenialRecords parentKeys rest
      pure (some (others.getD true))
    else pure (some false)

def authenticatedDsDenial (child : Text) (parentKeys : List ResourceRecord) : Validator Bool := do
  let sections ← lift (parseWholePacket packet)
  let records := authenticatedRecords sections
  match ← verifyDenialRecords env anchors packet parentKeys
      (records.filter fun record => record.rrType == typeNsec || record.rrType == typeNsec3) with
  | some true => do
    if ← lift (nsecProvesDsAbsence packet child records) then pure true
    else lift (nsec3ProvesDsAbsence env.sha1 records child)
  | _ => pure false

end

def cachedTrustedDnskeys (zone : Text) : Validator (Option (List ResourceRecord)) := do
  let key : DnskeyCacheKey := ⟨env.server, normalizeDnsName zone⟩
  match ← act fun world => (world.dnskeyCache.lookup key, world) with
  | none => pure none
  | some entry => do
    let now ← readInstant env
    if entry.expires ≤ now then
      act fun world => (none, { world with dnskeyCache := world.dnskeyCache.erase key })
    else pure (some entry.keys)

def cacheTrustedDnskeys (zone : Text) (packet : Bytes) (keys : List ResourceRecord) :
    Validator Unit := do
  let now ← readClock env
  let seconds := (durationSince now 0).getD 0 / nanosPerSecond
  let lifetime ← lift (dnskeyCacheLifetime packet zone seconds)
  let lifetime := min (lifetime * nanosPerSecond) env.cacheMaxTtl
  if lifetime = 0 then pure ()
  else do
    let now ← readInstant env
    let key : DnskeyCacheKey := ⟨env.server, normalizeDnsName zone⟩
    act fun world => ((), { world with
      dnskeyCache := world.dnskeyCache.insert key ⟨keys, now + lifetime⟩ })

/-- The keys of a packet that the given test accepts have signed all the keys of the zone. -/
def zoneKeys (packet : Bytes) (zone : Text) (isSigningKey : ResourceRecord → Bool)
    (failure : Text) : Validator (List ResourceRecord) := do
  let keys ← lift (recordsOfType packet zone typeDnskey)
  let signingKeys := keys.filter isSigningKey
  if signingKeys.isEmpty then fail (dnssecValidationError failure)
  else do
    if ← verifyPacketRrset env anchors packet zone typeDnskey signingKeys then do
      let trusted ← lift (authenticatedZoneSigningKeys keys)
      if trusted.isEmpty then
        fail (dnssecValidationError
          "authenticated DNSKEY RRset contains no usable zone keys".toList)
      else pure trusted
    else fail (dnssecValidationError failure)

/-- A test that fails is a test that says no. -/
def isOkAndTrue {ε : Type} : Except ε Bool → Bool
  | .ok true => true
  | _ => false

/-- Goes down from a zone whose keys are trusted: the keys of the last zone and the packet they came
in, or nothing when a delegation on the way is not signed. -/
def descend (trusted : List ResourceRecord) (trustedPacket : Bytes) :
    List Text → Validator (Option (List ResourceRecord × Bytes))
  | [] => pure (some (trusted, trustedPacket))
  | child :: rest => do
    let dsPacket ← dnssecFetch env child typeDs
    let dsRecords ← lift (recordsOfType dsPacket child typeDs)
    if dsRecords.isEmpty then do
      let denied ← authenticatedDsDenial env anchors dsPacket child trusted
      let nsPacket ← dnssecFetch env child typeNs
      let nsRecords ← lift (recordsOfType nsPacket child typeNs)
      -- no zone cut: the keys stay those of the zone above
      if nsRecords.isEmpty then descend trusted trustedPacket rest
      else if denied then pure none
      else fail (dnssecValidationError "unsigned DNSSEC delegation denial".toList)
    else do
      if ← verifyPacketRrset env anchors dsPacket child typeDs trusted then do
        let keyPacket ← dnssecFetch env child typeDnskey
        let keys ← zoneKeys env anchors keyPacket child
          (fun key => dsRecords.any fun ds => isOkAndTrue (dsMatchesDnskey env.native ds key))
          "delegated DNSKEY validation failed".toList
        descend keys keyPacket rest
      else fail (dnssecValidationError "DS RRset validation failed".toList)

/-- The place of the deepest of the zones that has an anchor. -/
def anchorIndex (zones : List Text) : Option (Nat × Text) :=
  zones.zipIdx.reverse.findSome? fun (owner, place) =>
    if anchors.any fun anchor => dnsNamesEqual anchor.owner owner then some (place, owner) else none

/-- The trusted keys of a zone; nothing when the zone is not signed. -/
def trustedDnskeys (zone : Text) : Validator (Option (List ResourceRecord)) := do
  match ← cachedTrustedDnskeys env zone with
  | some keys => pure (some keys)
  | none =>
    let zones := dnsNameAncestors zone
    match anchorIndex anchors zones with
    | none => pure none
    | some (place, owner) => do
      let anchorSet := anchors.filter fun anchor => dnsNamesEqual anchor.owner owner
      let anchorPacket ← dnssecFetch env owner typeDnskey
      let trusted ← zoneKeys env anchors anchorPacket owner
        (fun key => anchorSet.any fun anchor =>
          isOkAndTrue (trustAnchorMatchesDnskey env.native anchor key))
        "trust anchor DNSKEY validation failed".toList
      match ← descend env anchors trusted anchorPacket (zones.drop (place + 1)) with
      | none => pure none
      | some (trusted, trustedPacket) => do
        cacheTrustedDnskeys env zone trustedPacket trusted
        pure (some trusted)

/-! ### The verdict -/

/-- The keys found for the signers of a response so far. -/
abbrev TrustedKeyCache := FiniteMap Text (Option (List ResourceRecord))

def signerKeys (signer : Text) (cache : TrustedKeyCache) :
    Validator (Option (List ResourceRecord) × TrustedKeyCache) := do
  match cache.lookup signer with
  | some keys => pure (keys, cache)
  | none => do
    let keys ← trustedDnskeys env anchors signer
    pure (keys, cache.insert signer keys)

/-- The loop over the signatures of a set: whether one was verified, and whether the zone of one is
not signed. -/
def verifySignatures (response : Bytes) (rrset : List ResourceRecord) :
    List ResourceRecord → Bool → TrustedKeyCache → Validator (Bool × Bool × TrustedKeyCache)
  | [], chainWasInsecure, cache => pure (false, chainWasInsecure, cache)
  | signature :: rest, chainWasInsecure, cache => do
    let parsed ← lift (liftWire (parseRrsig response signature))
    let (keys, cache) ← signerKeys env anchors (normalizeDnsName parsed.signer.text) cache
    match keys with
    | some keys => do
      if ← verifyRrsetWithKeys env anchors response signature rrset keys then
        pure (true, chainWasInsecure, cache)
      else verifySignatures response rrset rest chainWasInsecure cache
    | none => verifySignatures response rrset rest true cache

/-- The loop over the record sets; a verdict ends it. -/
def authenticateRrsets (response : Bytes) (records : List ResourceRecord) :
    List RrsetKey → TrustedKeyCache → Validator (Option DnssecVerdict)
  | [], _ => pure none
  | key :: rest, cache => do
    let signatures ← lift (matchingSignatures response records key)
    if signatures.isEmpty then
      if env.mode = .yes then fail (dnssecValidationError "DNSSEC signature is missing".toList)
      else pure (some .insecure)
    else do
      let (verified, chainWasInsecure, cache) ←
        verifySignatures env anchors response (matchingRrset records key) signatures false cache
      if verified then authenticateRrsets response records rest cache
      else if chainWasInsecure then pure (some .insecure)
      else fail (dnssecValidationError "signature verification failed".toList)

def validateResponse (query response : Bytes) : Validator (DnssecVerdict × Bytes) := do
  let sections ← lift (parseWholePacket response)
  let records := authenticatedRecords sections
  let rrsets ← lift (substantiveRrsets response records)
  if rrsets.isEmpty then
    if env.mode = .yes then
      fail (dnssecValidationError "DNSSEC response contains no authenticated records".toList)
    else pure (.insecure, response)
  else do
    match ← authenticateRrsets env anchors response records rrsets ∅ with
    | some verdict => pure (verdict, response)
    | none => do
      let verdict ← lift (authenticatedResponseSemantics env.sha1 query response records)
      if verdict = .secure then do
        let response ← lift (liftWire (setAuthenticatedData response true))
        pure (.secure, response)
      else pure (verdict, response)

def skipsValidation (query : Bytes) (requestFlags : Nat) : Except ResolveError Bool :=
  if env.mode = .no then .ok true
  else do
    let header ← liftWire (Header.parse query)
    if header.checkingDisabled then .ok true
    else if hasFlag requestFlags rustdResolveNoValidate then .ok true
    else do
      let question ← liftWire (firstQuestion query)
      .ok (negativeTrustAnchorMatches question.name.text env.negativeAnchors env.positiveAnchors)

def anchorsFor (requestFlags : Nat) : List PositiveTrustAnchor :=
  if hasFlag requestFlags rustdResolveNoTrustAnchor then [] else env.positiveAnchors

def authenticateDnsResponse (query response : Bytes) (requestFlags : Nat) :
    Validator (DnssecVerdict × Bytes) := do
  let response ← lift (liftWire (setAuthenticatedData response false))
  if ← lift (skipsValidation env query requestFlags) then pure (.notValidated, response)
  else if (anchorsFor env requestFlags).isEmpty then
    if env.mode = .yes then fail .noTrustAnchor else pure (.insecure, response)
  else validateResponse env (anchorsFor env requestFlags) query response

end

end RustdResolved.Dnssec.Authenticate
