import RustdResolved.Dnssec.Canonical
import RustdResolved.Dnssec.NameText
import RustdResolved.Lib.Maps

/-! # The trust anchors of RFC 5011

The manager keeps an entry for every key it has seen at a trust point. A key that a validated DNSKEY
record set presents is added after a hold-down, a trusted key can be revoked by itself, and a
revoked key is forgotten after another hold-down.

The manager's hash maps have no order. Where the source goes over all entries, the model takes the
order as an argument. -/

namespace RustdResolved.Rfc5011.Manager

open Lib.Maps Wire Octets PacketHeader Presentation
open Dnssec.Canonical (SystemTime nanosPerSecond durationSince)
open Dnssec.NameText

def persistenceVersion : Nat := 1
def revokeFlag : Nat := 1 <<< 7
def sepFlag : Nat := 1
def zoneFlag : Nat := 1 <<< 8

/-- The hold-down of thirty days, in nanoseconds. -/
def defaultAddHoldDown : Nat := 30 * 24 * 60 * 60 * nanosPerSecond
def defaultRemoveHoldDown : Nat := 30 * 24 * 60 * 60 * nanosPerSecond

/-- What a key is known by: its owner, flags, algorithm and the key itself. -/
abbrev AnchorId := Bytes

inductive TrustAnchorState
  | addHoldDown
  | valid
  | missing
  | revoked
  | removeHoldDown
  deriving DecidableEq, Repr

def TrustAnchorState.isTrusted : TrustAnchorState → Bool
  | .valid | .missing => true
  | _ => false

def TrustAnchorState.isRevoked : TrustAnchorState → Bool
  | .revoked | .removeHoldDown => true
  | _ => false

def canonicalOwner (owner : Text) : Text :=
  let owner := ((trim owner).rdropWhile (· == '.')).map Char.toLower
  if owner.isEmpty then ['.'] else owner ++ ['.']

def anchorId (owner : Text) (flags : Nat) (algorithm : UInt8) (publicKey : Bytes) : AnchorId :=
  asBytes (canonicalOwner owner) ++ [0] ++ u16ToBeBytes (clearFlags flags revokeFlag) ++
    [algorithm] ++ publicKey

/-- A key of a validated DNSKEY record set. -/
structure ObservedDnskey where
  owner : Text
  flags : Nat
  algorithm : UInt8
  keyTag : Nat
  publicKey : Bytes
  originalTtl : Nat
  authenticatedSelfRevocation : Bool
  deriving DecidableEq, Repr

section
variable (key : ObservedDnskey)

def ObservedDnskey.anchorId : AnchorId :=
  Manager.anchorId key.owner key.flags key.algorithm key.publicKey

def ObservedDnskey.isSep : Bool :=
  key.flags &&& (zoneFlag ||| sepFlag) == zoneFlag ||| sepFlag

def ObservedDnskey.isRevoked : Bool := key.flags &&& revokeFlag != 0

end

structure TrustAnchorEntry where
  state : TrustAnchorState
  owner : Text
  keyTag : Nat
  flags : Nat
  algorithm : UInt8
  publicKey : Bytes
  firstSeen : SystemTime
  lastSeen : SystemTime
  lastStateChange : SystemTime
  addHoldDownTime : Nat
  acceptanceValidators : List AnchorId
  deriving DecidableEq, Repr

def TrustAnchorEntry.anchorId (entry : TrustAnchorEntry) : AnchorId :=
  Manager.anchorId entry.owner entry.flags entry.algorithm entry.publicKey

abbrev Anchors := FiniteMap AnchorId TrustAnchorEntry

structure TrustAnchorManager where
  anchors : Anchors
  minimumAddHoldDown : Nat
  removeHoldDown : Nat

def withParameters (minimumAddHoldDown removeHoldDown : Nat) : TrustAnchorManager :=
  ⟨∅, minimumAddHoldDown, removeHoldDown⟩

def withPath : TrustAnchorManager := withParameters defaultAddHoldDown defaultRemoveHoldDown

variable (manager : TrustAnchorManager)

def TrustAnchorManager.entry (id : AnchorId) : Option TrustAnchorEntry :=
  manager.anchors.lookup id

/-- The time from `since` to `now` is at least `duration`. -/
def hasElapsed (now since : SystemTime) (duration : Nat) : Bool :=
  match durationSince now since with
  | some elapsed => decide (duration ≤ elapsed)
  | none => false

/-! ### The state file -/

inductive StateFile
  | absent
  | undecodable
  | persisted (version : Nat) (anchors : Anchors)

/-- Why the state file cannot be used. -/
inductive LoadError
  | undecodable
  | unsupportedVersion (version : Nat)
  deriving DecidableEq, Repr

def TrustAnchorManager.loadFromDisk : StateFile → Except LoadError TrustAnchorManager
  | .absent => .ok manager
  | .undecodable => .error .undecodable
  | .persisted version anchors =>
    if version ≠ persistenceVersion then .error (.unsupportedVersion version)
    else .ok { manager with anchors := anchors }

def TrustAnchorManager.saveToDisk : StateFile :=
  .persisted persistenceVersion manager.anchors

/-! ### Seeds and observations -/

def newEntry (state : TrustAnchorState) (key : ObservedDnskey) (now : SystemTime)
    (addHoldDownTime : Nat) (acceptanceValidators : List AnchorId) : TrustAnchorEntry :=
  { state := state
    owner := canonicalOwner key.owner
    keyTag := key.keyTag
    flags := clearFlags key.flags revokeFlag
    algorithm := key.algorithm
    publicKey := key.publicKey
    firstSeen := now
    lastSeen := now
    lastStateChange := now
    addHoldDownTime := addHoldDownTime
    acceptanceValidators := acceptanceValidators }

def TrustAnchorManager.seedValidAnchor (key : ObservedDnskey)
    (now : SystemTime) : TrustAnchorManager :=
  { manager with
    anchors := manager.anchors.insert key.anchorId
      (newEntry .valid key now manager.minimumAddHoldDown []) }

/-- The key of an identity in the observation: the last one, as a hash map keeps it. -/
def observedKey (keys : List ObservedDnskey) (id : AnchorId) : Option ObservedDnskey :=
  keys.reverse.find? (·.anchorId == id)

/-- What an observation does to a tracked entry. -/
inductive Outcome
  | keep (entry : TrustAnchorEntry) (changed : Bool)
  | reset
  | purge
  deriving DecidableEq, Repr

/-- All the anchors that vouched for the entry when it was added are revoked by now. -/
def validatorsRevoked (anchors : Anchors) (entry : TrustAnchorEntry) : Bool :=
  !entry.acceptanceValidators.isEmpty && entry.acceptanceValidators.all fun validator =>
    match anchors.lookup validator with
    | some validator => validator.state.isRevoked
    | none => false

def observeAddHoldDown (anchors : Anchors) (now : SystemTime) (entry : TrustAnchorEntry) :
    Option ObservedDnskey → Outcome
  | none => .reset
  | some key =>
    if validatorsRevoked anchors entry || key.isRevoked then .reset
    else if hasElapsed now entry.firstSeen entry.addHoldDownTime then
      .keep { entry with
        lastSeen := now, state := .valid, lastStateChange := now, acceptanceValidators := [] } true
    else .keep { entry with lastSeen := now } false

/-- A trusted entry, present or missing so far. -/
def observeTrusted (now : SystemTime) (entry : TrustAnchorEntry) : Option ObservedDnskey → Outcome
  | some key =>
    if key.isRevoked && key.authenticatedSelfRevocation then
      .keep { entry with
        state := .revoked, flags := entry.flags ||| revokeFlag, keyTag := key.keyTag,
        lastSeen := now, lastStateChange := now } true
    else if !key.isRevoked then
      if entry.state = .missing then
        .keep { entry with lastSeen := now, state := .valid, lastStateChange := now } true
      else .keep { entry with lastSeen := now } false
    -- the revoke bit without the key's own signature revokes nothing
    else .keep entry false
  | none =>
    if entry.state ≠ .missing then
      .keep { entry with state := .missing, lastStateChange := now } true
    else .keep entry false

def observeRevoked (now : SystemTime) (entry : TrustAnchorEntry) : Option ObservedDnskey → Outcome
  | none => .keep { entry with state := .removeHoldDown, lastStateChange := now } true
  | some _ => .keep { entry with lastSeen := now } false

def observeRemoveHoldDown (removeHoldDown : Nat) (now : SystemTime) (entry : TrustAnchorEntry) :
    Option ObservedDnskey → Outcome
  | some _ => .keep { entry with state := .revoked, lastSeen := now, lastStateChange := now } true
  | none => if hasElapsed now entry.lastStateChange removeHoldDown then
      .purge else .keep entry false

def trackedOutcome (removeHoldDown : Nat) (anchors : Anchors) (now : SystemTime)
    (entry : TrustAnchorEntry) (present : Option ObservedDnskey) : Outcome :=
  match entry.state with
  | .addHoldDown => observeAddHoldDown anchors now entry present
  | .valid | .missing => observeTrusted now entry present
  | .revoked => observeRevoked now entry present
  | .removeHoldDown => observeRemoveHoldDown removeHoldDown now entry present

/-- The variables of the loop over the tracked entries. -/
structure Observation where
  anchors : Anchors
  changed : Bool
  resetAdditions : List AnchorId
  purgeRevoked : List AnchorId

/-- One round of the loop over the tracked entries. -/
def observeTracked (removeHoldDown : Nat) (keys : List ObservedDnskey) (now : SystemTime)
    (observation : Observation) (id : AnchorId) : Observation :=
  match observation.anchors.lookup id with
  | none => observation
  | some snapshot =>
    match trackedOutcome removeHoldDown observation.anchors now snapshot (observedKey keys id) with
    | .keep entry changed =>
      { observation with
        anchors := observation.anchors.insert id entry, changed := observation.changed || changed }
    | .reset =>
      { observation with
        resetAdditions := observation.resetAdditions ++ [id], changed := true }
    | .purge =>
      { observation with purgeRevoked := observation.purgeRevoked ++ [id], changed := true }

/-- One round of the loop over the observed keys: a new key starts its hold-down. -/
def observeNew (minimumAddHoldDown : Nat) (validatingAnchorIds : List AnchorId) (now : SystemTime)
    (state : Anchors × Bool) (key : ObservedDnskey) : Anchors × Bool :=
  if (state.1.lookup key.anchorId).isSome || !key.isSep || key.isRevoked then state
  else
    (state.1.insert key.anchorId
      (newEntry .addHoldDown key now (max minimumAddHoldDown (key.originalTtl * nanosPerSecond))
        validatingAnchorIds), true)

/-- Applies a validated DNSKEY record set; the second part says whether anything changed. -/
def TrustAnchorManager.observeValidatedRrset
    (keys : List ObservedDnskey) (validatingAnchorIds : List AnchorId) (now : SystemTime)
    (order : List AnchorId) : TrustAnchorManager × Bool :=
  let tracked := order.foldl (observeTracked manager.removeHoldDown keys now)
    ⟨manager.anchors, false, [], []⟩
  let anchors := eraseAll (tracked.resetAdditions ++ tracked.purgeRevoked) tracked.anchors
  let (anchors, changed) :=
    if validatingAnchorIds.isEmpty then (anchors, tracked.changed)
    else
      keys.foldl (observeNew manager.minimumAddHoldDown validatingAnchorIds now)
        (anchors, tracked.changed)
  ({ manager with anchors := anchors }, changed)

/-- Forgets revoked entries whose hold-down is over; the second part says whether there were any. -/
def TrustAnchorManager.processTimers (now : SystemTime) : TrustAnchorManager × Bool :=
  let anchors := retain (fun _ entry =>
    !(entry.state == .removeHoldDown &&
      hasElapsed now entry.lastStateChange manager.removeHoldDown)) manager.anchors
  ({ manager with anchors := anchors },
    manager.anchors.entries.length != anchors.entries.length)

def TrustAnchorManager.validAnchors : List TrustAnchorEntry :=
  (values manager.anchors).filter (·.state.isTrusted)

def TrustAnchorManager.revokedAnchorIds : List AnchorId :=
  (manager.anchors.entries.filter fun entry => entry.2.state.isRevoked).map (·.1)

end RustdResolved.Rfc5011.Manager
