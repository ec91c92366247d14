import RustdResolved.Dnssec.NsecDenial

/-! # Denial of existence by NSEC3 records

An NSEC3 record names its owner by a hash. `nsec3DenialResult` goes over the records of a response
and asks for each of them whether its zone and parameters decide about the name (`nsec3Entry`): by
the hash of the name itself, or by a proof of the closest encloser together with the wildcard below
it. The hash is a parameter of the model.

`nsec3Denial` is the same judgement with the record whose zone decided (`nsec3Denial_result`). -/

namespace RustdResolved.Dnssec.Nsec3Denial

open Lib.Result Wire Octets Presentation PacketHeader Record DnssecRecords Resolver.Error NameText
open NsecDenial

/-! ### Hashed owner names -/

def base32hexDigit (byte : UInt8) : Option Nat :=
  if isBetween 48 57 byte then some (byte.toNat - 48)
  else if isBetween 65 86 byte then some (byte.toNat - 65 + 10)
  else if isBetween 97 118 byte then some (byte.toNat - 97 + 10)
  else none

/-- The loop of `decodeBase32hex`: the accumulator, its number of bits and the octets so far. -/
def decodeBase32hexLoop : Bytes → Nat → Nat → Bytes → Option Bytes
  | [], accumulator, bits, output =>
    if bits ≠ 0 ∧ accumulator ≠ 0 then none else some output
  | byte :: rest, accumulator, bits, output =>
    match base32hexDigit byte with
    | none => none
    | some digit =>
      let accumulator := accumulator * 32 + digit
      -- fewer than eight bits were left, so at most one octet is complete
      if bits + 5 ≥ 8 then
        decodeBase32hexLoop rest (accumulator % 2 ^ (bits + 5 - 8)) (bits + 5 - 8)
          (output ++ [UInt8.ofNat (accumulator / 2 ^ (bits + 5 - 8))])
      else decodeBase32hexLoop rest accumulator (bits + 5) output

def decodeBase32hex (value : Bytes) : Option Bytes := decodeBase32hexLoop value 0 0 []

/-- The text after the first dot, or the root. -/
def afterFirstLabel (text : Text) : Text :=
  match splitOnce text with
  | some (_, zone) => zone
  | none => ['.']

/-- The hash in the first label of an NSEC3 owner, and the zone that the other labels name. -/
def nsec3Owner (record : ResourceRecord) : Option (Bytes × Text) :=
  match record.name.canonicalWire with
  | [] => none
  | labelLength :: wire =>
    if labelLength = 0 ∨ labelLength.toNat ≥ wire.length then none
    else if !isUtf8 (wire.take labelLength.toNat) then none
    else
      match decodeBase32hex (wire.take labelLength.toNat) with
      | none => none
      | some ownerHash => some (ownerHash, normalizeDnsName (afterFirstLabel record.name.text))

/-- An NSEC3 record with its zone and the hash of its owner. -/
structure ParsedNsec3 where
  zone : Text
  ownerHash : Bytes
  nsec3 : Nsec3Record
  deriving DecidableEq

def nsec3MaxIterations : Nat := 100

def parsedNsec3Records : List ResourceRecord → Except ResolveError (List ParsedNsec3)
  | [] => .ok []
  | record :: rest =>
    if record.rrType ≠ typeNsec3 then parsedNsec3Records rest
    else do
      let nsec3 ← liftWire (parseNsec3 record)
      let parsed ← parsedNsec3Records rest
      if nsec3.hashAlgorithm ≠ 1 ∨ nsec3.flags > 1 ∨ nsec3.iterations > nsec3MaxIterations ∨
          nsec3.nextHashedOwner.length ≠ 20 then .ok parsed
      else
        match nsec3Owner record with
        | none => .ok parsed
        | some (ownerHash, zone) =>
          if ownerHash.length = 20 then .ok (⟨zone, ownerHash, nsec3⟩ :: parsed) else .ok parsed

def compatibleNsec3Records (parsed : List ParsedNsec3) (zone : Text) (parameters : Nsec3Record) :
    List ParsedNsec3 :=
  parsed.filter fun candidate =>
    dnsNamesEqual candidate.zone zone && candidate.nsec3.hashAlgorithm ==
      parameters.hashAlgorithm &&
      candidate.nsec3.iterations == parameters.iterations && candidate.nsec3.salt == parameters.salt

/-- `count` more rounds of the hash with the salt. -/
def iterateHash (sha1 : Bytes → Bytes) (salt : Bytes) : Nat → Bytes → Bytes
  | 0, output => output
  | count + 1, output => iterateHash sha1 salt count (sha1 (output ++ salt))

def nsec3Hash (sha1 : Bytes → Bytes) (name : Text) (parameters : Nsec3Record) :
    Except ResolveError Bytes := do
  let encoded ← liftWire (encodeName (normalizeDnsName name))
  .ok (iterateHash sha1 parameters.salt parameters.iterations
    (sha1 (lowercase encoded ++ parameters.salt)))

def hashIntervalCovers (owner next name : Bytes) : Bool :=
  if owner < next then owner < name && name < next
  else if next < owner then owner < name || name < next
  else name != owner

/-! ### The judgement -/

section
variable (sha1 : Bytes → Bytes) (compatible : List ParsedNsec3)

def findHash (hash : Bytes) : Option ParsedNsec3 :=
  compatible.find? (·.ownerHash == hash)

def findCover (hash : Bytes) : Option ParsedNsec3 :=
  compatible.find? fun candidate =>
    hashIntervalCovers candidate.ownerHash candidate.nsec3.nextHashedOwner hash

/-- The record of the deepest ancestor in the zone whose hash has one, with the ancestor's place. -/
def closestEncloserEntry (zone : Text) (parameters : Nsec3Record)
    (ancestors : List Text) : Option (Nat × ParsedNsec3) :=
  ancestors.zipIdx.reverse.findSome? fun (ancestor, place) =>
    if dnsNameIsAtOrBelow ancestor zone then
      match nsec3Hash sha1 ancestor parameters with
      | .ok hash => (findHash compatible hash).map fun candidate => (place, candidate)
      | .error _ => none
    else none

/-- A bitmap with a zone cut from the parent's side, or a redirection of all that lies below. -/
def cutsBelow (types : List Nat) : Bool :=
  types.contains typeDname || (types.contains typeNs && !types.contains typeSoa)

/-- The judgement on the wildcard below the closest encloser. -/
def nsec3Wildcard (parameters : Nsec3Record) (encloser : Text)
    (rrType : Nat) : Except ResolveError (Option DnssecDenialResult) := do
  let wildcardHash ← nsec3Hash sha1 (wildcardOf encloser) parameters
  match findHash compatible wildcardHash with
  | some wildcardExact => .ok (some (bitmapResult wildcardExact.nsec3.types rrType))
  | none =>
    match findCover compatible wildcardHash with
    | some wildcardCover =>
      .ok (some (if wildcardCover.nsec3.flags = 1 then .optOut else .nxDomain))
    | none => .ok none

/-- The judgement from a proof of the closest encloser. -/
def nsec3Closest (zone : Text) (parameters : Nsec3Record)
    (name : Text) (rrType : Nat) : Except ResolveError (Option DnssecDenialResult) :=
  let ancestors := dnsNameAncestors name
  match closestEncloserEntry sha1 compatible zone parameters ancestors with
  | none => .ok none
  | some (closestIndex, closest) =>
    if cutsBelow closest.nsec3.types then .ok none
    else
      match ancestors[closestIndex + 1]? with
      | none => .ok none
      | some nextCloser => do
        let nextCloserHash ← nsec3Hash sha1 nextCloser parameters
        match findCover compatible nextCloserHash with
        | none => .ok none
        | some nextCover =>
          if nextCover.nsec3.flags = 1 then .ok (some .optOut)
          else nsec3Wildcard sha1 compatible parameters (ancestors.getD closestIndex []) rrType

/-- The judgement from the zone and the parameters of one record; `none` leaves it to the next. -/
def nsec3Entry (parsed : List ParsedNsec3) (name : Text) (rrType : Nat) (entry : ParsedNsec3) :
    Except ResolveError (Option DnssecDenialResult) := do
  let compatible := compatibleNsec3Records parsed entry.zone entry.nsec3
  let nameHash ← nsec3Hash sha1 name entry.nsec3
  match findHash compatible nameHash with
  | some exact =>
    if wrongSideOfCut exact.nsec3.types rrType then .ok none
    else .ok (some (bitmapResult exact.nsec3.types rrType))
  | none => nsec3Closest sha1 compatible entry.zone entry.nsec3 name rrType

/-- The first judgement of the given records. -/
def nsec3DenialLoop (parsed : List ParsedNsec3) (name : Text) (rrType : Nat) :
    List ParsedNsec3 → Except ResolveError DnssecDenialResult
  | [] => .ok .missing
  | entry :: rest => do
    match ← nsec3Entry sha1 parsed name rrType entry with
    | some result => .ok result
    | none => nsec3DenialLoop parsed name rrType rest

variable (records : List ResourceRecord)

def nsec3DenialResult (name : Text) (rrType : Nat) : Except ResolveError DnssecDenialResult := do
  let parsed ← parsedNsec3Records records
  nsec3DenialLoop sha1 parsed name rrType parsed

/-- The first record whose zone and parameters decide, with its judgement. -/
def nsec3Decider (parsed : List ParsedNsec3) (name : Text) (rrType : Nat) :
    List ParsedNsec3 → Except ResolveError (Option (ParsedNsec3 × DnssecDenialResult))
  | [] => .ok none
  | entry :: rest => do
    match ← nsec3Entry sha1 parsed name rrType entry with
    | some result => .ok (some (entry, result))
    | none => nsec3Decider parsed name rrType rest

/-- The judgement of `nsec3DenialResult` with the record whose zone decided. -/
def nsec3Denial (name : Text) (rrType : Nat) :
    Except ResolveError (Option (ParsedNsec3 × DnssecDenialResult)) := do
  let parsed ← parsedNsec3Records records
  nsec3Decider sha1 parsed name rrType parsed

def deciderResult : Option (ParsedNsec3 × DnssecDenialResult) → DnssecDenialResult
  | some (_, result) => result
  | none => .missing

theorem nsec3Decider_result (parsed : List ParsedNsec3) (name : Text) (rrType : Nat) :
    ∀ entries, nsec3DenialLoop sha1 parsed name rrType entries =
      (nsec3Decider sha1 parsed name rrType entries).map deciderResult
  | [] => rfl
  | entry :: rest => by
    unfold nsec3DenialLoop nsec3Decider
    cases nsec3Entry sha1 parsed name rrType entry with
    | error e => rfl
    | ok judgement =>
      rw [ok_bind, ok_bind]
      cases judgement with
      | some result => rfl
      | none => exact nsec3Decider_result parsed name rrType rest

/-- **The judgement with its record is the judgement.** -/
theorem nsec3Denial_result (name : Text) (rrType : Nat) :
    nsec3DenialResult sha1 records name rrType =
      (nsec3Denial sha1 records name rrType).map deciderResult := by
  unfold nsec3DenialResult nsec3Denial
  cases parsedNsec3Records records with
  | error e => rfl
  | ok parsed => exact nsec3Decider_result sha1 parsed name rrType parsed

end

/-! ### The judgement of all denial records -/

def dnssecDenialResult (sha1 : Bytes → Bytes) (packet : Bytes) (records : List ResourceRecord)
    (name : Text) (rrType : Nat) : Except ResolveError DnssecDenialResult := do
  let nsec ← nsecDenialResult packet records name rrType
  if nsec ≠ .missing then .ok nsec else nsec3DenialResult sha1 records name rrType

end RustdResolved.Dnssec.Nsec3Denial
