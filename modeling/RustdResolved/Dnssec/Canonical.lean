import Mathlib.Data.List.Destutter
import Mathlib.Data.List.Sort
import RustdResolved.Wire.DnssecRecords

/-! # The signed form of a record set

What a signature is made over: the fields of the RRSIG record, and then the records of the set with
their names in lower case, the owner of a wildcard restored, in order and without repetitions. -/

namespace RustdResolved.Dnssec.Canonical

open Lib.Loop Wire Octets Name Record DnssecRecords

/-! ### Owners -/

def labelOffsetsBody (name : Bytes) (state : Nat × List Nat) :
    Except WireError (LoopFlow (List Nat) (Nat × List Nat)) :=
  match name[state.1]? with
  | none => .error (.invalidName "truncated canonical DNS name".toList)
  | some length =>
    if length = 0 then
      if state.1 + 1 ≠ name.length then
        .error (.invalidName "canonical DNS name has trailing data".toList)
      else .ok (.done state.2)
    else if length > 63 ∨ state.1 + 1 + length.toNat ≥ name.length then
      .error (.invalidName "invalid canonical DNS label".toList)
    else .ok (.again (state.1 + 1 + length.toNat, state.2 ++ [state.1]))

def labelOffsets (name : Bytes) : Except WireError (List Nat) :=
  loop .outOfFuel (labelOffsetsBody name) (name.length + 1) (0, [])

/-- The owner that was signed: the wildcard above the owner if the signature counts fewer labels. -/
def canonicalOwner (owner : Bytes) (labels : UInt8) : Except WireError Bytes := do
  let labelOffsets ← labelOffsets owner
  let labelCount := labelOffsets.length
  let labels := labels.toNat
  if labels > labelCount then .error .invalidRecord
  else
    let canonical := lowercase owner
    if labels = labelCount then .ok canonical
    else if labels = 0 then .ok [1, 42, 0]
    else
      match labelOffsets[labelCount - labels]? with
      | none => .error .panic
      | some offset => do
        let rest ← getRangeOr .invalidRecord canonical offset canonical.length
        .ok ([1, 42] ++ rest)

/-! ### Record data -/

variable (packet : Bytes) (record : ResourceRecord)

/-- Data with one name after `skip` octets, and anything after the name. -/
def canonicalSingleName (skip : Nat) : Except WireError Bytes :=
  if record.rdata.length < skip + 1 then .error .invalidRecord
  else do
    let (name, next) ← readName packet (record.rdataOffset + skip)
    if next > record.nextOffset then .error .invalidRecord
    else do
      let rest ← getRangeOr .invalidRecord packet next record.nextOffset
      .ok (record.rdata.take skip ++ name.canonicalWire ++ rest)

/-- Data with two names after `skip` octets, and nothing after them. -/
def canonicalTwoNames (skip : Nat) : Except WireError Bytes :=
  if record.rdata.length < skip + 2 then .error .invalidRecord
  else do
    let (first, secondOffset) ← readName packet (record.rdataOffset + skip)
    let (second, stop) ← readName packet secondOffset
    if stop ≠ record.nextOffset then .error .invalidRecord
    else .ok (record.rdata.take skip ++ first.canonicalWire ++ second.canonicalWire)

def canonicalSoa : Except WireError Bytes := do
  let (primaryName, mailboxOffset) ← readName packet record.rdataOffset
  let (mailboxName, integersOffset) ← readName packet mailboxOffset
  let integers ← getRangeOr .invalidRecord packet integersOffset record.nextOffset
  if integers.length ≠ 20 then .error .invalidRecord
  else .ok (primaryName.canonicalWire ++ mailboxName.canonicalWire ++ integers)

/-- The offset after `count` character strings, none of which goes past the record. -/
def skipStrings (packet : Bytes) (record : ResourceRecord) : Nat → Nat → Except WireError Nat
  | 0, offset => .ok offset
  | count + 1, offset => do
    let length ← getOr .invalidRecord packet offset
    if offset + (1 + length.toNat) > record.nextOffset then .error .invalidRecord
    else skipStrings packet record count (offset + (1 + length.toNat))

def canonicalNaptr : Except WireError Bytes :=
  if record.rdata.length < 8 then .error .invalidRecord
  else do
    let offset ← skipStrings packet record 3 (record.rdataOffset + 4)
    let (replacement, stop) ← readName packet offset
    if stop ≠ record.nextOffset then .error .invalidRecord
    else do
      let fields ← getRangeOr .invalidRecord packet record.rdataOffset offset
      .ok (fields ++ replacement.canonicalWire)

/-- The data of a record with its names in lower case. -/
def canonicalRdata : Except WireError Bytes :=
  match record.rrType with
  | 2 | 3 | 4 | 5 | 7 | 8 | 9 | 12 | 23 | 30 | 39 | 47 => canonicalSingleName packet record 0
  | 6 => canonicalSoa packet record
  | 14 | 17 => canonicalTwoNames packet record 0
  | 15 | 18 | 21 | 36 | 64 | 65 | 107 => canonicalSingleName packet record 2
  | 24 | 46 => canonicalSingleName packet record 18
  | 26 => canonicalTwoNames packet record 2
  | 33 => canonicalSingleName packet record 6
  | 35 => canonicalNaptr packet record
  | _ => .ok record.rdata

/-! ### Signed data -/

variable (signature : RrsigRecord)

/-- The fields of a signature that it is made over itself. -/
def rrsigFields : Bytes :=
  u16ToBeBytes signature.typeCovered ++ [signature.algorithm, signature.labels] ++
    u32ToBeBytes signature.originalTtl ++ u32ToBeBytes signature.expiration ++
    u32ToBeBytes signature.inception ++ u16ToBeBytes signature.keyTag ++
    signature.signer.canonicalWire

/-- The canonical form of one record of the set whose first record is given. -/
def canonicalRecord (owner : Bytes) (first record : ResourceRecord) : Except WireError Bytes :=
  if record.rrType ≠ signature.typeCovered ∨ record.rrClass ≠ first.rrClass ∨
      record.name.canonicalWire ≠ first.name.canonicalWire then .error .invalidRecord
  else do
    let rdata ← canonicalRdata packet record
    if rdata.length > 65535 then .error .invalidRecord
    else
      .ok (owner ++ u16ToBeBytes record.rrType ++ u16ToBeBytes record.rrClass ++
        u32ToBeBytes signature.originalTtl ++ u16ToBeBytes rdata.length ++ rdata)

def canonicalRecords (packet : Bytes) (signature : RrsigRecord) (owner : Bytes)
    (first : ResourceRecord) : List ResourceRecord → Except WireError (List Bytes)
  | [] => .ok []
  | record :: rest => do
    let canonical ← canonicalRecord packet signature owner first record
    let others ← canonicalRecords packet signature owner first rest
    .ok (canonical :: others)

/-- The data that a signature over a record set is made over. -/
def canonicalSignedData (rrsigRecord : ResourceRecord)
    (rrset : List ResourceRecord) : Except WireError Bytes := do
  let signature ← parseRrsig packet rrsigRecord
  match rrset with
  | [] => .error .invalidRecord
  | first :: _ => do
    let owner ← canonicalOwner first.name.canonicalWire signature.labels
    let records ← canonicalRecords packet signature owner first rrset
    .ok (rrsigFields signature ++
      ((records.insertionSort (· ≤ ·)).destutter (· ≠ ·)).flatten)

/-! ### Time -/

/-- The difference of two clocks, in seconds. -/
def signatureTimeSkew : Nat := 60 * 60

def nanosPerSecond : Nat := 1000000000

/-- A `SystemTime`, in nanoseconds from the epoch. -/
abbrev SystemTime := Int

/-- `now.duration_since(earlier)`, in nanoseconds; none when `earlier` lies in the future. -/
def durationSince (now earlier : SystemTime) : Option Nat :=
  if earlier ≤ now then some (now - earlier).toNat else none

def rrsigTimeValid (now : SystemTime) : Bool :=
  match durationSince now 0 with
  | none => false
  | some elapsed =>
    let now := min (elapsed / nanosPerSecond) (2 ^ 32 - 1)
    decide (signature.inception ≤ now + signatureTimeSkew) &&
      decide (now ≤ signature.expiration + signatureTimeSkew)

end RustdResolved.Dnssec.Canonical
