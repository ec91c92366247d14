import RustdResolved.Wire.Record

/-! # The records of DNSSEC

The parsers of DNSKEY, DS, RRSIG, NSEC and NSEC3 data, the key tag of a DNSKEY and the type bitmap
of the denial records. -/

namespace RustdResolved.Wire.DnssecRecords

open Lib Result Loop Octets Name PacketHeader Record

structure DnskeyRecord where
  flags : Nat
  protocol : UInt8
  algorithm : UInt8
  publicKey : Bytes
  deriving DecidableEq, Repr

structure DsRecord where
  keyTag : Nat
  algorithm : UInt8
  digestType : UInt8
  digest : Bytes
  deriving DecidableEq, Repr

structure RrsigRecord where
  typeCovered : Nat
  algorithm : UInt8
  labels : UInt8
  originalTtl : Nat
  expiration : Nat
  inception : Nat
  keyTag : Nat
  signer : DnsName
  signature : Bytes
  deriving DecidableEq, Repr

structure NsecRecord where
  nextDomain : DnsName
  types : List Nat
  deriving DecidableEq, Repr

structure Nsec3Record where
  hashAlgorithm : UInt8
  flags : UInt8
  iterations : Nat
  salt : Bytes
  nextHashedOwner : Bytes
  types : List Nat
  deriving DecidableEq, Repr

def rrsigFixedFieldsLen : Nat := 18

def rrsigMinimumRdataLen : Nat := rrsigFixedFieldsLen + 2

/-! ### Keys, digests and signatures -/

variable (record : ResourceRecord)

def parseDnskey : Except WireError DnskeyRecord :=
  if record.rrType ≠ typeDnskey then .error .invalidRecord
  else
    match record.rdata with
    | a :: b :: protocol :: algorithm :: publicKey =>
      if protocol ≠ 3 ∨ publicKey.isEmpty then .error .invalidRecord
      else .ok ⟨u16FromBeBytes a b, protocol, algorithm, publicKey⟩
    | _ => .error .invalidRecord

def expectedDigestLength (digestType : UInt8) (actual : Nat) : Nat :=
  if digestType = 1 then 20 else if digestType = 2 then 32 else if digestType =
    4 then 48 else actual

def parseDs : Except WireError DsRecord :=
  if record.rrType ≠ typeDs then .error .invalidRecord
  else
    match record.rdata with
    | a :: b :: algorithm :: digestType :: digest =>
      if digest.isEmpty ∨ digest.length ≠ expectedDigestLength digestType digest.length then
        .error .invalidRecord
      else .ok ⟨u16FromBeBytes a b, algorithm, digestType, digest⟩
    | _ => .error .invalidRecord

variable (packet : Bytes)

def parseRrsig (record : ResourceRecord) : Except WireError RrsigRecord :=
  if record.rrType ≠ typeRrsig ∨ record.rdata.length < rrsigMinimumRdataLen then
    .error .invalidRecord
  else do
    let signerOffset ← checkedEnd record.rdataOffset rrsigFixedFieldsLen
    let (signer, signatureOffset) ← readName packet signerOffset
    if signatureOffset ≥ record.nextOffset then .error .invalidRecord
    else do
      let signature ← getRangeOr .invalidRecord packet signatureOffset record.nextOffset
      if signature.isEmpty then .error .invalidRecord
      else
        match record.rdata with
        | t0 :: t1 :: algorithm :: labels :: o0 :: o1 :: o2 :: o3 :: e0 :: e1 :: e2 :: e3 ::
            i0 :: i1 :: i2 :: i3 :: k0 :: k1 :: _ =>
          .ok
            { typeCovered := u16FromBeBytes t0 t1
              algorithm := algorithm
              labels := labels
              originalTtl := u32FromBeBytes o0 o1 o2 o3
              expiration := u32FromBeBytes e0 e1 e2 e3
              inception := u32FromBeBytes i0 i1 i2 i3
              keyTag := u16FromBeBytes k0 k1
              signer := signer
              signature := signature }
        | _ => .error .panic

/-- The data of an RRSIG record over a record set of the type, as it goes on the wire. -/
def rrsigRdata (typeCovered : Nat) (algorithm labels : UInt8) (originalTtl expiration inception
    keyTag : Nat) (signer : List Bytes) (signature : Bytes) : Bytes :=
  u16ToBeBytes typeCovered ++ [algorithm, labels] ++ u32ToBeBytes originalTtl ++
    u32ToBeBytes expiration ++ u32ToBeBytes inception ++ u16ToBeBytes keyTag ++ wireName signer ++
    signature

def dnskeyRdata (flags : Nat) (algorithm : UInt8) (publicKey : Bytes) : Bytes :=
  u16ToBeBytes flags ++ [3, algorithm] ++ publicKey

/-- The data of a DS record. -/
def dsRdata (keyTag : Nat) (algorithm digestType : UInt8) (digest : Bytes) : Bytes :=
  u16ToBeBytes keyTag ++ [algorithm, digestType] ++ digest

/-- The sum of the octets of a key, those at even places counted 256 times. -/
def keyTagSum : Bytes → Nat
  | a :: b :: rest => a.toNat * 256 + b.toNat + keyTagSum rest
  | [a] => a.toNat * 256
  | [] => 0

def dnskeyKeyTag : Except WireError Nat :=
  if record.rrType ≠ typeDnskey ∨ record.rdata.length < 4 then .error .invalidRecord
  else do
    let algorithm ← index record.rdata 3
    if algorithm = 1 then do
      let a ← index record.rdata (record.rdata.length - 3)
      let b ← index record.rdata (record.rdata.length - 2)
      .ok (u16FromBeBytes a b)
    else
      let accumulator := keyTagSum record.rdata % 2 ^ 32
      let accumulator := (accumulator + accumulator / 65536 % 65536) % 2 ^ 32
      .ok (accumulator % 65536)

/-! ### Signatures of the root -/

/-- What one record adds to the types of the root that need a signature, and to those that have
one. -/
def rootRecordTypes (isSigned : Bool) (record : ResourceRecord)
    (required covered : List Nat) : Except WireError (List Nat × List Nat) :=
  if record.rrClass ≠ classIn ∨ record.name.canonicalWire ≠ [0] then .ok (required, covered)
  else if record.rrType = typeRrsig then
    if record.rdata.length < rrsigMinimumRdataLen then .error .invalidRecord
    else do
      let typeCovered ← readU16 record.rdata 0
      let signerOffset ← checkedEnd record.rdataOffset rrsigFixedFieldsLen
      let (signer, signatureOffset) ← readName packet signerOffset
      if signer.canonicalWire ≠ [0] ∨ record.nextOffset ≤ signatureOffset then .error .invalidRecord
      else .ok (required, typeCovered :: covered)
  else if isSigned = true ∧ record.rrType ≠ typeOpt ∧ record.rrType ≠ typeTsig then
    .ok (record.rrType :: required, covered)
  else .ok (required, covered)

/-- The loop over the records of `rootRrsigMissing`, with the number of records before `offset`. -/
def rootTypes (packet : Bytes) (signedRecordCount : Nat) :
    Nat → Nat → Nat → List Nat → List Nat → Except WireError (List Nat × List Nat × Nat)
  | 0, _, offset, required, covered => .ok (required, covered, offset)
  | count + 1, index, offset, required, covered => do
    let record ← parseRecord packet offset
    let (required, covered) ←
      rootRecordTypes packet (decide (index < signedRecordCount)) record required covered
    rootTypes packet signedRecordCount count (index + 1) record.nextOffset required covered

/-- A response has records of the root without a signature. -/
def rootRrsigMissing : Except WireError Bool := do
  let header ← Header.parse packet
  if !header.isResponse then .error .wrongDirection
  else do
    let (_, offset) ← parseQuestions packet header.questionCount dnsHeaderLen
    let (required, covered, stop) ← rootTypes packet (header.answerCount + header.authorityCount)
      header.totalRecords 0 offset [] []
    if stop ≠ packet.length then .error .trailingData
    else .ok (!required.all covered.contains)

/-! ### Type bitmaps and the denial records -/

def windowTypes (window : UInt8) (bytes : Bytes) : List Nat :=
  bytes.zipIdx.flatMap fun (byte, octet) =>
    (List.range 8).filterMap fun bit =>
      if byte.toNat.testBit (7 - bit) then some (window.toNat * 256 + (octet * 8 + bit)) else none

def parseTypeWindow (previousWindow : Option UInt8) (bitmap : Bytes) :
    Except WireError (UInt8 × List Nat × Bytes) :=
  match bitmap with
  | window :: length :: rest =>
    if length = 0 ∨ length > 32 ∨ previousWindow.any (window ≤ ·) then .error .invalidRecord
    else if rest.length < length.toNat then .error .invalidRecord
    else if (rest.take length.toNat).getLast? = some 0 then .error .invalidRecord
    else .ok (window, windowTypes window (rest.take length.toNat), rest.drop length.toNat)
  | _ => .error .invalidRecord

/-- The variables of the loop of `parseTypeBitmap`. -/
structure BitmapReader where
  bitmap : Bytes
  previousWindow : Option UInt8
  types : List Nat

def parseTypeBitmapBody (reader : BitmapReader) :
    Except WireError (LoopFlow (List Nat) BitmapReader) :=
  if reader.bitmap.isEmpty then
    if reader.types.isEmpty then .error .invalidRecord else .ok (.done reader.types)
  else do
    let (window, types, rest) ← parseTypeWindow reader.previousWindow reader.bitmap
    .ok (.again ⟨rest, some window, reader.types ++ types⟩)

def parseTypeBitmap (bitmap : Bytes) : Except WireError (List Nat) :=
  loop .outOfFuel parseTypeBitmapBody (bitmap.length + 1) ⟨bitmap, none, []⟩

def parseNsec (record : ResourceRecord) : Except WireError NsecRecord :=
  if record.rrType ≠ typeNsec ∨ record.rdata.isEmpty then .error .invalidRecord
  else do
    let (nextDomain, bitmapOffset) ← readName packet record.rdataOffset
    if bitmapOffset ≥ record.nextOffset then .error .invalidRecord
    else do
      let bitmap ← getRangeOr .invalidRecord packet bitmapOffset record.nextOffset
      let types ← parseTypeBitmap bitmap
      .ok ⟨nextDomain, types⟩

def parseNsec3 : Except WireError Nsec3Record :=
  if record.rrType ≠ typeNsec3 ∨ record.rdata.length < 6 then .error .invalidRecord
  else
    match record.rdata with
    | hashAlgorithm :: flags :: i0 :: i1 :: saltLen :: rest =>
      match rest.drop saltLen.toNat with
      | [] => .error .invalidRecord
      | hashLen :: hash =>
        if hashLen = 0 ∨ hash.length < hashLen.toNat then .error .invalidRecord
        else do
          let bitmap := hash.drop hashLen.toNat
          let types ← if bitmap.isEmpty then .ok [] else parseTypeBitmap bitmap
          .ok
            { hashAlgorithm := hashAlgorithm
              flags := flags
              iterations := u16FromBeBytes i0 i1
              salt := rest.take saltLen.toNat
              nextHashedOwner := hash.take hashLen.toNat
              types := types }
    | _ => .error .panic

/-- The next name of an NSEC record is a name of the wire format. -/
theorem parseNsec_wellFormed {packet : Bytes} {record : ResourceRecord} {nsec : NsecRecord}
    (h : parseNsec packet record = .ok nsec) : nsec.nextDomain.WellFormed := by
  unfold parseNsec at h
  split_ifs at h
  obtain ⟨⟨next, bitmapOffset⟩, hname, h⟩ := of_bind h
  dsimp only at h
  split_ifs at h
  obtain ⟨bitmap, -, h⟩ := of_bind h
  obtain ⟨types, -, h⟩ := of_bind h
  cases h
  exact readName_wellFormed hname

end RustdResolved.Wire.DnssecRecords
