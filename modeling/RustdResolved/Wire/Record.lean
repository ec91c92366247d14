import RustdResolved.Wire.PacketHeader
import RustdResolved.Wire.Name

/-! # Questions and resource records

`parseRecord` reads a record and checks its data against its type; `parseSections` reads a whole
packet. The owner of every record that a packet yields is a name of the wire format
(`parseSections_wellFormed`). -/

namespace RustdResolved.Wire.Record

open Lib Result Loop Octets Name PacketHeader

variable {offset : Nat} {packet : Bytes}

structure Question where
  name : DnsName
  rrType : Nat
  rrClass : Nat
  nextOffset : Nat
  deriving DecidableEq, Repr

structure ResourceRecord where
  name : DnsName
  rrType : Nat
  rrClass : Nat
  ttl : Nat
  ttlOffset : Nat
  rdataOffset : Nat
  rdata : Bytes
  nextOffset : Nat
  deriving DecidableEq, Repr

/-! ### Checks on record data -/

variable (record : ResourceRecord)

def requireRdataLength (expected : Nat) : Except WireError Unit :=
  if record.rdata.length = expected then .ok () else .error .invalidRecord

def requireMinimumRdataLength (minimum : Nat) : Except WireError Unit :=
  if record.rdata.length ≥ minimum then .ok () else .error .invalidRecord

def requireOffset (offset length limit : Nat) : Except WireError Nat :=
  if offset + length ≤ limit then .ok (offset + length) else .error .invalidRecord

def requireExactEnd (actual expected : Nat) : Except WireError Unit :=
  if actual = expected then .ok () else .error .invalidRecord

/-- Goes on from `offset` by `advance` until `stop` is reached or passed. -/
def advanceUntil (stop : Nat) (advance : Nat → Except WireError Nat) (offset : Nat) :
    Except WireError Nat :=
  loop .outOfFuel (fun offset =>
      if offset < stop then do
        let next ← advance offset
        .ok (.again next)
      else .ok (.done offset)) (stop + 1) offset

/-- One round of `validateUncompressedName`, at an offset and with the length so far. -/
def validateUncompressedNameBody (packet : Bytes) (limit : Nat) (state : Nat × Nat) :
    Except WireError (LoopFlow Unit (Nat × Nat)) := do
  let length ← getOr .shortPacket packet state.1
  if length = 0 then
    if state.1 < limit then .ok (.done ()) else .error .invalidRecord
  else if length &&& 0xc0 ≠ 0 ∨ length > 63 then .error .invalidRecord
  else if state.2 + (length.toNat + 1) > 255 then .error .nameTooLong
  else do
    let offset ← requireOffset state.1 (length.toNat + 1) limit
    .ok (.again (offset, state.2 + (length.toNat + 1)))

def validateUncompressedName (packet : Bytes) (offset limit : Nat) : Except WireError Unit :=
  loop .outOfFuel (validateUncompressedNameBody packet limit) 256 (offset, 1)

def readBoundedName (packet : Bytes) (offset limit : Nat) (allowCompression : Bool) :
    Except WireError Nat := do
  let _ ← if allowCompression then .ok () else validateUncompressedName packet offset limit
  let (_, stop) ← readName packet offset
  if stop ≤ limit then .ok stop else .error .invalidRecord

def requireNameEnd (packet : Bytes) (offset expectedEnd : Nat) (allowCompression : Bool) :
    Except WireError Unit := do
  let stop ← readBoundedName packet offset expectedEnd allowCompression
  requireExactEnd stop expectedEnd

/-- An octet between two bounds. -/
def isBetween (low high byte : UInt8) : Bool := low ≤ byte && byte ≤ high

/-- A continuation octet of UTF-8. -/
def isContinuation (byte : UInt8) : Bool := isBetween 0x80 0xbf byte

/-- `std::str::from_utf8(bytes).is_ok()`. -/
def isUtf8 : Bytes → Bool
  | [] => true
  | a :: rest =>
    if a < 0x80 then isUtf8 rest
    else if isBetween 0xc2 0xdf a then
      match rest with
      | b :: rest => isContinuation b && isUtf8 rest
      | _ => false
    else if isBetween 0xe0 0xef a then
      match rest with
      | b :: c :: rest =>
        isBetween (if a = 0xe0 then 0xa0 else 0x80) (if a = 0xed then 0x9f else 0xbf) b &&
          isContinuation c && isUtf8 rest
      | _ => false
    else if isBetween 0xf0 0xf4 a then
      match rest with
      | b :: c :: d :: rest =>
        isBetween (if a = 0xf0 then 0x90 else 0x80) (if a = 0xf4 then 0x8f else 0xbf) b &&
          isContinuation c && isContinuation d && isUtf8 rest
      | _ => false
    else false

def readCharacterString (packet : Bytes) (offset limit : Nat) (text : Bool) :
    Except WireError Nat := do
  let length ← getOr .shortPacket packet offset
  let content ← requireOffset offset 1 limit
  let stop ← requireOffset content length.toNat limit
  if text then do
    let bytes ← getRangeOr .shortPacket packet content stop
    if bytes.contains 0 || !isUtf8 bytes then .error .invalidRecord else .ok stop
  else .ok stop

def validateCharacterStringList (packet : Bytes) (offset stop : Nat) : Except WireError Unit := do
  let offset ← advanceUntil stop (fun offset => readCharacterString packet offset stop false) offset
  requireExactEnd offset stop

/-- A size of a LOC record: two decimal digits, and no zero mantissa with an exponent. -/
def locSizeIsValid (value : UInt8) : Bool :=
  let mantissa := value.toNat / 16
  let exponent := value.toNat % 16
  mantissa ≤ 9 && exponent ≤ 9 && (0 < mantissa || exponent == 0)

def validateLoc : Except WireError Unit :=
  match record.rdata with
  | [] => .error .invalidRecord
  | version :: _ =>
    if version ≠ 0 then .ok ()
    else do
      requireRdataLength record 16
      if ((record.rdata.drop 1).take 3).all locSizeIsValid then .ok () else .error .invalidRecord

def validateRrsig (packet : Bytes) (start stop : Nat) : Except WireError Unit := do
  let nameOffset ← requireOffset start 18 stop
  let signatureOffset ← readBoundedName packet nameOffset stop false
  if signatureOffset < stop then .ok () else .error .invalidRecord

def typeWindowEnd (packet : Bytes) (stop offset : Nat) : Except WireError Nat := do
  let headerEnd ← requireOffset offset 2 stop
  let length ← index packet (offset + 1)
  if length = 0 ∨ length > 32 then .error .invalidRecord
  else do
    let windowEnd ← requireOffset headerEnd length.toNat stop
    let last ← index packet (windowEnd - 1)
    if last = 0 then .error .invalidRecord else .ok windowEnd

def validateTypeWindows (packet : Bytes) (offset stop : Nat) : Except WireError Unit := do
  let offset ← advanceUntil stop (typeWindowEnd packet stop) offset
  requireExactEnd offset stop

def validateNsec (packet : Bytes) (start stop : Nat) : Except WireError Unit := do
  let bitmapOffset ← readBoundedName packet start stop false
  validateTypeWindows packet bitmapOffset stop

def validateNsec3 (packet : Bytes) (start stop : Nat) : Except WireError Unit := do
  let saltLengthOffset ← requireOffset start 4 stop
  let saltLength ← getOr .shortPacket packet saltLengthOffset
  let saltOffset ← requireOffset saltLengthOffset 1 stop
  let hashLengthOffset ← requireOffset saltOffset saltLength.toNat stop
  let hashLength ← getOr .shortPacket packet hashLengthOffset
  if hashLength = 0 then .error .invalidRecord
  else do
    let hashOffset ← requireOffset hashLengthOffset 1 stop
    let bitmapOffset ← requireOffset hashOffset hashLength.toNat stop
    validateTypeWindows packet bitmapOffset stop

def validateNsec3param (packet : Bytes) (start stop : Nat) : Except WireError Unit := do
  let saltLengthOffset ← requireOffset start 4 stop
  let saltLength ← getOr .shortPacket packet saltLengthOffset
  let expectedEnd ← requireOffset saltLengthOffset (1 + saltLength.toNat) stop
  requireExactEnd expectedEnd stop

def validateSvcParam (key : Nat) (value : Bytes) : Except WireError Unit := do
  let valid ←
    match key with
    | 1 =>
      if value.isEmpty then .ok false
      else do
        let offset ← advanceUntil value.length
          (fun offset => do
            let length ← index value offset
            .ok (offset + (1 + length.toNat))) 0
        .ok (offset == value.length)
    | 2 => .ok value.isEmpty
    | 3 => .ok (value.length == 2)
    | 4 => .ok (!value.isEmpty && value.length % 4 == 0)
    | 6 => .ok (!value.isEmpty && value.length % 16 == 0)
    | _ => .ok true
  if valid then .ok () else .error .invalidRecord

/-- One parameter of an SVCB record, after the last key. -/
def validateSvcbBody (packet : Bytes) (stop : Nat) (state : Nat × Option Nat) :
    Except WireError (LoopFlow Nat (Nat × Option Nat)) :=
  if state.1 < stop then do
    let headerEnd ← requireOffset state.1 4 stop
    let key ← readU16 packet state.1
    if state.2.any (· ≥ key) then .error .invalidRecord
    else do
      let length ← readU16 packet (state.1 + 2)
      let valueEnd ← requireOffset headerEnd length stop
      let value ← indexRange packet headerEnd valueEnd
      validateSvcParam key value
      .ok (.again (valueEnd, some key))
  else .ok (.done state.1)

def validateSvcb (packet : Bytes) (start stop : Nat) : Except WireError Unit := do
  let targetOffset ← requireOffset start 2 stop
  let offset ← readBoundedName packet targetOffset stop false
  let offset ← loop .outOfFuel (validateSvcbBody packet stop) (stop + 1) (offset, none)
  requireExactEnd offset stop

def validateCaa (packet : Bytes) (start stop : Nat) : Except WireError Unit := do
  let tagOffset ← requireOffset start 1 stop
  let valueOffset ← readCharacterString packet tagOffset stop true
  if valueOffset ≤ stop then .ok () else .error .invalidRecord

def validateNaptr (packet : Bytes) (start stop : Nat) : Except WireError Unit := do
  let offset ← requireOffset start 4 stop
  let offset ← readCharacterString packet offset stop true
  let offset ← readCharacterString packet offset stop true
  let offset ← readCharacterString packet offset stop true
  requireNameEnd packet offset stop false

/-- Two names and five numbers, the data of a SOA record. -/
def validateSoa (packet : Bytes) (start stop : Nat) (allowCompression : Bool) :
    Except WireError Unit := do
  let afterMname ← readBoundedName packet start stop allowCompression
  let afterRname ← readBoundedName packet afterMname stop allowCompression
  let fixedEnd ← requireOffset afterRname 20 stop
  requireExactEnd fixedEnd stop

/-- A number of octets and a name, the data of an MX or SRV record. -/
def validatePrefixedName (packet : Bytes) (start skip stop : Nat) (allowCompression : Bool) :
    Except WireError Unit := do
  let nameOffset ← requireOffset start skip stop
  requireNameEnd packet nameOffset stop allowCompression

def validateHinfo (packet : Bytes) (start stop : Nat) : Except WireError Unit := do
  let afterCpu ← readCharacterString packet start stop true
  let afterOs ← readCharacterString packet afterCpu stop true
  requireExactEnd afterOs stop

/-- Checks the data of a record against its type. -/
def validateRecordRdata (packet : Bytes) (record : ResourceRecord) : Except WireError Unit :=
  let start := record.rdataOffset
  let stop := record.nextOffset
  match record.rrType with
  | 1 => requireRdataLength record 4
  | 28 => requireRdataLength record 16
  | 2 | 5 | 12 | 39 => requireNameEnd packet start stop true
  | 6 => validateSoa packet start stop true
  | 13 => validateHinfo packet start stop
  | 15 => validatePrefixedName packet start 2 stop true
  | 16 | 99 => validateCharacterStringList packet start stop
  | 29 => validateLoc record
  | 33 => validatePrefixedName packet start 6 stop true
  | 35 => validateNaptr packet start stop
  | 43 => requireMinimumRdataLength record 5
  | 44 => requireMinimumRdataLength record 3
  | 46 => validateRrsig packet start stop
  | 47 => validateNsec packet start stop
  | 48 => requireMinimumRdataLength record 5
  | 50 => validateNsec3 packet start stop
  | 51 => validateNsec3param packet start stop
  | 52 => requireMinimumRdataLength record 4
  | 64 | 65 => validateSvcb packet start stop
  | 257 => validateCaa packet start stop
  | _ => .ok ()

/-! ### Questions, records and packets -/

def queryTypeIsValid (rrType : Nat) : Bool :=
  !(rrType == 0 || rrType == typeOpt || rrType == typeRrsig || rrType == 249 || rrType == typeTsig)

def parseQuestion (packet : Bytes) (offset : Nat) : Except WireError Question := do
  let (name, offset) ← readName packet offset
  let rrType ← readU16 packet offset
  if !queryTypeIsValid rrType then .error (.invalidQuestionType rrType)
  else do
    let rrClass ← readU16 packet (offset + 2)
    .ok ⟨name, rrType, rrClass, offset + 4⟩

/-- The TTL of a record: that of anything but OPT is zero when its top bit is set. -/
def recordTtl (rrType ttl : Nat) : Nat :=
  if rrType ≠ typeOpt ∧ ttl &&& 0x80000000 ≠ 0 then 0 else ttl

def parseRecord (packet : Bytes) (offset : Nat) : Except WireError ResourceRecord := do
  let (name, offset) ← readName packet offset
  let rrType ← readU16 packet offset
  let rrClass ← readU16 packet (offset + 2)
  if rrClass = classAny ∨ rrType = typeIxfr ∨ rrType = typeAxfr ∨ rrType = typeAny then
    .error .invalidRecord
  else do
    let ttl ← readU32 packet (offset + 4)
    let rdataLength ← readU16 packet (offset + 8)
    let nextOffset ← checkedEnd (offset + 10) rdataLength
    let rdata ← getRangeOr .shortPacket packet (offset + 10) nextOffset
    let record : ResourceRecord :=
      ⟨name, rrType, rrClass, recordTtl rrType ttl, offset + 4, offset + 10, rdata, nextOffset⟩
    validateRecordRdata packet record
    .ok record

def validateUncompressedRecordNames (packet : Bytes) (record : ResourceRecord) :
    Except WireError Unit :=
  let start := record.rdataOffset
  let stop := record.nextOffset
  match record.rrType with
  | 2 | 5 | 12 | 39 => requireNameEnd packet start stop false
  | 6 => validateSoa packet start stop false
  | 15 => validatePrefixedName packet start 2 stop false
  | 33 => validatePrefixedName packet start 6 stop false
  | _ => .ok ()

def parseUncompressedRecord (packet : Bytes) (offset : Nat) : Except WireError ResourceRecord := do
  validateUncompressedName packet offset packet.length
  let record ← parseRecord packet offset
  validateUncompressedRecordNames packet record
  .ok record

/-- Reads `count` questions from `offset` on, and the offset after them. -/
def parseQuestions (packet : Bytes) : Nat → Nat → Except WireError (List Question × Nat)
  | 0, offset => .ok ([], offset)
  | count + 1, offset => do
    let question ← parseQuestion packet offset
    let (questions, stop) ← parseQuestions packet count question.nextOffset
    .ok (question :: questions, stop)

/-- Reads `count` records from `offset` on, and the offset after them. -/
def parseRecords (packet : Bytes) : Nat → Nat → Except WireError (List ResourceRecord × Nat)
  | 0, offset => .ok ([], offset)
  | count + 1, offset => do
    let record ← parseRecord packet offset
    let (records, stop) ← parseRecords packet count record.nextOffset
    .ok (record :: records, stop)

/-- The parts of a packet. -/
structure Sections where
  header : Header
  questions : List Question
  records : List ResourceRecord
  stop : Nat
  deriving DecidableEq, Repr

def parseSections (packet : Bytes) : Except WireError Sections := do
  let header ← Header.parse packet
  let (questions, offset) ← parseQuestions packet header.questionCount dnsHeaderLen
  let (records, stop) ← parseRecords packet header.totalRecords offset
  .ok ⟨header, questions, records, stop⟩

/-! ### Packets without compression -/

def recordWire (owner : List Bytes) (rrType ttl : Nat) (rdata : Bytes) : Bytes :=
  wireName owner ++ u16ToBeBytes rrType ++ u16ToBeBytes classIn ++ u32ToBeBytes ttl ++
    u16ToBeBytes rdata.length ++ rdata

def responseWire (flags : Nat) (question : List Bytes) (rrType : Nat)
    (answers authorities : List Bytes) : Bytes :=
  u16ToBeBytes 0 ++ u16ToBeBytes flags ++ u16ToBeBytes 1 ++ u16ToBeBytes answers.length ++
    u16ToBeBytes authorities.length ++ u16ToBeBytes 0 ++
    (wireName question ++ u16ToBeBytes rrType ++ u16ToBeBytes classIn) ++
    answers.flatten ++ authorities.flatten

def queryWire (flags : Nat) (question : List Bytes) (rrType : Nat) : Bytes :=
  responseWire flags question rrType [] []

/-! ### Names of records -/

/-- What every record of a packet satisfies. -/
structure ResourceRecord.WellFormed (packet : Bytes) (record : ResourceRecord) : Prop where
  name : record.name.WellFormed
  rdata : getRange packet record.rdataOffset record.nextOffset = some record.rdata

theorem parseQuestion_wellFormed {question : Question}
    (h : parseQuestion packet offset = .ok question) : question.name.WellFormed := by
  obtain ⟨⟨name, stop⟩, hname, h⟩ := of_bind h
  obtain ⟨rrType, -, h⟩ := of_bind h
  split_ifs at h
  obtain ⟨rrClass, -, h⟩ := of_bind h
  cases h
  exact readName_wellFormed hname

theorem parseRecord_wellFormed {record : ResourceRecord}
    (h : parseRecord packet offset = .ok record) : record.WellFormed packet := by
  obtain ⟨⟨name, next⟩, hname, h⟩ := of_bind h
  obtain ⟨rrType, -, h⟩ := of_bind h
  obtain ⟨rrClass, -, h⟩ := of_bind h
  split_ifs at h
  obtain ⟨ttl, -, h⟩ := of_bind h
  obtain ⟨rdataLength, -, h⟩ := of_bind h
  obtain ⟨stop, -, h⟩ := of_bind h
  obtain ⟨rdata, hrdata, h⟩ := of_bind h
  obtain ⟨-, -, h⟩ := of_bind h
  cases h
  exact ⟨readName_wellFormed hname, getRangeOr_eq_ok.mp hrdata⟩

/-- **Induction over the records that are read**, one after another. -/
theorem parseRecords_induct {P : Nat → Nat → List ResourceRecord → Nat → Prop}
    (nil : ∀ start, P 0 start [] start)
    (cons : ∀ {count start record rest stop}, parseRecord packet start = .ok record →
      parseRecords packet count record.nextOffset = .ok (rest, stop) →
      P count record.nextOffset rest stop → P (count + 1) start (record :: rest) stop) :
    ∀ {count start records stop}, parseRecords packet count start = .ok (records, stop) →
      P count start records stop
  | 0, start, _, _, h => by
    cases h
    exact nil start
  | count + 1, start, _, _, h => by
    obtain ⟨record, hrecord, h⟩ := of_bind h
    obtain ⟨⟨rest, stop⟩, hrest, h⟩ := of_bind h
    cases h
    exact cons hrecord hrest (parseRecords_induct nil cons hrest)

theorem parseRecords_wellFormed {count stop : Nat}
    {records : List ResourceRecord} (h : parseRecords packet count offset = .ok (records, stop)) :
    ∀ record ∈ records, record.WellFormed packet := by
  refine parseRecords_induct (P := fun _ _ records _ => ∀ record ∈ records,
    record.WellFormed packet)
    (by simp) (fun hrecord _ ih => ?_) h
  rw [List.forall_mem_cons]
  exact ⟨parseRecord_wellFormed hrecord, ih⟩

/-- **Every record of a packet has an owner of the wire format and the data of the packet.** -/
theorem parseSections_wellFormed {sections : Sections} (h : parseSections packet = .ok sections) :
    ∀ record ∈ sections.records, record.WellFormed packet := by
  obtain ⟨header, -, h⟩ := of_bind h
  obtain ⟨⟨questions, offset⟩, -, h⟩ := of_bind h
  obtain ⟨⟨records, stop⟩, hrecords, h⟩ := of_bind h
  cases h
  exact parseRecords_wellFormed hrecords

end RustdResolved.Wire.Record
