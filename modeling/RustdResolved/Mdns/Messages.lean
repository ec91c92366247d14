import Mathlib.Data.Prod.Lex
import RustdResolved.Lib.SortedSet
import RustdResolved.Mdns.Names
import RustdResolved.Wire.PacketHeader

/-! # Multicast messages

The parser of messages and the writer of responses of `mdns_responder.rs`. The parser reads the
names in the data of CNAME, PTR and SRV records as well, so a record is read with canonical names
wherever it has them (`parseMessage_responsePacket`). -/

namespace RustdResolved.Mdns.Messages

open List Lib.Result Wire Octets Name PacketHeader
open Wire.Overwrite (length_u16ToBeBytes length_u32ToBeBytes)
open Names

variable {name packet rdata rest : Bytes} {offset rrType start next value cls : Nat}

def dnsClassQuOrFlush : Nat := 0x8000
def dnsClassMask : Nat := 0x7fff
def legacyUnicastTtlMax : Nat := 10

/-! ### Parsing -/

structure ParsedQuestion where
  owner : Bytes
  rrType : Nat
  cls : Nat
  qu : Bool
  raw : Bytes
  deriving DecidableEq, Repr

inductive ParsedSection
  | answer
  | authority
  | additional
  deriving DecidableEq, Repr

structure ParsedRecord where
  owner : Bytes
  rrType : Nat
  cls : Nat
  ttl : Nat
  rdata : Bytes
  inSection : ParsedSection
  deriving DecidableEq, Repr

structure ParsedMessage where
  id : Nat
  questions : List ParsedQuestion
  records : List ParsedRecord
  deriving DecidableEq, Repr

section
variable (packet : Bytes)

def readU16 (offset : Nat) : Except IoError Nat :=
  match getRange packet offset (offset + 2) with
  | some [a, b] => .ok (u16FromBeBytes a b)
  | _ => .error (.invalidData "truncated mDNS u16".toList)

def readU32 (offset : Nat) : Except IoError Nat :=
  match getRange packet offset (offset + 4) with
  | some [a, b, c, d] => .ok (u32FromBeBytes a b c d)
  | _ => .error (.invalidData "truncated mDNS u32".toList)

/-- `packet[start..stop]`, whose range is within the packet wherever the source uses it. -/
def slice (start stop : Nat) : Bytes := (packet.drop start).take (stop - start)

/-- The data of a record, with the names in it read. -/
def expandRdata (rrType start stop : Nat) : Except IoError Bytes :=
  if rrType = typeCname ∨ rrType = typePtr then do
    let (name, consumed) ← decodeName packet start
    if consumed ≠ stop then .error (.invalidData "trailing mDNS name data".toList) else .ok name
  else if rrType = typeSrv then
    if stop < start + 6 then .error (.invalidData "short mDNS SRV data".toList)
    else do
      let (name, consumed) ← decodeName packet (start + 6)
      if consumed ≠ stop then .error (.invalidData "trailing mDNS SRV data".toList)
      else .ok (slice packet start (start + 6) ++ name)
  else .ok (slice packet start stop)

def parseQuestion (start : Nat) : Except IoError (ParsedQuestion × Nat) := do
  let (owner, stop) ← decodeName packet start
  if packet.length < stop + 4 then .error (.invalidData "truncated mDNS question".toList)
  else
    let rrType ← readU16 packet stop
    let rawClass ← readU16 packet (stop + 2)
    return (⟨owner, rrType, rawClass &&& dnsClassMask, rawClass &&& dnsClassQuOrFlush != 0,
      slice packet start (stop + 4)⟩, stop + 4)

def parseQuestions : Nat → Nat → Except IoError (List ParsedQuestion × Nat)
  | 0, offset => .ok ([], offset)
  | count + 1, offset => do
    let (question, offset) ← parseQuestion packet offset
    let (questions, offset) ← parseQuestions count offset
    return (question :: questions, offset)

def parseRecord (inSection : ParsedSection) (start : Nat) :
    Except IoError (ParsedRecord × Nat) := do
  let (owner, stop) ← decodeName packet start
  if packet.length < stop + 10 then .error (.invalidData "truncated mDNS record header".toList)
  else
    let rrType ← readU16 packet stop
    let cls ← readU16 packet (stop + 2)
    let ttl ← readU32 packet (stop + 4)
    let length ← readU16 packet (stop + 8)
    if packet.length < stop + 10 + length then .error (.invalidData "truncated mDNS RDATA".toList)
    else
      let rdata ← expandRdata packet rrType (stop + 10) (stop + 10 + length)
      return (⟨owner, rrType, cls &&& dnsClassMask, ttl, rdata, inSection⟩, stop + 10 + length)

def parseRecords (inSection : ParsedSection) : Nat → Nat → Except IoError (List ParsedRecord × Nat)
  | 0, offset => .ok ([], offset)
  | count + 1, offset => do
    let (record, offset) ← parseRecord packet inSection offset
    let (records, offset) ← parseRecords inSection count offset
    return (record :: records, offset)

/-- The sections of a message, whose counts are those of the header. -/
def parseSections (id questionCount answerCount authorityCount additionalCount : Nat) :
    Except IoError ParsedMessage := do
  let (questions, offset) ← parseQuestions packet questionCount dnsHeaderLen
  let (answers, offset) ← parseRecords packet .answer answerCount offset
  let (authorities, offset) ← parseRecords packet .authority authorityCount offset
  let (additionals, offset) ← parseRecords packet .additional additionalCount offset
  if offset ≠ packet.length then .error (.invalidData "trailing mDNS packet data".toList)
  else .ok ⟨id, questions, answers ++ authorities ++ additionals⟩

def parseMessage : Except IoError ParsedMessage :=
  if packet.length < dnsHeaderLen then .error (.invalidData "short mDNS packet".toList)
  else do
    let id ← readU16 packet 0
    let questionCount ← readU16 packet 4
    let answerCount ← readU16 packet 6
    let authorityCount ← readU16 packet 8
    let additionalCount ← readU16 packet 10
    parseSections packet id questionCount answerCount authorityCount additionalCount

end

/-! ### Writing -/

structure LocalRecord where
  owner : Bytes
  rrType : Nat
  cls : Nat
  ttl : Nat
  cacheFlush : Bool
  rdata : Bytes
  deriving DecidableEq, Repr

/-- The derived order of records goes through the fields. -/
def LocalRecord.sortKey (record : LocalRecord) : Bytes ×ₗ Nat ×ₗ Nat ×ₗ Nat ×ₗ Bool ×ₗ Bytes :=
  toLex (record.owner, toLex (record.rrType, toLex (record.cls, toLex (record.ttl,
    toLex (record.cacheFlush, record.rdata)))))

def dnsHeader (id flags questions answers authorities additionals : Nat) : Bytes :=
  u16ToBeBytes id ++ u16ToBeBytes flags ++ u16ToBeBytes questions ++ u16ToBeBytes answers ++
    u16ToBeBytes authorities ++ u16ToBeBytes additionals

def appendRecord (record : LocalRecord) (permitFlush : Bool) (ttlOverride : Option Nat) :
    Except IoError Bytes :=
  if 65535 < record.rdata.length then .error (.invalidData "mDNS RDATA exceeds 65535 octets".toList)
  else
    let cls := record.cls ||| if permitFlush && record.cacheFlush then dnsClassQuOrFlush else 0
    let ttl :=
      ttlOverride.getD (if permitFlush then record.ttl else min record.ttl legacyUnicastTtlMax)
    .ok (record.owner ++ u16ToBeBytes record.rrType ++ u16ToBeBytes cls ++ u32ToBeBytes ttl ++
      u16ToBeBytes record.rdata.length ++ record.rdata)

def responsePacket (id : Nat) (questions : List Bytes) (records : List LocalRecord)
    (legacy : Bool) : Except IoError Bytes :=
  if 65535 < questions.length then
    .error (.invalidData "too many mDNS response questions".toList)
  else if 65535 < records.length then
    .error (.invalidData "too many mDNS response records".toList)
  else do
    let written ← records.mapM fun record => appendRecord record (!legacy) none
    return dnsHeader id (flagQr ||| flagAa) questions.length records.length 0 0 ++
      questions.flatten ++
      written.flatten

/-! ### What is read is canonical -/

/-- A name on the wire, in lower case. -/
def IsCanonical (name : Bytes) : Prop :=
  ∃ labels, ValidLabels labels ∧ name = wireName (labels.map lowercase)

/-- The names in the data of a record are canonical. -/
def CanonicalRdata (rrType : Nat) (rdata : Bytes) : Prop :=
  (rrType = typeCname ∨ rrType = typePtr → IsCanonical rdata) ∧
    (rrType = typeSrv → ∃ head name, head.length = 6 ∧ IsCanonical name ∧ rdata = head ++ name)

theorem expandRdata_canonical {stop : Nat} (hstop : stop ≤ packet.length)
    (h : expandRdata packet rrType start stop = .ok rdata) : CanonicalRdata rrType rdata := by
  unfold expandRdata at h
  split_ifs at h with hname hsrv hshort
  · obtain ⟨⟨name, consumed⟩, hdecode, h⟩ := of_bind h
    dsimp only at h
    split_ifs at h
    cases h
    refine ⟨fun _ => decodeName_canonical hdecode, fun hsrv => ?_⟩
    rw [hsrv] at hname
    exact absurd hname (by decide)
  · obtain ⟨⟨name, consumed⟩, hdecode, h⟩ := of_bind h
    dsimp only at h
    split_ifs at h with hconsumed
    cases h
    refine ⟨fun hbad => absurd hbad hname, fun _ =>
      ⟨_, name, ?_, decodeName_canonical hdecode, rfl⟩⟩
    rw [slice, length_take, length_drop]
    omega
  · exact ⟨fun hbad => absurd hbad hname, fun hbad => absurd hbad hsrv⟩

theorem parseQuestion_canonical {question : ParsedQuestion}
    (h : parseQuestion packet start = .ok (question, next)) : IsCanonical question.owner := by
  obtain ⟨⟨owner, stop⟩, hdecode, h⟩ := of_bind h
  dsimp only at h
  split_ifs at h
  obtain ⟨rrType, -, h⟩ := of_bind h
  obtain ⟨rawClass, -, h⟩ := of_bind h
  cases h
  exact decodeName_canonical hdecode

theorem parseQuestions_canonical : ∀ {count start next : Nat}
    {questions : List ParsedQuestion}, parseQuestions packet count start = .ok (questions, next) →
    ∀ question ∈ questions, IsCanonical question.owner
  | 0, _, _, _, h => by
    cases h
    simp
  | count + 1, _, _, _, h => by
    obtain ⟨⟨question, offset⟩, hquestion, h⟩ := of_bind h
    obtain ⟨⟨questions, offset⟩, hquestions, h⟩ := of_bind h
    cases h
    exact forall_mem_cons.mpr
      ⟨parseQuestion_canonical hquestion, parseQuestions_canonical hquestions⟩

def ParsedRecord.Canonical (record : ParsedRecord) : Prop :=
  IsCanonical record.owner ∧ CanonicalRdata record.rrType record.rdata

variable {inSection : ParsedSection}

theorem parseRecord_canonical {record : ParsedRecord}
    (h : parseRecord packet inSection start = .ok (record, next)) : record.Canonical := by
  obtain ⟨⟨owner, stop⟩, hdecode, h⟩ := of_bind h
  dsimp only at h
  split_ifs at h
  obtain ⟨rrType, -, h⟩ := of_bind h
  obtain ⟨cls, -, h⟩ := of_bind h
  obtain ⟨ttl, -, h⟩ := of_bind h
  obtain ⟨length, -, h⟩ := of_bind h
  split_ifs at h with hlength
  obtain ⟨rdata, hrdata, h⟩ := of_bind h
  cases h
  exact ⟨decodeName_canonical hdecode, expandRdata_canonical (not_lt.mp hlength) hrdata⟩

theorem parseRecords_canonical : ∀ {count start next : Nat}
    {records : List ParsedRecord}, parseRecords packet inSection count start = .ok (records, next) →
    ∀ record ∈ records, record.Canonical
  | 0, _, _, _, h => by
    cases h
    simp
  | count + 1, _, _, _, h => by
    obtain ⟨⟨record, offset⟩, hrecord, h⟩ := of_bind h
    obtain ⟨⟨records, offset⟩, hrecords, h⟩ := of_bind h
    cases h
    exact forall_mem_cons.mpr ⟨parseRecord_canonical hrecord, parseRecords_canonical hrecords⟩

/-- **All names of a message that is read are canonical.** -/
theorem parseMessage_canonical {message : ParsedMessage} (h : parseMessage packet = .ok message) :
    (∀ question ∈ message.questions, IsCanonical question.owner) ∧
      ∀ record ∈ message.records, record.Canonical := by
  unfold parseMessage at h
  split_ifs at h
  obtain ⟨id, -, h⟩ := of_bind h
  obtain ⟨questionCount, -, h⟩ := of_bind h
  obtain ⟨answerCount, -, h⟩ := of_bind h
  obtain ⟨authorityCount, -, h⟩ := of_bind h
  obtain ⟨additionalCount, -, h⟩ := of_bind h
  obtain ⟨⟨questions, offset⟩, hquestions, h⟩ := of_bind h
  obtain ⟨⟨answers, offset⟩, hanswers, h⟩ := of_bind h
  obtain ⟨⟨authorities, offset⟩, hauthorities, h⟩ := of_bind h
  obtain ⟨⟨additionals, offset⟩, hadditionals, h⟩ := of_bind h
  dsimp only at h
  split_ifs at h
  cases h
  refine ⟨parseQuestions_canonical hquestions, fun record hrecord => ?_⟩
  simp only [mem_append] at hrecord
  rcases hrecord with (hrecord | hrecord) | hrecord
  · exact parseRecords_canonical hanswers record hrecord
  · exact parseRecords_canonical hauthorities record hrecord
  · exact parseRecords_canonical hadditionals record hrecord

/-! ### What is written is read back -/

def IsWireName (name : Bytes) : Prop := ∃ labels, ValidLabels labels ∧ name = wireName labels

/-- The data of a record has names where its type says. -/
def NamedRdata (rrType : Nat) (rdata : Bytes) : Prop :=
  (rrType = typeCname ∨ rrType = typePtr → IsWireName rdata) ∧
    (rrType = typeSrv → ∃ head name, head.length = 6 ∧ IsWireName name ∧ rdata = head ++ name)

/-- A record whose names are names and whose numbers fit their fields. -/
structure LocalRecord.WellFormed (record : LocalRecord) : Prop where
  owner : IsWireName record.owner
  rrType : record.rrType < 65536
  cls : record.cls < 32768
  ttl : record.ttl < 2 ^ 32
  rdata : NamedRdata record.rrType record.rdata

/-- The data of a record with its names in lower case. -/
def canonicalRdata (rrType : Nat) (rdata : Bytes) : Bytes :=
  if rrType = typeCname ∨ rrType = typePtr then lowercase rdata
  else if rrType = typeSrv then rdata.take 6 ++ lowercase (rdata.drop 6)
  else rdata

def LocalRecord.announced (record : LocalRecord) : ParsedRecord :=
  ⟨lowercase record.owner, record.rrType, record.cls, record.ttl,
    canonicalRdata record.rrType record.rdata, .answer⟩

theorem lowercase_of_isCanonical (h : IsCanonical name) : lowercase name = name := by
  obtain ⟨labels, hvalid, rfl⟩ := h
  rw [← lowercase_wireName hvalid.short, lowercase_idem]

/-- Data that is read is as it would be announced. -/
theorem canonicalRdata_of_canonical (h : CanonicalRdata rrType rdata) :
    canonicalRdata rrType rdata = rdata := by
  unfold canonicalRdata
  split_ifs with hname hsrv
  · exact lowercase_of_isCanonical (h.1 hname)
  · obtain ⟨head, name, hlength, hname, rfl⟩ := h.2 hsrv
    rw [take_left' hlength, drop_left' hlength, lowercase_of_isCanonical hname]
  · rfl

theorem IsWireName.canonicalWireName (h : IsWireName name) :
    canonicalWireName name = .ok (lowercase name) := by
  obtain ⟨labels, hvalid, rfl⟩ := h
  exact canonicalWireName_eq_ok.mpr ⟨labels, hvalid, rfl, lowercase_wireName hvalid.short⟩

theorem IsWireName.decodeName (h : IsWireName name) (hdrop : packet.drop offset = name ++ rest) :
    decodeName packet offset = .ok (lowercase name, offset + name.length) := by
  obtain ⟨labels, hvalid, rfl⟩ := h
  rw [lowercase_wireName hvalid.short]
  have hcount := two_mul_length_lt hvalid.nonempty
  have hfits := hvalid.fits
  exact loop_decodeRound (r := []) hvalid (by omega) rfl hdrop

theorem readU16_of_drop (hvalue : value < 65536)
    (hdrop : packet.drop offset = u16ToBeBytes value ++ rest) :
    readU16 packet offset = .ok value := by
  have hrange : getRange packet offset (offset + 2) = some (u16ToBeBytes value) :=
    getRange_of_drop (le_length_of_drop hdrop).le hdrop
  simp only [readU16, hrange, u16ToBeBytes, u16FromBeBytes, UInt8.toNat_ofNat', Except.ok.injEq]
  omega

theorem readU32_of_drop (hvalue : value < 2 ^ 32)
    (hdrop : packet.drop offset = u32ToBeBytes value ++ rest) :
    readU32 packet offset = .ok value := by
  have hrange : getRange packet offset (offset + 4) = some (u32ToBeBytes value) :=
    getRange_of_drop (le_length_of_drop hdrop).le hdrop
  simp only [readU32, hrange, u32ToBeBytes, u16ToBeBytes, cons_append, nil_append,
    u32FromBeBytes, u16FromBeBytes, UInt8.toNat_ofNat', Except.ok.injEq]
  omega

theorem slice_of_drop {bytes : Bytes} (hdrop : packet.drop start = bytes ++ rest) :
    slice packet start (start + bytes.length) = bytes := by
  rw [slice, hdrop, Nat.add_sub_cancel_left, take_left]

/-- The data of a record is read with its names in lower case. -/
theorem expandRdata_of_drop (hrdata : NamedRdata rrType rdata)
    (hdrop : packet.drop start = rdata ++ rest) :
    expandRdata packet rrType start (start + rdata.length) = .ok (canonicalRdata rrType rdata) := by
  unfold expandRdata canonicalRdata
  by_cases hname : rrType = typeCname ∨ rrType = typePtr
  · rw [if_pos hname, if_pos hname, (hrdata.1 hname).decodeName hdrop, ok_bind]
    simp
  · rw [if_neg hname, if_neg hname]
    by_cases hsrv : rrType = typeSrv
    · obtain ⟨head, name, hlength, hwire, rfl⟩ := hrdata.2 hsrv
      rw [append_assoc] at hdrop
      have htarget := drop_add_of_drop hdrop
      rw [hlength] at htarget
      have hhead := slice_of_drop hdrop
      rw [hlength] at hhead
      rw [if_pos hsrv, if_pos hsrv, if_neg (by rw [length_append]; omega), hwire.decodeName htarget,
        ok_bind]
      dsimp only
      rw [if_neg (by rw [length_append]; omega), hhead, take_left' hlength,
        drop_left' hlength]
    · rw [if_neg hsrv, if_neg hsrv, slice_of_drop hdrop]

/-- The mask takes the flush bit away again. -/
theorem class_and_mask (h : cls < 32768) (flush : Bool) :
    (cls ||| if flush then dnsClassQuOrFlush else 0) &&& dnsClassMask = cls := by
  have hmask : cls &&& dnsClassMask = cls := by
    rw [dnsClassMask, show 0x7fff = 2 ^ 15 - 1 from rfl, Nat.and_two_pow_sub_one_eq_mod,
      Nat.mod_eq_of_lt h]
  rw [Nat.and_or_distrib_right, hmask]
  cases flush <;> simp [dnsClassQuOrFlush, dnsClassMask]

theorem class_lt (h : cls < 32768) {flush : Bool} :
    (cls ||| if flush then dnsClassQuOrFlush else 0) < 65536 := by
  have hflush : (if flush then dnsClassQuOrFlush else 0) < 2 ^ 16 := by cases flush <;> decide
  exact Nat.or_lt_two_pow (by omega) hflush

/-- **A record that is written is read back with its names in lower case.** -/
theorem parseRecord_appendRecord {record : LocalRecord} (hrecord : record.WellFormed)
    {written : Bytes} (h : appendRecord record true none = .ok written)
    (hdrop : packet.drop start = written ++ rest) :
    parseRecord packet .answer start = .ok (record.announced, start + written.length) := by
  unfold appendRecord at h
  split at h
  · cases h
  cases h
  have hlength : record.rdata.length < 65536 := by omega
  simp only [append_assoc, Option.getD_none, if_true, Bool.true_and] at hdrop ⊢
  have htype := drop_add_of_drop hdrop
  have hclass := drop_add_of_drop htype
  have httl := drop_add_of_drop hclass
  have hcount := drop_add_of_drop httl
  have hrdata := drop_add_of_drop hcount
  have hlong := congrArg length hdrop
  simp only [length_drop, length_append, length_u16ToBeBytes, length_u32ToBeBytes] at hlong
  have hheader : ¬packet.length < start + record.owner.length + 10 := by omega
  have hdata : ¬packet.length < start + record.owner.length + 10 + record.rdata.length := by omega
  have hreadType := readU16_of_drop hrecord.rrType htype
  have hreadClass : readU16 packet (start + record.owner.length + 2) = .ok
      (record.cls ||| if record.cacheFlush then dnsClassQuOrFlush else 0) :=
    readU16_of_drop (class_lt hrecord.cls) hclass
  have hreadTtl : readU32 packet (start + record.owner.length + 4) = .ok record.ttl :=
    readU32_of_drop hrecord.ttl httl
  have hreadCount : readU16 packet (start + record.owner.length + 8) = .ok record.rdata.length :=
    readU16_of_drop hlength hcount
  have hexpand : expandRdata packet record.rrType (start + record.owner.length + 10)
      (start + record.owner.length + 10 + record.rdata.length) =
        .ok (canonicalRdata record.rrType record.rdata) := expandRdata_of_drop hrecord.rdata hrdata
  simp only [parseRecord, hrecord.owner.decodeName hdrop, ok_bind, if_neg hheader,
    hreadType, hreadClass, hreadTtl, hreadCount, if_neg hdata, hexpand, class_and_mask hrecord.cls]
  simp only [pure_eq, LocalRecord.announced, length_append, length_u16ToBeBytes,
    length_u32ToBeBytes]
  congr 2
  omega

theorem parseRecords_written {records : List LocalRecord} {written : List Bytes}
    (hrecords : ∀ record ∈ records, record.WellFormed)
    (h : records.mapM (fun record => appendRecord record true none) = .ok written)
    (hdrop : packet.drop start = written.flatten ++ rest) :
    parseRecords packet .answer records.length start =
      .ok (records.map LocalRecord.announced, start + written.flatten.length) := by
  induction records generalizing written start with
  | nil =>
    cases h
    rfl
  | cons record records ih =>
    obtain ⟨bytes, written, hbytes, hwritten, rfl⟩ := mapM_cons_eq_ok.mp h
    rw [flatten_cons, append_assoc] at hdrop
    have hfirst := parseRecord_appendRecord (hrecords record (by simp)) hbytes hdrop
    have hrest := ih (fun other hother => hrecords other (by simp [hother])) hwritten
      (drop_add_of_drop hdrop)
    simp only [length_cons, parseRecords, hfirst, ok_bind, hrest, pure_eq, map_cons,
      flatten_cons, length_append, Nat.add_assoc]

theorem parseMessage_dnsHeader {id questions answers authorities additionals : Nat} {flags : Nat}
    {body : Bytes} (hid : id < 65536) (hquestions : questions < 65536)
    (hanswers : answers < 65536) (hauthorities : authorities < 65536)
    (hadditionals : additionals < 65536) :
    parseMessage (dnsHeader id flags questions answers authorities additionals ++ body) =
      parseSections (dnsHeader id flags questions answers authorities additionals ++ body)
        id questions answers authorities additionals := by
  generalize hpacket : dnsHeader id flags questions answers authorities additionals ++ body = packet
  have hlength : ¬packet.length < dnsHeaderLen := by
    rw [← hpacket, length_append]
    exact Nat.not_lt.mpr (Nat.le_add_right 12 _)
  have h0 : packet.drop 0 = u16ToBeBytes id ++ packet.drop 2 := by rw [← hpacket]; rfl
  have h4 : packet.drop 4 = u16ToBeBytes questions ++ packet.drop 6 := by rw [← hpacket]; rfl
  have h6 : packet.drop 6 = u16ToBeBytes answers ++ packet.drop 8 := by rw [← hpacket]; rfl
  have h8 : packet.drop 8 = u16ToBeBytes authorities ++ packet.drop 10 := by rw [← hpacket]; rfl
  have h10 : packet.drop 10 = u16ToBeBytes additionals ++ packet.drop 12 := by rw [← hpacket]; rfl
  rw [parseMessage, if_neg hlength, readU16_of_drop hid h0, ok_bind,
    readU16_of_drop hquestions h4, ok_bind, readU16_of_drop hanswers h6, ok_bind,
    readU16_of_drop hauthorities h8, ok_bind, readU16_of_drop hadditionals h10, ok_bind]

/-- **A response is read back as its records**, with their names in lower case. -/
theorem parseMessage_responsePacket {records : List LocalRecord}
    (hrecords : ∀ record ∈ records, record.WellFormed)
    (h : responsePacket 0 [] records false = .ok packet) :
    parseMessage packet = .ok ⟨0, [], records.map LocalRecord.announced⟩ := by
  unfold responsePacket at h
  split_ifs at h with _ hcount
  obtain ⟨written, hwritten, h⟩ := of_bind h
  cases h
  rw [flatten_nil, append_nil, length_nil, parseMessage_dnsHeader (by decide) (by decide)
    (by omega) (by decide) (by decide)]
  generalize hpacket : dnsHeader 0 (flagQr ||| flagAa) 0 records.length 0 0 ++
    written.flatten = packet
  have hbody : packet.drop dnsHeaderLen = written.flatten ++ [] := by
    rw [← hpacket, append_nil]
    rfl
  have hlength : dnsHeaderLen + written.flatten.length = packet.length := by
    rw [← hpacket, length_append]
    rfl
  have hparsed := parseRecords_written hrecords hwritten hbody
  rw [hlength] at hparsed
  simp only [parseSections, parseQuestions, ok_bind, hparsed, parseRecords]
  simp

end RustdResolved.Mdns.Messages
