import RustdResolved.Wire.RelocatePacket
import RustdResolved.Wire.Reply
import RustdResolved.Wire.WrittenName

/-! # Replies match their query

A reply keeps the octets of the header and the question of its query, apart from the flags and the
counts of records. It reads as a response to the query, if the name of the question is not read
through the octets that are rewritten or cut off (`QuestionKept`). -/

namespace RustdResolved.Wire.ReplyMatches

open List Lib Result Loop Octets Name PacketHeader Record Packet Reply Relocate RelocateRecord
open RelocatePacket Overwrite WrittenName

variable {answers value clear flags offset stop code : Nat} {owner packet rest rdata : Bytes}
  {record : LocalRecord}

/-! ### Queries -/

structure ValidPacket (packet : Bytes) (expectResponse : Bool) (sections : Sections) : Prop where
  parse : parseSections packet = .ok sections
  direction : sections.header.isResponse = expectResponse
  opcode : sections.header.opcode = 0
  questions : sections.questions ≠ []
  query : expectResponse = false → sections.header.questionCount = 1 ∧
    sections.header.truncated = false ∧ sections.header.answerCount = 0
  stop : sections.stop = packet.length

theorem validate_eq_ok {expectResponse : Bool} :
    validate packet expectResponse = .ok () ↔
      ∃ sections, ValidPacket packet expectResponse sections := by
  constructor
  · intro h
    obtain ⟨sections, hparse, h⟩ := of_bind h
    dsimp only at h
    split_ifs at h with hdirection hopcode hquestions hcount htruncated hanswers hstop
    rw [not_not] at hdirection hopcode hstop
    refine ⟨sections, hparse, hdirection, hopcode, by simpa using hquestions, ?_, hstop⟩
    rintro rfl
    simp only [Bool.not_false, Bool.true_and, decide_eq_true_eq, not_not] at hcount hanswers
    exact ⟨hcount, by simpa using htruncated, hanswers⟩
  · rintro ⟨sections, h⟩
    unfold validate
    simp only [ok_bind, h.parse]
    rw [if_neg (not_not.mpr h.direction), if_neg (not_not.mpr h.opcode),
      if_neg (by simpa using h.questions), if_neg, if_neg, if_neg, if_neg (not_not.mpr h.stop)]
    · cases expectResponse with
      | true => simp
      | false => simpa using (h.query rfl).2.2
    · cases expectResponse with
      | true => simp
      | false => simpa using (h.query rfl).2.1
    · cases expectResponse with
      | true => simp
      | false => simpa using (h.query rfl).1

/-- A checked query, its header and its question. -/
structure QueryAt (query : Bytes) (header : Header) (question : Question) (nameEnd : Nat) :
    Prop where
  valid : validate query false = .ok ()
  parse : Header.parse query = .ok header
  direction : header.isResponse = false
  opcode : header.opcode = 0
  questionCount : header.questionCount = 1
  asks : QuestionAt query dnsHeaderLen nameEnd question

theorem queryAt_of_validate {query : Bytes} (h : validate query false = .ok ()) :
    ∃ header question nameEnd, QueryAt query header question nameEnd := by
  obtain ⟨sections, hvalid⟩ := validate_eq_ok.mp h
  obtain ⟨hheader, offset, hquestions, -⟩ := parseSections_eq_ok.mp hvalid.parse
  rw [(hvalid.query rfl).1] at hquestions
  obtain ⟨question, hquestion, -⟩ := of_bind hquestions
  obtain ⟨nameEnd, hat⟩ := parseQuestion_eq_ok.mp hquestion
  exact ⟨sections.header, question, nameEnd, h, hheader, hvalid.direction, hvalid.opcode,
    (hvalid.query rfl).1, hat⟩

namespace QueryAt

variable {query : Bytes} {header : Header} {question : Question} {nameEnd : Nat}

section
variable (h : QueryAt query header question nameEnd)
include h

theorem firstQuestion : Packet.firstQuestion query = .ok question := by
  unfold Packet.firstQuestion
  simp only [ok_bind, h.parse, h.questionCount]
  exact parseQuestion_eq_ok.mpr ⟨nameEnd, h.asks⟩

theorem questionEnd : Packet.questionEnd query = .ok (nameEnd + 4) := by
  have hquestion := parseQuestion_eq_ok.mpr ⟨nameEnd, h.asks⟩
  unfold Packet.questionEnd
  simp only [ok_bind, h.parse, h.questionCount, parseQuestions, hquestion, h.asks.nextOffset]
  rfl

theorem bounds : 12 < nameEnd ∧ nameEnd + 4 ≤ query.length :=
  ⟨(readName_lt h.asks.name).1, readU16_lt h.asks.rrClass⟩

end

end QueryAt

/-! ### Replies -/

/-- The octets of the header that a reply has its own: the flags and the counts of records. -/
def Rewritten (i : Nat) : Prop := i = 2 ∨ i = 3 ∨ 6 ≤ i ∧ i < 12
  deriving Decidable

/-- The name of the question of a query is only read at octets that a reply keeps. -/
def QuestionKept (query : Bytes) : Prop :=
  ∀ i ∈ followed query dnsHeaderLen, ¬ Rewritten i ∧
    i < localEnd query readNameFuel dnsHeaderLen + 4
  deriving Decidable

/-- A packet that keeps the octets of a query up to `stop`, apart from the flags and the counts of
records. -/
structure KeepsQuestion (query response : Bytes) (stop : Nat) : Prop where
  fits : stop ≤ response.length
  kept : ∀ i < stop, ¬ Rewritten i → response[i]? = query[i]?

section

variable {query response : Bytes} {header : Header} {question : Question} {nameEnd : Nat}

theorem QuestionKept.lt (h : QuestionKept query) (hquery : QueryAt query header question nameEnd)
    {i : Nat} (hi : i ∈ followed query dnsHeaderLen) : ¬ Rewritten i ∧ i < nameEnd + 4 := by
  have := h i hi
  rwa [← readName_localEnd hquery.asks.name] at this

section
variable (h : KeepsQuestion query response (nameEnd + 4))
  (hquery : QueryAt query header question nameEnd) {authorities additionals : Nat}
include h hquery

theorem KeepsQuestion.asks (hkept : QuestionKept query) :
    QuestionAt response dnsHeaderLen nameEnd question := by
  refine hquery.asks.kept (fun i hle hlt => h.kept i hlt ?_) fun i hi => ?_
  · unfold Rewritten
    unfold dnsHeaderLen at hle
    omega
  · obtain ⟨hnot, hlt⟩ := hkept.lt hquery hi
    exact h.kept i hlt hnot

theorem KeepsQuestion.parse (hflags : readU16 response 2 = .ok flags)
    (hanswers : readU16 response 6 = .ok answers)
    (hauthorities : readU16 response 8 = .ok authorities)
    (hadditionals : readU16 response 10 = .ok additionals) :
    Header.parse response = .ok ⟨header.id, flags, 1, answers, authorities, additionals⟩ := by
  obtain ⟨hstart, -⟩ := hquery.bounds
  obtain ⟨-, hid, -, hcount, -⟩ := headerParse_eq_ok.mp hquery.parse
  rw [hquery.questionCount] at hcount
  have hagree : ∀ i < 12, ¬ Rewritten i → response[i]? = query[i]? :=
    fun i hi => h.kept i (by omega)
  refine headerParse_eq_ok.mpr ⟨by have := h.fits; omega, ?_, hflags, ?_, hanswers, hauthorities,
    hadditionals⟩
  · exact (readU16_of_agree (hagree 0 (by omega) (by decide))
      (hagree 1 (by omega) (by decide))).trans
      hid
  · exact (readU16_of_agree (hagree 4 (by omega) (by decide))
      (hagree 5 (by omega) (by decide))).trans
      hcount

/-- **A packet that keeps the question of a query answers it**, if its records can be read to its
end. -/
theorem KeepsQuestion.responseMatches
 (hkept : QuestionKept query)
    {records : List ResourceRecord}
    (hflags : readU16 response 2 = .ok flags) (hqr : flags &&& flagQr ≠ 0)
    (hopcode : (flags &&& flagOpcode) / 2048 = 0)
    (hanswers : readU16 response 6 = .ok answers) (hauthorities : readU16 response 8 =
      .ok authorities)
    (hadditionals : readU16 response 10 = .ok additionals)
    (hrecords : parseRecords response (answers + authorities + additionals) (nameEnd + 4) =
      .ok (records, response.length)) : responseMatches query response = .ok () := by
  have hat := h.asks hquery hkept
  have hquestion := parseQuestion_eq_ok.mpr ⟨nameEnd, hat⟩
  have hheader' := h.parse hquery hflags hanswers hauthorities hadditionals
  have hquestions : parseQuestions response 1 dnsHeaderLen = .ok ([question], nameEnd + 4) := by
    simp only [parseQuestions, ok_bind, hquestion, hat.nextOffset]
  have hvalid : ValidPacket response true
      ⟨⟨header.id, flags, 1, answers, authorities, additionals⟩, [question], records,
        response.length⟩ :=
    ⟨parseSections_eq_ok.mpr ⟨hheader', nameEnd + 4, hquestions, hrecords⟩,
      by simpa [Header.isResponse] using hqr, hopcode, by simp, by simp, rfl⟩
  have hfirst : firstQuestion response = .ok question := by
    unfold firstQuestion
    simp only [ok_bind, hheader']
    exact hquestion
  unfold Packet.responseMatches
  simp only [ok_bind, hquery.valid, validate_eq_ok.mpr ⟨_, hvalid⟩, hquery.parse, hheader',
    hquery.firstQuestion, hfirst]
  simp

end

section
variable (h : KeepsQuestion query response stop) {response' : Bytes}
include h

/-- A packet with octets overwritten that a reply has its own still keeps the question. -/
theorem KeepsQuestion.writeAt {bytes : Bytes}
    (hwrite : Octets.writeAt response offset bytes = .ok response')
    (hown : ∀ i, offset ≤ i → i < offset + bytes.length → Rewritten i) :
    KeepsQuestion query response' stop where
  fits := by
    rw [length_writeAt hwrite]
    exact h.fits
  kept i hi hnot := by
    rw [getElem?_writeAt_of_out hwrite ?_]
    · exact h.kept i hi hnot
    · by_contra hin
      exact hnot (hown i (by omega) (by omega))

theorem KeepsQuestion.writeU16 (hwrite : Octets.writeU16 response offset value = .ok response')
    (hown : Rewritten offset ∧ Rewritten (offset + 1)) : KeepsQuestion query response' stop := by
  refine h.writeAt hwrite fun i h1 h2 => ?_
  obtain rfl | rfl : i = offset ∨ i = offset + 1 := by
    rw [length_u16ToBeBytes] at h2
    omega
  · exact hown.1
  · exact hown.2

theorem KeepsQuestion.append (rest : Bytes) : KeepsQuestion query (response ++ rest) stop where
  fits := by
    have := h.fits
    rw [length_append]
    omega
  kept i hi hnot := by
    have := h.fits
    rw [getElem?_append_left (by omega)]
    exact h.kept i hi hnot

end

theorem readU16_append (h : offset + 2 ≤ packet.length) :
    readU16 (packet ++ rest) offset = readU16 packet offset :=
  readU16_of_agree (getElem?_append_left (by omega)) (getElem?_append_left (by omega))

theorem indexRange_eq_ok {part : Bytes} :
    indexRange packet 0 stop = .ok part ↔ stop ≤ packet.length ∧ part = packet.take stop := by
  unfold indexRange getRange
  by_cases h : stop ≤ packet.length
  · simp [h, eq_comm]
  · simp [h]

theorem readU16_take (hle : offset + 2 ≤ stop) (h : readU16 packet offset = .ok value) :
    readU16 (packet.take stop) offset = .ok value := by
  rw [← h]
  apply readU16_of_agree
  · rw [getElem?_take, if_pos (by omega)]
  · rw [getElem?_take, if_pos (by omega)]

section
variable (hquery : QueryAt query header question nameEnd)
include hquery

theorem keepsQuestion_take : KeepsQuestion query (query.take (nameEnd + 4)) (nameEnd + 4) where
  fits := by
    have := hquery.bounds
    rw [length_take]
    omega
  kept i hi _ := by rw [getElem?_take, if_pos hi]

/-- A query with other flags, cut off after its question. -/
theorem exists_flagged (value : Nat) :
    readU16 (query.take (nameEnd + 4)) 2 = .ok header.flags ∧
    ∃ flagged, Octets.writeU16 (query.take (nameEnd + 4)) 2 value = .ok flagged ∧
      KeepsQuestion query flagged (nameEnd + 4) ∧ flagged.length = nameEnd + 4 ∧
      readU16 flagged 2 = .ok (value % 65536) := by
  obtain ⟨hstart, hend⟩ := hquery.bounds
  have htake : (query.take (nameEnd + 4)).length = nameEnd + 4 := by
    rw [length_take]
    omega
  obtain ⟨flagged, hflagged, hlength⟩ := @exists_writeAt (u16ToBeBytes value)
    (query.take (nameEnd + 4)) 2 (by rw [length_u16ToBeBytes]; omega)
  exact ⟨readU16_take (by omega) (headerParse_eq_ok.mp hquery.parse).2.2.1, flagged, hflagged,
    (keepsQuestion_take hquery).writeU16 hflagged (by decide), hlength.trans htake,
    readU16_writeU16 hflagged⟩

/-- The counts from `first` on are set to zero. -/
theorem exists_zeroed (hkeeps : KeepsQuestion query packet (nameEnd + 4))
    (hlength : packet.length = nameEnd + 4) {first : Nat} (hfirst : 6 ≤ first) (hle : first ≤ 12) :
    ∃ zeroed, fillZero packet first 12 = .ok zeroed ∧ KeepsQuestion query zeroed (nameEnd + 4) ∧
      zeroed.length = nameEnd + 4 ∧ readU16 zeroed 2 = readU16 packet 2 ∧
      ∀ i, first ≤ i → i < 12 → zeroed[i]? = some 0 := by
  obtain ⟨hstart, -⟩ := hquery.bounds
  obtain ⟨zeroed, hzeroed, hsame⟩ := @exists_writeAt (replicate (12 - first) 0) packet first
    (by rw [length_replicate]; omega)
  refine ⟨zeroed, ?_, hkeeps.writeAt hzeroed fun i h1 h2 => ?_, hsame.trans hlength,
    readU16_writeAt_of_out hzeroed (by omega), fun i h1 h2 => ?_⟩
  · rw [fillZero, if_pos (by omega)]
    exact hzeroed
  · rw [length_replicate] at h2
    unfold Rewritten
    omega
  · rw [getElem?_writeAt hzeroed, if_pos (by rw [length_replicate]; omega),
      getElem?_replicate, if_pos (by omega)]

end

/-- **What an error reply is made of.** -/
structure ErrorReply (query response : Bytes) (nameEnd flags : Nat) : Prop where
  keeps : KeepsQuestion query response (nameEnd + 4)
  length : response.length = nameEnd + 4
  flags : readU16 response 2 = .ok flags
  counts : ∀ i, 6 ≤ i → i < 12 → response[i]? = some 0

theorem replyWithFlags_ok (hquery : QueryAt query header question nameEnd) {newFlags : Nat → Nat} :
    ∃ response, replyWithFlags query newFlags = .ok response ∧
      ErrorReply query response nameEnd (newFlags header.flags % 65536) := by
  obtain ⟨hread, flagged, hflagged, hkeeps, hlength, hflags⟩ :=
    exists_flagged hquery (newFlags header.flags)
  obtain ⟨response, hresponse, hkeeps', hlength', hsame, hzero⟩ :=
    exists_zeroed hquery hkeeps hlength le_rfl (by omega)
  refine ⟨response, ?_, hkeeps', hlength', hsame.trans hflags, hzero⟩
  unfold replyWithFlags
  simp only [ok_bind, hquery.valid, hquery.questionEnd,
    indexRange_eq_ok.mpr ⟨hquery.bounds.2, rfl⟩, hread, hflagged, hresponse]

theorem ErrorReply.zero (h : ErrorReply query response nameEnd flags) (hle : 6 ≤ offset)
    (hlt : offset + 1 < 12) : readU16 response offset = .ok 0 := by
  rw [readU16_eq, h.counts offset hle (by omega), h.counts (offset + 1) (by omega) hlt]
  rfl

theorem ErrorReply.responseMatches (h : ErrorReply query response nameEnd flags)
    (hquery : QueryAt query header question nameEnd) (hkept : QuestionKept query)
    (hqr : flags &&& flagQr ≠ 0) (hopcode : (flags &&& flagOpcode) / 2048 = 0) :
    Packet.responseMatches query response = .ok () := by
  have hrecords : parseRecords response (0 + 0 + 0) (nameEnd + 4) = .ok ([], response.length) := by
    rw [h.length]
    rfl
  exact h.keeps.responseMatches hquery hkept h.flags hqr hopcode (h.zero (by omega) (by omega))
    (h.zero (by omega) (by omega)) (h.zero (by omega) (by omega)) hrecords

end

/-! ### Flags -/

theorem clearFlags_and (flags clear mask : Nat) :
    clearFlags flags clear &&& mask = flags &&& ((0xffff ^^^ clear) &&& mask) := by
  unfold clearFlags
  rw [Nat.and_assoc]

theorem clearFlags_lt (h : clear < 65536) : clearFlags flags clear < 65536 := by
  have hmask : 0xffff ^^^ clear < 2 ^ 16 := Nat.xor_lt_two_pow (by decide) h
  exact Nat.lt_of_le_of_lt Nat.and_le_right hmask

/-- The flags of a reply: bits of the query's flags are set and cleared, and the code is put in. -/
def replyFlags (set clear code flags : Nat) : Nat := clearFlags (flags ||| set) clear ||| code

theorem replyFlags_and (set clear code flags mask : Nat) :
    replyFlags set clear code flags &&& mask =
      (flags &&& ((0xffff ^^^ clear) &&& mask)) |||
        ((set &&& ((0xffff ^^^ clear) &&& mask)) ||| (code &&& mask)) := by
  rw [replyFlags, Nat.and_or_distrib_right, clearFlags_and, Nat.and_or_distrib_right, Nat.or_assoc]

theorem replyFlags_mod (set flags : Nat) (hclear : clear < 65536) (hcode : code < 65536) :
    replyFlags set clear code flags % 65536 = replyFlags set clear code flags :=
  Nat.mod_eq_of_lt (Nat.or_lt_two_pow (n := 16) (clearFlags_lt hclear) hcode)

/-- Setting and clearing flags makes a reply of a query, if the bit for a response is among those
set and the operation is not touched. -/
theorem replyFlags_isReply {set : Nat} (flags : Nat)
    (hset : set &&& ((0xffff ^^^ clear) &&& flagQr) = flagQr)
    (hclear : (0xffff ^^^ clear) &&& flagOpcode = flagOpcode) (hset' : set &&& flagOpcode = 0)
    (hcode : code &&& flagOpcode = 0) :
    replyFlags set clear code flags &&& flagQr ≠ 0 ∧
      replyFlags set clear code flags &&& flagOpcode = flags &&& flagOpcode := by
  rw [replyFlags_and, replyFlags_and, hclear, hset', hcode, hset, Nat.or_zero, Nat.or_zero]
  refine ⟨fun h => ?_, rfl⟩
  exact absurd (Nat.or_eq_zero_iff.mp (Nat.or_eq_zero_iff.mp h).2).1 (by decide)

def localFlags (flags : Nat) : Nat :=
  replyFlags (flagQr ||| flagAa ||| flagRa) (flagTc ||| rcodeMask) 0 flags

theorem localFlags_isReply :
    localFlags flags &&& flagQr ≠ 0 ∧ localFlags flags &&& flagOpcode = flags &&& flagOpcode :=
  replyFlags_isReply flags (by decide) (by decide) (by decide) (by decide)

/-! ### Local answers -/

/-- The octets of a record of a local answer. Its owner is a pointer to the question or written out,
and so is a name in its data. -/
structure LocalWire (bytes owner fields rdata : Bytes) (rrType : Nat) : Prop where
  bytes : bytes = owner ++ (u16ToBeBytes rrType ++ (fields ++ (u16ToBeBytes rdata.length ++ rdata)))
  owner : owner = [0xc0, 0x0c] ∨ IsWritten owner
  fields : fields.length = 6
  rrType : rrType = 1 ∨ rrType = 28 ∨ (rrType = 5 ∨ rrType = 12) ∧ IsWritten rdata
  short : rdata.length < 65536

def IsLocalWire (bytes : Bytes) : Prop :=
  ∃ owner fields rdata rrType, LocalWire bytes owner fields rdata rrType

theorem LocalRecord.owner_ok (h : record.owner = .ok owner) :
    owner = [0xc0, 0x0c] ∨ IsWritten owner := by
  cases record with
  | namedA | namedAaaa => exact Or.inr (encodeName_written h)
  | a | aaaa | cname | ptr => exact Or.inl (Except.ok.inj h).symm

theorem LocalRecord.rdata_ok (h : record.rdata = .ok rdata) :
    record.rrType = 1 ∨ record.rrType = 28 ∨
      (record.rrType = 5 ∨ record.rrType = 12) ∧ IsWritten rdata := by
  cases record with
  | a | namedA => exact Or.inl rfl
  | aaaa | namedAaaa => exact Or.inr (Or.inl rfl)
  | cname => exact Or.inr (Or.inr ⟨Or.inl rfl, encodeName_written h⟩)
  | ptr => exact Or.inr (Or.inr ⟨Or.inr rfl, encodeName_written h⟩)

theorem u16TryFrom_eq_ok {result : Nat} :
    u16TryFrom value = .ok result ↔ value < 65536 ∧ result = value := by
  unfold u16TryFrom
  split_ifs with h
  · simp [h, eq_comm]
  · simp [h]

theorem appendLocalRecords_ok {question : Question} {ttl : Nat} {records : List LocalRecord}
    {response response' : Bytes}
    (h : appendLocalRecords question ttl records response = .ok response') :
    ∃ blocks : List Bytes, (∀ block ∈ blocks, IsLocalWire block) ∧
      response' = response ++ blocks.flatten := by
  induction records generalizing response response' with
  | nil =>
    cases h
    exact ⟨[], by simp, by simp⟩
  | cons record rest ih =>
    rw [appendLocalRecords] at h
    split_ifs at h with hskip
    · exact ih h
    · obtain ⟨owner, howner, h⟩ := of_bind h
      obtain ⟨rdata, hrdata, h⟩ := of_bind h
      obtain ⟨rdataLength, hlength, h⟩ := of_bind h
      obtain ⟨hshort, rfl⟩ := u16TryFrom_eq_ok.mp hlength
      dsimp only at h
      split_ifs at h with hlong
      obtain ⟨blocks, hblocks, rfl⟩ := ih h
      refine ⟨(owner ++ u16ToBeBytes record.rrType ++ u16ToBeBytes classIn ++ u32ToBeBytes ttl ++
        u16ToBeBytes rdata.length ++ rdata) :: blocks, ?_,
        by rw [flatten_cons, append_assoc]⟩
      rw [forall_mem_cons]
      refine ⟨⟨owner, u16ToBeBytes classIn ++ u32ToBeBytes ttl, rdata, record.rrType, ?_,
        LocalRecord.owner_ok howner, rfl, LocalRecord.rdata_ok hrdata, hshort⟩, hblocks⟩
      simp

/-- The owner of a record of a local answer ends after its octets, and follows the name of the
question or nothing. -/
theorem followed_owner (howner : owner = [0xc0, 0x0c] ∨ IsWritten owner)
    (hdrop : packet.drop offset = owner ++ rest) :
    localEnd packet readNameFuel offset = offset + owner.length ∧
      ∀ i ∈ followed packet offset, i ∈ octetsFrom packet 399 12 := by
  rcases howner with rfl | hwritten
  · have hfirst : packet[offset]? = some 0xc0 := by
      rw [← Nat.add_zero offset, ← getElem?_drop, hdrop]
      rfl
    have hsecond : packet[offset + 1]? = some 0x0c := by
      rw [← getElem?_drop, hdrop]
      rfl
    have htarget : pointerTarget 0xc0 0x0c = 12 := by decide
    simp [readNameFuel, localEnd, followed, followedFrom, hfirst, hsecond, htarget]
  · obtain ⟨hend, hfollowed⟩ := hwritten.localEnd hdrop
    rw [hfollowed]
    exact ⟨hend, by simp⟩

theorem LocalWire.fieldsAt {bytes fields : Bytes} {rrType start : Nat}
    (h : LocalWire bytes owner fields rdata rrType) (hdrop : packet.drop start = bytes ++ rest) :
    localEnd packet readNameFuel start = start + owner.length ∧
      (∀ i ∈ followed packet start, i ∈ octetsFrom packet 399 12) ∧
      readU16 packet (start + owner.length) = .ok rrType ∧
      readU16 packet (start + owner.length + 8) = .ok rdata.length ∧
      packet.drop (start + owner.length + 10) = rdata ++ rest := by
  rw [h.bytes, append_assoc] at hdrop
  obtain ⟨hend, hfollowed⟩ := followed_owner h.owner hdrop
  have htypeAt := drop_add_of_drop hdrop
  rw [append_assoc] at htypeAt
  have hfieldsAt := drop_add_of_drop htypeAt
  rw [append_assoc] at hfieldsAt
  have hlengthAt := drop_add_of_drop hfieldsAt
  rw [h.fields, length_u16ToBeBytes, append_assoc] at hlengthAt
  have hsmall : rrType < 65536 := by
    have := h.rrType
    omega
  have htype := readU16_of_drop htypeAt
  have hlength := readU16_of_drop hlengthAt
  rw [Nat.mod_eq_of_lt hsmall] at htype
  rw [Nat.mod_eq_of_lt h.short] at hlength
  exact ⟨hend, hfollowed, htype, hlength, drop_add_of_drop hlengthAt⟩

/-- **What the names of a local answer follow** is what the name of the question is read at. -/
theorem recordNames_local {p : Nat → Prop} (hquestion : ∀ i ∈ octetsFrom packet 399 12, p i)
    {blocks : List Bytes} {count start : Nat} {records : List ResourceRecord}
    (hblocks : ∀ block ∈ blocks, IsLocalWire block) (hdrop : packet.drop start = blocks.flatten)
    (h : parseRecords packet count start = .ok (records, stop)) :
    ∀ name ∈ recordNames packet count start, ∀ i ∈ followed packet name, p i := by
  induction blocks generalizing count start stop records with
  | nil =>
    cases count with
    | zero => simp [recordNames]
    | succ count =>
      obtain ⟨record, hrecord, -⟩ := of_bind h
      obtain ⟨nameEnd, _, hat⟩ := parseRecord_eq_ok.mp hrecord
      have hlt := readName_lt hat.name
      have hend := drop_eq_nil_iff.mp hdrop
      omega
  | cons block blocks ih =>
    cases count with
    | zero => simp [recordNames]
    | succ count =>
      rw [forall_mem_cons] at hblocks
      obtain ⟨⟨owner, fields, rdata, rrType, hwire⟩, hrest⟩ := hblocks
      obtain ⟨record, hrecord, h⟩ := of_bind h
      obtain ⟨⟨others, stop'⟩, hothers, -⟩ := of_bind h
      obtain ⟨nameEnd, rawTtl, hat⟩ := parseRecord_eq_ok.mp hrecord
      -- the record is read where its octets are
      obtain ⟨hnameEnd, hfollowed, htypeAt, hlengthAt, hrdataAt⟩ := hwire.fieldsAt hdrop
      rw [← readName_localEnd hat.name] at hnameEnd
      rw [← hnameEnd] at htypeAt hlengthAt hrdataAt
      have htype : record.rrType = rrType := (Except.ok.inj (htypeAt.symm.trans hat.rrType)).symm
      have hlength : record.rdata.length = rdata.length :=
        (Except.ok.inj (hlengthAt.symm.trans hat.rdataLength)).symm
      have hnext : record.nextOffset = nameEnd + 10 + rdata.length := by
        rw [hat.nextOffset, hlength]
      have hrestAt := drop_add_of_drop hrdataAt
      rw [← hnext] at hrestAt
      simp only [recordNames, hrecord, cons_append, mem_cons, mem_append,
        forall_eq_or_imp]
      refine ⟨fun i hi => hquestion i (hfollowed i hi), fun name hname => ?_⟩
      rcases hname with hdata | hother
      · have hstart := hat.rdataOffset
        rw [rdataNames, htype] at hdata
        rcases hwire.rrType with rfl | rfl | ⟨hredirects, hwritten⟩
        · simp at hdata
        · simp at hdata
        · rcases hredirects with rfl | rfl
          all_goals
            simp only [mem_singleton] at hdata
            rw [hdata, hstart, (hwritten.localEnd hrdataAt).2]
            simp
      · exact ih hrest hrestAt hothers name hother

theorem countRecordsAfterQuestion_ok {count : Nat}
    (h : countRecordsAfterQuestion packet offset = .ok count) (hoffset : offset ≤ packet.length) :
    count < 65536 ∧ ∃ records, parseRecords packet count offset = .ok (records, packet.length) := by
  refine loop_ok (fun state : Nat × Nat => state.2 < 65536 ∧ state.1 ≤ packet.length ∧
      ∃ records, parseRecords packet state.2 offset = .ok (records, state.1))
    (fun count => count < 65536 ∧ ∃ records, parseRecords packet count offset =
      .ok (records, packet.length)) ?_ ?_ ⟨by omega, hoffset, [], rfl⟩ h
  · rintro ⟨middle, read⟩ next ⟨-, -, before, hbefore⟩ hbody
    unfold countRecordsBody at hbody
    split_ifs at hbody
    · cases hbody
    · obtain ⟨record, hrecord, hbody⟩ := of_bind hbody
      obtain ⟨more, hmore, hflow⟩ := of_bind hbody
      obtain ⟨hlt, rfl⟩ := u16TryFrom_eq_ok.mp hmore
      cases hflow
      have hone : parseRecords packet 1 middle = .ok ([record], record.nextOffset) := by
        simp only [parseRecords, ok_bind, hrecord]
      obtain ⟨nameEnd, rawTtl, hat⟩ := parseRecord_eq_ok.mp hrecord
      have hend := (getRange_eq_some.mp hat.rdata).1.2
      rw [← hat.nextOffset] at hend
      exact ⟨hlt, hend, before ++ [record],
        parseRecords_add.mpr ⟨before, middle, [record], hbefore, hone, rfl⟩⟩
  · rintro ⟨middle, read⟩ result ⟨hlt, hle, before, hbefore⟩ hbody
    unfold countRecordsBody at hbody
    split_ifs at hbody with hend
    · cases hbody
      have hmiddle : middle = packet.length := Nat.le_antisymm hle hend
      exact ⟨hlt, before, by rw [← hmiddle]; exact hbefore⟩
    · obtain ⟨record, -, hbody⟩ := of_bind hbody
      obtain ⟨more, -, hflow⟩ := of_bind hbody
      cases hflow

section

variable {query response : Bytes} {header : Header} {question : Question} {nameEnd : Nat}

/-- **What a local answer is made of**: a packet that keeps the question, with records after it, and
the number of those put into it. -/
structure LocalReply (query appended response : Bytes) (nameEnd flags answers : Nat)
    (blocks : List Bytes) : Prop where
  keeps : KeepsQuestion query appended (nameEnd + 4)
  wires : ∀ block ∈ blocks, IsLocalWire block
  records : appended.drop (nameEnd + 4) = blocks.flatten
  flags : readU16 appended 2 = .ok flags
  authorities : readU16 appended 8 = .ok 0
  additionals : readU16 appended 10 = .ok 0
  counted : countRecordsAfterQuestion appended (nameEnd + 4) = .ok answers
  written : writeU16 appended 6 answers = .ok response

/-- The part of `localResponse` before the records. -/
def startReply (query : Bytes) (stop count : Nat) : Except WireError Bytes := do
  let response ← indexRange query 0 stop
  let flags ← readU16 response 2
  let response ← writeU16 response 2
    (clearFlags (flags ||| (flagQr ||| flagAa ||| flagRa)) (flagTc ||| rcodeMask))
  let response ← writeU16 response 6 count
  fillZero response 8 12

/-- **What a local answer starts with.** -/
structure StartedReply (query started : Bytes) (nameEnd flags : Nat) : Prop where
  keeps : KeepsQuestion query started (nameEnd + 4)
  length : started.length = nameEnd + 4
  flags : readU16 started 2 = .ok flags
  counts : ∀ i, 8 ≤ i → i < 12 → started[i]? = some 0

theorem StartedReply.zero {started : Bytes} (h : StartedReply query started nameEnd flags)
    (hle : 8 ≤ offset) (hlt : offset + 1 < 12) : readU16 started offset = .ok 0 := by
  rw [readU16_eq, h.counts offset hle (by omega), h.counts (offset + 1) (by omega) hlt]
  rfl

section
variable (hquery : QueryAt query header question nameEnd)
include hquery

theorem startReply_ok (count : Nat) :
    ∃ started, startReply query (nameEnd + 4) count = .ok started ∧
      StartedReply query started nameEnd (localFlags header.flags) := by
  obtain ⟨hstart, hend⟩ := hquery.bounds
  obtain ⟨hread, flagged, hflagged, hkeeps, hlength, hflags⟩ := exists_flagged hquery
    (clearFlags (header.flags ||| (flagQr ||| flagAa ||| flagRa)) (flagTc ||| rcodeMask))
  obtain ⟨counted, hcounted, hsize⟩ := @exists_writeAt (u16ToBeBytes count) flagged 6
    (by rw [length_u16ToBeBytes]; omega)
  obtain ⟨started, hstarted, hkeeps', hlength', hsame, hzero⟩ := exists_zeroed hquery
    (hkeeps.writeU16 hcounted (by decide)) (hsize.trans hlength) (show 6 ≤ 8 by omega) (by omega)
  refine ⟨started, ?_, hkeeps', hlength', ?_, hzero⟩
  · rw [startReply, indexRange_eq_ok.mpr ⟨hend, rfl⟩, ok_bind, hread, ok_bind, hflagged, ok_bind,
      Octets.writeU16, hcounted, ok_bind, hstarted]
  · rw [hsame, readU16_writeAt_of_out hcounted (by omega), hflags]
    have hmod := replyFlags_mod (flagQr ||| flagAa ||| flagRa) header.flags
      (show flagTc ||| rcodeMask < 65536 by decide) (show 0 < 65536 by decide)
    rw [localFlags, ← hmod, replyFlags, Nat.or_zero]

/-- A local answer to a query is its start, the records and their number. -/
theorem localResponse_eq (records : List LocalRecord) (ttl : Nat) :
    localResponse query records ttl = (do
      let count ← u16TryFrom records.length
      let started ← startReply query (nameEnd + 4) count
      let appended ← appendLocalRecords question ttl records started
      let answers ← countRecordsAfterQuestion appended (nameEnd + 4)
      writeU16 appended 6 answers) := by
  obtain ⟨started, hstarted, -⟩ := startReply_ok hquery 0
  unfold startReply at hstarted ⊢
  obtain ⟨part, hpart, hstarted⟩ := of_bind hstarted
  obtain ⟨flags, hflags, hstarted⟩ := of_bind hstarted
  obtain ⟨flagged, hflagged, -⟩ := of_bind hstarted
  unfold localResponse
  simp [hquery.valid, hquery.firstQuestion, hquery.questionEnd, hpart, hflags, hflagged, ok_bind]

theorem localResponse_ok {records : List LocalRecord} {ttl : Nat}
    (h : localResponse query records ttl = .ok response) :
    ∃ appended answers blocks, LocalReply query appended response nameEnd (localFlags header.flags)
      answers blocks := by
  obtain ⟨hstart, hend⟩ := hquery.bounds
  rw [localResponse_eq hquery] at h
  obtain ⟨count, -, h⟩ := of_bind h
  obtain ⟨started, hstarted, h⟩ := of_bind h
  obtain ⟨appended, happended, h⟩ := of_bind h
  obtain ⟨answers, hanswers, hwritten⟩ := of_bind h
  obtain ⟨blocks, hblocks, rfl⟩ := appendLocalRecords_ok happended
  obtain ⟨started', hstarted', hreply⟩ := startReply_ok hquery count
  obtain rfl := Except.ok.inj (hstarted'.symm.trans hstarted)
  have hlength := hreply.length
  refine ⟨started' ++ blocks.flatten, answers, blocks, hreply.keeps.append _, hblocks,
    ?_, ?_, ?_, ?_, hanswers, hwritten⟩
  · rw [← hlength, drop_left]
  · rw [readU16_append (by omega), hreply.flags]
  · rw [readU16_append (by omega), hreply.zero (by omega) (by omega)]
  · rw [readU16_append (by omega), hreply.zero (by omega) (by omega)]

end

theorem LocalReply.responseMatches {appended : Bytes} {blocks : List Bytes}
    (h : LocalReply query appended response nameEnd flags answers blocks)
    (hquery : QueryAt query header question nameEnd) (hkept : QuestionKept query)
    (hqr : flags &&& flagQr ≠ 0) (hopcode : (flags &&& flagOpcode) / 2048 = 0) :
    Packet.responseMatches query response = .ok () := by
  obtain ⟨hstart, -⟩ := hquery.bounds
  obtain ⟨hlt, records, hrecords⟩ := countRecordsAfterQuestion_ok h.counted h.keeps.fits
  have hlength := length_writeAt h.written
  -- the number of answers is put in after the records were read, and no name is read through it
  have hsame : ∀ i, i ≠ 6 ∧ i ≠ 7 → response[i]? = appended[i]? := fun i hi =>
    getElem?_writeU16_of_out h.written (by omega)
  have hquestion : ∀ i ∈ octetsFrom appended 399 12, i ≠ 6 ∧ i ≠ 7 := by
    refine forall_octetsFrom (fun i hi => ?_) fun i hi => ⟨by omega, by omega⟩
    have hfollowed : followed appended dnsHeaderLen = followed query dnsHeaderLen := by
      have hname := hquery.asks.name
      unfold readName at hname
      split_ifs at hname
      refine followedFrom_kept hname rfl (fun i h1 h2 => h.keeps.kept i (by omega) ?_) fun i hi =>
        ?_
      · dsimp only [dnsHeaderLen] at h1
        unfold Rewritten
        omega
      · exact h.keeps.kept i (hkept.lt hquery hi).2 (hkept.lt hquery hi).1
    have hnot := (hkept i (by rw [← hfollowed]; exact hi)).1
    unfold Rewritten at hnot
    omega
  have hrecords' := (parseRecords_kept hrecords h.keeps.fits (by have := h.keeps.fits; omega)
    (fun i h1 _ => hsame i (by omega))
    fun name hname i hi => hsame i
      (recordNames_local hquestion h.wires h.records hrecords name hname i hi)).1
  have hread : ∀ offset, offset + 2 ≤ 6 ∨ 6 + 2 ≤ offset →
      readU16 response offset = readU16 appended offset := fun offset =>
    readU16_writeAt_of_out h.written
  have hanswers := readU16_writeU16 h.written
  rw [Nat.mod_eq_of_lt hlt] at hanswers
  have hkeeps := h.keeps.writeU16 h.written (by decide)
  rw [← hlength] at hrecords'
  exact hkeeps.responseMatches hquery hkept ((hread 2 (by omega)).trans h.flags) hqr
    hopcode hanswers
    ((hread 8 (by omega)).trans h.authorities) ((hread 10 (by omega)).trans h.additionals) hrecords'

end

end RustdResolved.Wire.ReplyMatches
