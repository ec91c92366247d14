import RustdResolved.Wire.Packet
import RustdResolved.Wire.RelocateRecord

/-! # Packets whose octets change

What a packet holds is read from its header, its questions and its records, and through the pointers
of its names from the offsets in `followedOctets`. A change of octets, of their place or of their
value, that leaves those offsets alone leaves the questions and records as they are, apart from the
TTLs (`parseQuestions_kept`, `parseRecords_moved`). -/

namespace RustdResolved.Wire.RelocatePacket

open List Lib.Result Octets Name PacketHeader Record Relocate RelocateRecord

variable {records : List ResourceRecord} {stop count start start' offset length : Nat}
  {packet packet' : Bytes} {sections : Sections} {question : Question} {changed : Nat → Prop}

/-! ### Where the names of a packet are -/

def questionNames (packet : Bytes) : Nat → Nat → List Nat
  | 0, _ => []
  | count + 1, offset =>
    match parseQuestion packet offset with
    | .error _ => []
    | .ok question => offset :: questionNames packet count question.nextOffset

/-- The offsets of the names of `count` records, of their owners and in their data. -/
def recordNames (packet : Bytes) : Nat → Nat → List Nat
  | 0, _ => []
  | count + 1, offset =>
    match parseRecord packet offset with
    | .error _ => []
    | .ok record =>
      offset :: rdataNames packet record ++ recordNames packet count record.nextOffset

def packetNames (packet : Bytes) : List Nat :=
  match Header.parse packet with
  | .error _ => []
  | .ok header =>
    questionNames packet header.questionCount dnsHeaderLen ++
      match parseQuestions packet header.questionCount dnsHeaderLen with
      | .error _ => []
      | .ok (_, offset) => recordNames packet header.totalRecords offset

/-- The offsets that the names of a packet are read at after a pointer. -/
def followedOctets (packet : Bytes) : List Nat := (packetNames packet).flatMap (followed packet)

/-! ### Headers -/

theorem headerParse_eq_ok {header : Header} :
    Header.parse packet = .ok header ↔
      12 ≤ packet.length ∧ readU16 packet 0 = .ok header.id ∧ readU16 packet 2 = .ok header.flags ∧
        readU16 packet 4 = .ok header.questionCount ∧ readU16 packet 6 = .ok header.answerCount ∧
        readU16 packet 8 = .ok header.authorityCount ∧
        readU16 packet 10 = .ok header.additionalCount := by
  unfold Header.parse dnsHeaderLen
  constructor
  · intro h
    split_ifs at h with hshort
    obtain ⟨id, hid, h⟩ := of_bind h
    obtain ⟨flags, hflags, h⟩ := of_bind h
    obtain ⟨questions, hquestions, h⟩ := of_bind h
    obtain ⟨answers, hanswers, h⟩ := of_bind h
    obtain ⟨authorities, hauthorities, h⟩ := of_bind h
    obtain ⟨additionals, hadditionals, h⟩ := of_bind h
    cases h
    exact ⟨by omega, hid, hflags, hquestions, hanswers, hauthorities, hadditionals⟩
  · rintro ⟨hlength, hid, hflags, hquestions, hanswers, hauthorities, hadditionals⟩
    rw [if_neg (by omega)]
    simp only [ok_bind, hid, hflags, hquestions, hanswers, hauthorities, hadditionals]

/-! ### Questions -/

structure QuestionAt (packet : Bytes) (start nameEnd : Nat) (question : Question) : Prop where
  name : readName packet start = .ok (question.name, nameEnd)
  rrType : readU16 packet nameEnd = .ok question.rrType
  allowed : queryTypeIsValid question.rrType = true
  rrClass : readU16 packet (nameEnd + 2) = .ok question.rrClass
  nextOffset : question.nextOffset = nameEnd + 4

theorem parseQuestion_eq_ok :
    parseQuestion packet start = .ok question ↔
      ∃ nameEnd, QuestionAt packet start nameEnd question := by
  constructor
  · intro h
    obtain ⟨⟨name, nameEnd⟩, hname, h⟩ := of_bind h
    obtain ⟨rrType, hrrType, h⟩ := of_bind h
    split_ifs at h with hallowed
    obtain ⟨rrClass, hrrClass, h⟩ := of_bind h
    cases h
    exact ⟨nameEnd, hname, hrrType, by simpa using hallowed, hrrClass, rfl⟩
  · rintro ⟨nameEnd, h⟩
    have hquestion : (⟨question.name, question.rrType, question.rrClass, nameEnd + 4⟩ : Question) =
        question := by
      rw [← h.nextOffset]
    unfold parseQuestion
    simp [ok_bind, h.name, h.rrType, h.allowed, h.rrClass, hquestion]

theorem readU16_lt {value : Nat} (h : readU16 packet offset = .ok value) :
    offset + 2 ≤ packet.length := by
  rw [readU16_eq] at h
  split at h
  · rename_i b _ hb
    have := (List.getElem?_eq_some_iff.mp hb).1
    omega
  · cases h

theorem QuestionAt.kept {nameEnd : Nat} (h : QuestionAt packet start nameEnd question)
    (hkeep : ∀ i, start ≤ i → i < nameEnd + 4 → packet'[i]? = packet[i]?)
    (hfollowed : ∀ i ∈ followed packet start, packet'[i]? = packet[i]?) :
    QuestionAt packet' start nameEnd question := by
  have hlt := (readName_lt h.name).1
  have hin := readU16_lt h.rrClass
  obtain ⟨length, rfl⟩ : ∃ length, nameEnd = start + length := ⟨nameEnd - start, by omega⟩
  have hmoved : Moved packet packet' start start (length + 4) :=
    .of_agree (by omega) (by omega) fun i hle hlt => hkeep i hle (by omega)
  refine ⟨readName_moved h.name (hmoved.part (show 0 + length ≤ _ by omega)) ?_,
    (hmoved.readU16 (by omega)).trans h.rrType, h.allowed, ?_, h.nextOffset⟩
  · exact fun i hi => ⟨hfollowed i hi, Or.inl (le_refl _)⟩
  · have := hmoved.readU16 (show length + 2 + 2 ≤ _ by omega)
    exact this.trans h.rrClass

theorem parseQuestions_le {questions : List Question}
    (h : parseQuestions packet count start = .ok (questions, stop)) :
    start ≤ stop ∧ (start ≤ packet.length → stop ≤ packet.length) := by
  induction count generalizing start stop questions with
  | zero =>
    cases h
    exact ⟨le_refl _, id⟩
  | succ count ih =>
    obtain ⟨question, hquestion, h⟩ := of_bind h
    obtain ⟨⟨rest, stop'⟩, hrest, h⟩ := of_bind h
    cases h
    obtain ⟨nameEnd, hat⟩ := parseQuestion_eq_ok.mp hquestion
    have hlt := (readName_lt hat.name).1
    have hin := readU16_lt hat.rrClass
    obtain ⟨hle, hfits⟩ := ih hrest
    rw [hat.nextOffset] at hle hfits
    exact ⟨by omega, fun _ => hfits (by omega)⟩

/-- **Questions whose octets stay read the same**, if what their names follow stays as well. -/
theorem parseQuestions_kept {questions : List Question}
    (h : parseQuestions packet count start = .ok (questions, stop))
    (hkeep : ∀ i, start ≤ i → i < stop → packet'[i]? = packet[i]?)
    (hfollowed : ∀ offset ∈ questionNames packet count start,
      ∀ i ∈ followed packet offset, packet'[i]?
      = packet[i]?) : parseQuestions packet' count start = .ok (questions, stop) := by
  induction count generalizing start stop questions with
  | zero =>
    exact h
  | succ count ih =>
    obtain ⟨question, hquestion, h⟩ := of_bind h
    obtain ⟨⟨rest, stop'⟩, hrest, h⟩ := of_bind h
    cases h
    simp only [questionNames, hquestion, mem_cons, forall_eq_or_imp] at hfollowed
    obtain ⟨nameEnd, hat⟩ := parseQuestion_eq_ok.mp hquestion
    have hnext := hat.nextOffset
    have hlt := (readName_lt hat.name).1
    have hle := (parseQuestions_le hrest).1
    have hquestion' := parseQuestion_eq_ok.mpr ⟨nameEnd, hat.kept (fun i h1 h2 => hkeep i h1 (by
      omega)) hfollowed.1⟩
    have hrest' := ih hrest (fun i h1 h2 => hkeep i (by omega) h2) hfollowed.2
    simp only [parseQuestions, ok_bind, hquestion', hrest']

/-! ### Records -/

/-- The octets of a range stand in another packet from `start'` on, apart from changed ones. -/
structure MovedExcept (changed : Nat → Prop) (packet packet' : Bytes) (start start' length : Nat) :
    Prop where
  fits : start + length ≤ packet.length
  fits' : start' + length ≤ packet'.length
  same : ∀ k < length, ¬ changed (start + k) → packet'[start' + k]? = packet[start + k]?

theorem MovedExcept.part (h : MovedExcept changed packet packet' start start' length) {skip : Nat}
    (hle : skip + count ≤ length)
    (hunchanged : ∀ i, start + skip ≤ i → i < start + skip + count → ¬ changed i) :
    Moved packet packet' (start + skip) (start' + skip) count where
  fits := by have := h.fits; omega
  fits' := by have := h.fits'; omega
  same k hk := by
    have := h.same (skip + k) (by omega) (hunchanged _ (by omega) (by omega))
    rwa [← Nat.add_assoc, ← Nat.add_assoc] at this

/-- The fields of a record that is read between two offsets. -/
structure FieldsWithin (start stop : Nat) (record : ResourceRecord) : Prop where
  ttlOffset : start ≤ record.ttlOffset
  rdataOffset : record.rdataOffset = record.ttlOffset + 6
  nextOffset : record.nextOffset = record.rdataOffset + record.rdata.length
  stop : record.nextOffset ≤ stop

theorem parseRecords_within {count start : Nat}
    (h : parseRecords packet count start = .ok (records, stop)) :
    start ≤ stop ∧ (start ≤ packet.length → stop ≤ packet.length) ∧
      ∀ record ∈ records, FieldsWithin start stop record := by
  refine parseRecords_induct (P := fun _ start records stop => start ≤ stop ∧
    (start ≤ packet.length → stop ≤ packet.length) ∧
    ∀ record ∈ records, FieldsWithin start stop record)
    (fun _ => ⟨le_refl _, id, by simp⟩) (fun hrecord _ ⟨hle, hfits, hwithin⟩ => ?_) h
  obtain ⟨nameEnd, rawTtl, hat⟩ := parseRecord_eq_ok.mp hrecord
  have hlt := (readName_lt hat.name).1
  have hin := (getRange_eq_some.mp hat.rdata).1.2
  have hnext := hat.nextOffset
  have httl := hat.ttlOffset
  have hdata := hat.rdataOffset
  refine ⟨by omega, fun _ => hfits (by omega), ?_⟩
  rw [forall_mem_cons]
  refine ⟨⟨by omega, by omega, by omega, hle⟩, fun other hother => ?_⟩
  have hother := hwithin other hother
  exact ⟨by have := hother.ttlOffset; omega, hother.rdataOffset, hother.nextOffset, hother.stop⟩

theorem length_parseRecords {count start : Nat}
    (h : parseRecords packet count start = .ok (records, stop)) : records.length = count := by
  refine parseRecords_induct (P := fun count _ records _ => records.length = count) (fun _ => rfl)
    (fun _ _ ih => ?_) h
  rw [length_cons, ih]

/-- A list of records is read in two parts. -/
theorem parseRecords_add {first second : Nat} :
    parseRecords packet (first + second) start = .ok (records, stop) ↔ ∃ before middle after,
      parseRecords packet first start = .ok (before, middle) ∧
      parseRecords packet second middle = .ok
      (after, stop) ∧ records = before ++ after := by
  induction first generalizing second start stop records with
  | zero => simp [parseRecords, eq_comm]
  | succ first ih =>
    rw [Nat.succ_add]
    constructor
    · intro h
      obtain ⟨record, hrecord, h⟩ := of_bind h
      obtain ⟨⟨rest, stop'⟩, hrest, hend⟩ := of_bind h
      cases hend
      obtain ⟨before, middle, after, hbefore, hafter, rfl⟩ := ih.mp hrest
      refine ⟨record :: before, middle, after, ?_, hafter, rfl⟩
      simp only [parseRecords, ok_bind, hrecord, hbefore]
    · rintro ⟨before, middle, after, h, hafter, rfl⟩
      obtain ⟨record, hrecord, h⟩ := of_bind h
      obtain ⟨⟨rest, middle'⟩, hrest, hend⟩ := of_bind h
      cases hend
      have hboth := ih.mpr ⟨rest, middle, after, hrest, hafter, rfl⟩
      simp [parseRecords, ok_bind, hrecord, hboth]

theorem recordNames_add {first start middle : Nat} {before : List ResourceRecord}
    (h : parseRecords packet first start = .ok (before, middle)) (second : Nat) :
    recordNames packet (first + second) start =
      recordNames packet first start ++ recordNames packet second middle := by
  refine parseRecords_induct (P := fun first start _ middle =>
    recordNames packet (first + second) start =
      recordNames packet first start ++ recordNames packet second middle)
    (fun _ => by simp [recordNames]) (fun hrecord _ ih => ?_) h
  rw [Nat.succ_add]
  simp only [recordNames, hrecord, ih, append_assoc, cons_append]

theorem parseRecords_recordAt {count start : Nat}
    (h : parseRecords packet count start = .ok (records, stop)) :
    ∀ record ∈ records, ∃ offset nameEnd rawTtl, RecordAt packet offset nameEnd rawTtl record := by
  refine parseRecords_induct (P := fun _ _ records _ => ∀ record ∈ records,
    ∃ offset nameEnd rawTtl, RecordAt packet offset nameEnd rawTtl record) (by simp)
    (fun hrecord _ ih => ?_) h
  rw [forall_mem_cons]
  exact ⟨⟨_, parseRecord_eq_ok.mp hrecord⟩, ih⟩

theorem parseRecords_apart {count start : Nat}
    (h : parseRecords packet count start = .ok (records, stop)) :
    records.Pairwise fun first second => first.ttlOffset + 4 ≤ second.ttlOffset := by
  refine parseRecords_induct (P := fun _ _ records _ => records.Pairwise fun first second =>
    first.ttlOffset + 4 ≤ second.ttlOffset) (fun _ => .nil) (fun hrecord hrest ih => ?_) h
  obtain ⟨nameEnd, rawTtl, hat⟩ := parseRecord_eq_ok.mp hrecord
  refine .cons (fun other hother => ?_) ih
  have := ((parseRecords_within hrest).2.2 other hother).ttlOffset
  have := hat.ttlOffset
  have := hat.nextOffset
  omega

/-- **Records that move read the same**, apart from their TTLs, if what their names follow stays. -/
theorem parseRecords_moved (hframe : MovedExcept changed packet packet' start start' length)
    (rawTtl : ResourceRecord → Nat) {k : Nat}
    (h : parseRecords packet count (start + k) = .ok (records, stop))
      (hstop : stop ≤ start + length)
    (hchanged : ∀ i, start + k ≤ i → i < stop → changed i →
      ∃ record ∈ records, record.ttlOffset ≤ i ∧ i
      < record.ttlOffset + 4)
    (httl : ∀ record ∈ records, readU32 packet' (start' + (record.ttlOffset - start)) = .ok (rawTtl
      record))
    (hsteady : ∀ offset ∈ recordNames packet count (start + k), Steady packet packet' start start'
      (followed packet offset)) :
    parseRecords packet' count (start' + k) =
      .ok (records.map fun record => movedRecord start start'
      (rawTtl record) record, start' + (stop - start)) ∧ ∀ record ∈ records, SameData packet packet'
      record (movedRecord start start' (rawTtl record) record) := by
  induction count generalizing k stop records with
  | zero =>
    cases h
    refine ⟨?_, by simp⟩
    simp [parseRecords]
  | succ count ih =>
    obtain ⟨record, hrecord, h⟩ := of_bind h
    obtain ⟨⟨rest, stop'⟩, hrest, h⟩ := of_bind h
    cases h
    simp only [recordNames, hrecord, cons_append, mem_cons, mem_append,
      forall_eq_or_imp] at hsteady
    rw [forall_mem_cons] at httl
    obtain ⟨nameEnd, ttl, hat⟩ := parseRecord_eq_ok.mp hrecord
    have hlt := (readName_lt hat.name).1
    obtain ⟨nameLength, rfl⟩ : ∃ nameLength, nameEnd = start + k + nameLength :=
      ⟨nameEnd - (start + k), by omega⟩
    have hnext := hat.nextOffset
    have hfield := hat.ttlOffset
    obtain ⟨hle, -, hwithin⟩ := parseRecords_within hrest
    -- of the octets of this record only those of its TTL may have changed
    have hown : ∀ i, start + k ≤ i → i < record.nextOffset → changed i →
        record.ttlOffset ≤ i ∧ i < record.ttlOffset + 4 := by
      intro i h1 h2 hi
      obtain ⟨other, hother, h3, h4⟩ := hchanged i h1 (by omega) hi
      rcases mem_cons.mp hother with rfl | hother
      · exact ⟨h3, h4⟩
      · have := (hwithin other hother).ttlOffset
        omega
    have hbefore := hframe.part (show k + (nameLength + 4) ≤ length by omega)
      (fun i h1 h2 hi => by have := hown i h1 (by omega) hi; omega)
    have hafter :=
      hframe.part (show k + nameLength + 8 + (2 + record.rdata.length) ≤ length by omega)
      (fun i h1 h2 hi => by have := hown i (by omega) (by omega) hi; omega)
    have httl' := httl.1
    rw [show start' + (record.ttlOffset - start) = start' + k + nameLength + 4 by omega] at httl'
    obtain ⟨hmoved, hsame⟩ := hat.moved hbefore httl' (by simpa only [Nat.add_assoc] using hafter)
      hsteady.1 fun offset hoffset => hsteady.2 offset (Or.inl hoffset)
    have hnextOffset : record.nextOffset = start + (k + nameLength + 10 + record.rdata.length) := by
      omega
    rw [hnextOffset] at hrest hsteady hwithin
    obtain ⟨hrest', hsame'⟩ := ih hrest hstop (fun i h1 h2 hi => by
        obtain ⟨other, hother, h3, h4⟩ := hchanged i (by omega) h2 hi
        rcases mem_cons.mp hother with rfl | hother
        · omega
        · exact ⟨other, hother, h3, h4⟩)
      httl.2 fun offset hoffset => hsteady.2 offset (Or.inr hoffset)
    refine ⟨?_, ?_⟩
    · have hrecord' := parseRecord_eq_ok.mpr ⟨_, _, hmoved⟩
      have hat' : (movedRecord start start' (rawTtl record) record).nextOffset =
          start' + (k + nameLength + 10 + record.rdata.length) := by
        simp only [movedRecord]
        omega
      simp [parseRecords, ok_bind, hrecord', hat', hrest']
    · simp only [mem_cons, forall_eq_or_imp]
      exact ⟨hsame, hsame'⟩

def shiftedRecord (start start' : Nat) (record : ResourceRecord) : ResourceRecord :=
  { record with
    ttlOffset := start' + (record.ttlOffset - start)
    rdataOffset := start' + (record.rdataOffset - start)
    nextOffset := start' + (record.nextOffset - start) }

section
variable (h : parseRecords packet count start = .ok (records, stop))
include h

/-- **Records that move with all their octets read the same**, if what their names follow stays. -/
theorem parseRecords_shifted
    (hmoved : Moved packet packet' start start' (stop - start))
    (hsteady : ∀ offset ∈ recordNames packet count start,
      Steady packet packet' start start' (followed packet offset)) :
    parseRecords packet' count start' =
        .ok (records.map (shiftedRecord start start'), start' + (stop - start)) ∧
      ∀ record ∈ records, SameData packet packet' record (shiftedRecord start start' record) := by
  obtain ⟨hle, -, hwithin⟩ := parseRecords_within h
  have hframe : MovedExcept (fun _ => False) packet packet' start start' (stop - start) :=
    ⟨hmoved.fits, hmoved.fits', fun k hk _ => hmoved.same k hk⟩
  -- the octets of a TTL are read as they were
  let rawTtl (record : ResourceRecord) : Nat :=
    (readU32 packet record.ttlOffset).toOption.getD 0
  have hraw : ∀ record ∈ records,
      readU32 packet' (start' + (record.ttlOffset - start)) = .ok (rawTtl record) ∧
        movedRecord start start' (rawTtl record) record = shiftedRecord start start' record := by
    intro record hrecord
    obtain ⟨_, nameEnd, ttl, hat⟩ := parseRecords_recordAt h record hrecord
    have hread : readU32 packet record.ttlOffset = .ok ttl := by
      rw [hat.ttlOffset]
      exact hat.ttlField
    obtain ⟨h1, h2, h3, h4⟩ := hwithin record hrecord
    obtain ⟨k, hk⟩ := Nat.exists_eq_add_of_le h1
    simp only [rawTtl, hread, Except.toOption, Option.getD_some]
    constructor
    · have hoctet : ∀ j < 4, packet'[start' + (k + j)]? = packet[start + (k + j)]? :=
        fun j hj => hmoved.same (k + j) (by omega)
      rw [← hread, hk, Nat.add_sub_cancel_left, readU32_eq, readU32_eq]
      simp only [Nat.add_assoc]
      rw [hoctet 1 (by omega), hoctet 2 (by omega), hoctet 3 (by omega), hmoved.same k (by omega)]
    · simp only [movedRecord, shiftedRecord, ← hat.ttl]
  obtain ⟨hparse, hsame⟩ := parseRecords_moved hframe rawTtl (k := 0) h (by omega)
    (fun _ _ _ => False.elim) (fun record hrecord => (hraw record hrecord).1) hsteady
  rw [map_congr_left fun record hrecord => (hraw record hrecord).2] at hparse
  refine ⟨hparse, fun record hrecord => ?_⟩
  rw [← (hraw record hrecord).2]
  exact hsame record hrecord

/-- **Records whose octets stay read the same**, if what their names follow stays as well. -/
theorem parseRecords_kept
    (hfits : start ≤ packet.length) (hfits' : start ≤ packet'.length)
    (hkeep : ∀ i, start ≤ i → i < stop → packet'[i]? = packet[i]?)
    (hfollowed : ∀ offset ∈ recordNames packet count start, ∀ i ∈ followed packet offset,
      packet'[i]? = packet[i]?) :
    parseRecords packet' count start = .ok (records, stop) ∧
      ∀ record ∈ records, SameData packet packet' record record := by
  obtain ⟨hle, hstop, hwithin⟩ := parseRecords_within h
  have hstop' : stop ≤ packet'.length := by
    by_contra hshort
    have hend := hkeep packet'.length hfits' (by omega)
    rw [getElem?_eq_none (le_refl _), eq_comm, getElem?_eq_none_iff] at hend
    omega
  have hmoved : Moved packet packet' start start (stop - start) :=
    ⟨by omega, by omega, fun k hk => hkeep (start + k) (by omega) (by omega)⟩
  have hplace : ∀ record ∈ records, shiftedRecord start start record = record := by
    intro record hrecord
    obtain ⟨h1, h2, h3, h4⟩ := hwithin record hrecord
    unfold shiftedRecord
    rw [Nat.add_sub_cancel' h1, Nat.add_sub_cancel' (by omega), Nat.add_sub_cancel' (by omega)]
  obtain ⟨hparse, hsame⟩ := parseRecords_shifted h hmoved
    fun name hname i hi => ⟨hfollowed name hname i hi, Or.inl (le_refl _)⟩
  rw [map_congr_left hplace, map_id', Nat.add_sub_cancel' hle] at hparse
  refine ⟨hparse, fun record hrecord => ?_⟩
  have := hsame record hrecord
  rwa [hplace record hrecord] at this

end

/-! ### Packets -/

theorem parseSections_eq_ok :
    parseSections packet = .ok sections ↔
      Header.parse packet = .ok sections.header ∧ ∃ offset,
        parseQuestions packet sections.header.questionCount dnsHeaderLen =
          .ok (sections.questions, offset) ∧
        parseRecords packet sections.header.totalRecords offset =
          .ok (sections.records, sections.stop) := by
  constructor
  · intro h
    obtain ⟨header, hheader, h⟩ := of_bind h
    obtain ⟨⟨questions, offset⟩, hquestions, h⟩ := of_bind h
    obtain ⟨⟨records, stop⟩, hrecords, h⟩ := of_bind h
    cases h
    exact ⟨hheader, offset, hquestions, hrecords⟩
  · rintro ⟨hheader, offset, hquestions, hrecords⟩
    unfold parseSections
    simp only [ok_bind, hheader, hquestions, hrecords]

/-- What the names of a packet follow, name by name. -/
theorem mem_followedOctets (hheader : Header.parse packet = .ok sections.header)
    (hquestions : parseQuestions packet sections.header.questionCount dnsHeaderLen =
      .ok (sections.questions, offset)) {i : Nat} :
    i ∈ followedOctets packet ↔
      (∃ name ∈ questionNames packet sections.header.questionCount dnsHeaderLen,
        i ∈ followed packet name) ∨
      ∃ name ∈ recordNames packet sections.header.totalRecords offset,
      i ∈ followed packet name := by
  simp [followedOctets, packetNames, hheader, hquestions]

/-- **A packet whose octets stay reads the same**, apart from its header and the TTLs, if what its
names follow stays as well. -/
theorem parseSections_kept {header' : Header}
    (h : parseSections packet = .ok sections) (hheader' : Header.parse packet' = .ok header')
    (hquestionCount : header'.questionCount = sections.header.questionCount)
    (htotal : header'.totalRecords = sections.header.totalRecords)
    {rawTtl : ResourceRecord → Nat} (hfits : sections.stop ≤ packet'.length)
    (hkeep : ∀ i, dnsHeaderLen ≤ i → i < sections.stop →
      (∀ record ∈ sections.records, ¬ (record.ttlOffset ≤ i ∧ i < record.ttlOffset + 4)) →
      packet'[i]? = packet[i]?)
    (httl : ∀ record ∈ sections.records,
      readU32 packet' record.ttlOffset = .ok (rawTtl record))
    (hfollowed : ∀ i ∈ followedOctets packet, packet'[i]? = packet[i]?) :
    parseSections packet' = .ok ⟨header', sections.questions,
        sections.records.map fun record =>
          { record with ttl := recordTtl record.rrType (rawTtl record) }, sections.stop⟩ ∧
      ∀ record ∈ sections.records, SameData packet packet' record
        { record with ttl := recordTtl record.rrType (rawTtl record) } := by
  obtain ⟨hheader, offset, hquestions, hrecords⟩ := parseSections_eq_ok.mp h
  have hmem := fun i => mem_followedOctets (i := i) hheader hquestions
  have hheaderFits := (headerParse_eq_ok.mp hheader).1
  obtain ⟨hle, hquestionsFit⟩ := parseQuestions_le hquestions
  obtain ⟨hle', hrecordsFit, hwithin⟩ := parseRecords_within hrecords
  have hquestions' := parseQuestions_kept hquestions
    (fun i h1 h2 => hkeep i h1 (by omega) fun record hrecord => by
      have := (hwithin record hrecord).ttlOffset
      omega)
    (fun name hname i hi => hfollowed i ((hmem i).mpr (Or.inl ⟨name, hname, hi⟩)))
  have hframe : MovedExcept
      (fun i => ∃ record ∈ sections.records, record.ttlOffset ≤ i ∧ i < record.ttlOffset + 4)
      packet packet' offset offset (sections.stop - offset) := by
    have hstop := hrecordsFit (hquestionsFit hheaderFits)
    refine ⟨by omega, by omega, fun k hk hunchanged => ?_⟩
    exact hkeep (offset + k) (by omega) (by omega) fun record hrecord hin =>
      hunchanged ⟨record, hrecord, hin⟩
  have hplace : ∀ record ∈ sections.records, movedRecord offset offset (rawTtl record) record =
      { record with ttl := recordTtl record.rrType (rawTtl record) } := by
    intro record hrecord
    obtain ⟨h1, h2, h3, h4⟩ := hwithin record hrecord
    simp only [movedRecord, ResourceRecord.mk.injEq, true_and]
    omega
  obtain ⟨hrecords', hsame⟩ := parseRecords_moved hframe rawTtl (k := 0) hrecords (by omega)
    (fun i _ _ hi => hi)
    (fun record hrecord => by
      have := (hwithin record hrecord).ttlOffset
      rw [Nat.add_sub_cancel' this]
      exact httl record hrecord)
    (fun name hname i hi =>
      ⟨hfollowed i ((hmem i).mpr (Or.inr ⟨name, hname, hi⟩)), Or.inl (le_refl _)⟩)
  refine ⟨parseSections_eq_ok.mpr ⟨hheader', offset, ?_, ?_⟩, ?_⟩
  · rw [hquestionCount]
    exact hquestions'
  · rw [htotal]
    refine hrecords'.trans ?_
    rw [Nat.add_sub_cancel' hle']
    simp only [Except.ok.injEq, Prod.mk.injEq, and_true]
    exact map_congr_left hplace
  · intro record hrecord
    rw [← hplace record hrecord]
    exact hsame record hrecord

end RustdResolved.Wire.RelocatePacket
