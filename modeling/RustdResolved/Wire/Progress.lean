import RustdResolved.Wire.RelocatePacket

/-! # The offsets that parsing visits

A pointer of a name leads back, but the name is passed over by going forward (`readName_lt`). So the
questions and records of a packet are read one after the other, also where one of them is
refused. -/

namespace RustdResolved.Wire.Progress

open Lib.Result Octets Name PacketHeader Record Relocate RelocateRecord RelocatePacket

variable {packet : Bytes} {offset : Nat}

/-- The offsets at which `count` things are read, up to the first that cannot be. -/
def visited {α : Type} (parse : Nat → Except WireError α) (next : α → Nat) : Nat → Nat → List Nat
  | 0, _ => []
  | count + 1, offset =>
    offset :: match parse offset with
      | .error _ => []
      | .ok item => visited parse next count (next item)

/-- The offsets at which `parse_sections` reads a question or a record. -/
def visitedOffsets (packet : Bytes) : List Nat :=
  match Header.parse packet with
  | .error _ => []
  | .ok header =>
    visited (parseQuestion packet) Question.nextOffset header.questionCount dnsHeaderLen ++
      match parseQuestions packet header.questionCount dnsHeaderLen with
      | .error _ => []
      | .ok (_, offset) =>
        visited (parseRecord packet) ResourceRecord.nextOffset header.totalRecords offset

theorem visited_sorted {α : Type} {parse : Nat → Except WireError α} {next : α → Nat}
    (hnext : ∀ {offset item}, parse offset = .ok item → offset < next item)
    (count offset : Nat) : (visited parse next count offset).Pairwise (· < ·) ∧
      ∀ i ∈ visited parse next count offset, offset ≤ i := by
  induction count generalizing offset with
  | zero => simp [visited]
  | succ count ih =>
    cases hitem : parse offset with
    | error error => simp [visited, hitem]
    | ok item =>
      have hlt := hnext hitem
      obtain ⟨hsorted, hle⟩ := ih (next item)
      simp only [visited, hitem, List.pairwise_cons, List.mem_cons, forall_eq_or_imp,
        le_refl, true_and]
      exact ⟨⟨fun i hi => hlt.trans_le (hle i hi), hsorted⟩, fun i hi =>
        (hlt.trans_le (hle i hi)).le⟩

theorem parseQuestion_lt {question : Question} (h : parseQuestion packet offset = .ok question) :
    offset < question.nextOffset := by
  obtain ⟨nameEnd, hat⟩ := parseQuestion_eq_ok.mp h
  have := (readName_lt hat.name).1
  rw [hat.nextOffset]
  omega

theorem parseRecord_lt {record : ResourceRecord} (h : parseRecord packet offset = .ok record) :
    offset < record.nextOffset := by
  obtain ⟨nameEnd, rawTtl, hat⟩ := parseRecord_eq_ok.mp h
  have := (readName_lt hat.name).1
  rw [hat.nextOffset]
  omega

theorem visited_questions_lt {count start stop : Nat} {questions : List Question}
    (h : parseQuestions packet count start = .ok (questions, stop)) :
    ∀ i ∈ visited (parseQuestion packet) Question.nextOffset count start, i < stop := by
  induction count generalizing start stop questions with
  | zero => simp [visited]
  | succ count ih =>
    obtain ⟨question, hquestion, h⟩ := of_bind h
    obtain ⟨⟨rest, stop'⟩, hrest, h⟩ := of_bind h
    cases h
    simp only [visited, hquestion, List.mem_cons, forall_eq_or_imp]
    exact ⟨(parseQuestion_lt hquestion).trans_le (parseQuestions_le hrest).1, ih hrest⟩

theorem visited_records_lt {count start stop : Nat} {records : List ResourceRecord}
    (h : parseRecords packet count start = .ok (records, stop)) :
    ∀ i ∈ visited (parseRecord packet) ResourceRecord.nextOffset count start, i < stop := by
  refine parseRecords_induct (P := fun count start _ stop =>
    ∀ i ∈ visited (parseRecord packet) ResourceRecord.nextOffset count start, i <
      stop) (by simp [visited])
    (fun hrecord hrest ih => ?_) h
  simp only [visited, hrecord, List.mem_cons, forall_eq_or_imp]
  exact ⟨(parseRecord_lt hrecord).trans_le (parseRecords_within hrest).1, ih⟩

theorem visitedOffsets_sorted : (visitedOffsets packet).Pairwise (· < ·) := by
  cases hheader : Header.parse packet with
  | error error => simp [visitedOffsets, hheader]
  | ok header =>
    have hquestions := visited_sorted (@parseQuestion_lt packet) header.questionCount dnsHeaderLen
    cases hparsed : parseQuestions packet header.questionCount dnsHeaderLen with
    | error error => simpa [visitedOffsets, hheader, hparsed] using hquestions.1
    | ok result =>
      obtain ⟨hrecords, hle⟩ := visited_sorted (@parseRecord_lt packet) header.totalRecords result.2
      simp only [visitedOffsets, hheader, hparsed]
      exact List.pairwise_append.mpr ⟨hquestions.1, hrecords, fun i hi j hj =>
        (visited_questions_lt hparsed i hi).trans_le (hle j hj)⟩

theorem visitedOffsets_lt {sections : Sections} (h : parseSections packet = .ok sections) :
    (∀ i ∈ visitedOffsets packet, i < sections.stop) ∧ sections.stop ≤ packet.length := by
  obtain ⟨hheader, offset, hquestions, hrecords⟩ := parseSections_eq_ok.mp h
  obtain ⟨hle, hfits, -⟩ := parseRecords_within hrecords
  have hstop := hfits ((parseQuestions_le hquestions).2 (headerParse_eq_ok.mp hheader).1)
  refine ⟨fun i hi => ?_, hstop⟩
  simp only [visitedOffsets, hheader, hquestions, List.mem_append] at hi
  obtain hi | hi := hi
  · exact (visited_questions_lt hquestions i hi).trans_le hle
  · exact visited_records_lt hrecords i hi

/-- **Reading a name ends and goes forward**, whatever its pointers are, and so does parsing. -/
theorem parsing_progresses (packet : Bytes) :
    (∀ offset, readName packet offset ≠ .error .outOfFuel ∧
      ∀ name next, readName packet offset = .ok (name, next) → offset < next ∧
      next ≤ packet.length) ∧
    (visitedOffsets packet).Pairwise (· < ·) ∧
    ∀ sections, parseSections packet = .ok sections →
      (∀ i ∈ visitedOffsets packet, i < sections.stop) ∧ sections.stop ≤ packet.length :=
  ⟨fun offset => ⟨readName_ne_outOfFuel offset, fun _ _ h => readName_lt h⟩,
    visitedOffsets_sorted, fun _ h => visitedOffsets_lt h⟩

end RustdResolved.Wire.Progress
