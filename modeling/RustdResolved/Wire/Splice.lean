import RustdResolved.Wire.Overwrite
import RustdResolved.Wire.RelocatePacket

/-! # Packets with records taken out and put in

A record is taken out of a packet, or put in, by cutting the packet at its octets. The records
before the cut stay, those after it move. The packet reads as before apart from the records at the
cut, if all its names follow octets before the cut only. -/

namespace RustdResolved.Wire.Splice

open Octets PacketHeader Record Relocate RelocateRecord RelocatePacket

/-- A packet whose records are `before`, `removed` and `after`. -/
structure Parted (packet : Bytes) (sections : Sections) (offset start resume : Nat)
    (before removed after : List ResourceRecord) : Prop where
  parse : parseSections packet = .ok sections
  stop : sections.stop = packet.length
  questions : parseQuestions packet sections.header.questionCount dnsHeaderLen =
    .ok (sections.questions, offset)
  records : sections.records = before ++ (removed ++ after)
  parseBefore : parseRecords packet before.length offset = .ok (before, start)
  parseRemoved : parseRecords packet removed.length start = .ok (removed, resume)
  parseAfter : parseRecords packet after.length resume = .ok (after, packet.length)

/-- A packet with `bytes` in the place of the octets from `start` to `resume`. -/
structure Spliced (packet packet' : Bytes) (start resume : Nat) (bytes : Bytes) : Prop where
  front : ∀ i < start, dnsHeaderLen ≤ i → packet'[i]? = packet[i]?
  length : packet'.length = start + bytes.length + (packet.length - resume)
  rest : packet'.drop start = bytes ++ packet.drop resume

section

variable {packet packet' bytes : Bytes} {sections : Sections} {offset start resume : Nat}
  {before removed after middle : List ResourceRecord}

namespace Parted

section
variable (h : Parted packet sections offset start resume before removed after)
include h

theorem bounds : 12 ≤ offset ∧ offset ≤ start ∧ start ≤ resume ∧ resume ≤ packet.length := by
  obtain ⟨h1, h2⟩ := parseQuestions_le h.questions
  have h2 := h2 (headerParse_eq_ok.mp (parseSections_eq_ok.mp h.parse).1).1
  obtain ⟨h3, h4, -⟩ := parseRecords_within h.parseBefore
  obtain ⟨h5, h6, -⟩ := parseRecords_within h.parseRemoved
  exact ⟨h1, h3, h5, h6 (h4 h2)⟩

theorem names {name i : Nat}
    (hname : name ∈ recordNames packet before.length offset ∨
      name ∈ recordNames packet after.length resume) (hi : i ∈ followed packet name) :
    i ∈ followedOctets packet := by
  obtain ⟨hheader, offset', hquestions', hrecords⟩ := parseSections_eq_ok.mp h.parse
  cases h.questions.symm.trans hquestions'
  have htotal : sections.header.totalRecords = before.length + (removed.length + after.length) := by
    rw [← length_parseRecords hrecords, h.records, List.length_append, List.length_append]
  refine (mem_followedOctets hheader hquestions').mpr (Or.inr ⟨name, ?_, hi⟩)
  rw [htotal, recordNames_add h.parseBefore, recordNames_add h.parseRemoved, List.mem_append,
    List.mem_append]
  rcases hname with hname | hname
  · exact Or.inl hname
  · exact Or.inr (Or.inr hname)

end

end Parted

theorem Spliced.moved (h : Spliced packet packet' start resume bytes)
    (hle : resume ≤ packet.length) :
    Moved packet packet' resume (start + bytes.length) (packet.length - resume) where
  fits := by omega
  fits' := by
    have := h.length
    omega
  same k hk := by
    rw [← List.getElem?_drop, ← List.getElem?_drop, drop_add_of_drop h.rest]

/-- **A spliced packet reads the same apart from the records at the cut.** -/
theorem parseSections_spliced (h : Parted packet sections offset start resume before removed after)
    (hsplice : Spliced packet packet' start resume bytes) {header' : Header}
    (hheader' : Header.parse packet' = .ok header')
    (hquestionCount : header'.questionCount = sections.header.questionCount)
    (htotal : header'.totalRecords = before.length + (middle.length + after.length))
    (hmiddle : parseRecords packet' middle.length start = .ok (middle, start + bytes.length))
    (hfollowed : ∀ i ∈ followedOctets packet, packet'[i]? = packet[i]? ∧ i < start) :
    parseSections packet' = .ok ⟨header', sections.questions,
        before ++ (middle ++ after.map (shiftedRecord resume (start + bytes.length))),
        packet'.length⟩ ∧
      (∀ record ∈ before, SameData packet packet' record record) ∧
      ∀ record ∈ after, SameData packet packet' record
        (shiftedRecord resume (start + bytes.length) record) := by
  obtain ⟨h12, hoffset, hstart, hresume⟩ := h.bounds
  have hlength := hsplice.length
  obtain ⟨hheader, -⟩ := parseSections_eq_ok.mp h.parse
  have hquestions' := parseQuestions_kept h.questions (fun i h1 h2 => hsplice.front i (by omega) h1)
    fun name hname i hi => (hfollowed i ((mem_followedOctets hheader h.questions).mpr (Or.inl ⟨name,
    hname, hi⟩))).1
  obtain ⟨hbefore', hsame⟩ := parseRecords_kept h.parseBefore (by omega) (by omega)
    (fun i h1 h2 => hsplice.front i h2 (by unfold dnsHeaderLen; omega))
    fun name hname i hi => (hfollowed i (h.names (Or.inl hname) hi)).1
  obtain ⟨hafter', hsame'⟩ := parseRecords_shifted h.parseAfter (hsplice.moved hresume)
    fun name hname i hi => by
      obtain ⟨hkeep, hlt⟩ := hfollowed i (h.names (Or.inr hname) hi)
      exact ⟨hkeep, Or.inr (by omega)⟩
  refine ⟨parseSections_eq_ok.mpr ⟨hheader', offset, ?_, ?_⟩, hsame, hsame'⟩
  · rw [hquestionCount]
    exact hquestions'
  · rw [htotal]
    rw [← hlength] at hafter'
    refine parseRecords_add.mpr ⟨before, start, _, hbefore', ?_, rfl⟩
    exact parseRecords_add.mpr ⟨middle, _, _, hmiddle, hafter', rfl⟩

end

end RustdResolved.Wire.Splice
