import RustdResolved.Wire.Splice

/-! # The skeleton of a packet

Where the records of a packet stand, and of which type they are, can be found without following a
pointer. So it does not change when the identifier, the flags or the TTLs are overwritten, even if
a name is read through those and the packet no longer reads the same. -/

namespace RustdResolved.Wire.Skeleton

open List Lib.Result Octets Name PacketHeader Record Overwrite Relocate RelocateRecord
open RelocatePacket Splice

def questionsEnd (packet : Bytes) : Nat → Nat → Nat
  | 0, offset => offset
  | count + 1, offset => questionsEnd packet count (localEnd packet readNameFuel offset + 4)

/-- The types of `count` records from `offset` on, with the offsets of their fields. -/
def entriesFrom (packet : Bytes) : Nat → Nat → List (Nat × Nat)
  | 0, _ => []
  | count + 1, offset =>
    let nameEnd := localEnd packet readNameFuel offset
    match readU16 packet nameEnd, readU16 packet (nameEnd + 8) with
    | .ok rrType, .ok length =>
      (rrType, nameEnd) :: entriesFrom packet count (nameEnd + 10 + length)
    | _, _ => []

def recordEntries (packet : Bytes) : List (Nat × Nat) :=
  match Header.parse packet with
  | .ok header =>
    entriesFrom packet header.totalRecords (questionsEnd packet header.questionCount dnsHeaderLen)
  | .error _ => []

def recordTypes (packet : Bytes) : List Nat := (recordEntries packet).map Prod.fst

def movedEntry (start start' : Nat) (record : ResourceRecord) : Nat × Nat :=
  (record.rrType, start' + (record.ttlOffset - start) - 4)

theorem map_fst_movedEntry (start start' : Nat) (records : List ResourceRecord) :
    (records.map (movedEntry start start')).map Prod.fst = records.map (·.rrType) := by
  rw [map_map]
  rfl

/-! ### Packets that agree from some offset on -/

section
variable {packet packet' : Bytes}

theorem headerParse_counts {header : Header} (hlength : packet'.length = packet.length)
    (h : ∀ i, 4 ≤ i → i < 12 → packet'[i]? = packet[i]?)
    (hheader : Header.parse packet = .ok header) :
    ∃ header', Header.parse packet' = .ok header' ∧ header'.questionCount = header.questionCount ∧
      header'.totalRecords = header.totalRecords := by
  obtain ⟨hlong, -, -, hcount, hanswers, hauthorities, hadditionals⟩ := headerParse_eq_ok.mp hheader
  have hread : ∀ offset, 4 ≤ offset → offset + 1 < 12 →
      readU16 packet' offset = readU16 packet offset :=
    fun offset h4 h12 => readU16_of_agree (h _ h4 (by omega)) (h _ (by omega) h12)
  obtain ⟨header', hheader', -⟩ := @Header.parse_isOk packet' (by unfold dnsHeaderLen; omega)
  obtain ⟨-, -, -, hcount', hanswers', hauthorities', hadditionals'⟩ :=
    headerParse_eq_ok.mp hheader'
  rw [hread _ (by omega) (by omega)] at hcount' hanswers' hauthorities' hadditionals'
  refine ⟨header', hheader', Except.ok.inj (hcount'.symm.trans hcount), ?_⟩
  unfold Header.totalRecords
  rw [Except.ok.inj (hanswers'.symm.trans hanswers),
    Except.ok.inj (hauthorities'.symm.trans hauthorities),
    Except.ok.inj (hadditionals'.symm.trans hadditionals)]

end

/-! ### Packets that can be read -/

section
variable {packet packet' : Bytes} {sections : Sections}

theorem localEnd_carried {start start' next : Nat} {name : DnsName}
    (h : readName packet start = .ok (name, next))
    (hsame : ∀ k, start + k < next → packet'[start' + k]? = packet[start + k]?) :
    localEnd packet' readNameFuel start' = start' + (next - start) := by
  obtain ⟨hlt, hfits⟩ := readName_lt h
  have hmoved : Moved packet packet' start start' (next - start) :=
    Moved.of_same (by omega) (by omega) fun k hk => hsame k (by omega)
  unfold readName at h
  split_ifs at h
  exact localEnd_moved hmoved (k := 0) h rfl rfl (by simp only; omega)

theorem questionsEnd_kept {count start stop : Nat} {questions : List Question}
    (h : parseQuestions packet count start = .ok (questions, stop))
    (hagree : ∀ i, start ≤ i → i < stop → packet'[i]? = packet[i]?) :
    questionsEnd packet' count start = stop := by
  induction count generalizing start stop questions with
  | zero =>
    cases h
    rfl
  | succ count ih =>
    obtain ⟨question, hquestion, h⟩ := of_bind h
    obtain ⟨⟨rest, stop'⟩, hrest, hend⟩ := of_bind h
    cases hend
    obtain ⟨nameEnd, hat⟩ := parseQuestion_eq_ok.mp hquestion
    have hlt := (readName_lt hat.name).1
    have hle := (parseQuestions_le hrest).1
    rw [hat.nextOffset] at hrest hle
    have hname : localEnd packet' readNameFuel start = nameEnd := by
      rw [localEnd_carried hat.name fun k hk => hagree (start + k) (by omega) (by omega)]
      omega
    rw [questionsEnd, hname]
    exact ih hrest fun i h1 h2 => hagree i (by omega) h2

/-- Records that move are found again, whatever becomes of their TTLs. -/
theorem entriesFrom_carried (second : Nat) {first start start' middle : Nat}
    {records : List ResourceRecord} (h : parseRecords packet first start = .ok (records, middle))
    (hsame : ∀ k, start + k < middle →
      (∀ record ∈ records, ¬ (record.ttlOffset ≤ start + k ∧ start + k < record.ttlOffset + 4)) →
      packet'[start' + k]? = packet[start + k]?) :
    entriesFrom packet' (first + second) start' =
      records.map (movedEntry start start') ++
        entriesFrom packet' second (start' + (middle - start)) := by
  induction first generalizing start start' middle records with
  | zero =>
    cases h
    simp
  | succ first ih =>
    obtain ⟨record, hrecord, h⟩ := of_bind h
    obtain ⟨⟨rest, middle'⟩, hrest, hend⟩ := of_bind h
    cases hend
    obtain ⟨nameEnd, rawTtl, hat⟩ := parseRecord_eq_ok.mp hrecord
    have hlt := (readName_lt hat.name).1
    have httl := hat.ttlOffset
    have hnext := hat.nextOffset
    obtain ⟨hle, -, hwithin⟩ := parseRecords_within hrest
    simp only [mem_cons, forall_eq_or_imp] at hsame
    -- the octets of this record that are not its TTL are in no TTL
    have hown : ∀ k, start + k < record.nextOffset →
        ¬ (record.ttlOffset ≤ start + k ∧ start + k < record.ttlOffset + 4) →
        packet'[start' + k]? = packet[start + k]? := by
      intro k hk hnot
      refine hsame k (by omega) ⟨hnot, fun other hother hin => ?_⟩
      have := (hwithin other hother).ttlOffset
      omega
    have hread : ∀ k, start + k + 2 ≤ record.nextOffset →
        (start + k + 2 ≤ record.ttlOffset ∨ record.ttlOffset + 4 ≤ start + k) →
        readU16 packet' (start' + k) = readU16 packet (start + k) := by
      intro k h1 h2
      rw [readU16_eq, readU16_eq, Nat.add_assoc, Nat.add_assoc, hown k (by omega) (by omega),
        hown (k + 1) (by omega) (by omega)]
    have hname := localEnd_carried hat.name fun k hk => hown k (by omega) (by omega)
    have htype : readU16 packet' (start' + (nameEnd - start)) = .ok record.rrType := by
      rw [hread _ (by omega) (by omega), Nat.add_sub_cancel' (by omega)]
      exact hat.rrType
    have hlength : readU16 packet' (start' + (nameEnd - start) + 8) = .ok record.rdata.length := by
      rw [Nat.add_assoc, hread _ (by omega) (by omega), ← Nat.add_assoc,
        Nat.add_sub_cancel' (by omega)]
      exact hat.rdataLength
    have hshift : start' + (nameEnd - start) + 10 + record.rdata.length =
        start' + (record.nextOffset - start) := by omega
    have hrest' : entriesFrom packet' (first + second) (start' + (record.nextOffset - start)) =
        rest.map (movedEntry record.nextOffset (start' + (record.nextOffset - start))) ++
          entriesFrom packet' second
            (start' + (record.nextOffset - start) + (middle - record.nextOffset)) := by
      refine ih hrest fun k hk hnot => ?_
      have := hsame (record.nextOffset - start + k) (by omega)
        ⟨by omega, fun other hother hin => hnot other hother (by omega)⟩
      rwa [← Nat.add_assoc, ← Nat.add_assoc, Nat.add_sub_cancel' (by omega)] at this
    have hentry : movedEntry start start' record = (record.rrType, start' + (nameEnd - start)) :=
      Prod.ext rfl (by unfold movedEntry; omega)
    have hentries : rest.map (movedEntry record.nextOffset (start' + (record.nextOffset - start))) =
        rest.map (movedEntry start start') := by
      refine map_congr_left fun other hother => ?_
      have := (hwithin other hother).ttlOffset
      exact Prod.ext rfl (by unfold movedEntry; omega)
    have hend : start' + (record.nextOffset - start) + (middle - record.nextOffset) =
        start' + (middle - start) := by omega
    rw [Nat.succ_add]
    simp [entriesFrom, hname, htype, hlength, hshift, hrest', hentries, hend, hentry]

/-- **The types of a packet whose TTLs are overwritten** are those that it was read with. -/
theorem recordTypes_kept (h : parseSections packet = .ok sections)
    (hlength : packet'.length = packet.length)
    (hagree : ∀ i, 4 ≤ i →
      (∀ record ∈ sections.records, ¬ (record.ttlOffset ≤ i ∧ i < record.ttlOffset + 4)) →
      packet'[i]? = packet[i]?) :
    recordTypes packet' = sections.records.map (·.rrType) := by
  obtain ⟨hheader, offset, hquestions, hrecords⟩ := parseSections_eq_ok.mp h
  have hstart := (parseQuestions_le hquestions).1
  unfold dnsHeaderLen at hstart
  have hwithin := (parseRecords_within hrecords).2.2
  have hbefore : ∀ i, 4 ≤ i → i < offset → packet'[i]? = packet[i]? := by
    intro i h4 hi
    refine hagree i h4 fun record hrecord hin => ?_
    have := (hwithin record hrecord).ttlOffset
    omega
  obtain ⟨header', hheader', hcount, htotal⟩ :=
    headerParse_counts hlength (fun i h4 h12 => hbefore i h4 (by omega)) hheader
  unfold recordTypes recordEntries
  simp only [hheader', hcount, htotal]
  rw [questionsEnd_kept hquestions fun i h1 h2 =>
    hbefore i (by unfold dnsHeaderLen at h1; omega) h2]
  have hentries := entriesFrom_carried 0 hrecords fun k hk => hagree (offset + k) (by omega)
  rw [Nat.add_zero, entriesFrom, append_nil] at hentries
  rw [hentries, map_fst_movedEntry]

theorem recordTypes_of_parse (h : parseSections packet = .ok sections) :
    recordTypes packet = sections.records.map (·.rrType) :=
  recordTypes_kept h rfl fun _ _ _ => rfl

section
variable {sections : Sections} {offset start resume : Nat}
  {before removed after : List ResourceRecord}
  {header' : Header} {bytes : Bytes}

theorem recordEntries_spliced (count : Nat)
    (h : Parted packet sections offset start resume before removed after)
    (hsplice : Spliced packet packet' start resume bytes)
    (hheader' : Header.parse packet' = .ok header')
    (hcount : header'.questionCount = sections.header.questionCount)
    (htotal : header'.totalRecords = before.length + count) :
    recordEntries packet' =
      before.map (movedEntry offset offset) ++ entriesFrom packet' count start := by
  obtain ⟨h12, hoffset, hstart, hresume⟩ := h.bounds
  have hbefore : entriesFrom packet' (before.length + count) offset =
      before.map (movedEntry offset offset) ++ entriesFrom packet' count
        (offset + (start - offset)) :=
    entriesFrom_carried _ h.parseBefore fun k hk _ =>
      hsplice.front (offset + k) hk (by unfold dnsHeaderLen; omega)
  unfold recordEntries
  simp only [hheader', hcount, htotal]
  rw [questionsEnd_kept h.questions fun i h1 h2 => hsplice.front i (by omega) h1, hbefore,
    Nat.add_sub_cancel' hoffset]

end

end

end RustdResolved.Wire.Skeleton
