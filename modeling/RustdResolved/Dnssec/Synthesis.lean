import RustdResolved.Dnssec.NsecPaths
import RustdResolved.Dnssec.Rrsets
import RustdResolved.Wire.Dname

/-! # CNAME records that need no signature

`substantiveRrsets` leaves a set out when DNAME records spell its CNAME records octet by octet
(`mem_substantiveRrsets`). Those were made by DNAME records as long as the owners of these stand
above theirs (`leftOut_synthesized_iff`); the octets of an owner may as well stand inside a
label. -/

namespace RustdResolved.Dnssec.Synthesis

open List Lib.Result Wire Octets Name PacketHeader Record Presentation Dname Resolver.Error NameText
open CanonicalOrder NsecPaths Rrsets

variable {packet : Bytes} {records : List ResourceRecord} {cname dname : ResourceRecord}
  {target : DnsName} {rrsets : List RrsetKey} {b : Bool} {key : RrsetKey}

/-! ### What the search for a DNAME record finds -/

/-- The data of the record is the name. -/
def Targets (packet : Bytes) (record : ResourceRecord) (target : DnsName) : Prop :=
  readName packet record.rdataOffset = .ok (target, record.nextOffset)

/-- The same octets stand in front of the owner and of the target of the DNAME record. -/
def SpelledBy (packet : Bytes) (cname dname : ResourceRecord) : Prop :=
  ∃ front source target, front ≠ [] ∧ Targets packet dname source ∧ Targets packet cname target ∧
    cname.name.canonicalWire = front ++ dname.name.canonicalWire ∧
    target.canonicalWire = front ++ source.canonicalWire

/-- **A DNAME record of the records spells the CNAME record**, octet by octet. -/
structure Spells (packet : Bytes) (records : List ResourceRecord) (cname dname : ResourceRecord) :
    Prop where
  mem : dname ∈ records
  isDname : dname.rrType = typeDname
  sameClass : dname.rrClass = cname.rrClass
  spelled : SpelledBy packet cname dname

theorem length_canonicalWire_le (h : target.WellFormed) : target.canonicalWire.length ≤ 255 := by
  rw [canonicalWire_eq h, length_wireName]
  exact (isPath_namePath h).valid.fits

theorem anySynthesizes_eq_ok (htarget : Targets packet cname target) {dnames : List ResourceRecord}
    (hends : ∀ dname ∈ dnames, ∃ front, front ≠ [] ∧
      cname.name.canonicalWire = front ++ dname.name.canonicalWire)
    (h : anySynthesizes packet cname target dnames = .ok b) :
    (b = true ↔ ∃ dname ∈ dnames, SpelledBy packet cname dname) := by
  induction dnames with
  | nil =>
    cases h
    simp
  | cons dname rest ih =>
    obtain ⟨front, hfront, howner⟩ := hends dname (by simp)
    have hfrontOctets : cname.name.canonicalWire.take
        (cname.name.canonicalWire.length - dname.name.canonicalWire.length) = front := by
      rw [howner, length_append, Nat.add_sub_cancel, take_left]
    obtain ⟨⟨source, stop⟩, hread, h⟩ := of_bind h
    rw [liftWire_eq_ok] at hread
    simp only [hfrontOctets] at h
    split_ifs at h with hstop hmade
    all_goals rw [not_not] at hstop; subst hstop
    all_goals simp only [mem_cons, exists_eq_or_imp]
    · cases h
      exact iff_of_true rfl
        (.inl ⟨front, source, target, hfront, hread, htarget, howner, hmade.2.symm⟩)
    · rw [ih (fun d hd => hends d (mem_cons_of_mem _ hd)) h,
        or_iff_right]
      rintro ⟨front', source', target', -, hread', htarget', howner', hspelled⟩
      obtain rfl := append_cancel_right (howner.symm.trans howner')
      cases hread.symm.trans hread'
      cases htarget.symm.trans htarget'
      exact hmade ⟨hspelled ▸ length_canonicalWire_le (readName_wellFormed htarget), hspelled.symm⟩

theorem cnameIsSynthesizedFromDname_eq_ok
    (h : cnameIsSynthesizedFromDname packet cname records = .ok b) :
    b = true ↔ ∃ dname, Spells packet records cname dname := by
  obtain ⟨⟨target, stop⟩, hread, h⟩ := of_bind h
  rw [liftWire_eq_ok] at hread
  dsimp only at h
  split_ifs at h with hstop
  rw [not_not] at hstop
  subst hstop
  rw [anySynthesizes_eq_ok hread ?_ h]
  all_goals simp only [mem_insertionSort, mem_filter, Bool.and_eq_true, beq_iff_eq,
    bne_iff_ne, isSuffixOf_iff_suffix]
  · constructor
    · rintro ⟨dname, ⟨hmem, ⟨⟨htype, hclass⟩, -⟩, -⟩, hspelled⟩
      exact ⟨dname, hmem, htype, hclass, hspelled⟩
    · rintro ⟨dname, hmem, htype, hclass, hspelled⟩
      refine ⟨dname, ⟨hmem, ⟨⟨htype, hclass⟩, ?_⟩, ?_⟩, hspelled⟩
      all_goals obtain ⟨front, -, -, hfront, -, -, howner, -⟩ := hspelled
      · rw [howner]
        exact fun hsame => hfront (self_eq_append_left.mp hsame)
      · exact ⟨front, howner.symm⟩
  · rintro dname ⟨-, ⟨-, hother⟩, front, howner⟩
    refine ⟨front, ?_, howner.symm⟩
    rintro rfl
    exact hother howner

/-! ### The sets that are left out -/

/-- The types that need a signature. -/
def Substantive (record : ResourceRecord) : Prop :=
  record.rrType ≠ typeRrsig ∧ record.rrType ≠ typeOpt ∧ record.rrType ≠ typeTsig

def rrsetKey (record : ResourceRecord) : RrsetKey :=
  ⟨record.name.canonicalWire, record.rrType, record.rrClass⟩

/-- The record is a CNAME record that a DNAME record spells. -/
def Spelled (packet : Bytes) (records : List ResourceRecord) (record : ResourceRecord) : Prop :=
  record.rrType = typeCname ∧ ∃ dname, Spells packet records record dname

theorem mem_extended {output : List RrsetKey} {new : RrsetKey} (synthesized : Bool) :
    key ∈ (if synthesized || output.contains new then output else output ++ [new]) ↔
      key ∈ output ∨ ¬ synthesized = true ∧ new = key := by
  cases synthesized with
  | true => simp
  | false =>
    by_cases hnew : new ∈ output
    · simp only [Bool.false_or, contains_iff_mem, hnew, if_true]
      simpa using fun heq => heq ▸ hnew
    · simp [hnew, eq_comm]

theorem mem_substantiveRrsetsLoop {rest : List ResourceRecord} {output : List RrsetKey}
    (h : substantiveRrsetsLoop packet records rest output = .ok rrsets) :
    (key ∈ rrsets ↔ key ∈ output ∨ ∃ record ∈ rest, Substantive record ∧
        ¬ Spelled packet records record ∧ rrsetKey record = key) := by
  induction rest generalizing output with
  | nil =>
    cases h
    simp
  | cons record rest ih =>
    unfold substantiveRrsetsLoop at h
    simp only [List.mem_cons, exists_eq_or_imp]
    split_ifs at h with hskip hcname
    · have hnot : ¬ Substantive record := by
        rintro ⟨h₁, h₂, h₃⟩
        exact hskip.elim h₁ (·.elim h₂ h₃)
      rw [ih h]
      simp [hnot]
    all_goals
      have hsubstantive : Substantive record := by
        simpa only [Substantive, ne_eq, not_or] using hskip
      obtain ⟨synthesized, hmade, h⟩ := of_bind h
      rw [ih h, mem_extended, or_assoc]
    · simp [hsubstantive, Spelled, hcname, cnameIsSynthesizedFromDname_eq_ok hmade, rrsetKey]
    · cases hmade
      simp [hsubstantive, Spelled, hcname, rrsetKey]

theorem mem_substantiveRrsets (h : substantiveRrsets packet records = .ok rrsets) :
    key ∈ rrsets ↔ ∃ record ∈ records, Substantive record ∧
      ¬ Spelled packet records record ∧ rrsetKey record = key := by
  rw [mem_substantiveRrsetsLoop h]
  simp

/-! ### Whole labels -/

/-- **A DNAME record made the CNAME record**: labels stand in front of its owner, and the same
labels in front of its target. -/
def Synthesized (packet : Bytes) (records : List ResourceRecord) (cname : ResourceRecord) : Prop :=
  cname.rrType = typeCname ∧ ∃ dname ∈ records, dname.rrType = typeDname ∧
    dname.rrClass = cname.rrClass ∧ ∃ source target front, Targets packet dname source ∧
      Targets packet cname target ∧ front ≠ [] ∧
      namePath cname.name = namePath dname.name ++ front ∧
      namePath target = namePath source ++ front

theorem canonicalWire_of_namePath {name above : DnsName} {front : Path} (hname : name.WellFormed)
    (habove : above.WellFormed) (h : namePath name = namePath above ++ front) :
    name.canonicalWire = wireFront front.reverse ++ above.canonicalWire := by
  rw [canonicalWire_eq hname, canonicalWire_eq habove, h, reverse_append, wireName_append]

theorem Spells.synthesized (hnames : ∀ record ∈ records, record.name.WellFormed)
    (hmem : cname ∈ records) (htype : cname.rrType = typeCname)
    (h : Spells packet records cname dname) (habove : namePath dname.name <+: namePath cname.name) :
    Synthesized packet records cname := by
  obtain ⟨hdname, hisDname, hclass, octets, source, target, hoctets, hsource, htarget, howner,
    hspelled⟩ := h
  obtain ⟨front, hfront⟩ := habove
  have hcname := hnames cname hmem
  obtain rfl := append_cancel_right
    (howner.symm.trans (canonicalWire_of_namePath hcname (hnames dname hdname) hfront.symm))
  have hwell := readName_wellFormed hsource
  have hlength := length_canonicalWire_le (readName_wellFormed htarget)
  rw [canonicalWire_eq hwell, ← wireName_append] at hspelled
  have hfrontValid : ValidLabels front.reverse := by
    refine (isPath_namePath hcname).valid.of_infix (List.reverse_infix.mpr ?_)
    rw [← hfront]
    exact (suffix_append _ _).isInfix
  have hvalid : ValidLabels (front.reverse ++ (namePath source).reverse) := by
    refine hfrontValid.append (isPath_namePath hwell).valid ?_
    rw [← length_wireName, ← hspelled]
    exact hlength
  refine ⟨htype, dname, hdname, hisDname, hclass, source, target, front, hsource, htarget, ?_,
    hfront.symm, ?_⟩
  · rintro rfl
    exact hoctets rfl
  · rw [namePath, hspelled, dnsWireLabels_wireName hvalid]
    simp

theorem Synthesized.spells (hnames : ∀ record ∈ records, record.name.WellFormed)
    (hmem : cname ∈ records) (h : Synthesized packet records cname) :
    ∃ dname, Spells packet records cname dname ∧ namePath dname.name <+: namePath cname.name := by
  obtain ⟨-, dname, hdname, hisDname, hclass, source, target, front, hsource, htarget, hfront,
    howner, hpath⟩ := h
  refine ⟨dname, ⟨hdname, hisDname, hclass, wireFront front.reverse, source, target, ?_, hsource,
    htarget, canonicalWire_of_namePath (hnames cname hmem) (hnames dname hdname) howner,
    canonicalWire_of_namePath (readName_wellFormed htarget) (readName_wellFormed hsource) hpath⟩,
    ⟨front, howner.symm⟩⟩
  intro hnil
  obtain ⟨label, hlabel⟩ := exists_mem_of_ne_nil _ hfront
  exact absurd (flatMap_eq_nil_iff.mp hnil label (mem_reverse.mpr hlabel)) (by simp)

/-- **What is left out was made by DNAME records.** -/
def LeftOutSynthesized (packet : Bytes) (records : List ResourceRecord) (rrsets : List RrsetKey) :
    Prop :=
  ∀ record ∈ records, Substantive record → rrsetKey record ∉ rrsets →
    Synthesized packet records record

/-- **What is left out was made by DNAME records just when their owners stand above.** For every set
of CNAME records that DNAME records spell, one of them has its owner above that of the CNAME
record. -/
theorem leftOut_synthesized_iff (hnames : ∀ record ∈ records, record.name.WellFormed)
    (h : substantiveRrsets packet records = .ok rrsets) :
    LeftOutSynthesized packet records rrsets ↔ ∀ cname ∈ records, cname.rrType = typeCname →
      (∀ other ∈ records, rrsetKey other = rrsetKey cname →
        ∃ dname, Spells packet records other dname) →
      ∃ dname, Spells packet records cname dname ∧
        namePath dname.name <+: namePath cname.name := by
  constructor
  · intro hmade cname hcname htype hspelled
    have hout : rrsetKey cname ∉ rrsets := by
      rw [mem_substantiveRrsets h]
      rintro ⟨other, hother, -, hnot, hkey⟩
      have hsame : other.rrType = typeCname := (congrArg RrsetKey.rrType hkey).trans htype
      exact hnot ⟨hsame, hspelled other hother hkey⟩
    have hsubstantive : Substantive cname := by
      rw [Substantive, htype]
      decide
    exact (hmade cname hcname hsubstantive hout).spells hnames hcname
  · intro habove record hrecord hsubstantive hout
    have hall : ∀ other ∈ records, rrsetKey other = rrsetKey record →
        Spelled packet records other := by
      intro other hother hkey
      by_contra hnot
      have hsame : other.rrType = record.rrType := congrArg RrsetKey.rrType hkey
      refine hout ((mem_substantiveRrsets h).mpr ⟨other, hother, ?_, hnot, hkey⟩)
      rwa [Substantive, hsame]
    have htype := (hall record hrecord rfl).1
    obtain ⟨dname, hspells, habove⟩ := habove record hrecord htype
      fun other hother hkey => (hall other hother hkey).2
    exact hspells.synthesized hnames hrecord htype habove

/-! ### An owner inside a label -/

/-- An answer with a DNAME record from `a` to `b` and a CNAME record between names that end like
them, behind the octet and an `x`. -/
def dnameAnswer (first : UInt8) : Bytes :=
  [0, 0, 0x84, 0, 0, 0, 0, 2, 0, 0, 0, 0] ++
    [1, 97, 0, 0, 39, 0, 1, 0, 0, 0, 0, 0, 3, 1, 98, 0] ++
    [first, 120, 1, 97, 0, 0, 5, 0, 1, 0, 0, 0, 0, 0, 5, first, 120, 1, 98, 0]

def answerRecords (first : UInt8) : List ResourceRecord :=
  match parseSections (dnameAnswer first) with
  | .ok sections => sections.records
  | .error _ => []

theorem answerRecords_wellFormed {first : UInt8} :
    ∀ record ∈ answerRecords first, record.name.WellFormed := by
  unfold answerRecords
  split
  next hsections =>
    exact fun record hrecord => (parseSections_wellFormed hsections record hrecord).name
  · simp

/-- `x.a` with the target `x.b` was made by the DNAME record. -/
theorem leftOut_whole_labels :
    substantiveRrsets (dnameAnswer 1) (answerRecords 1) = .ok [⟨[1, 97, 0], typeDname, classIn⟩] ∧
      LeftOutSynthesized (dnameAnswer 1) (answerRecords 1) [⟨[1, 97, 0], typeDname, classIn⟩] := by
  have hrrsets : substantiveRrsets (dnameAnswer 1) (answerRecords 1) =
      .ok [⟨[1, 97, 0], typeDname, classIn⟩] := by decide
  have hmade : ∀ cname ∈ answerRecords 1, cname.rrType = typeCname →
      cnameIsSynthesizedFromDname (dnameAnswer 1) cname (answerRecords 1) = .ok true := by
    decide
  have habove : ∀ dname ∈ answerRecords 1, dname.rrType = typeDname → ∀ cname ∈ answerRecords 1,
      cname.rrType = typeCname → namePath dname.name <+: namePath cname.name := by decide
  refine ⟨hrrsets, (leftOut_synthesized_iff answerRecords_wellFormed hrrsets).mpr ?_⟩
  intro cname hcname htype _
  obtain ⟨dname, hspells⟩ :=
    (cnameIsSynthesizedFromDname_eq_ok (hmade cname hcname htype)).mp rfl
  exact ⟨dname, hspells, habove dname hspells.mem hspells.isDname cname hcname htype⟩

/-- **A CNAME record of the name `x\001a`, which is one label, goes without a signature**, beside a
DNAME record of `a`. -/
theorem leftOut_inside_label :
    substantiveRrsets (dnameAnswer 3) (answerRecords 3) = .ok [⟨[1, 97, 0], typeDname, classIn⟩] ∧
      ¬ LeftOutSynthesized (dnameAnswer 3) (answerRecords 3)
        [⟨[1, 97, 0], typeDname, classIn⟩] := by
  have hcname : ∃ cname ∈ answerRecords 3, Substantive cname ∧
      rrsetKey cname ∉ [⟨[1, 97, 0], typeDname, classIn⟩] ∧ ∀ dname ∈ answerRecords 3,
        dname.rrType = typeDname → ¬ namePath dname.name <+: namePath cname.name := by
    unfold Substantive
    decide
  refine ⟨by decide, fun hall => ?_⟩
  obtain ⟨cname, hmem, hsubstantive, hout, hbeside⟩ := hcname
  obtain ⟨-, dname, hdname, htype, -, -, -, front, -, -, -, howner, -⟩ :=
    hall cname hmem hsubstantive hout
  exact hbeside dname hdname htype ⟨front, howner.symm⟩

end RustdResolved.Dnssec.Synthesis
