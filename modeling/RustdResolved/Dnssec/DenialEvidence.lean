import RustdResolved.Dnssec.Nsec3Denial
import RustdResolved.Dnssec.NsecPaths

/-! # What a denial rests on

A negative judgement of `nsecDenialResult` about a name without a deciding record of its own has its
evidence in records that cover the name and the wildcard, or show the name to be an empty
non-terminal. The judgement rests on some of these records when it is the same with them as the only
evidence (`nsecDenialFrom`).

A record of an ancestor of the name may not deny it if it is the parent's side of a zone cut, or
redirects what lies below it. `nsec_evidence_below_cuts_iff` says, by the owners, the next names and
the types of the NSEC records of a response, when the judgement rests on other records. -/

namespace RustdResolved.Dnssec.DenialEvidence

open List Lib.Result Lib.PrefixOrder Lib.Chain Wire Octets Name Presentation PacketHeader Record
open DnssecRecords Resolver.Error NameText NamePath NsecDenial NsecPaths Nsec3Denial

variable {c n : Path} {evidence records : List ResourceRecord} {may : ResourceRecord → Bool}
  {name : Text} {packet : Bytes} {r : ResourceRecord} {rrType : Nat}

/-! ### Judgements from some of the evidence -/

section
variable (packet : Bytes) (records evidence : List ResourceRecord) (name : Text) (rrType : Nat)

/-- The judgement of `nsecDenialResult` when the given records alone may cover the name and the
wildcard or show the name to be an empty non-terminal. -/
def nsecDenialFrom : Except ResolveError DnssecDenialResult :=
  let nsecRecords := nsecRecordsOf records
  if nsecRecords.isEmpty then .ok .missing
  else do
    match ← nsecExact packet name rrType nsecRecords with
    | some result => .ok result
    | none =>
      if (firstEmptyNonterminal packet evidence name).isSome then .ok .noData
      else
        match firstCovering packet evidence name with
        | none => .ok .missing
        | some covering =>
          let wildcard := nsecWildcard packet records name covering
          match firstNamed nsecRecords wildcard with
          | some record => do
            let nsec ← liftWire (parseNsec packet record)
            .ok (bitmapResult nsec.types rrType)
          | none =>
            if (firstCovering packet evidence wildcard).isSome then .ok .nxDomain
            else .ok .missing

theorem nsecDenialFrom_all :
    nsecDenialFrom packet records (nsecRecordsOf records) name rrType =
      nsecDenialResult packet records name rrType := rfl

end

/-- No NSEC record of the name itself decides: each is from the wrong side of a cut. -/
def Undecided (packet : Bytes) (records : List ResourceRecord) (name : Text) (rrType : Nat) :
    Prop :=
  ∀ r ∈ records, dnsNamesEqual r.name.text name = true →
    ∃ nsec, parseNsec packet r = .ok nsec ∧ wrongSideOfCut nsec.types rrType = true

theorem nsecExact_none_iff : ∀ list : List ResourceRecord,
    nsecExact packet name rrType list = .ok none ↔ Undecided packet list name rrType
  | [] => by simp [nsecExact, Undecided]
  | r :: list => by
    have ih := nsecExact_none_iff list
    unfold nsecExact
    unfold Undecided at ih ⊢
    rw [forall_mem_cons]
    by_cases hname : dnsNamesEqual r.name.text name = true
    · rw [if_neg (by simp [hname])]
      cases hnsec : parseNsec packet r with
      | error e => simp [hname, liftWire]
      | ok nsec =>
        rw [liftWire_ok, ok_bind]
        by_cases hside : wrongSideOfCut nsec.types rrType = true
        · rw [if_pos hside, ih]
          simp [hside]
        · rw [if_neg hside]
          simp [hname, hside]
    · rw [if_pos (by simpa using hname), ih]
      simp [hname]

/-- What decides about the name itself does not depend on the evidence. -/
theorem nsecDenialFrom_of_decided
    (h : ¬ (nsecRecordsOf records ≠ [] ∧ Undecided packet (nsecRecordsOf records) name rrType)) :
    nsecDenialFrom packet records evidence name rrType =
      nsecDenialResult packet records name rrType := by
  rw [← nsecExact_none_iff, not_and] at h
  unfold nsecDenialFrom nsecDenialResult
  by_cases hempty : (nsecRecordsOf records).isEmpty = true
  · rw [if_pos hempty, if_pos hempty]
  · rw [if_neg hempty, if_neg hempty]
    cases hexact : nsecExact packet name rrType (nsecRecordsOf records) with
    | error e => rfl
    | ok exact =>
      cases exact with
      | none => exact absurd hexact (h (by simpa using hempty))
      | some result => rfl

theorem closestShown_unique {c' : Path} (h : ClosestShown records n c)
    (h' : ClosestShown records n c') : c = c' :=
  (h'.deepest c h.ancestor h.shown).eq_of_length_le (h.deepest c' h'.ancestor h'.shown).length_le

/-- With an NSEC record the response shows an ancestor of every name to exist. -/
theorem exists_closestShown (hrecords : ∀ r ∈ records, r.name.WellFormed) (hname : Denotes name n)
    (hne : nsecRecordsOf records ≠ []) :
    ∃ c, ClosestShown records n c ∧ closestExistingAncestor records name = some (pathText c) := by
  obtain ⟨r, hr⟩ := exists_mem_of_ne_nil _ hne
  obtain ⟨hmem, htype⟩ := mem_filter.mp hr
  refine closestExistingAncestor_eq hrecords hname ⟨r, hmem, ?_⟩
  rw [showsExistence, beq_iff_eq.mp htype]
  rfl

theorem nsecWildcard_eq (hrecords : ∀ r ∈ records, r.name.WellFormed) (hname : Denotes name n)
    (hne : nsecRecordsOf records ≠ []) (hclosest : ClosestShown records n c)
    (covering : ResourceRecord) :
    nsecWildcard packet records name covering = wildcardOf (pathText c) := by
  obtain ⟨c', hc', heq⟩ := exists_closestShown hrecords hname hne
  rw [nsecWildcard, heq, closestShown_unique hclosest hc']
  rfl

/-- **The judgement on an undecided name** is that of the first kind of evidence there is. -/
theorem nsecDenialFrom_eq (hrecords : ∀ r ∈ records, r.name.WellFormed) (hname : Denotes name n)
    (hne : nsecRecordsOf records ≠ [])
    (hundecided : Undecided packet (nsecRecordsOf records) name rrType)
    (hclosest : ClosestShown records n c) (evidence : List ResourceRecord) :
    nsecDenialFrom packet records evidence name rrType =
      if evidence.any fun r => isOkTrue (nsecProvesEmptyNonterminal packet r name) then .ok .noData
      else if evidence.any fun r => isOkTrue (nsecCoversName packet r name) then
        match firstNamed (nsecRecordsOf records) (wildcardOf (pathText c)) with
        | some w => do
          let nsec ← liftWire (parseNsec packet w)
          .ok (bitmapResult nsec.types rrType)
        | none =>
          if evidence.any fun r => isOkTrue (nsecCoversName packet r (wildcardOf (pathText c))) then
            .ok .nxDomain
          else .ok .missing
      else .ok .missing := by
  unfold nsecDenialFrom
  rw [if_neg (by simpa using hne), (nsecExact_none_iff _).mpr hundecided, ok_bind]
  simp only [firstEmptyNonterminal, firstCovering, isSome_find?,
    nsecWildcard_eq hrecords hname hne hclosest]
  rw [← isSome_find? (f := fun r => isOkTrue (nsecCoversName packet r name))]
  cases evidence.find? fun r => isOkTrue (nsecCoversName packet r name) with
  | none => simp
  | some covering => simp

/-! ### Judgements that rest on some of the records -/

/-- The judgement, if it is the given one, is the same with some of the NSEC records as its only
evidence. -/
def RestsOn (packet : Bytes) (records : List ResourceRecord) (name : Text) (rrType : Nat)
    (may : ResourceRecord → Bool) (result : DnssecDenialResult) : Prop :=
  nsecDenialResult packet records name rrType = .ok result →
    nsecDenialFrom packet records ((nsecRecordsOf records).filter may) name rrType = .ok result

/-- The record shows the path to be an empty non-terminal: its next name lies below the path, and
the common part of its two names does not. -/
def ShowsEmpty (packet : Bytes) (n : Path) (r : ResourceRecord) : Prop :=
  ∃ nsec, parseNsec packet r = .ok nsec ∧
    (n <+: namePath nsec.nextDomain ∧ n ≠ namePath nsec.nextDomain) ∧
    lcp (namePath r.name) (namePath nsec.nextDomain) <+: n

/-- The link of the record covers the path, which can be put on the wire. -/
def CoversPath (packet : Bytes) (n : Path) (r : ResourceRecord) : Prop :=
  IsPath n ∧ ∃ nsec, parseNsec packet r = .ok nsec ∧
    Covers (namePath r.name) (namePath nsec.nextDomain) n

section
variable (packet : Bytes) (records : List ResourceRecord) (rrType : Nat) (c : Path)

/-- The record of the wildcard below a path has neither the type nor a CNAME. -/
def WildcardLacks : Prop :=
  ∃ w nsec, firstNamed (nsecRecordsOf records) (wildcardOf (pathText c)) = some w ∧
    parseNsec packet w = .ok nsec ∧ rrType ∉ nsec.types ∧ typeCname ∉ nsec.types

/-- There is no NSEC record of the wildcard below a path. -/
def NoWildcard : Prop := ∀ r ∈ nsecRecordsOf records, namePath r.name ≠ c ++ [star]

end

section
variable (hevidence : ∀ r ∈ evidence, r.name.WellFormed)
include hevidence

theorem any_showsEmpty (hname : Denotes name n) :
    (evidence.any fun r => isOkTrue (nsecProvesEmptyNonterminal packet r name)) = true ↔
      ∃ r ∈ evidence, ShowsEmpty packet n r := by
  rw [any_eq_true]
  refine exists_congr fun r => and_congr_right fun hr => ?_
  exact nsecProvesEmptyNonterminal_iff (hevidence r hr) hname

theorem any_covers (hname : Denotes name n) :
    (evidence.any fun r => isOkTrue (nsecCoversName packet r name)) = true ↔
      ∃ r ∈ evidence, CoversPath packet n r := by
  rw [any_eq_true]
  refine exists_congr fun r => and_congr_right fun hr => ?_
  rw [nsecCoversName_iff (hevidence r hr) hname]
  exact (and_iff_right hname.isPath).symm

theorem any_coversWildcard (hc : IsPath c) :
    (evidence.any fun r => isOkTrue (nsecCoversName packet r (wildcardOf (pathText c)))) = true ↔
      ∃ r ∈ evidence, CoversPath packet (c ++ [star]) r := by
  rw [any_eq_true]
  refine exists_congr fun r => and_congr_right fun hr => ?_
  exact nsecCoversName_wildcardOf (hevidence r hr) hc

theorem firstNamed_eq_none (hc : IsPath c) :
    firstNamed evidence (wildcardOf (pathText c)) = none ↔
      ∀ r ∈ evidence, namePath r.name ≠ c ++ [star] := by
  unfold firstNamed
  rw [find?_eq_none]
  refine forall_congr' fun r => forall_congr' fun hr => ?_
  rw [dnsRecordNameEqual_wildcardOf (hevidence r hr) hc]

end

section
variable (hrecords : ∀ r ∈ records, r.name.WellFormed) (hname : Denotes name n)
  (hne : nsecRecordsOf records ≠ [])
  (hundecided : Undecided packet (nsecRecordsOf records) name rrType)
  (hclosest : ClosestShown records n c)
include hrecords hname hne hundecided hclosest

/-- **The judgement on an undecided name by the paths of the evidence.** -/
theorem nsecDenialFrom_cases (hevidence : evidence ⊆ nsecRecordsOf records) :
    (nsecDenialFrom packet records evidence name rrType = .ok .nxDomain ↔
      (∀ r ∈ evidence, ¬ ShowsEmpty packet n r) ∧ (∃ r ∈ evidence, CoversPath packet n r) ∧
        NoWildcard records c ∧ ∃ r ∈ evidence, CoversPath packet (c ++ [star]) r) ∧
    (nsecDenialFrom packet records evidence name rrType = .ok .noData ↔
      (∃ r ∈ evidence, ShowsEmpty packet n r) ∨
        (∃ r ∈ evidence, CoversPath packet n r) ∧ WildcardLacks packet records rrType c) := by
  have hnsec : ∀ r ∈ nsecRecordsOf records, r.name.WellFormed := fun r hr =>
    hrecords r (mem_filter.mp hr).1
  have hwell : ∀ r ∈ evidence, r.name.WellFormed := fun r hr => hnsec r (hevidence hr)
  have hc := hname.isPath.of_isPrefix hclosest.ancestor
  rw [nsecDenialFrom_eq hrecords hname hne hundecided hclosest, NoWildcard,
    ← firstNamed_eq_none hnsec hc, ← any_coversWildcard hwell hc, ← any_covers hwell hname,
    ← any_showsEmpty hwell hname, WildcardLacks]
  have hempty : (∀ r ∈ evidence, ¬ ShowsEmpty packet n r) ↔
      (evidence.any fun r => isOkTrue (nsecProvesEmptyNonterminal packet r name)) = false := by
    rw [← Bool.not_eq_true, any_showsEmpty hwell hname]
    simp
  rw [hempty]
  by_cases hent : (evidence.any fun r =>
      isOkTrue (nsecProvesEmptyNonterminal packet r name)) = true
  · simp only [hent, if_true]
    simp
  rw [if_neg hent]
  by_cases hcov : (evidence.any fun r => isOkTrue (nsecCoversName packet r name)) = true
  · rw [if_pos hcov]
    cases hnamed : firstNamed (nsecRecordsOf records) (wildcardOf (pathText c)) with
    | none =>
      dsimp only
      split_ifs with hwild
      · simp_all
      · simp_all
    | some w =>
      cases hparse : parseNsec packet w with
      | error e => simp_all [liftWire]
      | ok nsec => simp_all [bitmapResult_ne_nxDomain, bitmapResult_eq_noData]
  · rw [if_neg hcov]
    simp only [hent, hcov]
    simp

end

section
variable (bad : ResourceRecord → Path → Prop) (records : List ResourceRecord)

/-- What some record does, a good one does or a bad one. -/
theorem exists_iff_good (p : ResourceRecord → Prop) :
    (∃ r ∈ records, p r) ↔
      (∃ r ∈ records, (∀ x, ¬ bad r x) ∧ p r) ∨ ∃ r ∈ records, ∃ x, bad r x ∧ p r := by
  constructor
  · rintro ⟨r, hr, hp⟩
    by_cases hgood : ∀ x, ¬ bad r x
    · exact .inl ⟨r, hr, hgood, hp⟩
    · obtain ⟨x, hbad⟩ := not_forall_not.mp hgood
      exact .inr ⟨r, hr, x, hbad, hp⟩
  · rintro (⟨r, hr, -, hp⟩ | ⟨r, hr, x, -, hp⟩)
    · exact ⟨r, hr, hp⟩
    · exact ⟨r, hr, hp⟩

/-- The cover of a path, where it is known what a bad record covers. -/
theorem exists_covers_iff (m : Path) {q : ResourceRecord → Path → Prop}
    (h : ∀ r ∈ records, ∀ x, bad r x → (CoversPath packet m r ↔ IsPath m ∧ q r x)) :
    (∃ r ∈ records, CoversPath packet m r) ↔
      (∃ r ∈ records, (∀ x, ¬ bad r x) ∧ CoversPath packet m r) ∨
        IsPath m ∧ ∃ r ∈ records, ∃ x, bad r x ∧ q r x := by
  rw [exists_iff_good bad records]
  refine or_congr_right ⟨?_, ?_⟩
  · rintro ⟨r, hr, x, hbad, hcovers⟩
    obtain ⟨hpath, hq⟩ := (h r hr x hbad).mp hcovers
    exact ⟨hpath, r, hr, x, hbad, hq⟩
  · rintro ⟨hpath, r, hr, x, hbad, hq⟩
    exact ⟨r, hr, x, hbad, (h r hr x hbad).mpr ⟨hpath, hq⟩⟩

theorem exists_mem_filter_iff {isBad : ResourceRecord → Bool}
    (h : ∀ r ∈ records, isBad r = true ↔ ∃ x, bad r x) (p : ResourceRecord → Prop) :
    (∃ r ∈ records.filter (!isBad ·), p r) ↔ ∃ r ∈ records, (∀ x, ¬ bad r x) ∧ p r := by
  refine exists_congr fun r => ?_
  rw [mem_filter, and_assoc]
  refine and_congr_right fun hr => and_congr_left' ?_
  rw [Bool.not_eq_true', ← Bool.not_eq_true, h r hr, not_exists]

end

theorem forall_not_iff {p : ResourceRecord → Prop} :
    (∀ r ∈ records, ¬ p r) ↔ ¬ ∃ r ∈ records, p r := by
  simp

/-! ### Zone cuts and redirections -/

/-- The record belongs to a proper ancestor of the name, and denies nothing below it: it is the
parent's side of a zone cut, or redirects all that lies below. -/
def isParentSide (packet : Bytes) (name : Text) (r : ResourceRecord) : Bool :=
  dnsNameIsAtOrBelow name r.name.text && !dnsNamesEqual name r.name.text &&
    match parseNsec packet r with
    | .ok nsec => cutsBelow nsec.types
    | .error _ => false

/-- **A negative judgement needs no record of the parent's side of a cut above the name.** -/
def RestsBelowCuts (packet : Bytes) (records : List ResourceRecord) (name : Text) (rrType : Nat) :
    Prop :=
  ∀ result, result = .nxDomain ∨ result = .noData →
    RestsOn packet records name rrType (fun r => !isParentSide packet name r) result

/-- The record of a cut at a proper ancestor of the path, with its next name. -/
structure IsCut (packet : Bytes) (n : Path) (r : ResourceRecord) (x : Path) : Prop where
  above : namePath r.name <+: n
  proper : namePath r.name ≠ n
  next : ∃ nsec, parseNsec packet r = .ok nsec ∧ namePath nsec.nextDomain = x ∧
    cutsBelow nsec.types = true

def IsBelowCuts (packet : Bytes) (n : Path) (r : ResourceRecord) : Prop := ∀ x, ¬ IsCut packet n r x

theorem isParentSide_iff (hrecord : r.name.WellFormed) (hname : Denotes name n) :
    isParentSide packet name r = true ↔ ∃ x, IsCut packet n r x := by
  have hdenotes := denotes_namePath hrecord
  unfold isParentSide
  rw [Bool.and_eq_true, Bool.and_eq_true, Bool.not_eq_true', ← Bool.not_eq_true,
    dnsNameIsAtOrBelow_iff hname hdenotes, dnsNamesEqual_iff hname hdenotes]
  constructor
  · rintro ⟨⟨habove, hproper⟩, hcut⟩
    cases hnsec : parseNsec packet r with
    | error e => simp [hnsec] at hcut
    | ok nsec =>
      rw [hnsec] at hcut
      exact ⟨_, habove, Ne.symm hproper, nsec, hnsec, rfl, hcut⟩
  · rintro ⟨x, habove, hproper, nsec, hnsec, -, hcut⟩
    rw [hnsec]
    exact ⟨⟨habove, Ne.symm hproper⟩, hcut⟩

section
variable {m x : Path} (h : IsCut packet n r x)
include h

/-- The record of a cut shows an empty non-terminal when its next name lies below the name. -/
theorem IsCut.showsEmpty_iff : ShowsEmpty packet n r ↔ n <+: x ∧ n ≠ x := by
  obtain ⟨nsec, hnsec, rfl, -⟩ := h.next
  constructor
  · rintro ⟨nsec', hnsec', hbelow, -⟩
    cases hnsec.symm.trans hnsec'
    exact hbelow
  · intro hbelow
    exact ⟨nsec, hnsec, hbelow, (lcp_prefix_left _ _).trans h.above⟩

/-- The record of a cut covers what lies below it, unless its next name comes before. -/
theorem IsCut.coversPath_iff (hm : namePath r.name < m) :
    CoversPath packet m r ↔ IsPath m ∧ ¬ (namePath r.name < x ∧ x ≤ m) := by
  obtain ⟨nsec, hnsec, rfl, -⟩ := h.next
  refine and_congr_right fun _ => ?_
  constructor
  · rintro ⟨nsec', hnsec', hcovers⟩
    cases hnsec.symm.trans hnsec'
    rintro ⟨hlt, hle⟩
    rcases hcovers with ⟨-, -, hbefore⟩ | ⟨hgt, -⟩ | ⟨heq, -⟩
    · exact absurd hbefore (not_lt.mpr hle)
    · exact absurd hgt hlt.not_gt
    · exact absurd heq hlt.ne
  · intro hnot
    refine ⟨nsec, hnsec, ?_⟩
    rcases lt_trichotomy (namePath r.name) (namePath nsec.nextDomain) with hlt | heq | hgt
    · exact .inl ⟨hlt, hm, not_le.mp fun hle => hnot ⟨hlt, hle⟩⟩
    · exact .inr (.inr ⟨heq, hm.ne'⟩)
    · exact .inr (.inl ⟨hgt, .inl hm⟩)

end

/-- **Records below the cuts back the record of a cut** wherever it would count: when its next name
lies below the name, so that it shows an empty non-terminal; and when its next name does not stand
between its owner and the name, or the wildcard, so that it covers that. -/
structure BackedBelowCuts (packet : Bytes) (records : List ResourceRecord) (rrType : Nat)
    (n c : Path) : Prop where
  emptyNonterminal :
    (∃ r ∈ nsecRecordsOf records, ∃ x, IsCut packet n r x ∧ n <+: x ∧ n ≠ x) →
    (∃ r ∈ nsecRecordsOf records, IsBelowCuts packet n r ∧ ShowsEmpty packet n r) ∨
      (∃ r ∈ nsecRecordsOf records, IsBelowCuts packet n r ∧ CoversPath packet n r) ∧
        WildcardLacks packet records rrType c
  name : (∀ r ∈ nsecRecordsOf records, ¬ ShowsEmpty packet n r) →
    WildcardLacks packet records rrType c ∨ NoWildcard records c ∧
      (∃ r ∈ nsecRecordsOf records, CoversPath packet (c ++ [star]) r) →
    (∃ r ∈ nsecRecordsOf records, ∃ x, IsCut packet n r x ∧ ¬ (namePath r.name < x ∧ x ≤ n)) →
    ∃ r ∈ nsecRecordsOf records, IsBelowCuts packet n r ∧ CoversPath packet n r
  wildcard : (∀ r ∈ nsecRecordsOf records, ¬ ShowsEmpty packet n r) → NoWildcard records c →
    (∃ r ∈ nsecRecordsOf records, CoversPath packet n r) → IsPath (c ++ [star]) →
    (∃ r ∈ nsecRecordsOf records, ∃ x,
      IsCut packet n r x ∧ ¬ (namePath r.name < x ∧ x ≤ c ++ [star])) →
    ∃ r ∈ nsecRecordsOf records, IsBelowCuts packet n r ∧ CoversPath packet (c ++ [star]) r

/-- The record of a cut shows its owner to exist, so the closest name shown is not above it. -/
theorem IsCut.lt_wildcard {x : Path} (h : IsCut packet n r x) (hr : r ∈ nsecRecordsOf records)
    (hclosest : ClosestShown records n c) : namePath r.name < c ++ [star] := by
  obtain ⟨hmem, htype⟩ := mem_filter.mp hr
  have hshows : showsExistence r = true := by
    rw [showsExistence, beq_iff_eq.mp htype]
    rfl
  have habove := hclosest.deepest _ h.above ⟨r, hmem, hshows, prefix_rfl⟩
  refine lt_of_isPrefix (habove.trans (prefix_append c [star])) fun heq => ?_
  have hlength := habove.length_le
  rw [heq, length_append] at hlength
  exact Nat.not_succ_le_self _ hlength

theorem restsBelowCuts_iff (hrecords : ∀ r ∈ records, r.name.WellFormed) (hname : Denotes name n)
    (hne : nsecRecordsOf records ≠ [])
    (hundecided : Undecided packet (nsecRecordsOf records) name rrType)
    (hclosest : ClosestShown records n c) :
    RestsBelowCuts packet records name rrType ↔ BackedBelowCuts packet records rrType n c := by
  have hall := nsecDenialFrom_cases hrecords hname hne hundecided hclosest (Subset.refl _)
  have hsubset : (nsecRecordsOf records).filter (fun r => !isParentSide packet name r) ⊆
      nsecRecordsOf records := filter_subset_self _
  have hsome := nsecDenialFrom_cases hrecords hname hne hundecided hclosest hsubset
  rw [nsecDenialFrom_all] at hall
  have hbelow := exists_mem_filter_iff (IsCut packet n) (nsecRecordsOf records) fun r hr =>
    isParentSide_iff (hrecords r (mem_filter.mp hr).1) hname
  rw [forall_not_iff, hbelow, hbelow, hbelow] at hsome
  -- each kind of evidence stands in a record below the cuts or in the record of a cut
  have hempty :=
    (exists_iff_good (IsCut packet n) (nsecRecordsOf records) (ShowsEmpty packet n)).trans
    (or_congr_right (exists_congr fun _ => and_congr_right fun _ => exists_congr fun _ =>
      and_congr_right IsCut.showsEmpty_iff))
  have hcovers := exists_covers_iff (IsCut packet n) (nsecRecordsOf records) n fun r _ x hcut =>
    hcut.coversPath_iff (lt_of_isPrefix hcut.above hcut.proper)
  have hwildcard := exists_covers_iff (IsCut packet n) (nsecRecordsOf records) (c ++ [star])
    fun r hr x hcut => hcut.coversPath_iff (hcut.lt_wildcard hr hclosest)
  constructor
  · intro hrests
    have hnx := hrests .nxDomain (.inl rfl)
    have hno := hrests .noData (.inr rfl)
    rw [RestsOn, hall.1, hsome.1, forall_not_iff] at hnx
    rw [RestsOn, hall.2, hsome.2] at hno
    refine ⟨fun hcut => hno (.inl (hempty.mpr (.inr hcut))), fun hnot hlacks hcut => ?_,
      fun hnot hno' hcov hpath hcut => ?_⟩
    · have hcov := hcovers.mpr (.inr ⟨hname.isPath, hcut⟩)
      rcases hlacks with hlacks | ⟨hwild, hcovw⟩
      · rcases hno (.inr ⟨hcov, hlacks⟩) with hempty' | ⟨hcov', -⟩
        · exact absurd (hempty.mpr (.inl hempty')) (forall_not_iff.mp hnot)
        · exact hcov'
      · exact (hnx ⟨forall_not_iff.mp hnot, hcov, hwild, hcovw⟩).2.1
    · exact (hnx ⟨forall_not_iff.mp hnot, hcov, hno', hwildcard.mpr (.inr ⟨hpath, hcut⟩)⟩).2.2.2
  · rintro hbacked result (rfl | rfl)
    · rw [RestsOn, hall.1, hsome.1]
      rintro ⟨hnot, hcov, hwild, hcovw⟩
      refine ⟨fun hempty' => forall_not_iff.mp hnot (hempty.mpr (.inl hempty')), ?_, hwild, ?_⟩
      · rcases hcovers.mp hcov with hcov' | ⟨-, hcut⟩
        · exact hcov'
        · exact hbacked.name hnot (.inr ⟨hwild, hcovw⟩) hcut
      · rcases hwildcard.mp hcovw with hcovw' | ⟨hpath, hcut⟩
        · exact hcovw'
        · exact hbacked.wildcard hnot hwild hcov hpath hcut
    · rw [RestsOn, hall.2, hsome.2]
      intro hno
      by_cases hshows : ∃ r ∈ nsecRecordsOf records, ShowsEmpty packet n r
      · rcases hempty.mp hshows with hempty' | hcut
        · exact .inl hempty'
        · exact hbacked.emptyNonterminal hcut
      · obtain ⟨hcov, hlacks⟩ := hno.resolve_left hshows
        rcases hcovers.mp hcov with hcov' | ⟨-, hcut⟩
        · exact .inr ⟨hcov', hlacks⟩
        · exact .inr ⟨hbacked.name (forall_not_iff.mpr hshows) (.inl hlacks) hcut, hlacks⟩

/-- What is so of every judgement that the records decide is a matter of the closest name they show
to exist. -/
theorem iff_of_closestShown {Judged : Prop} {Backed : Path → Prop}
    (hrecords : ∀ r ∈ records, r.name.WellFormed) (hname : Denotes name n)
    (hdecided : ¬(nsecRecordsOf records ≠ [] ∧
      Undecided packet (nsecRecordsOf records) name rrType) → Judged)
    (hnone : nsecRecordsOf records = [] → ∀ c, Backed c)
    (hsome : nsecRecordsOf records ≠ [] → Undecided packet (nsecRecordsOf records) name rrType →
      ∀ c, ClosestShown records n c → (Judged ↔ Backed c)) :
    Judged ↔ (Undecided packet (nsecRecordsOf records) name rrType →
      ∀ c, ClosestShown records n c → Backed c) := by
  by_cases hset : nsecRecordsOf records ≠ [] ∧
      Undecided packet (nsecRecordsOf records) name rrType
  · obtain ⟨hne, hundecided⟩ := hset
    obtain ⟨c, hclosest, -⟩ := exists_closestShown hrecords hname hne
    rw [hsome hne hundecided c hclosest]
    constructor
    · intro h _ c' hc'
      rwa [closestShown_unique hc' hclosest]
    · intro h
      exact h hundecided c hclosest
  · refine iff_of_true (hdecided hset) fun hundecided c _ => hnone ?_ c
    by_contra hne
    exact hset ⟨hne, hundecided⟩

/-- **When a negative judgement needs no record of the parent's side of a cut**: when records below
the cuts back the records of cuts. -/
theorem nsec_evidence_below_cuts_iff (packet : Bytes) (records : List ResourceRecord) (name : Text)
    (rrType : Nat) (hrecords : ∀ r ∈ records, r.name.WellFormed) (hname : Denotes name n) :
    RestsBelowCuts packet records name rrType ↔
      (Undecided packet (nsecRecordsOf records) name rrType →
        ∀ c, ClosestShown records n c → BackedBelowCuts packet records rrType n c) := by
  refine iff_of_closestShown hrecords hname (fun hdecided result _ hresult => ?_) (fun hnil c => ?_)
    fun hne hundecided c => restsBelowCuts_iff hrecords hname hne hundecided
  · rw [nsecDenialFrom_of_decided hdecided, hresult]
  · constructor <;> simp [hnil]

/-- The parent's NSEC record of the cut at `sub.example`, with the next name `z.example`. -/
def cutRecord : ResourceRecord :=
  { name := DnsName.ofLabels [labelOf "sub", labelOf "example"]
    rrType := typeNsec
    rrClass := classIn
    ttl := 3600
    ttlOffset := 51
    rdataOffset := 57
    rdata := wireName [labelOf "z", labelOf "example"] ++ [0, 6, 0x20, 0, 0, 0, 0, 0x03]
    nextOffset := 76 }

/-- The child's NSEC record of the apex `sub.example`, with the next name `z.sub.example`. -/
def apexRecord : ResourceRecord :=
  { name := DnsName.ofLabels [labelOf "sub", labelOf "example"]
    rrType := typeNsec
    rrClass := classIn
    ttl := 3600
    ttlOffset := 93
    rdataOffset := 99
    rdata := wireName [labelOf "z", labelOf "sub", labelOf "example"] ++
      [0, 6, 0x22, 0, 0, 0, 0, 0x03]
    nextOffset := 122 }

def cutPacket (records : List ResourceRecord) : Bytes :=
  responseWire 0x8183 [labelOf "host", labelOf "sub", labelOf "example"] typeA []
    (records.map fun r => recordWire [labelOf "sub", labelOf "example"] typeNsec 3600 r.rdata)

/-- **A name below a zone cut, denied by the parent's record of the cut alone.** -/
theorem nsec_evidence_above_cut :
    (parseSections (cutPacket [cutRecord])).map Sections.records = .ok [cutRecord] ∧
      nsecDenialResult (cutPacket [cutRecord]) [cutRecord] "host.sub.example".toList typeA =
        .ok .nxDomain ∧
      isParentSide (cutPacket [cutRecord]) "host.sub.example".toList cutRecord = true ∧
      ¬ RestsBelowCuts (cutPacket [cutRecord]) [cutRecord] "host.sub.example".toList typeA := by
  have hresult : nsecDenialResult (cutPacket [cutRecord]) [cutRecord] "host.sub.example".toList
      typeA = .ok .nxDomain := by decide +kernel
  refine ⟨by decide +kernel, hresult, by decide +kernel, fun h => ?_⟩
  have hfrom := h .nxDomain (.inl rfl) hresult
  revert hfrom
  decide +kernel

/-- With the child's record of its apex beside it, the record of the cut is not needed. -/
theorem nsec_evidence_backed :
    (parseSections (cutPacket [cutRecord, apexRecord])).map Sections.records =
        .ok [cutRecord, apexRecord] ∧
      nsecDenialResult (cutPacket [cutRecord, apexRecord]) [cutRecord, apexRecord]
        "host.sub.example".toList typeA = .ok .nxDomain ∧
      ∀ c, ClosestShown [cutRecord, apexRecord]
          [labelOf "example", labelOf "sub", labelOf "host"] c →
        BackedBelowCuts (cutPacket [cutRecord, apexRecord]) [cutRecord, apexRecord] typeA
          [labelOf "example", labelOf "sub", labelOf "host"] c := by
  have hwell : (DnsName.ofLabels [labelOf "sub", labelOf "example"]).WellFormed :=
    ⟨_, ⟨by decide, by decide, by decide⟩, rfl⟩
  have hpath : IsPath [labelOf "example", labelOf "sub", labelOf "host"] :=
    ⟨⟨by decide, by decide, by decide⟩, by decide⟩
  have hrests : RestsBelowCuts (cutPacket [cutRecord, apexRecord]) [cutRecord, apexRecord]
      "host.sub.example".toList typeA := by
    rintro result (rfl | rfl)
    · intro _
      decide +kernel
    · intro h
      revert h
      decide +kernel
  refine ⟨by decide +kernel, by decide +kernel, ?_⟩
  refine (nsec_evidence_below_cuts_iff _ _ _ _ ?_ (denotes_pathText hpath)).mp hrests ?_
  · intro r hr
    rcases mem_cons.mp hr with rfl | hr
    · exact hwell
    · rw [mem_singleton.mp hr]
      exact hwell
  · exact (nsecExact_none_iff _).mp (by decide +kernel)

end RustdResolved.Dnssec.DenialEvidence
