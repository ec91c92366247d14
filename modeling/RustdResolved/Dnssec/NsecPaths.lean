import RustdResolved.Dnssec.NsecDenial

/-! # The judgement of NSEC records in terms of paths

A record with owner `o` and next name `x` covers a name when the link `(o, x)` covers its path
(`nsecCoversName_iff`), and shows it to be an empty non-terminal when `x` lies strictly below it and
the common part of `o` and `x` at or above it (`nsecProvesEmptyNonterminal_iff`). The closest
ancestor of the response is the deepest one with a record at or below it
(`closestExistingAncestor_eq`). `nsecDenialResult_cases` says what a judgement rests on. -/

namespace RustdResolved.Dnssec.NsecPaths

open List Lib Result PrefixOrder Chain Wire Octets Name Presentation PacketHeader Record
open DnssecRecords Resolver.Error NameText NamePath CanonicalOrder NsecDenial

variable {c p : Path} {list : List ResourceRecord} {name : DnsName} {r : ResourceRecord}
  {rrType : Nat} {labels : List Bytes}

/-! ### The path of a name -/

def namePath (name : DnsName) : Path :=
  match dnsWireLabels name.canonicalWire with
  | .ok labels => labels.reverse
  | .error _ => []

theorem namePath_ofLabels (h : ValidLabels labels) :
    namePath (DnsName.ofLabels labels) = pathOf labels := by
  unfold namePath DnsName.ofLabels
  rw [dnsWireLabels_wireName (ValidLabels.map_lowercase h)]
  rfl

theorem denotes_namePath (h : name.WellFormed) : Denotes name.text (namePath name) := by
  obtain ⟨labels, hlabels, rfl⟩ := h
  rw [namePath_ofLabels hlabels]
  exact denotes_nameText hlabels

theorem isPath_namePath (h : name.WellFormed) : IsPath (namePath name) :=
  (denotes_namePath h).isPath

theorem canonicalWire_eq (h : name.WellFormed) :
    name.canonicalWire = wireName (namePath name).reverse := by
  obtain ⟨labels, hlabels, rfl⟩ := h
  rw [namePath_ofLabels hlabels, pathOf, reverse_reverse]
  rfl

/-- Names are equal for the validator when they are equal on the wire. -/
theorem dnsNamesEqual_text {other : DnsName} (h : name.WellFormed) (hother : other.WellFormed) :
    dnsNamesEqual name.text other.text = true ↔ name.canonicalWire = other.canonicalWire := by
  rw [dnsNamesEqual_iff (denotes_namePath h) (denotes_namePath hother)]
  refine ⟨fun hpath => ?_, fun hwire => ?_⟩
  · rw [canonicalWire_eq h, canonicalWire_eq hother, hpath]
  · rw [namePath, hwire, namePath]

theorem wireName_injective {q : Path} (hp : IsPath p) (hq : IsPath q)
    (h : wireName p.reverse = wireName q.reverse) : p = q := by
  have hlabels := dnsWireLabels_wireName hp.valid
  rw [h, dnsWireLabels_wireName hq.valid] at hlabels
  exact (reverse_injective (Except.ok.inj hlabels)).symm

/-- **Decoded names are ordered as in RFC 4034, section 6.1.** -/
theorem canonical_order (owner next name : DnsName) (howner : owner.WellFormed)
    (hnext : next.WellFormed) (hname : name.WellFormed) :
    (∃ order, canonicalDnsNameCmp owner.canonicalWire name.canonicalWire = .ok order ∧
      (order = .lt ↔ namePath owner < namePath name) ∧
      (order = .eq ↔ namePath owner = namePath name) ∧
      (order = .gt ↔ namePath name < namePath owner)) ∧
    ∃ covers, canonicalNameIntervalCovers owner.canonicalWire next.canonicalWire
      name.canonicalWire = .ok covers ∧
      (covers = true ↔ Covers (namePath owner) (namePath next) (namePath name)) := by
  have ho := isPath_namePath howner
  have hn := isPath_namePath hname
  rw [canonicalWire_eq howner, canonicalWire_eq hnext, canonicalWire_eq hname]
  exact ⟨⟨_, canonicalDnsNameCmp_wireName ho hn, scanCmp_lt_iff, scanCmp_eq_iff, scanCmp_gt_iff⟩,
    canonicalNameIntervalCovers_wireName ho (isPath_namePath hnext) hn⟩

theorem canonical_order_between :
    let name (label : UInt8) := DnsName.ofLabels [[label]]
    canonicalDnsNameCmp (name 97).canonicalWire (name 98).canonicalWire = .ok .lt ∧
      canonicalNameIntervalCovers (name 97).canonicalWire (name 99).canonicalWire
        (name 98).canonicalWire = .ok true := by
  intro name
  have hname : ∀ label : UInt8, (name label).WellFormed := fun label =>
    ⟨[[label]], ⟨by simp, by simp, by simp [wireLength]⟩, rfl⟩
  obtain ⟨⟨order, horder, hlt, -⟩, covers, hcovers, hiff⟩ :=
    canonical_order _ _ _ (hname 97) (hname 99) (hname 98)
  rw [horder, hcovers, hlt.mpr (by decide), hiff.mpr (.inl ⟨by decide, by decide, by decide⟩)]
  exact ⟨rfl, rfl⟩

/-! ### Texts that go on the wire -/

/-- The label of a wildcard. -/
def star : Bytes := [42]

/-- The text is put on the wire as the path. -/
structure Encodes (text : Text) (path : Path) : Prop where
  isPath : IsPath path
  encoded : encodeName (normalizeDnsName text) = .ok (wireName path.reverse)

theorem encodes_of_denotes {t : Text} (h : Denotes t p) : Encodes t p := by
  refine ⟨h.isPath, ?_⟩
  rw [h.normalized]
  exact encodeName_nameText h.isPath.valid

theorem normalizeDnsName_wildcardOf (hc : IsPath c) :
    normalizeDnsName (wildcardOf (pathText c)) = wildcardOf (pathText c) := by
  unfold wildcardOf
  split_ifs with hroot
  · decide
  have hne : c ≠ [] := fun h => hroot ((pathText_eq_dot_iff hc).mpr h)
  have htext : pathText c ≠ [] := nameText_ne_nil hc.valid.nonempty
  have hdot : (pathText c).getLast? ≠ some '.' :=
    nameText_getLast (by simpa using hne) hc.valid.nonempty
  have hlower : (pathText c).map Char.toLower = pathText c := by
    rw [← normalizeDnsName_eq htext (fun x hx => nameText_chars hx) hdot]
    exact (denotes_pathText hc).normalized
  rw [normalizeDnsName_eq (by simp), map_cons, map_cons, hlower]
  · rfl
  · intro x hx
    simp only [mem_cons] at hx
    rcases hx with rfl | rfl | hx
    · decide
    · decide
    · exact nameText_chars hx
  · rwa [getLast?_cons_of_ne_nil (by simp), getLast?_cons_of_ne_nil htext]

theorem decode_wildcardOf (hc : IsPath c) :
    decodePresentationName (wildcardOf (pathText c)) = .ok (star :: c.reverse) := by
  unfold wildcardOf
  split_ifs with hroot
  · rw [(pathText_eq_dot_iff hc).mp hroot]
    decide
  have hne : c.reverse ≠ [] := by
    rw [Ne, reverse_eq_nil_iff]
    exact fun h => hroot ((pathText_eq_dot_iff hc).mpr h)
  have hbytes : asBytes ('*' :: '.' :: pathText c) = 42 :: 46 :: asBytes (nameText c.reverse) := rfl
  unfold decodePresentationName
  rw [hbytes, decodeLabels_verbatim (by unfold isVerbatim; decide) (by simp),
    decodeLabels_dot _ (by simp) (asBytes_nameText_ne_nil hc.valid.nonempty),
    decodeLabels_nameText _ hne hc.valid.nonempty hc.valid.short]
  rfl

theorem validLabels_cons {label : Bytes} (h : ValidLabels labels)
    (hne : label ≠ []) (hshort : label.length ≤ 63) :
    ValidLabels (label :: labels) ↔ wireLength (label :: labels) ≤ 255 := by
  refine ⟨fun hv => hv.fits, fun hfits => ⟨?_, ?_, hfits⟩⟩
  · simp only [mem_cons, forall_eq_or_imp]
    exact ⟨hne, h.nonempty⟩
  · simp only [mem_cons, forall_eq_or_imp]
    exact ⟨hshort, h.short⟩

theorem isPath_wildcard_iff (hc : IsPath c) :
    IsPath (c ++ [star]) ↔ wireLength (star :: c.reverse) ≤ 255 := by
  have hrev : (c ++ [star]).reverse = star :: c.reverse := by simp
  rw [← validLabels_cons hc.valid (by decide) (by decide)]
  refine ⟨fun h => by rw [← hrev]; exact h.valid, fun h => ⟨by rw [hrev]; exact h, ?_⟩⟩
  intro l hl
  rcases mem_append.mp hl with hl | hl
  · exact hc.lower l hl
  · rw [mem_singleton.mp hl]
    decide

/-- **The wildcard below a path goes on the wire when it fits.** -/
theorem encodeName_wildcardOf (hc : IsPath c) :
    encodeName (normalizeDnsName (wildcardOf (pathText c))) =
      if wireLength (star :: c.reverse) ≤ 255 then .ok (wireName (star :: c.reverse))
      else .error .nameTooLong := by
  have hne : (wildcardOf (pathText c)).isEmpty = false := by
    unfold wildcardOf
    split_ifs <;> rfl
  have hany : (star :: c.reverse).any (255 < ·.length) = false := by
    simp only [any_eq_false, decide_eq_true_eq, not_lt, mem_cons, forall_eq_or_imp]
    refine ⟨by decide, fun l hl => ?_⟩
    have := hc.valid.short l hl
    omega
  rw [normalizeDnsName_wildcardOf hc, encodeName, hne, decode_wildcardOf hc, ok_bind, hany,
    length_wireName]
  simp only [isEmpty_cons, Bool.false_eq_true, if_false]
  split_ifs <;> first | rfl | omega

theorem encodes_wildcardOf (hc : IsPath c) (h : IsPath (c ++ [star])) :
    Encodes (wildcardOf (pathText c)) (c ++ [star]) := by
  refine ⟨h, ?_⟩
  rw [encodeName_wildcardOf hc, if_pos ((isPath_wildcard_iff hc).mp h)]
  simp

/-! ### Coverage -/

section
variable {packet : Bytes} {record : ResourceRecord} {records : List ResourceRecord}
  {name text : Text}
  {n : Path} {result : DnssecDenialResult} {types : List Nat}

theorem isOkTrue_eq {result : Except ResolveError Bool} :
    isOkTrue result = true ↔ result = .ok true := by
  cases result <;> simp [isOkTrue]

section
variable (hrecord : record.name.WellFormed)
include hrecord

theorem nsecCoversName_encodes (hname : Encodes name n) :
    isOkTrue (nsecCoversName packet record name) = true ↔
      ∃ nsec, parseNsec packet record = .ok nsec ∧
        Covers (namePath record.name) (namePath nsec.nextDomain) n := by
  rw [isOkTrue_eq, nsecCoversName, bind_eq_ok]
  simp only [liftWire_eq_ok, hname.encoded, liftWire_ok, ok_bind]
  refine exists_congr fun nsec => and_congr_right fun hnsec => ?_
  have hnext := parseNsec_wellFormed hnsec
  rw [canonicalWire_eq hrecord, canonicalWire_eq hnext]
  obtain ⟨covers, hcovers, hiff⟩ := canonicalNameIntervalCovers_wireName (isPath_namePath hrecord)
    (isPath_namePath hnext) hname.isPath
  rw [hcovers, ← hiff, Except.ok.injEq]

/-- **A record covers the names whose paths its link covers.** -/
theorem nsecCoversName_iff (hname : Denotes name n) :
    isOkTrue (nsecCoversName packet record name) = true ↔
      ∃ nsec, parseNsec packet record = .ok nsec ∧
        Covers (namePath record.name) (namePath nsec.nextDomain) n :=
  nsecCoversName_encodes hrecord (encodes_of_denotes hname)

theorem nsecCoversName_wildcardOf (hc : IsPath c) :
    isOkTrue (nsecCoversName packet record (wildcardOf (pathText c))) = true ↔
      IsPath (c ++ [star]) ∧ ∃ nsec, parseNsec packet record = .ok nsec ∧
        Covers (namePath record.name) (namePath nsec.nextDomain) (c ++ [star]) := by
  by_cases hfits : IsPath (c ++ [star])
  · rw [nsecCoversName_encodes hrecord (encodes_wildcardOf hc hfits)]
    exact (and_iff_right hfits).symm
  · refine iff_of_false (fun h => ?_) fun h => hfits h.1
    rw [isPath_wildcard_iff hc] at hfits
    rw [isOkTrue_eq, nsecCoversName, encodeName_wildcardOf hc, if_neg hfits] at h
    obtain ⟨nsec, -, h⟩ := of_bind h
    cases h

/-- **A record has the text of a wildcard as its name when its path is the wildcard's.** -/
theorem dnsRecordNameEqual_wildcardOf (hc : IsPath c) :
    dnsRecordNameEqual record (wildcardOf (pathText c)) = true ↔
      namePath record.name = c ++ [star] := by
  have hpath := isPath_namePath hrecord
  unfold dnsRecordNameEqual
  by_cases hfits : IsPath (c ++ [star])
  · rw [(encodes_wildcardOf hc hfits).encoded]
    simp only [beq_iff_eq, canonicalWire_eq hrecord]
    exact ⟨fun h => wireName_injective hpath hfits h, fun h => by rw [h]⟩
  · have hne : namePath record.name ≠ c ++ [star] := fun h => hfits (h ▸ hpath)
    rw [isPath_wildcard_iff hc] at hfits
    rw [encodeName_wildcardOf hc, if_neg hfits]
    simp [hne]

end

theorem isPrefix_dropLast_iff {x : Path} : (x ≠ [] ∧ n <+: x.dropLast) ↔ (n <+: x ∧ n ≠ x) := by
  constructor
  · rintro ⟨hne, hpre⟩
    refine ⟨hpre.trans (List.dropLast_prefix x), ?_⟩
    rintro rfl
    have hlen := hpre.length_le
    rw [length_dropLast] at hlen
    have := length_pos_of_ne_nil hne
    omega
  · rintro ⟨⟨r, rfl⟩, hne⟩
    have hr : r ≠ [] := by
      rintro rfl
      simp at hne
    refine ⟨by simp [hr], ?_⟩
    rw [dropLast_append_of_ne_nil hr]
    exact prefix_append n _

/-- **A record shows a name to be an empty non-terminal when its next name lies below the name and
the common part of its two names does not.** -/
theorem nsecProvesEmptyNonterminal_iff (hrecord : record.name.WellFormed) (hname : Denotes name n) :
    isOkTrue (nsecProvesEmptyNonterminal packet record name) = true ↔
      ∃ nsec, parseNsec packet record = .ok nsec ∧
        (n <+: namePath nsec.nextDomain ∧ n ≠ namePath nsec.nextDomain) ∧
        lcp (namePath record.name) (namePath nsec.nextDomain) <+: n := by
  rw [isOkTrue_eq, nsecProvesEmptyNonterminal, bind_eq_ok]
  simp only [liftWire_eq_ok]
  refine exists_congr fun nsec => and_congr_right fun hnsec => ?_
  have hnext := denotes_namePath (parseNsec_wellFormed hnsec)
  have hnorm : Denotes (normalizeDnsName nsec.nextDomain.text) (namePath nsec.nextDomain) := by
    rw [hnext.normalized]
    exact denotes_pathText hnext.isPath
  have hcommon := dnsNameCommonSuffix_eq (denotes_namePath hrecord) hnorm
  have hlcp : Denotes (pathText (lcp (namePath record.name) (namePath nsec.nextDomain)))
      (lcp (namePath record.name) (namePath nsec.nextDomain)) :=
    denotes_pathText (hnext.isPath.of_isPrefix (lcp_prefix_right _ _))
  rw [dnsNameParent_eq hnorm, ← isPrefix_dropLast_iff]
  by_cases hroot : namePath nsec.nextDomain = []
  · simp [hroot]
  · have hparent : Denotes (pathText (namePath nsec.nextDomain).dropLast)
        (namePath nsec.nextDomain).dropLast :=
      denotes_pathText (hnext.isPath.of_isPrefix (List.dropLast_prefix _))
    rw [if_neg hroot, hcommon]
    by_cases hbelow : n <+: (namePath nsec.nextDomain).dropLast
    · simp [(dnsNameIsAtOrBelow_iff hparent hname).mpr hbelow, dnsNameIsAtOrBelow_iff hname hlcp,
        hbelow, hroot]
    · have hfalse : dnsNameIsAtOrBelow (pathText (namePath nsec.nextDomain).dropLast) name =
          false := by
        rw [Bool.eq_false_iff, Ne, dnsNameIsAtOrBelow_iff hparent hname]
        exact hbelow
      simp [hfalse, hbelow]

/-! ### The closest ancestor of the response -/

/-- The response shows that the path exists: a record lies at or below it. -/
def Shown (records : List ResourceRecord) (p : Path) : Prop :=
  ∃ record ∈ records, showsExistence record = true ∧ p <+: namePath record.name

/-- `c` is the deepest ancestor-or-self of `n` that the response shows to exist. -/
structure ClosestShown (records : List ResourceRecord) (n c : Path) : Prop where
  ancestor : c <+: n
  shown : Shown records c
  deepest : ∀ p, p <+: n → Shown records p → p <+: c

/-- The last element of a range that passes the test. -/
theorem find?_reverse_range (test : Text → Bool) (f : Nat → Text) {m k : Nat} (hk : k < m)
    (htest : test (f k) = true) : ∃ k < m, ((List.range m).map f).reverse.find? test = some (f k) ∧
      test (f k) = true ∧ ∀ j < m, test (f j) = true → j ≤ k := by
  induction m with
  | zero => exact absurd hk (Nat.not_lt_zero k)
  | succ m ih =>
    rw [range_succ, map_append, reverse_append, map_singleton, reverse_singleton, singleton_append]
    by_cases hm : test (f m) = true
    · exact ⟨m, Nat.lt_succ_self m, by rw [find?_cons_of_pos hm], hm, fun j hj _ => by omega⟩
    · have hkm : k < m := by
        refine lt_of_le_of_ne (Nat.lt_succ_iff.mp hk) ?_
        rintro rfl
        exact hm htest
      obtain ⟨k', hk', hfind, htest', hlast⟩ := ih hkm
      refine ⟨k', by omega, by rw [find?_cons_of_neg hm, hfind], htest', fun j hj hjtest => ?_⟩
      refine hlast j (lt_of_le_of_ne (Nat.lt_succ_iff.mp hj) ?_) hjtest
      rintro rfl
      exact hm hjtest

theorem shown_iff (hrecords : ∀ r ∈ records, r.name.WellFormed) (hp : IsPath p) :
    (records.any fun record =>
        showsExistence record && dnsNameIsAtOrBelow record.name.text (pathText p)) = true ↔
      Shown records p := by
  simp only [any_eq_true, Bool.and_eq_true, Shown]
  refine exists_congr fun record => and_congr_right fun hmem => and_congr_right fun _ => ?_
  exact dnsNameIsAtOrBelow_iff (denotes_namePath (hrecords record hmem)) (denotes_pathText hp)

/-- **The closest ancestor of the response is the deepest one that it shows to exist.** -/
theorem closestExistingAncestor_eq (hrecords : ∀ r ∈ records, r.name.WellFormed)
    (hname : Denotes name n) (hshown : ∃ r ∈ records, showsExistence r = true) :
    ∃ c, ClosestShown records n c ∧ closestExistingAncestor records name = some (pathText c) := by
  have hpath : ∀ k, IsPath (n.take k) := fun k => hname.isPath.of_isPrefix (List.take_prefix k n)
  have hiff := fun k => shown_iff hrecords (hpath k)
  have hroot : Shown records (n.take 0) := by
    obtain ⟨r, hr, hshows⟩ := hshown
    exact ⟨r, hr, hshows, nil_prefix⟩
  obtain ⟨k, hk, hfind, htest, hlast⟩ :=
    find?_reverse_range (fun ancestor => records.any fun record =>
      showsExistence record && dnsNameIsAtOrBelow record.name.text ancestor)
    (fun k => pathText (n.take k)) (Nat.succ_pos n.length) ((hiff 0).mpr hroot)
  refine ⟨n.take k, ⟨List.take_prefix k n, (hiff k).mp htest, fun p hp hpshown => ?_⟩, ?_⟩
  · have hptake : p = n.take p.length := (prefix_iff_eq_take.mp hp)
    have hple : p.length ≤ k := by
      refine hlast p.length (Nat.lt_succ_of_le hp.length_le) ((hiff p.length).mpr ?_)
      rwa [← hptake]
    rw [hptake]
    exact take_prefix_take_left hple
  · unfold closestExistingAncestor
    rw [dnsNameAncestors_eq hname]
    exact hfind

/-! ### What a negative judgement rests on -/

theorem nsecExact_some (h : nsecExact packet name rrType list = .ok (some result)) :
    ∃ r ∈ list, dnsNamesEqual r.name.text name = true ∧
      ∃ nsec, parseNsec packet r = .ok nsec ∧ result = bitmapResult nsec.types rrType := by
  induction list with
  | nil => cases h
  | cons r list ih =>
    unfold nsecExact at h
    split_ifs at h with hname
    · obtain ⟨r', hr', hrest⟩ := ih h
      exact ⟨r', mem_cons_of_mem r hr', hrest⟩
    · obtain ⟨nsec, hnsec, h⟩ := of_bind h
      split_ifs at h with hside
      · obtain ⟨r', hr', hrest⟩ := ih h
        exact ⟨r', mem_cons_of_mem r hr', hrest⟩
      · exact ⟨r, by simp, by simpa using hname, nsec, liftWire_eq_ok.mp hnsec,
          (Option.some.inj (Except.ok.inj h)).symm⟩

theorem firstEmptyNonterminal_some (h : firstEmptyNonterminal packet list name = some r) :
    r ∈ list ∧ isOkTrue (nsecProvesEmptyNonterminal packet r name) = true :=
  ⟨mem_of_find?_eq_some h, find?_some (p := fun record =>
    isOkTrue (nsecProvesEmptyNonterminal packet record name)) h⟩

theorem firstCovering_some (h : firstCovering packet list text = some r) :
    r ∈ list ∧ isOkTrue (nsecCoversName packet r text) = true :=
  ⟨mem_of_find?_eq_some h, find?_some (p := fun record =>
    isOkTrue (nsecCoversName packet record text)) h⟩

theorem firstNamed_some (h : firstNamed list text = some r) :
    r ∈ list ∧ dnsRecordNameEqual r text = true :=
  ⟨mem_of_find?_eq_some h, find?_some (p := fun record =>
    dnsRecordNameEqual record text) h⟩

structure CoveredJudgement (packet : Bytes) (records : List ResourceRecord) (name : Text)
    (rrType : Nat) (covering : ResourceRecord) (result : DnssecDenialResult) : Prop where
  notEmptyNonterminal : ∀ r ∈ nsecRecordsOf records,
    isOkTrue (nsecProvesEmptyNonterminal packet r name) = false
  covering_mem : covering ∈ nsecRecordsOf records
  covers : isOkTrue (nsecCoversName packet covering name) = true
  wildcard :
    (∃ r ∈ nsecRecordsOf records,
        dnsRecordNameEqual r (nsecWildcard packet records name covering) = true ∧
        ∃ nsec, parseNsec packet r = .ok nsec ∧ result = bitmapResult nsec.types rrType) ∨
      result = .nxDomain ∧ ∃ r ∈ nsecRecordsOf records,
        isOkTrue (nsecCoversName packet r (nsecWildcard packet records name covering)) = true

/-- **The ways to a judgement**: none, from a record of the name itself, from an empty non-terminal,
and from a covering record. -/
theorem nsecDenialResult_cases (h : nsecDenialResult packet records name rrType = .ok result) :
    result = .missing ∨
      nsecExact packet name rrType (nsecRecordsOf records) = .ok (some result) ∨
      (result = .noData ∧ ∃ r ∈ nsecRecordsOf records,
        isOkTrue (nsecProvesEmptyNonterminal packet r name) = true) ∨
      ∃ covering, CoveredJudgement packet records name rrType covering result := by
  unfold nsecDenialResult at h
  dsimp only at h
  by_cases hempty : (nsecRecordsOf records).isEmpty = true
  · rw [if_pos hempty] at h
    exact Or.inl (Except.ok.inj h).symm
  rw [if_neg hempty] at h
  obtain ⟨exact, hexact, h⟩ := of_bind h
  cases exact with
  | some decided =>
    cases h
    exact Or.inr (Or.inl hexact)
  | none =>
    by_cases hent : (firstEmptyNonterminal packet (nsecRecordsOf records) name).isSome = true
    · rw [if_pos hent] at h
      obtain ⟨r, hr⟩ := Option.isSome_iff_exists.mp hent
      obtain ⟨hmem, hshows⟩ := firstEmptyNonterminal_some hr
      exact Or.inr (Or.inr (Or.inl ⟨(Except.ok.inj h).symm, r, hmem, hshows⟩))
    rw [if_neg hent] at h
    have hnot : ∀ r ∈ nsecRecordsOf records,
        isOkTrue (nsecProvesEmptyNonterminal packet r name) = false := by
      simpa [firstEmptyNonterminal] using hent
    cases hcov : firstCovering packet (nsecRecordsOf records) name with
    | none =>
      rw [hcov] at h
      exact Or.inl (Except.ok.inj h).symm
    | some c =>
      rw [hcov] at h
      dsimp only at h
      obtain ⟨hmem, hcovers⟩ := firstCovering_some hcov
      cases hnamed : firstNamed (nsecRecordsOf records) (nsecWildcard packet records name c) with
      | some w =>
        rw [hnamed] at h
        obtain ⟨nsec, hnsec, h⟩ := of_bind h
        obtain ⟨hwmem, hwname⟩ := firstNamed_some hnamed
        exact Or.inr (Or.inr (Or.inr ⟨c, hnot, hmem, hcovers,
          Or.inl ⟨w, hwmem, hwname, nsec, liftWire_eq_ok.mp hnsec, (Except.ok.inj h).symm⟩⟩))
      | none =>
        rw [hnamed] at h
        dsimp only at h
        split_ifs at h with hcovw
        · obtain ⟨w, hw⟩ := Option.isSome_iff_exists.mp hcovw
          obtain ⟨hwmem, hwcovers⟩ := firstCovering_some hw
          exact Or.inr (Or.inr (Or.inr ⟨c, hnot, hmem, hcovers,
            Or.inr ⟨(Except.ok.inj h).symm, w, hwmem, hwcovers⟩⟩))
        · exact Or.inl (Except.ok.inj h).symm

theorem bitmapResult_ne_nxDomain : bitmapResult types rrType ≠ .nxDomain := by
  unfold bitmapResult
  split_ifs <;> simp

theorem bitmapResult_eq_noData :
    bitmapResult types rrType = .noData ↔ rrType ∉ types ∧ typeCname ∉ types := by
  unfold bitmapResult
  split_ifs <;> simp_all

end

end RustdResolved.Dnssec.NsecPaths
