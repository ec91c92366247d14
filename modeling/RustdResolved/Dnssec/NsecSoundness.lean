import RustdResolved.Dnssec.NsecPaths
import RustdResolved.Lib.PrefixTree

/-! # Zones, and what a denial by NSEC records says about them

A zone is a finite set of owner names at or below its apex, each with its types; its NSEC records
link the owners in canonical order. A response is authentic when its records are records of the
zone, in any selection. This module compares the judgement on such a response with the zone.

The validator looks for the wildcard at the closest ancestor that the response shows to exist by the
*owner* of a record. The next name of a covering record shows one more ancestor to exist, which no
owner need show (`HiddenEncloser`): the closest encloser of the name is then that one, and the
validator has looked at the wrong wildcard. -/

namespace RustdResolved.Dnssec.NsecSoundness

open List Lib PrefixOrder Chain PrefixTree Wire Octets Name Presentation PacketHeader Record
open DnssecRecords NameText NamePath NsecDenial NsecPaths

variable {nsec : NsecRecord} {r : ResourceRecord}

/-! ### Zones -/

/-- The names of a zone that own records, with their types. -/
structure Zone where
  apex : Path
  owners : Finset Path
  types : Path → List Nat
  apex_mem : apex ∈ owners
  below_apex : ∀ o ∈ owners, apex <+: o

/-- A name exists when it owns records or is an empty non-terminal. -/
abbrev Zone.Exists (z : Zone) (n : Path) : Prop := Occupied z.owners n

/-- The closest encloser of a name: its deepest ancestor-or-self that exists. -/
abbrev Zone.ClosestEncloser (z : Zone) (n e : Path) : Prop := Encloser z.owners n e

/-- The NSEC records are the links of the zone, with its types. -/
structure Zone.NsecAuthentic (z : Zone) (packet : Bytes) (records : List ResourceRecord) :
    Prop where
  wellFormed : ∀ r ∈ records, r.name.WellFormed
  linked : ∀ r ∈ records, ∀ nsec, parseNsec packet r = .ok nsec →
    Link z.owners (namePath r.name) (namePath nsec.nextDomain) ∧
      ∀ t, t ∈ nsec.types ↔ t ∈ z.types (namePath r.name)

/-- **The records are records of the zone**: the NSEC records are its links, and the owner of every
record but signatures and the OPT record owns records. -/
structure Zone.Authentic (z : Zone) (packet : Bytes) (records : List ResourceRecord) : Prop
    extends z.NsecAuthentic packet records where
  owned : ∀ r ∈ records, showsExistence r = true → namePath r.name ∈ z.owners

/-- No name `*.e` for the closest encloser `e` of a name that does not exist. -/
def Zone.Denies (z : Zone) (n : Path) : Prop :=
  ¬ z.Exists n ∧ ∀ e, z.ClosestEncloser n e → e ++ [star] ∉ z.owners

/-- Neither the type nor a CNAME at the name. -/
def Zone.Lacks (z : Zone) (n : Path) (rrType : Nat) : Prop :=
  rrType ∉ z.types n ∧ typeCname ∉ z.types n

/-- **The zone has the name but not the type**: the name, or the wildcard that stands for it, owns
neither the type nor a CNAME, or the name is an empty non-terminal. -/
def Zone.HasNoData (z : Zone) (n : Path) (rrType : Nat) : Prop :=
  (n ∈ z.owners ∧ z.Lacks n rrType) ∨
    (n ∉ z.owners ∧ z.Exists n) ∨
    ¬ z.Exists n ∧
      ∃ e, z.ClosestEncloser n e ∧ e ++ [star] ∈ z.owners ∧ z.Lacks (e ++ [star]) rrType

/-- An ancestor that only the next name of a covering record shows to exist. -/
structure HiddenEncloser (packet : Bytes) (records : List ResourceRecord) (n e : Path) : Prop where
  next : ∃ r ∈ records, ∃ nsec, parseNsec packet r = .ok nsec ∧
    Covers (namePath r.name) (namePath nsec.nextDomain) n ∧ e = lcp n (namePath nsec.nextDomain)
  proper : e ≠ n
  hidden : ¬ Shown records e

variable {z : Zone} {packet : Bytes} {records : List ResourceRecord} {name : Text} {n e : Path}
  {rrType : Nat}

theorem rrType_of_parseNsec (h : parseNsec packet r = .ok nsec) : r.rrType = typeNsec := by
  unfold parseNsec at h
  split_ifs at h with hbad
  rw [not_or, not_not] at hbad
  exact hbad.1

theorem showsExistence_of_parseNsec (h : parseNsec packet r = .ok nsec) :
    showsExistence r = true := by
  unfold showsExistence
  rw [rrType_of_parseNsec h]
  rfl

theorem mem_of_mem_nsecRecordsOf (h : r ∈ nsecRecordsOf records) : r ∈ records :=
  (mem_filter.mp h).1

theorem exists_of_shown (hauth : z.Authentic packet records) (h : Shown records e) :
    z.Exists e := by
  obtain ⟨r, hr, hshows, hpre⟩ := h
  exact ⟨namePath r.name, hauth.owned r hr hshows, hpre⟩

/-- **A hidden encloser is the closest encloser.** -/
theorem HiddenEncloser.closestEncloser (hauth : z.NsecAuthentic packet records)
    (h : HiddenEncloser packet records n e) : z.ClosestEncloser n e := by
  obtain ⟨r, hr, nsec, hnsec, hcovers, rfl⟩ := h.next
  refine encloser_right (hauth.linked r hr nsec hnsec).1 hcovers fun hpre => ?_
  exact h.hidden ⟨r, hr, showsExistence_of_parseNsec hnsec, hpre⟩

/-! ### A covered name -/

/-- **The closest encloser of a covered name** is hidden, or else it is the closest shown ancestor,
if that one exists. -/
theorem closestEncloser_of_covers (hauth : z.NsecAuthentic packet records) (hr : r ∈ records)
    (hnsec : parseNsec packet r = .ok nsec)
    (hcovers : Covers (namePath r.name) (namePath nsec.nextDomain) n) (hn : ¬ z.Exists n) {c : Path}
    (hc : ClosestShown records n c) (hexists : z.Exists c) :
    (∃ e, HiddenEncloser packet records n e) ∨ z.ClosestEncloser n c := by
  have hlink := (hauth.linked r hr nsec hnsec).1
  by_cases hshown : Shown records (lcp n (namePath nsec.nextDomain))
  · refine Or.inr ⟨hc.ancestor, hexists, fun p hpn hp => ?_⟩
    rcases isPrefix_of_occupied hlink hcovers hpn hp with hpo | hpx
    · exact hc.deepest p hpn ⟨r, hr, showsExistence_of_parseNsec hnsec, hpo⟩
    · exact (prefix_lcp hpn hpx).trans (hc.deepest _ (lcp_prefix_left _ _) hshown)
  · refine Or.inl ⟨_, ⟨r, hr, nsec, hnsec, hcovers, rfl⟩, fun heq => hn ?_, hshown⟩
    rw [← heq]
    exact ⟨_, hlink.right_mem, lcp_prefix_right _ _⟩

/-- What a judgement from a covering record says about an authentic response: the name does not
exist, and the wildcard that was looked at is the one below the closest shown ancestor, which is the
closest encloser unless that one is hidden. -/
theorem covered_judgement (hauth : z.NsecAuthentic packet records) (hname : Denotes name n)
    (hin : z.apex <+: n) {covering : ResourceRecord} {result : DnssecDenialResult}
    (h : CoveredJudgement packet records name rrType covering result) :
    ¬ z.Exists n ∧ ∃ c, IsPath c ∧ ClosestShown records n c ∧
      nsecWildcard packet records name covering = wildcardOf (pathText c) ∧
      (z.Exists c → (∃ e, HiddenEncloser packet records n e) ∨ z.ClosestEncloser n c) := by
  have hcmem := mem_of_mem_nsecRecordsOf h.covering_mem
  obtain ⟨nsec, hnsec, hcovers⟩ :=
    (nsecCoversName_iff (hauth.wellFormed covering hcmem) hname).mp h.covers
  have hlink := (hauth.linked covering hcmem nsec hnsec).1
  have hn : ¬ z.Exists n := by
    intro hexists
    obtain ⟨hon, hnx, hpre⟩ := isPrefix_right_of_occupied hlink z.apex_mem hin hcovers hexists
    have hent := h.notEmptyNonterminal covering h.covering_mem
    rw [Bool.eq_false_iff] at hent
    refine hent ((nsecProvesEmptyNonterminal_iff (hauth.wellFormed covering hcmem) hname).mpr
      ⟨nsec, hnsec, ⟨hpre, hnx.ne⟩, ?_⟩)
    rcases prefix_or_prefix_of_prefix (lcp_prefix_right (namePath covering.name) _) hpre with
      hle | hge
    · exact hle
    · exact absurd (le_of_isPrefix (hge.trans (lcp_prefix_left _ _))) (not_le.mpr hon)
  obtain ⟨c, hc, hclosest⟩ := closestExistingAncestor_eq hauth.wellFormed hname
    ⟨covering, hcmem, showsExistence_of_parseNsec hnsec⟩
  refine ⟨hn, c, hname.isPath.of_isPrefix hc.ancestor, hc, ?_,
    closestEncloser_of_covers hauth hcmem hnsec hcovers hn hc⟩
  unfold nsecWildcard
  rw [hclosest]
  rfl

/-! ### Responses of one NSEC record -/

def nsecRdata (next : List Bytes) (bitmap : Bytes) : Bytes := wireName next ++ bitmap

/-- A zone with the apex `example`, whose other names own addresses. -/
def exampleZone (owners : Finset Path) (hmem : [labelOf "example"] ∈ owners)
    (hbelow : ∀ o ∈ owners, [labelOf "example"] <+: o) : Zone where
  apex := [labelOf "example"]
  owners := owners
  types o := if o = [labelOf "example"] then [2, 6, 46, 47, 48] else [1, 46, 47]
  apex_mem := hmem
  below_apex := hbelow

theorem nsecAuthentic_singleton (hr : r.name.WellFormed) (hnsec : parseNsec packet r = .ok nsec)
    (hlink : Link z.owners (namePath r.name) (namePath nsec.nextDomain))
    (htypes : nsec.types = z.types (namePath r.name)) : z.NsecAuthentic packet [r] := by
  refine ⟨?_, ?_⟩
  · intro r' hr'
    rw [mem_singleton.mp hr']
    exact hr
  · intro r' hr' nsec' hnsec'
    rw [mem_singleton.mp hr'] at hnsec' ⊢
    obtain rfl := Except.ok.inj (hnsec.symm.trans hnsec')
    exact ⟨hlink, fun t => by rw [htypes]⟩

/-! ### Name errors -/

/-- **A name error is sound exactly when no hidden encloser has a wildcard.** -/
theorem nsec_nxDomain_sound_iff (hauth : z.Authentic packet records) (hname : Denotes name n)
    (hin : z.apex <+: n) (hresult : nsecDenialResult packet records name rrType = .ok .nxDomain) :
    z.Denies n ↔ ∀ e, HiddenEncloser packet records n e → e ++ [star] ∉ z.owners := by
  constructor
  · rintro ⟨-, hwild⟩ e he
    exact hwild e (he.closestEncloser hauth.toNsecAuthentic)
  · intro hcond
    rcases nsecDenialResult_cases hresult with h | h | ⟨h, -⟩ | ⟨covering, h⟩
    · cases h
    · obtain ⟨r, -, -, nsec, -, h⟩ := nsecExact_some h
      exact absurd h.symm bitmapResult_ne_nxDomain
    · cases h
    obtain ⟨hn, c, hcpath, hc, hwildcard, hencloser⟩ :=
      covered_judgement hauth.toNsecAuthentic hname hin h
    refine ⟨hn, fun e he => ?_⟩
    rcases hencloser (exists_of_shown hauth hc.shown) with ⟨e', he'⟩ | hclosest
    · rw [he.unique (he'.closestEncloser hauth.toNsecAuthentic)]
      exact hcond e' he'
    rw [he.unique hclosest]
    -- the wildcard that was looked at is covered, and so it owns nothing
    rcases h.wildcard with ⟨r, -, -, nsec', -, hbitmap⟩ | ⟨-, r, hr, hcovw⟩
    · exact absurd hbitmap.symm bitmapResult_ne_nxDomain
    · have hrmem := mem_of_mem_nsecRecordsOf hr
      rw [hwildcard] at hcovw
      obtain ⟨nsec', hnsec', hcovers'⟩ :=
        ((nsecCoversName_wildcardOf (hauth.wellFormed r hrmem) hcpath).mp hcovw).2
      exact (hauth.linked r hrmem nsec' hnsec').1.not_mem_of_covers hcovers'

/-- The zone with the names `example` and `*.b.example`. -/
def hiddenZone : Zone :=
  exampleZone {[labelOf "example"], [labelOf "example", labelOf "b", star]}
    (by decide) (by decide)

/-- The name `!.b.example`, whose first label sorts before `*`. -/
def hiddenName : Path := [labelOf "example", labelOf "b", [33]]

/-- The NSEC record of `example`, with the next name `*.b.example`. -/
def hiddenPacket : Bytes :=
  responseWire 0x8183 hiddenName.reverse typeA []
    [recordWire [labelOf "example"] typeNsec 3600
      (nsecRdata [star, labelOf "b", labelOf "example"] [0, 7, 0x22, 0, 0, 0, 0, 0x03, 0x80])]

def hiddenRecord : ResourceRecord :=
  { name := DnsName.ofLabels [labelOf "example"]
    rrType := typeNsec
    rrClass := classIn
    ttl := 3600
    ttlOffset := 42
    rdataOffset := 48
    rdata := nsecRdata [star, labelOf "b", labelOf "example"] [0, 7, 0x22, 0, 0, 0, 0, 0x03, 0x80]
    nextOffset := 70 }

def hiddenNsec : NsecRecord :=
  ⟨DnsName.ofLabels [star, labelOf "b", labelOf "example"], [2, 6, 46, 47, 48]⟩

theorem hidden_authentic : hiddenZone.Authentic hiddenPacket [hiddenRecord] where
  toNsecAuthentic := by
    have hnsec : parseNsec hiddenPacket hiddenRecord = .ok hiddenNsec := by decide
    refine nsecAuthentic_singleton ?_ hnsec ?_ (by decide)
    · exact ⟨[labelOf "example"], ⟨by decide, by decide, by decide⟩, rfl⟩
    · exact ⟨by decide, by decide, by decide⟩
  owned := by decide

theorem hidden_denotes : Denotes (pathText hiddenName) hiddenName :=
  denotes_pathText ⟨⟨by decide, by decide, by decide⟩, by decide⟩

theorem hidden_nxDomain :
    nsecDenialResult hiddenPacket [hiddenRecord] (pathText hiddenName) typeA = .ok .nxDomain := by
  decide +kernel

/-- **A name error for a name that the wildcard `*.b.example` answers.** -/
theorem nsec_nxDomain_unsound :
    (parseSections hiddenPacket).map Sections.records = .ok [hiddenRecord] ∧
      hiddenZone.Authentic hiddenPacket [hiddenRecord] ∧
      Denotes (pathText hiddenName) hiddenName ∧ hiddenZone.apex <+: hiddenName ∧
      nsecDenialResult hiddenPacket [hiddenRecord] (pathText hiddenName) typeA = .ok .nxDomain ∧
      hiddenZone.ClosestEncloser hiddenName [labelOf "example", labelOf "b"] ∧
      [labelOf "example", labelOf "b", star] ∈ hiddenZone.owners ∧
      ¬ hiddenZone.Denies hiddenName := by
  have hhidden : HiddenEncloser hiddenPacket [hiddenRecord] hiddenName
      [labelOf "example", labelOf "b"] := by
    refine ⟨⟨hiddenRecord, by simp, hiddenNsec, by decide, ?_, by decide⟩,
      by decide, ?_⟩
    · exact Or.inl (by decide)
    · rintro ⟨r, hr, -, hpre⟩
      rw [mem_singleton.mp hr] at hpre
      revert hpre
      decide
  have hclosest := hhidden.closestEncloser hidden_authentic.toNsecAuthentic
  have hwild : [labelOf "example", labelOf "b", star] ∈ hiddenZone.owners := by decide
  exact ⟨by decide +kernel, hidden_authentic, hidden_denotes, by decide +kernel, hidden_nxDomain,
    hclosest, hwild, fun h => h.2 _ hclosest hwild⟩

theorem nsec_nxDomain_sound_iff_hidden :
    hiddenZone.Denies hiddenName ↔
      ∀ e, HiddenEncloser hiddenPacket [hiddenRecord] hiddenName e →
      e ++ [star] ∉ hiddenZone.owners :=
  nsec_nxDomain_sound_iff hidden_authentic hidden_denotes (by decide) hidden_nxDomain

/-! ### Missing data -/

/-- A record whose two names part at the name itself: its owner lies at or below the name, its next
name below it. -/
def PartsAt (packet : Bytes) (records : List ResourceRecord) (n : Path) : Prop :=
  ∃ r ∈ records, ∃ nsec, parseNsec packet r = .ok nsec ∧
    n = lcp (namePath r.name) (namePath nsec.nextDomain) ∧ n ≠ namePath nsec.nextDomain

section
variable (hauth : z.NsecAuthentic packet records)
include hauth

theorem lacks_of_types (hr : r ∈ records) (hnsec : parseNsec packet r = .ok nsec)
    (h : bitmapResult nsec.types rrType = .noData) : z.Lacks (namePath r.name) rrType := by
  have htypes := (hauth.linked r hr nsec hnsec).2
  obtain ⟨ht, hcname⟩ := bitmapResult_eq_noData.mp h
  exact ⟨fun hmem => ht ((htypes rrType).mpr hmem), fun hmem =>
    hcname ((htypes typeCname).mpr hmem)⟩

theorem not_hiddenEncloser_of_exists (hin : z.apex <+: n) (hn : z.Exists n) :
    ¬ HiddenEncloser packet records n e := by
  intro h
  obtain ⟨r, hr, nsec, hnsec, hcovers, rfl⟩ := h.next
  obtain ⟨-, -, hpre⟩ := isPrefix_right_of_occupied (hauth.linked r hr nsec hnsec).1 z.apex_mem hin
    hcovers hn
  exact h.proper (prefix_antisymm (lcp_prefix_left _ _) (prefix_lcp (prefix_refl n) hpre))

/-- The judgement of a record of the name itself is sound. -/
theorem hasNoData_of_exact (hname : Denotes name n)
    (h : nsecExact packet name rrType (nsecRecordsOf records) = .ok (some .noData)) :
    n ∈ z.owners ∧ z.Lacks n rrType := by
  obtain ⟨r, hr, hequal, nsec, hnsec, hbitmap⟩ := nsecExact_some h
  have hrmem := mem_of_mem_nsecRecordsOf hr
  rw [dnsNamesEqual_iff (denotes_namePath (hauth.wellFormed r hrmem)) hname] at hequal
  rw [← hequal]
  exact ⟨(hauth.linked r hrmem nsec hnsec).1.left_mem,
    lacks_of_types hauth hrmem hnsec hbitmap.symm⟩

end

/-- **A judgement of missing data is sound exactly when a record that parts at the name finds
nothing of the type there, and a hidden encloser has a wildcard without the type.** -/
theorem nsec_noData_sound_iff (hauth : z.NsecAuthentic packet records) (hname : Denotes name n)
    (hin : z.apex <+: n) (hresult : nsecDenialResult packet records name rrType = .ok .noData) :
    z.HasNoData n rrType ↔
      (PartsAt packet records n → n ∈ z.owners → z.Lacks n rrType) ∧
        ∀ e, HiddenEncloser packet records n e →
          e ++ [star] ∈ z.owners ∧ z.Lacks (e ++ [star]) rrType := by
  have hmem_exists : n ∈ z.owners → z.Exists n := fun h => ⟨n, h, prefix_refl n⟩
  constructor
  · rintro (⟨hmem, hlacks⟩ | ⟨hnot, hexists⟩ | ⟨hnot, e, he, hwild, hlacks⟩)
    · exact ⟨fun _ _ => hlacks,
        fun e he => absurd he (not_hiddenEncloser_of_exists hauth hin (hmem_exists hmem))⟩
    · exact ⟨fun _ hmem => absurd hmem hnot,
        fun e he => absurd he (not_hiddenEncloser_of_exists hauth hin hexists)⟩
    · refine ⟨fun _ hmem => absurd (hmem_exists hmem) hnot, fun e' he' => ?_⟩
      rw [← he.unique (he'.closestEncloser hauth)]
      exact ⟨hwild, hlacks⟩
  · rintro ⟨hparts, hhidden⟩
    rcases nsecDenialResult_cases hresult with h | h | ⟨-, r, hr, hent⟩ | ⟨covering, h⟩
    · cases h
    · exact Or.inl (hasNoData_of_exact hauth hname h)
    · -- the next name of the record lies below the name, so the name exists
      have hrmem := mem_of_mem_nsecRecordsOf hr
      obtain ⟨nsec, hnsec, ⟨hpre, hne⟩, hlcp⟩ :=
        (nsecProvesEmptyNonterminal_iff (hauth.wellFormed r hrmem) hname).mp hent
      have hlink := (hauth.linked r hrmem nsec hnsec).1
      by_cases hmem : n ∈ z.owners
      · have heq := eq_lcp_of_mem hlink z.apex_mem hin hmem hpre hne hlcp
        exact Or.inl ⟨hmem, hparts ⟨r, hrmem, nsec, hnsec, heq, hne⟩ hmem⟩
      · exact Or.inr (Or.inl ⟨hmem, _, hlink.right_mem, hpre⟩)
    · obtain ⟨hn, c, hcpath, -, hwildcard, hencloser⟩ := covered_judgement hauth hname hin h
      refine Or.inr (Or.inr ⟨hn, ?_⟩)
      rcases h.wildcard with ⟨r, hr, hnamed, nsec', hnsec', hbitmap⟩ | ⟨hnx, -⟩
      · have hrmem := mem_of_mem_nsecRecordsOf hr
        rw [hwildcard, dnsRecordNameEqual_wildcardOf (hauth.wellFormed r hrmem) hcpath] at hnamed
        have hlacks := lacks_of_types hauth hrmem hnsec' hbitmap.symm
        have howner := (hauth.linked r hrmem nsec' hnsec').1.left_mem
        rw [hnamed] at hlacks howner
        -- the wildcard owns records, so what it lies below exists
        have hexists : z.Exists c := ⟨_, howner, prefix_append c [star]⟩
        rcases hencloser hexists with ⟨e, he⟩ | hclosest
        · exact ⟨e, he.closestEncloser hauth, hhidden e he⟩
        · exact ⟨c, hclosest, howner, hlacks⟩
      · cases hnx

/-- The zone with the names `example`, `b.example`, `a.b.example` and `c.b.example`. -/
def partingZone : Zone :=
  exampleZone
    {[labelOf "example"], [labelOf "example", labelOf "b"],
      [labelOf "example", labelOf "b", labelOf "a"], [labelOf "example", labelOf "b", labelOf "c"]}
    (by decide) (by decide)

/-- The name `b.example`, which owns an address. -/
def partingName : Path := [labelOf "example", labelOf "b"]

/-- The NSEC record of `a.b.example`, with the next name `c.b.example`. -/
def partingPacket : Bytes :=
  responseWire 0x8180 partingName.reverse typeA []
    [recordWire [labelOf "a", labelOf "b", labelOf "example"] typeNsec 3600
      (nsecRdata [labelOf "c", labelOf "b", labelOf "example"] [0, 6, 0x40, 0, 0, 0, 0, 0x03])]

def partingRecord : ResourceRecord :=
  { name := DnsName.ofLabels [labelOf "a", labelOf "b", labelOf "example"]
    rrType := typeNsec
    rrClass := classIn
    ttl := 3600
    ttlOffset := 44
    rdataOffset := 50
    rdata := nsecRdata [labelOf "c", labelOf "b", labelOf "example"] [0, 6, 0x40, 0, 0, 0, 0, 0x03]
    nextOffset := 71 }

def partingNsec : NsecRecord :=
  ⟨DnsName.ofLabels [labelOf "c", labelOf "b", labelOf "example"], [1, 46, 47]⟩

theorem parting_authentic : partingZone.NsecAuthentic partingPacket [partingRecord] := by
  have hnsec : parseNsec partingPacket partingRecord = .ok partingNsec := by decide
  refine nsecAuthentic_singleton ?_ hnsec ?_ (by decide)
  · exact ⟨[labelOf "a", labelOf "b", labelOf "example"], ⟨by decide, by decide, by decide⟩, rfl⟩
  · exact ⟨by decide, by decide, by decide⟩

theorem parting_denotes : Denotes (pathText partingName) partingName :=
  denotes_pathText ⟨⟨by decide, by decide, by decide⟩, by decide⟩

theorem parting_noData :
    nsecDenialResult partingPacket [partingRecord] (pathText partingName) typeA = .ok .noData := by
  decide

/-- **A judgement of missing data for a name that owns the type.** -/
theorem nsec_noData_unsound :
    (parseSections partingPacket).map Sections.records = .ok [partingRecord] ∧
      partingZone.NsecAuthentic partingPacket [partingRecord] ∧
      Denotes (pathText partingName) partingName ∧ partingZone.apex <+: partingName ∧
      nsecDenialResult partingPacket [partingRecord] (pathText partingName) typeA = .ok .noData ∧
      partingName ∈ partingZone.owners ∧ typeA ∈ partingZone.types partingName ∧
      ¬ partingZone.HasNoData partingName typeA := by
  have hmem : partingName ∈ partingZone.owners := by decide
  have htype : typeA ∈ partingZone.types partingName := by decide
  refine ⟨by decide +kernel, parting_authentic, parting_denotes, by decide +kernel, parting_noData,
    hmem, htype, ?_⟩
  rintro (⟨-, hlacks⟩ | ⟨hnot, -⟩ | ⟨hnot, -⟩)
  · exact hlacks.1 htype
  · exact hnot hmem
  · exact hnot ⟨partingName, hmem, prefix_refl _⟩

theorem nsec_noData_sound_iff_parting :
    partingZone.HasNoData partingName typeA ↔
      (PartsAt partingPacket [partingRecord] partingName → partingName ∈ partingZone.owners →
          partingZone.Lacks partingName typeA) ∧
        ∀ e, HiddenEncloser partingPacket [partingRecord] partingName e →
          e ++ [star] ∈ partingZone.owners ∧ partingZone.Lacks (e ++ [star]) typeA :=
  nsec_noData_sound_iff parting_authentic parting_denotes (by decide) parting_noData

end RustdResolved.Dnssec.NsecSoundness
