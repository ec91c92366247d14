import RustdResolved.Dnssec.DenialEvidence

/-! # Denials and the zone they come from

A judgement of `nsec3DenialResult` comes from the zone of one of the NSEC3 records (`nsec3Denial`),
and a judgement from the last NSEC record of a chain from the zone that its next name, the apex,
names. The name that is judged should lie in that zone. `denial_stays_in_zone_iff` says when it
does: an NSEC3 record with the hash of the name is taken without a look at its zone, and the last
record of a chain covers every name outside its zone. -/

namespace RustdResolved.Dnssec.DenialZone

open List Lib.Result Lib.PrefixOrder Lib.Chain Wire Octets Name Presentation PacketHeader Record
open DnssecRecords
open Resolver.Error NameText NamePath CanonicalOrder NsecDenial NsecPaths Nsec3Denial DenialEvidence

variable {c n : Path} {entry : ParsedNsec3} {result : DnssecDenialResult} {packet : Bytes}
  {r : ResourceRecord} {records : List ResourceRecord} {name : Text} {rrType : Nat}

/-! ### Hashed names -/

section
variable (sha1 : Bytes → Bytes) (parsed : List ParsedNsec3) (entry : ParsedNsec3) (path : Path)

/-- The hash of a path with the parameters of an NSEC3 record. -/
def hashOf : Bytes :=
  iterateHash sha1 entry.nsec3.salt entry.nsec3.iterations
    (sha1 (lowercase (wireName path.reverse) ++ entry.nsec3.salt))

/-- The first record of the entry's zone and parameters with the hash of the path as its owner. -/
def recordAt : Option ParsedNsec3 :=
  findHash (compatibleNsec3Records parsed entry.zone entry.nsec3) (hashOf sha1 entry path)

/-- The first record of the entry's zone and parameters that covers the hash of the path. -/
def recordOver : Option ParsedNsec3 :=
  findCover (compatibleNsec3Records parsed entry.zone entry.nsec3) (hashOf sha1 entry path)

end

section
variable (sha1 : Bytes → Bytes) (parsed : List ParsedNsec3) (rrType : Nat) (n : Path)
  (entry : ParsedNsec3)

/-- A record of the entry's zone and parameters has the hash of the path, on the right side of a
cut. -/
def HashHit : Prop :=
  ∃ exact, recordAt sha1 parsed entry n = some exact ∧
    wrongSideOfCut exact.nsec3.types rrType = false

/-- The records of the entry's zone and parameters prove that `c` is the closest encloser of the
path: the next closer name is covered by a record with opt-out, or the wildcard has a record or is
covered too. -/
structure ProvesEncloser (c : Path) : Prop where
  ancestor : c <+: n
  proper : c ≠ n
  inZone : dnsNameIsAtOrBelow (pathText c) entry.zone = true
  shown : ∃ closest, recordAt sha1 parsed entry c = some closest ∧
    cutsBelow closest.nsec3.types = false
  deepest : ∀ p, p <+: n → c.length < p.length → recordAt sha1 parsed entry p = none
  nextCloser : ∃ cover, recordOver sha1 parsed entry (n.take (c.length + 1)) = some cover ∧
    (cover.nsec3.flags = 1 ∨ (IsPath (c ++ [star]) →
      (recordAt sha1 parsed entry (c ++ [star])).isSome ∨
        (recordOver sha1 parsed entry (c ++ [star])).isSome))

/-- The entry decides about the path. -/
def Decides : Prop :=
  HashHit sha1 parsed rrType n entry ∨ ∃ c, ProvesEncloser sha1 parsed n entry c

end

section
variable {sha1 : Bytes → Bytes} {parsed : List ParsedNsec3}

theorem nsec3Hash_eq {text : Text} {p : Path} (h : Encodes text p) :
    nsec3Hash sha1 text entry.nsec3 = .ok (hashOf sha1 entry p) := by
  unfold nsec3Hash
  rw [h.encoded]
  rfl

/-- **The wildcard decides** when it has a record, when it is covered, or when it is too long. -/
theorem nsec3Wildcard_ne_none_iff (hc : IsPath c) :
    nsec3Wildcard sha1 (compatibleNsec3Records parsed entry.zone entry.nsec3)
      entry.nsec3 (pathText c)
        rrType ≠ .ok none ↔
      (IsPath (c ++ [star]) → (recordAt sha1 parsed entry (c ++ [star])).isSome ∨
        (recordOver sha1 parsed entry (c ++ [star])).isSome) := by
  unfold nsec3Wildcard
  by_cases hfits : IsPath (c ++ [star])
  · rw [nsec3Hash_eq (encodes_wildcardOf hc hfits), ok_bind, ← recordAt, ← recordOver]
    cases recordAt sha1 parsed entry (c ++ [star]) with
    | some exact => simp
    | none =>
      cases recordOver sha1 parsed entry (c ++ [star]) with
      | some cover => simp
      | none => simp [hfits]
  · have hlong : nsec3Hash sha1 (wildcardOf (pathText c)) entry.nsec3 =
        .error (.wire .nameTooLong) := by
      unfold nsec3Hash
      rw [encodeName_wildcardOf hc, if_neg (mt (isPath_wildcard_iff hc).mpr hfits)]
      rfl
    rw [hlong]
    simp [hfits, bind, Except.bind]

theorem findSome?_reverse_range {α : Type} {g : Nat → Option α} {x : α} {m : Nat} :
    (range m).reverse.findSome? g = some x ↔
      ∃ k < m, g k = some x ∧ ∀ j, k < j → j < m → g j = none := by
  induction m with
  | zero => simp
  | succ m ih =>
    rw [range_succ, reverse_append, reverse_singleton, singleton_append, findSome?_cons]
    cases hm : g m with
    | some y =>
      constructor
      · intro h
        exact ⟨m, Nat.lt_succ_self m, by rw [hm]; exact h, fun j hj hjm => by omega⟩
      · rintro ⟨k, hk, hgk, hlast⟩
        rcases Nat.lt_or_eq_of_le (Nat.lt_succ_iff.mp hk) with hlt | rfl
        · rw [hlast m hlt (Nat.lt_succ_self m)] at hm
          cases hm
        · rw [← hgk, hm]
    | none =>
      rw [ih]
      constructor
      · rintro ⟨k, hk, hgk, hlast⟩
        refine ⟨k, by omega, hgk, fun j hj hjm => ?_⟩
        rcases Nat.lt_or_eq_of_le (Nat.lt_succ_iff.mp hjm) with hlt | rfl
        · exact hlast j hj hlt
        · exact hm
      · rintro ⟨k, hk, hgk, hlast⟩
        refine ⟨k, ?_, hgk, fun j hj hjm => hlast j hj (by omega)⟩
        refine lt_of_le_of_ne (Nat.lt_succ_iff.mp hk) ?_
        rintro rfl
        rw [hm] at hgk
        cases hgk

/-- **The closest encloser by the records of an entry** is the deepest ancestor in its zone with a
record. -/
theorem closestEncloserEntry_eq_some (hname : Denotes name n) {k : Nat} {closest : ParsedNsec3} :
    closestEncloserEntry sha1 (compatibleNsec3Records parsed entry.zone entry.nsec3) entry.zone
        entry.nsec3 (dnsNameAncestors name) = some (k, closest) ↔
      k ≤ n.length ∧ dnsNameIsAtOrBelow (pathText (n.take k)) entry.zone = true ∧
        recordAt sha1 parsed entry (n.take k) = some closest ∧
        ∀ j, k < j → j ≤ n.length → dnsNameIsAtOrBelow (pathText (n.take j)) entry.zone = true →
          recordAt sha1 parsed entry (n.take j) = none := by
  have hzip : ((range (n.length + 1)).map fun k => pathText (n.take k)).zipIdx =
      (range (n.length + 1)).map fun k => (pathText (n.take k), k) := by
    apply ext_getElem
    · simp
    · simp
  have hhash (k : Nat) : nsec3Hash sha1 (pathText (n.take k)) entry.nsec3 =
      .ok (hashOf sha1 entry (n.take k)) :=
    nsec3Hash_eq (encodes_of_denotes (denotes_pathText
      (hname.isPath.of_isPrefix (List.take_prefix k n))))
  unfold closestEncloserEntry
  rw [dnsNameAncestors_eq hname, hzip, ← map_reverse, findSome?_map, findSome?_reverse_range]
  simp only [Function.comp_apply, hhash, recordAt]
  constructor
  · rintro ⟨k', hk', hfound, hlast⟩
    split_ifs at hfound with hbelow
    obtain ⟨closest', hclosest', heq⟩ := Option.map_eq_some_iff.mp hfound
    cases heq
    refine ⟨Nat.lt_succ_iff.mp hk', hbelow, hclosest', fun j hj hjn hjbelow => ?_⟩
    have hnone := hlast j hj (Nat.lt_succ_iff.mpr hjn)
    rwa [if_pos hjbelow, Option.map_eq_none_iff] at hnone
  · rintro ⟨hk, hbelow, hclosest, hlast⟩
    refine ⟨k, Nat.lt_succ_iff.mpr hk, by rw [if_pos hbelow, hclosest]; rfl, fun j hj hjn => ?_⟩
    split_ifs with hjbelow
    · rw [hlast j hj (Nat.lt_succ_iff.mp hjn) hjbelow]
      rfl
    · rfl

/-- An entry's proof of a closest encloser goes through that encloser alone. -/
theorem ProvesEncloser.closest (h : ProvesEncloser sha1 parsed n entry c) (hname : Denotes name n) :
    ∃ closest, closestEncloserEntry sha1 (compatibleNsec3Records parsed entry.zone entry.nsec3)
      entry.zone entry.nsec3 (dnsNameAncestors name) = some (c.length, closest) ∧
      cutsBelow closest.nsec3.types = false := by
  obtain ⟨closest, hclosest, hcut⟩ := h.shown
  have htake := prefix_iff_eq_take.mp h.ancestor
  refine ⟨closest, ?_, hcut⟩
  rw [closestEncloserEntry_eq_some hname, ← htake]
  refine ⟨h.ancestor.length_le, h.inZone, hclosest, fun j hj hjn _ => ?_⟩
  exact h.deepest _ (List.take_prefix j n) (by rw [length_take]; omega)

/-- What an entry needs besides the closest ancestor in its zone with a record. -/
theorem provesEncloser_iff (hname : Denotes name n) (hzone : ∃ z, Denotes entry.zone z) {k : Nat}
    {closest : ParsedNsec3} (hclosest : closestEncloserEntry sha1
      (compatibleNsec3Records parsed entry.zone entry.nsec3) entry.zone entry.nsec3
      (dnsNameAncestors name) = some (k, closest)) :
    (∃ c, ProvesEncloser sha1 parsed n entry c) ↔
      n.take k ≠ n ∧ cutsBelow closest.nsec3.types = false ∧
        ∃ cover, recordOver sha1 parsed entry (n.take (k + 1)) = some cover ∧
          (cover.nsec3.flags = 1 ∨ (IsPath (n.take k ++ [star]) →
            (recordAt sha1 parsed entry (n.take k ++ [star])).isSome ∨
              (recordOver sha1 parsed entry (n.take k ++ [star])).isSome)) := by
  obtain ⟨hk, hbelow, hat, hlast⟩ := (closestEncloserEntry_eq_some hname).mp hclosest
  have hpath (k : Nat) := hname.isPath.of_isPrefix (List.take_prefix k n)
  have hlength : (n.take k).length = k := length_take_of_le hk
  constructor
  · rintro ⟨c, h⟩
    obtain ⟨closest', hsome, hcut⟩ := h.closest hname
    cases hclosest.symm.trans hsome
    rw [← prefix_iff_eq_take.mp h.ancestor]
    exact ⟨h.proper, hcut, h.nextCloser⟩
  · rintro ⟨hproper, hcut, hcover⟩
    refine ⟨n.take k, take_prefix k n, hproper, hbelow, ⟨closest, hat, hcut⟩, fun p hp hlt => ?_,
      by rwa [hlength]⟩
    -- the zone lies above the closest ancestor, so above every deeper one
    obtain ⟨z, hz⟩ := hzone
    rw [hlength] at hlt
    rw [dnsNameIsAtOrBelow_iff (denotes_pathText (hpath k)) hz] at hbelow
    rw [prefix_iff_eq_take.mp hp]
    refine hlast _ hlt hp.length_le ?_
    rw [dnsNameIsAtOrBelow_iff (denotes_pathText (hpath _)) hz]
    exact hbelow.trans (List.take_prefix_take_left hlt.le)

theorem nsec3Closest_ne_none_iff (hname : Denotes name n) (hzone : ∃ z, Denotes entry.zone z) :
    nsec3Closest sha1 (compatibleNsec3Records parsed entry.zone entry.nsec3) entry.zone entry.nsec3
        name rrType ≠ .ok none ↔ ∃ c, ProvesEncloser sha1 parsed n entry c := by
  have hpath (k : Nat) := hname.isPath.of_isPrefix (List.take_prefix k n)
  unfold nsec3Closest
  cases hclosest : closestEncloserEntry sha1
      (compatibleNsec3Records parsed entry.zone entry.nsec3) entry.zone entry.nsec3
      (dnsNameAncestors name) with
  | none =>
    refine iff_of_false (by simp [hclosest]) ?_
    rintro ⟨c, h⟩
    obtain ⟨closest, hsome, -⟩ := h.closest hname
    rw [hclosest] at hsome
    cases hsome
  | some found =>
    obtain ⟨k, closest⟩ := found
    obtain ⟨hk, -⟩ := (closestEncloserEntry_eq_some hname).mp hclosest
    have hancestors (j : Nat) (hj : j < n.length + 1) :
        (dnsNameAncestors name)[j]? = some (pathText (n.take j)) := by
      rw [dnsNameAncestors_eq hname, getElem?_map, getElem?_range hj]
      rfl
    rw [provesEncloser_iff hname hzone hclosest]
    dsimp only
    rw [hclosest]
    dsimp only
    rw [getD_eq_getElem?_getD, hancestors k (by omega)]
    cases hcut : cutsBelow closest.nsec3.types with
    | true => simp
    | false =>
      rcases Nat.lt_or_eq_of_le hk with hlt | rfl
      · have hproper : n.take k ≠ n := fun heq => by
          have hlength := congrArg length heq
          rw [length_take_of_le hk] at hlength
          omega
        rw [hancestors (k + 1) (by omega)]
        simp only [Option.getD_some, Bool.false_eq_true, if_false,
          nsec3Hash_eq (encodes_of_denotes (denotes_pathText (hpath (k + 1)))), ok_bind,
          ← recordOver.eq_1]
        cases recordOver sha1 parsed entry (n.take (k + 1)) with
        | none => simp
        | some cover =>
          by_cases hflags : cover.nsec3.flags = 1
          · simp [hflags, hproper]
          · dsimp only
            rw [if_neg hflags, nsec3Wildcard_ne_none_iff (hpath k)]
            simp [hflags, hproper]
      · rw [dnsNameAncestors_eq hname, getElem?_eq_none (by simp)]
        simp

/-- **What it means that an entry decides**, with a judgement or an error. -/
theorem nsec3Entry_ne_none_iff (hname : Denotes name n) (hzone : ∃ z, Denotes entry.zone z) :
    nsec3Entry sha1 parsed name rrType entry ≠ .ok none ↔ Decides sha1 parsed rrType n entry := by
  unfold nsec3Entry Decides
  dsimp only
  rw [nsec3Hash_eq (encodes_of_denotes hname), ok_bind, ← recordAt]
  cases hat : recordAt sha1 parsed entry n with
  | none =>
    rw [nsec3Closest_ne_none_iff hname hzone, HashHit, hat]
    simp
  | some exact =>
    have hnot : ¬ ∃ c, ProvesEncloser sha1 parsed n entry c := by
      rintro ⟨c, h⟩
      have hlt : c.length < n.length :=
        lt_of_le_of_ne h.ancestor.length_le fun heq => h.proper (h.ancestor.eq_of_length heq)
      rw [h.deepest n prefix_rfl hlt] at hat
      cases hat
    rw [or_iff_left hnot, HashHit, hat]
    cases hside : wrongSideOfCut exact.nsec3.types rrType with
    | true => simp [hside]
    | false => simp [hside]

theorem afterFirstLabel_nameText {label : Bytes} {rest : List Bytes} :
    afterFirstLabel (nameText (label :: rest)) = nameText rest := by
  have hdot := dot_notMem_escapeText label
  unfold afterFirstLabel
  by_cases hnil : rest = []
  · rw [hnil, nameText_singleton, splitOnce_of_not_mem hdot]
    rfl
  · rw [nameText_cons label hnil, splitOnce_append hdot]

theorem denotes_zone_of_nsec3Owner {record : ResourceRecord} {hash : Bytes} {zone : Text}
    (hrecord : record.name.WellFormed) (h : nsec3Owner record = some (hash, zone)) :
    ∃ z, Denotes zone z := by
  have hzone : zone = normalizeDnsName (afterFirstLabel record.name.text) := by
    unfold nsec3Owner at h
    split at h
    · cases h
    split_ifs at h
    split at h
    · cases h
    · exact (Prod.mk.inj (Option.some.inj h)).2.symm
  obtain ⟨labels, hlabels, hname⟩ := hrecord
  have hrest : ∃ rest, ValidLabels rest ∧
      normalizeDnsName (afterFirstLabel record.name.text) = normalizeDnsName (nameText rest) := by
    cases labels with
    | nil => exact ⟨[], hlabels, by rw [hname]; decide⟩
    | cons label rest =>
      refine ⟨rest, ValidLabels.of_infix hlabels ⟨[label], [], by simp⟩, ?_⟩
      rw [hname, DnsName.ofLabels, afterFirstLabel_nameText]
  obtain ⟨rest, hvalid, htext⟩ := hrest
  have hdenotes := denotes_nameText hvalid
  refine ⟨pathOf rest, ?_⟩
  rw [hzone, htext, hdenotes.normalized]
  exact denotes_pathText hdenotes.isPath

theorem denotes_zone : ∀ {records : List ResourceRecord} {parsed : List ParsedNsec3},
    (∀ r ∈ records, r.name.WellFormed) → parsedNsec3Records records = .ok parsed →
    ∀ entry ∈ parsed, ∃ z, Denotes entry.zone z
  | [], parsed, _, h, entry, hentry => by
    cases h
    simp at hentry
  | r :: records, parsed, hrecords, h, entry, hentry => by
    have hrest : ∀ x ∈ records, x.name.WellFormed := fun x hx => hrecords x (by simp [hx])
    unfold parsedNsec3Records at h
    split_ifs at h with htype
    · exact denotes_zone hrest h entry hentry
    obtain ⟨nsec3, -, h⟩ := of_bind h
    obtain ⟨rest, hparsed, h⟩ := of_bind h
    have ih := denotes_zone hrest hparsed entry
    split_ifs at h with hbad
    · cases h
      exact ih hentry
    · cases howner : nsec3Owner r with
      | none =>
        rw [howner] at h
        cases h
        exact ih hentry
      | some found =>
        rw [howner] at h
        dsimp only at h
        split_ifs at h with hlen
        · cases h
          rcases mem_cons.mp hentry with rfl | hentry
          · exact denotes_zone_of_nsec3Owner (hrecords r (by simp)) howner
          · exact ih hentry
        · cases h
          exact ih hentry

theorem nsec3Decider_some :
    ∀ {entries : List ParsedNsec3},
    nsec3Decider sha1 parsed name rrType entries = .ok (some (entry, result)) →
      ∃ before after, entries = before ++ entry :: after ∧
        (∀ e ∈ before, nsec3Entry sha1 parsed name rrType e = .ok none) ∧
        nsec3Entry sha1 parsed name rrType entry = .ok (some result)
  | [], h => by cases h
  | e :: entries, h => by
    obtain ⟨judgement, hentry, h⟩ := of_bind h
    cases judgement with
    | some r =>
      obtain ⟨rfl, rfl⟩ := Prod.mk.inj (Option.some.inj (Except.ok.inj h))
      exact ⟨[], entries, rfl, by simp, hentry⟩
    | none =>
      obtain ⟨before, after, hsplit, hbefore, hdecides⟩ := nsec3Decider_some h
      refine ⟨e :: before, after, by rw [hsplit, cons_append], ?_, hdecides⟩
      rw [forall_mem_cons]
      exact ⟨hentry, hbefore⟩

theorem nsec3Decider_of_first (h : nsec3Entry sha1 parsed name rrType entry = .ok (some result))
    (after : List ParsedNsec3) {before : List ParsedNsec3}
    (hbefore : ∀ e ∈ before, nsec3Entry sha1 parsed name rrType e = .ok none) :
    nsec3Decider sha1 parsed name rrType (before ++ entry :: after) =
      .ok (some (entry, result)) := by
  induction before with
  | nil =>
    rw [List.nil_append, nsec3Decider, h]
    rfl
  | cons e before ih =>
    rw [List.cons_append, nsec3Decider, hbefore e (by simp), ok_bind]
    exact ih fun x hx => hbefore x (by simp [hx])

/-! ### The zone of the NSEC3 records -/

/-- An entry with a proof of a closest encloser is of a zone of the name. -/
theorem ProvesEncloser.isAtOrBelow (h : ProvesEncloser sha1 parsed n entry c)
    (hname : Denotes name n) (hzone : ∃ z, Denotes entry.zone z) :
    dnsNameIsAtOrBelow name entry.zone = true := by
  obtain ⟨z, hz⟩ := hzone
  have hc := denotes_pathText (hname.isPath.of_isPrefix h.ancestor)
  exact (dnsNameIsAtOrBelow_iff hname hz).mpr
    (((dnsNameIsAtOrBelow_iff hc hz).mp h.inZone).trans h.ancestor)

theorem bitmapResult_ne_missing {types : List Nat} : bitmapResult types rrType ≠ .missing := by
  unfold bitmapResult
  split_ifs <;> simp

theorem HashHit.judges (h : HashHit sha1 parsed rrType n entry) (hname : Denotes name n) :
    ∃ result, result ≠ .missing ∧ nsec3Entry sha1 parsed name rrType entry = .ok (some result) := by
  obtain ⟨exact, hat, hside⟩ := h
  refine ⟨bitmapResult exact.nsec3.types rrType, bitmapResult_ne_missing, ?_⟩
  unfold nsec3Entry
  dsimp only
  rw [nsec3Hash_eq (encodes_of_denotes hname), ok_bind, ← recordAt, hat]
  simp [hside]

end

/-- **A judgement by NSEC3 records is about a name in the zone of the record that decided.** -/
def Nsec3StaysInZone (sha1 : Bytes → Bytes) (records : List ResourceRecord) (name : Text)
    (rrType : Nat) : Prop :=
  ∀ result, nsec3DenialResult sha1 records name rrType = .ok result → result ≠ .missing →
    ∃ entry, nsec3Denial sha1 records name rrType = .ok (some (entry, result)) ∧
      dnsNameIsAtOrBelow name entry.zone = true

/-- Before every NSEC3 record of another zone than the name's, if one of its zone and parameters has
the hash of the name, there is one of a zone of the name that decides. -/
def HitsBacked (sha1 : Bytes → Bytes) (records : List ResourceRecord) (name : Text) (rrType : Nat)
    (n : Path) : Prop :=
  ∀ parsed, parsedNsec3Records records = .ok parsed →
    ∀ before entry after, parsed = before ++ entry :: after →
      dnsNameIsAtOrBelow name entry.zone = false → HashHit sha1 parsed rrType n entry →
      ∃ b ∈ before, dnsNameIsAtOrBelow name b.zone = true ∧ Decides sha1 parsed rrType n b

section
variable {sha1 : Bytes → Bytes}

/-- Without such a record the first entry that decides, at the latest the given one, is of another
zone. -/
theorem nsec3Denial_of_unbacked (hrecords : ∀ r ∈ records, r.name.WellFormed)
    (hname : Denotes name n) {parsed before after : List ParsedNsec3}
    (hparsed : parsedNsec3Records records = .ok parsed) (hsplit : parsed = before ++ entry :: after)
    (houtside : dnsNameIsAtOrBelow name entry.zone = false)
    (hhit : HashHit sha1 parsed rrType n entry)
    (hnone : ¬ ∃ b ∈ before, dnsNameIsAtOrBelow name b.zone = true ∧
      Decides sha1 parsed rrType n b) :
    ∃ first result, nsec3Denial sha1 records name rrType = .ok (some (first, result)) ∧
      result ≠ .missing ∧ dnsNameIsAtOrBelow name first.zone = false := by
  have hzone := denotes_zone hrecords hparsed
  have hiff (e : ParsedNsec3) (he : e ∈ parsed) : nsec3Entry sha1 parsed name rrType e ≠ .ok none ↔
      Decides sha1 parsed rrType n e := nsec3Entry_ne_none_iff hname (hzone e he)
  obtain ⟨first, hfirst⟩ : ∃ first, (before ++ [entry]).find?
      (fun e => decide (nsec3Entry sha1 parsed name rrType e ≠ .ok none)) = some first := by
    refine Option.isSome_iff_exists.mp (find?_isSome.mpr ⟨entry, by simp, ?_⟩)
    exact decide_eq_true ((hiff entry (by simp [hsplit])).mpr (.inl hhit))
  obtain ⟨hdecides, front, back, happend, hfront⟩ := find?_eq_some_iff_append.mp hfirst
  have hparts : parsed = front ++ first :: (back ++ after) := by
    rw [hsplit, ← singleton_append, ← append_assoc, happend, append_assoc, cons_append]
  have hmem : first ∈ parsed := by simp [hparts]
  have hdecides := (hiff first hmem).mp (of_decide_eq_true hdecides)
  have hout : dnsNameIsAtOrBelow name first.zone = false := by
    have hfirstmem : first ∈ before ++ [entry] := by simp [happend]
    rcases mem_append.mp hfirstmem with hbefore | hentry
    · exact Bool.eq_false_iff.mpr fun hinside => hnone ⟨first, hbefore, hinside, hdecides⟩
    · rwa [mem_singleton.mp hentry]
  have hhit : HashHit sha1 parsed rrType n first := by
    refine hdecides.resolve_right ?_
    rintro ⟨c, hproves⟩
    rw [hproves.isAtOrBelow hname (hzone first hmem)] at hout
    cases hout
  obtain ⟨result, hmissing, hjudges⟩ := hhit.judges hname
  refine ⟨first, result, ?_, hmissing, hout⟩
  unfold nsec3Denial
  rw [hparsed, ok_bind]
  have h := nsec3Decider_of_first hjudges (back ++ after) fun e he => by simpa using hfront e he
  rwa [← hparts] at h

theorem nsec3StaysInZone_iff (hrecords : ∀ r ∈ records, r.name.WellFormed)
    (hname : Denotes name n) :
    Nsec3StaysInZone sha1 records name rrType ↔ HitsBacked sha1 records name rrType n := by
  constructor
  · intro hstays parsed hparsed before entry after hsplit houtside hhit
    by_contra hnone
    obtain ⟨first, result, hdenial, hmissing, hout⟩ :=
      nsec3Denial_of_unbacked hrecords hname hparsed hsplit houtside hhit hnone
    obtain ⟨entry', hentry', hinside⟩ := hstays result
      (by rw [nsec3Denial_result, hdenial]; rfl) hmissing
    cases hdenial.symm.trans hentry'
    rw [hinside] at hout
    cases hout
  · intro hbacked result hresult hmissing
    rw [nsec3Denial_result] at hresult
    cases hdenial : nsec3Denial sha1 records name rrType with
    | error e =>
      rw [hdenial] at hresult
      cases hresult
    | ok decided =>
      rw [hdenial] at hresult
      cases decided with
      | none =>
        cases hresult
        exact absurd rfl hmissing
      | some found =>
        obtain ⟨entry, result'⟩ := found
        cases hresult
        refine ⟨entry, rfl, ?_⟩
        obtain ⟨parsed, hparsed, hdecider⟩ := of_bind hdenial
        obtain ⟨before, after, hsplit, hbefore, hentry⟩ := nsec3Decider_some hdecider
        have hzone := denotes_zone hrecords hparsed
        have hdecides := (nsec3Entry_ne_none_iff hname (hzone entry (by simp [hsplit]))).mp
          (by rw [hentry]; simp)
        rcases hdecides with hhit | ⟨c, hproves⟩
        · by_contra houtside
          obtain ⟨b, hb, -, hdecides⟩ := hbacked parsed hparsed before entry after hsplit
            (by simpa using houtside) hhit
          exact (nsec3Entry_ne_none_iff hname (hzone b (by simp [hsplit, hb]))).mpr hdecides
            (hbefore b hb)
        · exact hproves.isAtOrBelow hname (hzone entry (by simp [hsplit]))

end

/-! ### The end of the NSEC chain -/

/-- The record closes its chain, its owner comes after its next name, and the name does not lie at
or below that next name. -/
def closesElsewhere (packet : Bytes) (name : Text) (r : ResourceRecord) : Bool :=
  match parseNsec packet r with
  | .ok nsec =>
    match canonicalDnsNameCmp r.name.canonicalWire nsec.nextDomain.canonicalWire with
    | .ok order => order == .gt && !dnsNameIsAtOrBelow name nsec.nextDomain.text
    | .error _ => false
  | .error _ => false

/-- **A name error needs no record that closes the chain of another zone than the name's.** -/
def NsecStaysInZone (packet : Bytes) (records : List ResourceRecord) (name : Text) (rrType : Nat) :
    Prop :=
  RestsOn packet records name rrType (fun r => !closesElsewhere packet name r) .nxDomain

/-- The last record of a chain, with its next name, which is not at or above the path. -/
structure IsForeignEnd (packet : Bytes) (n : Path) (r : ResourceRecord) (x : Path) : Prop where
  last : x < namePath r.name
  outside : ¬ x <+: n
  next : ∃ nsec, parseNsec packet r = .ok nsec ∧ namePath nsec.nextDomain = x

theorem closesElsewhere_iff (hrecord : r.name.WellFormed) (hname : Denotes name n) :
    closesElsewhere packet name r = true ↔ ∃ x, IsForeignEnd packet n r x := by
  unfold closesElsewhere
  cases hnsec : parseNsec packet r with
  | error e =>
    refine iff_of_false (by simp) ?_
    rintro ⟨x, -, -, nsec, hnsec', -⟩
    rw [hnsec] at hnsec'
    cases hnsec'
  | ok nsec =>
    have hnext := parseNsec_wellFormed hnsec
    dsimp only
    rw [canonicalWire_eq hrecord, canonicalWire_eq hnext,
      canonicalDnsNameCmp_wireName (isPath_namePath hrecord) (isPath_namePath hnext)]
    dsimp only
    rw [Bool.and_eq_true, beq_iff_eq, scanCmp_gt_iff, Bool.not_eq_true', ← Bool.not_eq_true,
      dnsNameIsAtOrBelow_iff hname (denotes_namePath hnext)]
    constructor
    · rintro ⟨hlast, houtside⟩
      exact ⟨_, hlast, houtside, nsec, hnsec, rfl⟩
    · rintro ⟨x, hlast, houtside, nsec', hnsec', rfl⟩
      cases hnsec.symm.trans hnsec'
      exact ⟨hlast, houtside⟩

/-- Such a record covers what comes after its owner or before its next name. -/
theorem IsForeignEnd.coversPath_iff {m x : Path} (h : IsForeignEnd packet n r x) :
    CoversPath packet m r ↔ IsPath m ∧ (namePath r.name < m ∨ m < x) := by
  obtain ⟨nsec, hnsec, rfl⟩ := h.next
  refine and_congr_right fun _ => ?_
  constructor
  · rintro ⟨nsec', hnsec', hcovers⟩
    cases hnsec.symm.trans hnsec'
    rcases hcovers with ⟨hlt, -⟩ | ⟨-, hcovers⟩ | ⟨heq, -⟩
    · exact absurd hlt h.last.not_gt
    · exact hcovers
    · exact absurd heq h.last.ne'
  · intro hcovers
    exact ⟨nsec, hnsec, .inr (.inl ⟨h.last, hcovers⟩)⟩

/-- **Other records back the end of a foreign chain** wherever it would count: where the name, or
the wildcard, comes after its owner or before its next name. -/
structure EndsBacked (packet : Bytes) (records : List ResourceRecord) (n c : Path) : Prop where
  name : (∀ r ∈ nsecRecordsOf records, ¬ ShowsEmpty packet n r) → NoWildcard records c →
    (∃ r ∈ nsecRecordsOf records, CoversPath packet (c ++ [star]) r) →
    (∃ r ∈ nsecRecordsOf records, ∃ x, IsForeignEnd packet n r x ∧ (namePath r.name < n ∨ n < x)) →
    ∃ r ∈ nsecRecordsOf records, (∀ x, ¬ IsForeignEnd packet n r x) ∧ CoversPath packet n r
  wildcard : (∀ r ∈ nsecRecordsOf records, ¬ ShowsEmpty packet n r) → NoWildcard records c →
    (∃ r ∈ nsecRecordsOf records, CoversPath packet n r) → IsPath (c ++ [star]) →
    (∃ r ∈ nsecRecordsOf records, ∃ x,
      IsForeignEnd packet n r x ∧ (namePath r.name < c ++ [star] ∨ c ++ [star] < x)) →
    ∃ r ∈ nsecRecordsOf records, (∀ x, ¬ IsForeignEnd packet n r x) ∧
      CoversPath packet (c ++ [star]) r

section
variable (hrecords : ∀ r ∈ records, r.name.WellFormed) (hname : Denotes name n)
include hrecords hname

theorem restsInZone_iff (hne : nsecRecordsOf records ≠ [])
    (hundecided : Undecided packet (nsecRecordsOf records) name rrType)
    (hclosest : ClosestShown records n c) :
    NsecStaysInZone packet records name rrType ↔ EndsBacked packet records n c := by
  have hall := nsecDenialFrom_cases hrecords hname hne hundecided hclosest (Subset.refl _)
  have hsubset : (nsecRecordsOf records).filter (fun r => !closesElsewhere packet name r) ⊆
      nsecRecordsOf records := filter_subset_self _
  have hsome := nsecDenialFrom_cases hrecords hname hne hundecided hclosest hsubset
  have hgood := exists_mem_filter_iff (IsForeignEnd packet n) (nsecRecordsOf records) fun r hr =>
    closesElsewhere_iff (hrecords r (mem_filter.mp hr).1) hname
  rw [nsecDenialFrom_all] at hall
  rw [NsecStaysInZone, RestsOn, hall.1, hsome.1, forall_not_iff, forall_not_iff,
    hgood, hgood, hgood]
  have hempty :=
    exists_iff_good (IsForeignEnd packet n) (nsecRecordsOf records) (ShowsEmpty packet n)
  have hcovers := exists_covers_iff (IsForeignEnd packet n) (nsecRecordsOf records) n
    fun r _ x hend => hend.coversPath_iff
  have hwildcard := exists_covers_iff (IsForeignEnd packet n) (nsecRecordsOf records) (c ++ [star])
    fun r _ x hend => hend.coversPath_iff
  constructor
  · intro hrests
    refine ⟨fun hnot hwild hcovw hend => ?_, fun hnot hwild hcov hpath hend => ?_⟩
    · have hcov := hcovers.mpr (.inr ⟨hname.isPath, hend⟩)
      exact (hrests ⟨forall_not_iff.mp hnot, hcov, hwild, hcovw⟩).2.1
    · have hcovw := hwildcard.mpr (.inr ⟨hpath, hend⟩)
      exact (hrests ⟨forall_not_iff.mp hnot, hcov, hwild, hcovw⟩).2.2.2
  · rintro hbacked ⟨hnot, hcov, hwild, hcovw⟩
    refine ⟨fun hempty' => hnot (hempty.mpr (.inl hempty')), ?_, hwild, ?_⟩
    · rcases hcovers.mp hcov with hcov' | ⟨-, hend⟩
      · exact hcov'
      · exact hbacked.name (forall_not_iff.mpr hnot) hwild hcovw hend
    · rcases hwildcard.mp hcovw with hcovw' | ⟨hpath, hend⟩
      · exact hcovw'
      · exact hbacked.wildcard (forall_not_iff.mpr hnot) hwild hcov hpath hend

theorem nsecStaysInZone_iff :
    NsecStaysInZone packet records name rrType ↔
      (Undecided packet (nsecRecordsOf records) name rrType →
        ∀ c, ClosestShown records n c → EndsBacked packet records n c) := by
  refine iff_of_closestShown hrecords hname (fun hdecided hresult => ?_) (fun hnil c => ?_)
    fun hne hundecided c => restsInZone_iff hrecords hname hne hundecided
  · rw [nsecDenialFrom_of_decided hdecided, hresult]
  · constructor <;> simp [hnil]

end

/-- **A denial stays in the zone it comes from exactly when** records of a zone of the name decide
before an NSEC3 record of another zone with the hash of the name, and other NSEC records back the
ends of foreign chains. -/
theorem denial_stays_in_zone_iff (sha1 : Bytes → Bytes) (packet : Bytes)
    (records : List ResourceRecord) (name : Text) (rrType : Nat)
    (hrecords : ∀ r ∈ records, r.name.WellFormed) (hname : Denotes name n) :
    (Nsec3StaysInZone sha1 records name rrType ↔ HitsBacked sha1 records name rrType n) ∧
      (NsecStaysInZone packet records name rrType ↔
        (Undecided packet (nsecRecordsOf records) name rrType →
          ∀ c, ClosestShown records n c → EndsBacked packet records n c)) :=
  ⟨nsec3StaysInZone_iff hrecords hname, nsecStaysInZone_iff hrecords hname⟩

/-- A hash that sends `victim.test` to zeros, and everything else to ones. -/
def victimHash (data : Bytes) : Bytes :=
  if data = wireName [labelOf "victim", labelOf "test"] then List.replicate 20 0
  else List.replicate 20 255

/-- An NSEC3 record of the zone `evil` whose owner is the hash of `victim.test`. -/
def evilRecord : ResourceRecord :=
  { name := DnsName.ofLabels [labelOf "00000000000000000000000000000000", labelOf "evil"]
    rrType := typeNsec3
    rrClass := classIn
    ttl := 3600
    ttlOffset := 72
    rdataOffset := 78
    rdata := [1, 0, 0, 0, 0, 20] ++ List.replicate 20 1 ++ [0, 2, 0, 1]
    nextOffset := 108 }

def evilPacket : Bytes :=
  responseWire 0x8180 [labelOf "victim", labelOf "test"] typeA []
    [recordWire [labelOf "00000000000000000000000000000000", labelOf "evil"] typeNsec3 3600
      evilRecord.rdata]

/-- The last NSEC record of the zone `example`, from `z.example` back to the apex. -/
def lastRecord : ResourceRecord :=
  { name := DnsName.ofLabels [labelOf "z", labelOf "example"]
    rrType := typeNsec
    rrClass := classIn
    ttl := 3600
    ttlOffset := 44
    rdataOffset := 50
    rdata := wireName [labelOf "example"] ++ [0, 6, 0x40, 0, 0, 0, 0, 0x03]
    nextOffset := 67 }

def lastPacket : Bytes :=
  responseWire 0x8183 [labelOf "victim", labelOf "test"] typeA []
    [recordWire [labelOf "z", labelOf "example"] typeNsec 3600 lastRecord.rdata]

/-- The record of the name's own zone with the same hash. -/
def ownRecord : ResourceRecord :=
  { evilRecord with
    name := DnsName.ofLabels [labelOf "00000000000000000000000000000000", labelOf "test"] }

theorem victim_denotes : Denotes "victim.test".toList [labelOf "test", labelOf "victim"] := by
  have h := denotes_pathText (p := [labelOf "test", labelOf "victim"])
    ⟨⟨by decide, by decide, by decide⟩, by decide⟩
  exact h

/-- **Two denials of `victim.test`, one from the zone `evil` and one from the zone `example`.** -/
theorem denial_leaves_zone :
    ((parseSections evilPacket).map Sections.records = .ok [evilRecord] ∧
      nsec3DenialResult victimHash [evilRecord] "victim.test".toList typeA = .ok .noData ∧
      ¬ Nsec3StaysInZone victimHash [evilRecord] "victim.test".toList typeA) ∧
    (parseSections lastPacket).map Sections.records = .ok [lastRecord] ∧
      nsecDenialResult lastPacket [lastRecord] "victim.test".toList typeA = .ok .nxDomain ∧
      ¬ NsecStaysInZone lastPacket [lastRecord] "victim.test".toList typeA := by
  have hnsec3 : nsec3DenialResult victimHash [evilRecord] "victim.test".toList typeA =
      .ok .noData := by decide +kernel
  have hnsec : nsecDenialResult lastPacket [lastRecord] "victim.test".toList typeA =
      .ok .nxDomain := by decide +kernel
  refine ⟨⟨by decide +kernel, hnsec3, fun h => ?_⟩, by decide +kernel, hnsec, fun h => ?_⟩
  · obtain ⟨entry, hentry, hzone⟩ := h .noData hnsec3 (by simp)
    have hdenial : nsec3Denial victimHash [evilRecord] "victim.test".toList typeA =
        .ok (some (⟨"evil".toList, replicate 20 0, ⟨1, 0, 0, [], replicate 20 1, [15]⟩⟩,
          .noData)) := by
      decide +kernel
    cases hdenial.symm.trans hentry
    revert hzone
    decide +kernel
  · have hfrom := h hnsec
    revert hfrom
    decide +kernel

/-- Behind a record of its own zone the other record does no harm. -/
theorem denial_stays_in_zone_iff_victim :
    nsec3DenialResult victimHash [ownRecord, evilRecord] "victim.test".toList typeA = .ok .noData ∧
      HitsBacked victimHash [ownRecord, evilRecord] "victim.test".toList typeA
        [labelOf "test", labelOf "victim"] := by
  have hresult : nsec3DenialResult victimHash [ownRecord, evilRecord] "victim.test".toList typeA =
      .ok .noData := by decide +kernel
  have hstays : Nsec3StaysInZone victimHash [ownRecord, evilRecord] "victim.test".toList typeA := by
    intro result hresult' _
    cases hresult.symm.trans hresult'
    exact ⟨⟨"test".toList, replicate 20 0, ⟨1, 0, 0, [], replicate 20 1, [15]⟩⟩, by decide +kernel,
      by decide +kernel⟩
  refine ⟨hresult,
    (denial_stays_in_zone_iff victimHash evilPacket [ownRecord, evilRecord] _ typeA ?_
    victim_denotes).1.mp hstays⟩
  intro r hr
  rcases mem_cons.mp hr with rfl | hr
  · exact ⟨_, ⟨by decide +kernel, by decide +kernel, by decide +kernel⟩, rfl⟩
  · rw [mem_singleton.mp hr]
    exact ⟨_, ⟨by decide +kernel, by decide +kernel, by decide +kernel⟩, rfl⟩

end RustdResolved.Dnssec.DenialZone
