import RustdResolved.Dnssec.NameText

/-! # The helpers of the validator as operations on paths

For texts that stand for paths: equality of names is equality of paths
(`dnsNamesEqual_iff`), a name is at or below another when its path extends the other's
(`dnsNameIsAtOrBelow_iff`), the parent drops the last label (`dnsNameParent_eq`), the
common suffix is the longest common prefix of the paths (`dnsNameCommonSuffix_eq`), and the
ancestors are the prefixes of the path, the shortest first (`dnsNameAncestors_eq`). -/

namespace RustdResolved.Dnssec.NamePath

open List Lib.PrefixOrder Wire Octets Name Presentation NameText

variable {t u front : Text} {p q : Path}

theorem pathText_nil : pathText [] = ['.'] := rfl

theorem pathText_eq_dot_iff (h : IsPath p) : pathText p = ['.'] ↔ p = [] := by
  rw [← pathText_nil]
  exact ⟨fun heq => pathText_injective h isPath_nil heq, fun heq => by rw [heq]⟩

/-! ### The labels of a text -/

theorem splitLabels_pathText (h : IsPath p) :
    splitLabels (pathText p) = p.reverse.map escapeText := by
  unfold splitLabels
  split_ifs with hroot
  · rw [(pathText_eq_dot_iff h).mp hroot]
    rfl
  · have hne : p.reverse.map escapeText ≠ [] := by
      intro hnil
      refine hroot ((pathText_eq_dot_iff h).mpr ?_)
      simpa using hnil
    exact splitOn_nameText (by simpa using hne)

theorem splitLabels_normalizeDnsName (h : Denotes t p) :
    splitLabels (normalizeDnsName t) = p.reverse.map escapeText := by
  rw [h.normalized, splitLabels_pathText h.isPath]

theorem joinLabels_map_escapeText (labels : List Bytes) :
    joinLabels (labels.map escapeText) = nameText labels := rfl

/-- Different labels of paths have different texts. -/
theorem escapeText_injOn (hp : IsPath p) (hq : IsPath q) {a b : Bytes} (ha : a ∈ p) (hb : b ∈ q)
    (h : escapeText a = escapeText b) : a = b := by
  have hsingle : ∀ {r : Path} {l : Bytes}, IsPath r → l ∈ r → IsPath [l] := by
    intro r l hr hl
    refine ⟨?_, fun x hx => by rw [mem_singleton.mp hx]; exact hr.lower l hl⟩
    have hinfix : [l] <:+: r.reverse := by
      obtain ⟨s, e, hse⟩ := append_of_mem (mem_reverse.mpr hl)
      exact ⟨s, e, by simp [hse]⟩
    exact ValidLabels.of_infix hr.valid hinfix
  have := pathText_injective (hsingle hp ha) (hsingle hq hb)
    (by simpa [pathText, nameText_singleton] using h)
  exact singleton_inj.mp this

/-! ### Equality and containment -/

/-- **Names are equal when their paths are.** -/
theorem dnsNamesEqual_iff (ht : Denotes t p) (hu : Denotes u q) :
    dnsNamesEqual t u = true ↔ p = q := by
  unfold dnsNamesEqual
  rw [ht.normalized, hu.normalized, beq_iff_eq]
  exact ⟨fun h => pathText_injective ht.isPath hu.isPath h, fun h => by rw [h]⟩

/-- What ends in a dot and the text of a path is the text of a longer path. -/
theorem isPrefix_of_append_text (hp : IsPath p) (hq : IsPath q)
    (h : front ++ '.' :: pathText q = pathText p) : q <+: p := by
  by_cases hqroot : q = []
  · rw [hqroot]
    exact nil_prefix
  have hproot : p ≠ [] := by
    rintro rfl
    have hlen := congrArg length h
    have hpos : 0 < (pathText q).length := length_pos_of_ne_nil (nameText_ne_nil hq.valid.nonempty)
    simp only [length_append, length_cons, pathText_nil, length_nil] at hlen
    omega
  have hsplit : ∀ {r : Path}, IsPath r → r ≠ [] →
      (pathText r).splitOn '.' = r.reverse.map escapeText := by
    intro r hr hne
    have := splitLabels_pathText hr
    rwa [splitLabels, if_neg (fun heq => hne ((pathText_eq_dot_iff hr).mp heq))] at this
  have hlabels : p.reverse.map escapeText = front.splitOn '.' ++ q.reverse.map escapeText := by
    rw [← hsplit hp hproot, ← hsplit hq hqroot, ← h]
    exact splitOnP_append_cons front (pathText q) (by simp)
  obtain ⟨a, b, hab, -, hb⟩ := map_eq_append_iff.mp hlabels
  have hbpath : IsPath b.reverse := by
    refine hp.of_isPrefix ⟨a.reverse, ?_⟩
    rw [← reverse_append, ← hab, reverse_reverse]
  have hbq : b.reverse = q := by
    refine pathText_injective hbpath hq ?_
    rw [pathText, pathText, reverse_reverse, nameText, hb]
    rfl
  exact ⟨a.reverse, by rw [← hbq, ← reverse_append, ← hab, reverse_reverse]⟩

/-- **A name is at or below another when its path extends the other's.** -/
theorem dnsNameIsAtOrBelow_iff (ht : Denotes t p) (hu : Denotes u q) :
    dnsNameIsAtOrBelow t u = true ↔ q <+: p := by
  unfold dnsNameIsAtOrBelow
  simp only [ht.normalized, hu.normalized, Bool.or_eq_true, beq_iff_eq,
    pathText_eq_dot_iff hu.isPath]
  constructor
  · rintro ((rfl | heq) | hbelow)
    · exact nil_prefix
    · rw [pathText_injective ht.isPath hu.isPath heq]
    · cases hsuffix : (pathText q).isSuffixOf? (pathText p) with
      | none => simp [hsuffix] at hbelow
      | some front =>
        simp only [hsuffix, beq_iff_eq] at hbelow
        obtain ⟨init, rfl⟩ := getLast?_eq_some_iff.mp hbelow
        have := isSuffixOf?_eq_some_iff_append_eq.mp hsuffix
        exact isPrefix_of_append_text ht.isPath hu.isPath (by simpa using this)
  · rintro ⟨r, rfl⟩
    by_cases hq : q = []
    · exact Or.inl (Or.inl hq)
    by_cases hr : r = []
    · exact Or.inl (Or.inr (by rw [hr, append_nil]))
    right
    have htext : (nameText r.reverse ++ ['.']) ++ pathText q = pathText (q ++ r) := by
      rw [pathText, pathText, reverse_append,
        nameText_append (by simpa using hr) (by simpa using hq)]
      simp
    rw [isSuffixOf?_eq_some_iff_append_eq.mpr htext]
    simp

/-! ### Parents, common suffixes and ancestors -/

theorem splitOnce_of_not_mem (h : '.' ∉ front) : splitOnce front = none := by
  have : front.dropWhile (· != '.') = [] := by
    rw [dropWhile_eq_nil_iff]
    intro c hc
    simp only [bne_iff_ne]
    rintro rfl
    exact h hc
  rw [splitOnce, this]

theorem splitOnce_append (h : '.' ∉ front) (rest : Text) :
    splitOnce (front ++ '.' :: rest) = some (front, rest) := by
  have hne : ∀ c ∈ front, (c != '.') = true := by
    intro c hc
    simp only [bne_iff_ne]
    rintro rfl
    exact h hc
  rw [splitOnce, dropWhile_append_of_pos hne, takeWhile_append_of_pos hne]
  simp

/-- **The parent of a name drops the last label of its path.** -/
theorem dnsNameParent_eq (ht : Denotes t p) :
    dnsNameParent t = if p = [] then none else some (pathText p.dropLast) := by
  unfold dnsNameParent
  rw [ht.normalized]
  simp only [pathText_eq_dot_iff ht.isPath]
  split_ifs with hroot
  · rfl
  · obtain ⟨init, last, rfl⟩ := eq_nil_or_concat p |>.resolve_left hroot
    have hdot := dot_notMem_escapeText last
    rw [concat_eq_append, dropLast_concat, pathText, reverse_append,
      reverse_singleton, singleton_append]
    by_cases hinit : init = []
    · rw [hinit, reverse_nil, nameText_singleton, splitOnce_of_not_mem hdot]
      rfl
    · rw [nameText_cons last (by simpa using hinit), splitOnce_append hdot]
      rfl

theorem lcp_map_escapeText (hp : IsPath p) (hq : IsPath q) :
    lcp (p.map escapeText) (q.map escapeText) = (lcp p q).map escapeText := by
  have hmap : ∀ {p q : Path}, (∀ a ∈ p, ∀ b ∈ q, escapeText a = escapeText b → a = b) →
      lcp (p.map escapeText) (q.map escapeText) = (lcp p q).map escapeText := by
    intro p
    induction p with
    | nil => simp
    | cons a p ih =>
      intro q hinj
      cases q with
      | nil => simp
      | cons b q =>
        have hab : escapeText a = escapeText b ↔ a = b :=
          ⟨hinj a (by simp) b (by simp), fun h => by rw [h]⟩
        simp only [map_cons, lcp_cons_cons, hab]
        split_ifs
        · rw [map_cons, ih fun x hx y hy => hinj x (by simp [hx]) y (by simp [hy])]
        · rfl
  exact hmap fun a ha b hb => escapeText_injOn hp hq ha hb

/-- **The common suffix of two names is the longest common prefix of their paths.** -/
theorem dnsNameCommonSuffix_eq (ht : Denotes t p) (hu : Denotes u q) :
    dnsNameCommonSuffix t u = pathText (lcp p q) := by
  unfold dnsNameCommonSuffix
  simp only [splitLabels_normalizeDnsName ht, splitLabels_normalizeDnsName hu]
  have hrev : ∀ r : Path, (r.reverse.map escapeText).reverse = r.map escapeText := by simp
  rw [hrev, hrev, takeWhile_zip_eq_lcp, lcp_map_escapeText ht.isPath hu.isPath, ← map_reverse]
  rfl

/-- **The ancestors of a name are the prefixes of its path, from the root down.** -/
theorem dnsNameAncestors_eq (ht : Denotes t p) :
    dnsNameAncestors t = (List.range (p.length + 1)).map fun k => pathText (p.take k) := by
  unfold dnsNameAncestors
  simp only [splitLabels_normalizeDnsName ht, length_map, length_reverse]
  rw [range_succ_eq_map, map_cons, map_map, take_zero, pathText_nil,
    range_eq_range', reverse_range', map_map, ← range_eq_range']
  congr 1
  refine map_congr_left fun k hk => ?_
  rw [mem_range] at hk
  simp only [Function.comp_apply, ← map_drop, joinLabels_map_escapeText, pathText]
  congr 1
  rw [show 0 + p.length - 1 - k = p.length - (k + 1) by omega, drop_reverse]
  congr 2
  omega

end RustdResolved.Dnssec.NamePath
