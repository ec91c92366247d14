import RustdResolved.Lib.Chain
import RustdResolved.Lib.PrefixOrder

/-! # Finite sets of tree nodes and their chain

A finite set `S` of words occupies the nodes at or above its members. What the link of two
consecutive members covers tells where in the tree the covered node is: it is occupied only when it
lies above the right end of the link (`isPrefix_right_of_occupied`), and every occupied node above
it is above one of the two ends (`isPrefix_of_occupied`). So its deepest occupied ancestor is found
from the two ends alone (`encloser_right`). -/

namespace RustdResolved.Lib.PrefixTree

open PrefixOrder Chain

variable {α : Type*}

/-- The node is a member of the set or lies above one. -/
def Occupied (S : Finset (List α)) (n : List α) : Prop := ∃ o ∈ S, n <+: o

/-- `e` is the deepest occupied node at or above `n`. -/
structure Encloser (S : Finset (List α)) (n e : List α) : Prop where
  ancestor : e <+: n
  occupied : Occupied S e
  deepest : ∀ p, p <+: n → Occupied S p → p <+: e

theorem Encloser.unique {S : Finset (List α)} {n e e' : List α} (h : Encloser S n e)
    (h' : Encloser S n e') : e = e' :=
  prefix_antisymm (h'.deepest e h.ancestor h.occupied) (h.deepest e' h'.ancestor h'.occupied)

variable [LinearOrder α] {S : Finset (List α)} {o x n e r : List α}

/-- **A covered node that is occupied lies strictly between the ends, above the right one.** -/
theorem isPrefix_right_of_occupied (h : Link S o x) (hr : r ∈ S) (hrn : r <+: n) (hc : Covers o x n)
    (hn : Occupied S n) : o < n ∧ n < x ∧ n <+: x := by
  obtain ⟨w, hw, hnw⟩ := hn
  have hnot := h.not_mem_of_covers hc
  have hlt : n < w := lt_of_isPrefix hnw fun heq => hnot (heq ▸ hw)
  rcases hc with ⟨-, hon, hnx⟩ | ⟨hxo, hout⟩ | ⟨rfl, hne⟩
  · have hxw : x ≤ w := h.le_of_lt hw (hon.trans hlt)
    exact ⟨hon, hnx, prefix_convex (List.prefix_refl n) hnw hnx.le hxw⟩
  · obtain ⟨htop, hbot⟩ := h.closes hxo.le
    rcases hout with hon | hnx
    · exact absurd (hon.trans hlt) (not_lt.mpr (htop w hw))
    · exact absurd ((hbot r hr).trans (le_of_isPrefix hrn)) (not_le.mpr hnx)
  · -- the only member is the root, and nothing lies between the root and itself
    obtain ⟨htop, hbot⟩ := h.closes le_rfl
    have hwo : w = o := le_antisymm (htop w hw) (hbot w hw)
    have hro : r = o := le_antisymm (htop r hr) (hbot r hr)
    rw [hwo] at hnw
    rw [hro] at hrn
    exact absurd (prefix_antisymm hnw hrn) hne

/-- **An occupied node above a covered one is above an end of the link.** -/
theorem isPrefix_of_occupied (h : Link S o x) (hc : Covers o x n) (hen : e <+: n)
    (he : Occupied S e) : e <+: o ∨ e <+: x := by
  obtain ⟨w, hw, hew⟩ := he
  have hleft : w ≤ o → o < n → e <+: o := fun hwo hon => prefix_convex hew hen hwo hon.le
  have hright : n < x → x ≤ w → e <+: x := fun hnx hxw => prefix_convex hen hew hnx.le hxw
  rcases hc with ⟨-, hon, hnx⟩ | ⟨hxo, hout⟩ | ⟨rfl, -⟩
  · rcases le_or_gt w o with hwo | how
    · exact Or.inl (hleft hwo hon)
    · exact Or.inr (hright hnx (h.le_of_lt hw how))
  · obtain ⟨htop, hbot⟩ := h.closes hxo.le
    rcases hout with hon | hnx
    · exact Or.inl (hleft (htop w hw) hon)
    · exact Or.inr (hright hnx (hbot w hw))
  · obtain ⟨htop, hbot⟩ := h.closes le_rfl
    rw [le_antisymm (htop w hw) (hbot w hw)] at hew
    exact Or.inl hew

/-- The common part with the right end is the deepest occupied ancestor, unless the left end lies
below it. -/
theorem encloser_right [DecidableEq α] (h : Link S o x) (hc : Covers o x n) (ho : ¬ lcp n x <+: o) :
    Encloser S n (lcp n x) := by
  refine ⟨lcp_prefix_left n x, ⟨x, h.right_mem, lcp_prefix_right n x⟩, fun p hpn hp => ?_⟩
  rcases isPrefix_of_occupied h hc hpn hp with hpo | hpx
  · rcases List.prefix_or_prefix_of_prefix hpn (lcp_prefix_left n x) with hle | hge
    · exact hle
    · exact absurd (hge.trans hpo) ho
  · exact prefix_lcp hpn hpx

/-- A member between the common part of the ends of a link and its right end is that common part. -/
theorem eq_lcp_of_mem [DecidableEq α] (h : Link S o x) (hr : r ∈ S) (hrn : r <+: n) (hn : n ∈ S)
    (hnx : n <+: x) (hne : n ≠ x) (hlcp : lcp o x <+: n) : n = lcp o x := by
  have hlt : n < x := lt_of_isPrefix hnx hne
  have hno : n ≤ o := by
    refine not_lt.mp fun hon => ?_
    exact absurd (h.le_of_lt hn hon) (not_le.mpr hlt)
  have hox : o < x := by
    refine not_le.mp fun hxo => ?_
    have hxr := (h.closes hxo).2 r hr
    exact absurd (hxr.trans (le_of_isPrefix hrn)) (not_le.mpr hlt)
  have hpre : n <+: o := prefix_convex (List.prefix_refl n) hnx hno hox.le
  exact prefix_antisymm (prefix_lcp hpre hnx) hlcp

end RustdResolved.Lib.PrefixTree
