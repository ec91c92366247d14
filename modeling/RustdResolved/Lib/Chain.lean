import Mathlib.Data.Finset.Basic
import Mathlib.Order.Basic

/-! # Cyclic chains of a finite set

The members of a finite set of a linear order are linked in a circle: each one to the next larger
one, and the largest back to the smallest. A link `(o, x)` *covers* what lies strictly between its
ends, where the link that closes the circle runs over the top and the bottom of the order, and the
only link of a one-element circle runs over everything but its own end. A covered value is not a
member (`Link.not_mem_of_covers`). -/

namespace RustdResolved.Lib.Chain

variable {α : Type*} [LinearOrder α]

/-- What the link `(o, x)` covers. -/
def Covers (o x n : α) : Prop :=
  (o < x ∧ o < n ∧ n < x) ∨ (x < o ∧ (o < n ∨ n < x)) ∨ (o = x ∧ n ≠ o)

/-- The member `o` of `S` is linked to `x`. -/
structure Link (S : Finset α) (o x : α) : Prop where
  left_mem : o ∈ S
  right_mem : x ∈ S
  next : (o < x ∧ ∀ y ∈ S, o < y → x ≤ y) ∨ ((∀ y ∈ S, y ≤ o) ∧ ∀ y ∈ S, x ≤ y)

variable {S : Finset α} {o x n : α}

/-- The link that closes the circle joins the largest member to the smallest. -/
theorem Link.closes (h : Link S o x) (hle : x ≤ o) : (∀ y ∈ S, y ≤ o) ∧ ∀ y ∈ S, x ≤ y := by
  rcases h.next with ⟨hlt, -⟩ | hc
  · exact absurd hlt (not_lt.mpr hle)
  · exact hc

/-- A link jumps over no member. -/
theorem Link.le_of_lt (h : Link S o x) {y : α} (hy : y ∈ S) (hoy : o < y) : x ≤ y := by
  rcases h.next with ⟨-, hn⟩ | ⟨htop, -⟩
  · exact hn y hy hoy
  · exact absurd hoy (not_lt.mpr (htop y hy))

/-- **A covered value is not a member.** -/
theorem Link.not_mem_of_covers (h : Link S o x) (hc : Covers o x n) : n ∉ S := by
  intro hn
  rcases hc with ⟨-, hon, hnx⟩ | ⟨hxo, hout⟩ | ⟨rfl, hne⟩
  · exact absurd (h.le_of_lt hn hon) (not_le.mpr hnx)
  · obtain ⟨htop, hbot⟩ := h.closes hxo.le
    rcases hout with hout | hout
    · exact absurd (htop n hn) (not_le.mpr hout)
    · exact absurd (hbot n hn) (not_le.mpr hout)
  · obtain ⟨htop, hbot⟩ := h.closes le_rfl
    exact hne (le_antisymm (htop n hn) (hbot n hn))

end RustdResolved.Lib.Chain
