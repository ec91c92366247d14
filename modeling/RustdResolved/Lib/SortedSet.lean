import Mathlib.Data.List.Destutter
import Mathlib.Data.List.Sort

/-! # Sorted lists without repetitions

An ordered set is the sorted list of its elements. `sortedSet` sorts a list by a key and leaves out
the repetitions; it has the elements of the list. -/

namespace RustdResolved.Lib.SortedSet

open List

universe u v
variable {α : Type u} [DecidableEq α]

/-- Neighbours that are equal are one, so nothing is lost. -/
theorem mem_destutter_ne {a : α} (l : List α) : a ∈ l.destutter (· ≠ ·) ↔ a ∈ l := by
  have hfrom : ∀ (l : List α) (b : α), a ∈ l.destutter' (· ≠ ·) b ↔ a = b ∨ a ∈ l := by
    intro l
    induction l with
    | nil => simp
    | cons c l ih =>
      intro b
      by_cases hbc : b = c
      · subst hbc
        rw [destutter'_cons_neg _ (by simp), ih]
        simp
      · rw [destutter'_cons_pos _ hbc, mem_cons, ih, mem_cons]
  cases l with
  | nil => simp
  | cons b l => rw [destutter_cons', hfrom, mem_cons]

/-- The elements of a list in the order of their keys, each once. -/
def sortedSet {κ : Type v} [LinearOrder κ] (key : α → κ) (l : List α) : List α :=
  (l.insertionSort fun a b => key a ≤ key b).destutter (· ≠ ·)

@[simp] theorem mem_sortedSet {κ : Type v} [LinearOrder κ] {key : α → κ} {a : α} {l : List α} :
    a ∈ sortedSet key l ↔ a ∈ l := by
  rw [sortedSet, mem_destutter_ne, mem_insertionSort]

/-- If no two elements have one key, the keys are in strict order. -/
theorem pairwise_lt_sortedSet {κ : Type v} [LinearOrder κ] {key : α → κ}
    (hkey : Function.Injective key) (l : List α) :
    ((sortedSet key l).map key).Pairwise (· < ·) := by
  have hle := (pairwise_insertionSort (fun a b => key a ≤ key b) l).sublist
    (destutter_sublist (· ≠ ·) _)
  have hne := isChain_destutter (· ≠ ·) (l.insertionSort fun a b => key a ≤ key b)
  refine isChain_iff_pairwise.mp ((isChain_map key).mpr (isChain_iff_getElem.mpr fun i hi => ?_))
  exact lt_of_le_of_ne (isChain_iff_getElem.mp hle.isChain i hi)
    (hkey.ne (isChain_iff_getElem.mp hne i hi))

theorem nodup_sortedSet {κ : Type v} [LinearOrder κ] {key : α → κ}
    (hkey : Function.Injective key) (l : List α) : (sortedSet key l).Nodup :=
  (pairwise_lt_sortedSet hkey l).nodup.of_map

/-! ### Lists in strict order -/

section
variable {α : Type u} [LinearOrder α] {l₁ l₂ : List α}

theorem pairwise_lt_destutter [DecidableRel (α := α) (· ≠ ·)] (l : List α) :
    ((l.insertionSort (· ≤ ·)).destutter (· ≠ ·)).Pairwise (· < ·) := by
  convert pairwise_lt_sortedSet Function.injective_id l using 1
  rw [map_id, sortedSet]
  congr

/-- There is one list in strict order with given elements. -/
theorem eq_of_pairwise_lt (h₁ : l₁.Pairwise (· < ·)) (h₂ : l₂.Pairwise (· < ·))
    (hmem : ∀ a, a ∈ l₁ ↔ a ∈ l₂) : l₁ = l₂ :=
  ((perm_ext_iff_of_nodup h₁.nodup h₂.nodup).mpr hmem).eq_of_pairwise
    (fun _ _ _ _ hab hba => absurd hab (lt_asymm hba)) h₁ h₂

end

end RustdResolved.Lib.SortedSet
