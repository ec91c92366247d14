import Mathlib.Data.List.Basic
import Mathlib.Data.List.Nodup

/-! # Lists that are filled without repetitions

`pushNew` appends what a list does not hold yet. Such lists are filled from others, and filtering
what is filled is the same as filling from what is filtered. -/

namespace RustdResolved.Lib.Distinct

open List

universe u
variable {α : Type u}

section

variable [DecidableEq α] {output : List α} {y : α}

section
variable (output : List α)

/-- Appends `x`, unless it is there already. -/
def pushNew (x : α) : List α := if x ∈ output then output else output ++ [x]

/-- Appends those of `xs` that are not there already. -/
def pushAllNew (xs : List α) : List α := xs.foldl pushNew output

@[simp] theorem pushAllNew_nil : pushAllNew output [] = output := rfl

@[simp] theorem pushAllNew_cons (x : α) (xs : List α) :
    pushAllNew output (x :: xs) = pushAllNew (pushNew output x) xs := rfl

end

theorem mem_pushNew {x : α} : y ∈ pushNew output x ↔ y ∈ output ∨ y = x := by
  unfold pushNew
  split_ifs with hx
  · constructor
    · exact Or.inl
    · rintro (hy | rfl)
      · exact hy
      · exact hx
  · simp

@[simp] theorem mem_pushAllNew : ∀ {xs output : List α},
    y ∈ pushAllNew output xs ↔ y ∈ output ∨ y ∈ xs
  | [], output => by simp
  | x :: xs, output => by
    rw [pushAllNew_cons, mem_pushAllNew, mem_pushNew, List.mem_cons, or_assoc]

theorem nodup_pushNew (h : output.Nodup) (x : α) : (pushNew output x).Nodup := by
  unfold pushNew
  split_ifs with hx
  · exact h
  · rw [← concat_eq_append]
    exact h.concat hx

theorem nodup_pushAllNew : ∀ {output : List α} (_ : output.Nodup) (xs : List α),
    (pushAllNew output xs).Nodup
  | _, h, [] => h
  | _, h, x :: xs => nodup_pushAllNew (nodup_pushNew h x) xs

theorem pushAllNew_of_subset : ∀ {xs : List α}, (∀ x ∈ xs, x ∈ output) →
    pushAllNew output xs = output
  | [], _ => rfl
  | x :: xs, h => by
    have hx : pushNew output x = output := if_pos (h x mem_cons_self)
    rw [pushAllNew_cons, hx]
    exact pushAllNew_of_subset fun y hy => h y (mem_cons_of_mem x hy)

theorem prefix_pushAllNew : ∀ (output xs : List α), output <+: pushAllNew output xs
  | output, [] => List.prefix_rfl
  | output, x :: xs => by
    have hx : output <+: pushNew output x := by
      unfold pushNew
      split_ifs
      · exact prefix_rfl
      · exact prefix_append output [x]
    exact hx.trans (prefix_pushAllNew _ xs)

/-- Nothing is appended when everything is there already, and only then. -/
theorem length_pushAllNew_eq_iff {xs : List α} :
    (pushAllNew output xs).length = output.length ↔ ∀ x ∈ xs, x ∈ output := by
  constructor
  · intro h x hx
    rw [(prefix_pushAllNew output xs).eq_of_length h.symm]
    exact mem_pushAllNew.mpr (Or.inr hx)
  · intro h
    rw [pushAllNew_of_subset h]

theorem filter_pushAllNew (p : α → Bool) : ∀ (output xs : List α),
    (pushAllNew output xs).filter p = pushAllNew (output.filter p) (xs.filter p)
  | output, [] => rfl
  | output, x :: xs => by
    rw [pushAllNew_cons, filter_pushAllNew p]
    by_cases hp : p x = true
    · rw [List.filter_cons_of_pos hp, pushAllNew_cons]
      congr 1
      unfold pushNew
      by_cases hx : x ∈ output
      · rw [if_pos hx, if_pos (List.mem_filter.mpr ⟨hx, hp⟩)]
      · rw [if_neg hx, if_neg (fun h => hx (List.mem_filter.mp h).1), List.filter_append,
          List.filter_cons_of_pos hp, List.filter_nil]
    · rw [List.filter_cons_of_neg hp]
      congr 1
      unfold pushNew
      split_ifs
      · rfl
      · rw [List.filter_append, List.filter_cons_of_neg hp, List.filter_nil, List.append_nil]

end

/-! ### Places among the like -/

/-- An element with a property stands, among those with the property, after as many as come before
it. -/
theorem getElem?_filter_countP {p : α → Bool} : ∀ {xs : List α} {i : Nat} {x : α},
    xs[i]? = some x → p x = true → (xs.filter p)[(xs.take i).countP p]? = some x
  | [], i, x, h, _ => by simp at h
  | y :: ys, 0, x, h, hp => by
    cases h
    rw [List.filter_cons_of_pos hp]
    rfl
  | y :: ys, i + 1, x, h, hp => by
    have ih : (ys.filter p)[(ys.take i).countP p]? = some x :=
      getElem?_filter_countP (by simpa using h) hp
    by_cases hy : p y = true
    · rw [filter_cons_of_pos hy, take_succ_cons, countP_cons_of_pos hy,
        getElem?_cons_succ]
      exact ih
    · rw [filter_cons_of_neg hy, take_succ_cons, countP_cons_of_neg hy]
      exact ih

end RustdResolved.Lib.Distinct
