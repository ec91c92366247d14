import Mathlib.Data.List.Infix
import Mathlib.Data.List.Lex
import Mathlib.Order.Lattice

/-! # Prefix trees under the lexicographic order

Words over a linear order are the nodes of a tree: `p <+: n` says that `n` is `p` or lies below it.
The lexicographic order lists such a tree parent first, and the words at or below `p` follow each
other without a gap (`prefix_convex`).

`lcp a b` is the deepest node above both `a` and `b`. -/

namespace RustdResolved.Lib.PrefixOrder

open List

variable {α : Type*}

/-! ### Subtrees are intervals -/

theorem prefix_antisymm {a b : List α} (h : a <+: b) (h' : b <+: a) : a = b :=
  h.eq_of_length (Nat.le_antisymm h.length_le h'.length_le)

section
variable [LinearOrder α] {p n a b : List α}

theorem le_of_isPrefix (h : p <+: n) : p ≤ n := by
  obtain ⟨s, rfl⟩ := h
  refine not_lt.mp fun hlt => ?_
  induction p with
  | nil => simp at hlt
  | cons x p ih =>
    rw [cons_append, cons_lt_cons_iff] at hlt
    rcases hlt with hlt | ⟨-, hlt⟩
    · exact lt_irrefl x hlt
    · exact ih hlt

theorem lt_of_isPrefix (h : p <+: n) (hne : p ≠ n) : p < n :=
  lt_of_le_of_ne (le_of_isPrefix h) hne

/-- **A subtree is an interval**: what lies between two members is a member. -/
theorem prefix_convex : ∀ {a b c : List α}, p <+: a → p <+: c → a ≤ b → b ≤ c → p <+: b := by
  induction p with
  | nil => intro a b c _ _ _ _; exact nil_prefix
  | cons x p ih =>
    rintro _ b _ ⟨a, rfl⟩ ⟨c, rfl⟩ hab hbc
    rw [cons_append] at hab hbc
    rcases b with _ | ⟨y, b⟩
    · exact absurd (nil_lt_cons x (p ++ a)) (not_lt.mpr hab)
    have hab' := not_lt.mpr hab
    have hbc' := not_lt.mpr hbc
    rw [cons_lt_cons_iff, not_or, not_and] at hab' hbc'
    -- the heads agree, because `x ≤ y ≤ x`
    obtain rfl : x = y := le_antisymm (not_lt.mp hab'.1) (not_lt.mp hbc'.1)
    rw [cons_prefix_cons]
    exact ⟨rfl, ih (prefix_append p a) (prefix_append p c) (not_lt.mp (hab'.2 rfl))
      (not_lt.mp (hbc'.2 rfl))⟩

/-- Compares two words by their first difference, and by their lengths if there is none. -/
def scanCmp (a b : List α) : Ordering :=
  match (a.zip b).find? fun pair => pair.1 != pair.2 with
  | some (x, y) => if x < y then .lt else .gt
  | none => compare a.length b.length

/-- The scan for the first difference computes the lexicographic order. -/
theorem scanCmp_eq : ∀ a b : List α, scanCmp a b = if a < b then .lt else if b < a then .gt else .eq
  | [], [] => by simp [scanCmp]
  | [], y :: b => by simp [scanCmp, Nat.compare_eq_lt]
  | x :: a, [] => by simp [scanCmp, Nat.compare_eq_gt]
  | x :: a, y :: b => by
    have ih := scanCmp_eq a b
    by_cases h : x = y
    · subst h
      simp only [cons_lt_cons_iff, lt_irrefl, false_or, true_and]
      rw [← ih]
      simp [scanCmp, Nat.compare_eq_ite_lt]
    · simp only [scanCmp, cons_lt_cons_iff, h, Ne.symm h, false_and, or_false]
      rcases lt_or_gt_of_ne h with hlt | hgt
      · simp [h, hlt]
      · simp [h, hgt, hgt.not_gt]

theorem scanCmp_lt_iff : scanCmp a b = .lt ↔ a < b := by
  rw [scanCmp_eq]
  split_ifs <;> simp_all

theorem scanCmp_gt_iff : scanCmp a b = .gt ↔ b < a := by
  rw [scanCmp_eq]
  split_ifs with h h'
  · simp [h.not_gt]
  · simp [h']
  · simp [h']

theorem scanCmp_eq_iff : scanCmp a b = .eq ↔ a = b := by
  rw [scanCmp_eq]
  split_ifs with h h'
  · simp [h.ne]
  · simp [h'.ne']
  · simp [le_antisymm (not_lt.mp h') (not_lt.mp h)]

end

/-! ### The longest common prefix -/

section
variable [DecidableEq α]

/-- The longest common prefix of two words. -/
def lcp : List α → List α → List α
  | x :: xs, y :: ys => if x = y then x :: lcp xs ys else []
  | _, _ => []

@[simp] theorem lcp_nil_left (b : List α) : lcp [] b = [] := by simp [lcp]

@[simp] theorem lcp_nil_right (a : List α) : lcp a [] = [] := by cases a <;> simp [lcp]

theorem lcp_cons_cons (x y : α) (xs ys : List α) :
    lcp (x :: xs) (y :: ys) = if x = y then x :: lcp xs ys else [] := by simp [lcp]

theorem lcp_prefix_left : ∀ a b : List α, lcp a b <+: a
  | [], b => by simp
  | x :: xs, [] => by simp
  | x :: xs, y :: ys => by
    rw [lcp_cons_cons]
    split_ifs with h
    · rw [List.cons_prefix_cons]; exact ⟨rfl, lcp_prefix_left xs ys⟩
    · exact List.nil_prefix

theorem lcp_prefix_right : ∀ a b : List α, lcp a b <+: b
  | [], b => by simp
  | x :: xs, [] => by simp
  | x :: xs, y :: ys => by
    rw [lcp_cons_cons]
    split_ifs with h
    · rw [List.cons_prefix_cons]; exact ⟨h, lcp_prefix_right xs ys⟩
    · exact List.nil_prefix

/-- **The longest common prefix is the longest.** -/
theorem prefix_lcp : ∀ {p a b : List α}, p <+: a → p <+: b → p <+: lcp a b
  | [], a, b, _, _ => List.nil_prefix
  | z :: p, a, b, ha, hb => by
    obtain ⟨a', rfl⟩ := ha
    obtain ⟨b', rfl⟩ := hb
    rw [cons_append, cons_append, lcp_cons_cons, if_pos rfl, cons_prefix_cons]
    exact ⟨rfl, prefix_lcp (prefix_append p a') (prefix_append p b')⟩

/-- Two words agree as long as the scan of their pairs goes on. -/
theorem takeWhile_zip_eq_lcp [BEq α] [LawfulBEq α] : ∀ a b : List α,
    ((a.zip b).takeWhile fun pair => pair.1 == pair.2).map Prod.fst = lcp a b
  | [], b => by simp
  | x :: xs, [] => by simp
  | x :: xs, y :: ys => by
    rw [lcp_cons_cons, List.zip_cons_cons, List.takeWhile_cons]
    by_cases h : x = y
    · simp [h, takeWhile_zip_eq_lcp xs ys]
    · simp [h]

end

end RustdResolved.Lib.PrefixOrder
