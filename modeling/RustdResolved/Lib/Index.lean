import RustdResolved.Lib.Distinct
import RustdResolved.Lib.Maps

/-! # Tables of a list of pairs

A pass over a list of pairs fills tables: one with all values of a key, each once and in order, or
one with its first value. This module says what such tables hold in terms of the list alone. -/

namespace RustdResolved.Lib.Index

open Distinct Maps

universe u v w
variable {α : Type u} {β : Type v}

/-- What a pass collects: each element adds its part, and a relation between the parts so far and
the state is kept. -/
theorem foldl_collects {ε : Type u} {σ : Type v} {ι : Type w} {Holds : List ε → σ → Prop}
    {step : σ → ι → σ} {part : ι → List ε}
    (hstep : ∀ entries state i, Holds entries state → Holds (entries ++ part i) (step state i))
    (is : List ι) (entries : List ε) (state : σ) (h : Holds entries state) :
    Holds (entries ++ is.flatMap part) (is.foldl step state) := by
  induction is generalizing entries state with
  | nil => simpa using h
  | cons i is ih =>
    have hrest := ih (entries ++ part i) (step state i) (hstep entries state i h)
    rwa [List.append_assoc, ← List.flatMap_cons] at hrest

variable [DecidableEq α] {entries : List (α × β)}

/-- The values that a list of pairs has for a key, in order. -/
def valuesAt (entries : List (α × β)) (key : α) : List β :=
  entries.filterMap fun entry => if entry.1 = key then some entry.2 else none

theorem mem_valuesAt {key : α} {value : β} :
    value ∈ valuesAt entries key ↔ (key, value) ∈ entries := by
  unfold valuesAt
  rw [List.mem_filterMap]
  constructor
  · rintro ⟨⟨other, found⟩, hmem, hvalue⟩
    split_ifs at hvalue with hkey
    cases hvalue
    exact hkey ▸ hmem
  · intro hmem
    exact ⟨(key, value), hmem, if_pos rfl⟩

theorem valuesAt_concat (entries : List (α × β)) (key : α) (value : β) (other : α) :
    valuesAt (entries ++ [(key, value)]) other =
      if key = other then valuesAt entries other ++ [value] else valuesAt entries other := by
  unfold valuesAt
  rw [List.filterMap_append]
  split_ifs with h
  · simp [h]
  · simp [h]

/-- Puts a first value in for a key. -/
def addFirst (m : FiniteMap α β) (key : α) (value : β) : FiniteMap α β :=
  if key ∈ m then m else m.insert key value

def HoldsFirst (m : FiniteMap α β) (entries : List (α × β)) : Prop :=
  ∀ key, m.lookup key = (valuesAt entries key).head?

theorem HoldsFirst.add {m : FiniteMap α β} (h : HoldsFirst m entries)
    (key : α) (value : β) : HoldsFirst (addFirst m key value) (entries ++ [(key, value)]) := by
  intro other
  have hown := h key
  rw [valuesAt_concat]
  unfold addFirst
  by_cases hother : key = other
  · subst hother
    rw [if_pos rfl]
    by_cases hmem : key ∈ m
    · obtain ⟨first, hfirst⟩ := Option.isSome_iff_exists.mp (AList.lookup_isSome.mpr hmem)
      rw [if_pos hmem, List.head?_append, ← hown, hfirst]
      rfl
    · have hnone : valuesAt entries key = [] := by
        rw [AList.lookup_eq_none.mpr hmem] at hown
        exact List.head?_eq_none_iff.mp hown.symm
      rw [if_neg hmem, AList.lookup_insert, hnone]
      rfl
  · rw [if_neg hother]
    split_ifs
    · exact h other
    · rw [AList.lookup_insert_ne (Ne.symm hother)]
      exact h other

variable [DecidableEq β]

/-- Adds a value to those of a key, unless it is there. -/
def addTo (m : FiniteMap α (List β)) (key : α) (value : β) : FiniteMap α (List β) :=
  m.insert key (pushNew ((m.lookup key).getD []) value)

/-- Values as a table has them: each once, and no entry without one. -/
def gather (values : List β) : Option (List β) :=
  if values = [] then none else some (pushAllNew [] values)

theorem getD_gather (values : List β) : (gather values).getD [] = pushAllNew [] values := by
  unfold gather
  split_ifs with h
  · rw [h]
    rfl
  · rfl

/-- The table holds the values of every key. -/
def IsIndex (m : FiniteMap α (List β)) (entries : List (α × β)) : Prop :=
  ∀ key, m.lookup key = gather (valuesAt entries key)

theorem IsIndex.add {m : FiniteMap α (List β)} (h : IsIndex m entries)
    (key : α) (value : β) : IsIndex (addTo m key value) (entries ++ [(key, value)]) := by
  intro other
  rw [valuesAt_concat]
  unfold addTo
  by_cases hother : key = other
  · subst hother
    rw [if_pos rfl, AList.lookup_insert, h key, getD_gather, gather, if_neg (by simp)]
    unfold pushAllNew
    rw [List.foldl_append]
    rfl
  · rw [if_neg hother, AList.lookup_insert_ne (Ne.symm hother)]
    exact h other

end RustdResolved.Lib.Index
