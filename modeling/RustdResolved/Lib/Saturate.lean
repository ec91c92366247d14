import Mathlib.Data.List.Nodup
import Mathlib.Data.List.Lattice
import Mathlib.Logic.Relation

/-! # Adding what follows from a set until nothing is new

A set is a list without repetitions. `saturate` adds the successors of all elements, round by round,
until a round adds nothing. If all successors are in one finite list, it ends with the elements that
can be reached from the set (`mem_saturate`). -/

namespace RustdResolved.Lib.Saturate

universe u
variable {α : Type u} [DecidableEq α] (next : α → List α)

/-- Adds successors for a number of rounds at most. -/
def saturate : Nat → List α → List α
  | 0, set => set
  | rounds + 1, set =>
    let grown := set.flatMap next ∪ set
    if grown.length = set.length then grown else saturate rounds grown

/-- What leads from one element to another. -/
abbrev Reaches (a b : α) : Prop := Relation.ReflTransGen (fun a b => b ∈ next a) a b

variable {next} {set all : List α} {b : α}

theorem mem_grown : b ∈ set.flatMap next ∪ set ↔ (∃ a ∈ set, b ∈ next a) ∨ b ∈ set := by
  rw [List.mem_union_iff, List.mem_flatMap]

theorem subset_saturate : ∀ {rounds : Nat} {set : List α}, set ⊆ saturate next rounds set
  | 0, _ => fun _ h => h
  | rounds + 1, set => by
    intro a ha
    have hgrown : a ∈ set.flatMap next ∪ set := mem_grown.mpr (Or.inr ha)
    simp only [saturate]
    split_ifs
    · exact hgrown
    · exact subset_saturate hgrown

theorem nodup_saturate :
    ∀ {rounds : Nat} {set : List α}, set.Nodup → (saturate next rounds set).Nodup
  | 0, _, h => h
  | rounds + 1, set, h => by
    have hgrown : (set.flatMap next ∪ set).Nodup := List.Nodup.union _ h
    simp only [saturate]
    split_ifs
    · exact hgrown
    · exact nodup_saturate hgrown

/-- Only what can be reached is added. -/
theorem reaches_of_mem_saturate {rounds : Nat} (h : b ∈ saturate next rounds set) :
    ∃ a ∈ set, Reaches next a b := by
  induction rounds generalizing set b with
  | zero => exact ⟨b, h, .refl⟩
  | succ rounds ih =>
    have hstep : ∀ c, c ∈ set.flatMap next ∪ set → ∃ a ∈ set, Reaches next a c := by
      intro c hc
      rcases mem_grown.mp hc with ⟨a, ha, hnext⟩ | hmem
      · exact ⟨a, ha, .single hnext⟩
      · exact ⟨c, hmem, .refl⟩
    simp only [saturate] at h
    split_ifs at h
    · exact hstep b h
    · obtain ⟨c, hc, hreach⟩ := ih h
      obtain ⟨a, ha, hfirst⟩ := hstep c hc
      exact ⟨a, ha, hfirst.trans hreach⟩

/-- A round that adds something takes it out of what is missing. -/
theorem missing_lt (hall : ∀ a, next a ⊆ all) (h : (set.flatMap next ∪ set).length ≠ set.length) :
    (all.filter (· ∉ set.flatMap next ∪ set)).length < (all.filter (· ∉ set)).length := by
  obtain ⟨b, hb, hnew⟩ : ∃ b ∈ set.flatMap next, b ∉ set := by
    by_contra hnone
    push Not at hnone
    exact h (congrArg List.length (List.Subset.union_eq_right hnone))
  obtain ⟨a, ha, hnext⟩ := List.mem_flatMap.mp hb
  have hfilter : all.filter (· ∉ set.flatMap next ∪ set) =
      (all.filter (· ∉ set)).filter (· ∉ set.flatMap next ∪ set) := by
    rw [List.filter_filter]
    refine List.filter_congr fun c _ => ?_
    by_cases hc : c ∈ set
    · simp [hc]
    · simp [hc]
  rw [hfilter, List.length_filter_lt_length_iff_exists]
  refine ⟨b, List.mem_filter.mpr ⟨hall a hnext, by simpa using hnew⟩, ?_⟩
  simpa using fun hnot => absurd hnext (hnot a ha)

/-- After enough rounds the set is closed: every other round takes something out of what is
missing. -/
theorem saturate_closed (hall : ∀ a, next a ⊆ all) : ∀ {rounds : Nat} {set : List α},
    (all.filter (· ∉ set)).length < rounds →
    ∀ {a b : α}, a ∈ saturate next rounds set → b ∈ next a → b ∈ saturate next rounds set
  | rounds + 1, set, hrounds, a, b, ha, hb => by
    simp only [saturate] at ha ⊢
    split_ifs at ha ⊢ with hlength
    · have hsuffix : set <:+ set.flatMap next ∪ set := List.suffix_union_right _ _
      rw [← hsuffix.eq_of_length hlength.symm] at ha ⊢
      have hsuffix : set <:+ set.flatMap next ∪ set := List.suffix_union_right _ _
      rw [hsuffix.eq_of_length hlength.symm]
      exact mem_grown.mpr (Or.inl ⟨a, ha, hb⟩)
    · exact saturate_closed hall (Nat.lt_of_lt_of_le (missing_lt hall hlength)
        (Nat.le_of_lt_succ hrounds)) ha hb

/-- **What is added in enough rounds is what can be reached.** -/
theorem mem_saturate (hall : ∀ a, next a ⊆ all) {rounds : Nat} (hrounds : all.length < rounds) :
    b ∈ saturate next rounds set ↔ ∃ a ∈ set, Reaches next a b := by
  refine ⟨reaches_of_mem_saturate, ?_⟩
  rintro ⟨a, ha, hreach⟩
  have hmissing : (all.filter (· ∉ set)).length < rounds :=
    Nat.lt_of_le_of_lt (List.length_filter_le _ _) hrounds
  induction hreach with
  | refl => exact subset_saturate ha
  | tail _ hlast ih => exact saturate_closed hall hmissing ih hlast

end RustdResolved.Lib.Saturate
