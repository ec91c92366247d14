import RustdResolved.Lib.Result

/-! # Changes that report

A change says whether it has changed anything, and a sequence of changes says whether any of them
has. If no change does something else than what it reports, as a relation between the states before
and after, then the whole sequence does not. -/

namespace RustdResolved.Lib.Reported

universe u v w
variable {σ : Type u} {α : Type v} {ε : Type w}

/-- `changed |= change(..)` for each of a list. -/
def reportAll (change : σ → α → Bool × σ) : List α → Bool × σ → Bool × σ
  | [], reported => reported
  | a :: rest, (changed, s) => reportAll change rest (changed || (change s a).1, (change s a).2)

/-- `changed |= change(..)?` for one change after another. -/
def tryAll : List (σ → Except ε Bool × σ) → Bool → σ → Except ε Bool × σ
  | [], changed, s => (.ok changed, s)
  | change :: rest, changed, s =>
    match change s with
    | (.error e, s') => (.error e, s')
    | (.ok b, s') => tryAll rest (changed || b) s'

section
variable {R : σ → σ → Prop} (inv : σ → Prop)

/-- **What reports nothing has changed nothing**, for a list of changes that keep an invariant. -/
theorem reportAll_quiet (hrefl : ∀ s, R s s) (htrans : ∀ a b c, R a b → R b c → R a c)
    {change : σ → α → Bool × σ} (l : List α) (changed : Bool) (s : σ) (hinv : inv s)
    (h : ∀ a ∈ l, ∀ s, inv s → inv (change s a).2 ∧ ((change s a).1 = false → R s (change s a).2)) :
    inv (reportAll change l (changed, s)).2 ∧
      ((reportAll change l (changed, s)).1 = false →
        changed = false ∧ R s (reportAll change l (changed, s)).2) := by
  induction l generalizing changed s with
  | nil => exact ⟨hinv, fun h => ⟨h, hrefl s⟩⟩
  | cons a rest ih =>
    obtain ⟨hnext, hquiet⟩ := h a (by simp) s hinv
    obtain ⟨hend, hrest⟩ := ih (changed || (change s a).1)
      (change s a).2 hnext fun other hother => h other (by simp [hother])
    refine ⟨hend, fun hfalse => ?_⟩
    obtain ⟨hflag, hrelated⟩ := hrest hfalse
    rw [Bool.or_eq_false_iff] at hflag
    exact ⟨hflag.1, htrans _ _ _ (hquiet hflag.2) hrelated⟩

/-- The same for changes that could fail but do not. -/
theorem tryAll_quiet (hrefl : ∀ s, R s s) (htrans : ∀ a b c, R a b → R b c → R a c)
    (changes : List (σ → Except ε Bool × σ)) (changed : Bool) (s : σ) (hinv : inv s)
    (h : ∀ change ∈ changes, ∀ s, inv s → ∃ b s', change s = (.ok b, s') ∧ inv s' ∧
      (b = false → R s s')) :
    ∃ b s', tryAll changes changed s = (.ok b, s') ∧ inv s' ∧
      (b = false → changed = false ∧ R s s') := by
  induction changes generalizing changed s with
  | nil => exact ⟨changed, s, rfl, hinv, fun h => ⟨h, hrefl s⟩⟩
  | cons change rest ih =>
    obtain ⟨b, s₁, hrun, hnext, hquiet⟩ := h change (by simp) s hinv
    obtain ⟨b', s', hrest, hend, hquiet'⟩ := ih (changed || b) s₁ hnext
      fun other hother => h other (by simp [hother])
    refine ⟨b', s', ?_, hend, fun hfalse => ?_⟩
    · unfold tryAll
      rw [hrun]
      exact hrest
    · obtain ⟨hflag, hrelated⟩ := hquiet' hfalse
      rw [Bool.or_eq_false_iff] at hflag
      exact ⟨hflag.1, htrans _ _ _ (hquiet hflag.2) hrelated⟩

end

end RustdResolved.Lib.Reported
