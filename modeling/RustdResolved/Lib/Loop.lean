import Mathlib.Order.Basic
import RustdResolved.Lib.Result

/-! # Loops with early exit

A loop of imperative code is its body, a function from the loop's variables to what happens next:
the loop ends with a result, fails, or goes round again. `loop` runs a body for a bounded number of
rounds. `loop_ok` is the invariant rule, `loop_ne_out` says that a variant below the bound keeps a
loop from running out of rounds, and `loop_carries` compares two loops. -/

namespace RustdResolved.Lib.Loop

open Result

universe u v

inductive LoopFlow (ρ σ : Type v)
  | done (result : ρ)
  | again (state : σ)

variable {ε : Type u} {ρ σ : Type v}

/-- Runs `body` until it is done; `out` is the error of a loop that runs out of rounds. -/
def loop (out : ε) (body : σ → Except ε (LoopFlow ρ σ)) : Nat → σ → Except ε ρ
  | 0, _ => .error out
  | fuel + 1, state => do
    match ← body state with
    | .done result => .ok result
    | .again next => loop out body fuel next

variable {out : ε} {body : σ → Except ε (LoopFlow ρ σ)}

theorem loop_succ_ok {fuel : Nat} {state : σ} {result : ρ}
    (h : loop out body (fuel + 1) state = .ok result) :
    body state = .ok (.done result) ∨
      ∃ next, body state = .ok (.again next) ∧ loop out body fuel next = .ok result := by
  obtain ⟨flow, hbody, h⟩ := of_bind h
  cases flow with
  | done r => left; rw [hbody]; rw [Except.ok.inj h]
  | again next => exact Or.inr ⟨next, hbody, h⟩

/-- **The invariant rule**: what every round keeps holds when the loop is done. -/
theorem loop_ok (inv : σ → Prop) (post : ρ → Prop)
    (hagain : ∀ s s', inv s → body s = .ok (.again s') → inv s')
    (hdone : ∀ s r, inv s → body s = .ok (.done r) → post r) {fuel : Nat} {state : σ} {result : ρ}
    (hinv : inv state) (h : loop out body fuel state = .ok result) : post result := by
  induction fuel generalizing state result with
  | zero => cases h
  | succ fuel ih =>
    rcases loop_succ_ok h with hbody | ⟨next, hbody, hrest⟩
    · exact hdone state result hinv hbody
    · exact ih (hagain state next hinv hbody) hrest

/-- **The variant rule**: a variant below the number of rounds keeps the loop from running out. -/
theorem loop_ne_out (variant : σ → Nat) (hout : ∀ s, body s ≠ .error out)
    (hagain : ∀ s s', body s = .ok (.again s') → variant s' < variant s)  {fuel : Nat} {state : σ}
    (hlt : variant state < fuel) : loop out body fuel state ≠ .error out := by
  induction fuel generalizing state with
  | zero => exact absurd hlt (Nat.not_lt_zero _)
  | succ fuel ih =>
    intro h
    rcases bind_eq_error.mp h with hbody | ⟨flow, hbody, h⟩
    · exact hout state hbody
    · cases flow with
      | done r => cases h
      | again next => exact ih (by have := hagain state next hbody; omega) h

/-- **More rounds change nothing**: a loop that is done is done within any number of rounds above
its variant. -/
theorem loop_ok_fuel (variant : σ → Nat)
    (hagain : ∀ s s', body s = .ok (.again s') → variant s' < variant s) {fuel fuel' : Nat}
    {state : σ} {result : ρ} (hlt : variant state < fuel')
    (h : loop out body fuel state = .ok result) : loop out body fuel' state = .ok result := by
  induction fuel generalizing fuel' state result with
  | zero => cases h
  | succ fuel ih =>
    obtain ⟨rounds, rfl⟩ : ∃ rounds, fuel' = rounds + 1 := ⟨fuel' - 1, by omega⟩
    rcases loop_succ_ok h with hbody | ⟨next, hbody, hrest⟩
    · simp only [loop, hbody]
      rfl
    · have hnext := hagain state next hbody
      have hdone := ih (show variant next < rounds by omega) hrest
      simp only [loop, hbody]
      exact hdone

/-- Rounds that lead on to the same. -/
inductive FlowCarries {ρ' σ' : Type v} (post : ρ → ρ' → Prop) (related : σ → σ' → Prop) :
    LoopFlow ρ σ → LoopFlow ρ' σ' → Prop
  | done {result : ρ} {result' : ρ'} (h : post result result') :
    FlowCarries post related (.done result) (.done result')
  | again {state : σ} {state' : σ'} (h : related state state') :
    FlowCarries post related (.again state) (.again state')

/-- **The simulation rule**: rounds that correspond lead to results that correspond. What the
correspondence of two states says may depend on the rounds that are left. -/
theorem loop_carries {ρ' σ' : Type v} {body' : σ' → Except ε (LoopFlow ρ' σ')}
    (related : Nat → σ → σ' → Prop) (post : ρ → ρ' → Prop)
    (hround : ∀ fuel s s', related (fuel + 1) s s' →
      Carries (FlowCarries post (related fuel)) (body s)
      (body' s')) {fuel : Nat} {state : σ} {state' : σ'} (h : related fuel state state') :
    Carries post (loop out body fuel state) (loop out body' fuel state') := by
  induction fuel generalizing state state' with
  | zero => exact carries_error out
  | succ fuel ih =>
    refine (hround fuel state state' h).bind fun flow flow' _ hflow => ?_
    cases hflow with
    | done hpost => exact carries_ok hpost
    | again hrelated => exact ih hrelated

end RustdResolved.Lib.Loop
