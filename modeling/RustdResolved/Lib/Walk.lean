import Mathlib.Data.List.Nodup
import RustdResolved.Lib.Loop

/-! # Walks that never come back

A walker stands at a place, and what it does there is a decision: it ends with a result, or goes on
to the next place. It keeps the keys of the places it has been at, and fails at a key it has seen.
What a walk returns is what the decisions alone lead to, along a path without repetition
(`walk_eq_ok`); so walkers whose decisions agree along a path take the same path
(`Leads.of_agree`). -/

namespace RustdResolved.Lib.Walk

open List Result Loop

variable {ε α κ ρ : Type} [DecidableEq κ]

/-- A round of a walk. A decision may depend on the number of places before. -/
def walkBody (looped : ε) (key : α → κ) (decision : Nat → α → Except ε (ρ ⊕ α))
    (state : α × List κ) : Except ε (LoopFlow ρ (α × List κ)) :=
  if key state.1 ∈ state.2 then .error looped
  else do
    match ← decision state.2.length state.1 with
    | .inl result => .ok (.done result)
    | .inr next => .ok (.again (next, key state.1 :: state.2))

/-- From the place `a`, the `i`-th of a walk, the decisions lead through the places of a list to
another place. -/
inductive Leads (decision : Nat → α → Except ε (ρ ⊕ α)) : Nat → α → List α → α → Prop
  | here {i : Nat} {a : α} : Leads decision i a [] a
  | step {i : Nat} {a b c : α} {path : List α} (hnext : decision i a = .ok (.inr b))
    (hrest : Leads decision (i + 1) b path c) : Leads decision i a (a :: path) c

variable {looped out : ε} {key : α → κ} {decision : Nat → α → Except ε (ρ ⊕ α)} {reached : α → Prop}

/-- **What a walk returns**: the result at the end of a path within the number of rounds, at whose
places the keys are new. -/
theorem walk_eq_ok {fuel : Nat} {a : α} {visited : List κ} {result : ρ} :
    loop out (walkBody looped key decision) fuel (a, visited) = .ok result ↔
      ∃ path b, Leads decision visited.length a path b ∧ path.length < fuel ∧
        ((path ++ [b]).map key).Nodup ∧ (∀ x ∈ path ++ [b], key x ∉ visited) ∧
        decision (visited.length + path.length) b = .ok (.inl result) := by
  induction fuel generalizing a visited result with
  | zero => simp [loop]
  | succ fuel ih =>
    constructor
    · intro h
      obtain ⟨_, hbody, h⟩ := of_bind h
      unfold walkBody at hbody
      split_ifs at hbody with hnew
      obtain ⟨flow, hflow, hbody⟩ := of_bind hbody
      cases flow with
      | inl r =>
        cases hbody
        cases h
        exact ⟨[], a, .here, Nat.succ_pos _, by simp, by simpa using hnew, hflow⟩
      | inr b =>
        cases hbody
        obtain ⟨path, c, hleads, hshort, hnodup, hkeys, hend⟩ := ih.mp h
        simp only [length_cons] at hleads hend
        refine ⟨a :: path, c, .step hflow hleads, by simpa using hshort, ?_, ?_, ?_⟩
        · rw [cons_append, map_cons, nodup_cons]
          refine ⟨fun hmem => ?_, hnodup⟩
          obtain ⟨x, hx, heq⟩ := mem_map.mp hmem
          exact hkeys x hx (by simp [heq])
        · intro x hx
          rcases mem_cons.mp hx with rfl | hx
          · exact hnew
          · exact fun hmem => hkeys x hx (mem_cons_of_mem _ hmem)
        · rw [length_cons, ← hend]
          congr 1
          omega
    · rintro ⟨path, b, hleads, hshort, hnodup, hkeys, hend⟩
      have hnew : key a ∉ visited := by cases hleads <;> exact hkeys a (by simp)
      cases hleads with
      | here =>
        simp only [length_nil, Nat.add_zero] at hend
        simp only [loop, walkBody, if_neg hnew, hend, ok_bind]
      | @step _ _ next _ path hnext hrest =>
        rw [cons_append, map_cons, nodup_cons] at hnodup
        have hagain : loop out (walkBody looped key decision) fuel (next, key a :: visited) =
            .ok result := by
          refine ih.mpr ⟨path, b, hrest, by simpa using hshort, hnodup.2, ?_, ?_⟩
          · intro x hx hmem
            rcases mem_cons.mp hmem with heq | hmem
            · exact hnodup.1 (heq ▸ mem_map_of_mem hx)
            · exact hkeys x (mem_cons_of_mem _ hx) hmem
          · rw [length_cons, ← hend]
            congr 1
            simp only [length_cons]
            omega
        simp only [loop, walkBody, if_neg hnew, hnext, ok_bind]
        exact hagain

/-- **Walkers whose decisions agree take the same path.** The decisions are compared at the places
that `reached` allows, of which the next place is one again, and up to the place `limit`. -/
theorem Leads.of_agree {ε' ρ' : Type} {decision' : Nat → α → Except ε' (ρ' ⊕ α)}
    {limit : Nat}
    (hagree : ∀ i < limit, ∀ a b, reached a → decision i a = .ok (.inr b) →
      decision' i a = .ok (.inr b) ∧ reached b) :
    ∀ {i : Nat} {a b : α} {path : List α}, Leads decision i a path b → reached a →
      i + path.length ≤ limit → Leads decision' i a path b ∧ reached b := by
  intro i a b path h
  induction h with
  | here => exact fun hreached _ => ⟨.here, hreached⟩
  | step hnext _ ih =>
    intro hreached hlimit
    rw [length_cons] at hlimit
    obtain ⟨hnext', hreached'⟩ := hagree _ (by omega) _ _ hreached hnext
    obtain ⟨hrest, hend⟩ := ih hreached' (by omega)
    exact ⟨.step hnext' hrest, hend⟩

/-- What holds of a place and of every next place holds all along a path. -/
theorem Leads.forall_mem (hnext : ∀ i a b, reached a → decision i a = .ok (.inr b) → reached b) :
    ∀ {i : Nat} {a b : α} {path : List α}, Leads decision i a path b → reached a →
      ∀ x ∈ path ++ [b], reached x := by
  intro i a b path h
  induction h with
  | here => simp
  | step hdecided _ ih =>
    intro hreached
    rw [cons_append, forall_mem_cons]
    exact ⟨hreached, ih (hnext _ _ _ hreached hdecided)⟩

/-- The places of a path are related one to the next by the decisions. -/
theorem Leads.isChain {related : α → α → Prop}
    (hrelated : ∀ i a b, reached a → decision i a = .ok (.inr b) → related a b ∧ reached b) :
    ∀ {i : Nat} {a b : α} {path : List α}, Leads decision i a path b → reached a →
      ∃ rest, path ++ [b] = a :: rest ∧ rest.length = path.length ∧
        List.IsChain related (a :: rest) := by
  intro i a b path h
  induction h with
  | here => exact fun _ => ⟨[], rfl, rfl, .singleton _⟩
  | step hnext _ ih =>
    intro hreached
    obtain ⟨hfirst, hreached'⟩ := hrelated _ _ _ hreached hnext
    obtain ⟨rest, heq, hlength, hchain⟩ := ih hreached'
    exact ⟨_, by rw [cons_append, heq], by simp [hlength], .cons_cons hfirst hchain⟩

end RustdResolved.Lib.Walk
