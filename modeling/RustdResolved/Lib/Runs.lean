import Mathlib.Data.List.Induction

/-! # Runs of a system

A system takes one step after another, each on an input. `run` is the state that a list of inputs
leads to, and `AllSteps` says that every step of a run meets a condition on the state it starts in
and its input. -/

namespace RustdResolved.Lib.Runs

universe u v
variable {σ : Type u} {ι : Type v} {step : σ → ι → σ} {condition condition' : σ → ι → Prop}

/-- The state after a list of inputs. -/
def run (step : σ → ι → σ) (state : σ) (inputs : List ι) : σ := inputs.foldl step state

theorem run_cons (state : σ) (input : ι) (rest : List ι) :
    run step state (input :: rest) = run step (step state input) rest := rfl

/-- What holds after a run if a step can only add to it. -/
theorem run_adds (step : σ → ι → σ) (holds : σ → Prop) (adds : ι → Prop)
    (h : ∀ state input, holds (step state input) ↔ adds input ∨ holds state) (inputs : List ι)
    (state : σ) : holds (run step state inputs) ↔ (∃ input ∈ inputs, adds input) ∨ holds state := by
  induction inputs generalizing state with
  | nil => simp [run]
  | cons input rest ih =>
    have hcons : (∃ other ∈ input :: rest, adds other) ↔ adds input ∨
        ∃ other ∈ rest, adds other := by
      simp
    rw [run_cons, ih, h, hcons, ← or_assoc, or_comm (b := adds input)]

/-- Every step of the run meets the condition. -/
def AllSteps (step : σ → ι → σ) (condition : σ → ι → Prop) : σ → List ι → Prop
  | _, [] => True
  | state, input :: rest =>
    condition state input ∧ AllSteps step condition (step state input) rest

theorem AllSteps.and : ∀ {inputs : List ι} {state : σ},
    AllSteps step condition state inputs → AllSteps step condition' state inputs →
      AllSteps step (fun state input => condition state input ∧ condition' state input) state inputs
  | [], _, _, _ => trivial
  | _ :: _, _, h, h' => ⟨⟨h.1, h'.1⟩, AllSteps.and h.2 h'.2⟩

/-- What every step keeps holds after the run. -/
theorem run_preserves (inv : σ → Prop) (hstep : ∀ state input, inv state → inv (step state input))
    (inputs : List ι) (state : σ) (hinv : inv state) : inv (run step state inputs) := by
  induction inputs generalizing state with
  | nil => exact hinv
  | cons input rest ih => exact ih (step state input) (hstep state input hinv)

/-- **The invariant rule**: what every step keeps under the condition holds after the run. -/
theorem run_invariant (inv : σ → Prop)
    (hstep : ∀ state input, inv state → condition state input → inv (step state input))
    (inputs : List ι) (state : σ) (hinv : inv state)
    (hsteps : AllSteps step condition state inputs) : inv (run step state inputs) := by
  induction inputs generalizing state with
  | nil => exact hinv
  | cons input rest ih => exact ih (step state input) (hstep state input hinv hsteps.1) hsteps.2

/-- **The invariant rule with an exact condition**: if a step from a good state ends in a good state
just when it meets the condition, then all states of a run are good just when all its steps meet
it. -/
theorem forall_history_iff {good : σ → Prop}
    (hstep : ∀ state, good state → ∀ input, good (step state input) ↔ condition state input)
    (inputs : List ι) (start : σ) (hstart : good start) :
    ((∀ history, history <+: inputs → good (run step start history)) ↔
        AllSteps step condition start inputs) := by
  induction inputs generalizing start with
  | nil =>
    refine iff_of_true ?_ trivial
    intro history hhistory
    rw [List.prefix_nil.mp hhistory]
    exact hstart
  | cons input rest ih =>
    constructor
    · intro hall
      have hnext : good (step start input) := hall [input] ⟨rest, rfl⟩
      refine ⟨(hstep start hstart input).mp hnext, (ih _ hnext).mp ?_⟩
      intro history hhistory
      exact hall (input :: history) (List.cons_prefix_cons.mpr ⟨rfl, hhistory⟩)
    · rintro ⟨hinput, hrest⟩ history hhistory
      rcases List.prefix_cons_iff.mp hhistory with rfl | ⟨history, rfl, hinitial⟩
      · exact hstart
      · exact (ih _ ((hstep start hstart input).mpr hinput)).mpr hrest history hinitial

/-- Steps that meet a condition meet another one as well, in the states of an invariant that they
keep. -/
theorem AllSteps.of_invariant (inv : σ → Prop)
    (h : ∀ state input, inv state → condition state input →
      condition' state input ∧ inv (step state input)) :
    ∀ {inputs : List ι} {state : σ}, inv state → AllSteps step condition state inputs →
      AllSteps step condition' state inputs
  | [], _, _, _ => trivial
  | input :: _, state, hinv, hsteps => by
    obtain ⟨hinput, hnext⟩ := h state input hinv hsteps.1
    exact ⟨hinput, AllSteps.of_invariant inv h hnext hsteps.2⟩

/-! ### Invariants of the history -/

theorem run_append (state : σ) (inputs rest : List ι) :
    run step state (inputs ++ rest) = run step (run step state inputs) rest := by
  simp [run]

theorem run_concat (state : σ) (inputs : List ι) (input : ι) :
    run step state (inputs ++ [input]) = step (run step state inputs) input :=
  run_append state inputs [input]

theorem allSteps_append : ∀ {state : σ} {inputs rest : List ι},
    AllSteps step condition state (inputs ++ rest) ↔
      AllSteps step condition state inputs ∧ AllSteps step condition (run step state inputs) rest
  | state, [], rest => by simp [AllSteps, run]
  | state, input :: inputs, rest => by
    rw [List.cons_append, AllSteps, allSteps_append, AllSteps, and_assoc]
    rfl

/-- A condition that all the inputs meet in every state of an invariant that they keep. -/
theorem allSteps_of_invariant (inv : σ → Prop) :
    ∀ {inputs : List ι} {state : σ}, inv state →
      (∀ input ∈ inputs, ∀ state, inv state → condition state input ∧ inv (step state input)) →
      AllSteps step condition state inputs
  | [], _, _, _ => trivial
  | input :: _, state, hinv, h => by
    obtain ⟨hcondition, hnext⟩ := h input (by simp) state hinv
    exact ⟨hcondition, allSteps_of_invariant inv hnext fun other hother =>
      h other (by simp [hother])⟩

/-- A condition that all the inputs meet in every state. -/
theorem allSteps_of_forall {inputs : List ι} {state : σ}
    (h : ∀ input ∈ inputs, ∀ state, condition state input) : AllSteps step condition state inputs :=
  allSteps_of_invariant (fun _ => True) trivial fun input hinput state _ =>
    ⟨h input hinput state, trivial⟩

/-- **The invariant rule with a history**: what every step keeps of the inputs so far, and so of the
state they lead to, holds of a whole run. -/
theorem run_history {start : σ} (inv : List ι → Prop) (hstart : inv [])
    (hstep : ∀ history input, inv history → condition (run step start history) input →
      inv (history ++ [input])) :
    ∀ inputs : List ι, AllSteps step condition start inputs → inv inputs := by
  intro inputs
  induction inputs using List.reverseRecOn with
  | nil => exact fun _ => hstart
  | append_singleton history input ih =>
    intro hsteps
    obtain ⟨hhistory, hinput, -⟩ := allSteps_append.mp hsteps
    exact hstep history input (ih hhistory) hinput

end RustdResolved.Lib.Runs
