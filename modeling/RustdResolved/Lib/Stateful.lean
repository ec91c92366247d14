import RustdResolved.Lib.Loop

/-! # Fallible computations with a state

A computation reads and changes a state, and ends with a value or an error; the changes made before
an error stay. `bind_run_ok` takes a successful run apart, `Preserves` is a relation between the
states before and after that holds whether the run fails or not, and `Meets` is a triple of a
precondition, a postcondition for values and one for errors. `rounds` is a loop over such
computations. -/

namespace RustdResolved.Lib.Stateful

open Loop

variable {σ ε α β : Type}

/-- A computation over states `σ` with errors `ε`. -/
def Effect (σ ε α : Type) := σ → Except ε α × σ

/-- Ends with a value. -/
def Effect.pure (a : α) : Effect σ ε α := fun s => (.ok a, s)

/-- Goes on with the value of a computation. -/
def Effect.bind (x : Effect σ ε α) (f : α → Effect σ ε β) : Effect σ ε β := fun s =>
  match x s with
  | (.ok a, s') => f a s'
  | (.error e, s') => (.error e, s')

instance : Monad (Effect σ ε) where
  pure := Effect.pure
  bind := Effect.bind

/-- A computation that does not touch the state. -/
def lift (x : Except ε α) : Effect σ ε α := fun s => (x, s)

/-- Ends with an error. -/
def fail (e : ε) : Effect σ ε α := lift (.error e)

/-- A computation given by what it reads from the state and how it changes it. -/
def act (f : σ → α × σ) : Effect σ ε α := fun s => (.ok (f s).1, (f s).2)

/-! ### Successful runs -/

variable {a : α} {b : β} {e : ε} {s s' : σ} {x : Effect σ ε α} {f : α → Effect σ ε β}

theorem pure_run_ok {b : α} : (pure a : Effect σ ε α) s = (.ok b, s') ↔ a = b ∧ s = s' := by
  change (Except.ok a, s) = (Except.ok b, s') ↔ _
  simp

theorem bind_run_ok :
    (x >>= f) s = (.ok b, s') ↔ ∃ a s₁, x s = (.ok a, s₁) ∧ f a s₁ = (.ok b, s') := by
  change Effect.bind x f s = (.ok b, s') ↔ _
  unfold Effect.bind
  match x s with
  | (.ok a, s₁) =>
    constructor
    · intro h
      exact ⟨a, s₁, rfl, h⟩
    · rintro ⟨a', s₂, heq, h⟩
      cases heq
      exact h
  | (.error e, s₁) => simp

/-- A run goes on after a step that succeeds. -/
theorem bind_of_ok (h : x s = (.ok a, s')) : (x >>= f) s = f a s' := by
  change Effect.bind x f s = _
  rw [Effect.bind, h]

theorem bind_of_error (h : x s = (.error e, s')) : (x >>= f) s = (.error e, s') := by
  change Effect.bind x f s = _
  rw [Effect.bind, h]

theorem lift_run_ok {x : Except ε α} : lift x s = (.ok a, s') ↔ x = .ok a ∧ s = s' := by
  simp [lift]

theorem lift_bind_run_ok {x : Except ε α} :
    (lift x >>= f) s = (.ok b, s') ↔ ∃ a, x = .ok a ∧ f a s = (.ok b, s') := by
  simp [bind_run_ok, lift_run_ok, and_assoc]

theorem fail_run_ok : ¬ (fail e : Effect σ ε α) s = (.ok a, s') := by
  simp [fail, lift]

theorem act_run_ok {f : σ → α × σ} : (act f : Effect σ ε α) s = (.ok a, s') ↔ f s = (a, s') := by
  simp [act, Prod.ext_iff]

/-! ### Relations between the states before and after -/

/-- Every run, failed or not, leads from a state to a related one. -/
structure Preserves (R : σ → σ → Prop) (x : Effect σ ε α) : Prop where
  related : ∀ s, R s (x s).2

variable {R : σ → σ → Prop}

theorem preserves_pure [Std.Refl R] : Preserves R (pure a : Effect σ ε α) :=
  ⟨Std.Refl.refl⟩

theorem preserves_lift [Std.Refl R] {x : Except ε α} : Preserves R (lift x : Effect σ ε α) :=
  ⟨Std.Refl.refl⟩

theorem preserves_bind [IsTrans σ R] (hx : Preserves R x)
    (hf : ∀ a, Preserves R (f a)) : Preserves R (x >>= f) := by
  refine ⟨fun s => ?_⟩
  change R s (Effect.bind x f s).2
  have hstep := hx.related s
  unfold Effect.bind
  match hrun : x s with
  | (.ok a, s₁) =>
    rw [hrun] at hstep
    exact IsTrans.trans _ _ _ hstep ((hf a).related s₁)
  | (.error e, s₁) =>
    rw [hrun] at hstep
    exact hstep

theorem preserves_ite {c : Prop} [Decidable c] {x y : Effect σ ε α} (hx : Preserves R x)
    (hy : Preserves R y) : Preserves R (if c then x else y) := by
  split
  · exact hx
  · exact hy

/-! ### Pre- and postconditions -/

/-- From a state with the precondition, a run ends with a value and a state that meet the
postcondition, or with an error and a state that meet the other one. -/
structure Meets (P : σ → Prop) (x : Effect σ ε α) (Q : α → σ → Prop) (E : ε → σ → Prop) : Prop where
  ok : ∀ {s a s'}, P s → x s = (.ok a, s') → Q a s'
  error : ∀ {s e s'}, P s → x s = (.error e, s') → E e s'

variable {P : σ → Prop} {Q : α → σ → Prop} {Q' : β → σ → Prop} {E : ε → σ → Prop}

theorem meets_pure (h : ∀ s, P s → Q a s) : Meets P (pure a : Effect σ ε α) Q E where
  ok := by
    intro s b s' hs hrun
    obtain ⟨rfl, rfl⟩ := pure_run_ok.mp hrun
    exact h s hs
  error := by
    intro s e s' _ hrun
    cases hrun

theorem meets_lift {x : Except ε α} (hok : ∀ a s, x = .ok a → P s → Q a s)
    (herror : ∀ e s, x = .error e → P s → E e s) : Meets P (lift x : Effect σ ε α) Q E where
  ok := by
    intro s a s' hs hrun
    obtain ⟨hx, rfl⟩ := lift_run_ok.mp hrun
    exact hok a s hx hs
  error := by
    intro s e s' hs hrun
    obtain ⟨hx, rfl⟩ := Prod.mk.inj hrun
    exact herror e s hx hs

theorem meets_fail (h : ∀ s, P s → E e s) : Meets P (fail e : Effect σ ε α) Q E :=
  meets_lift (fun _ _ hx _ => by cases hx) fun _ s hx hs => by
    cases hx
    exact h s hs

theorem meets_act {f : σ → α × σ} (h : ∀ s, P s → Q (f s).1 (f s).2) :
    Meets P (act f : Effect σ ε α) Q E where
  ok := by
    intro s a s' hs hrun
    have hf := h s hs
    rw [act_run_ok.mp hrun] at hf
    exact hf
  error := by
    intro s e s' _ hrun
    cases hrun

theorem meets_read {f : σ → α} : Meets P (act fun s => (f s, s) : Effect σ ε α) (fun _ => P) E :=
  meets_act fun _ h => h

theorem meets_bind (hx : Meets P x Q E)
    (hf : ∀ a, Meets (Q a) (f a) Q' E) : Meets P (x >>= f) Q' E where
  ok := by
    intro s b s' hs hrun
    obtain ⟨a, s₁, hfirst, hsecond⟩ := bind_run_ok.mp hrun
    exact (hf a).ok (hx.ok hs hfirst) hsecond
  error := by
    intro s e s' hs hrun
    change Effect.bind x f s = (.error e, s') at hrun
    unfold Effect.bind at hrun
    match hfirst : x s with
    | (.ok a, s₁) =>
      rw [hfirst] at hrun
      exact (hf a).error (hx.ok hs hfirst) hrun
    | (.error e', s₁) =>
      rw [hfirst] at hrun
      cases hrun
      exact hx.error hs hfirst

theorem Meets.imp {Q₁ : α → σ → Prop} (h : Meets P x Q E)
    (himp : ∀ a s, Q a s → Q₁ a s) : Meets P x Q₁ E :=
  ⟨fun hs hrun => himp _ _ (h.ok hs hrun), h.error⟩

/-- A precondition that does not depend on the state is a hypothesis. -/
theorem meets_assume {c : Prop} (h : c → Meets P x Q E) : Meets (fun s => c ∧ P s) x Q E :=
  ⟨fun hs => (h hs.1).ok hs.2, fun hs => (h hs.1).error hs.2⟩

theorem meets_exists {ι : Type} {P : ι → σ → Prop} (h : ∀ i, Meets (P i) x Q E) :
    Meets (fun s => ∃ i, P i s) x Q E :=
  ⟨fun ⟨i, hs⟩ => (h i).ok hs, fun ⟨i, hs⟩ => (h i).error hs⟩

theorem meets_ite {c : Prop} [Decidable c] {x y : Effect σ ε α} (hx : c → Meets P x Q E)
    (hy : ¬ c → Meets P y Q E) : Meets P (if c then x else y) Q E := by
  split
  · exact hx ‹_›
  · exact hy ‹_›

/-! ### Loops -/

variable {ρ ν : Type}

/-- Runs the rounds of a loop with variables `ν`. A round that ends with a value ends the loop, and
so does an error that says so; the other error is to go round again. `out` is the result of a loop
that runs out of rounds. -/
def rounds (out : ρ) (body : ν → Effect σ (LoopFlow ρ ν) ρ) : Nat → ν → σ → ρ × σ
  | 0, _, s => (out, s)
  | fuel + 1, vars, s =>
    match body vars s with
    | (.ok result, s') => (result, s')
    | (.error (.done result), s') => (result, s')
    | (.error (.again vars'), s') => rounds out body fuel vars' s'

variable {out : ρ} {body : ν → Effect σ (LoopFlow ρ ν) ρ}

/-- What holds at the end of a round: after a round that goes on, the invariant, otherwise the
postcondition. -/
def FlowMeets (inv : ν → σ → Prop) (post : σ → Prop) : LoopFlow ρ ν → σ → Prop
  | .done _, s => post s
  | .again vars, s => inv vars s

/-- The same with a postcondition that also speaks about the result. -/
def FlowEnds (inv : ν → σ → Prop) (post : ρ → σ → Prop) : LoopFlow ρ ν → σ → Prop
  | .done result, s => post result s
  | .again vars, s => inv vars s

/-- **The invariant rule**: what every round keeps leads to the postcondition of the loop. -/
theorem rounds_ends (inv : ν → σ → Prop) {post : ρ → σ → Prop}
    (hout : ∀ vars s, inv vars s → post out s)
    (hbody : ∀ vars, Meets (inv vars) (body vars) post (FlowEnds inv post)) (fuel : Nat)
    (vars : ν) (s : σ) (hinv : inv vars s) :
    post (rounds out body fuel vars s).1 (rounds out body fuel vars s).2 := by
  induction fuel generalizing vars s with
  | zero => exact hout vars s hinv
  | succ fuel ih =>
    unfold rounds
    match hrun : body vars s with
    | (.ok result, s') => exact (hbody vars).ok hinv hrun
    | (.error (.done result), s') => exact (hbody vars).error hinv hrun
    | (.error (.again vars'), s') => exact ih vars' s' ((hbody vars).error hinv hrun)

theorem rounds_post (inv : ν → σ → Prop) {post : σ → Prop} (hout : ∀ vars s, inv vars s → post s)
    (hbody : ∀ vars, Meets (inv vars) (body vars) (fun _ => post) (FlowMeets inv post)) (fuel : Nat)
    (vars : ν) (s : σ) (hinv : inv vars s) : post (rounds out body fuel vars s).2 := by
  refine rounds_ends inv hout (fun vars => ⟨(hbody vars).ok, fun {s e s'} hs hrun => ?_⟩)
    fuel vars s hinv
  have hends := (hbody vars).error hs hrun
  cases e with
  | done result => exact hends
  | again vars' => exact hends

/-- **The variant rule**: a variant below the number of rounds makes all further rounds needless,
and the loop does not run out of them. -/
theorem rounds_fuel (out' : ρ) (inv : ν → σ → Prop) (variant : σ → Nat)
    (hagain : ∀ vars s vars' s', inv vars s → body vars s = (.error (.again vars'), s') →
      inv vars' s' ∧ variant s' < variant s) (fuel extra : Nat) (vars : ν) (s : σ)
    (hinv : inv vars s) (hlt : variant s < fuel) :
    rounds out' body (fuel + extra) vars s = rounds out body fuel vars s := by
  induction fuel generalizing vars s with
  | zero => exact absurd hlt (Nat.not_lt_zero _)
  | succ fuel ih =>
    rw [Nat.add_right_comm]
    unfold rounds
    match hrun : body vars s with
    | (.ok result, s') => rfl
    | (.error (.done result), s') => rfl
    | (.error (.again vars'), s') =>
      obtain ⟨hinv', hless⟩ := hagain vars s vars' s' hinv hrun
      exact ih vars' s' hinv' (by omega)

end RustdResolved.Lib.Stateful
