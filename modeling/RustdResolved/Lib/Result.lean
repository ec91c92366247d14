import Mathlib.Data.Option.Basic

/-! # Results of fallible code

Rust's `Result` is `Except`, and its `?` is the bind. `of_bind` and `bind_eq_error` take a run of
several such steps apart, one step at a time. -/

namespace RustdResolved.Lib.Result

open List

universe u v

variable {ε : Type u} {α β : Type v} {x : Except ε α} {f : α → Except ε β} {e : ε}

@[simp] theorem pure_eq (a : α) : (pure a : Except ε α) = .ok a := rfl

@[simp] theorem ok_bind (a : α) (f : α → Except ε β) : (Except.ok a >>= f) = f a := rfl

@[simp] theorem error_bind (e : ε) (f : α → Except ε β) :
    ((Except.error e : Except ε α) >>= f) = .error e := rfl

/-- **A run of two steps succeeds when both do.** -/
theorem bind_eq_ok {b : β} : (x >>= f) = .ok b ↔ ∃ a, x = .ok a ∧ f a = .ok b := by
  rcases x with e | a
  · simp
  · simp

/-- The two steps of a run that succeeds. -/
theorem of_bind {b : β} (h : (x >>= f) = .ok b) : ∃ a, x = .ok a ∧ f a = .ok b := bind_eq_ok.mp h

theorem bind_eq_error : (x >>= f) = .error e ↔ x = .error e ∨ ∃ a, x = .ok a ∧ f a = .error e := by
  rcases x with e' | a
  · simp
  · simp

theorem bind_ne_error (hx : x ≠ .error e)
    (hf : ∀ a, x = .ok a → f a ≠ .error e) : (x >>= f) ≠ .error e := by
  intro h
  rcases bind_eq_error.mp h with h | ⟨a, ha, h⟩
  · exact hx h
  · exact hf a ha h

/-! ### Two runs side by side -/

/-- What the first run leads to, the second leads to as well, as far as the relation goes. -/
def Carries (R : α → β → Prop) (x : Except ε α) (y : Except ε β) : Prop :=
  ∀ a, x = .ok a → ∃ b, y = .ok b ∧ R a b

section

variable {γ δ : Type v} {R : α → β → Prop} {S : γ → δ → Prop} {x x' : Except ε α}
  {y y' : Except ε β}
  {a : α}

theorem carries_ok {b : β} (h : R a b) : Carries R (.ok a : Except ε α) (.ok b) := by
  intro _ ha
  cases ha
  exact ⟨b, rfl, h⟩

theorem carries_error (e : ε) : Carries R (.error e) y := fun _ h => nomatch h

theorem Carries.eq {y : Except ε α} (h : Carries Eq x y) (hx : x = .ok a) : y = .ok a := by
  obtain ⟨_, hy, rfl⟩ := h a hx
  exact hy

theorem Carries.of_eq {y : Except ε α} (h : y = x) : Carries Eq x y :=
  fun a hx => ⟨a, h.trans hx, rfl⟩

/-- **Runs of two steps carry over when the steps do.** -/
theorem Carries.bind {f : α → Except ε γ} {g : β → Except ε δ} (h : Carries R x y)
    (hnext : ∀ a b, x = .ok a → R a b → Carries S (f a) (g b)) : Carries S (x >>= f) (y >>= g) := by
  intro c hc
  obtain ⟨a, ha, hc⟩ := of_bind hc
  obtain ⟨b, hb, hab⟩ := h a ha
  obtain ⟨d, hd, hcd⟩ := hnext a b ha hab c hc
  exact ⟨d, bind_eq_ok.mpr ⟨b, hb, hd⟩, hcd⟩

theorem Carries.ite {p q : Prop} [Decidable p] [Decidable q] (hpq : p ↔ q) (h : p → Carries R x y)
    (h' : ¬ p → Carries R x' y') : Carries R (if p then x else x') (if q then y else y') := by
  by_cases hp : p
  · rw [if_pos hp, if_pos (hpq.mp hp)]
    exact h hp
  · rw [if_neg hp, if_neg (hpq.not.mp hp)]
    exact h' hp

end

/-! ### A list of steps -/

theorem mapM_cons_eq_ok {x : α} {xs : List α} {ys : List β} :
    (x :: xs).mapM f = .ok ys ↔ ∃ y rest, f x = .ok y ∧ xs.mapM f = .ok rest ∧ ys = y :: rest := by
  rw [mapM_cons, bind_eq_ok]
  constructor
  · rintro ⟨y, hy, h⟩
    obtain ⟨rest, hrest, h⟩ := of_bind h
    cases h
    exact ⟨y, rest, hy, hrest, rfl⟩
  · rintro ⟨y, rest, hy, hrest, rfl⟩
    exact ⟨y, hy, bind_eq_ok.mpr ⟨rest, hrest, rfl⟩⟩

theorem length_of_mapM : ∀ {xs : List α} {ys : List β}, xs.mapM f = .ok ys → ys.length = xs.length
  | [], _, h => by
    cases h
    rfl
  | x :: xs, _, h => by
    obtain ⟨y, rest, -, hrest, rfl⟩ := mapM_cons_eq_ok.mp h
    rw [length_cons, length_cons, length_of_mapM hrest]

theorem exists_mapM_ok_iff : ∀ {xs : List α},
    (∃ ys, xs.mapM f = .ok ys) ↔ ∀ x ∈ xs, ∃ y, f x = .ok y
  | [] => by simp
  | x :: xs => by
    simp only [mapM_cons_eq_ok, List.forall_mem_cons, ← exists_mapM_ok_iff]
    constructor
    · rintro ⟨ys, y, rest, hy, hrest, -⟩
      exact ⟨⟨y, hy⟩, rest, hrest⟩
    · rintro ⟨⟨y, hy⟩, rest, hrest⟩
      exact ⟨_, y, rest, hy, hrest, rfl⟩

theorem mem_mapM_iff {y : β} : ∀ {xs : List α} {ys : List β},
    xs.mapM f = .ok ys → (y ∈ ys ↔ ∃ x ∈ xs, f x = .ok y)
  | [], _, h => by
    cases h
    simp
  | x :: xs, _, h => by
    obtain ⟨first, rest, hfirst, hrest, rfl⟩ := mapM_cons_eq_ok.mp h
    simp only [mem_cons, mem_mapM_iff hrest, exists_eq_or_imp, hfirst, Except.ok.injEq,
      eq_comm (a := y)]

/-- Every step of a run over a list succeeds when the run does. -/
theorem of_forM {f : α → Except ε PUnit} :
    ∀ {xs : List α}, xs.forM f = .ok () → ∀ x ∈ xs, f x = .ok ()
  | [], _ => by simp
  | x :: xs, h => by
    obtain ⟨_, hx, hxs⟩ := of_bind (show (f x >>= fun _ => xs.forM f) = .ok () from h)
    exact forall_mem_cons.mpr ⟨hx, of_forM hxs⟩

/-- A fold over a state of two parts, one of which changes without failing. -/
theorem foldlM_pair {γ σ τ : Type v} {step : σ → α → Except ε σ} {first : γ → α → Except ε γ}
    {second : τ → α → τ} (pair : γ → τ → σ) : ∀ (xs : List α) (a : γ) (b : τ),
    (∀ x ∈ xs, ∀ a b, step (pair a b) x = (do
      let a ← first a x
      .ok (pair a (second b x)))) →
    xs.foldlM step (pair a b) = (do
      let a ← xs.foldlM first a
      .ok (pair a (xs.foldl second b)))
  | [], _, _, _ => rfl
  | x :: xs, a, b, hstep => by
    rw [List.foldlM_cons, List.foldlM_cons, List.foldl_cons, hstep x (by simp)]
    cases first a x with
    | error e => rfl
    | ok a => exact foldlM_pair pair xs a _ fun y hy => hstep y (List.mem_cons_of_mem x hy)

end RustdResolved.Lib.Result
