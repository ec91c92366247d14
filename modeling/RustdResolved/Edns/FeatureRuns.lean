import RustdResolved.Edns.Servers
import RustdResolved.Lib.Runs

/-! # The feature level over a run

The feature level of a server goes down after failures and up again after a while. Two things are
said about whole runs of operations on its state. A server that broke a required OPT record is left
at the plain level, as long as no retry from before falls due. A failure takes the level down only
after three failures at that level, as long as the level is not clipped to a lower best one while
failures count. -/

namespace RustdResolved.Edns.FeatureRuns

open Lib.Runs Servers ServerFeatureState

variable {level : FeatureLevel} {state : ServerFeatureState}

/-- An operation on the state of a server's features. -/
inductive FeatureOp
  | possibleLevel (best minimum : FeatureLevel) (now : Nat)
  | recordSuccess (level : FeatureLevel)
  | recordFailure (level : FeatureLevel) (now : Nat)
  | recordTlsFailure (level : FeatureLevel) (now : Nat)
  | recordBadOpt (level : FeatureLevel) (now : Nat)
  | recordRequiredBadOpt
  | recordDoOff (level : FeatureLevel) (now : Nat)
  | downgradeTo (level : FeatureLevel) (now : Nat)
  | reset
  deriving DecidableEq, Repr

/-- The state after an operation. -/
def apply (state : ServerFeatureState) : FeatureOp → ServerFeatureState
  | .possibleLevel best minimum now => (state.possibleLevel best minimum now).2
  | .recordSuccess level => state.recordSuccess level
  | .recordFailure level now => (state.recordFailure level now).2
  | .recordTlsFailure level now => (state.recordTlsFailure level now).2
  | .recordBadOpt level now => (state.recordBadOpt level now).2
  | .recordRequiredBadOpt => state.recordRequiredBadOpt
  | .recordDoOff level now => (state.recordDoOff level now).2
  | .downgradeTo level now => state.downgradeTo level now
  | .reset => .initial

/-! ### The plain level -/

theorem udp_le : .udp ≤ level := by
  cases level <;> decide

theorem not_lt_udp : ¬ level < .udp := not_lt.mpr udp_le

theorem udp_lt_iff : .udp < level ↔ level ≠ .udp :=
  ⟨fun h heq => not_lt_udp (heq ▸ h), fun h => lt_of_le_of_ne udp_le (Ne.symm h)⟩

theorem min_udp (level : FeatureLevel) : min level .udp = .udp := min_eq_right udp_le

theorem usesEdns_iff : level.usesEdns = true ↔ level ≠ .udp := by
  cases level <;> simp [FeatureLevel.usesEdns]

theorem lower_eq_iff : level.lower = level ↔ level = .udp := by
  cases level <;> simp [FeatureLevel.lower]

theorem lower_lt (h : level ≠ .udp) : level.lower < level := by
  cases level <;> first | exact absurd rfl h | decide

/-- Nothing is below the plain level. -/
theorem downgradeTo_of_udp (h : state.possible = .udp)
    (level : FeatureLevel) (now : Nat) : state.downgradeTo level now = state := by
  unfold downgradeTo
  rw [h, if_pos udp_le]

/-! ### What `possible_level` does -/

section

variable (state : ServerFeatureState) (best minimum : FeatureLevel) (now : Nat)

/-- A server that broke a required OPT record is clipped to the plain level. -/
theorem clipped_of_required (h : state.requiredBadOpt = true) :
    state.clipped best minimum = { state with possible := .udp } := by
  unfold clipped
  have hplain : (if (state.requiredBadOpt && state.possible.usesEdns) = true then
      { state with possible := min state.possible .udp } else state) =
      { state with possible := .udp } := by
    split_ifs with hedns
    · rw [min_udp]
    · have hudp : state.possible = .udp := by
        by_contra hne
        exact hedns (by rw [h, usesEdns_iff.mpr hne]; rfl)
      rw [← hudp]
  rw [hplain, h, if_pos rfl, min_udp]
  rw [if_neg not_lt_udp]
  exact if_neg not_lt_udp

theorem clipped_of_not_required (h : state.requiredBadOpt = false) :
    state.clipped best minimum =
      if min state.possible best < minimum then
        { state with possible := min minimum best, failedAttempts := 0, retryAfter := none }
      else { state with possible := min state.possible best } := by
  unfold clipped
  have hclip : (if best < state.possible then { state with possible := best } else state) =
      { state with possible := min state.possible best } := by
    split_ifs with hlt
    · rw [min_eq_right hlt.le]
    · rw [min_eq_left (not_lt.mp hlt)]
  have hminimum : (if state.requiredBadOpt = true then min minimum .udp else minimum) = minimum :=
    if_neg (by simp [h])
  have hflag : (if (state.requiredBadOpt && state.possible.usesEdns) = true then
      { state with possible := min state.possible .udp } else state) = state := if_neg (by simp [h])
  dsimp only
  rw [hminimum, hflag, hclip]

def RetryDue (state : ServerFeatureState) (now : Nat) : Prop :=
  ∃ due, state.retryAfter = some due ∧ due ≤ now

/-- The state after a retry at the best level. -/
def retried (state : ServerFeatureState) (best : FeatureLevel) : ServerFeatureState :=
  { state with
    possible := best
    failedAttempts := 0
    retryAfter := none
    badOpt := false
    gracePeriod := min (state.gracePeriod * 2) featureGracePeriodMax }

/-- **The level is clipped, and then raised if a retry is due.** -/
theorem possibleLevel_cases :
    ((state.clipped best minimum).possible < best ∧ RetryDue (state.clipped best minimum) now ∧
        state.possibleLevel best minimum now = (best, retried (state.clipped best minimum) best)) ∨
      (¬ ((state.clipped best minimum).possible < best ∧
        RetryDue (state.clipped best minimum) now) ∧
        state.possibleLevel best minimum now =
          ((state.clipped best minimum).possible, state.clipped best minimum)) := by
  unfold possibleLevel RetryDue
  dsimp only
  generalize state.clipped best minimum = clipped
  cases clipped.retryAfter with
  | none => exact .inr ⟨by simp, by simp⟩
  | some due =>
    simp only [decide_eq_true_eq, Option.some.injEq, exists_eq_left']
    by_cases hretry : clipped.possible < best ∧ due ≤ now
    · exact .inl ⟨hretry.1, hretry.2, by rw [if_pos hretry]; rfl⟩
    · exact .inr ⟨hretry, by rw [if_neg hretry]⟩

end

variable {op : FeatureOp}

/-- The operations that can only take the level down. -/
def FeatureOp.lowers : FeatureOp → Bool
  | .recordTlsFailure .. | .recordBadOpt .. | .recordDoOff .. | .downgradeTo .. => true
  | _ => false

/-- Such an operation is a downgrade, after a flag of the state was set or left. -/
theorem apply_of_lowers (state : ServerFeatureState) (op : FeatureOp) (h : op.lowers = true) :
    ∃ flag level now, apply state op = ({ state with badOpt := flag }).downgradeTo level now := by
  have hsame : ∃ flag level now, state = ({ state with badOpt := flag }).downgradeTo level now :=
    ⟨state.badOpt, state.possible, 0, (if_pos (le_refl _)).symm⟩
  cases op with
  | recordTlsFailure level now =>
    cases level
    case tlsDnssecOk => exact ⟨state.badOpt, .dnssecOk, now, rfl⟩
    case tlsPlain => exact ⟨state.badOpt, .edns0, now, rfl⟩
    all_goals exact hsame
  | recordBadOpt level now =>
    simp only [apply, recordBadOpt]
    split_ifs
    · exact ⟨true, .udp, now, rfl⟩
    · exact hsame
  | recordDoOff level now =>
    simp only [apply, recordDoOff]
    split_ifs
    · exact ⟨state.badOpt, .edns0, now, rfl⟩
    · exact ⟨state.badOpt, .tlsPlain, now, rfl⟩
    · exact hsame
  | downgradeTo level now => exact ⟨state.badOpt, level, now, rfl⟩
  | _ => cases h

/-- Only a required OPT record that is broken and a reset change the flag. -/
theorem apply_requiredBadOpt (state : ServerFeatureState) (op : FeatureOp)
    (hrequired : op ≠ .recordRequiredBadOpt) (hreset : op ≠ .reset) :
    (apply state op).requiredBadOpt = state.requiredBadOpt := by
  have hdown : ∀ (state : ServerFeatureState) level now,
      (state.downgradeTo level now).requiredBadOpt = state.requiredBadOpt := by
    intro state level now
    unfold downgradeTo
    split_ifs <;> rfl
  have hlowers := apply_of_lowers state op
  cases op with
  | possibleLevel best minimum now =>
    have hclip : (state.clipped best minimum).requiredBadOpt = state.requiredBadOpt := by
      unfold clipped
      dsimp only
      split_ifs <;> rfl
    simp only [apply]
    rcases possibleLevel_cases state best minimum now with ⟨-, -, hretry⟩ | ⟨-, hclipped⟩
    · rw [hretry]
      exact hclip
    · rw [hclipped]
      exact hclip
  | recordSuccess level =>
    simp only [apply, recordSuccess]
    split_ifs <;> rfl
  | recordFailure level now =>
    simp only [apply, recordFailure]
    split_ifs <;> first | rfl | exact hdown _ _ _
  | recordRequiredBadOpt => exact absurd rfl hrequired
  | reset => exact absurd rfl hreset
  | _ =>
    obtain ⟨flag, level, now, hlowered⟩ := hlowers rfl
    rw [hlowered]
    exact hdown _ level now

/-! ### After a required OPT record was broken -/

/-- The state of a server that broke a required OPT record, with the retry that was due before. -/
structure Broken (retryAfter : Option Nat) (state : ServerFeatureState) : Prop where
  required : state.requiredBadOpt = true
  possible : state.possible = .udp
  retryAfter : state.retryAfter = retryAfter

/-- A call of `possible_level` that is not at the time of the retry or after, or may not go up. -/
def WithoutRetry (retryAfter : Option Nat) : FeatureOp → Prop
  | .possibleLevel best _ now => best = .udp ∨ ∀ due, retryAfter = some due → now < due
  | _ => True

/-- The call returns the plain level. -/
def ReturnsUdp (state : ServerFeatureState) : FeatureOp → Prop
  | .possibleLevel best minimum now => (state.possibleLevel best minimum now).1 = .udp
  | _ => True

section

variable {retryAfter : Option Nat} {state : ServerFeatureState} (h : Broken retryAfter state)
include h

theorem Broken.clipped (best minimum : FeatureLevel) : state.clipped best minimum = state := by
  rw [clipped_of_required state best minimum h.required, ← h.possible]

/-- The level stays plain exactly without a retry that is due, and so does the state. -/
theorem Broken.possibleLevel (best minimum : FeatureLevel) (now : Nat) :
    ((state.possibleLevel best minimum now).1 = .udp ↔
      WithoutRetry retryAfter (.possibleLevel best minimum now)) ∧
    (WithoutRetry retryAfter (.possibleLevel best minimum now) →
      (state.possibleLevel best minimum now).2 = state) := by
  have hcases := possibleLevel_cases state best minimum now
  rw [h.clipped best minimum, h.possible] at hcases
  rcases hcases with ⟨hbest, ⟨due, hdue, hle⟩, hresult⟩ | ⟨hnot, hresult⟩
  · have hne : best ≠ .udp := udp_lt_iff.mp hbest
    have hlate : ¬ WithoutRetry retryAfter (.possibleLevel best minimum now) := by
      rintro (hbad | hbefore)
      · exact hne hbad
      · exact absurd (hbefore due (h.retryAfter ▸ hdue)) (by omega)
    rw [hresult]
    exact ⟨iff_of_false hne hlate, fun hbad => absurd hbad hlate⟩
  · rw [hresult]
    refine ⟨iff_of_true rfl ?_, fun _ => rfl⟩
    refine or_iff_not_imp_left.mpr fun hne due hdue => ?_
    by_contra hlate
    exact hnot ⟨udp_lt_iff.mpr hne, due, h.retryAfter.trans hdue, by omega⟩

/-- Every operation but a reset leaves such a state as it is, unless it retries. -/
theorem Broken.apply (hop : op ≠ .reset) (hretry : WithoutRetry retryAfter op) :
    Broken retryAfter (apply state op) := by
  have hlowers := apply_of_lowers state op
  cases op with
  | possibleLevel best minimum now =>
    have hsame := (h.possibleLevel best minimum now).2 hretry
    rw [show FeatureRuns.apply state (.possibleLevel best minimum now) = state from hsame]
    exact h
  | recordSuccess level =>
    unfold FeatureRuns.apply recordSuccess
    dsimp only
    split_ifs <;> exact ⟨h.required, h.possible, h.retryAfter⟩
  | recordFailure level now =>
    unfold FeatureRuns.apply recordFailure
    dsimp only
    split_ifs with hother hfew hlowest
    · exact h
    · exact ⟨h.required, h.possible, h.retryAfter⟩
    · exact ⟨h.required, h.possible, h.retryAfter⟩
    · rw [h.possible] at hother
      exact absurd (lower_eq_iff.mpr (not_not.mp hother)) hlowest
  | recordRequiredBadOpt => exact ⟨rfl, rfl, h.retryAfter⟩
  | reset => exact absurd rfl hop
  | _ =>
    obtain ⟨flag, level, now, hlowered⟩ := hlowers rfl
    rw [hlowered, @downgradeTo_of_udp { state with badOpt := flag } h.possible]
    exact ⟨h.required, h.possible, h.retryAfter⟩

end

/-- **A server that broke a required OPT record stays at the plain level** exactly as long as no
retry from before falls due. -/
theorem required_bad_opt_sticks_iff (state : ServerFeatureState) (ops : List FeatureOp)
    (hreset : .reset ∉ ops) :
    AllSteps apply ReturnsUdp state.recordRequiredBadOpt ops ↔
      ∀ op ∈ ops, WithoutRetry state.retryAfter op := by
  have hall : ∀ {ops : List FeatureOp} {later : ServerFeatureState}, .reset ∉ ops →
      Broken state.retryAfter later →
      (AllSteps apply ReturnsUdp later ops ↔ ∀ op ∈ ops, WithoutRetry state.retryAfter op) := by
    intro ops
    induction ops with
    | nil => exact fun _ _ => iff_of_true trivial (by simp)
    | cons op ops ih =>
      intro later hreset hbroken
      have hfirst : ReturnsUdp later op ↔ WithoutRetry state.retryAfter op := by
        cases op with
        | possibleLevel best minimum now => exact (hbroken.possibleLevel best minimum now).1
        | _ => exact Iff.rfl
      have hop : op ≠ .reset := fun hbad => hreset (hbad ▸ List.mem_cons_self)
      have hrest : .reset ∉ ops := fun hbad => hreset (List.mem_cons_of_mem _ hbad)
      rw [List.forall_mem_cons, ← hfirst]
      exact and_congr_right fun hnow => ih hrest (hbroken.apply hop (hfirst.mp hnow))
  exact hall hreset ⟨rfl, rfl, rfl⟩

/-- Without a retry from before the level stays plain. -/
theorem required_bad_opt_sticks_on_new_server :
    AllSteps apply ReturnsUdp ServerFeatureState.initial.recordRequiredBadOpt
      [.recordFailure .udp 0, .possibleLevel .tlsDnssecOk .edns0 (featureGracePeriodMax + 1)] :=
  (required_bad_opt_sticks_iff _ _ (by decide)).mpr
    (by simp [WithoutRetry, ServerFeatureState.initial])

/-- A downgrade before the required OPT record was broken starts a retry, and five minutes later the
server is asked at the best level again. -/
theorem retry_unsticks_required_bad_opt :
    let state := (ServerFeatureState.initial.downgradeTo .edns0 0).recordRequiredBadOpt
    state.requiredBadOpt = true ∧
      (state.possibleLevel .tlsDnssecOk .udp featureGracePeriodMin).1 = .tlsDnssecOk := by
  decide

/-- **What a failure does**: at another level nothing; at the level it is counted, and the third one
takes the level down, if there is a lower one. -/
theorem recordFailure_cases (state : ServerFeatureState) (level : FeatureLevel) (now : Nat) :
    (level ≠ state.possible ∧ state.recordFailure level now = (none, state)) ∨
    (level = state.possible ∧
      (saturatingIncrement state.failedAttempts < featureRetryAttempts ∨ state.possible = .udp) ∧
      state.recordFailure level now =
        (none, { state with failedAttempts := saturatingIncrement state.failedAttempts })) ∨
    (level = state.possible ∧ featureRetryAttempts ≤ saturatingIncrement state.failedAttempts ∧
      level ≠ .udp ∧ (state.recordFailure level now).1 = some level.lower ∧
      (state.recordFailure level now).2.failedAttempts = 0) := by
  by_cases hlevel : level = state.possible
  · subst hlevel
    unfold recordFailure
    simp only [ne_eq, not_true_eq_false, if_false]
    by_cases hfew : saturatingIncrement state.failedAttempts < featureRetryAttempts
    · exact .inr (.inl ⟨trivial, .inl hfew, if_pos hfew⟩)
    · rw [if_neg hfew]
      by_cases hudp : state.possible = .udp
      · exact .inr (.inl ⟨trivial, .inr hudp, if_pos (lower_eq_iff.mpr hudp)⟩)
      · rw [if_neg (fun hbad => hudp (lower_eq_iff.mp hbad))]
        refine .inr (.inr ⟨trivial, not_lt.mp hfew, hudp, rfl, ?_⟩)
        have hlower : ¬ state.possible ≤ state.possible.lower := not_le.mpr (lower_lt hudp)
        simp [downgradeTo, hlower]
  · exact .inl ⟨hlevel, by simp [recordFailure, hlevel]⟩

/-! ### Failures since the level changed -/

theorem saturatingIncrement_le (count : Nat) : saturatingIncrement count ≤ count + 1 :=
  min_le_right _ _

def levelChanges (state : ServerFeatureState) : FeatureOp → Bool
  | .possibleLevel best minimum now =>
    -- a server that broke a required OPT record can be clipped to the plain level and come back
    (state.clipped best minimum).possible ≠ state.possible ∨
      (state.possibleLevel best minimum now).1 ≠ (state.clipped best minimum).possible
  | op => (apply state op).possible ≠ state.possible

/-- What an operation that leaves the level adds to the failures that count. -/
def countFailures (failures : FeatureLevel → Nat) : FeatureOp → FeatureLevel → Nat
  | .recordFailure level _ => Function.update failures level (failures level + 1)
  | .recordSuccess level => Function.update failures level 0
  | _ => failures

/-- The state of a server and what the run so far says about it: for each level the calls of
`record_failure` since the level changed or a success at it, and whether a required OPT record was
broken. -/
structure Tally where
  state : ServerFeatureState
  failures : FeatureLevel → Nat
  requiredBroken : Bool

namespace Tally

def initial : Tally := ⟨.initial, fun _ => 0, false⟩

section
variable (tally : Tally)

def step (op : FeatureOp) : Tally where
  state := apply tally.state op
  failures :=
    if levelChanges tally.state op then fun _ => 0 else countFailures tally.failures op
  requiredBroken := match op with
    | .recordRequiredBadOpt => true
    | .reset => false
    | _ => tally.requiredBroken

/-- A failure takes the level down only as the third one at least. -/
def ThirdFailure : FeatureOp → Prop
  | .recordFailure level now =>
    ∀ lower, (tally.state.recordFailure level now).1 = some lower → 3 ≤ tally.failures level + 1
  | _ => True

/-- The level returned is at most the best one, and at least the minimum if that can be had. -/
def Bounded : FeatureOp → Prop
  | .possibleLevel best minimum now =>
    (tally.state.possibleLevel best minimum now).1 ≤ best ∧
      (tally.requiredBroken = false →
        min minimum best ≤ (tally.state.possibleLevel best minimum now).1)
  | _ => True

/-- The call does not clip the level to a best one below it, with EDNS and not below the minimum,
while failures count. -/
def KeepsCount : FeatureOp → Prop
  | .possibleLevel best minimum _ =>
    ¬ (tally.state.requiredBadOpt = false ∧ .udp < best ∧ best < tally.state.possible ∧
        minimum ≤ best ∧ 0 < tally.state.failedAttempts)
  | _ => True

/-- The failures that the state counts at its level were all there. -/
def Counted : Prop :=
  tally.state.possible = .udp ∨ tally.state.failedAttempts ≤ tally.failures tally.state.possible

end

end Tally

/-- The operation ends at the plain level, or the count starts anew, or the level and the count
stay. -/
def CountKept (state : ServerFeatureState) (op : FeatureOp) : Prop :=
  (apply state op).possible = .udp ∨ (apply state op).failedAttempts = 0 ∨
    (levelChanges state op = false ∧ (apply state op).possible = state.possible ∧
      (apply state op).failedAttempts = state.failedAttempts)

theorem countKept_of_apply
    (hchanges : levelChanges state op = decide ((apply state op).possible ≠ state.possible))
    (h : (apply state op).failedAttempts = 0 ∨
      (apply state op).possible = state.possible ∧
        (apply state op).failedAttempts = state.failedAttempts) : CountKept state op :=
  .inr (h.imp_right fun ⟨hlevel, hsame⟩ => ⟨by simp [hchanges, hlevel], hlevel, hsame⟩)

theorem downgradeTo_count (state : ServerFeatureState) (level : FeatureLevel) (now : Nat) :
    (state.downgradeTo level now).failedAttempts = 0 ∨
      (state.downgradeTo level now).possible = state.possible ∧
        (state.downgradeTo level now).failedAttempts = state.failedAttempts := by
  unfold downgradeTo
  split_ifs
  · exact .inr ⟨rfl, rfl⟩
  · exact .inl rfl

variable {tally : Tally}

theorem countKept_possibleLevel {best minimum : FeatureLevel} {now : Nat}
    (h : tally.KeepsCount (.possibleLevel best minimum now)) :
    CountKept tally.state (.possibleLevel best minimum now) := by
  simp only [CountKept, levelChanges, apply]
  rcases possibleLevel_cases tally.state best minimum now with ⟨-, -, hretry⟩ | ⟨-, hclipped⟩
  · rw [hretry]
    exact .inr (.inl rfl)
  · rw [hclipped]
    cases hrequired : tally.state.requiredBadOpt with
    | true =>
      rw [clipped_of_required _ _ _ hrequired]
      exact .inl rfl
    | false =>
      rw [clipped_of_not_required _ _ _ hrequired]
      split_ifs with hraise
      · exact .inr (.inl rfl)
      · rcases le_or_gt tally.state.possible best with hle | hlt
        · exact .inr (.inr ⟨by simp [min_eq_left hle], min_eq_left hle, rfl⟩)
        · -- the clip to a lower level, with the count kept
          have hbest : min tally.state.possible best = best := min_eq_right hlt.le
          rw [hbest] at hraise ⊢
          rcases Nat.eq_zero_or_pos tally.state.failedAttempts with hnone | hsome
          · exact .inr (.inl hnone)
          · refine .inl ?_
            by_contra hudp
            exact h ⟨hrequired, udp_lt_iff.mpr hudp, hlt, not_lt.mp hraise, hsome⟩

namespace Tally

section
variable (h : tally.Counted)
include h

/-- A count that is kept stays covered by the failures, which only a change of the level forgets. -/
theorem Counted.of_kept (hcount : countFailures tally.failures op = tally.failures)
    (hkept : CountKept tally.state op) : (tally.step op).Counted := by
  rcases hkept with hudp | hzero | ⟨hunchanged, hlevel, hsame⟩
  · exact .inl hudp
  · exact .inr (by simp [step, hzero])
  · refine h.imp (fun hudp => hlevel.trans hudp) fun hle => ?_
    simp only [step, hunchanged, hlevel, hsame, hcount]
    exact hle

theorem Counted.recordSuccess (level : FeatureLevel) :
    (tally.step (.recordSuccess level)).Counted := by
  have hlevel : (tally.state.recordSuccess level).possible = tally.state.possible := by
    unfold ServerFeatureState.recordSuccess
    dsimp only
    split_ifs <;> rfl
  have hunchanged : levelChanges tally.state (.recordSuccess level) = false := by
    simp [levelChanges, apply, hlevel]
  refine h.imp (fun hudp => hlevel.trans hudp) fun hle => ?_
  simp only [step, hunchanged, apply, hlevel, countFailures]
  rcases eq_or_ne level tally.state.possible with rfl | hne
  · have hzero : (tally.state.recordSuccess tally.state.possible).failedAttempts = 0 := by
      unfold ServerFeatureState.recordSuccess
      dsimp only
      split_ifs <;> first | rfl | contradiction
    simp [hzero]
  · have hsame : (tally.state.recordSuccess level).failedAttempts = tally.state.failedAttempts := by
      unfold ServerFeatureState.recordSuccess
      dsimp only
      split_ifs <;> rfl
    simpa [hsame, Function.update_of_ne hne.symm] using hle

/-- A failure that leaves the level is counted on both sides, and one that does not clears both. -/
theorem Counted.recordFailure (level : FeatureLevel) (now : Nat) :
    (tally.step (.recordFailure level now)).Counted := by
  rcases recordFailure_cases tally.state level now with
    ⟨hne, hresult⟩ | ⟨rfl, -, hresult⟩ | ⟨rfl, -, -, -, hzero⟩
  · have hunchanged : levelChanges tally.state (.recordFailure level now) = false := by
      simp [levelChanges, apply, hresult]
    refine h.imp (fun hudp => by simpa [step, apply, hresult] using hudp) fun hle => ?_
    simpa [step, hunchanged, apply, hresult, countFailures, Function.update_of_ne hne.symm] using
      hle
  · have hunchanged : levelChanges tally.state (.recordFailure tally.state.possible now) =
        false := by
      simp [levelChanges, apply, hresult]
    refine h.imp (fun hudp => by simpa [step, apply, hresult] using hudp) fun hle => ?_
    simp only [step, hunchanged, apply, hresult, countFailures]
    exact (saturatingIncrement_le _).trans (by simpa using hle)
  · exact .inr (by simp [step, apply, hzero])

/-- Every step that meets the condition keeps the failures counted. -/
theorem Counted.step (op : FeatureOp) (hop : tally.KeepsCount op) : (tally.step op).Counted := by
  have hlowers := apply_of_lowers tally.state op
  cases op with
  | possibleLevel best minimum now => exact h.of_kept rfl (countKept_possibleLevel hop)
  | recordSuccess level => exact h.recordSuccess level
  | recordFailure level now => exact h.recordFailure level now
  | recordRequiredBadOpt => exact .inl rfl
  | reset => exact .inr (Nat.zero_le _)
  | _ =>
    obtain ⟨flag, level, now, hlowered⟩ := hlowers rfl
    refine h.of_kept rfl (countKept_of_apply rfl ?_)
    rw [hlowered]
    exact downgradeTo_count { tally.state with badOpt := flag } level now

theorem Counted.thirdFailure (op : FeatureOp) : tally.ThirdFailure op := by
  cases op with
  | recordFailure level now =>
    intro lower hlower
    rcases recordFailure_cases tally.state level now with
      ⟨-, hresult⟩ | ⟨-, -, hresult⟩ | ⟨rfl, hthree, hne, -, -⟩
    iterate 2
      · rw [hresult] at hlower
        cases hlower
    · have hplus := saturatingIncrement_le tally.state.failedAttempts
      have hcounted := h.resolve_left hne
      unfold featureRetryAttempts at hthree
      omega
  | _ => trivial

end

/-- The state knows whether a required OPT record was broken. -/
def FlagKept (tally : Tally) : Prop := tally.state.requiredBadOpt = tally.requiredBroken

theorem FlagKept.step (h : tally.FlagKept) (op : FeatureOp) : (tally.step op).FlagKept := by
  have hflag := apply_requiredBadOpt tally.state op
  cases op with
  | recordRequiredBadOpt => rfl
  | reset => rfl
  | _ => exact (hflag (by simp) (by simp)).trans h

theorem FlagKept.bounded (h : tally.FlagKept) (op : FeatureOp) : tally.Bounded op := by
  cases op with
  | possibleLevel best minimum now =>
    refine ⟨possibleLevel_le _ _ _ _, fun hnever => ?_⟩
    rcases possibleLevel_cases _ _ _ _ with ⟨-, -, hretry⟩ | ⟨-, hclipped⟩
    · rw [hretry]
      exact min_le_right _ _
    · rw [hclipped, clipped_of_not_required _ _ _ (h.trans hnever)]
      split_ifs with hraise
      · exact le_refl _
      · exact (min_le_left _ _).trans (not_lt.mp hraise)
  | _ => trivial

end Tally

/-- **A failure takes the level down only after three failures at it**, in every run in which the
level is never clipped while failures count; and the level is always between the bounds given. -/
theorem third_failure_downgrades (ops : List FeatureOp) :
    (AllSteps Tally.step Tally.KeepsCount .initial ops →
      AllSteps Tally.step Tally.ThirdFailure .initial ops) ∧
    AllSteps Tally.step Tally.Bounded .initial ops := by
  constructor
  · refine AllSteps.of_invariant Tally.Counted (fun tally op hcounted hop => ?_)
      (.inr (Nat.zero_le _))
    exact ⟨hcounted.thirdFailure op, hcounted.step op hop⟩
  · refine allSteps_of_invariant Tally.FlagKept rfl fun op _ tally hflag => ?_
    exact ⟨hflag.bounded op, hflag.step op⟩

/-- Three failures at the best level, with the level asked for before each. -/
theorem third_failure_downgrades_new_server :
    AllSteps Tally.step Tally.ThirdFailure .initial
      [.possibleLevel .tlsDnssecOk .udp 0, .recordFailure .tlsDnssecOk 0,
        .recordFailure .tlsDnssecOk 1, .possibleLevel .tlsDnssecOk .udp 2,
        .recordFailure .tlsDnssecOk 2, .possibleLevel .dnssecOk .udp 3] :=
  (third_failure_downgrades _).1 (by simp only [AllSteps, Tally.KeepsCount]; decide)

/-- Two failures at the best level and a call with a lower best one: the first failure there takes
the level down. -/
theorem clip_keeps_failures :
    ¬ AllSteps Tally.step Tally.ThirdFailure .initial
        [.recordFailure .tlsDnssecOk 0, .recordFailure .tlsDnssecOk 0,
          .possibleLevel .dnssecOk .udp 0, .recordFailure .dnssecOk 0] := by
  rintro ⟨-, -, -, hbad, -⟩
  exact absurd (hbad .edns0 (by decide)) (by decide)

end RustdResolved.Edns.FeatureRuns
