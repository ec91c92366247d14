import RustdResolved.Lib.Runs
import RustdResolved.Query.SingleFlight
import RustdResolved.Resolver.Error

/-! # Leaders and followers

Any number of threads begin transactions, and each entry has the leader that made it. A leader that
completes or is dropped first gives the entry its response and then takes it out of the table, in
two steps between which the other threads run. A run is any list of such steps.

The table has exactly the entries whose leaders have not come to their end (`Flown.linked`), so no
key has two of them, and what a follower gets is what the leader of its entry left behind. -/

namespace RustdResolved.Query.Leaders

open List Lib.Runs Resolver.Error SingleFlight

variable {entry : Nat} {κ ρ : Type}

/-- How far a leader has come; its response is nothing if it was dropped. -/
inductive Stage (ρ : Type)
  | active
  /-- The followers are released, and the entry is still in the table. -/
  | published (response : Option ρ)
  | finished (response : Option ρ)
  deriving DecidableEq, Repr

/-- What a leader has left for its followers. -/
def Stage.outcome : Stage ρ → Option (Option ρ)
  | .active => none
  | .published response | .finished response => some response

def Stage.isFinished : Stage ρ → Bool
  | .finished _ => true
  | _ => false

/-- The transactions, with the leader of each entry. -/
structure Threads (κ ρ : Type) where
  inflight : Inflight κ ρ
  leaders : List (Stage ρ)

def Threads.empty : Threads κ ρ := ⟨.empty, []⟩

inductive Step (κ ρ : Type)
  /-- A thread begins a transaction. -/
  | beginFor (key : κ)
  /-- The leader of an entry completes. -/
  | complete (entry : Nat) (response : Option ρ)
  /-- The leader of an entry is dropped. -/
  | drop (entry : Nat)
  /-- The leader of an entry takes it out of the table. -/
  | unlink (entry : Nat)

section
variable [DecidableEq κ]

section
variable (threads : Threads κ ρ)

/-- The first part of `finish`, for a leader that is active. -/
def Threads.publish (entry : Nat) (response : Option ρ) : Threads κ ρ :=
  match threads.leaders[entry]? with
  | some .active =>
    ⟨threads.inflight.publish entry response, threads.leaders.set entry (.published response)⟩
  | _ => threads

/-- The second part of `finish`, for a leader that has done the first. -/
def Threads.unlink (entry : Nat) : Threads κ ρ :=
  match threads.leaders[entry]?, threads.inflight.entries[entry]? with
  | some (.published response), some state =>
    ⟨threads.inflight.unlink state.key entry, threads.leaders.set entry (.finished response)⟩
  | _, _ => threads

def step : Step κ ρ → Threads κ ρ
  | .beginFor key =>
    match threads.inflight.beginFor key with
    | (.leader _, inflight) => ⟨inflight, threads.leaders ++ [.active]⟩
    | (.follower _, inflight) => ⟨inflight, threads.leaders⟩
  | .complete entry response => threads.publish entry response
  | .drop entry => threads.publish entry none
  | .unlink entry => threads.unlink entry

end

end

section
variable (threads : Threads κ ρ)

/-- One round of `wait`: nothing while the leader runs, unless the waiting query was cancelled. -/
def Threads.wait (entry : Nat) (cancelled : Bool) : Option (Except ResolveError (Option ρ)) :=
  match threads.inflight.wait entry with
  | .running => if cancelled then some (.error .queryAborted) else none
  | .finished response => some (.ok response)

/-- What the leader of an entry has left. -/
def Threads.outcome (entry : Nat) : Option (Option ρ) :=
  (threads.leaders[entry]?).bind Stage.outcome

/-- An entry for the key has a leader that has not come to its end. -/
def Threads.Leads (key : κ) (entry : Nat) : Prop :=
  threads.inflight.Made key entry ∧
    ∃ stage, threads.leaders[entry]? = some stage ∧ stage.isFinished = false

end

/-! ### The invariant -/

/-- An entry is as its leader has left it. -/
def Agrees (state : InflightEntry κ ρ) (stage : Stage ρ) : Prop :=
  (state.running = true ∧ stage.outcome = none) ∨
    (state.running = false ∧ stage.outcome = some state.response)

/-- What holds of the threads at any time. -/
structure Flown [DecidableEq κ] (threads : Threads κ ρ) : Prop where
  paired : threads.leaders.length = threads.inflight.entries.length
  agrees : ∀ (entry : Nat) state stage, threads.inflight.entries[entry]? = some state →
    threads.leaders[entry]? = some stage → Agrees state stage
  linked : ∀ key entry, threads.inflight.table.lookup key = some entry ↔ threads.Leads key entry

theorem getElem?_concat_iff {α : Type} {l : List α} {a b : α} {i : Nat} :
    (l ++ [a])[i]? = some b ↔ l[i]? = some b ∨ (i = l.length ∧ b = a) := by
  rcases Nat.lt_trichotomy i l.length with hlt | rfl | hgt
  · rw [getElem?_append_left hlt]
    simp [Nat.ne_of_lt hlt]
  · simp [eq_comm]
  · rw [getElem?_eq_none (by simp; omega), getElem?_eq_none (by omega)]
    simp [Nat.ne_of_gt hgt]

/-- The same leader of another stage, if it has come to its end in neither or in both. -/
theorem Threads.leads_congr {threads threads' : Threads κ ρ} {key : κ}
    (hmade : threads'.inflight.Made key entry ↔ threads.inflight.Made key entry)
    (hstage : (threads'.leaders[entry]?).map Stage.isFinished =
      (threads.leaders[entry]?).map Stage.isFinished) :
    threads'.Leads key entry ↔ threads.Leads key entry := by
  have hunfinished : ∀ leader : Option (Stage ρ),
      (∃ stage, leader = some stage ∧ stage.isFinished = false) ↔
        leader.map Stage.isFinished = some false := by
    intro leader
    rw [Option.map_eq_some_iff]
  unfold Threads.Leads
  rw [hmade, hunfinished, hunfinished, hstage]

section
variable {threads : Threads κ ρ} {response : Option ρ} {other : Nat}

theorem Threads.publish_cases (threads : Threads κ ρ) :
    threads.publish entry response = threads ∨
      (threads.leaders[entry]? = some .active ∧ threads.publish entry response =
        ⟨threads.inflight.publish entry response,
          threads.leaders.set entry (.published response)⟩) := by
  unfold Threads.publish
  split
  · exact Or.inr ⟨‹_›, rfl⟩
  · exact Or.inl rfl

/-- An active leader leaves what it publishes. -/
theorem outcome_publish_self (hactive : threads.leaders[entry]? = some .active)
    (response : Option ρ) : (threads.publish entry response).outcome entry = some response := by
  unfold Threads.outcome Threads.publish
  rw [hactive]
  rw [getElem?_set_self (List.getElem?_eq_some_iff.mp hactive).1]
  rfl

/-- Publishing changes what the leader of the entry has left, and only if it was active. -/
theorem outcome_publish {entry : Nat} :
    (threads.publish other response).outcome entry = threads.outcome entry ∨
      (other = entry ∧ threads.leaders[entry]? = some .active) := by
  obtain heq | ⟨hactive, heq⟩ := threads.publish_cases
  · exact Or.inl (by rw [heq])
  · by_cases hother : other = entry
    · subst hother
      exact Or.inr ⟨rfl, hactive⟩
    · refine Or.inl ?_
      rw [heq]
      unfold Threads.outcome
      rw [getElem?_set_ne hother]

theorem publish_table :
    (threads.publish entry response).inflight.table = threads.inflight.table := by
  obtain heq | ⟨-, heq⟩ := threads.publish_cases
  · rw [heq]
  · rw [heq]
    rfl

theorem made_publish_iff {inflight : Inflight κ ρ} {key : κ} :
    (inflight.publish entry response).Made key other ↔ inflight.Made key other := by
  refine ⟨?_, Inflight.extends_publish key other⟩
  rintro ⟨state, hstate, rfl⟩
  unfold Inflight.publish at hstate
  rw [getElem?_modify] at hstate
  obtain ⟨before, hbefore, rfl⟩ := Option.map_eq_some_iff.mp hstate
  refine ⟨before, hbefore, ?_⟩
  split_ifs <;> rfl

end

section
variable [DecidableEq κ] {threads : Threads κ ρ} {key : κ} {actions : List (Step κ ρ)}
  {action : Step κ ρ} {response : Option ρ}

theorem Flown.empty : Flown (Threads.empty : Threads κ ρ) where
  paired := rfl
  agrees := by
    intro entry state stage h
    cases h
  linked := by
    intro key entry
    constructor
    · intro h
      cases h
    · rintro ⟨⟨state, hstate, -⟩, -⟩
      cases hstate

def Threads.withLeader (threads : Threads κ ρ) (key : κ) : Threads κ ρ :=
  ⟨⟨threads.inflight.table.insert key threads.inflight.entries.length,
    threads.inflight.entries ++ [⟨key, true, none⟩]⟩, threads.leaders ++ [.active]⟩

theorem step_beginFor (key : κ) :
    (∃ entry, threads.inflight.table.lookup key = some entry ∧
      step threads (.beginFor key) = threads) ∨
    (threads.inflight.table.lookup key = none ∧
      step threads (.beginFor key) = threads.withLeader key) := by
  cases hlookup : threads.inflight.table.lookup key with
  | some entry =>
    refine Or.inl ⟨entry, rfl, ?_⟩
    simp only [step, Inflight.beginFor, hlookup]
  | none =>
    refine Or.inr ⟨rfl, ?_⟩
    simp only [step, Inflight.beginFor, hlookup, Threads.withLeader]

theorem Flown.leads_withLeader (h : Flown threads) {other : κ} :
    (threads.withLeader key).Leads other entry ↔
      threads.Leads other entry ∨ (other = key ∧ entry = threads.inflight.entries.length) := by
  unfold Threads.Leads Inflight.Made Threads.withLeader
  simp only [getElem?_concat_iff, h.paired]
  constructor
  · rintro ⟨⟨state, hstate | ⟨rfl, rfl⟩, rfl⟩, stage, hstage, hunfinished⟩
    · refine Or.inl ⟨⟨state, hstate, rfl⟩, stage, hstage.resolve_right ?_, hunfinished⟩
      rintro ⟨rfl, -⟩
      rw [getElem?_eq_none (le_refl _)] at hstate
      cases hstate
    · exact Or.inr ⟨rfl, rfl⟩
  · rintro (⟨⟨state, hstate, rfl⟩, stage, hstage, hunfinished⟩ | ⟨rfl, rfl⟩)
    · exact ⟨⟨state, Or.inl hstate, rfl⟩, stage, Or.inl hstage, hunfinished⟩
    · exact ⟨⟨_, Or.inr ⟨rfl, rfl⟩, rfl⟩, .active, Or.inr ⟨rfl, rfl⟩, rfl⟩

/-- A transaction that is begun where there is none has a new entry with an active leader. -/
theorem Flown.withLeader (h : Flown threads)
    (hnone : threads.inflight.table.lookup key = none) : Flown (threads.withLeader key) := by
  have hpaired := h.paired
  refine ⟨by simp [Threads.withLeader, hpaired], ?_, ?_⟩
  · intro entry state stage hstate hstage
    unfold Threads.withLeader at hstate hstage
    rw [getElem?_concat_iff] at hstate hstage
    rcases hstate with hstate | ⟨rfl, rfl⟩
    · rcases hstage with hstage | ⟨rfl, rfl⟩
      · exact h.agrees entry state stage hstate hstage
      · rw [hpaired, getElem?_eq_none (le_refl _)] at hstate
        cases hstate
    · rcases hstage with hstage | ⟨-, rfl⟩
      · rw [← hpaired, getElem?_eq_none (le_refl _)] at hstage
        cases hstage
      · exact Or.inl ⟨rfl, rfl⟩
  · intro other entry
    rw [h.leads_withLeader, ← h.linked]
    unfold Threads.withLeader
    by_cases heq : other = key
    · subst heq
      rw [AList.lookup_insert, hnone]
      simp [eq_comm]
    · rw [AList.lookup_insert_ne heq]
      simp [heq]

theorem Flown.publish (h : Flown threads) (entry : Nat) (response : Option ρ) :
    Flown (threads.publish entry response) := by
  obtain heq | ⟨hactive, heq⟩ := threads.publish_cases
  · rw [heq]
    exact h
  · rw [heq]
    refine ⟨by simp [Inflight.publish, h.paired], ?_, ?_⟩
    · intro other state stage hstate hstage
      simp only [Inflight.publish, getElem?_modify, getElem?_set] at hstate hstage
      obtain ⟨before, hbefore, rfl⟩ := Option.map_eq_some_iff.mp hstate
      by_cases hother : entry = other
      · subst hother
        rw [if_pos rfl, if_pos (List.getElem?_eq_some_iff.mp hactive).1] at hstage
        cases hstage
        simp [Agrees, Stage.outcome]
      · rw [if_neg hother] at hstage
        simp only [if_neg hother]
        exact h.agrees other before stage hbefore hstage
    · intro key other
      refine (h.linked key other).trans (Threads.leads_congr made_publish_iff ?_).symm
      rw [getElem?_set]
      split_ifs with hother hlt
      · subst hother
        rw [hactive]
        rfl
      · subst hother
        rw [getElem?_eq_none (by omega)]
      · rfl

theorem Threads.unlink_cases (threads : Threads κ ρ) :
    threads.unlink entry = threads ∨
      ∃ response state, threads.leaders[entry]? = some (.published response) ∧
        threads.inflight.entries[entry]? = some state ∧ threads.unlink entry =
          ⟨threads.inflight.unlink state.key entry,
            threads.leaders.set entry (.finished response)⟩ := by
  unfold Threads.unlink
  split
  · exact Or.inr ⟨_, _, ‹_›, ‹_›, rfl⟩
  · exact Or.inl rfl

theorem Flown.unlink (h : Flown threads) (entry : Nat) : Flown (threads.unlink entry) := by
  obtain heq | ⟨response, state, hleader, hstate, heq⟩ := threads.unlink_cases
  · rw [heq]
    exact h
  have hleads : threads.Leads state.key entry := ⟨⟨state, hstate, rfl⟩, _, hleader, rfl⟩
  have hlookup := (h.linked state.key entry).mpr hleads
  have hunlink : threads.inflight.unlink state.key entry =
      ⟨threads.inflight.table.erase state.key, threads.inflight.entries⟩ := if_pos hlookup
  rw [heq, hunlink]
  refine ⟨by simp [h.paired], ?_, ?_⟩
  · intro other before stage hbefore hstage
    by_cases hother : entry = other
    · subst hother
      rw [getElem?_set_self (List.getElem?_eq_some_iff.mp hleader).1] at hstage
      cases hstage
      have hagrees := h.agrees entry before (.published response) hbefore hleader
      exact hagrees
    · rw [getElem?_set_ne hother] at hstage
      exact h.agrees other before stage hbefore hstage
  · intro key other
    by_cases hother : other = entry
    · subst hother
      refine iff_of_false ?_ ?_
      · by_cases hkey : key = state.key
        · subst hkey
          simp
        · rw [AList.lookup_erase_ne hkey, h.linked]
          rintro ⟨hmade, -⟩
          exact hkey (hleads.1.unique hmade)
      · rintro ⟨-, stage, hstage, hunfinished⟩
        rw [getElem?_set_self (List.getElem?_eq_some_iff.mp hleader).1] at hstage
        cases hstage
        cases hunfinished
    · -- only the leader of the entry comes to its end
      refine Iff.trans ?_ ((h.linked key other).trans (Threads.leads_congr ?_ ?_).symm)
      rotate_left
      · exact Iff.rfl
      · rw [getElem?_set_ne (Ne.symm hother)]
      by_cases hkey : key = state.key
      · subst hkey
        rw [AList.lookup_erase, hlookup]
        simp [Ne.symm hother]
      · rw [AList.lookup_erase_ne hkey]

/-- **One step keeps the invariant.** -/
theorem Flown.step (h : Flown threads) (action : Step κ ρ) : Flown (step threads action) := by
  cases action with
  | beginFor key =>
    obtain ⟨entry, -, heq⟩ | ⟨hnone, heq⟩ := step_beginFor key
    · rw [heq]
      exact h
    · rw [heq]
      exact h.withLeader hnone
  | complete entry response => exact h.publish entry response
  | drop entry => exact h.publish entry none
  | unlink entry => exact h.unlink entry

theorem flown_run : Flown (run step .empty actions) :=
  run_preserves Flown (fun _ action h => h.step action) actions .empty .empty

/-! ### Outcomes -/

theorem outcome_withLeader (key : κ) (entry : Nat) :
    (threads.withLeader key).outcome entry = threads.outcome entry := by
  unfold Threads.outcome Threads.withLeader
  rcases Nat.lt_trichotomy entry threads.leaders.length with hlt | rfl | hgt
  · rw [getElem?_append_left hlt]
  · rw [getElem?_concat_length, getElem?_eq_none (le_refl _)]
    rfl
  · rw [getElem?_eq_none (by simp; omega), getElem?_eq_none (by omega)]

theorem outcome_unlink {entry other : Nat} :
    (threads.unlink other).outcome entry = threads.outcome entry := by
  obtain heq | ⟨response, state, hleader, -, heq⟩ := threads.unlink_cases
  · rw [heq]
  · rw [heq]
    unfold Threads.outcome
    by_cases hother : other = entry
    · subst hother
      rw [getElem?_set_self (List.getElem?_eq_some_iff.mp hleader).1, hleader]
      rfl
    · rw [getElem?_set_ne hother]

/-- The step is the one by which the leader of an entry leaves the response. -/
def Step.Leaves (entry : Nat) (response : Option ρ) (action : Step κ ρ) : Prop :=
  action = .complete entry response ∨ (action = .drop entry ∧ response = none)

theorem step_of_leaves
    (h : action.Leaves entry response) : step threads action = threads.publish entry response := by
  rcases h with rfl | ⟨rfl, rfl⟩ <;> rfl

/-- What a leader has left is changed by its own step only, and only if it was active. -/
theorem outcome_step (action : Step κ ρ) :
    (step threads action).outcome entry = threads.outcome entry ∨
      ∃ response, action.Leaves entry response ∧ threads.leaders[entry]? = some .active := by
  cases action with
  | beginFor key =>
    obtain ⟨other, -, heq⟩ | ⟨-, heq⟩ := step_beginFor key
    · exact Or.inl (by rw [heq])
    · exact Or.inl (by rw [heq, outcome_withLeader])
  | complete other response =>
    refine outcome_publish.imp_right ?_
    rintro ⟨rfl, hactive⟩
    exact ⟨response, Or.inl rfl, hactive⟩
  | drop other =>
    refine outcome_publish.imp_right ?_
    rintro ⟨rfl, hactive⟩
    exact ⟨none, Or.inr ⟨rfl, rfl⟩, hactive⟩
  | unlink other => exact Or.inl outcome_unlink

theorem outcome_stays (h : threads.outcome entry = some response) :
    (run step threads actions).outcome entry = some response := by
  refine run_preserves (fun threads => threads.outcome entry = some response) ?_ actions threads h
  intro before action hbefore
  obtain heq | ⟨-, -, hactive⟩ := outcome_step action
  · rw [heq]
    exact hbefore
  · rw [Threads.outcome, hactive] at hbefore
    cases hbefore

/-- A response that a leader has left was left by it, while it was active. -/
theorem leaves_of_outcome :
    (run step .empty actions).outcome entry = some response →
      ∃ before action after, actions = before ++ action :: after ∧ action.Leaves entry response ∧
        (run step .empty before).leaders[entry]? = some .active := by
  induction actions using reverseRecOn with
  | nil =>
    intro h
    cases h
  | append_singleton actions last ih =>
    intro h
    rw [run_concat] at h
    obtain heq | ⟨left, hleaves, hactive⟩ := outcome_step last
    · obtain ⟨before, action, after, rfl, hrest⟩ := ih (heq ▸ h)
      exact ⟨before, action, after ++ [last], by simp, hrest⟩
    · rw [step_of_leaves hleaves, outcome_publish_self hactive] at h
      cases h
      exact ⟨actions, last, [], rfl, hleaves, hactive⟩

/-- **What a follower finds is what the leader of its entry has left.** -/
theorem Flown.wait (h : Flown threads) (hentry : entry < threads.inflight.entries.length)
    (cancelled : Bool) : threads.wait entry cancelled =
      match threads.outcome entry with
      | some response => some (.ok response)
      | none => if cancelled then some (.error .queryAborted) else none := by
  have hleader : entry < threads.leaders.length := h.paired ▸ hentry
  have hagrees := h.agrees entry _ _ (getElem?_eq_getElem hentry)
    (getElem?_eq_getElem hleader)
  unfold Threads.wait Threads.outcome Inflight.wait
  rw [getElem?_eq_getElem hentry, getElem?_eq_getElem hleader]
  rcases hagrees with ⟨hrunning, houtcome⟩ | ⟨hrunning, houtcome⟩
  · simp [hrunning, houtcome]
  · simp [hrunning, houtcome]

/-- An entry leaves the table by the second step of its own leader. -/
theorem Flown.unlinked (h : Flown threads)
    (hbefore : threads.inflight.table.lookup key = some entry)
    (hafter : (Leaders.step threads action).inflight.table.lookup key ≠ some entry) :
    action = .unlink entry := by
  by_contra hother
  refine hafter ?_
  cases action with
  | beginFor other =>
    obtain ⟨-, -, heq⟩ | ⟨hnone, heq⟩ := step_beginFor other
    · rw [heq]
      exact hbefore
    · rw [heq, (h.withLeader hnone).linked, h.leads_withLeader, ← h.linked]
      exact Or.inl hbefore
  | complete | drop => exact publish_table.symm ▸ hbefore
  | unlink other =>
    have hne : entry ≠ other := fun heq => hother (heq ▸ rfl)
    show (threads.unlink other).inflight.table.lookup key = some entry
    obtain heq | ⟨response, state, -, -, heq⟩ := threads.unlink_cases
    · rw [heq]
      exact hbefore
    · rw [heq]
      unfold Inflight.unlink
      split_ifs with hlookup
      · have hkey : key ≠ state.key := by
          rintro rfl
          exact hne (Option.some_injective _ (hbefore.symm.trans hlookup))
        exact (AList.lookup_erase_ne hkey).trans hbefore
      · exact hbefore

end

/-! ### Any interleaving -/

/-- **At any time there is one leader for a key, and followers get what it leaves.** For any steps
of any threads: two leaders of one key that have not come to their end are the same; the table has
the entries of exactly these leaders, and an entry leaves it by the step of its own leader; a
follower that returns without being cancelled has the response with which the leader of its entry
completed, or nothing if the leader was dropped, and once the leader has done either every follower
gets just that. -/
theorem single_flight [DecidableEq κ] (actions : List (Step κ ρ)) :
    (∀ key entry other, (run step .empty actions).Leads key entry →
      (run step .empty actions).Leads key other → entry = other) ∧
    (∀ key entry, (run step .empty actions).inflight.table.lookup key = some entry ↔
      (run step .empty actions).Leads key entry) ∧
    (∀ action key entry, (run step .empty actions).inflight.table.lookup key = some entry →
      (step (run step .empty actions) action).inflight.table.lookup key ≠ some entry →
      action = .unlink entry) ∧
    (∀ entry < (run step .empty actions).inflight.entries.length, ∀ cancelled response,
      (run step .empty actions).wait entry cancelled = some (.ok response) ↔
        ∃ before action after, actions = before ++ action :: after ∧ action.Leaves entry response ∧
          (run step .empty before).leaders[entry]? = some .active) ∧
    (∀ entry cancelled error, (run step .empty actions).wait entry cancelled = some (.error error) →
      cancelled = true ∧ error = .queryAborted) := by
  have hflown : Flown (run step .empty actions) := flown_run
  refine ⟨?_, hflown.linked, fun action key entry => hflown.unlinked, ?_, ?_⟩
  · intro key entry other hentry hother
    have heq :=
      ((hflown.linked key entry).mpr hentry).symm.trans ((hflown.linked key other).mpr hother)
    exact Option.some_injective _ heq
  · intro entry hentry cancelled response
    rw [hflown.wait hentry]
    constructor
    · intro hwait
      refine leaves_of_outcome ?_
      cases houtcome : (run step .empty actions).outcome entry with
      | some left =>
        rw [houtcome] at hwait
        cases hwait
        rfl
      | none =>
        rw [houtcome] at hwait
        cases cancelled <;> cases hwait
    · rintro ⟨before, action, after, rfl, hleaves, hactive⟩
      have hleft : (step (run step .empty before) action).outcome entry = some response := by
        rw [step_of_leaves hleaves, outcome_publish_self hactive]
      have hrun : run step .empty (before ++ action :: after) =
          run step (step (run step .empty before) action) after := run_append _ _ _
      rw [hrun, outcome_stays hleft]
  · intro entry cancelled error hwait
    unfold Threads.wait at hwait
    split at hwait
    · cases cancelled
      · cases hwait
      · cases hwait
        exact ⟨rfl, rfl⟩
    · cases hwait

end RustdResolved.Query.Leaders
