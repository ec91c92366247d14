import RustdResolved.Rfc5011.Revocation

/-! # The add hold-down over whole runs

A key that was never seeded has to wait: the first observation that presents it starts a hold-down,
an observation that does not present it ends the wait, and only an observation at the end of the
hold-down makes it valid. `valid_after_holdDown` says this of the history of a manager, whatever
happens in between: timers, other trust points, a restart that loads what was saved. -/

namespace RustdResolved.Rfc5011.HoldDown

open Lib Maps Runs
open Dnssec.Canonical (SystemTime nanosPerSecond durationSince)
open Manager Entries Revocation

/-! ### Histories -/

/-- An order in which a loop goes over the keys of a hash map. -/
structure MapOrder where
  apply : List AnchorId → List AnchorId
  perm : ∀ keys, (apply keys).Perm keys

/-- A validated DNSKEY record set as the manager gets it. -/
structure RrsetObservation where
  keys : List ObservedDnskey
  validators : List AnchorId
  now : SystemTime
  order : MapOrder

/-- What happens to the manager of a trust point. -/
inductive AnchorEvent
  | seed (key : ObservedDnskey) (now : SystemTime)
  | observe (observation : RrsetObservation)
  | timers (now : SystemTime)
  | restart

/-- The manager after an event. A restart saves the entries, and a new manager loads them. -/
def afterEvent (manager : TrustAnchorManager) : AnchorEvent → TrustAnchorManager
  | .seed key now => manager.seedValidAnchor key now
  | .observe observation =>
    (manager.observeValidatedRrset observation.keys observation.validators observation.now
      (observation.order.apply manager.anchors.keys)).1
  | .timers now => (manager.processTimers now).1
  | .restart =>
    match (withParameters manager.minimumAddHoldDown manager.removeHoldDown).loadFromDisk
        manager.saveToDisk with
    | .ok loaded => loaded
    | .error _ => manager

section
variable (minimumAddHoldDown : Nat)

/-- The manager after a history that starts without entries. -/
def managerAfter (removeHoldDown : Nat) (events : List AnchorEvent) : TrustAnchorManager :=
  run afterEvent (withParameters minimumAddHoldDown removeHoldDown) events

def AnchorEvent.notAfter (t : SystemTime) : AnchorEvent → Prop
  | .seed _ now => now ≤ t
  | .observe observation => observation.now ≤ t
  | .timers now => now ≤ t
  | .restart => True

def AnchorEvent.SeedsNot (id : AnchorId) : AnchorEvent → Prop
  | .seed key _ => key.anchorId ≠ id
  | _ => True

def RrsetObservation.Presents (observation : RrsetObservation) (id : AnchorId) : Prop :=
  ∃ key ∈ observation.keys, key.anchorId = id ∧ key.isRevoked = false

/-- All the observations of the history present the key. -/
def AllPresent (id : AnchorId) (events : List AnchorEvent) : Prop :=
  ∀ observation, .observe observation ∈ events → observation.Presents id

def holdDownOf (key : ObservedDnskey) : Nat :=
  max minimumAddHoldDown (key.originalTtl * nanosPerSecond)

/-- The history holds two observations, a hold-down apart, and the key was presented by both and by
all observations between them. -/
def HeldDown (id : AnchorId) (events : List AnchorEvent) : Prop :=
  ∃ before first between last after, ∃ key ∈ first.keys,
    events = before ++ AnchorEvent.observe first :: between ++ AnchorEvent.observe last :: after ∧
      key.anchorId = id ∧ key.isRevoked = false ∧ AllPresent id between ∧ last.Presents id ∧
      first.now + (holdDownOf minimumAddHoldDown key : Int) ≤ last.now

/-- The entry waits since an observation that presented the key, as all later ones did. -/
def WaitsSince (id : AnchorId) (events : List AnchorEvent) (entry : TrustAnchorEntry) : Prop :=
  ∃ before first after, ∃ key ∈ first.keys,
    events = before ++ AnchorEvent.observe first :: after ∧
      key.anchorId = id ∧ key.isRevoked = false ∧ AllPresent id after ∧
      entry.firstSeen = first.now ∧ entry.addHoldDownTime = holdDownOf minimumAddHoldDown key

end

section
variable {minimumAddHoldDown : Nat} {id : AnchorId} {events : List AnchorEvent}
  {event : AnchorEvent}

theorem AllPresent.concat (h : AllPresent id events)
    (hevent : ∀ observation, event = .observe observation → observation.Presents id) :
    AllPresent id (events ++ [event]) := by
  intro observation hmem
  rcases List.mem_append.mp hmem with hold | hnew
  · exact h observation hold
  · exact hevent observation (List.mem_singleton.mp hnew).symm

theorem HeldDown.concat (h : HeldDown minimumAddHoldDown id events) (event : AnchorEvent) :
    HeldDown minimumAddHoldDown id (events ++ [event]) := by
  obtain ⟨before, first, between, last, after, key, hkey, rfl, hrest⟩ := h
  exact ⟨before, first, between, last, after ++ [event], key, hkey, by simp, hrest⟩

/-- The wait goes on through an event that is no observation, or one that presents the key. -/
theorem WaitsSince.concat {entry later : TrustAnchorEntry}
    (h : WaitsSince minimumAddHoldDown id events entry)
    (hevent : ∀ observation, event = .observe observation → observation.Presents id)
    (hfirst : later.firstSeen = entry.firstSeen)
    (hhold : later.addHoldDownTime = entry.addHoldDownTime) :
    WaitsSince minimumAddHoldDown id (events ++ [event]) later := by
  obtain ⟨before, first, after, key, hkey, rfl, hid, hunrevoked, hafter, hseen, htime⟩ := h
  exact ⟨before, first, after ++ [event], key, hkey, by simp, hid, hunrevoked,
    hafter.concat hevent, hfirst.trans hseen, hhold.trans htime⟩

theorem WaitsSince.heldDown {entry : TrustAnchorEntry} {last : RrsetObservation}
    (h : WaitsSince minimumAddHoldDown id events entry) (hlast : last.Presents id)
    (helapsed : hasElapsed last.now entry.firstSeen entry.addHoldDownTime = true) :
    HeldDown minimumAddHoldDown id (events ++ [.observe last]) := by
  obtain ⟨before, first, after, key, hkey, rfl, hid, hunrevoked, hafter, hseen, htime⟩ := h
  refine ⟨before, first, after, last, [], key, hkey, by simp, hid, hunrevoked, hafter, hlast, ?_⟩
  rw [hseen, htime] at helapsed
  exact hasElapsed_iff.mp helapsed

end

/-! ### What the entry of the key says about the history -/

/-- The entry of a key that was never seeded: it waits since its first observation, or it has waited
as long as it had to. -/
structure Earned (minimumAddHoldDown : Nat) (id : AnchorId) (events : List AnchorEvent)
    (entry : TrustAnchorEntry) : Prop where
  waits : entry.state = .addHoldDown → WaitsSince minimumAddHoldDown id events entry
  trusted : entry.state.isTrusted = true → HeldDown minimumAddHoldDown id events

section
variable {minimumAddHoldDown : Nat} {id : AnchorId} {events : List AnchorEvent}
  {entry : TrustAnchorEntry}

/-- An event that is no observation keeps what the entry says. -/
theorem Earned.concat {event : AnchorEvent} (h : Earned minimumAddHoldDown id events entry)
    (hevent : ∀ observation, event ≠ .observe observation) :
    Earned minimumAddHoldDown id (events ++ [event]) entry :=
  ⟨fun hstate => (h.waits hstate).concat (fun observation heq => absurd heq (hevent observation))
      rfl rfl,
    fun htrusted => (h.trusted htrusted).concat event⟩

theorem Earned.observe {observation : RrsetObservation} {removeHoldDown : Nat} {anchors : Anchors}
    {entry' : TrustAnchorEntry} {changed : Bool} (h : Earned minimumAddHoldDown id events entry)
    (hkeep : trackedOutcome removeHoldDown anchors observation.now entry
      (observedKey observation.keys id) = .keep entry' changed) :
    Earned minimumAddHoldDown id (events ++ [.observe observation]) entry' := by
  rcases keep_cases hkeep with ⟨hstate, key, hpresent, hunrevoked, hwhat⟩ | ⟨htrusted, hnot⟩ |
    ⟨hrevoked, hrevoked'⟩
  · have hpresents : observation.Presents id :=
      ⟨key, (mem_of_observedKey hpresent).1, (mem_of_observedKey hpresent).2, hunrevoked⟩
    have hwaits := h.waits hstate
    rcases hwhat with rfl | ⟨hvalid, helapsed⟩
    · refine ⟨fun _ => hwaits.concat ?_ rfl rfl, fun htrusted => ?_⟩
      · rintro _ ⟨rfl⟩
        exact hpresents
      · have hfalse : entry.state.isTrusted = true := htrusted
        rw [hstate] at hfalse
        cases hfalse
    · exact ⟨fun hadd => absurd (hvalid.symm.trans hadd) (by decide),
        fun _ => hwaits.heldDown hpresents helapsed⟩
  · exact ⟨fun hadd => absurd hadd hnot, fun _ => (h.trusted htrusted).concat _⟩
  · refine ⟨fun hadd => ?_, fun htrusted => ?_⟩
    · rw [hadd] at hrevoked'
      cases hrevoked'
    · cases hstate : entry'.state <;>
        simp [hstate, TrustAnchorState.isTrusted, TrustAnchorState.isRevoked] at htrusted hrevoked'

end

/-- One event: the entry after it says the same of the longer history. -/
theorem earned_step {minimumAddHoldDown removeHoldDown : Nat} {id : AnchorId}
    (events : List AnchorEvent) (event : AnchorEvent)
    (h : ∀ entry, (managerAfter minimumAddHoldDown removeHoldDown events).entry id = some entry →
      Earned minimumAddHoldDown id events entry)
    (hseed : event.SeedsNot id) :
    ∀ entry, (managerAfter minimumAddHoldDown removeHoldDown (events ++ [event])).entry id =
      some entry → Earned minimumAddHoldDown id (events ++ [event]) entry := by
  intro entry hentry
  have hminimum := @run_preserves _ _ afterEvent
    (fun manager : TrustAnchorManager => manager.minimumAddHoldDown = minimumAddHoldDown)
    (fun _ event h => by cases event <;> exact h) events
    (withParameters minimumAddHoldDown removeHoldDown) rfl
  unfold managerAfter at h hentry
  rw [run_concat] at hentry
  generalize run afterEvent (withParameters minimumAddHoldDown removeHoldDown) events = manager
    at h hentry hminimum
  cases event with
  | seed key now =>
    rcases lookup_insert_cases hentry with ⟨rfl, -⟩ | hold
    · exact absurd rfl hseed
    · exact (h entry hold).concat (by simp)
  | observe observation =>
    rcases observeValidatedRrset_cases (observation.order.perm _) hentry with
      ⟨entry₀, anchors, changed, hentry₀, hkeep⟩ | ⟨key, hkey, hid, hunrevoked, rfl⟩
    · exact (h entry₀ hentry₀).observe hkeep
    · rw [hminimum]
      refine ⟨fun _ => ⟨events, observation, [], key, hkey, rfl, hid, hunrevoked, ?_, rfl, rfl⟩,
        fun htrusted => ?_⟩
      · intro other hmem
        cases hmem
      · cases htrusted
  | timers now => exact (h entry (lookup_retain.mp hentry).1).concat (by simp)
  | restart => exact (h entry hentry).concat (by simp)

/-- **The add hold-down**: a key that was never seeded is valid only if two observations in its past
are as far apart as its hold-down, and it was presented without its revoke bit by both of them and
by every observation between them. -/
theorem valid_after_holdDown (minimumAddHoldDown removeHoldDown : Nat) (id : AnchorId)
    (events : List AnchorEvent) (t : SystemTime)
    (hseeds : ∀ event ∈ events, event.SeedsNot id) (htimes : ∀ event ∈ events, event.notAfter t)
    (hvalid : ((managerAfter minimumAddHoldDown removeHoldDown events).entry id).map (·.state) =
      some .valid) :
    ∃ before first between last after, ∃ key ∈ first.keys,
      events = before ++ AnchorEvent.observe first :: between ++ AnchorEvent.observe last :: after ∧
        key.anchorId = id ∧ key.isRevoked = false ∧
        (∀ observation, .observe observation ∈ between → observation.Presents id) ∧
        last.Presents id ∧ first.now ≤ last.now ∧ last.now ≤ t ∧
        ((max minimumAddHoldDown (key.originalTtl * nanosPerSecond) : Nat) : Int) ≤
          last.now - first.now := by
  have hsteps : AllSteps afterEvent (fun _ event => event.SeedsNot id)
      (withParameters minimumAddHoldDown removeHoldDown) events :=
    allSteps_of_forall fun event hmem _ => hseeds event hmem
  have hearned := run_history (fun events => ∀ entry,
      (managerAfter minimumAddHoldDown removeHoldDown events).entry id = some entry →
        Earned minimumAddHoldDown id events entry)
    (by simp [managerAfter, run, withParameters, TrustAnchorManager.entry])
    earned_step events hsteps
  obtain ⟨entry, hentry, hstate⟩ := Option.map_eq_some_iff.mp hvalid
  obtain ⟨before, first, between, last, after, key, hkey, rfl, hid, hunrevoked, hbetween, hlast,
    hholdDown⟩ := (hearned entry hentry).trusted (by rw [hstate]; rfl)
  have hle : last.now ≤ t := htimes (.observe last) (by simp)
  exact ⟨before, first, between, last, after, key, hkey, rfl, hid, hunrevoked, hbetween, hlast,
    Int.le_trans (Int.le_add_of_nonneg_right (Int.natCast_nonneg _)) hholdDown, hle,
    Int.le_sub_left_of_add_le hholdDown⟩

/-- Goes over the keys as they stand. -/
def storedOrder : MapOrder := ⟨id, fun _ => List.Perm.refl _⟩

/-- The current key is configured; the old key is presented, and presented again after a restart and
forty days. -/
def addedKey : List AnchorEvent :=
  [.seed currentKey (days 0),
    .observe ⟨[oldKey, currentKey], [currentKey.anchorId], days 1, storedOrder⟩,
    .timers (days 2), .restart,
    .observe ⟨[oldKey, currentKey], [currentKey.anchorId], days 41, storedOrder⟩]

theorem valid_after_holdDown_addedKey :
    ((managerAfter defaultAddHoldDown defaultRemoveHoldDown addedKey).entry oldKey.anchorId).map
        (·.state) = some .valid ∧
      ∃ before first between last after, ∃ key ∈ first.keys,
        addedKey = before ++ AnchorEvent.observe first :: between ++ AnchorEvent.observe
          last :: after ∧
          key.anchorId = oldKey.anchorId ∧ key.isRevoked = false ∧
          (∀ observation, .observe observation ∈ between → observation.Presents oldKey.anchorId) ∧
          last.Presents oldKey.anchorId ∧ first.now ≤ last.now ∧ last.now ≤ days 50 ∧
          ((max defaultAddHoldDown (key.originalTtl * nanosPerSecond) : Nat) : Int) ≤
            last.now - first.now := by
  have hvalid : ((managerAfter defaultAddHoldDown defaultRemoveHoldDown addedKey).entry
      oldKey.anchorId).map (·.state) = some .valid := by decide
  refine ⟨hvalid, valid_after_holdDown _ _ _ _ _ ?_ ?_ hvalid⟩
  · simp only [addedKey, List.forall_mem_cons, AnchorEvent.SeedsNot]
    exact ⟨by decide, trivial, trivial, trivial, trivial, by simp⟩
  · simp only [addedKey, List.forall_mem_cons, AnchorEvent.notAfter]
    exact ⟨by decide, by decide, by decide, trivial, by decide, by simp⟩

end RustdResolved.Rfc5011.HoldDown
