import RustdResolved.Rfc5011.Revocation

/-! # What has to be saved

The runtime saves the manager only if it reports a change. A manager that reports none differs from
the one before only in the times its entries were last seen (`changes_reported`). -/

namespace RustdResolved.Rfc5011.Persistence

open List Lib Maps Manager Entries Revocation
open Dnssec.Canonical (SystemTime)

/-- An entry but for the time it was last seen. -/
def unseen (entry : TrustAnchorEntry) : TrustAnchorEntry := { entry with lastSeen := 0 }

def SameButSeen (a b : Anchors) : Prop := ∀ id, (a.lookup id).map unseen = (b.lookup id).map unseen

variable {anchors : Anchors} {removeHoldDown : Nat} {keys : List ObservedDnskey} {now : SystemTime}
  {manager : TrustAnchorManager} {validators order : List AnchorId}

theorem unseen_of_keep {entry entry' : TrustAnchorEntry} {present : Option ObservedDnskey}
    (h : trackedOutcome removeHoldDown anchors now entry present = .keep entry' false) :
    unseen entry' = unseen entry := by
  cases hstate : entry.state <;> cases present <;>
    simp only [trackedOutcome, hstate, observeAddHoldDown, observeTrusted, observeRevoked,
      observeRemoveHoldDown] at h <;>
    (try split_ifs at h) <;> cases h <;> simp [unseen, hstate]

/-- Unless a change is reported, the entries are the same and none is to go. -/
def Unreported (anchors : Anchors) (observation : Observation) : Prop :=
  observation.changed = false → SameButSeen anchors observation.anchors ∧
    observation.resetAdditions = [] ∧ observation.purgeRevoked = []

theorem Unreported.step {observation : Observation} (h : Unreported anchors observation)
    (id : AnchorId) :
    Unreported anchors (observeTracked removeHoldDown keys now observation id) := by
  unfold observeTracked
  cases hlookup : observation.anchors.lookup id with
  | none => exact h
  | some snapshot =>
    dsimp only
    cases houtcome : trackedOutcome removeHoldDown observation.anchors now snapshot
        (observedKey keys id) with
    | keep entry changed =>
      intro hchanged
      obtain ⟨hbefore, rfl⟩ := Bool.or_eq_false_iff.mp hchanged
      obtain ⟨hsame, hlists⟩ := h hbefore
      refine ⟨fun other => (hsame other).trans ?_, hlists⟩
      by_cases hother : other = id
      · subst hother
        rw [AList.lookup_insert, hlookup, Option.map_some, Option.map_some, unseen_of_keep houtcome]
      · rw [AList.lookup_insert_ne hother]
    | reset | purge => exact nofun

theorem unreported_observation
    (h : (manager.observeValidatedRrset keys validators now order).2 = false) :
    SameButSeen manager.anchors
      (manager.observeValidatedRrset keys validators now order).1.anchors := by
  unfold TrustAnchorManager.observeValidatedRrset at h ⊢
  have hloop : Unreported manager.anchors (order.foldl
      (observeTracked manager.removeHoldDown keys now) ⟨manager.anchors, false, [], []⟩) :=
    foldlRecOn _ _ (fun _ => ⟨fun _ => rfl, rfl, rfl⟩) fun _ hlast id _ => hlast.step id
  generalize order.foldl (observeTracked manager.removeHoldDown keys now)
    ⟨manager.anchors, false, [], []⟩ = tracked at hloop h
  have hsame : tracked.changed = false → SameButSeen manager.anchors
      (eraseAll (tracked.resetAdditions ++ tracked.purgeRevoked) tracked.anchors) := by
    intro hchanged
    obtain ⟨hanchors, hreset, hpurge⟩ := hloop hchanged
    rwa [hreset, hpurge]
  dsimp only at h ⊢
  split_ifs at h ⊢
  · exact hsame h
  · -- A key that is added is a change.
    refine foldlRecOn
      (motive := fun state : Anchors × Bool => state.2 = false →
        SameButSeen manager.anchors state.1)
      _ _ hsame (fun state ih key _ hnew => ?_) h
    unfold observeNew at hnew ⊢
    split_ifs at hnew ⊢
    exact ih hnew

/-- **Every change is reported**: after an observation and after the timers the entries stand under
their own identities, and if no change is reported only the times they were last seen differ. -/
theorem changes_reported (manager : TrustAnchorManager)
    (hkeyed : ∀ id e, manager.entry id = some e → e.anchorId = id) (keys : List ObservedDnskey)
    (validators : List AnchorId) (now : SystemTime) (order : List AnchorId) :
    ∀ after ∈ [manager.observeValidatedRrset keys validators now order, manager.processTimers now],
      (∀ id e, after.1.entry id = some e → e.anchorId = id) ∧
        (after.2 = false → SameButSeen manager.anchors after.1.anchors) := by
  have hsystem : AnchorSystem.Keyed ⟨manager, .absent⟩ := ⟨hkeyed, nofun⟩
  rw [forall_mem_cons, forall_mem_singleton]
  refine ⟨⟨(hsystem.step (.observe keys validators now order)).manager, unreported_observation⟩,
    (hsystem.step (.timers now)).manager, fun h id => ?_⟩
  have hlength :
      manager.anchors.keys.length = (manager.processTimers now).1.anchors.keys.length := by
    simpa [TrustAnchorManager.processTimers, AList.keys, List.keys] using h
  have hkept := length_keys_retain_eq_iff.mp hlength.symm
  congr 1
  refine Option.ext fun e => ?_
  rw [TrustAnchorManager.processTimers, lookup_retain]
  exact ⟨fun he => ⟨he, hkept id e he⟩, fun he => he.1⟩

theorem changes_reported_seeded :
    let manager := withPath.seedValidAnchor oldKey (days 0)
    let after := manager.observeValidatedRrset [oldKey] [oldKey.anchorId] (days 1) [oldKey.anchorId]
    after.2 = false ∧ SameButSeen manager.anchors after.1.anchors := by
  intro manager after
  have hflag : after.2 = false := by decide
  have hkeyed :=
    (@keyed_start defaultRemoveHoldDown defaultAddHoldDown).step (.seed oldKey (days 0))
  exact ⟨hflag, (changes_reported manager hkeyed.manager _ _ _ _ _ mem_cons_self).2 hflag⟩

end RustdResolved.Rfc5011.Persistence
