import RustdResolved.Lib.Runs
import RustdResolved.Rfc5011.Entries

/-! # Revocation over whole runs

A run of the manager is any sequence of seeds, observations, timers, saves and loads. A revoked
entry is dropped after its hold-down, and after that nothing tells its key from a new one; a seed
does not look at the entry it replaces, and an old state file does not know of the revocation.
`revoked_stays_revoked` says which steps have to be left out for a revocation to last. -/

namespace RustdResolved.Rfc5011.Revocation

open Lib Maps Runs Wire.Octets
open Dnssec.Canonical (SystemTime nanosPerSecond durationSince)
open Manager Entries

variable {id : AnchorId} {e : TrustAnchorEntry} {now : SystemTime} {removeHoldDown : Nat}

/-- The manager and its state file. -/
structure AnchorSystem where
  manager : TrustAnchorManager
  file : StateFile

/-- What can happen to the manager. An observation comes with the order in which its loop goes over
the hash map. -/
inductive AnchorStep
  | seed (key : ObservedDnskey) (now : SystemTime)
  | observe (keys : List ObservedDnskey) (validators : List AnchorId) (now : SystemTime)
      (order : List AnchorId)
  | timers (now : SystemTime)
  | save
  | load

/-- One step; a load that fails changes nothing. -/
def AnchorSystem.step (system : AnchorSystem) : AnchorStep → AnchorSystem
  | .seed key now => { system with manager := system.manager.seedValidAnchor key now }
  | .observe keys validators now order =>
    { system with manager := (system.manager.observeValidatedRrset keys validators now order).1 }
  | .timers now => { system with manager := (system.manager.processTimers now).1 }
  | .save => { system with file := system.manager.saveToDisk }
  | .load =>
    match system.manager.loadFromDisk system.file with
    | .ok manager => { system with manager := manager }
    | .error _ => system

/-- A new manager without a state file. -/
def AnchorSystem.start (minimumAddHoldDown removeHoldDown : Nat) : AnchorSystem :=
  ⟨withParameters minimumAddHoldDown removeHoldDown, .absent⟩

/-! ### What a load and the timers do to one entry -/

variable {system : AnchorSystem}

theorem entry_of_load (h : (system.step .load).manager.entry id = some e) :
    system.manager.entry id = some e ∨
      ∃ anchors, system.file = .persisted persistenceVersion anchors ∧
      anchors.lookup id = some e := by
  change (match system.manager.loadFromDisk system.file with
    | .ok manager => { system with manager := manager }
    | .error _ => system).manager.entry id = some e at h
  cases hfile : system.file with
  | absent | undecodable =>
    rw [hfile] at h
    exact Or.inl h
  | persisted version anchors =>
    rw [hfile] at h
    by_cases hversion : version = persistenceVersion
    · simp only [TrustAnchorManager.loadFromDisk, hversion, ne_eq, not_true, if_false] at h
      exact Or.inr ⟨anchors, by rw [hversion], h⟩
    · simp only [TrustAnchorManager.loadFromDisk, hversion, ne_eq, not_false_iff, if_true] at h
      exact Or.inl h

theorem entry_of_timers (h : (system.step (.timers now)).manager.entry id = some e) :
    system.manager.entry id = some e :=
  (lookup_retain.mp h).1

/-! ### Every entry stands under its own identity -/

/-- The entries of the manager and of the file stand under their own identities. -/
structure AnchorSystem.Keyed (system : AnchorSystem) : Prop where
  manager : ∀ id e, system.manager.entry id = some e → e.anchorId = id
  file : ∀ version anchors, system.file = .persisted version anchors →
    ∀ id e, anchors.lookup id = some e → e.anchorId = id

theorem keyed_start {minimumAddHoldDown : Nat} :
    (AnchorSystem.start minimumAddHoldDown removeHoldDown).Keyed := by
  refine ⟨fun id e h => ?_, fun version anchors h => ?_⟩
  · simp [AnchorSystem.start, withParameters, TrustAnchorManager.entry] at h
  · cases h

theorem AnchorSystem.Keyed.step (h : system.Keyed) (input : AnchorStep) :
    (system.step input).Keyed := by
  cases input with
  | seed key now =>
    refine ⟨fun id e he => ?_, h.file⟩
    rcases lookup_insert_cases he with ⟨rfl, rfl⟩ | hold
    · exact newEntry_anchorId _ _ _ _ _
    · exact h.manager id e hold
  | observe keys validators now order =>
    refine ⟨fun id => ?_, h.file⟩
    refine observeValidatedRrset_entry (fun e => e.anchorId = id) ?_ ?_ (h.manager id)
    · intro anchors e e' changed hid hkeep
      rw [anchorId_of_keep hkeep, hid]
    · intro key _ hid _ _ _ _
      rw [newEntry_anchorId, hid]
  | timers now => exact ⟨fun id e he => h.manager id e (entry_of_timers he), h.file⟩
  | save =>
    refine ⟨h.manager, fun version anchors hfile => ?_⟩
    cases hfile
    exact h.manager
  | load =>
    refine ⟨fun id e he => ?_, ?_⟩
    · rcases entry_of_load he with hold | ⟨anchors, hfile, hlookup⟩
      · exact h.manager id e hold
      · exact h.file _ anchors hfile id e hlookup
    · have hfile : (system.step .load).file = system.file := by
        unfold AnchorSystem.step
        cases system.manager.loadFromDisk system.file <;> rfl
      rw [hfile]
      exact h.file

/-! ### Revoked entries -/

theorem isRevoked_of_keep {anchors : Anchors} {entry entry' : TrustAnchorEntry}
    {present : Option ObservedDnskey} {changed : Bool} (hrevoked : entry.state.isRevoked = true)
    (h : trackedOutcome removeHoldDown anchors now entry present = .keep entry' changed) :
    entry'.state.isRevoked = true := by
  cases hstate : entry.state with
  | addHoldDown | valid | missing =>
    rw [hstate] at hrevoked
    cases hrevoked
  | revoked =>
    cases present with
    | some _ | none =>
      simp only [trackedOutcome, hstate, observeRevoked, Outcome.keep.injEq] at h
      rw [← h.1]
      rfl
  | removeHoldDown =>
    cases present with
    | some key =>
      simp only [trackedOutcome, hstate, observeRemoveHoldDown, Outcome.keep.injEq] at h
      rw [← h.1]
      rfl
    | none =>
      simp only [trackedOutcome, hstate, observeRemoveHoldDown] at h
      split_ifs at h
      cases h
      exact hrevoked

/-- A step that cannot bring a revoked key back: it does not seed the key, it does not load a file
in which the key is not revoked, and it does not present the key again once its entry is gone. -/
def KeepsRevoked (id : AnchorId) (system : AnchorSystem) : AnchorStep → Prop
  | .seed key _ => key.anchorId ≠ id
  | .observe keys validators _ _ =>
    system.manager.entry id = none → validators ≠ [] → ∀ key ∈ keys, key.anchorId = id →
      key.isSep = true → key.isRevoked = true
  | .timers _ => True
  | .save => True
  | .load => ∀ anchors e, system.file = .persisted persistenceVersion anchors →
      anchors.lookup id = some e → e.state.isRevoked = true

theorem step_keepsRevoked (system : AnchorSystem) (input : AnchorStep)
    (h : ∀ e, system.manager.entry id = some e → e.state.isRevoked = true)
    (hkeeps : KeepsRevoked id system input) :
    ∀ e, (system.step input).manager.entry id = some e → e.state.isRevoked = true := by
  cases input with
  | seed key now =>
    intro e he
    rcases lookup_insert_cases he with ⟨rfl, -⟩ | hold
    · exact absurd rfl hkeeps
    · exact h e hold
  | observe keys validators now order =>
    refine observeValidatedRrset_entry (fun e => e.state.isRevoked = true) ?_ ?_ h
    · intro anchors e e' changed hrevoked hkeep
      exact isRevoked_of_keep hrevoked hkeep
    · intro key hkey hid hsep hunrevoked hvalidators hwas
      rcases hwas with hnone | ⟨e, hrevoked, hstate⟩
      · have := hkeeps hnone hvalidators key hkey hid hsep
        rw [hunrevoked] at this
        cases this
      · rw [hstate] at hrevoked
        cases hrevoked
  | timers now => exact fun e he => h e (entry_of_timers he)
  | save => exact h
  | load =>
    intro e he
    rcases entry_of_load he with hold | ⟨anchors, hfile, hlookup⟩
    · exact h e hold
    · exact hkeeps anchors e hfile hlookup

/-- **A revocation lasts**: in a run whose steps cannot bring the key back, it is never again valid
nor among the valid anchors. -/
theorem revoked_stays_revoked (system : AnchorSystem) (hkeyed : system.Keyed) (id : AnchorId)
    (hrevoked : (system.manager.entry id).map (·.state) = some .revoked) (inputs : List AnchorStep)
    (hsteps : AllSteps AnchorSystem.step (KeepsRevoked id) system inputs) :
    (∀ e, (run AnchorSystem.step system inputs).manager.entry id = some e → e.state ≠ .valid) ∧
      ∀ e ∈ (run AnchorSystem.step system inputs).manager.validAnchors, e.anchorId ≠ id := by
  have hkeyed' :=
    run_preserves AnchorSystem.Keyed (fun _ input h => h.step input) inputs system hkeyed
  have hstart : ∀ e, system.manager.entry id = some e → e.state.isRevoked = true := by
    intro e he
    have hstate : e.state = .revoked := by simpa [he] using hrevoked
    rw [hstate]
    rfl
  have hrevoked' := run_invariant
    (fun system => ∀ e, system.manager.entry id = some e → e.state.isRevoked = true)
    step_keepsRevoked inputs system hstart hsteps
  refine ⟨fun e he hvalid => ?_, fun e he hid => ?_⟩
  · have := hrevoked' e he
    rw [hvalid] at this
    cases this
  · obtain ⟨hmem, htrusted⟩ := List.mem_filter.mp he
    obtain ⟨id', hlookup⟩ := mem_values.mp hmem
    have hid' : id' = id := by rw [← hkeyed'.manager id' e hlookup, hid]
    rw [hid'] at hlookup
    have hrev := hrevoked' e hlookup
    cases hstate : e.state <;> simp [hstate, TrustAnchorState.isTrusted,
      TrustAnchorState.isRevoked] at htrusted hrev

/-! ### A revoked key comes back -/

def days (n : Nat) : SystemTime := n * 24 * 60 * 60 * nanosPerSecond

def rootKey (keyTag : Nat) (publicKey : Bytes) : ObservedDnskey :=
  ⟨['.'], 257, 8, keyTag, publicKey, 172800, false⟩

def oldKey : ObservedDnskey := rootKey 20326 [3, 1, 0, 1, 0xac, 0xff]
def currentKey : ObservedDnskey := rootKey 38696 [3, 1, 0, 1, 0xaf, 0x7a]

def revokedKey : ObservedDnskey :=
  { oldKey with flags := 385, keyTag := 20454, authenticatedSelfRevocation := true }

/-- Both keys are configured, and the old one is revoked. -/
def revocation : List AnchorStep :=
  [.seed oldKey (days 0), .seed currentKey (days 0),
    .observe [revokedKey, currentKey] [currentKey.anchorId] (days 1)
      [oldKey.anchorId, currentKey.anchorId]]

/-- The old key is gone for more than thirty days, and its entry is dropped. -/
def removal : List AnchorStep :=
  [.observe [currentKey] [currentKey.anchorId] (days 2) [oldKey.anchorId, currentKey.anchorId],
    .timers (days 40)]

/-- The old key is presented again, for more than thirty days. -/
def reappearance : List AnchorStep :=
  [.observe [oldKey, currentKey] [currentKey.anchorId] (days 41) [currentKey.anchorId],
    .observe [oldKey, currentKey] [currentKey.anchorId] (days 80)
      [oldKey.anchorId, currentKey.anchorId]]

/-- The state of a key after a run of a new manager with the usual hold-downs. -/
def stateAfter (id : AnchorId) (inputs : List AnchorStep) : Option TrustAnchorState :=
  ((run AnchorSystem.step (.start defaultAddHoldDown defaultRemoveHoldDown) inputs).manager.entry
    id).map (·.state)

theorem revoked_stays_revoked_removal :
    AllSteps AnchorSystem.step (KeepsRevoked oldKey.anchorId)
        (run AnchorSystem.step (.start defaultAddHoldDown defaultRemoveHoldDown) revocation)
          removal ∧
      ∀ e ∈ (run AnchorSystem.step (run AnchorSystem.step
        (.start defaultAddHoldDown defaultRemoveHoldDown) revocation) removal).manager.validAnchors,
        e.anchorId ≠ oldKey.anchorId := by
  have hsteps : AllSteps AnchorSystem.step (KeepsRevoked oldKey.anchorId)
      (run AnchorSystem.step (.start defaultAddHoldDown defaultRemoveHoldDown) revocation)
      removal := by
    refine ⟨fun _ _ key hkey hid => ?_, trivial, trivial⟩
    obtain rfl := List.mem_singleton.mp hkey
    exact absurd hid (by decide)
  have hkeyed : (run AnchorSystem.step (.start defaultAddHoldDown defaultRemoveHoldDown)
      revocation).Keyed :=
    run_preserves AnchorSystem.Keyed (fun _ input h => h.step input) revocation _ keyed_start
  exact ⟨hsteps, (revoked_stays_revoked _ hkeyed oldKey.anchorId (by decide) removal hsteps).2⟩

/-- **A revoked key becomes valid again**, when it is presented after its entry was dropped and when
it is seeded then; a seed alone is enough while the entry is still there. -/
theorem revoked_becomes_valid :
    stateAfter oldKey.anchorId revocation = some .revoked ∧
      stateAfter oldKey.anchorId (revocation ++ removal) = none ∧
      stateAfter oldKey.anchorId (revocation ++ removal ++ reappearance) = some .valid ∧
      stateAfter oldKey.anchorId (revocation ++ removal ++ [.seed oldKey (days 41)]) = some .valid ∧
      stateAfter oldKey.anchorId (revocation ++ [.seed oldKey (days 2)]) = some .valid ∧
      oldKey.anchorId ∈ ((run AnchorSystem.step (.start defaultAddHoldDown defaultRemoveHoldDown)
        (revocation ++ removal ++ reappearance)).manager.validAnchors.map (·.anchorId)) := by
  refine ⟨?_, ?_, ?_, ?_, ?_, ?_⟩ <;> decide

end RustdResolved.Rfc5011.Revocation
