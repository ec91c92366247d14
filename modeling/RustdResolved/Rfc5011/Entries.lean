import RustdResolved.Rfc5011.Manager

/-! # What an observation does to one entry

An observation goes over the tracked entries, drops some of them and adds entries for new keys.
`observeValidatedRrset_entry` is the rule for a property of the entry of one key: what each of these
steps keeps, the observation keeps. -/

namespace RustdResolved.Rfc5011.Entries

open List Lib.Maps Wire Octets PacketHeader
open Dnssec.Canonical (SystemTime nanosPerSecond durationSince)
open Dnssec.NameText Manager

variable {anchors : Anchors} {e entry entry' : TrustAnchorEntry} {order validators : List AnchorId}
  {present : Option ObservedDnskey} {manager : TrustAnchorManager} {keys : List ObservedDnskey}
  {now : SystemTime} {id : AnchorId} {removeHoldDown : Nat} {changed : Bool}
  {P : TrustAnchorEntry → Prop} {observation : Observation} {c : Char}

theorem hasElapsed_iff {now since : Int} {duration : Nat} :
    hasElapsed now since duration = true ↔ since + duration ≤ now := by
  unfold hasElapsed durationSince
  by_cases hle : since ≤ now
  · rw [if_pos hle]
    simp only [decide_eq_true_eq]
    omega
  · rw [if_neg hle]
    simp only [Bool.false_eq_true, false_iff, not_le]
    omega

/-! ### Outcomes -/

/-- Only an entry that waits to be added is reset. -/
theorem state_of_reset (h : trackedOutcome removeHoldDown anchors now entry present = .reset) :
    entry.state = .addHoldDown := by
  cases hstate : entry.state with
  | addHoldDown => rfl
  | valid | missing =>
    cases present <;> simp only [trackedOutcome, hstate, observeTrusted] at h <;> split_ifs at h
  | revoked => cases present <;> simp [trackedOutcome, hstate, observeRevoked] at h
  | removeHoldDown =>
    cases present with
    | some key => simp [trackedOutcome, hstate, observeRemoveHoldDown] at h
    | none =>
      simp only [trackedOutcome, hstate, observeRemoveHoldDown] at h
      split_ifs at h

theorem present_of_purge (h : trackedOutcome removeHoldDown anchors now entry present = .purge) :
    present = none := by
  cases present with
  | none => rfl
  | some key =>
    cases hstate : entry.state with
    | addHoldDown =>
      simp only [trackedOutcome, hstate, observeAddHoldDown] at h
      split_ifs at h
    | valid | missing =>
      simp only [trackedOutcome, hstate, observeTrusted] at h
      split_ifs at h
    | revoked => simp [trackedOutcome, hstate, observeRevoked] at h
    | removeHoldDown => simp [trackedOutcome, hstate, observeRemoveHoldDown] at h

/-- What becomes of an entry that an observation keeps: one that waits is still waiting or is added,
a trusted one does not wait, a revoked one stays revoked. -/
theorem keep_cases
    (h : trackedOutcome removeHoldDown anchors now entry present = .keep entry' changed) :
    (entry.state = .addHoldDown ∧ ∃ key, present = some key ∧ key.isRevoked = false ∧
      (entry' = { entry with lastSeen := now } ∨
        entry'.state = .valid ∧ hasElapsed now entry.firstSeen entry.addHoldDownTime = true)) ∨
    (entry.state.isTrusted = true ∧ entry'.state ≠ .addHoldDown) ∨
    (entry.state.isRevoked = true ∧ entry'.state.isRevoked = true) := by
  cases hstate : entry.state with
  | addHoldDown =>
    refine Or.inl ⟨rfl, ?_⟩
    cases present with
    | none => simp [trackedOutcome, hstate, observeAddHoldDown] at h
    | some key =>
      simp only [trackedOutcome, hstate, observeAddHoldDown] at h
      split_ifs at h with hreset helapsed
      · obtain ⟨rfl, -⟩ := Outcome.keep.inj h
        exact ⟨key, rfl, by simp_all, Or.inr ⟨rfl, helapsed⟩⟩
      · obtain ⟨rfl, -⟩ := Outcome.keep.inj h
        exact ⟨key, rfl, by simp_all, Or.inl (by simp)⟩
  | valid | missing =>
    refine Or.inr (Or.inl ⟨rfl, ?_⟩)
    cases present <;> simp only [trackedOutcome, hstate, observeTrusted] at h <;>
      split_ifs at h <;> obtain ⟨rfl, -⟩ := Outcome.keep.inj h <;> simp [hstate]
  | revoked =>
    refine Or.inr (Or.inr ⟨rfl, ?_⟩)
    cases present <;> simp only [trackedOutcome, hstate, observeRevoked] at h <;>
      obtain ⟨rfl, -⟩ := Outcome.keep.inj h <;> simp [TrustAnchorState.isRevoked]
  | removeHoldDown =>
    refine Or.inr (Or.inr ⟨rfl, ?_⟩)
    cases present <;> simp only [trackedOutcome, hstate, observeRemoveHoldDown] at h <;>
      (try split_ifs at h) <;> obtain ⟨rfl, -⟩ := Outcome.keep.inj h <;>
      simp [TrustAnchorState.isRevoked, hstate]

theorem mem_of_observedKey {key : ObservedDnskey} (h : observedKey keys id = some key) :
    key ∈ keys ∧ key.anchorId = id := by
  have hmem := mem_of_find?_eq_some h
  have hid := find?_some h
  exact ⟨by simpa using hmem, by simpa using hid⟩

theorem observedKey_eq_none : observedKey keys id = none ↔ ∀ key ∈ keys, key.anchorId ≠ id := by
  simp [observedKey]

/-! ### The loop over the tracked entries -/

/-- What the loop over the tracked entries keeps for one key, with a property of its entry. -/
structure Tracked (manager : TrustAnchorManager) (keys : List ObservedDnskey) (id : AnchorId)
    (P : TrustAnchorEntry → Prop) (observation : Observation) : Prop where
  entry : ∀ e, observation.anchors.lookup id = some e → P e
  reset : id ∈ observation.resetAdditions → ∃ e, P e ∧ e.state = .addHoldDown
  purge : id ∈ observation.purgeRevoked → observedKey keys id = none
  kept : manager.entry id ≠ none → observation.anchors.lookup id ≠ none

theorem Tracked.step
    (hkeep : ∀ anchors e e' changed, P e →
      trackedOutcome removeHoldDown anchors now e (observedKey keys id) = .keep e' changed → P e')
    (h : Tracked manager keys id P observation) (other : AnchorId) :
    Tracked manager keys id P (observeTracked removeHoldDown keys now observation other) := by
  unfold observeTracked
  cases hlookup : observation.anchors.lookup other with
  | none => exact h
  | some snapshot =>
    dsimp only
    by_cases hid : id = other
    · subst hid
      cases houtcome : trackedOutcome removeHoldDown observation.anchors now snapshot
          (observedKey keys id) with
      | keep entry changed =>
        have hentry := hkeep _ _ _ _ (h.entry _ hlookup) houtcome
        refine ⟨?_, h.reset, h.purge, ?_⟩
        · intro e he
          rw [AList.lookup_insert] at he
          rw [← Option.some.inj he]
          exact hentry
        · simp
      | reset =>
        refine ⟨h.entry, fun _ => ⟨snapshot, h.entry _ hlookup, state_of_reset houtcome⟩, h.purge,
          h.kept⟩
      | purge => exact ⟨h.entry, h.reset, fun _ => present_of_purge houtcome, h.kept⟩
    · cases houtcome : trackedOutcome removeHoldDown observation.anchors now snapshot
          (observedKey keys other) with
      | keep entry changed =>
        refine ⟨?_, h.reset, h.purge, ?_⟩
        · intro e he
          rw [AList.lookup_insert_ne hid] at he
          exact h.entry e he
        · rw [AList.lookup_insert_ne hid]
          exact h.kept
      | reset =>
        refine ⟨h.entry, fun hmem => h.reset ?_, h.purge, h.kept⟩
        simpa [hid] using hmem
      | purge =>
        refine ⟨h.entry, h.reset, fun hmem => h.purge ?_, h.kept⟩
        simpa [hid] using hmem

theorem Tracked.foldl
    (hkeep : ∀ anchors e e' changed, P e →
      trackedOutcome removeHoldDown anchors now e (observedKey keys
      id) = .keep e' changed → P e') (order : List AnchorId)
    (h : Tracked manager keys id P observation) :
    Tracked manager keys id P
      (order.foldl (observeTracked removeHoldDown keys now) observation) := by
  induction order generalizing observation with
  | nil => exact h
  | cons other order ih => exact ih (h.step hkeep other)

/-! ### The loop over the observed keys -/

theorem foldl_observeNew_lookup {minimumAddHoldDown : Nat} {state : Anchors × Bool}
    (h : (keys.foldl (observeNew minimumAddHoldDown validators now) state).1.lookup id = some e) :
    state.1.lookup id = some e ∨ (state.1.lookup id = none ∧ ∃ key ∈ keys, key.anchorId = id ∧
      key.isSep = true ∧ key.isRevoked = false ∧
      e = newEntry .addHoldDown key now
        (max minimumAddHoldDown (key.originalTtl * nanosPerSecond)) validators) := by
  induction keys generalizing state with
  | nil => exact Or.inl h
  | cons key keys ih =>
    rw [List.foldl_cons] at h
    rcases ih h with hstep | ⟨hnone, key', hkey', hrest⟩
    · unfold observeNew at hstep
      split_ifs at hstep with hskip
      · exact Or.inl hstep
      · simp only [Bool.or_eq_true, Bool.not_eq_true', not_or, Bool.not_eq_true,
          Bool.not_eq_false, Option.isSome_eq_false_iff, Option.isNone_iff_eq_none] at hskip
        rcases lookup_insert_cases hstep with ⟨rfl, rfl⟩ | hold
        · exact Or.inr ⟨hskip.1.1, key, by simp, rfl, hskip.1.2, hskip.2, rfl⟩
        · exact Or.inl hold
    · refine Or.inr ⟨?_, key', by simp [hkey'], hrest⟩
      unfold observeNew at hnone
      split_ifs at hnone
      · exact hnone
      · exact (AList.lookup_insert_eq_none.mp hnone).2

/-! ### The rule -/

/-- **The rule for the entry of one key**: what the tracked outcomes keep and a new entry has, an
observation keeps. A new entry is made only where there was none, or one that waited to be added. -/
theorem observeValidatedRrset_entry (P : TrustAnchorEntry →
    Prop) (hkeep : ∀ anchors e e' changed, P e →
      trackedOutcome manager.removeHoldDown anchors now e (observedKey keys id) =
        .keep e' changed → P e')
    (hnew : ∀ key ∈ keys, key.anchorId = id → key.isSep = true → key.isRevoked = false →
      validators ≠ [] → (manager.entry id = none ∨ ∃ e, P e ∧ e.state = .addHoldDown) →
      P (newEntry .addHoldDown key now
        (max manager.minimumAddHoldDown (key.originalTtl * nanosPerSecond)) validators))
    (hentry : ∀ e, manager.entry id = some e → P e) :
    ∀ e, (manager.observeValidatedRrset keys validators now order).1.entry id = some e → P e := by
  intro e he
  have hstart : Tracked manager keys id P ⟨manager.anchors, false, [], []⟩ :=
    ⟨hentry, by simp, by simp, fun h => h⟩
  have htracked := Tracked.foldl hkeep order hstart
  unfold TrustAnchorManager.observeValidatedRrset TrustAnchorManager.entry at he
  generalize order.foldl (observeTracked manager.removeHoldDown keys now)
    ⟨manager.anchors, false, [], []⟩ = tracked at htracked he
  dsimp only at he
  have herased : ∀ e, (eraseAll (tracked.resetAdditions ++ tracked.purgeRevoked)
      tracked.anchors).lookup id = some e → P e := by
    intro e he
    rw [lookup_eraseAll] at he
    split_ifs at he
    exact htracked.entry e he
  by_cases hvalidators : validators = []
  · rw [if_pos (by simp [hvalidators])] at he
    exact herased e he
  · rw [if_neg (by simpa using hvalidators)] at he
    rcases foldl_observeNew_lookup he with hold | ⟨hnone, key, hkey, hid, hsep, hrevoked, rfl⟩
    · exact herased e hold
    · refine hnew key hkey hid hsep hrevoked hvalidators ?_
      by_cases hwas : manager.entry id = none
      · exact Or.inl hwas
      · right
        rw [lookup_eraseAll] at hnone
        split_ifs at hnone with hmem
        · rcases mem_append.mp hmem with hreset | hpurge
          · exact htracked.reset hreset
          · exact absurd hid (observedKey_eq_none.mp (htracked.purge hpurge) key hkey)
        · exact absurd hnone (htracked.kept hwas)

/-! ### The only visit to an entry

The loop goes over the keys of the map, each of them once, so the entry of a key is the outcome of
one visit. -/

/-- Two moments of the loop that agree on one key. -/
structure AgreesAt (id : AnchorId) (a b : Observation) : Prop where
  lookup : a.anchors.lookup id = b.anchors.lookup id
  reset : id ∈ a.resetAdditions ↔ id ∈ b.resetAdditions
  purge : id ∈ a.purgeRevoked ↔ id ∈ b.purgeRevoked

section
variable (keys) (now) (removeHoldDown)

/-- The round of another key. -/
theorem observeTracked_agreesAt {other : AnchorId} (hne : id ≠ other) (observation : Observation) :
    AgreesAt id (observeTracked removeHoldDown keys now observation other) observation := by
  unfold observeTracked
  cases observation.anchors.lookup other with
  | none => exact ⟨rfl, Iff.rfl, Iff.rfl⟩
  | some snapshot =>
    dsimp only
    cases trackedOutcome removeHoldDown observation.anchors now snapshot
      (observedKey keys other) with
    | keep entry changed => exact ⟨AList.lookup_insert_ne hne, Iff.rfl, Iff.rfl⟩
    | reset => exact ⟨rfl, by simp [hne], Iff.rfl⟩
    | purge => exact ⟨rfl, Iff.rfl, by simp [hne]⟩

theorem foldl_observeTracked_agreesAt (observation : Observation) (h : id ∉ order) :
    AgreesAt id (order.foldl (observeTracked removeHoldDown keys now) observation) observation := by
  induction order generalizing observation with
  | nil => exact ⟨rfl, Iff.rfl, Iff.rfl⟩
  | cons other order ih =>
    rw [List.mem_cons, not_or] at h
    have hround := observeTracked_agreesAt keys now removeHoldDown h.1 observation
    have hrest := ih
      (observeTracked removeHoldDown keys now observation other) h.2
    exact ⟨hrest.lookup.trans hround.lookup, hrest.reset.trans hround.reset,
      hrest.purge.trans hround.purge⟩

end

/-- What the loop and the removals after it leave of one key: the outcome of the visit to its
entry. -/
theorem entry_of_visit (hnodup : order.Nodup)
    (hmem : manager.entry id ≠ none → id ∈ order)
    (hfold : order.foldl (observeTracked removeHoldDown keys now) ⟨manager.anchors, false, [], []⟩ =
      observation)
    (he : (eraseAll (observation.resetAdditions ++ observation.purgeRevoked)
      observation.anchors).lookup id = some e) :
    ∃ e₀ anchors changed, manager.entry id = some e₀ ∧
      trackedOutcome removeHoldDown anchors now e₀ (observedKey keys id) = .keep e changed := by
  subst hfold
  rw [lookup_eraseAll] at he
  split_ifs at he with hgone
  rw [mem_append, not_or] at hgone
  by_cases hid : id ∈ order
  · obtain ⟨front, rest, rfl⟩ := append_of_mem hid
    have hfront : id ∉ front := fun h => (nodup_append.mp hnodup).2.2 id h id (by simp) rfl
    have hrest : id ∉ rest := (nodup_cons.mp (nodup_append.mp hnodup).2.1).1
    rw [foldl_append, foldl_cons] at he hgone
    have hbefore := foldl_observeTracked_agreesAt keys now removeHoldDown
      ⟨manager.anchors, false, [], []⟩ hfront
    generalize front.foldl (observeTracked removeHoldDown keys now)
      ⟨manager.anchors, false, [], []⟩ = before at hbefore he hgone
    have hafter := foldl_observeTracked_agreesAt keys now removeHoldDown
      (observeTracked removeHoldDown keys now before id) hrest
    rw [hafter.lookup] at he
    rw [hafter.reset, hafter.purge] at hgone
    unfold observeTracked at he hgone
    cases hlookup : before.anchors.lookup id with
    | none =>
      rw [hlookup] at he
      rw [hlookup] at he
      cases he
    | some snapshot =>
      rw [hlookup] at he hgone
      dsimp only at he hgone
      refine ⟨snapshot, before.anchors, ?_⟩
      cases houtcome : trackedOutcome removeHoldDown before.anchors now snapshot
          (observedKey keys id) with
      | keep entry changed =>
        rw [houtcome] at he
        rw [AList.lookup_insert] at he
        rw [← Option.some.inj he]
        exact ⟨changed, by rw [← hlookup]; exact hbefore.lookup.symm, rfl⟩
      | reset | purge => simp [houtcome] at hgone
  · have hagrees := foldl_observeTracked_agreesAt keys now removeHoldDown
      ⟨manager.anchors, false, [], []⟩ hid
    rw [hagrees.lookup] at he
    exact absurd (hmem (by rw [TrustAnchorManager.entry, he]; simp)) hid

/-- **Where an entry after an observation comes from**: it is the outcome of the visit to the entry
before, or it is new. -/
theorem observeValidatedRrset_cases (horder : order.Perm manager.anchors.keys)
    (he : (manager.observeValidatedRrset keys validators now order).1.entry id = some e) :
    (∃ e₀ anchors changed, manager.entry id = some e₀ ∧
      trackedOutcome manager.removeHoldDown anchors now e₀ (observedKey keys id) =
        .keep e changed) ∨
    ∃ key ∈ keys, key.anchorId = id ∧ key.isRevoked = false ∧
      e = newEntry .addHoldDown key now
        (max manager.minimumAddHoldDown (key.originalTtl * nanosPerSecond)) validators := by
  have hnodup : order.Nodup := horder.nodup_iff.mpr manager.anchors.nodupKeys
  have hmem : manager.entry id ≠ none → id ∈ order := by
    intro hsome
    rw [horder.mem_iff]
    exact AList.lookup_isSome.mp (Option.isSome_iff_ne_none.mpr hsome)
  unfold TrustAnchorManager.observeValidatedRrset TrustAnchorManager.entry at he
  split_ifs at he
  · exact Or.inl (entry_of_visit hnodup hmem rfl he)
  · rcases foldl_observeNew_lookup he with hold | ⟨-, key, hkey, hid, -, hrevoked, rfl⟩
    · exact Or.inl (entry_of_visit hnodup hmem rfl hold)
    · exact Or.inr ⟨key, hkey, hid, hrevoked, rfl⟩

/-! ### Identities -/

theorem isWhitespace_toLower (h : isWhitespace c = false) : isWhitespace c.toLower = false := by
  rcases toLower_cases c with heq | ⟨h1, h2⟩
  · rw [heq]
    exact h
  · simp only [isWhitespace, Bool.or_eq_false_iff, Bool.and_eq_false_iff, decide_eq_false_iff_not,
      beq_eq_false_iff_ne]
    omega

theorem toLower_ne_dot (h : c ≠ '.') : c.toLower ≠ '.' := by
  rcases toLower_cases c with heq | ⟨h1, h2⟩
  · rw [heq]
    exact h
  · intro hdot
    rw [hdot] at h1
    exact absurd h1 (by decide)

theorem canonicalOwner_idem (owner : Text) :
    canonicalOwner (canonicalOwner owner) = canonicalOwner owner := by
  unfold canonicalOwner
  generalize hfront : (trim owner).rdropWhile (· == '.') = front
  by_cases hne : front = []
  · subst hne
    decide
  · have hpre : front <+: owner.dropWhile isWhitespace :=
      hfront ▸ (List.rdropWhile_prefix _ _).trans (List.rdropWhile_prefix _ _)
    have hhead : isWhitespace (front.head hne) = false := by
      rw [hpre.head hne]
      exact head_dropWhile_not _ _
    have hlast : front.getLast hne ≠ '.' := by
      subst hfront
      simpa using rdropWhile_last_not (fun c : Char => c == '.') (trim owner) hne
    have hempty : ¬ (front.map Char.toLower).isEmpty = true := by simpa using hne
    rw [if_neg hempty]
    have htrim : trim (front.map Char.toLower ++ ['.']) = front.map Char.toLower ++ ['.'] := by
      have hdrop : (front.map Char.toLower ++ ['.']).dropWhile isWhitespace =
          front.map Char.toLower ++ ['.'] := by
        rw [dropWhile_eq_self_iff]
        intro _
        obtain ⟨c, rest, rfl⟩ := exists_cons_of_ne_nil hne
        simpa using isWhitespace_toLower hhead
      rw [trim, hdrop]
      exact rdropWhile_eq_self fun c hc => by
        obtain rfl : '.' = c := by simpa using hc
        decide
    have hdots : (front.map Char.toLower ++ ['.']).rdropWhile (· == '.') =
        front.map Char.toLower := by
      rw [rdropWhile_concat_pos _ _ _ (by simp)]
      refine rdropWhile_eq_self fun c hc => ?_
      rw [getLast?_map, getLast?_eq_some_getLast hne] at hc
      obtain rfl : (front.getLast hne).toLower = c := by simpa using hc
      simpa using toLower_ne_dot hlast
    have hlower : (front.map Char.toLower).map Char.toLower = front.map Char.toLower := by
      rw [map_map]
      exact map_congr_left fun c _ => toLower_idem c
    rw [htrim, hdots, hlower, if_neg hempty]

theorem clearFlags_or (flags : Nat) :
    clearFlags (flags ||| revokeFlag) revokeFlag = clearFlags flags revokeFlag := by
  have hmask : revokeFlag &&& (0xffff ^^^ revokeFlag) = 0 := by decide
  rw [clearFlags, Nat.and_or_distrib_right, hmask, Nat.or_zero]
  rfl

theorem newEntry_anchorId (state : TrustAnchorState) (key : ObservedDnskey) (now : SystemTime)
    (hold : Nat) (validators : List AnchorId) :
    (newEntry state key now hold validators).anchorId = key.anchorId := by
  simp only [newEntry, TrustAnchorEntry.anchorId, ObservedDnskey.anchorId, anchorId,
    canonicalOwner_idem, clearFlags, Nat.and_assoc, Nat.and_self]

/-- An observation does not change whose entry it is. -/
theorem anchorId_of_keep
    (h : trackedOutcome removeHoldDown anchors now entry present = .keep entry' changed) :
    entry'.anchorId = entry.anchorId := by
  have hflags : ∀ e : TrustAnchorEntry, e.owner = entry.owner → e.algorithm = entry.algorithm →
      e.publicKey = entry.publicKey →
      (e.flags = entry.flags ∨ e.flags = entry.flags ||| revokeFlag) →
      e.anchorId = entry.anchorId := by
    rintro e ho ha hp (hf | hf)
    · simp only [TrustAnchorEntry.anchorId, anchorId, ho, ha, hp, hf]
    · simp only [TrustAnchorEntry.anchorId, anchorId, ho, ha, hp, hf, clearFlags_or]
  refine hflags entry' ?_ ?_ ?_ ?_ <;> cases hstate : entry.state <;> cases present <;>
    simp only [trackedOutcome, hstate, observeAddHoldDown, observeTrusted, observeRevoked,
      observeRemoveHoldDown] at h <;>
    grind

end RustdResolved.Rfc5011.Entries
