import RustdResolved.Rfc5011.Entries

/-! # An observation as a function of the key set

The loop over the tracked entries changes entries that later rounds read, in the order of a hash
map, and of several keys with one identity the loops take the last or the first. `settled_foldl`
says when the rounds do not depend on one another: no key that waits and is seen loses the last of
its validators in the observation. Then every entry is judged by the anchors before the observation,
and the result depends on the set of keys alone, if no two of them that count share an identity. -/

namespace RustdResolved.Rfc5011.KeySet

open List Lib.Maps
open Dnssec.Canonical (SystemTime nanosPerSecond)
open Manager Entries TrustAnchorState

variable {entry : TrustAnchorEntry} {id : AnchorId} {manager : TrustAnchorManager}
  {keys : List ObservedDnskey} {now : SystemTime} {validators : List AnchorId}

/-! ### Outcomes -/

section
variable (manager : TrustAnchorManager) (keys : List ObservedDnskey)

/-- What becomes of an entry, judged by the anchors as they were before the observation. -/
def outcomeOf (now : SystemTime) (id : AnchorId) (entry : TrustAnchorEntry) : Outcome :=
  trackedOutcome manager.removeHoldDown manager.anchors now entry (observedKey keys id)

/-- The entry after its round. An entry that goes stays until the loop is over. -/
def visited (entry : TrustAnchorEntry) : Outcome → TrustAnchorEntry
  | .keep later _ => later
  | _ => entry

def removes : Outcome → Bool
  | .keep _ _ => false
  | _ => true

def changes : Outcome → Bool
  | .keep _ changed => changed
  | _ => true

/-- The anchors hold a revoked entry for the identity. -/
def RevokedIn (anchors : Anchors) (id : AnchorId) : Prop :=
  ∃ entry, anchors.lookup id = some entry ∧ entry.state.isRevoked = true

/-- The identity is revoked, or the observation has the trusted key revoke itself. -/
def BecomesRevoked (id : AnchorId) : Prop :=
  ∃ entry, manager.entry id = some entry ∧ (entry.state.isRevoked = true ∨
    entry.state.isTrusted = true ∧ ∃ key ∈ keys, key.anchorId = id ∧ key.isRevoked = true ∧
      key.authenticatedSelfRevocation = true)

/-- **When the rounds do not depend on one another**: no key that waits and is seen unrevoked loses
the last of its validators in the observation. -/
def NoLateRevocation : Prop :=
  ∀ id entry, manager.entry id = some entry → entry.state = .addHoldDown →
    (∃ key ∈ keys, key.anchorId = id ∧ key.isRevoked = false) →
    (∀ validator ∈ entry.acceptanceValidators, BecomesRevoked manager keys validator) →
    ∀ validator ∈ entry.acceptanceValidators, RevokedIn manager.anchors validator

end

theorem validatorsRevoked_iff {anchors : Anchors} :
    validatorsRevoked anchors entry = true ↔ entry.acceptanceValidators ≠ [] ∧
      ∀ validator ∈ entry.acceptanceValidators, RevokedIn anchors validator := by
  simp only [validatorsRevoked, Bool.and_eq_true, Bool.not_eq_true', isEmpty_eq_false_iff,
    all_eq_true]
  refine and_congr_right fun _ => forall₂_congr fun validator _ => ?_
  unfold RevokedIn
  cases anchors.lookup validator <;> simp

/-- An entry is revoked after its round if it was before, or if it was trusted and its key revokes
itself. -/
theorem isRevoked_visited :
    (visited entry (outcomeOf manager keys now id entry)).state.isRevoked = true ↔
      entry.state.isRevoked = true ∨ entry.state.isTrusted = true ∧
        ∃ key, observedKey keys id = some key ∧ key.isRevoked = true ∧
          key.authenticatedSelfRevocation = true := by
  unfold outcomeOf
  generalize observedKey keys id = present
  cases hstate : entry.state with
  | addHoldDown =>
    cases present with
    | none => simp [trackedOutcome, hstate, observeAddHoldDown, visited, isRevoked, isTrusted]
    | some key =>
      simp only [trackedOutcome, hstate, observeAddHoldDown]
      split_ifs <;> simp [visited, hstate, isRevoked, isTrusted]
  | valid | missing =>
    cases present <;> simp only [trackedOutcome, hstate, observeTrusted] <;> split_ifs <;>
      simp_all [visited, isRevoked, isTrusted]
  | revoked => cases present <;> simp [trackedOutcome, hstate, observeRevoked, visited, isRevoked]
  | removeHoldDown =>
    cases present <;> simp only [trackedOutcome, hstate, observeRemoveHoldDown] <;>
      (try split_ifs) <;> simp [visited, hstate, isRevoked]

/-! ### The loop over the tracked entries -/

/-- The loop after the rounds of `done`: each entry there is as its outcome says, the others are as
they were. -/
structure Settled (manager : TrustAnchorManager) (keys : List ObservedDnskey) (now : SystemTime)
    (done : List AnchorId) (observation : Observation) : Prop where
  lookup : ∀ id, observation.anchors.lookup id = (manager.entry id).map fun entry =>
    if id ∈ done then visited entry (outcomeOf manager keys now id entry) else entry
  gone : ∀ id, id ∈ observation.resetAdditions ++ observation.purgeRevoked ↔
    id ∈ done ∧ ∃ entry, manager.entry id = some entry ∧
      removes (outcomeOf manager keys now id entry) = true
  changed : observation.changed = true ↔
    ∃ id ∈ done, ∃ entry, manager.entry id = some entry ∧
      changes (outcomeOf manager keys now id entry) = true

section

variable {done : List AnchorId} {observation : Observation}

theorem settled_start : Settled manager keys now [] ⟨manager.anchors, false, [], []⟩ where
  lookup id := by simp [TrustAnchorManager.entry]
  gone id := by simp
  changed := by simp

section
variable (h : Settled manager keys now done observation)
include h

/-- In the middle of the loop no more is revoked than at its end, and no less than at its start. -/
theorem Settled.revokedIn :
    (RevokedIn manager.anchors id → RevokedIn observation.anchors id) ∧
      (RevokedIn observation.anchors id → BecomesRevoked manager keys id) := by
  unfold RevokedIn BecomesRevoked
  rw [h.lookup id]
  constructor
  · rintro ⟨entry, hentry, hrevoked⟩
    rw [show manager.entry id = some entry from hentry]
    refine ⟨_, rfl, ?_⟩
    split_ifs
    · exact isRevoked_visited.mpr (.inl hrevoked)
    · exact hrevoked
  · rintro ⟨later, hlater, hrevoked⟩
    obtain ⟨entry, hentry, rfl⟩ := Option.map_eq_some_iff.mp hlater
    refine ⟨entry, hentry, ?_⟩
    split_ifs at hrevoked
    · refine (isRevoked_visited.mp hrevoked).imp_right fun ⟨htrusted, key, hkey, hself⟩ => ?_
      obtain ⟨hmem, hid⟩ := mem_of_observedKey hkey
      exact ⟨htrusted, key, hmem, hid, hself⟩
    · exact .inl hrevoked

/-- **A round judges as the first one would.** -/
theorem Settled.outcome (hlate : NoLateRevocation manager keys)
    (hentry : manager.entry id = some entry) :
    trackedOutcome manager.removeHoldDown observation.anchors now entry (observedKey keys id) =
      outcomeOf manager keys now id entry := by
  unfold outcomeOf trackedOutcome
  cases hstate : entry.state with
  | addHoldDown =>
    cases hkey : observedKey keys id with
    | none => rfl
    | some key =>
      simp only [observeAddHoldDown]
      cases hrevoked : key.isRevoked with
      | true => simp only [Bool.or_true]
      | false =>
        have hsame : validatorsRevoked observation.anchors entry =
            validatorsRevoked manager.anchors entry := by
          rw [Bool.eq_iff_iff, validatorsRevoked_iff, validatorsRevoked_iff]
          refine and_congr_right fun _ => ⟨fun hmiddle => ?_, fun hbefore validator hmem => ?_⟩
          · obtain ⟨hmem, hid⟩ := mem_of_observedKey hkey
            refine hlate id entry hentry hstate ⟨key, hmem, hid, hrevoked⟩ fun validator hmem => ?_
            exact h.revokedIn.2 (hmiddle validator hmem)
          · exact h.revokedIn.1 (hbefore validator hmem)
        rw [hsame]
  | valid | missing | revoked | removeHoldDown => rfl

theorem Settled.remove (hentry : manager.entry id = some entry)
    (hremoves : removes (outcomeOf manager keys now id entry) = true) {reset purge : List AnchorId}
    (hgone : ∀ other, other ∈ reset ++ purge ↔
      other ∈ observation.resetAdditions ++ observation.purgeRevoked ∨ other = id) :
    Settled manager keys now (id :: done) ⟨observation.anchors, true, reset, purge⟩ := by
  have hvisited : visited entry (outcomeOf manager keys now id entry) = entry := by
    cases houtcome : outcomeOf manager keys now id entry <;> simp_all [removes, visited]
  have hchanges : changes (outcomeOf manager keys now id entry) = true := by
    cases houtcome : outcomeOf manager keys now id entry <;> simp_all [removes, changes]
  refine ⟨fun other => ?_, fun other => (hgone other).trans ?_, ?_⟩
  · rw [h.lookup other]
    by_cases heq : other = id <;> simp [heq, hentry, hvisited]
  · rw [h.gone other]
    by_cases heq : other = id <;> simp [heq, hentry, hremoves]
  · simp [hentry, hchanges]

theorem Settled.step (hlate : NoLateRevocation manager keys) (hid : id ∉ done) :
    Settled manager keys now (id :: done)
      (observeTracked manager.removeHoldDown keys now observation id) := by
  have hlookup : observation.anchors.lookup id = manager.entry id := by
    rw [h.lookup id]
    cases manager.entry id <;> simp [hid]
  unfold observeTracked
  rw [hlookup]
  cases hentry : manager.entry id with
  | none =>
    refine ⟨fun other => ?_, fun other => (h.gone other).trans ?_, h.changed.trans ?_⟩
    · rw [h.lookup other]
      by_cases heq : other = id <;> simp [heq, hentry]
    · by_cases heq : other = id <;> simp [heq, hentry]
    · simp [hentry]
  | some entry =>
    dsimp only
    rw [h.outcome hlate hentry]
    cases houtcome : outcomeOf manager keys now id entry with
    | keep later changed =>
      refine ⟨fun other => ?_, fun other => (h.gone other).trans ?_, ?_⟩
      · rcases eq_or_ne other id with rfl | hne
        · simp [hentry, houtcome, visited]
        · rw [AList.lookup_insert_ne hne, h.lookup other]
          simp [hne]
      · by_cases heq : other = id <;> simp [heq, hid, hentry, houtcome, removes]
      · simp [hentry, houtcome, changes, h.changed, or_comm]
    | reset => exact h.remove hentry (by rw [houtcome]; rfl) (by simp [or_comm, or_left_comm])
    | purge => exact h.remove hentry (by rw [houtcome]; rfl) (by simp [or_assoc])

end

theorem settled_foldl (hlate : NoLateRevocation manager keys) {order : List AnchorId}
    (hnodup : (order ++ done).Nodup) (h : Settled manager keys now done observation) :
    Settled manager keys now (order.reverse ++ done)
      (order.foldl (observeTracked manager.removeHoldDown keys now) observation) := by
  induction order generalizing done observation with
  | nil => exact h
  | cons id order ih =>
    rw [List.cons_append, List.nodup_cons] at hnodup
    have hid : id ∉ done := fun hmem => hnodup.1 (mem_append_right _ hmem)
    have hnext : (order ++ id :: done).Nodup :=
      perm_middle.nodup_iff.mpr (nodup_cons.mpr hnodup)
    have hrest := ih hnext (h.step hlate hid)
    rw [reverse_cons, append_assoc]
    exact hrest

end

/-! ### The loop over the observed keys -/

def addable (key : ObservedDnskey) : Bool := key.isSep && !key.isRevoked

/-- The entry that a new key starts with. -/
def addedEntry (minimumAddHoldDown : Nat) (validators : List AnchorId) (now : SystemTime)
    (key : ObservedDnskey) : TrustAnchorEntry :=
  newEntry .addHoldDown key now (max minimumAddHoldDown (key.originalTtl * nanosPerSecond))
    validators

theorem observeNew_cases {minimumAddHoldDown : Nat}
    {state : Anchors × Bool} {key : ObservedDnskey} :
    (state.1.lookup key.anchorId = none ∧ addable key = true ∧
      observeNew minimumAddHoldDown validators now state key =
        (state.1.insert key.anchorId (addedEntry minimumAddHoldDown validators now key), true)) ∨
    ((state.1.lookup key.anchorId ≠ none ∨ addable key = false) ∧
      observeNew minimumAddHoldDown validators now state key = state) := by
  unfold observeNew addable
  cases state.1.lookup key.anchorId <;> cases key.isSep <;> cases key.isRevoked <;>
    simp [addedEntry]

/-- **What the loop over the observed keys leaves**: the entries there were, and one for the first
key that can be added of every other identity. -/
theorem foldl_observeNew (minimumAddHoldDown : Nat) (validators : List AnchorId) (now : SystemTime)
    (id : AnchorId) (keys : List ObservedDnskey) (state : Anchors × Bool) :
    (keys.foldl (observeNew minimumAddHoldDown validators now) state).1.lookup id =
      (state.1.lookup id).or ((keys.find? fun key => key.anchorId == id && addable key).map
        (addedEntry minimumAddHoldDown validators now)) ∧
    ((keys.foldl (observeNew minimumAddHoldDown validators now) state).2 = true ↔
      state.2 = true ∨ ∃ key ∈ keys, state.1.lookup key.anchorId = none ∧ addable key = true) := by
  induction keys generalizing state with
  | nil => simp
  | cons key keys ih =>
    obtain ⟨hlookup, hchanged⟩ := ih
      (observeNew minimumAddHoldDown validators now state key)
    rw [foldl_cons, hlookup, hchanged]
    rcases observeNew_cases with ⟨hnone, hadd, hstep⟩ | ⟨hskip, hstep⟩
    · rw [hstep]
      constructor
      · rcases eq_or_ne key.anchorId id with rfl | hne
        · simp [hnone, hadd]
        · simp [AList.lookup_insert_ne hne.symm, hne]
      · exact iff_of_true (.inl rfl) (.inr ⟨key, by simp, hnone, hadd⟩)
    · rw [hstep]
      rcases hskip with hsome | hno
      · refine ⟨?_, by simp [hsome]⟩
        rcases eq_or_ne key.anchorId id with rfl | hne
        · obtain ⟨entry, hentry⟩ := Option.ne_none_iff_exists'.mp hsome
          simp [hentry]
        · simp [hne]
      · simp [hno]

/-! ### The whole observation -/

/-- The entry after the loop over the tracked entries and the removals. -/
def settledEntry (manager : TrustAnchorManager) (keys : List ObservedDnskey) (now : SystemTime)
    (id : AnchorId) : Option TrustAnchorEntry :=
  (manager.entry id).bind fun entry =>
    match outcomeOf manager keys now id entry with
    | .keep later _ => some later
    | _ => none

def addedKey (keys : List ObservedDnskey) (id : AnchorId) : Option ObservedDnskey :=
  keys.find? fun key => key.anchorId == id && addable key

theorem Settled.eraseAll {done : List AnchorId} {observation : Observation}
    (h : Settled manager keys now done observation)
    (hdone : ∀ id, manager.entry id ≠ none → id ∈ done) (id : AnchorId) :
    (eraseAll (observation.resetAdditions ++ observation.purgeRevoked)
      observation.anchors).lookup id = settledEntry manager keys now id := by
  rw [lookup_eraseAll, h.lookup id, settledEntry]
  have hgone := h.gone id
  cases hentry : manager.entry id with
  | none => simp
  | some entry =>
    cases houtcome : outcomeOf manager keys now id entry <;> simp_all [removes, visited]

/-- **What an observation does**, with every entry judged by the anchors before it. -/
theorem observeValidatedRrset_settled (hlate : NoLateRevocation manager keys)
    {order : List AnchorId} (horder : order.Perm manager.anchors.keys) :
    (∀ id, (manager.observeValidatedRrset keys validators now order).1.entry id =
      if validators = [] then settledEntry manager keys now id
      else (settledEntry manager keys now id).or
        ((addedKey keys id).map (addedEntry manager.minimumAddHoldDown validators now))) ∧
    ((manager.observeValidatedRrset keys validators now order).2 = true ↔
      (∃ id entry, manager.entry id = some entry ∧
        changes (outcomeOf manager keys now id entry) = true) ∨
      (validators ≠ [] ∧ ∃ key ∈ keys, settledEntry manager keys now key.anchorId = none ∧
        addable key = true)) := by
  have hnodup : (order ++ []).Nodup := by
    rw [append_nil]
    exact horder.nodup_iff.mpr manager.anchors.nodupKeys
  have hsettled : Settled manager keys now _ _ := settled_foldl hlate hnodup settled_start
  have hdone : ∀ id, manager.entry id ≠ none → id ∈ order.reverse ++ [] := by
    intro id hsome
    rw [append_nil, mem_reverse, horder.mem_iff]
    exact AList.lookup_isSome.mp (Option.isSome_iff_ne_none.mpr hsome)
  have hchanged : (∃ id ∈ order.reverse ++ [], ∃ entry, manager.entry id = some entry ∧
      changes (outcomeOf manager keys now id entry) = true) ↔
      ∃ id entry, manager.entry id = some entry ∧
        changes (outcomeOf manager keys now id entry) = true := by
    refine exists_congr fun id => ⟨fun h => h.2, fun h => ⟨hdone id ?_, h⟩⟩
    obtain ⟨entry, hentry, -⟩ := h
    simp [hentry]
  unfold TrustAnchorManager.observeValidatedRrset
  generalize order.foldl (observeTracked manager.removeHoldDown keys now)
    ⟨manager.anchors, false, [], []⟩ = tracked at hsettled ⊢
  rcases eq_or_ne validators [] with rfl | hvalidators
  · refine ⟨fun id => hsettled.eraseAll hdone id, ?_⟩
    rw [← hchanged]
    simpa using hsettled.changed
  · have hempty : validators.isEmpty = false := by simpa using hvalidators
    have hnew := fun id => foldl_observeNew manager.minimumAddHoldDown validators now id keys
      (eraseAll (tracked.resetAdditions ++ tracked.purgeRevoked) tracked.anchors, tracked.changed)
    simp only [hempty, hvalidators, if_false, Bool.false_eq_true]
    constructor
    · intro id
      refine (hnew id).1.trans ?_
      rw [hsettled.eraseAll hdone id]
      rfl
    · rw [(hnew []).2, hsettled.changed, hchanged]
      simp [hsettled.eraseAll hdone, hvalidators]

/-! ### The set of keys -/

/-- No two of the observed keys that count share an identity: those of a tracked identity, and those
that can be added if there is a validator. -/
def OneForm (manager : TrustAnchorManager) (keys : List ObservedDnskey)
    (validators : List AnchorId) : Prop :=
  ∀ key ∈ keys, ∀ other ∈ keys, key.anchorId = other.anchorId →
    manager.entry key.anchorId ≠ none ∨
      validators ≠ [] ∧ addable key = true ∧ addable other = true → key = other

/-- Entries that are the same but for the order of the validators. -/
structure SameEntry (entry other : TrustAnchorEntry) : Prop where
  fields : { entry with acceptanceValidators := [] } = { other with acceptanceValidators := [] }
  validators : ∀ id, id ∈ entry.acceptanceValidators ↔ id ∈ other.acceptanceValidators

/-- A search finds the same in both lists if one key at most is searched for. -/
theorem find_congr {keys keys' : List ObservedDnskey} {p : ObservedDnskey → Bool}
    (hkeys : ∀ key, key ∈ keys ↔ key ∈ keys')
    (hone : ∀ key ∈ keys, ∀ other ∈ keys, p key = true → p other = true → key = other) :
    keys.find? p = keys'.find? p := by
  cases hfind : keys.find? p with
  | none =>
    symm
    rw [find?_eq_none] at hfind ⊢
    exact fun key hkey => hfind key ((hkeys key).mpr hkey)
  | some key =>
    have hkey := mem_of_find?_eq_some hfind
    have hp := find?_some hfind
    obtain ⟨other, hother⟩ : ∃ other, keys'.find? p = some other :=
      Option.isSome_iff_exists.mp (find?_isSome.mpr ⟨key, (hkeys key).mp hkey, hp⟩)
    have hmem := (hkeys other).mpr (mem_of_find?_eq_some hother)
    rw [hother, hone key hkey other hmem hp (find?_some hother)]

variable {keys' : List ObservedDnskey} {validators validators' order order' : List AnchorId}

section

variable (hforms : OneForm manager keys validators) (hkeys : ∀ key, key ∈ keys ↔ key ∈ keys')

include hforms hkeys

theorem OneForm.observedKey_eq (htracked : manager.entry id ≠ none) :
    observedKey keys id = observedKey keys' id := by
  refine find_congr (fun key => by simpa using hkeys key) fun key hkey other hother hid hid' => ?_
  obtain rfl : key.anchorId = id := by simpa using hid
  exact hforms key (by simpa using hkey) other (by simpa using hother) (beq_iff_eq.mp hid').symm
    (.inl htracked)

theorem OneForm.addedKey_eq (hsome : validators ≠ []) (id : AnchorId) :
    addedKey keys id = addedKey keys' id := by
  refine find_congr hkeys fun key hkey other hother hp hp' => ?_
  obtain ⟨hid, hadd⟩ : key.anchorId = id ∧ addable key = true := by simpa using hp
  obtain ⟨hid', hadd'⟩ : other.anchorId = id ∧ addable other = true := by simpa using hp'
  exact hforms key hkey other hother (hid.trans hid'.symm) (.inr ⟨hsome, hadd, hadd'⟩)

theorem OneForm.outcomeOf_eq (hentry : manager.entry id = some entry) :
    outcomeOf manager keys now id entry = outcomeOf manager keys' now id entry := by
  rw [outcomeOf, outcomeOf, hforms.observedKey_eq hkeys (by simp [hentry])]

theorem OneForm.settledEntry_eq : settledEntry manager keys now = settledEntry manager keys' now := by
  funext id
  unfold settledEntry
  cases hentry : manager.entry id with
  | none => rfl
  | some entry => simp only [Option.bind_some, hforms.outcomeOf_eq hkeys hentry]

end

theorem NoLateRevocation.congr (h : NoLateRevocation manager keys)
    (hkeys : ∀ key, key ∈ keys ↔ key ∈ keys') : NoLateRevocation manager keys' := by
  intro id entry hentry hstate hseen hrevoked
  refine h id entry hentry hstate (by simpa only [hkeys] using hseen) fun validator hmem => ?_
  simpa only [BecomesRevoked, hkeys] using hrevoked validator hmem

theorem sameEntry_refl : ∀ entry : Option TrustAnchorEntry, Option.Rel SameEntry entry entry
  | none => .none
  | some _ => .some ⟨rfl, fun _ => Iff.rfl⟩

/-- **An observation is a function of the set of keys and the set of validators**, whatever the
order of the hash map, if no two keys that count share an identity and no key that waits loses the
last of its validators. -/
theorem observation_of_sets (manager : TrustAnchorManager) (now : SystemTime)
    (hforms : OneForm manager keys validators) (hlate : NoLateRevocation manager keys)
    (hkeys : ∀ key, key ∈ keys ↔ key ∈ keys')
    (hvalidators : ∀ id, id ∈ validators ↔ id ∈ validators')
    (horder : order.Perm manager.anchors.keys) (horder' : order'.Perm manager.anchors.keys) :
    (manager.observeValidatedRrset keys validators now order).2 =
        (manager.observeValidatedRrset keys' validators' now order').2 ∧
      ∀ id, Option.Rel SameEntry
        ((manager.observeValidatedRrset keys validators now order).1.entry id)
        ((manager.observeValidatedRrset keys' validators' now order').1.entry id) := by
  have hchanges : ∀ id entry, (manager.entry id = some entry ∧
      changes (outcomeOf manager keys now id entry) = true) ↔ manager.entry id = some entry ∧
        changes (outcomeOf manager keys' now id entry) = true := fun id entry =>
    and_congr_right fun hentry => by rw [hforms.outcomeOf_eq hkeys hentry]
  have hsettled : settledEntry manager keys now = settledEntry manager keys' now :=
    hforms.settledEntry_eq hkeys
  have hempty : validators = [] ↔ validators' = [] := by
    simp only [eq_nil_iff_forall_not_mem, hvalidators]
  obtain ⟨hentry, hchanged⟩ := observeValidatedRrset_settled hlate horder
  obtain ⟨hentry', hchanged'⟩ := observeValidatedRrset_settled (hlate.congr hkeys) horder'
  constructor
  · rw [Bool.eq_iff_iff, hchanged, hchanged']
    simp [hchanges, hsettled, hkeys, hempty]
  · intro id
    rw [hentry id, hentry' id, hsettled]
    simp only [← hempty]
    split_ifs with hnone
    · exact sameEntry_refl _
    · rw [hforms.addedKey_eq hkeys hnone id]
      cases settledEntry manager keys' now id with
      | some entry => exact sameEntry_refl _
      | none =>
        cases addedKey keys' id with
        | none => exact .none
        | some key => exact .some ⟨rfl, hvalidators⟩

def rootKey (publicKey : UInt8) : ObservedDnskey := ⟨['.'], 257, 8, 1, [publicKey], 0, false⟩

def revokedForm (key : ObservedDnskey) : ObservedDnskey :=
  { key with flags := key.flags ||| revokeFlag, authenticatedSelfRevocation := true }

/-- A manager that trusts one key. -/
def seeded : TrustAnchorManager := (withParameters 10 10).seedValidAnchor (rootKey 1) 0

/-- Two forms of a key that is not tracked do no harm. -/
theorem observation_of_sets_new_key :
    (seeded.observeValidatedRrset [rootKey 1, rootKey 2, revokedForm (rootKey 2)]
        [(rootKey 1).anchorId] 5 seeded.anchors.keys).2 =
      (seeded.observeValidatedRrset [revokedForm (rootKey 2), rootKey 2, rootKey 1, rootKey 2]
        [(rootKey 1).anchorId, (rootKey 1).anchorId] 5 seeded.anchors.keys).2 :=
  (observation_of_sets seeded 5 (by unfold OneForm; decide) (by
      intro id entry hentry hstate
      rcases lookup_insert_cases hentry with ⟨-, rfl⟩ | hnone
      · cases hstate
      · cases hnone)
    (by simp; tauto) (by simp) (List.Perm.refl _) (List.Perm.refl _)).1

/-- A manager that trusts one key, while another waits that it vouched for. -/
def waiting : TrustAnchorManager :=
  (seeded.observeValidatedRrset [rootKey 1, rootKey 2] [(rootKey 1).anchorId] 0
    seeded.anchors.keys).1

/-- Of two forms of one key the last counts, and a key that waits is added or starts over as its
entry is visited before or after that of the validator that revokes itself. -/
theorem observation_depends_on_order :
    (((seeded.observeValidatedRrset [rootKey 1, revokedForm (rootKey 1)] [] 5
          seeded.anchors.keys).1.entry (rootKey 1).anchorId).map (·.state) = some .revoked ∧
      ((seeded.observeValidatedRrset [revokedForm (rootKey 1), rootKey 1] [] 5
          seeded.anchors.keys).1.entry (rootKey 1).anchorId).map (·.state) = some .valid) ∧
    (((waiting.observeValidatedRrset [revokedForm (rootKey 1), rootKey 2] [(rootKey 1).anchorId] 10
          [(rootKey 2).anchorId, (rootKey 1).anchorId]).1.entry (rootKey
            2).anchorId).map (·.state) =
        some .valid ∧
      ((waiting.observeValidatedRrset [revokedForm (rootKey 1), rootKey 2] [(rootKey 1).anchorId] 10
          [(rootKey 1).anchorId, (rootKey 2).anchorId]).1.entry (rootKey
            2).anchorId).map (·.state) =
        some .addHoldDown) ∧
    waiting.anchors.keys.Perm [(rootKey 1).anchorId, (rootKey 2).anchorId] := by
  decide

end RustdResolved.Rfc5011.KeySet
