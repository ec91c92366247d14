import RustdResolved.Dnssec.Calls

/-! # Where trust comes from

A key of the root is trusted because it matched a configured anchor when it was first seen, or
because it was presented over the whole hold-down by record sets that trusted keys had signed. This
module follows the state file through calls of `verify_rrsig`, with the list of calls so far as the
history.

The source seeds whichever key verified the signature. What the history accounts for therefore
depends on that key (`SeedsOnlyAnchors`): `zone_key_seeded_valid` is a run in which it is the
zone-signing key, which no anchor matches. -/

namespace RustdResolved.Rfc5011.Provenance

open Lib Result Runs Maps Wire Octets PacketHeader Record DnssecRecords
open Dnssec.Canonical (SystemTime nanosPerSecond durationSince)
open Dnssec Verify Rrsets Authenticate Calls Manager Entries Rfc5011.Runtime

variable {e : TrustAnchorEntry} {file : StateFile} {manager : TrustAnchorManager}

def fileEntry (file : StateFile) (id : AnchorId) : Option TrustAnchorEntry :=
  match withPath.loadFromDisk file with
  | .ok manager => manager.entry id
  | .error _ => none

/-- The identity of the key that verifies in a call. -/
def verifierId (call : VerifyCall) : Option AnchorId :=
  match observedDnskeyWithoutRevocation call.dnskeyRecord with
  | .ok key => some key.anchorId
  | .error _ => none

section
variable (native : Native)

/-- The call is accepted and observes the keys of the root. -/
def Observes (call : VerifyCall) : Prop :=
  Accepted native call ∧ isRootDnskeySet call.rrset = true

/-- The key that verifies in the call is that of an anchor in force. -/
def MatchesAnchor (call : VerifyCall) : Prop :=
  ∃ anchor ∈ call.anchors, trustAnchorMatchesDnskey native anchor call.dnskeyRecord = .ok true

/-- The call presents a key that is not revoked. -/
def Presents (call : VerifyCall) (id : AnchorId) : Prop :=
  Observes native call ∧ ∃ record ∈ call.rrset, ∃ key,
    observedDnskey native call.packet call.rrset record call.now = .ok key ∧ key.anchorId = id ∧
      key.isRevoked = false

variable (start : RuntimeStore) (calls : List VerifyCall)

section
variable (id : AnchorId)

/-- The entry of a key after a run of calls. -/
def entryAfter : Option TrustAnchorEntry :=
  fileEntry (run (callStep native) start calls).file id

/-- The key was not known when it verified, and was that of an anchor in force. -/
def SeededByAnchor : Prop :=
  ∃ before call after, calls = before ++ call :: after ∧ Observes native call ∧
    verifierId call = some id ∧ entryAfter native start before id = none ∧ MatchesAnchor native call

/-- The key was presented at a time and has been waiting ever since. -/
def WaitingSince (since : SystemTime) : Prop :=
  ∃ before first after, calls = before ++ first :: after ∧ Presents native first id ∧
    first.now = since ∧ ∀ earlier, earlier <+: after → ∃ entry,
      entryAfter native start (before ++ first :: earlier) id = some entry ∧
        entry.state = .addHoldDown ∧ entry.firstSeen = since

def ServedHoldDown : Prop :=
  ∃ before call after since, calls = before ++ call :: after ∧
    WaitingSince native start before id since ∧ Presents native call id ∧
    hasElapsed call.now since defaultAddHoldDown = true

/-- The history accounts for the trust in a key. -/
def Accounted : Prop :=
  SeededByAnchor native start calls id ∨ ServedHoldDown native start calls id

end

end

/-- A key that verifies the keys of the root is known, or that of an anchor in force. -/
def SeedsOnlyAnchors (native : Native) (store : RuntimeStore) (call : VerifyCall) : Prop :=
  Observes native call → ∀ id, verifierId call = some id →
    fileEntry store.file id ≠ none ∨ MatchesAnchor native call

variable {native : Native} {start : RuntimeStore} {id : AnchorId} {history : List VerifyCall}
  {call : VerifyCall}

/-! ### What a call does to the state file -/

theorem mem_of_collect {α β : Type} {f : α → Except RuntimeError β} : ∀ {as : List α} {bs : List β},
    collect f as = .ok bs → ∀ b ∈ bs, ∃ a ∈ as, f a = .ok b
  | [], bs, h, b, hb => by
    cases h
    cases hb
  | a :: as, bs, h, b, hb => by
    obtain ⟨b', hb', h⟩ := of_bind h
    obtain ⟨others, hothers, h⟩ := of_bind h
    cases h
    rcases List.mem_cons.mp hb with rfl | hmem
    · exact ⟨a, by simp, hb'⟩
    · obtain ⟨a', ha', hf⟩ := mem_of_collect hothers b hmem
      exact ⟨a', by simp [ha'], hf⟩

/-- An observation: the manager of the file, with the verifying key seeded, sees the record set. -/
structure Observed (native : Native) (call : VerifyCall) (file : StateFile)
    (loaded : TrustAnchorManager) (validator : ObservedDnskey) (keys : List ObservedDnskey)
    (after : TrustAnchorManager) : Prop where
  load : withPath.loadFromDisk file = .ok loaded
  verifier : observedDnskeyWithoutRevocation call.dnskeyRecord = .ok validator
  presented : ∀ key ∈ keys, ∃ record ∈ call.rrset,
    observedDnskey native call.packet call.rrset record call.now = .ok key
  seen : ∃ order, after = ((seedUnknown call.now (loaded, false) validator).1.observeValidatedRrset
    keys [validator.anchorId] call.now order).1

theorem observed_of_observeManager {updated : Bool}
    (h : observeManager native call.packet call.rrset [call.dnskeyRecord] call.now call.order file =
      .ok (manager, updated)) :
    ∃ loaded validator keys, Observed native call file loaded validator keys manager := by
  unfold observeManager at h
  cases hrrset : call.rrset with
  | nil => simp [hrrset] at h
  | cons first others =>
    simp only [hrrset] at h
    split_ifs at h
    obtain ⟨keys, hkeys, h⟩ := of_bind h
    obtain ⟨validators, hvalidators, h⟩ := of_bind h
    obtain ⟨validator, hvalidator, hvalidators⟩ := of_bind hvalidators
    obtain ⟨rest, hrest, hvalidators⟩ := of_bind hvalidators
    cases hrest
    cases hvalidators
    cases hload : withPath.loadFromDisk file with
    | error error => simp [hload] at h
    | ok loaded =>
      simp only [hload] at h
      refine ⟨loaded, validator, keys, hload, hvalidator, ?_, ?_⟩
      · rw [hrrset]
        exact mem_of_collect hkeys
      · obtain ⟨hmanager, -⟩ := Prod.mk.inj (Except.ok.inj h)
        exact ⟨_, hmanager.symm⟩

/-- A call leaves the state file as it is, or saves what an observation made of it. -/
theorem callStep_file {store : RuntimeStore} :
    (callStep native store call).file = store.file ∨
      Observes native call ∧ ∃ loaded validator keys after,
        Observed native call store.file loaded validator keys after ∧
        (callStep native store call).file = after.saveToDisk := by
  unfold callStep VerifyCall.perform verifyRrsig
  match hanswer : rrsigVerifies native call.packet call.rrsigRecord call.rrset call.dnskeyRecord
      call.now with
  | .error error => exact Or.inl rfl
  | .ok false => exact Or.inl rfl
  | .ok true =>
    split_ifs with hroot
    · unfold observeAuthenticatedDnskeyRrset
      cases hmanager : observeManager native call.packet call.rrset [call.dnskeyRecord] call.now
          call.order store.file with
      | error error => exact Or.inl rfl
      | ok result =>
        obtain ⟨manager, updated⟩ := result
        obtain ⟨loaded, validator, keys, hobserved⟩ := observed_of_observeManager hmanager
        by_cases hsaves : (updated && call.io.saves) = true
        · obtain ⟨rfl, hio⟩ := Bool.and_eq_true_iff.mp hsaves
          refine Or.inr ⟨⟨hanswer, hroot⟩, loaded, validator, keys, manager, hobserved, ?_⟩
          cases hpublishes : call.io.publishes <;> simp [hio]
        · left
          cases updated <;> cases hpublishes : call.io.publishes <;> simp_all
    · exact Or.inl rfl

theorem minimumAddHoldDown_of_load (h : withPath.loadFromDisk file = .ok manager) :
    manager.minimumAddHoldDown = defaultAddHoldDown := by
  cases file with
  | absent =>
    cases h
    rfl
  | undecodable => cases h
  | persisted version anchors =>
    simp only [TrustAnchorManager.loadFromDisk] at h
    split_ifs at h
    cases h
    rfl

theorem entry_seedUnknown {now : SystemTime} {seeded : Bool} {validator : ObservedDnskey}
    (h : (seedUnknown now (manager, seeded) validator).1.entry id = some e) :
    manager.entry id = some e ∨
      id = validator.anchorId ∧ manager.entry id = none ∧ e.state = .valid := by
  unfold seedUnknown at h
  cases hknown : manager.entry validator.anchorId with
  | some _ =>
    simp only [hknown] at h
    exact Or.inl h
  | none =>
    simp only [hknown] at h
    rcases lookup_insert_cases h with ⟨rfl, rfl⟩ | hold
    · exact Or.inr ⟨rfl, hknown, rfl⟩
    · exact Or.inl hold

/-! ### The history -/

theorem hasElapsed_mono {now since : SystemTime} {d d' : Nat} (hd : d ≤ d')
    (h : hasElapsed now since d' = true) : hasElapsed now since d = true := by
  unfold hasElapsed at h ⊢
  cases helapsed : durationSince now since with
  | none => simp [helapsed] at h
  | some elapsed =>
    simp only [helapsed, decide_eq_true_eq] at h ⊢
    omega

theorem hasElapsed_self (now : SystemTime) : hasElapsed now now defaultAddHoldDown = false := by
  simp [hasElapsed, durationSince, defaultAddHoldDown, nanosPerSecond]

theorem Accounted.concat (h : Accounted native start history id) :
    Accounted native start (history ++ [call]) id := by
  rcases h with ⟨before, c, after, rfl, hrest⟩ | ⟨before, c, after, since, rfl, hrest⟩
  · exact Or.inl ⟨before, c, after ++ [call], by simp, hrest⟩
  · exact Or.inr ⟨before, c, after ++ [call], since, by simp, hrest⟩

theorem WaitingSince.concat (h : WaitingSince native start history id e.firstSeen)
    (he : entryAfter native start (history ++ [call]) id = some e)
    (hstate : e.state = .addHoldDown) :
    WaitingSince native start (history ++ [call]) id e.firstSeen := by
  obtain ⟨before, first, after, rfl, hpresents, hnow, hwaits⟩ := h
  refine ⟨before, first, after ++ [call], by simp, hpresents, hnow, fun earlier hearlier => ?_⟩
  rcases List.prefix_concat_iff.mp hearlier with rfl | hearlier
  · exact ⟨e, by simpa using he, hstate, rfl⟩
  · exact hwaits earlier hearlier

/-! ### The invariant -/

/-- The history accounts for an entry: for the trust in it, or for how long it has been waiting. -/
structure EntryAccounted (native : Native) (start : RuntimeStore) (history : List VerifyCall)
    (id : AnchorId) (e : TrustAnchorEntry) : Prop where
  trusted : e.state.isTrusted = true → Accounted native start history id
  waiting : e.state = .addHoldDown →
    defaultAddHoldDown ≤ e.addHoldDownTime ∧ WaitingSince native start history id e.firstSeen

/-- What holds of an entry while a call makes its observation: the trust is accounted for with the
call, and the waiting either began before the call or begins with it. -/
structure Accounting (native : Native) (start : RuntimeStore) (history : List VerifyCall)
    (call : VerifyCall) (id : AnchorId) (e : TrustAnchorEntry) : Prop where
  trusted : e.state.isTrusted = true → Accounted native start (history ++ [call]) id
  longEnough : e.state = .addHoldDown → defaultAddHoldDown ≤ e.addHoldDownTime
  waiting : e.state = .addHoldDown →
    WaitingSince native start history id e.firstSeen ∨
      Presents native call id ∧ e.firstSeen = call.now

theorem EntryAccounted.accounting (h : EntryAccounted native start history id e) :
    Accounting native start history call id e :=
  ⟨fun htrusted => (h.trusted htrusted).concat, fun hstate => (h.waiting hstate).1,
    fun hstate => Or.inl (h.waiting hstate).2⟩

theorem Accounting.entryAccounted (h : Accounting native start history call id e)
    (he : entryAfter native start (history ++ [call]) id = some e) :
    EntryAccounted native start (history ++ [call]) id e := by
  refine ⟨h.trusted, fun hstate => ⟨h.longEnough hstate, ?_⟩⟩
  rcases h.waiting hstate with hwaiting | ⟨hpresents, hsince⟩
  · exact hwaiting.concat he hstate
  · refine ⟨history, call, [], rfl, hpresents, hsince.symm, fun earlier hearlier => ?_⟩
    rw [List.prefix_nil.mp hearlier]
    exact ⟨e, he, hstate, rfl⟩

theorem Accounting.keep {removeHoldDown : Nat} {anchors : Anchors} {keys : List ObservedDnskey}
    {e' : TrustAnchorEntry} {changed : Bool} (hobserves : Observes native call)
    (hkeys : ∀ key ∈ keys, ∃ record ∈ call.rrset,
      observedDnskey native call.packet call.rrset record call.now = .ok key)
    (h : Accounting native start history call id e)
    (houtcome : trackedOutcome removeHoldDown anchors call.now e (observedKey keys id) =
      .keep e' changed) :
    Accounting native start history call id e' := by
  rcases keep_cases houtcome with ⟨hstate, key, hkey, hrevoked, hafter⟩ | ⟨htrusted, hstate'⟩ |
    ⟨-, hrevoked⟩
  · rcases hafter with rfl | ⟨hvalid, helapsed⟩
    · exact ⟨h.trusted, h.longEnough, h.waiting⟩
    · -- the entry is added: its hold-down is over
      refine ⟨fun _ => ?_, by simp [hvalid], by simp [hvalid]⟩
      have helapsed := hasElapsed_mono (h.longEnough hstate) helapsed
      obtain ⟨hmem, hid⟩ := mem_of_observedKey hkey
      obtain ⟨record, hrecord, hobserved⟩ := hkeys key hmem
      rcases h.waiting hstate with hwaiting | ⟨-, hsince⟩
      · exact Or.inr ⟨history, call, [], e.firstSeen, rfl, hwaiting,
          ⟨hobserves, record, hrecord, key, hobserved, hid, hrevoked⟩, helapsed⟩
      · rw [hsince, hasElapsed_self] at helapsed
        cases helapsed
  · exact ⟨fun _ => h.trusted htrusted, fun hadd => absurd hadd hstate',
      fun hadd => absurd hadd hstate'⟩
  · refine ⟨fun htrusted => ?_, fun hadd => ?_, fun hadd => ?_⟩
    · cases hstate : e'.state <;> simp_all [TrustAnchorState.isTrusted, TrustAnchorState.isRevoked]
    · simp [hadd, TrustAnchorState.isRevoked] at hrevoked
    · simp [hadd, TrustAnchorState.isRevoked] at hrevoked

/-- A call that seeds only anchors keeps the account of every entry. -/
theorem entryAccounted_concat
    (hhistory : ∀ id e, entryAfter native start history id = some e →
      EntryAccounted native start history id e)
    (hseeds : SeedsOnlyAnchors native (run (callStep native) start history) call) (id : AnchorId)
    (e : TrustAnchorEntry) (he : entryAfter native start (history ++ [call]) id = some e) :
    EntryAccounted native start (history ++ [call]) id e := by
  refine Accounting.entryAccounted ?_ he
  rw [entryAfter, run_concat] at he
  rcases callStep_file with
    hsame | ⟨hobserves, loaded, validator, keys, after, hobserved, hfile⟩
  · rw [hsame] at he
    exact (hhistory id e he).accounting
  rw [hfile] at he
  change after.entry id = some e at he
  obtain ⟨order, rfl⟩ := hobserved.seen
  have hentry : ∀ id, entryAfter native start history id = loaded.entry id :=
    fun id => by simp [entryAfter, fileEntry, hobserved.load]
  refine observeValidatedRrset_entry (Accounting native start history call id) ?_ ?_ ?_ e he
  · intro anchors e e' changed h houtcome
    exact h.keep hobserves hobserved.presented houtcome
  · -- a new key begins to wait
    intro key hkey hid _ hrevoked _ _
    obtain ⟨record, hrecord, hkey⟩ := hobserved.presented key hkey
    refine ⟨by simp [newEntry, TrustAnchorState.isTrusted], fun _ => ?_, fun _ => ?_⟩
    · unfold seedUnknown
      split <;> exact minimumAddHoldDown_of_load hobserved.load ▸ Nat.le_max_left _ _
    · exact Or.inr ⟨⟨hobserves, record, hrecord, key, hkey, hid, hrevoked⟩, rfl⟩
  · intro e he
    rcases entry_seedUnknown he with hold | ⟨rfl, hnone, hvalid⟩
    · exact (hhistory id e ((hentry id).trans hold)).accounting
    · -- the verifying key is seeded
      have hverifier : verifierId call = some validator.anchorId := by
        simp [verifierId, hobserved.verifier]
      have hunknown := (hentry _).trans hnone
      have hmatches : MatchesAnchor native call :=
        (hseeds hobserves _ hverifier).resolve_left fun hknown => hknown hunknown
      exact ⟨fun _ => Or.inl ⟨history, call, [], rfl, hobserves, hverifier, hunknown, hmatches⟩,
        by simp [hvalid], by simp [hvalid]⟩

/-- **Trust is accounted for**: from an empty state, in a run whose calls seed only anchors, every
key that is ever trusted matched an anchor when it was seeded or served the hold-down. -/
theorem trusted_keys_accounted (native : Native) (start : RuntimeStore) (calls : List VerifyCall)
    (hempty : start.file = .absent)
    (hsteps : AllSteps (callStep native) (SeedsOnlyAnchors native) start calls) :
    ∀ earlier, earlier <+: calls → ∀ id entry, entryAfter native start earlier id = some entry →
      entry.state.isTrusted = true → Accounted native start earlier id := by
  rintro earlier ⟨later, rfl⟩ id entry hentry htrusted
  have hall := run_history (fun history => ∀ id e, entryAfter native start history id = some e →
      EntryAccounted native start history id e) ?_
    (fun _ _ hinv hseeds => entryAccounted_concat hinv hseeds) earlier
    (allSteps_append.mp hsteps).1
  · exact (hall id entry hentry).trusted htrusted
  · intro id e he
    simp [entryAfter, run, hempty, fileEntry, TrustAnchorManager.loadFromDisk, withPath,
      withParameters, TrustAnchorManager.entry] at he

/-! ### The keys of the root -/

structure RootKey where
  flags : Nat
  publicKey : Bytes
  keyTag : Nat

def RootKey.dnskey (key : RootKey) : Bytes := dnskeyRdata key.flags 15 key.publicKey

def RootKey.rrsig (key : RootKey) : Bytes :=
  rrsigRdata typeDnskey 15 0 3600 1800000000 1700000000 key.keyTag []
    (key.publicKey ++ key.publicKey)

def keySigningKey : RootKey := ⟨257, List.replicate 32 1, 5152⟩
def zoneSigningKey : RootKey := ⟨256, List.replicate 32 3, 13375⟩

def RootKey.anchorId (key : RootKey) : AnchorId :=
  Manager.anchorId ['.'] key.flags 15 key.publicKey

section
variable (signers : List RootKey)

def rootKeysResponse : Bytes :=
  responseWire 0x8180 [] typeDnskey
    ([recordWire [] typeDnskey 3600 keySigningKey.dnskey,
      recordWire [] typeDnskey 3600 zoneSigningKey.dnskey] ++
      signers.map fun key => recordWire [] typeRrsig 3600 key.rrsig) []

/-- A resolver that trusts the key-signing key. -/
def rootSurroundings : Surroundings :=
  { native := doublingNative
    sha1 := fun input => input
    mode := .yes
    server := 0
    negativeAnchors := []
    positiveAnchors := [⟨['.'], .dnskey keySigningKey.dnskey⟩]
    cacheMaxTtl := 0
    exchange := fun _ _ => .ok (rootKeysResponse signers)
    transactionId := fun _ => 0
    systemTime := fun _ => 1750000000000000000
    instant := fun _ => 0
    io := fun _ => ⟨true, true⟩
    order := fun _ keys => keys }

/-- The validation of an answer with the keys of the root. -/
def rootRun :=
  authenticateDnsResponse (rootSurroundings signers) (queryWire flagRd [] typeDnskey)
    (rootKeysResponse signers) 0 startWorld

end

/-- **A zone-signing key becomes a trust anchor.** Both keys sign, and the zone-signing key
first. -/
theorem zone_key_seeded_valid :
    (rootRun [zoneSigningKey, keySigningKey]).1.map Prod.fst = .ok .secure ∧
      (fileEntry (rootRun [zoneSigningKey, keySigningKey]).2.store.file
        zoneSigningKey.anchorId).map (·.state) = some .valid ∧
      ¬ Accounted doublingNative startWorld.store (rootRun [zoneSigningKey, keySigningKey]).2.calls
        zoneSigningKey.anchorId := by
  have hnow : ∀ call ∈ (rootRun [zoneSigningKey, keySigningKey]).2.calls,
      call.now = 1750000000000000000 := by decide +kernel
  have hanchors : ∀ call ∈ (rootRun [zoneSigningKey, keySigningKey]).2.calls,
      verifierId call = some zoneSigningKey.anchorId → ∀ anchor ∈ call.anchors,
      trustAnchorMatchesDnskey doublingNative anchor call.dnskeyRecord ≠ .ok true := by
    decide +kernel
  refine ⟨by decide +kernel, by decide +kernel, ?_⟩
  generalize (rootRun [zoneSigningKey, keySigningKey]).2.calls = calls at hnow hanchors
  rintro (⟨before, call, after, rfl, -, hid, -, anchor, hanchor, hmatches⟩ |
    ⟨before, call, after, since, rfl, ⟨_, first, _, rfl, -, rfl, -⟩, -, helapsed⟩)
  · exact hanchors call (by simp) hid anchor hanchor hmatches
  · rw [hnow call (by simp), hnow first (by simp), hasElapsed_self] at helapsed
    cases helapsed

theorem trusted_keys_accounted_signing_key :
    (fileEntry (rootRun [keySigningKey]).2.store.file keySigningKey.anchorId).map (·.state) =
        some .valid ∧
      Accounted doublingNative startWorld.store (rootRun [keySigningKey]).2.calls
        keySigningKey.anchorId := by
  have hvalid : (entryAfter doublingNative startWorld.store (rootRun [keySigningKey]).2.calls
      keySigningKey.anchorId).map (·.state) = some .valid := by decide +kernel
  obtain ⟨entry, hentry, hstate⟩ := Option.map_eq_some_iff.mp hvalid
  have hanchors : ∀ call ∈ (rootRun [keySigningKey]).2.calls, ∃ anchor ∈ call.anchors,
      trustAnchorMatchesDnskey doublingNative anchor call.dnskeyRecord = .ok true := by
    decide +kernel
  have htrusted : entry.state.isTrusted = true := by
    rw [hstate]
    rfl
  refine ⟨by decide +kernel, ?_⟩
  generalize (rootRun [keySigningKey]).2.calls = calls at hanchors hentry
  exact trusted_keys_accounted doublingNative startWorld.store calls rfl
    (allSteps_of_forall fun call hcall _ _ _ _ => Or.inr (hanchors call hcall)) calls
      List.prefix_rfl _
    entry hentry htrusted

end RustdResolved.Rfc5011.Provenance
