import RustdResolved.Dnssec.Authenticate
import RustdResolved.Lib.Runs

/-! # The calls behind a verdict

All that the validator does to the files of RFC 5011, it does through its calls of `verify_rrsig`
(`authenticateDnsResponse_later`). A record set passes by the first of its signatures that is
verified (`verifySignatures_iff_first`), in a call that was accepted (`verifySignatures_single`). -/

namespace RustdResolved.Dnssec.Calls

open List Lib Stateful Runs Wire Octets Record DnssecRecords Resolver.Error NameText
open Dnssec.Canonical (SystemTime)
open Verify Rrsets Semantics Authenticate Rfc5011.Runtime

variable {a b c : World} {response : Bytes} {rrset : List ResourceRecord}

/-- The files of RFC 5011 after a call. -/
def callStep (native : Native) (store : RuntimeStore) (call : VerifyCall) : RuntimeStore :=
  (call.perform native store).2

/-- The calls between two states, all under the same anchors, account for the change of the
files. -/
structure Extends (native : Native) (anchors : List PositiveTrustAnchor) (before after : World)
    (new : List VerifyCall) : Prop where
  history : after.calls = before.calls ++ new
  files : after.store = run (callStep native) before.store new
  inForce : ∀ call ∈ new, call.anchors = anchors

def Later (native : Native) (anchors : List PositiveTrustAnchor) (before after : World) : Prop :=
  ∃ new, Extends native anchors before after new

variable {native : Native} {anchors : List PositiveTrustAnchor}

theorem Extends.trans {new new' : List VerifyCall} (hab : Extends native anchors a b new)
    (hbc : Extends native anchors b c new') : Extends native anchors a c (new ++ new') := by
  refine ⟨?_, ?_, ?_⟩
  · rw [hbc.history, hab.history, append_assoc]
  · rw [hbc.files, hab.files, run, run, run, foldl_append]
  · intro call hcall
    rcases mem_append.mp hcall with h | h
    · exact hab.inForce call h
    · exact hbc.inForce call h

instance : Std.Refl (Later native anchors) := ⟨fun _ => ⟨[], by simp, rfl, by simp⟩⟩

instance : IsTrans World (Later native anchors) :=
  ⟨fun _ _ _ ⟨new, hab⟩ ⟨new', hbc⟩ => ⟨new ++ new', hab.trans hbc⟩⟩

/-! ### Every part of the validator leads to a later state -/

section
variable {env : Surroundings} {packet query : Bytes} {signature key : ResourceRecord}
  {keys records : List ResourceRecord} {now : SystemTime} {owner zone : Text} {rrType : Nat}
  {cache : TrustedKeyCache}

/-- A computation whose runs all lead to later states. -/
abbrev Advances {α : Type} (env : Surroundings) (anchors : List PositiveTrustAnchor)
    (x : Validator α) : Prop :=
  Preserves (Later env.native anchors) x

theorem advances_act {α : Type} {f : World → α × World}
    (h : ∀ world, (f world).2.calls = world.calls ∧ (f world).2.store = world.store) :
    Advances env anchors (act f : Validator α) :=
  ⟨fun world => ⟨[], by simp [act, (h world).1], (h world).2, by simp⟩⟩

theorem advances_readClock : Advances env anchors (readClock env) :=
  advances_act fun _ => ⟨rfl, rfl⟩

theorem advances_readInstant : Advances env anchors (readInstant env) :=
  advances_act fun _ => ⟨rfl, rfl⟩

theorem advances_callVerifyRrsig :
    Advances env anchors (callVerifyRrsig env anchors packet signature rrset key now) := by
  refine ⟨fun world => ?_⟩
  exact ⟨[⟨env.io world.calls.length, env.order world.calls.length, anchors, packet, signature,
    rrset, key, now⟩], rfl, rfl, by simp⟩

theorem advances_verifyRrsetWithKeysAt :
    Advances env anchors (verifyRrsetWithKeysAt env anchors packet signature rrset now keys) := by
  induction keys with
  | nil => exact preserves_pure
  | cons key rest ih =>
    refine preserves_bind advances_callVerifyRrsig fun answer => ?_
    match answer with
    | .ok true => exact preserves_pure
    | .ok false => exact ih
    | .error error => exact preserves_lift

theorem advances_verifyRrsetWithKeys :
    Advances env anchors (verifyRrsetWithKeys env anchors packet signature rrset keys) :=
  preserves_bind advances_readClock fun _ => advances_verifyRrsetWithKeysAt

theorem advances_anyVerifies : ∀ {signatures : List ResourceRecord},
    Advances env anchors (anyVerifies env anchors packet rrset keys now signatures)
  | [] => preserves_pure
  | _ :: _ =>
    preserves_bind advances_verifyRrsetWithKeysAt fun _ =>
      preserves_ite preserves_pure advances_anyVerifies

theorem advances_verifyPacketRrset :
    Advances env anchors (verifyPacketRrset env anchors packet owner rrType keys) := by
  refine preserves_bind advances_readClock fun now => ?_
  refine preserves_bind preserves_lift fun sections => ?_
  split
  · exact preserves_pure
  · exact preserves_bind preserves_lift fun _ => advances_anyVerifies

theorem advances_dnssecFetch : Advances env anchors (dnssecFetch env owner rrType) :=
  preserves_bind (advances_act fun _ => ⟨rfl, rfl⟩) fun _ =>
    preserves_bind preserves_lift fun _ => preserves_lift

theorem advances_verifyDenialRecords :
    Advances env anchors (verifyDenialRecords env anchors packet keys records) := by
  induction records with
  | nil => exact preserves_pure
  | cons _ _ ih =>
    exact preserves_bind advances_verifyPacketRrset fun _ =>
      preserves_ite (preserves_bind ih fun _ => preserves_pure) preserves_pure

theorem advances_authenticatedDsDenial :
    Advances env anchors (authenticatedDsDenial env anchors packet zone keys) := by
  refine preserves_bind preserves_lift fun sections => ?_
  refine preserves_bind advances_verifyDenialRecords fun denial => ?_
  match denial with
  | some true =>
    exact preserves_bind preserves_lift fun _ => preserves_ite preserves_pure preserves_lift
  | some false => exact preserves_pure
  | none => exact preserves_pure

theorem advances_cachedTrustedDnskeys : Advances env anchors (cachedTrustedDnskeys env zone) := by
  refine preserves_bind (advances_act fun _ => ⟨rfl, rfl⟩) fun entry => ?_
  match entry with
  | none => exact preserves_pure
  | some entry =>
    exact preserves_bind advances_readInstant fun _ =>
      preserves_ite (advances_act fun _ => ⟨rfl, rfl⟩) preserves_pure

theorem advances_cacheTrustedDnskeys :
    Advances env anchors (cacheTrustedDnskeys env zone packet keys) :=
  preserves_bind advances_readClock fun _ =>
    preserves_bind preserves_lift fun _ =>
      preserves_ite preserves_pure
        (preserves_bind advances_readInstant fun _ => advances_act fun _ => ⟨rfl, rfl⟩)

theorem advances_zoneKeys {isSigningKey : ResourceRecord → Bool} {failure : Text} :
    Advances env anchors (zoneKeys env anchors packet zone isSigningKey failure) :=
  preserves_bind preserves_lift fun _ =>
    preserves_ite preserves_lift (preserves_bind advances_verifyPacketRrset fun _ =>
        preserves_ite
          (preserves_bind preserves_lift fun _ => preserves_ite preserves_lift preserves_pure)
          preserves_lift)

theorem advances_descend : ∀ {zones : List Text} {trusted : List ResourceRecord}
    {trustedPacket : Bytes}, Advances env anchors (descend env anchors trusted trustedPacket zones)
  | [], _, _ => preserves_pure
  | _ :: _, _, _ =>
    preserves_bind advances_dnssecFetch fun _ =>
      preserves_bind preserves_lift fun _ =>
        preserves_ite (preserves_bind advances_authenticatedDsDenial fun _ =>
            preserves_bind advances_dnssecFetch fun _ =>
              preserves_bind preserves_lift fun _ =>
                preserves_ite advances_descend (preserves_ite preserves_pure preserves_lift))
          (preserves_bind advances_verifyPacketRrset fun _ =>
            preserves_ite (preserves_bind advances_dnssecFetch fun _ =>
                preserves_bind advances_zoneKeys fun _ => advances_descend)
              preserves_lift)

theorem advances_trustedDnskeys : Advances env anchors (trustedDnskeys env anchors zone) := by
  refine preserves_bind advances_cachedTrustedDnskeys fun cached => ?_
  match cached with
  | some keys => exact preserves_pure
  | none =>
    dsimp only
    split
    · exact preserves_pure
    · refine preserves_bind advances_dnssecFetch fun _ => ?_
      refine preserves_bind advances_zoneKeys fun _ => ?_
      refine preserves_bind advances_descend fun result => ?_
      match result with
      | none => exact preserves_pure
      | some (trusted, trustedPacket) =>
        exact preserves_bind advances_cacheTrustedDnskeys fun _ => preserves_pure

theorem advances_signerKeys : Advances env anchors (signerKeys env anchors zone cache) := by
  unfold signerKeys
  split
  · exact preserves_pure
  · exact preserves_bind advances_trustedDnskeys fun _ => preserves_pure

theorem advances_verifySignatures {signatures : List ResourceRecord} {insecure : Bool} :
    Advances env anchors (verifySignatures env anchors response rrset signatures
      insecure cache) := by
  induction signatures generalizing insecure cache with
  | nil => exact preserves_pure
  | cons signature rest ih =>
    refine preserves_bind preserves_lift fun parsed => ?_
    refine preserves_bind advances_signerKeys fun ⟨keys, cache⟩ => ?_
    match keys with
    | some keys =>
      exact preserves_bind advances_verifyRrsetWithKeys fun _ =>
        preserves_ite preserves_pure ih
    | none => exact ih

theorem advances_authenticateRrsets {rrsets : List RrsetKey} :
    Advances env anchors (authenticateRrsets env anchors response records rrsets cache) := by
  induction rrsets generalizing cache with
  | nil => exact preserves_pure
  | cons key rest ih =>
    refine preserves_bind preserves_lift fun signatures => ?_
    refine preserves_ite (preserves_ite preserves_lift preserves_pure) ?_
    refine preserves_bind advances_verifySignatures fun ⟨verified, insecure, cache⟩ => ?_
    exact preserves_ite ih (preserves_ite preserves_pure preserves_lift)

theorem advances_validateResponse :
    Advances env anchors (validateResponse env anchors query response) := by
  refine preserves_bind preserves_lift fun sections => ?_
  refine preserves_bind preserves_lift fun rrsets => ?_
  refine preserves_ite (preserves_ite preserves_lift preserves_pure) ?_
  refine preserves_bind advances_authenticateRrsets fun verdict => ?_
  match verdict with
  | some verdict => exact preserves_pure
  | none =>
    exact preserves_bind preserves_lift fun _ =>
      preserves_ite (preserves_bind preserves_lift fun _ => preserves_pure) preserves_pure

end

/-- **All that authentication does to the files of RFC 5011, its calls do.** -/
theorem authenticateDnsResponse_later (env : Surroundings) (query response : Bytes)
    (requestFlags : Nat) (world : World) :
    Later env.native (anchorsFor env requestFlags) world
      (authenticateDnsResponse env query response requestFlags world).2 := by
  refine Preserves.related ?_ world
  refine preserves_bind preserves_lift fun response => ?_
  refine preserves_bind preserves_lift fun skips => ?_
  refine preserves_ite preserves_pure ?_
  exact preserves_ite (preserves_ite preserves_lift preserves_pure) advances_validateResponse

/-! ### The signature that a record set passes by -/

def Accepted (native : Native) (call : VerifyCall) : Prop :=
  rrsigVerifies native call.packet call.rrsigRecord call.rrset call.dnskeyRecord call.now = .ok true

/-- The last call is about the given set and signature of a packet, and was accepted. -/
structure EndsWith (native : Native) (packet : Bytes) (signature : ResourceRecord)
    (rrset : List ResourceRecord) (world : World) (call : VerifyCall) : Prop where
  last : world.calls.getLast? = some call
  accepted : Accepted native call
  packet_eq : call.packet = packet
  signature_eq : call.rrsigRecord = signature
  rrset_eq : call.rrset = rrset

variable {env : Surroundings} {records signatures : List ResourceRecord}
  {signature : ResourceRecord}
  {insecure insecure' : Bool} {cache cache' : TrustedKeyCache} {w w' : World}

theorem verifyRrsetWithKeysAt_ends {packet : Bytes} {now : SystemTime} {keys : List ResourceRecord}
    (h : verifyRrsetWithKeysAt env anchors packet signature rrset now keys w = (.ok true, w')) :
    ∃ call, EndsWith env.native packet signature rrset w' call := by
  induction keys generalizing w with
  | nil => cases (pure_run_ok.mp h).1
  | cons key rest ih =>
    obtain ⟨answer, w₁, hcall, h⟩ := bind_run_ok.mp h
    match answer with
    | .ok true =>
      obtain ⟨-, rfl⟩ := pure_run_ok.mp h
      obtain ⟨hanswer, rfl⟩ := Prod.ext_iff.mp (act_run_ok.mp hcall)
      refine ⟨_, getLast?_concat, ?_, rfl, rfl, rfl⟩
      rw [Accepted, ← verifyRrsig_answer]
      exact hanswer
    | .ok false => exact ih h
    | .error error => exact absurd h fail_run_ok

/-- **A signature that is verified** ends its turn with an accepted call. -/
theorem verifySignatures_single
    (h : verifySignatures env anchors response rrset [signature] insecure cache w =
      (.ok (true, insecure', cache'), w')) :
    ∃ call, EndsWith env.native response signature rrset w' call := by
  obtain ⟨parsed, -, h⟩ := lift_bind_run_ok.mp h
  obtain ⟨⟨keys, cache₁⟩, w₂, -, h⟩ := bind_run_ok.mp h
  match keys with
  | some keys =>
    obtain ⟨verified, w₃, hverified, h⟩ := bind_run_ok.mp h
    cases verified with
    | true =>
      obtain ⟨-, rfl⟩ := pure_run_ok.mp h
      obtain ⟨now, w₄, -, hverified⟩ := bind_run_ok.mp hverified
      exact verifyRrsetWithKeysAt_ends hverified
    | false => cases (pure_run_ok.mp h).1
  | none => cases (pure_run_ok.mp h).1

/-- One turn of the loop over the signatures. -/
theorem verifySignatures_cons (env : Surroundings) (anchors : List PositiveTrustAnchor)
    (response : Bytes) (rrset : List ResourceRecord) (signature : ResourceRecord)
    (rest : List ResourceRecord) (insecure : Bool) (cache : TrustedKeyCache) (w : World) :
    verifySignatures env anchors response rrset (signature :: rest) insecure cache w =
      match verifySignatures env anchors response rrset [signature] insecure cache w with
      | (.ok (true, insecure, cache), w) => (.ok (true, insecure, cache), w)
      | (.ok (false, insecure, cache), w) =>
        verifySignatures env anchors response rrset rest insecure cache w
      | (.error error, w) => (.error error, w) := by
  rw [verifySignatures.eq_2, verifySignatures.eq_2]
  match hparsed : (lift (liftWire (parseRrsig response signature)) : Validator RrsigRecord) w with
  | (.error error, w₁) => rw [bind_of_error hparsed, bind_of_error hparsed]
  | (.ok parsed, w₁) =>
    obtain ⟨-, rfl⟩ := lift_run_ok.mp hparsed
    rw [bind_of_ok hparsed, bind_of_ok hparsed]
    match hkeys : signerKeys env anchors (normalizeDnsName parsed.signer.text) cache w with
    | (.error error, w₁) => rw [bind_of_error hkeys, bind_of_error hkeys]
    | (.ok (none, cache₁), w₁) =>
      rw [bind_of_ok hkeys, bind_of_ok hkeys]
      rfl
    | (.ok (some keys, cache₁), w₁) =>
      rw [bind_of_ok hkeys, bind_of_ok hkeys]
      dsimp only
      match hverified : verifyRrsetWithKeys env anchors response signature rrset keys w₁ with
      | (.error error, w₂) => rw [bind_of_error hverified, bind_of_error hverified]
      | (.ok true, w₂) =>
        rw [bind_of_ok hverified, bind_of_ok hverified]
        rfl
      | (.ok false, w₂) =>
        rw [bind_of_ok hverified, bind_of_ok hverified]
        rfl

/-- **A set passes by the first of its signatures that is verified.** -/
theorem verifySignatures_iff_first :
    verifySignatures env anchors response rrset signatures insecure cache w =
        (.ok (true, insecure', cache'), w') ↔
      ∃ front signature back insecure₁ cache₁ w₁, signatures = front ++ signature :: back ∧
        verifySignatures env anchors response rrset front insecure cache w =
          (.ok (false, insecure₁, cache₁), w₁) ∧
        verifySignatures env anchors response rrset [signature] insecure₁ cache₁ w₁ =
          (.ok (true, insecure', cache'), w') := by
  induction signatures generalizing insecure cache w with
  | nil =>
    constructor
    · intro h
      cases (pure_run_ok.mp h).1
    · rintro ⟨front, signature, back, -, -, -, hsplit, -⟩
      simp at hsplit
  | cons first rest ih =>
    constructor
    · intro h
      rw [verifySignatures_cons] at h
      match hfirst : verifySignatures env anchors response rrset [first] insecure cache w with
      | (.error error, w₁) =>
        rw [hfirst] at h
        cases h
      | (.ok (true, insecure₁, cache₁), w₁) =>
        rw [hfirst] at h
        exact ⟨[], first, rest, insecure, cache, w, rfl, rfl, hfirst.trans h⟩
      | (.ok (false, insecure₁, cache₁), w₁) =>
        rw [hfirst] at h
        obtain ⟨front, signature, back, insecure₂, cache₂, w₂, hsplit, hfront, hsignature⟩ :=
          ih.mp h
        refine ⟨first :: front, signature, back, insecure₂, cache₂, w₂, by rw [hsplit, cons_append],
          ?_, hsignature⟩
        rw [verifySignatures_cons, hfirst]
        exact hfront
    · rintro ⟨front, signature, back, insecure₁, cache₁, w₁, hsplit, hfront, hsignature⟩
      cases front with
      | nil =>
        obtain ⟨rfl, rfl⟩ := cons.inj hsplit
        obtain ⟨heq, rfl⟩ := pure_run_ok.mp hfront
        cases heq
        rw [verifySignatures_cons, hsignature]
      | cons other front =>
        obtain ⟨rfl, hrest⟩ := cons.inj hsplit
        rw [verifySignatures_cons] at hfront ⊢
        match hfirst : verifySignatures env anchors response rrset [first] insecure cache w with
        | (.error error, w₂) =>
          rw [hfirst] at hfront
          cases hfront
        | (.ok (true, insecure₂, cache₂), w₂) =>
          rw [hfirst] at hfront
          cases hfront
        | (.ok (false, insecure₂, cache₂), w₂) =>
          rw [hfirst] at hfront
          exact ih.mpr ⟨front, signature, back, insecure₁, cache₁, w₁, hrest, hfront, hsignature⟩

/-! ### The record sets of a response in turn -/

/-- The loop over the record sets gets to a set, with the given signatures, in the given state. -/
inductive Reached (env : Surroundings) (anchors : List PositiveTrustAnchor) (response : Bytes)
    (records : List ResourceRecord) :
    List RrsetKey → TrustedKeyCache → World →
      RrsetKey → List ResourceRecord → TrustedKeyCache → World → Prop
  | here {key rest signatures cache w}
    (hsignatures : matchingSignatures response records key = .ok signatures) :
    Reached env anchors response records (key :: rest) cache w key signatures cache w
  | next {key rest signatures cache w insecure cache' w' key' signatures' cache'' w''}
    (hsignatures : matchingSignatures response records key = .ok signatures)
    (hpasses : verifySignatures env anchors response (matchingRrset records key) signatures false
      cache w = (.ok (true, insecure, cache'), w'))
    (hrest : Reached env anchors response records rest cache' w' key' signatures' cache'' w'') :
    Reached env anchors response records (key :: rest) cache w key' signatures' cache'' w''

/-- One turn of the loop over the record sets, when it ends without a verdict. -/
theorem authenticateRrsets_cons {key : RrsetKey} {rest : List RrsetKey}
    (h : authenticateRrsets env anchors response records (key :: rest) cache w = (.ok none, w')) :
    ∃ signatures insecure cache₁ w₁, matchingSignatures response records key = .ok signatures ∧
      verifySignatures env anchors response (matchingRrset records key) signatures false cache w =
        (.ok (true, insecure, cache₁), w₁) ∧
      authenticateRrsets env anchors response records rest cache₁ w₁ = (.ok none, w') := by
  obtain ⟨signatures, hsignatures, h⟩ := lift_bind_run_ok.mp h
  split_ifs at h
  · exact absurd h fail_run_ok
  · cases (pure_run_ok.mp h).1
  obtain ⟨⟨verified, insecure, cache₁⟩, w₁, hverified, hrest⟩ := bind_run_ok.mp h
  dsimp only at hrest
  split_ifs at hrest with hv
  · subst hv
    exact ⟨signatures, insecure, cache₁, w₁, hsignatures, hverified, hrest⟩
  · cases (pure_run_ok.mp hrest).1
  · exact absurd hrest fail_run_ok

/-- **When the loop ends without a verdict, it has got to every set.** -/
theorem authenticateRrsets_reached {rrsets : List RrsetKey}
    (h : authenticateRrsets env anchors response records rrsets cache w = (.ok none, w')) :
    ∀ key ∈ rrsets, ∃ signatures cache₁ w₁,
      Reached env anchors response records rrsets cache w key signatures cache₁ w₁ := by
  induction rrsets generalizing cache w with
  | nil => simp
  | cons key rest ih =>
    obtain ⟨signatures, insecure, cache₁, w₁, hsignatures, hpasses, hrest⟩ :=
      authenticateRrsets_cons h
    intro other hother
    rcases mem_cons.mp hother with rfl | hother
    · exact ⟨signatures, cache, w, .here hsignatures⟩
    · obtain ⟨signatures', cache₂, w₂, hreached⟩ := ih hrest other hother
      exact ⟨signatures', cache₂, w₂, .next hsignatures hpasses hreached⟩

/-- **A set that the loop gets to passes**, and the loop goes on from there. -/
theorem Reached.later {rrsets : List RrsetKey} {key : RrsetKey} {cache₁ : TrustedKeyCache}
    {w₁ : World}
    (hreached : Reached env anchors response records rrsets cache w key signatures cache₁ w₁)
    (h : authenticateRrsets env anchors response records rrsets cache w = (.ok none, w')) :
    ∃ insecure cache₂ w₂,
      verifySignatures env anchors response (matchingRrset records key) signatures false cache₁ w₁ =
        (.ok (true, insecure, cache₂), w₂) ∧ Later env.native anchors w₂ w' := by
  induction hreached with
  | @here key rest signatures cache w hsignatures =>
    obtain ⟨signatures', insecure, cache₁, w₁, hsignatures', hpasses, hrest⟩ :=
      authenticateRrsets_cons h
    cases hsignatures.symm.trans hsignatures'
    have hadvances : Advances env anchors
        (authenticateRrsets env anchors response records rest cache₁) := advances_authenticateRrsets
    have hlater := hadvances.related w₁
    rw [hrest] at hlater
    exact ⟨insecure, cache₁, w₁, hpasses, hlater⟩
  | next hsignatures hpasses _ ih =>
    obtain ⟨signatures', insecure, cache₁, w₁, hsignatures', hpasses', hrest⟩ :=
      authenticateRrsets_cons h
    cases hsignatures.symm.trans hsignatures'
    cases hpasses.symm.trans hpasses'
    exact ih hrest

/-- The only verdict that ends the loop over the record sets early is that of an unsigned zone. -/
theorem authenticateRrsets_verdict {verdict : DnssecVerdict} {rrsets : List RrsetKey}
    (h : authenticateRrsets env anchors response records rrsets cache w =
      (.ok (some verdict), w')) :
    verdict = .insecure := by
  induction rrsets generalizing cache w w' with
  | nil =>
    cases (pure_run_ok.mp h).1
  | cons key rest ih =>
    obtain ⟨signatures, w₁, -, h⟩ := bind_run_ok.mp h
    split_ifs at h
    · exact absurd h fail_run_ok
    · exact (Option.some.inj (pure_run_ok.mp h).1).symm
    · obtain ⟨⟨verified, insecure, cache₁⟩, w₂, -, hrest⟩ := bind_run_ok.mp h
      dsimp only at hrest
      split_ifs at hrest
      · exact ih hrest
      · exact (Option.some.inj (pure_run_ok.mp hrest).1).symm
      · exact absurd hrest fail_run_ok

end RustdResolved.Dnssec.Calls
