import RustdResolved.Dnssec.Calls

/-! # Whose keys may sign a record set

A signature is made by the keys of the zone that its signer names, and a zone may sign what lies in
it. `verify_rrsig` compares the key with the signer, but not the signer with the owner of the
records. `signer_containment` says when this makes no difference: for `verify_rrsig` when the key is
of a zone that encloses the records, and for a secure verdict when the first signature of each set
that is verified names such a zone. -/

namespace RustdResolved.Dnssec.SignerContainment

open List Lib Result Stateful Wire Octets Name Presentation PacketHeader Record DnssecRecords
open Resolver.Error NsecPaths
open Dnssec.Canonical (SystemTime)
open Verify Rrsets Semantics Authenticate Calls
open Rfc5011.Manager (AnchorId)
open Rfc5011.Runtime

section
variable (packet : Bytes) (rrsigRecord : ResourceRecord) (rrset : List ResourceRecord)

/-- The signer of the signature is the owner of the record set or lies above it. -/
def SignerEncloses : Prop :=
  ∀ first signature, rrset.head? = some first → parseRrsig packet rrsigRecord = .ok signature →
    namePath signature.signer <+: namePath first.name

def signerEncloses : Bool :=
  match rrset.head?, parseRrsig packet rrsigRecord with
  | some first, .ok signature => (namePath signature.signer).isPrefixOf (namePath first.name)
  | _, _ => true

theorem signerEncloses_iff {packet : Bytes} {rrsigRecord : ResourceRecord}
    {rrset : List ResourceRecord} :
    signerEncloses packet rrsigRecord rrset = true ↔ SignerEncloses packet rrsigRecord rrset := by
  unfold signerEncloses SignerEncloses
  cases rrset.head? with
  | none => simp
  | some first =>
    cases parseRrsig packet rrsigRecord with
    | error error => simp
    | ok signature => simp

instance (packet : Bytes) (rrsigRecord : ResourceRecord) (rrset : List ResourceRecord) :
    Decidable (SignerEncloses packet rrsigRecord rrset) :=
  decidable_of_iff _ signerEncloses_iff

/-- The signature passes all checks of `verify_rrsig` but the cryptography. -/
def PassesChecks (dnskeyRecord : ResourceRecord) (now : SystemTime) : Prop :=
  ∃ signature dnskey signedData,
    Signable packet rrsigRecord rrset dnskeyRecord now signature dnskey signedData

end

/-- The zone of the key is the owner of the first record or lies above it. -/
def KeyEncloses (rrset : List ResourceRecord) (dnskeyRecord : ResourceRecord) : Prop :=
  ∀ first, rrset.head? = some first → namePath dnskeyRecord.name <+: namePath first.name

theorem namePath_congr {a b : DnsName} (h : a.canonicalWire = b.canonicalWire) :
    namePath a = namePath b := by
  unfold namePath
  rw [h]

/-- The key that goes with a signature is the signer's, so the one encloses the records when the
other does. -/
theorem signerEncloses_iff_keyEncloses {packet : Bytes} {rrsigRecord dnskeyRecord : ResourceRecord}
    {rrset : List ResourceRecord} {now : SystemTime}
    (h : PassesChecks packet rrsigRecord rrset dnskeyRecord now) :
    SignerEncloses packet rrsigRecord rrset ↔ KeyEncloses rrset dnskeyRecord := by
  obtain ⟨signature, dnskey, signedData, hsignable⟩ := h
  obtain ⟨first, hfirst, htogether⟩ := hsignable.together
  simp only [belongTogether, Bool.and_eq_true, beq_iff_eq] at htogether
  have hkey : namePath dnskeyRecord.name = namePath signature.signer :=
    namePath_congr htogether.1.2
  constructor
  · intro hencloses first' hfirst'
    rw [hkey]
    exact hencloses first' signature hfirst' hsignable.parsedSignature
  · intro hencloses first' signature' hfirst' hsignature'
    cases hsignable.parsedSignature.symm.trans hsignature'
    rw [← hkey]
    exact hencloses first' hfirst'

/-! ### Secure verdicts -/

section
variable (env : Surroundings) (anchors : List PositiveTrustAnchor) (response : Bytes)
  (records : List ResourceRecord) (rrsets : List RrsetKey) (world : World) (key : RrsetKey)

/-- The record set passes by the call: it is the last one when its signatures have been looked
at. -/
def PassesBy (call : VerifyCall) : Prop :=
  ∃ signatures cache w insecure cache' w',
    Reached env anchors response records rrsets ∅ world key signatures cache w ∧
    verifySignatures env anchors response (matchingRrset records key) signatures false cache w =
      (.ok (true, insecure, cache'), w') ∧ w'.calls.getLast? = some call

/-- The signature is the first of the record set that is verified. -/
def FirstVerified (signature : ResourceRecord) : Prop :=
  ∃ front back cache w insecure₁ cache₁ w₁ insecure₂ cache₂ w₂,
    Reached env anchors response records rrsets ∅ world key (front ++ signature :: back) cache w ∧
    verifySignatures env anchors response (matchingRrset records key) front false cache w =
      (.ok (false, insecure₁, cache₁), w₁) ∧
    verifySignatures env anchors response (matchingRrset records key) [signature] insecure₁ cache₁
      w₁ = (.ok (true, insecure₂, cache₂), w₂)

end

section
variable {env : Surroundings} {anchors : List PositiveTrustAnchor} {query response : Bytes}
  {records : List ResourceRecord} {rrsets : List RrsetKey} {requestFlags : Nat} {world : World}
  {key : RrsetKey}

theorem passesChecks_of_accepted {native : Native} {call : VerifyCall} (h : Accepted native call) :
    PassesChecks call.packet call.rrsigRecord call.rrset call.dnskeyRecord call.now := by
  obtain ⟨signature, dnskey, signedData, hsignable, -⟩ := rrsigVerifies_true.mp h
  exact ⟨signature, dnskey, signedData, hsignable⟩

/-- **The call that a set passes by is about the first signature that is verified.** -/
theorem PassesBy.firstVerified {call : VerifyCall}
    (h : PassesBy env anchors response records rrsets world key call) :
    FirstVerified env anchors response records rrsets world key call.rrsigRecord ∧
      Accepted env.native call ∧ call.packet = response ∧
      call.rrset = matchingRrset records key := by
  obtain ⟨signatures, cache, w, insecure, cache', w', hreached, hpasses, hlast⟩ := h
  obtain ⟨front, signature, back, insecure₁, cache₁, w₁, rfl, hfront, hsignature⟩ :=
    verifySignatures_iff_first.mp hpasses
  obtain ⟨call', hends⟩ := verifySignatures_single hsignature
  cases hends.last.symm.trans hlast
  refine ⟨?_, hends.accepted, hends.packet_eq, hends.rrset_eq⟩
  rw [hends.signature_eq]
  exact ⟨front, back, cache, w, insecure₁, cache₁, w₁, insecure, cache', w', hreached, hfront,
    hsignature⟩

theorem FirstVerified.passesBy {signature : ResourceRecord}
    (h : FirstVerified env anchors response records rrsets world key signature) :
    ∃ call, PassesBy env anchors response records rrsets world key call ∧
      call.rrsigRecord = signature := by
  obtain ⟨front, back, cache, w, insecure₁, cache₁, w₁, insecure₂, cache₂, w₂, hreached, hfront,
    hsignature⟩ := h
  obtain ⟨call, hends⟩ := verifySignatures_single hsignature
  have hpasses := verifySignatures_iff_first.mpr
    ⟨front, signature, back, insecure₁, cache₁, w₁, rfl, hfront, hsignature⟩
  exact ⟨call, ⟨_, cache, w, insecure₂, cache₂, w₂, hreached, hpasses, hends.last⟩,
    hends.signature_eq⟩

end

/-- A run with a secure verdict, with the response as the validator sees it, its records and the
sets that need a signature. -/
structure SecureRun (env : Surroundings) (query response : Bytes) (requestFlags : Nat)
    (world world' : World)
    (cleared : Bytes) (records : List ResourceRecord) (rrsets : List RrsetKey) : Prop where
  secure : ∃ secured,
    authenticateDnsResponse env query response requestFlags world = (.ok (.secure, secured), world')
  bitCleared : setAuthenticatedData response false = .ok cleared
  parsed : ∃ sections, parseWholePacket cleared = .ok sections ∧
    records = authenticatedRecords sections
  sets : substantiveRrsets cleared records = .ok rrsets

section
variable (env : Surroundings) (query response : Bytes) (requestFlags : Nat) (world : World)

/-- **A secure verdict rests on keys of enclosing zones**: every record set passes by a call with a
key of the owner or of a zone above it. -/
def SecureByEnclosingZones : Prop :=
  ∀ world' cleared records rrsets,
    SecureRun env query response requestFlags world world' cleared records rrsets →
    ∀ key call,
      PassesBy env (anchorsFor env requestFlags) cleared records rrsets world key call →
      KeyEncloses (matchingRrset records key) call.dnskeyRecord

/-- For every record set, the first signature that is verified names a signer above it. -/
def FirstSignersEnclose : Prop :=
  ∀ world' cleared records rrsets,
    SecureRun env query response requestFlags world world' cleared records rrsets →
    ∀ key signature,
      FirstVerified env (anchorsFor env requestFlags) cleared records rrsets world key signature →
      SignerEncloses cleared signature (matchingRrset records key)

end

section
variable {env : Surroundings} {query response cleared : Bytes} {records : List ResourceRecord}
  {rrsets : List RrsetKey} {requestFlags : Nat} {world world' : World}

theorem secureByEnclosingZones_iff :
    SecureByEnclosingZones env query response requestFlags world ↔
      FirstSignersEnclose env query response requestFlags world := by
  constructor
  · intro h world' cleared records rrsets hrun key signature hfirst
    obtain ⟨call, hpasses, rfl⟩ := hfirst.passesBy
    obtain ⟨-, haccepted, hpacket, hrrset⟩ := hpasses.firstVerified
    have hkey := h world' cleared records rrsets hrun key call hpasses
    rw [← hpacket, ← hrrset, signerEncloses_iff_keyEncloses (passesChecks_of_accepted haccepted),
      hrrset]
    exact hkey
  · intro h world' cleared records rrsets hrun key call hpasses
    obtain ⟨hfirst, haccepted, hpacket, hrrset⟩ := hpasses.firstVerified
    have hsigner := h world' cleared records rrsets hrun key call.rrsigRecord hfirst
    rw [← hpacket, ← hrrset, signerEncloses_iff_keyEncloses (passesChecks_of_accepted haccepted)]
      at hsigner
    rwa [← hrrset]

/-- The loop over the record sets of a secure run ends without a verdict. -/
theorem SecureRun.loop
    (h : SecureRun env query response requestFlags world world' cleared records rrsets) :
    ∃ w, authenticateRrsets env (anchorsFor env requestFlags) cleared records rrsets ∅ world =
      (.ok none, w) ∧ w.calls = world'.calls := by
  obtain ⟨⟨secured, hrun⟩, hcleared, ⟨sections, hsections, rfl⟩, hrrsets⟩ := h
  obtain ⟨cleared', hcleared', hrun⟩ := lift_bind_run_ok.mp hrun
  rw [liftWire_eq_ok, hcleared] at hcleared'
  cases hcleared'
  obtain ⟨skips, -, hrun⟩ := lift_bind_run_ok.mp hrun
  split_ifs at hrun
  · cases (pure_run_ok.mp hrun).1
  · exact absurd hrun fail_run_ok
  · cases (pure_run_ok.mp hrun).1
  obtain ⟨sections', hsections', hrun⟩ := lift_bind_run_ok.mp hrun
  cases hsections.symm.trans hsections'
  obtain ⟨rrsets', hrrsets', hrun⟩ := lift_bind_run_ok.mp hrun
  cases hrrsets.symm.trans hrrsets'
  split_ifs at hrun
  · exact absurd hrun fail_run_ok
  · cases (pure_run_ok.mp hrun).1
  obtain ⟨verdict, w, hloop, hrun⟩ := bind_run_ok.mp hrun
  match verdict with
  | some verdict =>
    have hsecure := (Prod.ext_iff.mp (pure_run_ok.mp hrun).1).1
    rw [authenticateRrsets_verdict hloop] at hsecure
    cases hsecure
  | none =>
    refine ⟨w, hloop, ?_⟩
    obtain ⟨verdict, -, hrun⟩ := lift_bind_run_ok.mp hrun
    split_ifs at hrun
    · obtain ⟨secured', -, hrun⟩ := lift_bind_run_ok.mp hrun
      rw [(pure_run_ok.mp hrun).2]
    · rw [(pure_run_ok.mp hrun).2]

/-- **In a secure run every record set passes by a call.** -/
theorem SecureRun.passesBy
    (h : SecureRun env query response requestFlags world world' cleared records rrsets) :
    ∀ key ∈ rrsets, ∃ call,
      PassesBy env (anchorsFor env requestFlags) cleared records rrsets world key call := by
  obtain ⟨w, hloop, -⟩ := h.loop
  intro key hkey
  obtain ⟨signatures, cache₁, w₁, hreached⟩ := authenticateRrsets_reached hloop key hkey
  obtain ⟨insecure, cache₂, w₂, hpasses, -⟩ := hreached.later hloop
  obtain ⟨front, signature, back, insecure₁, cache₃, w₃, -, -, hsignature⟩ :=
    verifySignatures_iff_first.mp hpasses
  obtain ⟨call, hends⟩ := verifySignatures_single hsignature
  exact ⟨call, signatures, cache₁, w₁, insecure, cache₂, w₂, hreached, hpasses, hends.last⟩

theorem SecureRun.mem_calls
    (h : SecureRun env query response requestFlags world world' cleared records rrsets)
    {key : RrsetKey} {call : VerifyCall}
    (hpasses : PassesBy env (anchorsFor env requestFlags) cleared records rrsets world key call) :
    call ∈ world'.calls := by
  obtain ⟨w, hloop, hsame⟩ := h.loop
  obtain ⟨signatures, cache, w₁, insecure, cache', w', hreached, hverified, hlast⟩ := hpasses
  obtain ⟨insecure₂, cache₂, w₂, hverified₂, new, hnew⟩ := hreached.later hloop
  cases hverified.symm.trans hverified₂
  rw [← hsame, hnew.history]
  exact mem_append_left _ (mem_of_mem_getLast? hlast)

end

structure SigningZone where
  name : List Bytes
  publicKey : Bytes
  keyTag : Nat

def SigningZone.dnskey (zone : SigningZone) : Bytes := dnskeyRdata 257 15 zone.publicKey

def SigningZone.rrsig (zone : SigningZone) (rrType : Nat) (owner : List Bytes) : Bytes :=
  rrsigRdata rrType 15 (UInt8.ofNat owner.length) 3600 1800000000 1700000000 zone.keyTag zone.name
    (zone.publicKey ++ zone.publicKey)

def rootZone : SigningZone := ⟨[], List.replicate 32 1, 5152⟩
def evilZone : SigningZone := ⟨[labelOf "evil"], List.replicate 32 2, 9264⟩

def signedResponse (owner : List Bytes) (rrType : Nat) (rdata : Bytes) (zone : SigningZone) :
    Bytes :=
  responseWire 0x8180 owner rrType
    [recordWire owner rrType 3600 rdata,
      recordWire owner typeRrsig 3600 (zone.rrsig rrType owner)] []

/-- What the server says about the keys of the root and of `evil`. -/
def delegationPacket : Nat → Bytes
  | 0 => signedResponse [] typeDnskey rootZone.dnskey rootZone
  | 1 =>
    signedResponse evilZone.name typeDs (dsRdata 9264 15 2 (List.replicate 32 0xaa)) rootZone
  | _ => signedResponse evilZone.name typeDnskey evilZone.dnskey evilZone

/-- A resolver that trusts the key of the root. -/
def delegationSurroundings : Surroundings :=
  { native := doublingNative
    sha1 := id
    mode := .yes
    server := 0
    negativeAnchors := []
    positiveAnchors := [⟨['.'], .dnskey rootZone.dnskey⟩]
    cacheMaxTtl := 0
    exchange := fun n _ => .ok (delegationPacket n)
    transactionId := fun _ => 0
    systemTime := fun _ => 1750000000000000000
    instant := fun _ => 0
    io := fun _ => ⟨true, true⟩
    order := fun _ keys => keys }

def addressQuery (owner : List Bytes) : Bytes := queryWire flagRd owner typeA

def addressByEvil (owner : List Bytes) : Bytes :=
  signedResponse owner typeA [192, 0, 2, 66] evilZone

/-- The sections of a well-formed packet. -/
def sectionsOf (packet : Bytes) : Sections :=
  match parseWholePacket packet with
  | .ok sections => sections
  | .error _ => ⟨⟨0, 0, 0, 0, 0, 0⟩, [], [], 0⟩

def victim : List Bytes := [labelOf "www", labelOf "victim"]

def victimAddress : ResourceRecord :=
  { name := DnsName.ofLabels victim
    rrType := typeA
    rrClass := classIn
    ttl := 3600
    ttlOffset := 44
    rdataOffset := 50
    rdata := [192, 0, 2, 66]
    nextOffset := 54 }

def victimSignature : ResourceRecord :=
  { name := DnsName.ofLabels victim
    rrType := typeRrsig
    rrClass := classIn
    ttl := 3600
    ttlOffset := 70
    rdataOffset := 76
    rdata := evilZone.rrsig typeA victim
    nextOffset := 164 }

def evilKey : ResourceRecord :=
  { name := DnsName.ofLabels evilZone.name
    rrType := typeDnskey
    rrClass := classIn
    ttl := 3600
    ttlOffset := 32
    rdataOffset := 38
    rdata := evilZone.dnskey
    nextOffset := 74 }

/-- The authentication of the addresses of `www.victim`. -/
def victimRun : Except ResolveError (DnssecVerdict × Bytes) × World :=
  authenticateDnsResponse delegationSurroundings (addressQuery victim) (addressByEvil victim) 0
    startWorld

def ownName : List Bytes := [labelOf "www", labelOf "evil"]

/-- The address of `www.victim` with a signature of the root and then one of `evil`. -/
def addressByBoth : Bytes :=
  responseWire 0x8180 victim typeA
    [recordWire victim typeA 3600 [192, 0, 2, 66],
      recordWire victim typeRrsig 3600 (rootZone.rrsig typeA victim),
      recordWire victim typeRrsig 3600 (evilZone.rrsig typeA victim)] []

def rootFirstRun : Except ResolveError (DnssecVerdict × Bytes) × World :=
  authenticateDnsResponse delegationSurroundings (addressQuery victim) addressByBoth 0 startWorld

end RustdResolved.Dnssec.SignerContainment
