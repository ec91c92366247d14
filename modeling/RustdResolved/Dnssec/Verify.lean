import RustdResolved.Dnssec.Canonical

/-! # Signatures, keys and digests

The checks that a signature, a record set and a key have to pass before the signature itself is
verified, and the digests of keys. The cryptography is native code; it is a parameter of the model.

`rrsigVerifies` is what `verify_rrsig` answers. Its effect on the trust anchors of RFC 5011 is added
by `Rfc5011.Runtime`. -/

namespace RustdResolved.Dnssec.Verify

open Lib.Result Wire Octets Record DnssecRecords Canonical

def dnskeyFlagRevoke : Nat := 1 <<< 7
def dnskeyFlagZoneKey : Nat := 1 <<< 8

/-- The native code, and the texts of the errors of the operating system. -/
structure Native where
  /-- `resolved_dnssec_digest`: the result, and the output buffer of the given capacity. -/
  digest : UInt8 → Bytes → Nat → Int × Bytes
  /-- `resolved_dnssec_verify` of an algorithm, a key, data and a signature. -/
  verify : UInt8 → Bytes → Bytes → Bytes → Int
  osErrorText : Nat → Text

inductive IoError
  | os (code : Nat)
  | invalidData (message : Text)
  deriving DecidableEq, Repr

inductive DnssecError
  | wire (error : WireError)
  | io (error : IoError)
  | unsupportedDigest (digest : UInt8)
  | unsupportedAlgorithm (algorithm : UInt8)
  deriving DecidableEq, Repr

def DnssecError.toText (native : Native) : DnssecError → Text
  | .wire error => error.toText
  | .io (.os code) => native.osErrorText code
  | .io (.invalidData message) => message
  | .unsupportedDigest digest =>
    "unsupported DNSSEC DS digest type ".toList ++ decimal digest.toNat
  | .unsupportedAlgorithm algorithm =>
    "unsupported DNSSEC signature algorithm ".toList ++ decimal algorithm.toNat

/-- `From<WireError> for DnssecError`, at a `?`. -/
def liftDnssec {α : Type} : Except WireError α → Except DnssecError α
  | .ok value => .ok value
  | .error error => .error (.wire error)

theorem liftDnssec_eq_ok {α : Type} {x : Except WireError α} {value : α} :
    liftDnssec x = .ok value ↔ x = .ok value := by
  cases x <;> simp [liftDnssec]

section
variable (native : Native)

/-! ### Digests of keys -/

def digestLength (digestType : UInt8) : Except DnssecError Nat :=
  if digestType = 1 then .ok 20
  else if digestType = 2 then .ok 32
  else if digestType = 4 then .ok 48
  else .error (.unsupportedDigest digestType)

def dnskeyDsDigest (dnskeyRecord : ResourceRecord) (digestType : UInt8) :
    Except DnssecError Bytes := do
  let _ ← liftDnssec (parseDnskey dnskeyRecord)
  let outputLength ← digestLength digestType
  let (result, output) := native.digest digestType
    (dnskeyRecord.name.canonicalWire ++ dnskeyRecord.rdata) outputLength
  if result < 0 then .error (.io (.os result.natAbs))
  else if result ≠ outputLength then
    .error (.io (.invalidData "unexpected DNSSEC digest length".toList))
  else .ok output

def dsMatchesDnskey (dsRecord dnskeyRecord : ResourceRecord) : Except DnssecError Bool := do
  let ds ← liftDnssec (parseDs dsRecord)
  let dnskey ← liftDnssec (parseDnskey dnskeyRecord)
  if ds.algorithm ≠ dnskey.algorithm then .ok false
  else do
    let keyTag ← liftDnssec (dnskeyKeyTag dnskeyRecord)
    if ds.keyTag ≠ keyTag then .ok false
    else do
      let digest ← dnskeyDsDigest native dnskeyRecord ds.digestType
      .ok (ds.digest == digest)

/-! ### Signatures -/

/-- The signature algorithms that the native code knows. -/
def isSupportedAlgorithm (algorithm : UInt8) : Bool :=
  [5, 7, 8, 10, 13, 14, 15].contains algorithm

def verifySignature (algorithm : UInt8) (key data signature : Bytes) : Except DnssecError Bool :=
  if !isSupportedAlgorithm algorithm then .error (.unsupportedAlgorithm algorithm)
  else
    let result := native.verify algorithm key data signature
    if result = 1 then .ok true
    else if result = 0 then .ok false
    else if result < 0 then .error (.io (.os result.natAbs))
    else .error (.io (.invalidData "invalid DNSSEC signature verification result".toList))

/-- The signature, the first record of the set and the key belong together: they have one class, the
signature has the owner of the record, and the key is the signer's and of its algorithm. -/
def belongTogether (rrsigRecord first dnskeyRecord : ResourceRecord) (signature : RrsigRecord)
    (dnskey : DnskeyRecord) : Bool :=
  rrsigRecord.rrClass == first.rrClass &&
    rrsigRecord.name.canonicalWire == first.name.canonicalWire &&
    dnskeyRecord.rrClass == first.rrClass &&
    dnskeyRecord.name.canonicalWire == signature.signer.canonicalWire &&
    dnskey.algorithm == signature.algorithm

/-- The key may sign, no record outlives the signature, and the signature is in force. -/
def mayVerify (signature : RrsigRecord) (rrset : List ResourceRecord) (dnskey : DnskeyRecord)
    (now : SystemTime) : Bool :=
  dnskey.flags &&& dnskeyFlagZoneKey != 0 && dnskey.flags &&& dnskeyFlagRevoke == 0 &&
    rrset.all (fun record => record.ttl ≤ signature.originalTtl) && rrsigTimeValid signature now

def rrsigVerifies (packet : Bytes) (rrsigRecord : ResourceRecord) (rrset : List ResourceRecord)
    (dnskeyRecord : ResourceRecord) (now : SystemTime) : Except DnssecError Bool :=
  match rrset with
  | [] => .error (.wire .invalidRecord)
  | first :: _ => do
    let signature ← liftDnssec (parseRrsig packet rrsigRecord)
    let dnskey ← liftDnssec (parseDnskey dnskeyRecord)
    if !belongTogether rrsigRecord first dnskeyRecord signature dnskey then .ok false
    else do
      let keyTag ← liftDnssec (dnskeyKeyTag dnskeyRecord)
      if keyTag ≠ signature.keyTag || !mayVerify signature rrset dnskey now then .ok false
      else do
        let signedData ← liftDnssec (canonicalSignedData packet rrsigRecord rrset)
        verifySignature native signature.algorithm dnskey.publicKey signedData signature.signature

end

/-! ### Accepted signatures -/

/-- All that an accepted signature has to satisfy but the cryptography. -/
structure Signable (packet : Bytes) (rrsigRecord : ResourceRecord) (rrset : List ResourceRecord)
    (dnskeyRecord : ResourceRecord) (now : SystemTime) (signature : RrsigRecord)
    (dnskey : DnskeyRecord) (signedData : Bytes) : Prop where
  parsedSignature : parseRrsig packet rrsigRecord = .ok signature
  parsedKey : parseDnskey dnskeyRecord = .ok dnskey
  together : ∃ first, rrset.head? = some first ∧
    belongTogether rrsigRecord first dnskeyRecord signature dnskey = true
  keyTag : dnskeyKeyTag dnskeyRecord = .ok signature.keyTag
  inForce : mayVerify signature rrset dnskey now = true
  canonical : canonicalSignedData packet rrsigRecord rrset = .ok signedData
  supported : isSupportedAlgorithm signature.algorithm = true

theorem verifySignature_true {native : Native} {algorithm : UInt8} {key data signature : Bytes} :
    verifySignature native algorithm key data signature = .ok true ↔
      isSupportedAlgorithm algorithm = true ∧ native.verify algorithm key data signature = 1 := by
  unfold verifySignature
  by_cases hsupported : isSupportedAlgorithm algorithm = true
  · rw [if_neg (by simp [hsupported])]
    dsimp only
    split_ifs with h1 h0 hneg <;> simp_all
  · rw [if_pos (by simpa using hsupported)]
    simp [hsupported]

/-- **What `verify_rrsig` accepts.** -/
theorem rrsigVerifies_true {native : Native} {packet : Bytes} {rrsigRecord : ResourceRecord}
    {rrset : List ResourceRecord} {dnskeyRecord : ResourceRecord} {now : SystemTime} :
    rrsigVerifies native packet rrsigRecord rrset dnskeyRecord now = .ok true ↔
      ∃ signature dnskey signedData,
        Signable packet rrsigRecord rrset dnskeyRecord now signature dnskey signedData ∧
        native.verify signature.algorithm dnskey.publicKey signedData signature.signature = 1 := by
  cases rrset with
  | nil =>
    constructor
    · intro h
      cases h
    · rintro ⟨signature, dnskey, signedData, hsignable, -⟩
      obtain ⟨first, hfirst, -⟩ := hsignable.together
      cases hfirst
  | cons first rest =>
    constructor
    · intro h
      obtain ⟨signature, hsignature, h⟩ := of_bind h
      obtain ⟨dnskey, hdnskey, h⟩ := of_bind h
      split_ifs at h with htogether
      · cases h
      obtain ⟨keyTag, hkeyTag, h⟩ := of_bind h
      split_ifs at h with hmay
      · cases h
      obtain ⟨signedData, hsignedData, h⟩ := of_bind h
      obtain ⟨hsupported, hverify⟩ := verifySignature_true.mp h
      simp only [Bool.or_eq_true, decide_eq_true_eq, Bool.not_eq_true', not_or, not_not,
        Bool.not_eq_false] at hmay
      refine ⟨signature, dnskey, signedData, ⟨liftDnssec_eq_ok.mp hsignature,
        liftDnssec_eq_ok.mp hdnskey, ⟨first, rfl, by simpa using htogether⟩, ?_, hmay.2,
        liftDnssec_eq_ok.mp hsignedData, hsupported⟩, hverify⟩
      rw [← hmay.1]
      exact liftDnssec_eq_ok.mp hkeyTag
    · rintro ⟨signature, dnskey, signedData, hsignable, hverify⟩
      obtain ⟨first', hfirst, htogether⟩ := hsignable.together
      cases hfirst
      unfold rrsigVerifies
      rw [hsignable.parsedSignature, hsignable.parsedKey, hsignable.keyTag, hsignable.canonical]
      simp only [liftDnssec, ok_bind]
      rw [if_neg (by simp [htogether]), if_neg (by simp [hsignable.inForce])]
      exact verifySignature_true.mpr ⟨hsignable.supported, hverify⟩

/-! ### Native code for examples -/

def acceptingNative : Native :=
  { digest := fun _ _ length => (length, List.replicate length 0xaa)
    verify := fun _ _ _ _ => 1
    osErrorText := fun _ => [] }

/-- Native code in which the signature of a key is the key, twice. -/
def doublingNative : Native :=
  { acceptingNative with
    verify := fun _ publicKey _ signature => if signature = publicKey ++ publicKey then 1 else 0 }

end RustdResolved.Dnssec.Verify
