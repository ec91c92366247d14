import Mathlib.Data.Prod.Lex
import RustdResolved.Dnssec.Verify
import RustdResolved.Rfc5011.Entries

/-! # The trust anchors at run time

A root DNSKEY record set that `verify_rrsig` accepts is handed to the manager, together with the key
that verified it. The manager lives in a state file: each observation loads it, seeds the key if it
is not known, applies the record set, saves the file and publishes the valid anchors. -/

namespace RustdResolved.Rfc5011.Runtime

open Wire Octets Presentation PacketHeader Record DnssecRecords
open Dnssec.Canonical (SystemTime rrsigTimeValid canonicalSignedData)
open Dnssec.Verify Manager

/-- Why an observation fails. -/
inductive RuntimeError
  | message (text : Text)
  | wire (error : WireError)
  | dnssec (error : DnssecError)
  | load (error : LoadError)
  | save
  | publish
  deriving DecidableEq, Repr

/-- The state file, and the lines of the file of published anchors. -/
structure RuntimeStore where
  file : StateFile
  published : Option (List Text)

/-- The file operations that succeed. -/
structure RuntimeIo where
  saves : Bool
  publishes : Bool
  deriving DecidableEq, Repr

def liftRuntime {α : Type} : Except WireError α → Except RuntimeError α
  | .ok value => .ok value
  | .error error => .error (.wire error)

/-! ### The published anchors -/

structure RuntimeTrustAnchor where
  owner : Text
  flags : Nat
  algorithm : UInt8
  publicKey : Bytes
  deriving DecidableEq, Repr

def RuntimeTrustAnchor.sortKey (anchor : RuntimeTrustAnchor) : Bytes ×ₗ Nat ×ₗ UInt8 ×ₗ Bytes :=
  toLex (asBytes anchor.owner, toLex (anchor.flags, toLex (anchor.algorithm, anchor.publicKey)))

structure RuntimeTrustState where
  valid : List RuntimeTrustAnchor
  revokedIds : List AnchorId
  deriving DecidableEq, Repr

def runtimeState (manager : TrustAnchorManager) : RuntimeTrustState :=
  { valid := (manager.validAnchors.map fun entry =>
      (⟨entry.owner, clearFlags entry.flags dnskeyFlagRevoke, entry.algorithm, entry.publicKey⟩ :
        RuntimeTrustAnchor)).insertionSort fun left right => left.sortKey ≤ right.sortKey
    revokedIds := manager.revokedAnchorIds.insertionSort (· ≤ ·) }

def base64Table : List Char :=
  "ABCDEFGHIJKLMNOPQRSTUVWXYZabcdefghijklmnopqrstuvwxyz0123456789+/".toList

/-- The digit of six bits of a value. -/
def base64Digit (value shift : Nat) : Char := base64Table.getD (value / 2 ^ shift % 64) '='

def base64Encode : Bytes → Text
  | a :: b :: c :: rest =>
    let value := a.toNat * 65536 + b.toNat * 256 + c.toNat
    [base64Digit value 18, base64Digit value 12, base64Digit value 6, base64Digit value 0] ++
      base64Encode rest
  | [a, b] =>
    let value := a.toNat * 65536 + b.toNat * 256
    [base64Digit value 18, base64Digit value 12, base64Digit value 6, '=']
  | [a] =>
    let value := a.toNat * 65536
    [base64Digit value 18, base64Digit value 12, '=', '=']
  | [] => []

/-- The line that stands for a root without valid anchors. -/
def failClosedRootDs : Text :=
  (". IN DS 0 253 2 0000000000000000000000000000000000000000000000000000000000000000").toList

def publishManagerAnchors (manager : TrustAnchorManager) : List Text :=
  let state := runtimeState manager
  let lines := state.valid.map fun anchor =>
    anchor.owner ++ " IN DNSKEY ".toList ++ decimal anchor.flags ++ " 3 ".toList ++
      decimal anchor.algorithm.toNat ++ [' '] ++ base64Encode anchor.publicKey
  let lines :=
    if state.valid.any fun anchor => canonicalOwner anchor.owner == ['.'] then lines
    else lines ++ [failClosedRootDs]
  (lines.insertionSort (· ≤ ·)).destutter (· ≠ ·)

/-! ### Observed keys -/

def observedDnskeyWithoutRevocation (record : ResourceRecord) :
    Except RuntimeError ObservedDnskey :=
  if record.rrType ≠ typeDnskey then
    .error (.message "RFC5011 validator is not a DNSKEY record".toList)
  else do
    let parsed ← liftRuntime (parseDnskey record)
    let keyTag ← liftRuntime (dnskeyKeyTag record)
    .ok
      { owner := record.name.text
        flags := parsed.flags
        algorithm := parsed.algorithm
        keyTag := keyTag
        publicKey := parsed.publicKey
        originalTtl := record.ttl
        authenticatedSelfRevocation := false }

section
variable (native : Native)

/-- The signature is by the revoked key itself, and in force. -/
def isSelfSignature (rrset : List ResourceRecord) (revokedKey : ResourceRecord)
    (key : DnskeyRecord) (keyTag : Nat) (signature : RrsigRecord) (now : SystemTime) : Bool :=
  signature.typeCovered == typeDnskey && signature.algorithm == key.algorithm &&
    signature.keyTag == keyTag &&
    signature.signer.canonicalWire == revokedKey.name.canonicalWire &&
    rrset.all (fun record => record.ttl ≤ signature.originalTtl) && rrsigTimeValid signature now

section
variable (packet : Bytes) (rrset : List ResourceRecord)

/-- The first signature that the revoked key made over the record set. -/
def anySelfSignature (revokedKey : ResourceRecord) (key : DnskeyRecord) (keyTag : Nat)
    (now : SystemTime) : List ResourceRecord → Except RuntimeError Bool
  | [] => .ok false
  | signatureRecord :: rest => do
    let signature ← liftRuntime (parseRrsig packet signatureRecord)
    if !isSelfSignature rrset revokedKey key keyTag signature now then
      anySelfSignature revokedKey key keyTag now rest
    else do
      let signed ← liftRuntime (canonicalSignedData packet signatureRecord rrset)
      match verifySignature native signature.algorithm key.publicKey signed signature.signature with
      | .error error => .error (.dnssec error)
      | .ok true => .ok true
      | .ok false => anySelfSignature revokedKey key keyTag now rest

def revokedKeySelfAuthenticates (revokedKey : ResourceRecord) (now : SystemTime) :
    Except RuntimeError Bool := do
  let key ← liftRuntime (parseDnskey revokedKey)
  if key.flags &&& dnskeyFlagRevoke = 0 then .ok false
  else do
    let keyTag ← liftRuntime (dnskeyKeyTag revokedKey)
    let sections ← liftRuntime (parseSections packet)
    if sections.stop ≠ packet.length then
      .error (.message "trailing data in RFC5011 DNSKEY response".toList)
    else
      anySelfSignature native packet rrset revokedKey key keyTag now
        (sections.records.filter fun record =>
          record.rrType == typeRrsig && record.rrClass == revokedKey.rrClass &&
            record.name.canonicalWire == revokedKey.name.canonicalWire)

def observedDnskey (record : ResourceRecord) (now : SystemTime) :
    Except RuntimeError ObservedDnskey := do
  let observed ← observedDnskeyWithoutRevocation record
  if observed.flags &&& dnskeyFlagRevoke ≠ 0 then do
    let revoked ← revokedKeySelfAuthenticates native packet rrset record now
    .ok { observed with authenticatedSelfRevocation := revoked }
  else .ok observed

end

/-- Applies a fallible function to every element, in order. -/
def collect {α β : Type} (f : α → Except RuntimeError β) : List α → Except RuntimeError (List β)
  | [] => .ok []
  | a :: rest => do
    let b ← f a
    let others ← collect f rest
    .ok (b :: others)

/-! ### Observations -/

/-- A record of the DNSKEY set of an owner and a class. -/
def isDnskeyOf (owner : Bytes) (rrClass : Nat) (record : ResourceRecord) : Bool :=
  record.rrType == typeDnskey && record.rrClass == rrClass && record.name.canonicalWire == owner

/-- One round of the loop that seeds the validators that are not known. -/
def seedUnknown (now : SystemTime) (state : TrustAnchorManager × Bool)
    (validator : ObservedDnskey) : TrustAnchorManager × Bool :=
  match state.1.entry validator.anchorId with
  | none => (state.1.seedValidAnchor validator now, true)
  | some _ => state

def observeManager (packet : Bytes) (dnskeyRrset validatingKeys : List ResourceRecord)
    (now : SystemTime) (order : List AnchorId → List AnchorId) (file : StateFile) :
    Except RuntimeError (TrustAnchorManager × Bool) :=
  match dnskeyRrset with
  | [] => .error (.message
      "RFC5011 observation requires DNSKEY records and validating anchors".toList)
  | first :: _ =>
    if validatingKeys.isEmpty then
      .error (.message "RFC5011 observation requires DNSKEY records and validating anchors".toList)
    else if !dnskeyRrset.all (isDnskeyOf first.name.canonicalWire first.rrClass) then
      .error (.message "RFC5011 observation is not one DNSKEY RRset".toList)
    else if !validatingKeys.all (isDnskeyOf first.name.canonicalWire first.rrClass) then
      .error (.message "RFC5011 validating key belongs to a different trust point".toList)
    else do
      let observed ← collect (fun record => observedDnskey native packet dnskeyRrset record now)
        dnskeyRrset
      let validators ← collect observedDnskeyWithoutRevocation validatingKeys
      match withPath.loadFromDisk file with
      | .error error => .error (.load error)
      | .ok manager =>
        let (manager, seeded) := validators.foldl (seedUnknown now) (manager, false)
        let validatorIds :=
          ((validators.map (·.anchorId)).insertionSort (· ≤ ·)).destutter (· ≠ ·)
        let (manager, changed) := manager.observeValidatedRrset observed validatorIds now
          (order manager.anchors.keys)
        .ok (manager, seeded || changed)

def observeAuthenticatedDnskeyRrset (io : RuntimeIo) (packet : Bytes)
    (dnskeyRrset validatingKeys : List ResourceRecord) (now : SystemTime)
    (order : List AnchorId → List AnchorId) (store : RuntimeStore) :
    Except RuntimeError Bool × RuntimeStore :=
  match observeManager native packet dnskeyRrset validatingKeys now order store.file with
  | .error error => (.error error, store)
  | .ok (manager, updated) =>
    if updated && !io.saves then (.error .save, store)
    else
      let store := if updated then { store with file := manager.saveToDisk } else store
      if !io.publishes then (.error .publish, store)
      else (.ok updated, { store with published := some (publishManagerAnchors manager) })

def isRootDnskeySet : List ResourceRecord → Bool
  | [] => false
  | first :: _ => first.rrType == typeDnskey && first.name.canonicalWire == [0]

/-- Verifies a signature. An accepted signature over the root's keys is an observation, whose
failure the answer does not show. -/
def verifyRrsig (io : RuntimeIo) (order : List AnchorId → List AnchorId) (packet : Bytes)
    (rrsigRecord : ResourceRecord) (rrset : List ResourceRecord) (dnskeyRecord : ResourceRecord)
    (now : SystemTime) (store : RuntimeStore) : Except DnssecError Bool × RuntimeStore :=
  match rrsigVerifies native packet rrsigRecord rrset dnskeyRecord now with
  | .ok true =>
    if isRootDnskeySet rrset then
      (.ok true,
        (observeAuthenticatedDnskeyRrset native io packet rrset [dnskeyRecord] now order store).2)
    else (.ok true, store)
  | answer => (answer, store)

end

theorem verifyRrsig_answer (native : Native) (io : RuntimeIo)
    (order : List AnchorId → List AnchorId) (packet : Bytes) (rrsigRecord : ResourceRecord)
    (rrset : List ResourceRecord) (dnskeyRecord : ResourceRecord) (now : SystemTime)
    (store : RuntimeStore) :
    (verifyRrsig native io order packet rrsigRecord rrset dnskeyRecord now store).1 =
      rrsigVerifies native packet rrsigRecord rrset dnskeyRecord now := by
  unfold verifyRrsig
  match rrsigVerifies native packet rrsigRecord rrset dnskeyRecord now with
  | .ok true =>
    split_ifs <;> rfl
  | .ok false => rfl
  | .error error => rfl

end RustdResolved.Rfc5011.Runtime
