import RustdResolved.Dnssec.Nsec3Denial
import RustdResolved.Dnssec.Verify

/-! # Record sets, their signatures and the anchors of trust

How the validator sorts the records of a response into sets with their signatures, which keys a
trust anchor stands for, and for how long keys are kept. -/

namespace RustdResolved.Dnssec.Rrsets

open Wire Octets Name PacketHeader Record DnssecRecords Resolver.Error NameText Nsec3Denial Verify

/-! ### Trust anchors -/

inductive PositiveTrustAnchorData
  | ds (keyTag : Nat) (algorithm digestType : UInt8) (digest : Bytes)
  | dnskey (rdata : Bytes)
  deriving DecidableEq, Repr

structure PositiveTrustAnchor where
  owner : Text
  data : PositiveTrustAnchorData
  deriving DecidableEq, Repr

def trustAnchorMatchesDnskey (native : Native) (anchor : PositiveTrustAnchor)
    (key : ResourceRecord) : Except DnssecError Bool :=
  match anchor.data with
  | .ds keyTag algorithm digestType digest => do
    let parsed ← liftDnssec (parseDnskey key)
    if parsed.algorithm ≠ algorithm then .ok false
    else do
      let tag ← liftDnssec (dnskeyKeyTag key)
      if tag ≠ keyTag then .ok false
      else do
        let computed ← dnskeyDsDigest native key digestType
        .ok (computed == digest)
  | .dnskey rdata => .ok (key.rrType == typeDnskey && key.rdata == rdata)

def nearestAnchorIsNegative (negative : List Text) (positive : List PositiveTrustAnchor) :
    List Text → Bool
  | [] => false
  | ancestor :: rest =>
    if negative.any fun anchor => dnsNamesEqual anchor ancestor then true
    else if positive.any fun anchor => dnsNamesEqual anchor.owner ancestor then false
    else nearestAnchorIsNegative negative positive rest

def negativeTrustAnchorMatches (name : Text) (negative : List Text)
    (positive : List PositiveTrustAnchor) : Bool :=
  nearestAnchorIsNegative negative positive (dnsNameAncestors name).reverse

theorem nearestAnchorIsNegative_nil (positive : List PositiveTrustAnchor) :
    ∀ ancestors : List Text, nearestAnchorIsNegative [] positive ancestors = false
  | [] => rfl
  | ancestor :: rest => by
    unfold nearestAnchorIsNegative
    simp [nearestAnchorIsNegative_nil positive rest]

/-! ### Record sets -/

/-- What the records of a set have in common. -/
structure RrsetKey where
  owner : Bytes
  rrType : Nat
  rrClass : Nat
  deriving DecidableEq, Repr

/-- One of the DNAME records, longest owner first, makes the CNAME. -/
def anySynthesizes (packet : Bytes) (cname : ResourceRecord) (cnameTarget : DnsName) :
    List ResourceRecord → Except ResolveError Bool
  | [] => .ok false
  | dname :: rest => do
    let (dnameTarget, stop) ← liftWire (readName packet dname.rdataOffset)
    if stop ≠ dname.nextOffset then .error (.wire .invalidRecord)
    else
      let frontLength := cname.name.canonicalWire.length - dname.name.canonicalWire.length
      let synthesized := cname.name.canonicalWire.take frontLength ++ dnameTarget.canonicalWire
      if synthesized.length ≤ 255 ∧ synthesized = cnameTarget.canonicalWire then .ok true
      else anySynthesizes packet cname cnameTarget rest

variable (packet : Bytes)

def cnameIsSynthesizedFromDname (cname : ResourceRecord)
    (records : List ResourceRecord) : Except ResolveError Bool := do
  let (cnameTarget, stop) ← liftWire (readName packet cname.rdataOffset)
  if stop ≠ cname.nextOffset then .error (.wire .invalidRecord)
  else
    let covering := records.filter fun record =>
      record.rrType == typeDname && record.rrClass == cname.rrClass &&
        record.name.canonicalWire != cname.name.canonicalWire &&
        record.name.canonicalWire.isSuffixOf cname.name.canonicalWire
    anySynthesizes packet cname cnameTarget (covering.insertionSort fun left right =>
      right.name.canonicalWire.length ≤ left.name.canonicalWire.length)

def substantiveRrsetsLoop (packet : Bytes) (records : List ResourceRecord) :
    List ResourceRecord → List RrsetKey → Except ResolveError (List RrsetKey)
  | [], output => .ok output
  | record :: rest, output =>
    if record.rrType = typeRrsig ∨ record.rrType = typeOpt ∨ record.rrType = typeTsig then
      substantiveRrsetsLoop packet records rest output
    else do
      let synthesized ←
        if record.rrType = typeCname then cnameIsSynthesizedFromDname packet record records
        else .ok false
      let key : RrsetKey := ⟨record.name.canonicalWire, record.rrType, record.rrClass⟩
      substantiveRrsetsLoop packet records rest
        (if synthesized || output.contains key then output else output ++ [key])

variable (records : List ResourceRecord)

/-- The record sets that need a signature. -/
def substantiveRrsets : Except ResolveError (List RrsetKey) :=
  substantiveRrsetsLoop packet records records []

def matchingRrset (key : RrsetKey) : List ResourceRecord :=
  records.filter fun record => record.name.canonicalWire == key.owner &&
    record.rrType == key.rrType && record.rrClass == key.rrClass

def coveringSignatures (packet : Bytes) (rrType : Nat) :
    List ResourceRecord → Except ResolveError (List ResourceRecord)
  | [] => .ok []
  | record :: rest => do
    let signature ← liftWire (parseRrsig packet record)
    let others ← coveringSignatures packet rrType rest
    .ok (if signature.typeCovered = rrType then record :: others else others)

def matchingSignatures (key : RrsetKey) : Except ResolveError (List ResourceRecord) :=
  coveringSignatures packet key.rrType (records.filter fun record =>
    record.name.canonicalWire == key.owner && record.rrType == typeRrsig &&
      record.rrClass == key.rrClass)

/-- The sections of a packet with nothing after them. -/
def parseWholePacket : Except ResolveError Sections := do
  let sections ← liftWire (parseSections packet)
  if sections.stop ≠ packet.length then .error (.wire .trailingData) else .ok sections

def recordsOfType (owner : Text) (rrType : Nat) : Except ResolveError (List ResourceRecord) := do
  let sections ← parseWholePacket packet
  .ok (sections.records.filter fun record =>
    record.rrType == rrType && dnsNamesEqual record.name.text owner)

def authenticatedRecords (sections : Sections) : List ResourceRecord :=
  sections.records.take (sections.header.answerCount + sections.header.authorityCount)

/-! ### Keys of a zone -/

def authenticatedZoneSigningKeys : List ResourceRecord → Except ResolveError (List ResourceRecord)
  | [] => .ok []
  | key :: rest => do
    let parsed ← liftWire (parseDnskey key)
    let trusted ← authenticatedZoneSigningKeys rest
    .ok (if parsed.flags &&& dnskeyFlagZoneKey ≠ 0 ∧ parsed.flags &&& dnskeyFlagRevoke = 0 then
      key :: trusted else trusted)

/-- The shortest lifetime that the signatures over the keys leave; `none` without a signature. -/
def signatureLifetime (packet : Bytes) (now lifetime : Nat) :
    List ResourceRecord → Except ResolveError (Option Nat)
  | [] => .ok none
  | signature :: rest => do
    let parsed ← liftWire (parseRrsig packet signature)
    if parsed.typeCovered ≠ typeDnskey then signatureLifetime packet now lifetime rest
    else do
      let lifetime := min (min lifetime (parsed.expiration - now)) parsed.originalTtl
      let others ← signatureLifetime packet now lifetime rest
      .ok (some (others.getD lifetime))

/-- For how many seconds the keys of a packet may be kept, at a time in seconds. -/
def dnskeyCacheLifetime (zone : Text) (now : Nat) : Except ResolveError Nat := do
  let sections ← parseWholePacket packet
  let ttls : List Nat := (sections.records.filter fun record =>
    record.rrType == typeDnskey && dnsNamesEqual record.name.text zone).map (·.ttl)
  match ttls.min? with
  | none => .ok 0
  | some ttl => do
    let lifetime ← signatureLifetime packet now ttl (sections.records.filter fun record =>
      record.rrType == typeRrsig && dnsNamesEqual record.name.text zone)
    .ok (lifetime.getD 0)

/-! ### Delegations without a DS record -/

def nsecProvesDsAbsence (packet : Bytes) (child : Text) :
    List ResourceRecord → Except ResolveError Bool
  | [] => .ok false
  | record :: rest =>
    if record.rrType ≠ typeNsec || !dnsNamesEqual record.name.text child then
      nsecProvesDsAbsence packet child rest
    else do
      let nsec ← liftWire (parseNsec packet record)
      if !nsec.types.contains typeDs && !nsec.types.contains typeSoa then .ok true
      else nsecProvesDsAbsence packet child rest

def nsec3ProvesDsAbsence (sha1 : Bytes → Bytes) (records : List ResourceRecord) (child : Text) :
    Except ResolveError Bool := do
  let denial ← nsec3DenialResult sha1 records child typeDs
  .ok (denial == .noData || denial == .nxDomain || denial == .optOut)

end RustdResolved.Dnssec.Rrsets
