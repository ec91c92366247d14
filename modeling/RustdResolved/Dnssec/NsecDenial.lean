import RustdResolved.Dnssec.CanonicalOrder
import RustdResolved.Wire.DnssecRecords

/-! # Denial of existence by NSEC records

`nsecDenialResult` is the validator's judgement on a name and a type from the NSEC records of a
response: an NSEC record of the name itself decides by its type bitmap; else one that shows the name
to be an empty non-terminal; else one that covers the name, together with one for the wildcard at
the closest ancestor that the response shows to exist. -/

namespace RustdResolved.Dnssec.NsecDenial

open Lib.Result Wire Octets Name Presentation PacketHeader Record DnssecRecords Resolver.Error
open NameText CanonicalOrder

/-- What the denial records of a response say about a name and a type. -/
inductive DnssecDenialResult
  | found
  | cname
  | noData
  | nxDomain
  | optOut
  | missing
  deriving DecidableEq, Repr

/-! ### The records of a response -/

/-- What the type bitmap at a name says about a type. -/
def bitmapResult (types : List Nat) (rrType : Nat) : DnssecDenialResult :=
  if types.contains rrType then .found
  else if types.contains typeCname then .cname
  else .noData

/-- A bitmap from the side of a zone cut that does not hold the type: the child's for DS, the
parent's for every other type. -/
def wrongSideOfCut (types : List Nat) (rrType : Nat) : Bool :=
  (rrType == typeDs && types.contains typeSoa) ||
    (rrType != typeDs && types.contains typeNs && !types.contains typeSoa)

/-- `unwrap_or(false)`. -/
def isOkTrue (result : Except ResolveError Bool) : Bool :=
  match result with
  | .ok value => value
  | .error _ => false

def nsecRecordsOf (records : List ResourceRecord) : List ResourceRecord :=
  records.filter (·.rrType == typeNsec)

def dnsRecordNameEqual (record : ResourceRecord) (name : Text) : Bool :=
  match encodeName (normalizeDnsName name) with
  | .ok wireName => record.name.canonicalWire == wireName
  | .error _ => false

section
variable (packet : Bytes) (record : ResourceRecord)

def nsecCoversName (name : Text) : Except ResolveError Bool := do
  let nsec ← liftWire (parseNsec packet record)
  let name ← liftWire (encodeName (normalizeDnsName name))
  canonicalNameIntervalCovers record.name.canonicalWire nsec.nextDomain.canonicalWire name

def nsecProvesEmptyNonterminal (name : Text) : Except ResolveError Bool := do
  let nsec ← liftWire (parseNsec packet record)
  let next := normalizeDnsName nsec.nextDomain.text
  match dnsNameParent next with
  | none => .ok false
  | some nextParent =>
    if !dnsNameIsAtOrBelow nextParent name then .ok false
    else .ok (dnsNameIsAtOrBelow name (dnsNameCommonSuffix record.name.text next))

def showsExistence : Bool :=
  !(record.rrType == typeRrsig || record.rrType == typeOpt)

end

section
variable (packet : Bytes) (records : List ResourceRecord) (name : Text)

/-- The deepest ancestor of the name that has a record of the response at or below it. -/
def closestExistingAncestor : Option Text :=
  (dnsNameAncestors name).reverse.find? fun ancestor =>
    records.any fun record => showsExistence record && dnsNameIsAtOrBelow record.name.text ancestor

/-! ### The judgement -/

/-- The judgement of the first NSEC record of the name itself that is on the right side of a cut. -/
def nsecExact (rrType : Nat) : List ResourceRecord → Except ResolveError (Option DnssecDenialResult)
  | [] => .ok none
  | record :: rest =>
    if !dnsNamesEqual record.name.text name then nsecExact rrType rest
    else do
      let nsec ← liftWire (parseNsec packet record)
      if wrongSideOfCut nsec.types rrType then nsecExact rrType rest
      else .ok (some (bitmapResult nsec.types rrType))

def firstEmptyNonterminal : Option ResourceRecord :=
  records.find? fun record => isOkTrue (nsecProvesEmptyNonterminal packet record name)

def firstCovering : Option ResourceRecord :=
  records.find? fun record => isOkTrue (nsecCoversName packet record name)

def firstNamed : Option ResourceRecord :=
  records.find? fun record => dnsRecordNameEqual record name

/-- The wildcard whose absence, or whose types, decide about a name that the record `covering`
covers. -/
def nsecWildcard (covering : ResourceRecord) : Text :=
  wildcardOf ((closestExistingAncestor records name).getD
    (match parseNsec packet covering with
    | .ok nsec => (dnsNameParent nsec.nextDomain.text).getD ['.']
    | .error _ => ['.']))

def nsecDenialResult (rrType : Nat) : Except ResolveError DnssecDenialResult :=
  let nsecRecords := nsecRecordsOf records
  if nsecRecords.isEmpty then .ok .missing
  else do
    match ← nsecExact packet name rrType nsecRecords with
    | some result => .ok result
    | none =>
      if (firstEmptyNonterminal packet nsecRecords name).isSome then .ok .noData
      else
        match firstCovering packet nsecRecords name with
        | none => .ok .missing
        | some covering =>
          let wildcard := nsecWildcard packet records name covering
          match firstNamed nsecRecords wildcard with
          | some record => do
            let nsec ← liftWire (parseNsec packet record)
            .ok (bitmapResult nsec.types rrType)
          | none =>
            if (firstCovering packet nsecRecords wildcard).isSome then .ok .nxDomain
            else .ok .missing

end

end RustdResolved.Dnssec.NsecDenial
