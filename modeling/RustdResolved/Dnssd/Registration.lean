import RustdResolved.Lib.SortedSet
import RustdResolved.Mdns.Cache
import RustdResolved.Mdns.Names
import RustdResolved.Wire.Redirects

/-! # Service registrations

A registration of `dnssd_full.rs` and the records it stands for: a pointer from the service type to
the instance, and the SRV and TXT records of the instance. The names are put together from their
labels by `encodeLabels`, which leaves the case of the labels as it is. -/

namespace RustdResolved.Dnssd.Registration

open Wire Octets Name Presentation PacketHeader
open Wire.Redirects (IpAddr)
open Mdns Names Cache

inductive DnsSdError
  | emptyInstance
  | instanceTooLong
  | invalidInstance
  | invalidServiceType
  | invalidDomain
  | invalidHost
  | invalidTxtItem
  | txtTooLarge
  | invalidSubtype
  | duplicateRegistration
  | unknownRegistration
  | name (error : MdnsNameError)
  deriving DecidableEq, Repr

def dnsSdDefaultTtl : Nat := 120
def dnsSdAddressTtl : Nat := 120
def dnsSdMaxTxtTotal : Nat := 1300

/-! ### Names -/

def validateDomainLabel (value : Text) : Except DnsSdError Text :=
  let bytes := asBytes value
  if bytes = [] ∨ 63 < bytes.length ∨ bytes.head? = some 45 ∨ bytes.getLast? = some 45 ∨
      !bytes.all fun byte => isAsciiAlphanumeric byte || byte == 45 then
    .error .invalidDomain
  else .ok (value.map Char.toLower)

structure DnsSdServiceType where
  service : Text
  protocol : Text
  deriving DecidableEq, Repr

def DnsSdServiceType.labels (serviceType : DnsSdServiceType) : List Bytes :=
  [asBytes serviceType.service, asBytes serviceType.protocol]

def serviceLabelIsValid (value : Text) : Bool :=
  let bytes := asBytes value
  value.head? == some '_' && 2 ≤ bytes.length && bytes.length ≤ 16 && bytes.all (· < 128) &&
    (bytes.drop 1).all (fun byte => isAsciiAlphanumeric byte || byte == 45) &&
    bytes[1]? != some 45 &&
    bytes.getLast? != some 45

def subtypeIsValid (value : Text) : Bool := serviceLabelIsValid value

structure DnsSdInstance where
  bytes : Bytes
  ne_nil : bytes ≠ []
  short : bytes.length ≤ 63
  noNul : 0 ∉ bytes
  deriving DecidableEq

def DnsSdInstance.new (value : Bytes) : Except DnsSdError DnsSdInstance :=
  if hempty : value = [] then .error .emptyInstance
  else if hlong : 63 < value.length then .error .instanceTooLong
  else if hnul : 0 ∈ value then .error .invalidInstance
  else .ok ⟨value, hempty, not_lt.mp hlong, hnul⟩

structure DnsSdDomain where
  labels : List Text
  deriving DecidableEq, Repr

def DnsSdDomain.local : DnsSdDomain := ⟨["local".toList]⟩

structure DnsSdHost where
  labels : List Text
  deriving DecidableEq, Repr

def DnsSdHost.local (label : Text) : Except DnsSdError DnsSdHost :=
  match validateDomainLabel label with
  | .ok label => .ok ⟨[label, "local".toList]⟩
  | .error _ => .error .invalidHost

/-- The labels one after the other. The canonical form is asked for and not used. -/
def encodeLabels (labels : List Bytes) : Except DnsSdError Bytes :=
  if labels.any fun label => label == [] || 63 < label.length || label.contains 0 then
    .error .invalidDomain
  else if 255 < (wireName labels).length then .error .invalidDomain
  else
    match canonicalWireName (wireName labels) with
    | .ok _ => .ok (wireName labels)
    | .error error => .error (.name error)

theorem encodeLabels_ok {labels : List Bytes} {output : Bytes}
    (h : encodeLabels labels = .ok output) : ValidLabels labels ∧ output = wireName labels := by
  unfold encodeLabels at h
  split_ifs at h with hlabels hlong
  split at h
  · cases h
    refine ⟨⟨?_, ?_, ?_⟩, rfl⟩
    · intro label hlabel hempty
      exact hlabels (List.any_eq_true.mpr ⟨label, hlabel, by simp [hempty]⟩)
    · intro label hlabel
      by_contra hbad
      exact hlabels (List.any_eq_true.mpr ⟨label, hlabel, by simp [not_le.mp hbad]⟩)
    · have hlength := length_wireLabels labels
      rw [wireName_eq, List.length_append, List.length_singleton] at hlong
      omega
  · cases h

/-! ### Registrations -/

structure DnsSdRecord where
  owner : Bytes
  rrType : Nat
  cls : Nat
  ttl : Nat
  cacheFlush : Bool
  rdata : Bytes
  interface : MdnsInterface
  deriving DecidableEq, Repr

/-- The derived order of records goes through the fields. -/
def DnsSdRecord.sortKey (record : DnsSdRecord) :
    Bytes ×ₗ Nat ×ₗ Nat ×ₗ Nat ×ₗ Bool ×ₗ Bytes ×ₗ Nat ×ₗ Nat :=
  toLex (record.owner, toLex (record.rrType, toLex (record.cls, toLex (record.ttl,
    toLex (record.cacheFlush, toLex (record.rdata,
      toLex (record.interface.ifindex, record.interface.family.index)))))))

structure DnsSdRegistration where
  instanceName : DnsSdInstance
  serviceType : DnsSdServiceType
  domain : DnsSdDomain
  host : DnsSdHost
  port : Nat
  priority : Nat
  weight : Nat
  txt : List Bytes
  subtypes : List Text
  addresses : List IpAddr
  interface : MdnsInterface
  ttl : Nat

/-- The total length, checked item by item. -/
def validateTxtFrom (total : Nat) : List Bytes → Except DnsSdError Unit
  | [] => .ok ()
  | item :: items =>
    if 255 < item.length then .error .invalidTxtItem
    else if dnsSdMaxTxtTotal < total + (1 + item.length) then .error .txtTooLarge
    else validateTxtFrom (total + (1 + item.length)) items

def validateTxt (items : List Bytes) : Except DnsSdError Unit := validateTxtFrom 0 items

def txtRdata (items : List Bytes) : Except DnsSdError Bytes := do
  validateTxt items
  if items = [] then return [0]
  return items.flatMap fun item => UInt8.ofNat item.length :: item

def srvRdata (priority weight port : Nat) (target : Bytes) : Bytes :=
  u16ToBeBytes priority ++ u16ToBeBytes weight ++ u16ToBeBytes port ++ target

/-- Whether an address is of the family of an interface. -/
def familyMatches (family : MdnsAddressFamily) (address : IpAddr) : Bool :=
  match family, address with
  | .ipv4, .v4 _ => true
  | .ipv6, .v6 _ => true
  | _, _ => false

/-- The type and the octets of an address record. -/
def addressRdata : IpAddr → Nat × Bytes
  | .v4 octets => (typeA, octets.toList)
  | .v6 octets => (typeAaaa, octets.toList)

def encodeServiceOwner (serviceType : DnsSdServiceType) (domain : DnsSdDomain) :
    Except DnsSdError Bytes :=
  encodeLabels (serviceType.labels ++ domain.labels.map asBytes)

def encodeSubtypeOwner (subtype : Text) (serviceType : DnsSdServiceType) (domain : DnsSdDomain) :
    Except DnsSdError Bytes :=
  if !subtypeIsValid subtype then .error .invalidSubtype
  else
    encodeLabels (asBytes subtype :: asBytes "_sub".toList ::
      (serviceType.labels ++ domain.labels.map asBytes))

namespace DnsSdRegistration

variable (registration : DnsSdRegistration)

def validate : Except DnsSdError Unit :=
  if registration.instanceName.bytes = [] then .error .emptyInstance
  else do
    validateTxt registration.txt
    if registration.subtypes.any fun subtype => !subtypeIsValid subtype then .error .invalidSubtype
    else if registration.addresses.any fun address =>
        !familyMatches registration.interface.family address then
      .error .invalidHost
    else .ok ()

def browseOwner : Except DnsSdError Bytes :=
  encodeServiceOwner registration.serviceType registration.domain

def instanceOwner : Except DnsSdError Bytes :=
  encodeLabels (registration.instanceName.bytes ::
    (registration.serviceType.labels ++ registration.domain.labels.map asBytes))

def hostOwner : Except DnsSdError Bytes :=
  encodeLabels (registration.host.labels.map asBytes)

def subtypeRecords (instanceOwner : Bytes) (ttl : Nat) : Except DnsSdError (List DnsSdRecord) :=
  registration.subtypes.mapM fun subtype => do
    let owner ← encodeSubtypeOwner subtype registration.serviceType registration.domain
    return ⟨owner, typePtr, classIn, ttl, false, instanceOwner, registration.interface⟩

def addressRecords (hostOwner : Bytes) (goodbye : Bool) : List DnsSdRecord :=
  registration.addresses.map fun address =>
    ⟨hostOwner, (addressRdata address).1, classIn, if goodbye then 0 else dnsSdAddressTtl, true,
      (addressRdata address).2, registration.interface⟩

def records (goodbye : Bool) : Except DnsSdError (List DnsSdRecord) := do
  registration.validate
  let ttl := if goodbye then 0 else max registration.ttl 1
  let browseOwner ← registration.browseOwner
  let instanceOwner ← registration.instanceOwner
  let hostOwner ← registration.hostOwner
  let txt ← txtRdata registration.txt
  let srv := srvRdata registration.priority registration.weight registration.port hostOwner
  let service : List DnsSdRecord :=
    [⟨browseOwner, typePtr, classIn, ttl, false, instanceOwner, registration.interface⟩,
      ⟨instanceOwner, typeSrv, classIn, ttl, true, srv, registration.interface⟩,
      ⟨instanceOwner, typeTxt, classIn, ttl, true, txt, registration.interface⟩]
  let subtypes ← registration.subtypeRecords instanceOwner ttl
  let addresses := registration.addressRecords hostOwner goodbye
  return (service ++ subtypes ++ addresses).insertionSort fun a b => a.sortKey ≤ b.sortKey

end DnsSdRegistration

end RustdResolved.Dnssd.Registration
