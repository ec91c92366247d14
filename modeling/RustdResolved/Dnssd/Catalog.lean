import RustdResolved.Dnssd.Registration

/-! # The published services

The services of the configuration (`dnssd_config.rs`) and those that clients registered at run time
(`dnssd_runtime.rs`), with the records and the instance owners they stand for on an interface. The
state is that after the reload which every function of the source makes first; what a name template
takes from the system is a parameter. -/

namespace RustdResolved.Dnssd.Catalog

open Lib Maps Result SortedSet Wire Octets Name Presentation PacketHeader Record
open Wire.Redirects (IpAddr)
open Mdns Names Cache Registration

/-! ### Services of the configuration -/

structure ServiceTemplate where
  id : Text
  baseInstance : DnsSdInstance
  ordinal : Nat
  serviceType : DnsSdServiceType
  port : Nat
  priority : Nat
  weight : Nat
  txt : List Bytes
  subtypes : List Text

/-- The longest text among the first octets, from a number of them down. -/
def utf8Front (bytes : Bytes) : Nat → Bytes
  | 0 => []
  | length + 1 =>
    if isUtf8 (bytes.take (length + 1)) then bytes.take (length + 1) else utf8Front bytes length

namespace ServiceTemplate

def instanceName (template : ServiceTemplate) : Except DnsSdError DnsSdInstance :=
  if template.ordinal ≤ 1 then .ok template.baseInstance
  else
    let suffix := asBytes (" (".toList ++ decimal template.ordinal ++ ")".toList)
    let maximum := 63 - suffix.length
    let front :=
      if maximum < template.baseInstance.bytes.length then
        utf8Front template.baseInstance.bytes maximum
      else template.baseInstance.bytes
    DnsSdInstance.new (front ++ suffix)

def registration (template : ServiceTemplate) (interface : MdnsInterface) (addresses : List IpAddr)
    (hostLabel : Text) : Except DnsSdError DnsSdRegistration := do
  let instanceName ← template.instanceName
  let host ← DnsSdHost.local hostLabel
  return {
    instanceName
    serviceType := template.serviceType
    domain := DnsSdDomain.local
    host
    port := template.port
    priority := template.priority
    weight := template.weight
    txt := template.txt
    subtypes := template.subtypes
    addresses := addresses.filter (familyMatches interface.family)
    interface
    ttl := dnsSdDefaultTtl }

end ServiceTemplate

/-- The templates under their keys, in the order of the keys. -/
structure ServiceCatalog where
  templates : List (Text × ServiceTemplate)
  generation : UInt64

/-- The name under which the types of services are enumerated. -/
def enumerationOwner : Bytes :=
  match canonicalWireName (wireName (["_services", "_dns-sd", "_udp", "local"].map
    fun label => asBytes label.toList)) with
  | .ok name => name
  | .error _ => [0]

/-- The pointer from the enumeration to the type of a service. -/
def enumerationRecord (owner browseOwner : Bytes) (goodbye : Bool) (interface : MdnsInterface) :
    DnsSdRecord :=
  ⟨owner, typePtr, classIn, if goodbye then 0 else dnsSdDefaultTtl, false, browseOwner, interface⟩

/-- What `records_for` adds for one template. -/
def ServiceTemplate.records (template : ServiceTemplate) (interface : MdnsInterface)
    (addresses : List IpAddr) (hostLabel : Text) (goodbye : Bool) :
    Except DnsSdError (List DnsSdRecord) := do
  let registration ← template.registration interface addresses hostLabel
  let browseOwner ← registration.browseOwner
  let records ← registration.records goodbye
  return enumerationRecord enumerationOwner browseOwner goodbye interface :: records

/-- `generation.wrapping_add(1).max(1)`. -/
def nextGeneration (generation : UInt64) : UInt64 := max (generation + 1) 1

namespace ServiceCatalog

variable (catalog : ServiceCatalog)

def recordsFor (interface : MdnsInterface) (addresses : List IpAddr)
    (hostLabel : Text) (goodbye : Bool) : Except DnsSdError (List DnsSdRecord) := do
  let records ← catalog.templates.mapM fun template =>
    template.2.records interface addresses hostLabel goodbye
  return sortedSet DnsSdRecord.sortKey records.flatten

def instanceOwners (interface : MdnsInterface) (addresses : List IpAddr)
    (hostLabel : Text) : Except DnsSdError (FiniteMap Bytes Text) :=
  catalog.templates.foldlM (fun owners template => do
    let registration ← template.2.registration interface addresses hostLabel
    let owner ← registration.instanceOwner
    return owners.insert owner template.1) ∅

def renameTemplate (owner : Bytes) (interface : MdnsInterface) (addresses : List IpAddr)
    (hostLabel : Text) : List (Text × ServiceTemplate) →
      Except DnsSdError (Option (Text × List (Text × ServiceTemplate)))
  | [] => .ok none
  | (id, template) :: templates => do
    let registration ← template.registration interface addresses hostLabel
    if (← registration.instanceOwner) = owner then
      -- `ordinal.saturating_add(1).max(2)` of a `u32`
      let renamed := { template with ordinal := max (min (template.ordinal + 1) (2 ^ 32 - 1)) 2 }
      return some (id, (id, renamed) :: templates)
    else
      match ← renameTemplate owner interface addresses hostLabel templates with
      | some (found, templates) => return some (found, (id, template) :: templates)
      | none => return none

def renameConflictingOwner (owner : Bytes) (rrType : Nat)
    (interface : MdnsInterface) (addresses : List IpAddr) (hostLabel : Text) :
    Except DnsSdError (Option Text × ServiceCatalog) :=
  if rrType ≠ typeTxt ∧ rrType ≠ typeSrv then .ok (none, catalog)
  else do
    match ← renameTemplate owner interface addresses hostLabel catalog.templates with
    | some (id, templates) => return (some id, ⟨templates, nextGeneration catalog.generation⟩)
    | none => return (none, catalog)

end ServiceCatalog

/-! ### Services of clients -/

/-- What name templates take from the system. -/
structure System where
  architecture : Text
  bootId : Text
  buildId : Text
  machineId : Text
  osId : Text
  kernelRelease : Text
  versionId : Text
  variantId : Text

inductive DynamicServiceError
  | invalidIdentifier
  | invalidNameTemplate
  | invalidTxtKey
  | alreadyExists
  | notFound
  | service (error : DnsSdError)
  deriving DecidableEq, Repr

def dynamicServiceError : DynamicServiceError → DnsSdError
  | .service error => error
  | .invalidIdentifier | .invalidNameTemplate | .invalidTxtKey => .invalidInstance
  | .alreadyExists => .duplicateRegistration
  | .notFound => .unknownRegistration

/-- `?` on an error of a service. -/
def liftService {α : Type} : Except DnsSdError α → Except DynamicServiceError α
  | .ok value => .ok value
  | .error error => .error (.service error)

def isControl (c : Char) : Bool := c.toNat < 0x20 || (0x7f ≤ c.toNat && c.toNat ≤ 0x9f)

def specifierText (system : System) (hostLabel : Text) (specifier : Char) : Option Text :=
  match specifier with
  | '%' => some ['%']
  | 'a' => some system.architecture
  | 'b' => some system.bootId
  | 'B' => some system.buildId
  | 'H' => some hostLabel
  | 'm' => some system.machineId
  | 'o' => some system.osId
  | 'v' => some system.kernelRelease
  | 'w' => some system.versionId
  | 'W' => some system.variantId
  | _ => none

/-- The text of a template with its specifiers put in. -/
def expandTemplate (system : System) (hostLabel : Text) : Text → Option Text
  | [] => some []
  | '%' :: [] => none
  | '%' :: specifier :: rest => do
    let text ← specifierText system hostLabel specifier
    return text ++ (← expandTemplate system hostLabel rest)
  | c :: rest => do return c :: (← expandTemplate system hostLabel rest)

def renderNameTemplate (system : System) (template hostLabel : Text) :
    Except DynamicServiceError Bytes :=
  match expandTemplate system hostLabel template with
  | none => .error .invalidNameTemplate
  | some output =>
    if output = [] ∨ 63 < (asBytes output).length ∨ output.any isControl then
      .error .invalidNameTemplate
    else .ok (asBytes output)

structure DynamicService where
  id : Text
  nameTemplate : Text
  serviceType : DnsSdServiceType
  port : Nat
  priority : Nat
  weight : Nat
  txtRecords : List (List Bytes)
  withdrawn : Bool

namespace DynamicService

section
variable (service : DynamicService)

def registration (system : System) (interface : MdnsInterface) (addresses : List IpAddr)
    (hostLabel : Text) (txt : List Bytes) : Except DynamicServiceError DnsSdRegistration := do
  let name ← renderNameTemplate system service.nameTemplate hostLabel
  let instanceName ← liftService (DnsSdInstance.new name)
  let host ← liftService (DnsSdHost.local hostLabel)
  return {
    instanceName
    serviceType := service.serviceType
    domain := DnsSdDomain.local
    host
    port := service.port
    priority := service.priority
    weight := service.weight
    txt
    subtypes := []
    addresses
    interface
    ttl := dnsSdDefaultTtl }

def records (system : System) (interface : MdnsInterface) (addresses : List IpAddr)
    (hostLabel : Text) (goodbye : Bool) : Except DynamicServiceError (List DnsSdRecord) :=
  if service.withdrawn then .ok []
  else do
    let records ← service.txtRecords.mapM fun txt => do
      let registration ← service.registration system interface addresses hostLabel txt
      liftService (registration.records goodbye)
    let registration ← service.registration system interface addresses hostLabel []
    let browseOwner ← liftService registration.browseOwner
    return sortedSet DnsSdRecord.sortKey
      (enumerationRecord (wireName (["_services", "_dns-sd", "_udp", "local"].map
        fun label => asBytes label.toList)) browseOwner goodbye interface :: records.flatten)

def instanceOwner (system : System) (interface : MdnsInterface)
    (addresses : List IpAddr) (hostLabel : Text) : Except DynamicServiceError Bytes := do
  let registration ← service.registration system interface addresses hostLabel []
  liftService registration.instanceOwner

end

end DynamicService

/-! ### All services -/

/-- The services, with those of clients in the order of their identifiers. -/
structure CatalogState where
  catalog : ServiceCatalog
  dynamic : List (Text × DynamicService)
  dynamicGeneration : UInt64
  conflicts : List Text

/-- `map_err` with `dynamicServiceError`. -/
def lowerService {α : Type} : Except DynamicServiceError α → Except DnsSdError α
  | .ok value => .ok value
  | .error error => .error (dynamicServiceError error)

namespace CatalogState

section
variable (state : CatalogState) (system : System)

def recordsFor (interface : MdnsInterface) (addresses : List IpAddr) (hostLabel : Text)
    (goodbye : Bool) : Except DnsSdError (List DnsSdRecord) := do
  let records ← state.catalog.recordsFor interface addresses hostLabel goodbye
  let dynamic ← state.dynamic.mapM fun service =>
    lowerService (service.2.records system interface addresses hostLabel goodbye)
  return sortedSet DnsSdRecord.sortKey (records ++ dynamic.flatten)

def instanceOwners (interface : MdnsInterface)
    (addresses : List IpAddr) (hostLabel : Text) : Except DnsSdError (FiniteMap Bytes Text) := do
  let owners ← state.catalog.instanceOwners interface addresses hostLabel
  (state.dynamic.filter fun service => !service.2.withdrawn).foldlM (fun owners service => do
    let owner ← lowerService (service.2.instanceOwner system interface addresses hostLabel)
    return owners.insert owner service.2.id) owners

/-- The service of a client that has the owner; one whose owner cannot be made is passed over. -/
def conflictingDynamic (owner : Bytes)
    (interface : MdnsInterface) (addresses : List IpAddr) (hostLabel : Text) : Option Text :=
  (state.dynamic.find? fun service => !service.2.withdrawn &&
    match service.2.instanceOwner system interface addresses hostLabel with
    | .ok candidate => candidate == owner
    | .error _ => false).map Prod.fst

/-- Renames a service of the configuration and withdraws one of a client. -/
def renameConflictingOwner (owner : Bytes) (rrType : Nat)
    (interface : MdnsInterface) (addresses : List IpAddr) (hostLabel : Text) :
    Except DnsSdError (Option Text × CatalogState) := do
  let (renamed, catalog) ←
    state.catalog.renameConflictingOwner owner rrType interface addresses hostLabel
  match renamed with
  | some id => return (some id, { state with catalog })
  | none =>
    match state.conflictingDynamic system owner interface addresses hostLabel with
    | some id =>
      return (some id, { state with
        dynamic := state.dynamic.map fun service =>
          if service.1 = id then (service.1, { service.2 with withdrawn := true }) else service
        dynamicGeneration := nextGeneration state.dynamicGeneration
        conflicts := state.conflicts ++ [id] })
    | none => return (none, state)

end

end CatalogState

/-! ### The service of an owner is found -/

section
variable {interface : MdnsInterface} {addresses : List IpAddr} {hostLabel : Text} {owner : Bytes}
  {owners : FiniteMap Bytes Text}

def ServiceTemplate.instanceOwner (template : ServiceTemplate) (interface : MdnsInterface)
    (addresses : List IpAddr) (hostLabel : Text) : Except DnsSdError Bytes := do
  let registration ← template.registration interface addresses hostLabel
  registration.instanceOwner

theorem ServiceCatalog.instanceOwners_ok {catalog : ServiceCatalog}
    (h : catalog.instanceOwners interface addresses hostLabel = .ok owners) :
    (∀ template ∈ catalog.templates, ∃ owner,
      template.2.instanceOwner interface addresses hostLabel = .ok owner) ∧
    ∀ owner, owner ∈ owners ↔ ∃ template ∈ catalog.templates,
      template.2.instanceOwner interface addresses hostLabel = .ok owner := by
  have hfold : catalog.templates.foldlM (fun (owners : FiniteMap Bytes Text) template => do
      return owners.insert (← template.2.instanceOwner interface addresses hostLabel)
        template.1) ∅ =
        .ok owners := by
    rw [← h, ServiceCatalog.instanceOwners]
    simp [ServiceTemplate.instanceOwner]
  simpa using foldlM_insert_ok _ _ hfold

/-- If all templates have an owner, the search finds one that has the owner sought. -/
theorem ServiceCatalog.renameTemplate_ok : ∀ {templates : List (Text × ServiceTemplate)},
    (∀ template ∈ templates, ∃ owner,
      template.2.instanceOwner interface addresses hostLabel = .ok owner) →
    ∃ result, renameTemplate owner interface addresses hostLabel templates = .ok result ∧
      (result.isSome ↔ ∃ template ∈ templates,
        template.2.instanceOwner interface addresses hostLabel = .ok owner)
  | [], _ => ⟨none, rfl, by simp⟩
  | (id, template) :: templates, h => by
    obtain ⟨first, hfirst⟩ := h (id, template) (by simp)
    obtain ⟨result, hresult, hfound⟩ := renameTemplate_ok (List.forall_mem_cons.mp h).2
    obtain ⟨registration, hregistration, howner⟩ := of_bind hfirst
    have hhead : template.instanceOwner interface addresses hostLabel = .ok owner ↔
        first = owner := by
      rw [show template.instanceOwner interface addresses hostLabel = .ok first from hfirst,
        Except.ok.injEq]
    simp only [renameTemplate, hregistration, ok_bind, howner, List.mem_cons,
      exists_eq_or_imp, hhead]
    by_cases hsame : first = owner
    · exact ⟨_, if_pos hsame, by simp [hsame]⟩
    · rw [if_neg hsame, hresult, ok_bind]
      cases result with
      | none => exact ⟨none, rfl, by simpa [hsame] using hfound⟩
      | some found => exact ⟨_, rfl, by simpa [hsame] using hfound⟩

theorem lowerService_eq_ok {α : Type} {result : Except DynamicServiceError α} {value : α} :
    lowerService result = .ok value ↔ result = .ok value := by
  cases result <;> simp [lowerService]

/-- **A service with a conflict is renamed**, or withdrawn if a client registered it. -/
theorem CatalogState.renameConflictingOwner_of_mem {state : CatalogState} {system : System}
    {rrType : Nat} (h : state.instanceOwners system interface addresses hostLabel = .ok owners)
    (howner : owner ∈ owners) (htype : rrType = typeSrv ∨ rrType = typeTxt) :
    ∃ id next, state.renameConflictingOwner system owner rrType interface addresses hostLabel =
      .ok (some id, next) := by
  obtain ⟨configured, hconfigured, h⟩ := of_bind h
  obtain ⟨hall, hmem⟩ := ServiceCatalog.instanceOwners_ok hconfigured
  obtain ⟨-, hdynamic⟩ := foldlM_insert_ok _ _ h
  obtain ⟨result, hresult, hfound⟩ := ServiceCatalog.renameTemplate_ok hall
  have htypes : ¬(rrType ≠ typeTxt ∧ rrType ≠ typeSrv) := by tauto
  unfold CatalogState.renameConflictingOwner ServiceCatalog.renameConflictingOwner
  rw [if_neg htypes, hresult, ok_bind]
  cases result with
  | some found => exact ⟨_, _, rfl⟩
  | none =>
    have hnone : owner ∉ configured := by
      rw [hmem, ← hfound]
      simp
    rcases (hdynamic owner).mp howner with hin | ⟨service, hservice, hservice'⟩
    · exact absurd hin hnone
    · obtain ⟨hservice, hactive⟩ := List.mem_filter.mp hservice
      obtain ⟨id, hid⟩ :
          ∃ id, state.conflictingDynamic system owner interface addresses hostLabel = some id := by
        rw [← Option.isSome_iff_exists, conflictingDynamic, Option.isSome_map, List.find?_isSome]
        exact ⟨service, hservice, by simpa [lowerService_eq_ok.mp hservice'] using hactive⟩
      rw [pure_eq, ok_bind]
      rw [hid]
      exact ⟨_, _, rfl⟩

end

end RustdResolved.Dnssd.Catalog
