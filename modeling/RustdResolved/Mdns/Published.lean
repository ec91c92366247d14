import RustdResolved.Mdns.Responder

/-! # The records of the responder are well formed

Whatever the services, the addresses and the name of the host are, each record of the responder has
names where its type says, and numbers and data that fit their fields. -/

namespace RustdResolved.Mdns.Published

open List Lib Result SortedSet Wire Octets PacketHeader
open Wire.Redirects (IpAddr)
open Names Cache Messages Responder Dnssd Registration Catalog

variable {name rdata : Bytes} {labels : List Bytes} {goodbye : Bool} {interface : MdnsInterface}

/-- A record that can be written, and is read back. -/
structure Publishable (record : LocalRecord) : Prop where
  wellFormed : record.WellFormed
  short : record.rdata.length ≤ 65535

/-! ### Names -/

theorem length_le_of_isWireName (h : IsWireName name) : name.length ≤ 255 := by
  obtain ⟨labels, hvalid, rfl⟩ := h
  have hlength := length_wireLabels labels
  have hfits := hvalid.fits
  rw [wireName_eq, length_append, length_singleton]
  omega

theorem isWireName_root : IsWireName [0] := ⟨[], ⟨by simp, by simp, by decide⟩, rfl⟩

theorem isWireName_of_canonical {input : Bytes} (h : canonicalWireName input = .ok name) :
    IsWireName name := by
  obtain ⟨labels, hvalid, -, rfl⟩ := canonicalWireName_eq_ok.mp h
  exact ⟨_, hvalid.map_lowercase, rfl⟩

theorem isWireName_wireNameOf : IsWireName (wireNameOf labels) := by
  unfold wireNameOf
  split
  · exact isWireName_of_canonical ‹_›
  · exact isWireName_root

theorem isWireName_reverseOwner {address : IpAddr} : IsWireName (reverseOwner address) := by
  cases address <;> exact isWireName_wireNameOf

theorem isWireName_enumerationOwner : IsWireName enumerationOwner := by
  unfold enumerationOwner
  split
  · exact isWireName_of_canonical ‹_›
  · exact isWireName_root

theorem isWireName_encodeLabels (h : encodeLabels labels = .ok name) : IsWireName name := by
  obtain ⟨hvalid, rfl⟩ := encodeLabels_ok h
  exact ⟨labels, hvalid, rfl⟩

/-! ### Records by their type -/

section
variable {owner target : Bytes} {ttl : Nat} {cacheFlush : Bool}

section
variable (howner : IsWireName owner) {rrType : Nat}
include howner

theorem publishable_of (htype : rrType < 65536) (httl : ttl < 2 ^ 32)
    (hnamed : NamedRdata rrType rdata) (hshort : rdata.length ≤ 65535) :
    Publishable ⟨owner, rrType, classIn, ttl, cacheFlush, rdata⟩ :=
  ⟨⟨howner, htype, (by decide : classIn < 32768), httl, hnamed⟩, hshort⟩

theorem publishable_ptr (htarget : IsWireName target) (httl : ttl < 2 ^ 32) :
    Publishable ⟨owner, typePtr, classIn, ttl, cacheFlush, target⟩ :=
  publishable_of howner (by decide) httl ⟨fun _ => htarget, fun h => absurd h (by decide)⟩
    ((length_le_of_isWireName htarget).trans (by decide))

theorem publishable_srv {priority weight port : Nat} (htarget : IsWireName target)
    (httl : ttl < 2 ^ 32) :
    Publishable ⟨owner, typeSrv, classIn, ttl, cacheFlush,
      srvRdata priority weight port target⟩ := by
  have hnamed : NamedRdata typeSrv (srvRdata priority weight port target) :=
    ⟨fun h => absurd h (by decide), fun _ =>
      ⟨u16ToBeBytes priority ++ u16ToBeBytes weight ++ u16ToBeBytes port, target, rfl,
        htarget, rfl⟩⟩
  have hlength : (srvRdata priority weight port target).length = 6 + target.length := by
    rw [srvRdata, length_append]
    rfl
  have htarget' := length_le_of_isWireName htarget
  exact publishable_of howner (by decide) httl hnamed (by omega)

/-- A record of a type without names in its data. -/
theorem publishable_plain (htype : rrType ∈ [typeA, typeAaaa, typeTxt]) (httl : ttl < 2 ^ 32)
    (hshort : rdata.length ≤ 65535) :
    Publishable ⟨owner, rrType, classIn, ttl, cacheFlush, rdata⟩ := by
  have hplain : ∀ rrType ∈ [typeA, typeAaaa, typeTxt], rrType < 65536 ∧ rrType ≠ typeCname ∧
      rrType ≠ typePtr ∧ rrType ≠ typeSrv := by decide
  obtain ⟨hlt, hcname, hptr, hsrv⟩ := hplain rrType htype
  refine publishable_of howner hlt httl ⟨fun h => ?_, fun h => absurd h hsrv⟩ hshort
  rcases h with h | h
  · exact absurd h hcname
  · exact absurd h hptr

theorem publishable_address (httl : ttl < 2 ^ 32) (address : IpAddr) :
    Publishable ⟨owner, (addressRdata address).1, classIn, ttl, cacheFlush,
      (addressRdata address).2⟩ := by
  cases address with
  | v4 | v6 => exact publishable_plain howner (by simp [addressRdata]) httl (by simp [addressRdata])

end

end

/-! ### Records of services -/

theorem length_of_validateTxtFrom {items : List Bytes} {total : Nat}
    (htotal : total ≤ dnsSdMaxTxtTotal) (h : validateTxtFrom total items = .ok ()) :
    total + (items.flatMap fun item => UInt8.ofNat item.length :: item).length ≤
      dnsSdMaxTxtTotal := by
  induction items generalizing total with
  | nil => simpa using htotal
  | cons item items ih =>
    unfold validateTxtFrom at h
    split_ifs at h with hitem hlong
    have hrest := ih (not_lt.mp hlong) h
    rw [flatMap_cons, length_append, length_cons]
    omega

theorem length_txtRdata {items : List Bytes} (h : txtRdata items = .ok rdata) :
    rdata.length ≤ dnsSdMaxTxtTotal := by
  obtain ⟨_, hvalid, h⟩ := of_bind h
  have hlength := length_of_validateTxtFrom (Nat.zero_le _) hvalid
  split_ifs at h
  · cases h
    decide
  · cases h
    omega

theorem goodbyeTtl_lt :
    ∀ goodbye : Bool, (if goodbye = true then 0 else dnsSdDefaultTtl) < 2 ^ 32 := by
  decide

/-- **The records of a registration are well formed.** -/
theorem records_publishable {registration : DnsSdRegistration} {records : List DnsSdRecord}
    (httl : registration.ttl < 2 ^ 32) (h : registration.records goodbye = .ok records) :
    ∀ record ∈ records, Publishable (localRecord record) := by
  obtain ⟨-, -, h⟩ := of_bind h
  obtain ⟨browseOwner, hbrowse, h⟩ := of_bind h
  obtain ⟨instanceOwner, hinstance, h⟩ := of_bind h
  obtain ⟨hostOwner, hhost, h⟩ := of_bind h
  obtain ⟨txt, htxt, h⟩ := of_bind h
  obtain ⟨subtypes, hsubtypes, h⟩ := of_bind h
  cases h
  have hbrowse := isWireName_encodeLabels hbrowse
  have hinstance := isWireName_encodeLabels hinstance
  have hhost := isWireName_encodeLabels hhost
  have httl' : (if goodbye = true then 0 else max registration.ttl 1) < 2 ^ 32 := by
    split_ifs
    · decide
    · exact max_lt httl (by decide)
  have htxt' : txt.length ≤ 65535 := (length_txtRdata htxt).trans (by decide)
  intro record hrecord
  rw [mem_insertionSort, mem_append, mem_append] at hrecord
  rcases hrecord with (hrecord | hrecord) | hrecord
  · simp only [mem_cons, not_mem_nil, or_false] at hrecord
    rcases hrecord with rfl | rfl | rfl
    · exact publishable_ptr hbrowse hinstance httl'
    · exact publishable_srv hinstance hhost httl'
    · exact publishable_plain hinstance (by simp) httl' htxt'
  · obtain ⟨subtype, -, hsubtype⟩ := (mem_mapM_iff hsubtypes).mp hrecord
    obtain ⟨owner, howner, hsubtype⟩ := of_bind hsubtype
    cases hsubtype
    unfold encodeSubtypeOwner at howner
    split_ifs at howner
    exact publishable_ptr (isWireName_encodeLabels howner) hinstance httl'
  · obtain ⟨address, -, rfl⟩ := mem_map.mp hrecord
    exact publishable_address hhost (goodbyeTtl_lt goodbye) address

/-- Where a published record comes from: it points to a type of services, or it is a record of the
registration of a service on the interface. -/
inductive FromService (interface : MdnsInterface) (addresses : List IpAddr) (goodbye : Bool)
    (record : DnsSdRecord) : Prop
  | enumeration {owner browseOwner : Bytes} (howner : IsWireName owner)
      (hbrowse : IsWireName browseOwner)
      (h : record = enumerationRecord owner browseOwner goodbye interface)
  | registration {registration : DnsSdRegistration} {own : List DnsSdRecord}
      (httl : registration.ttl = dnsSdDefaultTtl) (haddresses : registration.addresses ⊆ addresses)
      (hinterface : registration.interface = interface)
      (hrecords : registration.records goodbye = .ok own) (h : record ∈ own)

section
variable {addresses : List IpAddr} {hostLabel : Text} {records : List DnsSdRecord} {system : System}

theorem fromService_of_template {template : ServiceTemplate}
    (h : template.records interface addresses hostLabel goodbye = .ok records) :
    ∀ record ∈ records, FromService interface addresses goodbye record := by
  obtain ⟨registration, hregistration, h⟩ := of_bind h
  obtain ⟨browseOwner, hbrowse, h⟩ := of_bind h
  obtain ⟨own, hown, h⟩ := of_bind h
  cases h
  obtain ⟨instanceName, -, hregistration⟩ := of_bind hregistration
  obtain ⟨host, -, hregistration⟩ := of_bind hregistration
  cases hregistration
  intro record hrecord
  rcases mem_cons.mp hrecord with rfl | hrecord
  · exact .enumeration isWireName_enumerationOwner (isWireName_encodeLabels hbrowse) rfl
  · exact .registration rfl (fun _ haddress => (mem_filter.mp haddress).1) rfl hown hrecord

theorem liftService_eq_ok {α : Type} {result : Except DnsSdError α} {value : α} :
    liftService result = .ok value ↔ result = .ok value := by
  cases result <;> simp [liftService]

theorem fromService_of_dynamic {service : DynamicService}
    (h : service.records system interface addresses hostLabel goodbye = .ok records) :
    ∀ record ∈ records, FromService interface addresses goodbye record := by
  unfold DynamicService.records at h
  split_ifs at h
  · cases h
    simp
  · obtain ⟨lists, hlists, h⟩ := of_bind h
    obtain ⟨registration, -, h⟩ := of_bind h
    obtain ⟨browseOwner, hbrowse, h⟩ := of_bind h
    cases h
    intro record hrecord
    rcases mem_cons.mp (mem_sortedSet.mp hrecord) with rfl | hrecord
    · refine .enumeration ⟨_, ⟨?_, ?_, ?_⟩, rfl⟩
        (isWireName_encodeLabels (liftService_eq_ok.mp hbrowse)) rfl
      all_goals decide
    · obtain ⟨list, hlist, hrecord⟩ := mem_flatten.mp hrecord
      obtain ⟨txt, -, htxt⟩ := (mem_mapM_iff hlists).mp hlist
      obtain ⟨registration, hregistration, hrecords⟩ := of_bind htxt
      obtain ⟨name, -, hregistration⟩ := of_bind hregistration
      obtain ⟨instanceName, -, hregistration⟩ := of_bind hregistration
      obtain ⟨host, -, hregistration⟩ := of_bind hregistration
      cases hregistration
      exact .registration rfl (Subset.refl _) rfl (liftService_eq_ok.mp hrecords) hrecord

theorem recordsFor_fromService {state : CatalogState}
    (h : state.recordsFor system interface addresses hostLabel goodbye = .ok records) :
    ∀ record ∈ records, FromService interface addresses goodbye record := by
  obtain ⟨configured, hconfigured, h⟩ := of_bind h
  obtain ⟨ofTemplates, hofTemplates, hconfigured⟩ := of_bind hconfigured
  obtain ⟨ofClients, hofClients, h⟩ := of_bind h
  cases hconfigured
  cases h
  intro record hrecord
  rcases mem_append.mp (mem_sortedSet.mp hrecord) with hrecord | hrecord
  · obtain ⟨list, hlist, hrecord⟩ := mem_flatten.mp (mem_sortedSet.mp hrecord)
    obtain ⟨template, -, htemplate⟩ := (mem_mapM_iff hofTemplates).mp hlist
    exact fromService_of_template htemplate record hrecord
  · obtain ⟨list, hlist, hrecord⟩ := mem_flatten.mp hrecord
    obtain ⟨service, -, hservice⟩ := (mem_mapM_iff hofClients).mp hlist
    exact fromService_of_dynamic (lowerService_eq_ok.mp hservice) record hrecord

theorem FromService.publishable {record : DnsSdRecord}
    (h : FromService interface addresses goodbye record) : Publishable (localRecord record) := by
  cases h with
  | enumeration howner hbrowse h =>
    cases h
    exact publishable_ptr howner hbrowse (goodbyeTtl_lt goodbye)
  | registration httl _ _ hrecords h =>
    exact records_publishable (httl ▸ goodbyeTtl_lt false) hrecords record h

/-- A record of an address in a registration is of one of its own, which are of its family. -/
theorem address_of_registration {registration : DnsSdRegistration} {record : DnsSdRecord}
    (h : registration.records goodbye = .ok records) (hrecord : record ∈ records)
    (htype : record.rrType = typeA ∨ record.rrType = typeAaaa) :
    ∃ owner, ∃ address ∈ registration.addresses,
      familyMatches registration.interface.family address = true ∧
      record = ⟨owner, (addressRdata address).1, classIn, if goodbye then
        0 else dnsSdAddressTtl, true, (addressRdata address).2, registration.interface⟩ := by
  obtain ⟨_, hvalid, h⟩ := of_bind h
  obtain ⟨browseOwner, -, h⟩ := of_bind h
  obtain ⟨instanceOwner, -, h⟩ := of_bind h
  obtain ⟨hostOwner, -, h⟩ := of_bind h
  obtain ⟨txt, -, h⟩ := of_bind h
  obtain ⟨subtypes, hsubtypes, h⟩ := of_bind h
  cases h
  have hother : ∀ rrType ∈ [typePtr, typeSrv, typeTxt], ¬(rrType = typeA ∨ rrType = typeAaaa) := by
    decide
  rw [mem_insertionSort, mem_append, mem_append] at hrecord
  rcases hrecord with (hrecord | hrecord) | hrecord
  · simp only [mem_cons, not_mem_nil, or_false] at hrecord
    rcases hrecord with rfl | rfl | rfl <;> exact absurd htype (hother _ (by simp))
  · obtain ⟨subtype, -, hsubtype⟩ := (mem_mapM_iff hsubtypes).mp hrecord
    obtain ⟨owner, -, hsubtype⟩ := of_bind hsubtype
    cases hsubtype
    exact absurd htype (hother _ (by simp))
  · obtain ⟨address, haddress, rfl⟩ := mem_map.mp hrecord
    refine ⟨hostOwner, address, haddress, ?_, rfl⟩
    rw [DnsSdRegistration.validate, if_neg registration.instanceName.ne_nil] at hvalid
    obtain ⟨_, -, hvalid⟩ := of_bind hvalid
    split_ifs at hvalid with _ hfamily
    by_contra hmismatch
    exact hfamily (any_eq_true.mpr ⟨address, haddress, by simpa using hmismatch⟩)

end

/-- **All records of an interface are well formed.** -/
theorem localRecords_publishable {services : Services} {name : NameState}
    {addresses : List IpAddr} :
    ∀ record ∈ localRecords services name interface addresses, Publishable record := by
  intro record hrecord
  rcases mem_append.mp (mem_sortedSet.mp hrecord) with hrecord | hrecord
  · obtain ⟨address, -, hrecord⟩ := mem_flatMap.mp hrecord
    have howner : IsWireName name.owner := isWireName_wireNameOf
    unfold Responder.addressRecords at hrecord
    split_ifs at hrecord
    · rcases mem_pair.mp hrecord with rfl | rfl
      · exact publishable_address howner (by decide) address
      · exact publishable_ptr isWireName_reverseOwner howner (by decide)
    · cases hrecord
  · split at hrecord
    · obtain ⟨published, hpublished, rfl⟩ := mem_map.mp hrecord
      exact (recordsFor_fromService ‹_› published hpublished).publishable
    · cases hrecord

/-- **The addresses of an interface are published as they are**: the records of addresses differ in
their owner and their data alone, and the data is an address of the interface. -/
theorem address_of_mem_localRecords {services : Services} {name : NameState}
    {addresses : List IpAddr} {record : LocalRecord}
    (hrecord : record ∈ localRecords services name interface addresses)
    (htype : record.rrType = typeA ∨ record.rrType = typeAaaa) :
    ∃ owner, ∃ address ∈ addresses, familyMatches interface.family address = true ∧
      record = ⟨owner, (addressRdata address).1, classIn, hostTtl, true,
        (addressRdata address).2⟩ := by
  have hptr : ¬(typePtr = typeA ∨ typePtr = typeAaaa) := by decide
  rcases mem_append.mp (mem_sortedSet.mp hrecord) with hrecord | hrecord
  · obtain ⟨address, haddress, hrecord⟩ := mem_flatMap.mp hrecord
    unfold Responder.addressRecords at hrecord
    split_ifs at hrecord with hfamily
    · rcases mem_pair.mp hrecord with rfl | rfl
      · exact ⟨_, address, haddress, hfamily, rfl⟩
      · exact absurd htype hptr
    · cases hrecord
  · split at hrecord
    · obtain ⟨published, hpublished, rfl⟩ := mem_map.mp hrecord
      cases recordsFor_fromService ‹_› published hpublished with
      | enumeration _ _ h =>
        cases h
        exact absurd htype hptr
      | registration _ haddresses hinterface hrecords h =>
        obtain ⟨owner, address, haddress, hfamily, rfl⟩ := address_of_registration hrecords h htype
        exact ⟨owner, address, haddresses haddress, hinterface ▸ hfamily, rfl⟩
    · cases hrecord

end RustdResolved.Mdns.Published
