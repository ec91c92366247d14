import RustdResolved.Mdns.Responder

/-! # Names of services in upper case

Names that are read from a packet are in lower case, and the names of services keep the case of
their labels; the responder compares them octet by octet. So a record is found by its name in any
case just if the name it has here is in lower case, and the same goes for the conflicts of a
service. -/

namespace RustdResolved.Mdns.CaseFolding

open Lib.Saturate Wire Octets Name Presentation PacketHeader Messages Responder Dnssd.Registration

variable {message : ParsedMessage} {owner packet : Bytes} {record : LocalRecord}
  {kind : MdnsMessageKind} {rrType : Nat}

/-! ### What is to be found -/

def AsksUpToCase (question : ParsedQuestion) (record : LocalRecord) : Prop :=
  lowercase question.owner = lowercase record.owner ∧ record.cls = question.cls ∧
    (question.rrType = typeAny ∨ question.rrType = record.rrType)

/-- Some question asks for the record, in any case, and wants it sent. -/
def Wanted (message : ParsedMessage) (legacyUnicast : Bool) (record : LocalRecord) : Prop :=
  ∃ question ∈ message.questions, AsksUpToCase question record ∧
    (legacyUnicast = true ∨ question.qu = true ∨ suppressed (knownAnswers message) record = false)

/-- A record of a message with data that ours of the type do not have, at an owner in any case. -/
structure Rival (ours : List LocalRecord) (kind : MdnsMessageKind) (owner : Bytes) (rrType : Nat)
    (record : ParsedRecord) : Prop where
  sameOwner : lowercase record.owner = lowercase owner
  sameType : record.rrType = rrType
  internet : record.cls = classIn
  proposed : kind = .response ∨ record.inSection = .authority
  published : ourData ours owner rrType ≠ []
  different : record.rdata ∉ ourData ours owner rrType

/-- The conflict is seen, and solved if it is ours to solve. -/
def Sees (services : Services) (state : InterfaceState) (name : NameState) (message : ParsedMessage)
    (kind : MdnsMessageKind) (owner : Bytes) (rrType : Nat) : Prop :=
  seesConflict (state.records services name) message kind owner rrType = true ∧
    (mustRename state.established (state.records services name) message kind
        (owner, rrType) = true →
      (detectServiceConflict services state name message kind).1 = true)

/-- **The responder does not mind the case of names**: it answers with every record that is asked
for, and sees every conflict at one of its instance owners. -/
structure CaseInsensitive (services : Services) (state : InterfaceState) (name : NameState)
    (message : ParsedMessage) (legacyUnicast : Bool) (kind : MdnsMessageKind) : Prop where
  answers : ∀ record ∈ state.records services name, Wanted message legacyUnicast record →
    Chosen (state.records services name) message legacyUnicast record
  conflicts : ∀ owners, services.catalog.instanceOwners services.system state.interface
    state.addresses
      name.label = .ok owners → ∀ owner ∈ owners, ∀ rrType ∈ [typeSrv, typeTxt],
    ∀ record ∈ message.records, Rival (state.records services name) kind owner rrType record →
      Sees services state name message kind owner rrType

/-- The names that matter are in lower case: a record that is asked for has such an owner or goes
with one that has, and so has an instance with a conflict. -/
structure InLowerCase (services : Services) (state : InterfaceState) (name : NameState)
    (message : ParsedMessage) (legacyUnicast : Bool) (kind : MdnsMessageKind) : Prop where
  answers : ∀ record ∈ state.records services name, Wanted message legacyUnicast record →
    ∃ first ∈ state.records services name, Wanted message legacyUnicast first ∧
      lowercase first.owner = first.owner ∧
      Reaches (relatedTo (state.records services name)) first record
  conflicts : ∀ owners, services.catalog.instanceOwners services.system state.interface
    state.addresses
      name.label = .ok owners → ∀ owner ∈ owners, ∀ rrType ∈ [typeSrv, typeTxt],
    ∀ record ∈ message.records, Rival (state.records services name) kind owner rrType record →
      lowercase owner = owner

/-! ### What is found -/

theorem asksFor_iff_upToCase {question : ParsedQuestion}
    (h : lowercase question.owner = question.owner) :
    asksFor question record = true ↔
      AsksUpToCase question record ∧ lowercase record.owner = record.owner := by
  simp only [asksFor, AsksUpToCase, h, Bool.and_eq_true, Bool.or_eq_true, beq_iff_eq, and_assoc]
  constructor
  · rintro ⟨howner, hclass, htype⟩
    rw [howner, h]
    exact ⟨rfl, hclass, htype, rfl⟩
  · rintro ⟨howner, hclass, htype, hlower⟩
    exact ⟨by rw [← hlower, howner], hclass, htype⟩

/-- The records in the replies are those that go with one that is wanted and has its owner in lower
case. -/
theorem chosen_iff_wanted {legacyUnicast : Bool} {allRecords : List LocalRecord}
    (hparse : parseMessage packet = .ok message) :
    Chosen allRecords message legacyUnicast record ↔
      ∃ first ∈ allRecords, Wanted message legacyUnicast first ∧
      lowercase first.owner = first.owner ∧
        Reaches (relatedTo allRecords) first record := by
  have hquestions : ∀ question ∈ message.questions, lowercase question.owner = question.owner :=
    fun question hquestion =>
      lowercase_of_isCanonical ((parseMessage_canonical hparse).1 question hquestion)
  rw [chosen_iff]
  constructor
  · rintro ⟨question, hquestion, first, hfirst, ⟨hasks, hselects⟩, hreach⟩
    obtain ⟨hasks, hlower⟩ := (asksFor_iff_upToCase (hquestions question hquestion)).mp hasks
    exact ⟨first, hfirst, ⟨question, hquestion, hasks, hselects⟩, hlower, hreach⟩
  · rintro ⟨first, hfirst, ⟨question, hquestion, hasks, hselects⟩, hlower, hreach⟩
    have hasks' := (asksFor_iff_upToCase (hquestions question hquestion)).mpr ⟨hasks, hlower⟩
    exact ⟨question, hquestion, first, hfirst, ⟨hasks', hselects⟩, hreach⟩

/-! ### Conflicts that are seen -/

theorem mem_theirData {rdata : Bytes} :
    rdata ∈ theirData message kind owner rrType ↔
      ∃ record ∈ message.records, (record.owner = owner ∧ record.rrType = rrType ∧
        record.cls = classIn ∧ (kind = .response ∨ record.inSection = .authority)) ∧
        record.rdata = rdata := by
  simp [theirData, and_assoc]

theorem not_setsEqual {left right : List Bytes} {data : Bytes} (hleft : data ∉ left)
    (hright : data ∈ right) : setsEqual left right = false := by
  rw [setsEqual, beq_eq_false_iff_ne]
  intro h
  have hmem := (List.mem_insertionSort (· ≤ ·)).mpr hright
  rw [← h] at hmem
  exact hleft ((List.mem_insertionSort (· ≤ ·)).mp hmem)

/-- A conflict with a rival is seen just if the owner is in lower case. -/
theorem seesConflict_iff {ours : List LocalRecord}
    {record : ParsedRecord} (hparse : parseMessage packet = .ok message)
    (hrecord : record ∈ message.records) (h : Rival ours kind owner rrType record) :
    seesConflict ours message kind owner rrType = true ↔ lowercase owner = owner := by
  have hlower : ∀ record ∈ message.records, lowercase record.owner = record.owner :=
    fun record hrecord =>
    lowercase_of_isCanonical ((parseMessage_canonical hparse).2 record hrecord).1
  constructor
  · intro hsees
    obtain ⟨⟨-, hsome⟩, -⟩ : (_ ∧ theirData message kind owner rrType ≠ []) ∧ _ := by
      simpa [seesConflict] using hsees
    obtain ⟨data, hdata⟩ := List.exists_mem_of_ne_nil _ hsome
    obtain ⟨other, hother, ⟨rfl, -⟩, -⟩ := mem_theirData.mp hdata
    exact hlower other hother
  · intro howner
    have hsame : record.owner = owner := by rw [← hlower record hrecord, h.sameOwner, howner]
    have hmem :=
      mem_theirData.mpr ⟨record, hrecord, ⟨hsame, h.sameType, h.internet, h.proposed⟩, rfl⟩
    simp [seesConflict, h.published, List.ne_nil_of_mem hmem, not_setsEqual h.different hmem]

/-- **Names in upper case are not found**: the responder does not mind the case of names just if
those that matter are in lower case. -/
theorem caseInsensitive_iff (services : Services) (state : InterfaceState) (name : NameState)
    (packet : Bytes) (message : ParsedMessage) (legacyUnicast : Bool) (kind : MdnsMessageKind)
    (hparse : parseMessage packet = .ok message) :
    CaseInsensitive services state name message legacyUnicast kind ↔
      InLowerCase services state name message legacyUnicast kind := by
  constructor
  · rintro ⟨hanswers, hconflicts⟩
    refine ⟨fun record hrecord hwanted => ?_, ?_⟩
    · exact (chosen_iff_wanted hparse).mp (hanswers record hrecord hwanted)
    · intro owners howners owner howner rrType htype record hrecord hrival
      have hsees := hconflicts owners howners owner howner rrType htype record hrecord hrival
      exact (seesConflict_iff hparse hrecord hrival).mp hsees.1
  · rintro ⟨hanswers, hconflicts⟩
    refine ⟨fun record hrecord hwanted => ?_, ?_⟩
    · exact (chosen_iff_wanted hparse).mpr (hanswers record hrecord hwanted)
    · intro owners howners owner howner rrType htype record hrecord hrival
      have hlower := hconflicts owners howners owner howner rrType htype record hrecord hrival
      refine ⟨(seesConflict_iff hparse hrecord hrival).mpr hlower, fun hrename => ?_⟩
      exact (detectServiceConflict_iff howners).mpr ⟨owner, howner, rrType, htype, hrename⟩

/-! ### A printer -/

/-- A system of which nothing is known. -/
def plainSystem : Dnssd.Catalog.System := ⟨[], [], [], [], [], [], [], []⟩

/-- A service of the configuration. -/
def printing (instanceName : DnsSdInstance) : Services where
  catalog :=
    ⟨⟨[("printing".toList,
      ⟨"printing".toList, instanceName, 1, ⟨"_ipp".toList, "_tcp".toList⟩, 631, 0, 0, [], []⟩)],
      1⟩, [], 1, []⟩
  system := plainSystem

def upperPrinter : Services := printing ⟨asBytes "Printer".toList, by decide, by decide, by decide⟩

def lowerPrinter : Services := printing ⟨asBytes "printer".toList, by decide, by decide, by decide⟩

def onEthernet : InterfaceState := ⟨⟨2, .ipv4⟩, [], true⟩

def hostName : NameState := ⟨"host".toList, 1, 1⟩

def printerOwner (label : String) : Bytes :=
  wireName ([label, "_ipp", "_tcp", "local"].map fun label => asBytes label.toList)

/-- A probe of another host for the name, with the data it wants to publish. -/
def printerProbe : Bytes :=
  dnsHeader 0 0 1 0 1 0 ++ printerOwner "PRINTER" ++ u16ToBeBytes typeAny ++ u16ToBeBytes classIn ++
    printerOwner "PRINTER" ++ u16ToBeBytes typeTxt ++ u16ToBeBytes classIn ++ u32ToBeBytes 120 ++
    u16ToBeBytes 2 ++ [1, 65]

/-- The probe as it is read. -/
def printerMessage : ParsedMessage :=
  ⟨0, [⟨printerOwner "printer", typeAny, classIn, false,
      printerOwner "PRINTER" ++ u16ToBeBytes typeAny ++ u16ToBeBytes classIn⟩],
    [⟨printerOwner "printer", typeTxt, classIn, 120, [1, 65], .authority⟩]⟩

def ownerKeys (services : Services) : Option (List Bytes) :=
  (services.catalog.instanceOwners services.system onEthernet.interface onEthernet.addresses
    hostName.label).toOption.map AList.keys

theorem exists_owners {services : Services} {keys : List Bytes}
    (hkeys : ownerKeys services = some keys) :
    ∃ owners, services.catalog.instanceOwners services.system onEthernet.interface
      onEthernet.addresses
      hostName.label = .ok owners ∧ ∀ owner, owner ∈ owners ↔ owner ∈ keys := by
  unfold ownerKeys at hkeys
  cases h : services.catalog.instanceOwners services.system onEthernet.interface
    onEthernet.addresses
    hostName.label with
  | ok owners =>
    rw [h] at hkeys
    exact ⟨owners, rfl, fun owner => by rw [AList.mem_keys, ← Option.some.inj hkeys]⟩
  | error error =>
    rw [h] at hkeys
    cases hkeys

/-- A printer whose name has a capital does not answer for it and does not see that another host
takes it. -/
theorem printer_with_a_capital :
    parseMessage printerProbe = .ok printerMessage ∧
      (answerQuery (fun _ packet => .ok packet.length) (onEthernet.records upperPrinter hostName)
        printerMessage false).1 = [] ∧
      (detectServiceConflict upperPrinter onEthernet hostName printerMessage .query).1 = false ∧
      (¬∀ record ∈ onEthernet.records upperPrinter hostName, Wanted printerMessage false record →
        Chosen (onEthernet.records upperPrinter hostName) printerMessage false record) ∧
      ¬∀ owners, upperPrinter.catalog.instanceOwners upperPrinter.system onEthernet.interface
          onEthernet.addresses hostName.label = .ok owners → ∀ owner ∈ owners,
        ∀ rrType ∈ [typeSrv, typeTxt], ∀ record ∈ printerMessage.records,
          Rival (onEthernet.records upperPrinter hostName) .query owner rrType record →
            Sees upperPrinter onEthernet hostName printerMessage .query owner rrType := by
  refine ⟨by decide +kernel, by decide +kernel, by decide +kernel, ?_, ?_⟩
  · intro h
    have hchosen := h ⟨printerOwner "Printer", typeTxt, classIn, 120, true, [0]⟩ (by decide)
      ⟨_, List.mem_singleton_self _, ⟨by decide, rfl, Or.inl rfl⟩, Or.inr (Or.inr rfl)⟩
    revert hchosen
    unfold Chosen
    decide
  · intro h
    have hkeys : ownerKeys upperPrinter = some [printerOwner "Printer"] := by decide
    obtain ⟨owners, howners, hmem⟩ := exists_owners hkeys
    have hsees := h owners howners (printerOwner "Printer") ((hmem _).mpr (by simp)) typeTxt
      (by decide) _ (List.mem_singleton_self _)
      ⟨by decide, rfl, rfl, Or.inr rfl, by decide, by decide⟩
    have hunseen : seesConflict (onEthernet.records upperPrinter hostName) printerMessage .query
        (printerOwner "Printer") typeTxt = false := by decide
    exact absurd hsees.1 (Bool.eq_false_iff.mp hunseen)

theorem caseInsensitive_lowerPrinter :
    CaseInsensitive lowerPrinter onEthernet hostName printerMessage false .query := by
  have hparse : parseMessage printerProbe = .ok printerMessage := by decide +kernel
  have hlower : ∀ record ∈ onEthernet.records lowerPrinter hostName,
      lowercase record.owner = record.owner := by decide
  have hkeys : ownerKeys lowerPrinter = some [printerOwner "printer"] := by decide
  refine (caseInsensitive_iff lowerPrinter onEthernet hostName printerProbe
    printerMessage false .query
    hparse).mpr ⟨?_, ?_⟩
  · intro record hrecord hwanted
    exact ⟨record, hrecord, hwanted, hlower record hrecord, .refl⟩
  · intro owners howners owner howner _ _ _ _ _
    obtain ⟨_, howners', hmem⟩ := exists_owners hkeys
    cases howners'.symm.trans howners
    obtain rfl := List.mem_singleton.mp ((hmem owner).mp howner)
    decide

end RustdResolved.Mdns.CaseFolding
