import RustdResolved.Dnssd.Catalog
import RustdResolved.Edns.Opt
import RustdResolved.Lib.Saturate
import RustdResolved.Mdns.Messages

/-! # The multicast responder

The responder of `mdns_responder.rs`: the records of an interface, which are those of its addresses
and those of the published services, the answers to a query, and the search for conflicts with the
services of others. What is sent goes through `send`, and the catalog of services is a value that is
passed on. -/

namespace RustdResolved.Mdns.Responder

open List Lib Maps Result SortedSet Saturate Runs Wire Octets Name Presentation PacketHeader
open Wire.Redirects (IpAddr)
open Edns.Opt (fromUtf8Lossy)
open Names Cache Messages Dnssd Registration Catalog

variable {allRecords selected : List LocalRecord} {legacyUnicast : Bool} {message : ParsedMessage}
  {record : LocalRecord}

/-! ### Known answers -/

structure MdnsKnownAnswer where
  owner : Bytes
  rrType : Nat
  cls : Nat
  ttl : Nat
  rdata : Bytes
  deriving DecidableEq, Repr

def knownAnswerSuppresses (proposed known : MdnsKnownAnswer) : Bool :=
  match canonicalWireName proposed.owner, canonicalWireName known.owner with
  | .ok proposedOwner, .ok knownOwner =>
    proposedOwner == knownOwner && proposed.rrType == known.rrType &&
      proposed.cls &&& dnsClassMask == known.cls &&& dnsClassMask &&
      proposed.rdata == known.rdata &&
      proposed.ttl ≤ known.ttl * 2
  | _, _ => false

def LocalRecord.knownAnswer (record : LocalRecord) : MdnsKnownAnswer :=
  ⟨record.owner, record.rrType, record.cls, record.ttl, record.rdata⟩

def ParsedRecord.knownAnswer (record : ParsedRecord) : MdnsKnownAnswer :=
  ⟨record.owner, record.rrType, record.cls, record.ttl, record.rdata⟩

/-! ### The records of an interface -/

structure NameState where
  base : Text
  ordinal : Nat
  generation : UInt64

/-- `wire_name`: labels that are too long are cut, and a name that is too long is the root. -/
def wireNameOf (labels : List Bytes) : Bytes :=
  match canonicalWireName (wireName (labels.map fun label => lowercase (label.take 63))) with
  | .ok name => name
  | .error _ => [0]

namespace NameState

def label (name : NameState) : Text :=
  if name.ordinal = 1 then name.base
  else
    let suffix := '-' :: decimal name.ordinal
    let maximum := 63 - suffix.length
    fromUtf8Lossy ((asBytes name.base).take maximum) ++ suffix

def owner (name : NameState) : Bytes := wireNameOf [asBytes name.label, asBytes "local".toList]

end NameState

def reverseOwner : IpAddr → Bytes
  | .v4 octets =>
    wireNameOf (octets.toList.reverse.map (fun octet => asBytes (decimal octet.toNat)) ++
      [asBytes "in-addr".toList, asBytes "arpa".toList])
  | .v6 octets =>
    wireNameOf (octets.toList.reverse.flatMap (fun octet =>
      [asBytes [Nat.digitChar (octet.toNat % 16)], asBytes [Nat.digitChar (octet.toNat / 16)]]) ++
      [asBytes "ip6".toList, asBytes "arpa".toList])

def hostTtl : Nat := 120

def addressRecords (owner : Bytes) (family : MdnsAddressFamily) (address : IpAddr) :
    List LocalRecord :=
  if familyMatches family address then
    [⟨owner, (addressRdata address).1, classIn, hostTtl, true, (addressRdata address).2⟩,
      ⟨reverseOwner address, typePtr, classIn, hostTtl, true, owner⟩]
  else []

structure InterfaceState where
  interface : MdnsInterface
  addresses : List IpAddr
  established : Bool

/-- The services and what their names take from the system. -/
structure Services where
  catalog : CatalogState
  system : System

def localRecord (record : DnsSdRecord) : LocalRecord :=
  ⟨record.owner, record.rrType, record.cls, record.ttl, record.cacheFlush, record.rdata⟩

def localRecords (services : Services) (name : NameState) (interface : MdnsInterface)
    (addresses : List IpAddr) : List LocalRecord :=
  let hosts := addresses.flatMap (addressRecords name.owner interface.family)
  let published :=
    match services.catalog.recordsFor services.system interface addresses name.label false with
    | .ok records => records.map localRecord
    | .error _ => []
  sortedSet LocalRecord.sortKey (hosts ++ published)

def InterfaceState.records (state : InterfaceState) (services : Services) (name : NameState) :
    List LocalRecord :=
  localRecords services name state.interface state.addresses

/-! ### Answers to a query -/

def asksFor (question : ParsedQuestion) (record : LocalRecord) : Bool :=
  record.owner == question.owner && record.cls == question.cls &&
    (question.rrType == typeAny || question.rrType == record.rrType)

def knownAnswers (message : ParsedMessage) : List MdnsKnownAnswer :=
  (message.records.filter fun record => record.inSection == .answer).map ParsedRecord.knownAnswer

/-- Some known answer makes the record needless. -/
def suppressed (known : List MdnsKnownAnswer) (record : LocalRecord) : Bool :=
  known.any (knownAnswerSuppresses (LocalRecord.knownAnswer record))

/-- The records to send, as sets, and the questions that go back to a legacy client. -/
structure Selection where
  unicast : List LocalRecord
  multicast : List LocalRecord
  legacyQuestions : List Bytes

section
variable (allRecords : List LocalRecord)

/-- Adds what one question asks for. -/
def selectFor (known : List MdnsKnownAnswer) (legacyUnicast : Bool)
    (selection : Selection) (question : ParsedQuestion) : Selection :=
  let wanted := allRecords.filter (asksFor question)
  let legacyQuestions :=
    if legacyUnicast then selection.legacyQuestions ++ [question.raw] else selection.legacyQuestions
  if legacyUnicast || question.qu then
    ⟨wanted ∪ selection.unicast, selection.multicast, legacyQuestions⟩
  else
    ⟨selection.unicast, wanted.filter (fun record => !suppressed known record) ∪
      selection.multicast, legacyQuestions⟩

def select (message : ParsedMessage) (legacyUnicast : Bool) : Selection :=
  message.questions.foldl (selectFor allRecords (knownAnswers message) legacyUnicast) ⟨[], [], []⟩

/-- The records that go with a record: those of the target of a pointer or of a service. -/
def relatedTo (record : LocalRecord) : List LocalRecord :=
  if record.rrType = typePtr then
    allRecords.filter fun candidate => candidate.owner == record.rdata &&
      (candidate.rrType == typeSrv || candidate.rrType == typeTxt)
  else if record.rrType = typeSrv ∧ 7 ≤ record.rdata.length then
    allRecords.filter fun candidate => candidate.owner == record.rdata.drop 6 &&
      (candidate.rrType == typeA || candidate.rrType == typeAaaa)
  else []

/-- A round adds a record of the interface or is the last one, so there are no more rounds than
records. -/
def addRelatedRecords (selected : List LocalRecord) : List LocalRecord :=
  saturate (relatedTo allRecords) (allRecords.length + 1) selected

end

def inOrder (records : List LocalRecord) : List LocalRecord :=
  records.insertionSort fun a b => a.sortKey ≤ b.sortKey

inductive Destination
  | querier
  | group
  deriving DecidableEq, Repr

/-- A packet that was sent, and the records in it. -/
structure Transmission where
  destination : Destination
  records : List LocalRecord
  packet : Bytes
  deriving DecidableEq, Repr

/-- Sends a packet; a short send is an error. -/
def transmit (send : Destination → Bytes → Except IoError Nat) (destination : Destination)
    (records : List LocalRecord) (short : Text) (packet : Except IoError Bytes) :
    List Transmission × Except IoError Unit :=
  match packet with
  | .error error => ([], .error error)
  | .ok packet =>
    match send destination packet with
    | .error error => ([], .error error)
    | .ok length =>
      ([⟨destination, records, packet⟩],
        if length = packet.length then .ok () else .error (.writeZero short))

/-- What goes to the querier. -/
def sendUnicast (send : Destination → Bytes → Except IoError Nat) (id : Nat)
    (questions : List Bytes) (records : List LocalRecord) (legacyUnicast : Bool) :
    List Transmission × Except IoError Unit :=
  if records = [] then ([], .ok ())
  else transmit send .querier records "short unicast mDNS response".toList
    (responsePacket (if legacyUnicast then id else 0) questions records legacyUnicast)

/-- What goes to the group. -/
def sendMulticast (send : Destination → Bytes → Except IoError Nat) (records : List LocalRecord) :
    List Transmission × Except IoError Unit :=
  if records = [] then ([], .ok ())
  else transmit send .group records "short mDNS send".toList (responsePacket 0 [] records false)

/-- The packets that go out for a query, and how it ended. -/
def answerQuery (send : Destination → Bytes → Except IoError Nat) (allRecords : List LocalRecord)
    (message : ParsedMessage) (legacyUnicast : Bool) : List Transmission × Except IoError Unit :=
  let selection := select allRecords message legacyUnicast
  let unicast := inOrder (addRelatedRecords allRecords selection.unicast)
  let multicast := inOrder (addRelatedRecords allRecords selection.multicast)
  match sendUnicast send message.id selection.legacyQuestions unicast legacyUnicast with
  | (sent, .error error) => (sent, .error error)
  | (sent, .ok ()) =>
    let second := sendMulticast send multicast
    (sent ++ second.1, second.2)

/-! ### Conflicts of services -/

inductive MdnsMessageKind
  | query
  | response
  deriving DecidableEq, Repr

def ourData (ours : List LocalRecord) (owner : Bytes) (rrType : Nat) : List Bytes :=
  (ours.filter fun record => record.owner == owner && record.rrType == rrType &&
    record.cls == classIn).map LocalRecord.rdata

/-- The data of the records of a message; those of a query count if they are proposed in a probe. -/
def theirData (message : ParsedMessage) (kind : MdnsMessageKind) (owner : Bytes) (rrType : Nat) :
    List Bytes :=
  (message.records.filter fun record => record.owner == owner && record.rrType == rrType &&
    record.cls == classIn && (kind == .response || record.inSection == .authority)).map
      ParsedRecord.rdata

def setsEqual (left right : List Bytes) : Bool :=
  left.insertionSort (· ≤ ·) == right.insertionSort (· ≤ ·)

inductive MdnsTieBreak
  | weWin
  | weLose
  | equal
  deriving DecidableEq, Repr

def probeTieBreak (ours theirs : List Bytes) : MdnsTieBreak :=
  let ours := ours.insertionSort (· ≤ ·)
  let theirs := theirs.insertionSort (· ≤ ·)
  if theirs < ours then .weWin else if ours < theirs then .weLose else .equal

/-- The data of a message differs from ours. -/
def seesConflict (ours : List LocalRecord) (message : ParsedMessage) (kind : MdnsMessageKind)
    (owner : Bytes) (rrType : Nat) : Bool :=
  let our := ourData ours owner rrType
  let their := theirData message kind owner rrType
  !our.isEmpty && !their.isEmpty && !setsEqual our their

/-- A conflict that is ours to solve: while probing, only one with a probe that beats ours. -/
def mustRename (established : Bool) (ours : List LocalRecord) (message : ParsedMessage)
    (kind : MdnsMessageKind) (conflict : Bytes × Nat) : Bool :=
  seesConflict ours message kind conflict.1 conflict.2 &&
    (established || kind == .response ||
      probeTieBreak (ourData ours conflict.1 conflict.2)
        (theirData message kind conflict.1 conflict.2) == .weLose)

/-- Renames for one conflict after the other, until one is solved. -/
def renameFirst (services : Services) (state : InterfaceState) (name : NameState) :
    List (Bytes × Nat) → Bool × CatalogState
  | [] => (false, services.catalog)
  | (owner, rrType) :: conflicts =>
    match services.catalog.renameConflictingOwner services.system owner rrType state.interface
      state.addresses name.label with
    | .ok (some _, catalog) => (true, catalog)
    | .ok (none, _) | .error _ => renameFirst services state name conflicts

/-- Whether a conflict was solved by a new name, and the services after that. -/
def detectServiceConflict (services : Services) (state : InterfaceState) (name : NameState)
    (message : ParsedMessage) (kind : MdnsMessageKind) : Bool × CatalogState :=
  match services.catalog.instanceOwners services.system state.interface state.addresses
    name.label with
  | .error _ => (false, services.catalog)
  | .ok owners =>
    let ours := state.records services name
    let pairs := (sortedSet id owners.keys).flatMap fun owner =>
      [(owner, typeSrv), (owner, typeTxt)]
    renameFirst services state name (pairs.filter (mustRename state.established ours message kind))

/-! ### What is selected -/

/-- Records go to the querier for a question that wants a unicast answer. -/
theorem mem_select_unicast : record ∈ (select allRecords message legacyUnicast).unicast ↔
    ∃ question ∈ message.questions, (legacyUnicast || question.qu) = true ∧ record ∈ allRecords ∧
      asksFor question record := by
  have hrun := run_adds (selectFor allRecords (knownAnswers message) legacyUnicast)
    (fun selection => record ∈ selection.unicast)
    (fun question => (legacyUnicast || question.qu) = true ∧ record ∈ allRecords ∧
      asksFor question record) ?_ message.questions ⟨[], [], []⟩
  · simpa [select, run] using hrun
  · intro selection question
    unfold selectFor
    dsimp only
    split_ifs with hunicast
    all_goals simp [hunicast]

/-- Records go to the group for the other questions, if no known answer makes them needless. -/
theorem mem_select_multicast : record ∈ (select allRecords message legacyUnicast).multicast ↔
    ∃ question ∈ message.questions, (legacyUnicast || question.qu) = false ∧ record ∈ allRecords ∧
      asksFor question record ∧ suppressed (knownAnswers message) record = false := by
  have hrun := run_adds (selectFor allRecords (knownAnswers message) legacyUnicast)
    (fun selection => record ∈ selection.multicast)
    (fun question => (legacyUnicast || question.qu) = false ∧ record ∈ allRecords ∧
      asksFor question record ∧ suppressed (knownAnswers message) record = false)
    ?_ message.questions ⟨[], [], []⟩
  · simpa [select, run] using hrun
  · intro selection question
    unfold selectFor
    dsimp only
    split_ifs with hunicast
    all_goals simp [hunicast, and_comm]

theorem relatedTo_subset (record : LocalRecord) : relatedTo allRecords record ⊆ allRecords := by
  unfold relatedTo
  split_ifs
  · exact filter_subset_self _
  · exact filter_subset_self _
  · exact nil_subset _

theorem mem_addRelatedRecords :
    record ∈ addRelatedRecords allRecords selected ↔
      ∃ first ∈ selected, Reaches (relatedTo allRecords) first record :=
  mem_saturate relatedTo_subset (Nat.lt_succ_self _)

/-- The record is put into a reply to the query. -/
def Chosen (allRecords : List LocalRecord) (message : ParsedMessage) (legacyUnicast : Bool)
    (record : LocalRecord) : Prop :=
  record ∈ addRelatedRecords allRecords (select allRecords message legacyUnicast).unicast ∨
    record ∈ addRelatedRecords allRecords (select allRecords message legacyUnicast).multicast

/-- The question selects the record by itself. -/
def Selects (message : ParsedMessage) (legacyUnicast : Bool) (question : ParsedQuestion)
    (record : LocalRecord) : Prop :=
  asksFor question record ∧
    (legacyUnicast = true ∨ question.qu = true ∨ suppressed (knownAnswers message) record = false)

/-- A record is put into a reply if some question selects it or one it goes with. -/
theorem chosen_iff : Chosen allRecords message legacyUnicast record ↔
    ∃ question ∈ message.questions, ∃ first ∈ allRecords,
    Selects message legacyUnicast question first ∧
      Reaches (relatedTo allRecords) first record := by
  unfold Chosen Selects
  simp only [mem_addRelatedRecords, mem_select_unicast, mem_select_multicast]
  constructor
  · rintro (⟨first, ⟨question, hquestion, hunicast, hall, hasks⟩, hreach⟩ |
      ⟨first, ⟨question, hquestion, -, hall, hasks, hknown⟩, hreach⟩)
    · refine ⟨question, hquestion, first, hall, ⟨hasks, ?_⟩, hreach⟩
      rcases Bool.or_eq_true_iff.mp hunicast with h | h
      · exact Or.inl h
      · exact Or.inr (Or.inl h)
    · exact ⟨question, hquestion, first, hall, ⟨hasks, Or.inr (Or.inr hknown)⟩, hreach⟩
  · rintro ⟨question, hquestion, first, hall, ⟨hasks, hselects⟩, hreach⟩
    cases hunicast : legacyUnicast || question.qu with
    | true => exact Or.inl ⟨first, ⟨question, hquestion, hunicast, hall, hasks⟩, hreach⟩
    | false =>
      have hnot := Bool.or_eq_false_iff.mp hunicast
      have hknown : suppressed (knownAnswers message) first = false := by
        simpa [hnot.1, hnot.2] using hselects
      exact Or.inr ⟨first, ⟨question, hquestion, hunicast, hall, hasks, hknown⟩, hreach⟩

/-! ### Conflicts that are solved -/

/-- **A conflict is solved if there is one that is ours to solve.** -/
theorem detectServiceConflict_iff {services : Services} {state : InterfaceState} {name : NameState}
    {owners : FiniteMap Bytes Text} {kind : MdnsMessageKind}
    (howners : services.catalog.instanceOwners services.system state.interface state.addresses
      name.label = .ok owners) :
    (detectServiceConflict services state name message kind).1 = true ↔
      ∃ owner ∈ owners, ∃ rrType ∈ [typeSrv, typeTxt],
        mustRename state.established (state.records services name) message kind
          (owner, rrType) = true := by
  unfold detectServiceConflict
  rw [howners]
  -- the search stops at the first conflict, as the service of its owner is found
  have hfirst : ∀ conflicts : List (Bytes × Nat), (∀ conflict ∈ conflicts, conflict.1 ∈ owners ∧
      (conflict.2 = typeSrv ∨ conflict.2 = typeTxt)) →
      ((renameFirst services state name conflicts).1 = true ↔ conflicts ≠ []) := by
    rintro (_ | ⟨conflict, conflicts⟩) h
    · simp [renameFirst]
    · obtain ⟨hmem, htype⟩ := h conflict (by simp)
      obtain ⟨id, next, hrename⟩ := CatalogState.renameConflictingOwner_of_mem howners hmem htype
      simp [renameFirst, hrename]
  rw [hfirst]
  · simp only [ne_eq, filter_eq_nil_iff, not_forall, not_not, mem_flatMap, mem_sortedSet,
      AList.mem_keys]
    constructor
    · rintro ⟨conflict, ⟨owner, howner, hconflict⟩, hrename⟩
      rcases mem_pair.mp hconflict with rfl | rfl
      · exact ⟨owner, howner, typeSrv, by simp, hrename⟩
      · exact ⟨owner, howner, typeTxt, by simp, hrename⟩
    · rintro ⟨owner, howner, rrType, htype, hrename⟩
      refine ⟨(owner, rrType), ⟨owner, howner, ?_⟩, hrename⟩
      rcases mem_pair.mp htype with rfl | rfl
      · simp
      · simp
  · intro conflict hconflict
    obtain ⟨owner, howner, hpair⟩ := mem_flatMap.mp (mem_filter.mp hconflict).1
    have hmem : owner ∈ owners := AList.mem_keys.mpr (mem_sortedSet.mp howner)
    rcases mem_pair.mp hpair with rfl | rfl
    · exact ⟨hmem, Or.inl rfl⟩
    · exact ⟨hmem, Or.inr rfl⟩

/-! ### What is sent -/

variable {send : Destination → Bytes → Except IoError Nat} {sent : Transmission}

theorem records_of_mem_transmit {destination : Destination} {records : List LocalRecord}
    {short : Text} {packet : Except IoError Bytes}
    (h : sent ∈ (transmit send destination records short packet).1) : sent.records = records := by
  unfold transmit at h
  split at h
  · cases h
  · split at h
    · cases h
    · rw [mem_singleton.mp h]

theorem records_of_mem_sendMulticast {records : List LocalRecord}
    (h : sent ∈ (sendMulticast send records).1) : sent.records = records := by
  unfold sendMulticast at h
  split_ifs at h
  · cases h
  · exact records_of_mem_transmit h

theorem mem_inOrder {records : List LocalRecord} :
    record ∈ inOrder records ↔ record ∈ records := mem_insertionSort _

theorem chosen_of_sent (hsent : sent ∈ (answerQuery send allRecords message legacyUnicast).1)
    (hrecord : record ∈ sent.records) : Chosen allRecords message legacyUnicast record := by
  unfold answerQuery at hsent
  dsimp only at hsent
  generalize hfirst : sendUnicast send message.id _ _ legacyUnicast = first at hsent
  have hunicast : sent ∈ first.1 → Chosen allRecords message legacyUnicast record := by
    intro h
    rw [← hfirst] at h
    unfold sendUnicast at h
    split at h
    · cases h
    · rw [records_of_mem_transmit h] at hrecord
      exact Or.inl (mem_inOrder.mp hrecord)
  split at hsent
  · exact hunicast hsent
  · rcases mem_append.mp hsent with hsent | hsent
    · exact hunicast hsent
    · rw [records_of_mem_sendMulticast hsent] at hrecord
      exact Or.inr (mem_inOrder.mp hrecord)

theorem nodup_select_multicast : (select allRecords message legacyUnicast).multicast.Nodup := by
  refine run_preserves (fun selection : Selection => selection.multicast.Nodup) ?_ message.questions
    ⟨[], [], []⟩ nodup_nil
  intro selection question h
  unfold selectFor
  split_ifs
  all_goals first | exact h | exact List.Nodup.union _ h

theorem select_multicast_subset :
    (select allRecords message legacyUnicast).multicast ⊆ allRecords := by
  intro record hrecord
  obtain ⟨-, -, -, hall, -⟩ := mem_select_multicast.mp hrecord
  exact hall

theorem addRelatedRecords_subset (h : selected ⊆ allRecords) :
    addRelatedRecords allRecords selected ⊆ allRecords := by
  intro record hrecord
  obtain ⟨first, hfirst, hreach⟩ := mem_addRelatedRecords.mp hrecord
  rcases hreach.cases_tail with rfl | ⟨_, -, hlast⟩
  · exact h hfirst
  · exact relatedTo_subset _ hlast

/-- A response can be written if its records are not too many and not too long. -/
theorem responsePacket_writable {records : List LocalRecord} (hcount : records.length ≤ 65535)
    (hshort : ∀ record ∈ records, record.rdata.length ≤ 65535) :
    ∃ packet, responsePacket 0 [] records false = .ok packet := by
  obtain ⟨written, hwritten⟩ :
      ∃ written, records.mapM (fun record => appendRecord record (!false) none) =
      .ok written := by
    refine exists_mapM_ok_iff.mpr fun record hrecord => ?_
    rw [appendRecord, if_neg (Nat.not_lt.mpr (hshort record hrecord))]
    exact ⟨_, rfl⟩
  rw [responsePacket, if_neg (by simp), if_neg (Nat.not_lt.mpr hcount), hwritten]
  exact ⟨_, rfl⟩

/-- If nothing goes to the querier and all is sent as it is written, the records chosen for the
group are sent. -/
theorem sent_of_multicast (hunicast : (select allRecords message legacyUnicast).unicast = [])
    (hcount : allRecords.length ≤ 65535)
    (hshort : ∀ record ∈ allRecords, record.rdata.length ≤ 65535)
    (h : record ∈ addRelatedRecords allRecords
      (select allRecords message legacyUnicast).multicast) :
    ∃ sent ∈ (answerQuery (fun _ packet => .ok packet.length) allRecords message legacyUnicast).1,
      record ∈ sent.records := by
  have hnone : inOrder (addRelatedRecords allRecords []) = [] := rfl
  have hmem := mem_inOrder.mpr h
  generalize hreply : inOrder (addRelatedRecords allRecords
    (select allRecords message legacyUnicast).multicast) = reply at hmem
  obtain ⟨packet, hpacket⟩ : ∃ packet, responsePacket 0 [] reply false = .ok packet := by
    refine responsePacket_writable ?_ fun other hother => hshort other ?_
    · rw [← hreply, inOrder, length_insertionSort]
      -- a reply has no record twice, and only records that the interface has
      exact (subperm_of_subset (nodup_saturate nodup_select_multicast)
        (addRelatedRecords_subset select_multicast_subset)).length_le.trans hcount
    · rw [← hreply] at hother
      exact addRelatedRecords_subset select_multicast_subset (mem_inOrder.mp hother)
  refine ⟨⟨.group, reply, packet⟩, ?_, hmem⟩
  simp only [answerQuery, hunicast, hnone, sendUnicast, if_true, nil_append, hreply, sendMulticast,
    if_neg (ne_nil_of_mem hmem), hpacket, transmit]
  exact mem_singleton_self _

end RustdResolved.Mdns.Responder
