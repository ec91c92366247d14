import RustdResolved.Mdns.CaseFolding
import RustdResolved.Mdns.Published

/-! # Conflicts with the name of the host

The responder gives up its name when another host has other addresses for it. It compares the lists
of addresses as a whole: a message that has some of our own addresses, or one of them twice, or that
takes one back, is taken for a conflict too. -/

namespace RustdResolved.Mdns.SelfConflict

open List Lib.SortedSet Wire Octets PacketHeader Cache Messages Responder Dnssd.Registration
open Wire.Redirects (IpAddr)
open CaseFolding (hostName plainSystem mem_theirData)

section
variable (services : Services) (state : InterfaceState) (name : NameState)

def uniqueRecords : List LocalRecord :=
  (state.records services name).filter LocalRecord.cacheFlush

def hostData (rrType : Nat) : List Bytes :=
  ((uniqueRecords services state name).filter fun record =>
    record.owner == name.owner && record.rrType == rrType).map LocalRecord.rdata

/-- The first of the types with other data than ours decides. -/
def conflictIn (message : ParsedMessage) (kind : MdnsMessageKind) : List Nat → Bool
  | [] => false
  | rrType :: rrTypes =>
    let our := hostData services state name rrType
    let their := theirData message kind name.owner rrType
    if our.isEmpty then conflictIn message kind rrTypes
    else if their.isEmpty || setsEqual our their then
      conflictIn message kind rrTypes
    else if !state.established && kind == .query then probeTieBreak our their == .weLose
    else true

def detectConflict (message : ParsedMessage) (kind : MdnsMessageKind) : Bool :=
  conflictIn services state name message kind [typeA, typeAaaa]

end

/-- What the responder does about a message. -/
inductive ConflictAction
  | proceed
  | defend
  | rename
  deriving DecidableEq, Repr

/-- Ten seconds, in nanoseconds. -/
def defenseWindow : Nat := 10 * 10 ^ 9

/-- A host that has its name defends it with an announcement, but not twice within the window;
`sinceDefense` is the time since the last one. -/
def conflictAction (services : Services) (state : InterfaceState) (name : NameState)
    (message : ParsedMessage) (kind : MdnsMessageKind) (sinceDefense : Option Nat) :
    ConflictAction :=
  if detectConflict services state name message kind then
    if state.established && sinceDefense.all (defenseWindow ≤ ·) then .defend else .rename
  else .proceed

/-! ### What is a conflict -/

/-- The type of the addresses of a family. -/
def addressType : MdnsAddressFamily → Nat
  | .ipv4 => typeA
  | .ipv6 => typeAaaa

/-- The addresses of the host on the interface, in the order in which they are compared. -/
def ownAddresses (state : InterfaceState) : List Bytes :=
  sortedSet id ((state.addresses.filter (familyMatches state.interface.family)).map fun address =>
    (addressRdata address).2)

section
variable (state : InterfaceState) (name : NameState) (message : ParsedMessage)
  (kind : MdnsMessageKind)

/-- Whatever the message says of the addresses of the host, it is one of ours that it says, or it
takes an address back. -/
def SaysOurs : Prop :=
  ∀ record ∈ message.records, record.owner = name.owner → record.cls = classIn →
    record.rrType = typeA ∨ record.rrType = typeAaaa →
      (∃ address ∈ state.addresses, addressRdata address = (record.rrType, record.rdata)) ∨
      record.ttl = 0

/-- What the message says of the addresses of the host on the interface; of a query the authority
section counts. -/
def saidData : List Bytes := theirData message kind name.owner (addressType state.interface.family)

/-- The message has each of our addresses once, and takes none back that is not ours. -/
structure SaysAllOnce : Prop where
  once : ∀ data ∈ ownAddresses state, (saidData state name message kind).count data = 1
  goodbyes : ∀ record ∈ message.records, record.owner = name.owner →
    record.rrType = addressType state.interface.family → record.cls = classIn →
    kind = .response ∨ record.inSection = .authority → record.ttl = 0 →
      record.rdata ∈ ownAddresses state

/-- The host has no address on the interface, or the message says none; or it says all of ours once;
or we are probing for the name, and the message is a probe with addresses that do not come after
ours. -/
def KeepsName : Prop :=
  ownAddresses state = [] ∨ saidData state name message kind = [] ∨
    SaysAllOnce state name message kind ∨
    state.established = false ∧ kind = .query ∧
      ¬ownAddresses state < (saidData state name message kind).insertionSort (· ≤ ·)

end

section
variable {services : Services} {state : InterfaceState} {name : NameState} {message : ParsedMessage}
  {kind : MdnsMessageKind} {rrType : Nat} {data : Bytes}

/-- The lists are compared up to their order. -/
theorem setsEqual_iff {left right : List Bytes} :
    setsEqual left right = true ↔ left.Perm right := by
  unfold setsEqual
  rw [beq_iff_eq]
  constructor
  · intro h
    exact (perm_insertionSort (· ≤ ·) left).symm.trans (h ▸ perm_insertionSort (· ≤ ·) right)
  · intro h
    refine List.Perm.eq_of_pairwise (fun _ _ _ _ hle hge => le_antisymm hle hge)
      (pairwise_insertionSort (· ≤ ·) left) (pairwise_insertionSort (· ≤ ·) right) ?_
    exact ((perm_insertionSort (· ≤ ·) left).trans h).trans
      (perm_insertionSort (· ≤ ·) right).symm

/-! ### The addresses of the host -/

theorem familyMatches_iff {family : MdnsAddressFamily} {address : IpAddr} :
    familyMatches family address = true ↔ (addressRdata address).1 = addressType family := by
  cases family <;> cases address <;>
    simp [familyMatches, addressRdata, addressType, typeA, typeAaaa]

theorem mem_ownAddresses :
    data ∈ ownAddresses state ↔
      ∃ address ∈ state.addresses, addressRdata address =
        (addressType state.interface.family, data) := by
  simp only [ownAddresses, mem_sortedSet, mem_map, mem_filter, familyMatches_iff,
    Prod.ext_iff, and_assoc]

theorem mem_hostData (htype : rrType = typeA ∨ rrType = typeAaaa) :
    data ∈ hostData services state name rrType ↔
      rrType = addressType state.interface.family ∧ data ∈ ownAddresses state := by
  simp only [hostData, uniqueRecords, mem_map, mem_filter, Bool.and_eq_true, beq_iff_eq]
  constructor
  · rintro ⟨record, ⟨⟨hrecord, -⟩, -, rfl⟩, rfl⟩
    obtain ⟨owner, address, haddress, hfamily, rfl⟩ :=
      Published.address_of_mem_localRecords hrecord htype
    rw [familyMatches_iff] at hfamily
    exact ⟨hfamily, mem_ownAddresses.mpr ⟨address, haddress, Prod.ext hfamily rfl⟩⟩
  · rintro ⟨rfl, hdata⟩
    obtain ⟨address, haddress, hrdata⟩ := mem_ownAddresses.mp hdata
    have hfamily := familyMatches_iff.mpr (congrArg Prod.fst hrdata)
    refine ⟨⟨name.owner, addressType state.interface.family, classIn, hostTtl, true, data⟩,
      ⟨⟨mem_sortedSet.mpr (mem_append_left _ (mem_flatMap.mpr ⟨address, haddress, ?_⟩)), rfl⟩,
        rfl, rfl⟩,
      rfl⟩
    rw [addressRecords, if_pos hfamily, hrdata]
    exact mem_cons_self

theorem sortKey_injective : Function.Injective LocalRecord.sortKey := by
  rintro ⟨⟩ ⟨⟩ h
  simpa [LocalRecord.sortKey] using h

/-- No address is published twice for the host, also if services publish it too. -/
theorem nodup_hostData (htype : rrType = typeA ∨ rrType = typeAaaa) :
    (hostData services state name rrType).Nodup := by
  refine Nodup.map_on ?_ (((nodup_sortedSet sortKey_injective _).filter _).filter _)
  intro a ha b hb hdata
  simp only [uniqueRecords, mem_filter, Bool.and_eq_true, beq_iff_eq] at ha hb
  obtain ⟨⟨ha, -⟩, hownerA, htypeA⟩ := ha
  obtain ⟨⟨hb, -⟩, hownerB, htypeB⟩ := hb
  obtain ⟨_, _, _, _, rfl⟩ := Published.address_of_mem_localRecords ha (htypeA ▸ htype)
  obtain ⟨_, _, _, _, rfl⟩ := Published.address_of_mem_localRecords hb (htypeB ▸ htype)
  simp_all

theorem pairwise_lt_ownAddresses : (ownAddresses state).Pairwise (· < ·) := by
  have hsorted := pairwise_lt_sortedSet Function.injective_id
    ((state.addresses.filter (familyMatches state.interface.family)).map fun address =>
      (addressRdata address).2)
  rwa [map_id] at hsorted

theorem addressType_cases (family : MdnsAddressFamily) :
    addressType family = typeA ∨ addressType family = typeAaaa := by
  cases family <;> decide

/-- What the host publishes for its name is its addresses on the interface. -/
theorem hostData_perm :
    (hostData services state name (addressType state.interface.family)).Perm
      (ownAddresses state) := by
  refine (perm_ext_iff_of_nodup (nodup_hostData (addressType_cases _))
    pairwise_lt_ownAddresses.nodup).mpr fun data => ?_
  simp [mem_hostData (addressType_cases _)]

theorem sort_hostData :
    (hostData services state name (addressType state.interface.family)).insertionSort (· ≤ ·) =
      ownAddresses state :=
  ((perm_insertionSort (· ≤ ·) _).trans hostData_perm).eq_of_pairwise
    (fun _ _ _ _ hle hge => le_antisymm hle hge) (pairwise_insertionSort (· ≤ ·) _)
    (pairwise_lt_ownAddresses.imp le_of_lt)

theorem hostData_of_ne (htype : rrType = typeA ∨ rrType = typeAaaa)
    (h : rrType ≠ addressType state.interface.family) : hostData services state name rrType = [] :=
  eq_nil_iff_forall_not_mem.mpr fun _ hdata => h ((mem_hostData htype).mp hdata).1

/-! ### What a message says of them -/

/-- An interface has addresses of one type, so that one alone is compared. -/
theorem detectConflict_eq :
    detectConflict services state name message kind =
      conflictIn services state name message kind [addressType state.interface.family] := by
  unfold detectConflict
  cases hfamily : state.interface.family with
  | ipv4 =>
    have hnone : hostData services state name typeAaaa = [] :=
      hostData_of_ne (.inr rfl) (by rw [hfamily]; decide)
    simp [conflictIn, hnone, addressType]
  | ipv6 =>
    have hnone : hostData services state name typeA = [] :=
      hostData_of_ne (.inl rfl) (by rw [hfamily]; decide)
    simp [conflictIn, hnone, addressType]

theorem probeTieBreak_iff {ours theirs : List Bytes} :
    probeTieBreak ours theirs = .weLose ↔
      ours.insertionSort (· ≤ ·) < theirs.insertionSort (· ≤ ·) := by
  simp only [probeTieBreak]
  split_ifs with hwin hlose
  · simp [not_lt_of_gt hwin]
  · simp [hlose]
  · simp [hlose]

theorem conflictIn_singleton :
    conflictIn services state name message kind [rrType] = false ↔
      hostData services state name rrType = [] ∨ theirData message kind name.owner rrType = [] ∨
        (hostData services state name rrType).Perm (theirData message kind name.owner rrType) ∨
        state.established = false ∧ kind = .query ∧
          ¬(hostData services state name rrType).insertionSort (· ≤ ·) <
            (theirData message kind name.owner rrType).insertionSort (· ≤ ·) := by
  rw [← setsEqual_iff, ← probeTieBreak_iff]
  simp only [conflictIn, Bool.or_eq_true, List.isEmpty_iff]
  generalize hostData services state name rrType = our
  generalize theirData message kind name.owner rrType = their
  by_cases hour : our = []
  · simp [hour]
  by_cases htheir : their = [] ∨ setsEqual our their = true
  · simp [hour, htheir, ← or_assoc]
  · obtain ⟨hsome, hdiffer⟩ := not_or.mp htheir
    simp only [hour, hsome, hdiffer, if_false, false_or, Bool.and_eq_true]
    cases state.established <;> cases kind <;> simp

theorem detectConflict_iff :
    detectConflict services state name message kind = false ↔
      ownAddresses state = [] ∨ saidData state name message kind = [] ∨
        (ownAddresses state).Perm (saidData state name message kind) ∨
        state.established = false ∧ kind = .query ∧
          ¬ownAddresses state < (saidData state name message kind).insertionSort (· ≤ ·) := by
  have hperm := @hostData_perm services state name
  rw [detectConflict_eq, conflictIn_singleton, sort_hostData, ← length_eq_zero_iff, hperm.length_eq,
    length_eq_zero_iff, hperm.congr_left]
  rfl

theorem perm_iff_saysAllOnce (hours : SaysOurs state name message) :
    (ownAddresses state).Perm (saidData state name message kind) ↔
      SaysAllOnce state name message kind := by
  constructor
  · intro hperm
    refine ⟨fun data hdata => ?_, ?_⟩
    · rw [← hperm.count_eq]
      exact count_eq_one_of_mem pairwise_lt_ownAddresses.nodup hdata
    · intro record hrecord howner htype hclass hsection _
      exact hperm.mem_iff.mpr (mem_theirData.mpr
        ⟨record, hrecord, ⟨howner, htype, hclass, hsection⟩, rfl⟩)
  · rintro ⟨honce, hgoodbyes⟩
    rw [perm_iff_count]
    intro data
    by_cases hdata : data ∈ ownAddresses state
    · rw [honce data hdata, count_eq_one_of_mem pairwise_lt_ownAddresses.nodup hdata]
    · rw [count_eq_zero_of_not_mem hdata, eq_comm, count_eq_zero]
      -- a record that is counted is ours, or a goodbye of one that is
      intro hsaid
      obtain ⟨record, hrecord, ⟨howner, htype, hclass, hsection⟩, rfl⟩ := mem_theirData.mp hsaid
      rcases hours record hrecord howner hclass (htype ▸ addressType_cases _) with
        ⟨address, haddress, hrdata⟩ | hgoodbye
      · exact hdata (mem_ownAddresses.mpr ⟨address, haddress, htype ▸ hrdata⟩)
      · exact hdata (hgoodbyes record hrecord howner htype hclass hsection hgoodbye)

/-- **A message that says our own addresses is no conflict if and only if it says each of them
once** and takes back none of others, apart from messages that say nothing or lose against our
probe; the host keeps its name then. -/
theorem no_selfConflict_iff (services : Services) (state : InterfaceState) (name : NameState)
    (message : ParsedMessage) (kind : MdnsMessageKind) (hours : SaysOurs state name message) :
    (detectConflict services state name message kind = false ∧
      ∀ sinceDefense, conflictAction services state name message kind sinceDefense ≠ .rename) ↔
    KeepsName state name message kind := by
  rw [KeepsName, ← perm_iff_saysAllOnce hours, ← @detectConflict_iff services]
  refine ⟨fun h => h.1, fun h => ⟨h, fun sinceDefense => ?_⟩⟩
  simp [conflictAction, h]

end

/-! ### A host with two addresses -/

def noServices : Services := ⟨⟨⟨[], 0⟩, [], 0, []⟩, plainSystem⟩

def testAddress (host : UInt8) : Redirects.IpAddr := .v4 ⟨#[192, 0, 2, host], rfl⟩

def twoAddresses (established : Bool) : InterfaceState :=
  ⟨⟨2, .ipv4⟩, [testAddress 1, testAddress 2], established⟩

def hostResponse (addresses : List (Bytes × Nat)) : ParsedMessage :=
  ⟨0, [], addresses.map fun (rdata, ttl) => ⟨hostName.owner, typeA, classIn, ttl, rdata, .answer⟩⟩

/-- A response with one of our two addresses makes a host that probes for its name give it up. -/
theorem renamed_for_own_address :
    SaysOurs (twoAddresses false) hostName (hostResponse [([192, 0, 2, 1], 120)]) ∧
      detectConflict noServices (twoAddresses false) hostName
        (hostResponse [([192, 0, 2, 1], 120)]) .response = true ∧
      conflictAction noServices (twoAddresses false) hostName
        (hostResponse [([192, 0, 2, 1], 120)]) .response none = .rename := by
  refine ⟨?_, by decide, by decide⟩
  intro record hrecord _ _ _
  obtain rfl := mem_singleton.mp hrecord
  exact .inl ⟨testAddress 1, by simp [twoAddresses], rfl⟩

-- so do a goodbye of another address and one of ours that is there twice
example : detectConflict noServices (twoAddresses true) hostName
    (hostResponse [([192, 0, 2, 7], 0)]) .response = true := by decide

example : detectConflict noServices (twoAddresses true) hostName
    (hostResponse [([192, 0, 2, 1], 120), ([192, 0, 2, 1], 120), ([192, 0, 2, 2], 120)]) .response =
      true := by
  decide

/-- Both addresses, each of them once, are no conflict. -/
theorem no_selfConflict_both_addresses :
    detectConflict noServices (twoAddresses true) hostName
        (hostResponse [([192, 0, 2, 2], 120), ([192, 0, 2, 1], 120)]) .response = false ∧
      ∀ sinceDefense, conflictAction noServices (twoAddresses true) hostName
        (hostResponse [([192, 0, 2, 2], 120), ([192, 0, 2, 1], 120)]) .response sinceDefense ≠
          .rename := by
  refine (no_selfConflict_iff _ _ _ _ _ ?_).mpr (.inr (.inr (.inl ⟨by decide, by decide⟩)))
  intro record hrecord _ _ _
  rcases mem_pair.mp hrecord with rfl | rfl
  · exact .inl ⟨testAddress 2, by simp [twoAddresses], rfl⟩
  · exact .inl ⟨testAddress 1, by simp [twoAddresses], rfl⟩

end RustdResolved.Mdns.SelfConflict
