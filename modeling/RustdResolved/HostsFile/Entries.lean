import RustdResolved.HostsFile.Table

/-! # What a hosts file says

The file is a list of entries, each an address and a name that it gets. The tables of the parser
hold exactly these entries, except those that are redundant: an entry of the loopback address is
dropped, and with it all entries of its names, when only names of the local host have that address
and these have loopback addresses only. -/

namespace RustdResolved.HostsFile.Entries

open List Lib Distinct Index Maps Wire Octets Redirects Dnssec.TrustAnchors Table

variable {address : IpAddr} {entries : List (IpAddr × Text)} {hosts : Hosts} {name : Text}

/-! ### The entries -/

/-- The entry of one name of a line. A name that is not one of letters, digits and hyphens is none,
and an unspecified address is no address. -/
def nameEntries (address : IpAddr) (name : Text) : List (IpAddr × Text) :=
  if validLdhName (canonicalName name) && !isUnspecified address then
    [(address, canonicalName name)]
  else []

section
variable (parseIp : Text → Option IpAddr)

def lineEntries (rawLine : Text) : List (IpAddr × Text) :=
  match splitWhitespace (rawLine.takeWhile (· != '#')) with
  | [] => []
  | field :: names =>
    match parseIp field with
    | none => []
    | some address => names.flatMap (nameEntries address)

def fileEntries (text : Text) : List (IpAddr × Text) := (lines text).flatMap (lineEntries parseIp)

end

def addressesOf (entries : List (IpAddr × Text)) (name : Text) : List IpAddr :=
  valuesAt (entries.map Prod.swap) name

def namesOf (entries : List (IpAddr × Text)) (address : IpAddr) : List Text :=
  valuesAt entries address

theorem mem_addressesOf : address ∈ addressesOf entries name ↔ (address, name) ∈ entries := by
  unfold addressesOf
  rw [mem_valuesAt, mem_map]
  constructor
  · rintro ⟨⟨a, n⟩, hmem, hswap⟩
    cases hswap
    exact hmem
  · intro hmem
    exact ⟨(address, name), hmem, rfl⟩

theorem mem_namesOf : name ∈ namesOf entries address ↔ (address, name) ∈ entries := mem_valuesAt

/-- The address is a loopback address that the file need not mention. -/
structure Redundant (entries : List (IpAddr × Text)) (address : IpAddr) : Prop where
  localhost : address = ipv4Localhost ∨ address = ipv6Localhost
  mentioned : namesOf entries address ≠ []
  names : ∀ name ∈ namesOf entries address, isLocalhostName name = true
  loopback : ∀ name ∈ namesOf entries address, ∀ other ∈ addressesOf entries name,
    isLoopbackAddress other = true

instance (entries : List (IpAddr × Text)) (address : IpAddr) :
    Decidable (Redundant entries address) :=
  decidable_of_iff ((address = ipv4Localhost ∨ address = ipv6Localhost) ∧
    namesOf entries address ≠ [] ∧ (∀ name ∈ namesOf entries address, isLocalhostName name = true) ∧
    ∀ name ∈ namesOf entries address, ∀ other ∈ addressesOf entries name,
      isLoopbackAddress other = true)
    ⟨fun h => ⟨h.1, h.2.1, h.2.2.1, h.2.2.2⟩, fun h =>
      ⟨h.localhost, h.mentioned, h.names, h.loopback⟩⟩

/-- The entries of the name are dropped with a redundant address. -/
def Dropped (entries : List (IpAddr × Text)) (name : Text) : Prop :=
  ∃ address ∈ [ipv4Localhost, ipv6Localhost], Redundant entries address ∧ (address, name) ∈ entries
  deriving Decidable

/-! ### The tables hold the entries -/

/-- The tables hold what the entries say. -/
structure Indexes (entries : List (IpAddr × Text)) (hosts : Hosts) : Prop where
  byName : IsIndex hosts.byName (entries.map Prod.swap)
  byAddress : IsIndex hosts.byAddress entries
  canonicalByAddress : HoldsFirst hosts.canonicalByAddress entries

theorem Indexes.addName (h : Indexes entries hosts) (address : IpAddr) (name : Text) :
    Indexes (entries ++ nameEntries address name) (hosts.addName address name) := by
  unfold nameEntries Hosts.addName
  by_cases hvalid : validLdhName (canonicalName name) = true
  swap
  · simpa [hvalid] using h
  by_cases hspecified : isUnspecified address = true
  · have hnone : entries ++ [] = entries := append_nil entries
    simp only [hvalid, hspecified, Bool.not_true, Bool.and_false, Bool.false_eq_true,
      if_false, hnone, if_true]
    exact ⟨h.byName, h.byAddress, h.canonicalByAddress⟩
  · simp only [hvalid, hspecified, Bool.not_true, Bool.not_false, Bool.and_self, Bool.false_eq_true,
      if_false, if_true]
    refine ⟨?_, h.byAddress.add _ _, h.canonicalByAddress.add _ _⟩
    rw [map_append]
    exact h.byName.add _ _

variable {parseIp : Text → Option IpAddr}

theorem Indexes.addLine (h : Indexes entries hosts) (line : Text) :
    Indexes (entries ++ lineEntries parseIp line) (hosts.addLine parseIp line) := by
  have hnone : Indexes (entries ++ []) hosts := by
    rw [append_nil]
    exact h
  unfold lineEntries Hosts.addLine
  cases splitWhitespace (line.takeWhile (· != '#')) with
  | nil => exact hnone
  | cons field names =>
    dsimp only
    cases parseIp field with
    | none => exact hnone
    | some address =>
      exact foldl_collects (fun _ _ name hbefore => hbefore.addName address name) names
        entries hosts h

theorem indexes_default : Indexes [] Hosts.default :=
  ⟨fun _ => rfl, fun _ => rfl, fun _ => rfl⟩

/-! ### What is dropped -/

/-- The names of an address in the tables are those in the file. -/
theorem Indexes.mem_names (h : Indexes entries hosts) :
    name ∈ (hosts.byAddress.lookup address).getD [] ↔ (address, name) ∈ entries := by
  rw [h.byAddress address, getD_gather, mem_pushAllNew, mem_valuesAt]
  simp

theorem Indexes.isRedundant_iff (h : Indexes entries hosts)
    (hlocal : address = ipv4Localhost ∨ address = ipv6Localhost) :
    hosts.isRedundant address = true ↔ Redundant entries address := by
  have hnames : hosts.byAddress.lookup address = gather (namesOf entries address) :=
    h.byAddress address
  have hown : ∀ name, name ∈ namesOf entries address →
      ((hosts.byName.lookup name).any (·.all isLoopbackAddress) = true ↔
        ∀ other ∈ addressesOf entries name, isLoopbackAddress other = true) := by
    intro name hname
    have hsome : valuesAt (entries.map Prod.swap) name ≠ [] :=
      ne_nil_of_mem (mem_addressesOf.mpr (mem_namesOf.mp hname))
    rw [h.byName name, gather, if_neg hsome]
    simp [addressesOf, all_eq_true]
  unfold Hosts.isRedundant
  by_cases hmentioned : namesOf entries address = []
  · have hnone : hosts.byAddress.lookup address = none := by
      rw [hnames, gather, if_pos hmentioned]
    rw [hnone]
    exact iff_of_false (by simp) fun hbad => hbad.mentioned hmentioned
  · have hsome : hosts.byAddress.lookup address =
        some (pushAllNew [] (namesOf entries address)) := by
      rw [hnames, gather, if_neg hmentioned]
    rw [hsome]
    simp only [Bool.and_eq_true, all_eq_true, mem_pushAllNew, not_mem_nil, false_or]
    constructor
    · rintro ⟨hall, hloop⟩
      exact ⟨hlocal, hmentioned, hall, fun name hname => (hown name hname).mp (hloop name hname)⟩
    · intro hred
      exact ⟨hred.names, fun name hname => (hown name hname).mpr (hred.loopback name hname)⟩

theorem byName_foldl_removeAddress {removed : List IpAddr} (hosts : Hosts) (hnodup : removed.Nodup)
    (name : Text) : (removed.foldl Hosts.removeAddress hosts).byName.lookup name =
      if ∃ address ∈ removed, name ∈ (hosts.byAddress.lookup address).getD [] then none
      else hosts.byName.lookup name := by
  induction removed generalizing hosts with
  | nil => simp
  | cons first removed ih =>
    obtain ⟨hfirst, hnodup⟩ := nodup_cons.mp hnodup
    -- the names of the other addresses are still there
    have hothers : ∀ address ∈ removed,
        (hosts.removeAddress first).byAddress.lookup address = hosts.byAddress.lookup address :=
      fun address hmem => AList.lookup_erase_ne fun heq => hfirst (heq ▸ hmem)
    have hsame : (∃ address ∈ removed,
          name ∈ ((hosts.removeAddress first).byAddress.lookup address).getD []) ↔
        ∃ address ∈ removed, name ∈ (hosts.byAddress.lookup address).getD [] :=
      exists_congr fun address => and_congr_right fun hmem => by rw [hothers address hmem]
    have hown : (hosts.removeAddress first).byName.lookup name =
        if name ∈ (hosts.byAddress.lookup first).getD [] then none
        else hosts.byName.lookup name := by
      refine (lookup_eraseAll _ _).trans ?_
      congr
    rw [foldl_cons, ih (hosts.removeAddress first) hnodup, hown]
    simp only [hsame, exists_mem_cons_iff]
    by_cases hlater : ∃ address ∈ removed, name ∈ (hosts.byAddress.lookup address).getD []
    · rw [if_pos hlater, if_pos (Or.inr hlater)]
    · simp only [hlater, or_false, if_false]

section
variable (parseIp : Text → Option IpAddr) (text : Text)

/-- The tables before the redundant addresses are removed. -/
def unstripped : Hosts :=
  (lines text).foldl (Hosts.addLine parseIp) Hosts.default

theorem indexes_unstripped : Indexes (fileEntries parseIp text) (unstripped parseIp text) :=
  foldl_collects (fun _ _ line hbefore => hbefore.addLine line) _ [] _ indexes_default

theorem parse_eq_foldl : Hosts.parse parseIp text = ([ipv4Localhost, ipv6Localhost].filter
      (unstripped parseIp text).isRedundant).foldl Hosts.removeAddress (unstripped parseIp text) :=
        rfl

theorem mem_removed (address : IpAddr) :
    address ∈ [ipv4Localhost, ipv6Localhost].filter (unstripped parseIp text).isRedundant ↔
      Redundant (fileEntries parseIp text) address := by
  have hindexes := indexes_unstripped parseIp text
  rw [mem_filter, mem_cons, mem_singleton]
  constructor
  · rintro ⟨hlocal, hred⟩
    exact (hindexes.isRedundant_iff hlocal).mp hred
  · intro hred
    exact ⟨hred.localhost, (hindexes.isRedundant_iff hred.localhost).mpr hred⟩

/-- **What the tables of a hosts file hold.** -/
theorem parse_lookup :
    (∀ name, (Hosts.parse parseIp text).byName.lookup name =
      if Dropped (fileEntries parseIp text) name then none
      else gather (addressesOf (fileEntries parseIp text) name)) ∧
    (∀ address, (Hosts.parse parseIp text).byAddress.lookup address =
      if Redundant (fileEntries parseIp text) address then none
      else gather (namesOf (fileEntries parseIp text) address)) ∧
    ∀ address, (Hosts.parse parseIp text).canonicalByAddress.lookup address =
      if Redundant (fileEntries parseIp text) address then none
      else (namesOf (fileEntries parseIp text) address).head? := by
  have hindexes := indexes_unstripped parseIp text
  have hmem := mem_removed parseIp text
  have hparse := parse_eq_foldl parseIp text
  set hosts := unstripped parseIp text
  set entries := fileEntries parseIp text
  set removed := [ipv4Localhost, ipv6Localhost].filter hosts.isRedundant with hremoved
  have hnodup : removed.Nodup := List.Nodup.filter _ (by decide)
  refine ⟨fun name => ?_, fun address => ?_, fun address => ?_⟩
  · have hdropped : (∃ address ∈ removed, name ∈ (hosts.byAddress.lookup address).getD []) ↔
        Dropped entries name := by
      simp only [hindexes.mem_names, hmem]
      constructor
      · rintro ⟨address, hred, hentry⟩
        exact ⟨address, by simpa using hred.localhost, hred, hentry⟩
      · rintro ⟨address, -, hred, hentry⟩
        exact ⟨address, hred, hentry⟩
    rw [hparse, byName_foldl_removeAddress hosts hnodup, hindexes.byName name]
    simp only [hdropped]
    rfl
  · have herased : (removed.foldl Hosts.removeAddress hosts).byAddress =
        eraseAll removed hosts.byAddress := (foldl_hom Hosts.byAddress fun _ _ => rfl).symm
    rw [hparse, herased, lookup_eraseAll, hindexes.byAddress address]
    simp only [hmem]
    rfl
  · have herased : (removed.foldl Hosts.removeAddress hosts).canonicalByAddress =
        eraseAll removed hosts.canonicalByAddress :=
      (foldl_hom Hosts.canonicalByAddress fun _ _ => rfl).symm
    rw [hparse, herased, lookup_eraseAll, hindexes.canonicalByAddress address]
    simp only [hmem]
    rfl

end

end RustdResolved.HostsFile.Entries
