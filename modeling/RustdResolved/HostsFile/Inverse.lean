import RustdResolved.HostsFile.Entries

/-! # What the removal of redundant lines costs

The tables of a hosts file are inverse to each other and answer for every entry of the file, as long
as nothing is removed from them. What is removed for a redundant address is not only what the
synthesis of local host names answers: the names lose all their addresses, and the answers that do
not synthesize lose the address (`faithful_iff`). -/

namespace RustdResolved.HostsFile.Inverse

open List Lib Distinct Index Wire Octets PacketHeader Record Reply Redirects Table Entries

variable {address : IpAddr} {hosts : Hosts} {includeSynthetic : Bool} {name text : Text}
  {parseIp : Text → Option IpAddr} {question : Question}

theorem mem_foldl_addAnswer {addresses : List IpAddr} {canonicalOf : IpAddr → Option Text}
    {record : LocalRecord} {records : List LocalRecord} :
    record ∈ addresses.foldl (addAnswer canonicalOf) records ↔
      record ∈ records ∨ ∃ address ∈ addresses, record =
        addressRecord address (canonicalOf address) ∨
        ∃ canonical, canonicalOf address = some canonical ∧ record = .cname canonical := by
  induction addresses generalizing records with
  | nil => simp
  | cons address addresses ih =>
    have hone : record ∈ addAnswer canonicalOf records address ↔ record ∈ records ∨
        record = addressRecord address (canonicalOf address) ∨
          ∃ canonical, canonicalOf address = some canonical ∧ record = .cname canonical := by
      unfold addAnswer
      cases canonicalOf address with
      | none => simp
      | some canonical =>
        simp only [mem_append, mem_pushNew, mem_singleton, Option.some.injEq, exists_eq_left']
        tauto
    rw [foldl_cons, ih, hone, exists_mem_cons_iff, or_assoc]

/-- A question for a reverse name. -/
structure AsksName (question : Question) (address : IpAddr) : Prop where
  rrClass : question.rrClass = classIn
  rrType : question.rrType = typePtr
  name : parseReverseName question.name.text = some address

/-- A question for the addresses of a name, of the family of an address. -/
structure AsksAddress (question : Question) (name : Text) (address : IpAddr) : Prop where
  rrClass : question.rrClass = classIn
  rrType : typeMatches question.rrType address = true
  name : canonicalName question.name.text = name

/-- The tables are inverse to each other, find what the file says except where the synthesis of
names and addresses says it as well, and answer as if nothing had been removed from them. -/
structure Faithful (parseIp : Text → Option IpAddr) (text : Text) : Prop where
  inverse : ∀ address name,
    address ∈ ((Hosts.parse parseIp text).byName.lookup name).getD [] ↔
      name ∈ ((Hosts.parse parseIp text).byAddress.lookup address).getD []
  forward : ∀ address name, (address, name) ∈ fileEntries parseIp text →
    address ∉ syntheticAddresses name →
    ∀ question includeSynthetic, AsksAddress question name address →
      ∃ records, (Hosts.parse parseIp text).lookupWithSynthetic parseIp question
        includeSynthetic = some records ∧ ∃ canonical, addressRecord address canonical ∈ records
  reverse : ∀ address name, (address, name) ∈ fileEntries parseIp text →
    name ∉ syntheticNames address → ∀ question includeSynthetic, AsksName question address →
      ∃ records, (Hosts.parse parseIp text).lookupWithSynthetic parseIp question
        includeSynthetic = some records ∧ .ptr name ∈ records
  unchanged : ∀ question includeSynthetic,
    (Hosts.parse parseIp text).lookupWithSynthetic parseIp question includeSynthetic =
      (unstripped parseIp text).lookupWithSynthetic parseIp question includeSynthetic

theorem AsksName.lookup_eq (h : AsksName question address) :
    hosts.lookupWithSynthetic parseIp question includeSynthetic =
      let names := pushAllNew (if includeSynthetic then syntheticNames address else [])
        ((hosts.byAddress.lookup address).getD [])
      if names.isEmpty then none else some (names.map .ptr) := by
  unfold Hosts.lookupWithSynthetic Hosts.lookupReverse
  rw [h.rrClass, h.rrType, h.name]
  rfl

theorem AsksAddress.lookup_eq (h : AsksAddress question name address) :
    hosts.lookupWithSynthetic parseIp question includeSynthetic =
      hosts.lookupForward parseIp question includeSynthetic := by
  have htype : question.rrType = typeA ∨ question.rrType = typeAaaa ∨ question.rrType = 255 := by
    have := h.rrType
    cases address <;> simp [typeMatches] at this <;> tauto
  unfold Hosts.lookupWithSynthetic
  rw [if_neg (by simp [h.rrClass]), if_pos htype]

/-- A name is found under the addresses that the table has for it. -/
theorem AsksAddress.found (h : AsksAddress question name address)
    (hlisted : address ∈ (hosts.byName.lookup name).getD []) :
    ∃ records, hosts.lookupWithSynthetic parseIp question includeSynthetic = some records ∧
      ∃ canonical, addressRecord address canonical ∈ records := by
  rw [h.lookup_eq]
  unfold Hosts.lookupForward
  rw [h.name]
  have hmem := fun before => mem_pushAllNew.mpr (Or.inr hlisted : address ∈ before ∨ _)
  rw [if_neg (by simpa using ne_nil_of_mem (hmem _))]
  refine ⟨_, rfl, ?_⟩
  simp only [← foldl_filter, mem_foldl_addAnswer]
  exact ⟨_, Or.inr ⟨address, mem_filter.mpr ⟨hmem _, h.rrType⟩, Or.inl rfl⟩⟩

/-- The reverse name of each loopback address that may be redundant. -/
theorem asksName_localhost (h : address = ipv4Localhost ∨ address = ipv6Localhost) :
    ∃ question, AsksName question address := by
  rcases h with rfl | rfl
  · exact ⟨⟨⟨"1.0.0.127.in-addr.arpa".toList, []⟩, typePtr, classIn, 0⟩, rfl, rfl, by decide⟩
  · exact ⟨⟨⟨(replicate 31 "0.".toList).flatten.set 0 '1' ++ "0.ip6.arpa".toList, []⟩, typePtr,
      classIn, 0⟩, rfl, rfl, by decide⟩

/-- **The tables of a hosts file are faithful** exactly where no address of the file is
redundant. -/
theorem faithful_iff (parseIp : Text → Option IpAddr) (text : Text) :
    Faithful parseIp text ↔ ∀ address, ¬ Redundant (fileEntries parseIp text) address := by
  obtain ⟨hbyName, hbyAddress, -⟩ := parse_lookup parseIp text
  constructor
  · -- without synthesis the name of the address is gone
    intro h address hred
    obtain ⟨question, hasks⟩ := asksName_localhost hred.localhost
    have hsame := h.unchanged question false
    have hnames := (indexes_unstripped parseIp text).byAddress address
    rw [hasks.lookup_eq, hasks.lookup_eq, hbyAddress, if_pos hred, hnames, getD_gather] at hsame
    obtain ⟨name, hname⟩ := exists_mem_of_ne_nil _ hred.mentioned
    have hmem :
        name ∈ pushAllNew [] (pushAllNew [] (valuesAt (fileEntries parseIp text) address)) := by
      simpa [mem_valuesAt, ← mem_namesOf] using hname
    simp [ne_nil_of_mem hmem] at hsame
  · intro hkept
    have hname : ∀ name, (Hosts.parse parseIp text).byName.lookup name =
        gather (addressesOf (fileEntries parseIp text) name) := by
      intro name
      rw [hbyName, if_neg]
      rintro ⟨address, -, hred, -⟩
      exact hkept address hred
    have haddress : ∀ address, (Hosts.parse parseIp text).byAddress.lookup address =
        gather (namesOf (fileEntries parseIp text) address) :=
      fun address => (hbyAddress address).trans (if_neg (hkept address))
    refine ⟨fun address name => ?_, fun address name hentry _ question _ hasks => ?_,
      fun address name hentry _ question includeSynthetic hasks => ?_, fun question _ => ?_⟩
    · rw [hname, haddress, getD_gather, getD_gather, mem_pushAllNew, mem_pushAllNew,
        mem_addressesOf, mem_namesOf]
      simp
    · refine hasks.found ?_
      rw [hname, getD_gather, mem_pushAllNew, mem_addressesOf]
      exact Or.inr hentry
    · rw [hasks.lookup_eq, haddress, getD_gather]
      have hmem : ∀ before, name ∈ pushAllNew before
          (pushAllNew [] (namesOf (fileEntries parseIp text) address)) := by
        simp [mem_namesOf.mpr hentry]
      rw [if_neg (by simpa using ne_nil_of_mem (hmem _))]
      exact ⟨_, rfl, mem_map_of_mem (hmem _)⟩
    · have hnone :
          [ipv4Localhost, ipv6Localhost].filter (unstripped parseIp text).isRedundant = [] :=
        eq_nil_iff_forall_not_mem.mpr fun address hmem =>
          hkept address ((mem_removed parseIp text address).mp hmem)
      rw [parse_eq_foldl, hnone]
      rfl

/-- Two addresses of the loopback network. -/
def parseLoopback (field : Text) : Option IpAddr :=
  if field = "127.0.0.1".toList then some ipv4Localhost
  else if field = "127.0.0.2".toList then some (.v4 #v[127, 0, 0, 2]) else none

def twoLoopbackLines : Text := "127.0.0.1 localhost\n127.0.0.2 localhost\n".toList

def localhostQuestion : Question := ⟨⟨"localhost".toList, []⟩, typeA, classIn, 0⟩

/-- The name of a redundant address loses its other address, which keeps the name. -/
theorem second_loopback_lost :
    (Hosts.parse parseLoopback twoLoopbackLines).byName.lookup "localhost".toList = none ∧
    (Hosts.parse parseLoopback twoLoopbackLines).byAddress.lookup (.v4 #v[127, 0, 0, 2]) =
      some ["localhost".toList] ∧
    (unstripped parseLoopback twoLoopbackLines).lookup parseLoopback localhostQuestion =
      some [.a #v[127, 0, 0, 1], .a #v[127, 0, 0, 2]] ∧
    (Hosts.parse parseLoopback twoLoopbackLines).lookup parseLoopback localhostQuestion =
      some [.a #v[127, 0, 0, 1]] := by
  decide +kernel

end RustdResolved.HostsFile.Inverse
