import RustdResolved.Routing.Table

/-! # Servers and their keys

A scope is chosen with the addresses of its servers. `serverSpecsForScope` goes back from the
addresses to what is configured for them, the interface and the name for TLS, and the state of a
server is kept under a key that holds the address and a slot, its place among the servers at one
address. -/

namespace RustdResolved.Routing.ServerSpecs

open List Lib Maps Distinct Wire.Octets
open Query.Upstreams (ScopeKind)
open Table

variable {scope : ScopeKind}

/-! ### From addresses to servers -/

/-- A server of which only the address is known. -/
def plainSpec (address : SocketAddr) : DnsServerSpec := ⟨address, none, none⟩

/-- Adds the servers found at an address, or a plain one if that adds nothing. -/
def extendSpecs (output : List DnsServerSpec) (address : SocketAddr) (found : List DnsServerSpec) :
    List DnsServerSpec :=
  let extended := pushAllNew output found
  if extended.length = output.length then extended ++ [plainSpec address] else extended

def expandServers (found : SocketAddr → List DnsServerSpec) (servers : List SocketAddr) :
    List DnsServerSpec :=
  servers.foldl (fun output address => extendSpecs output address (found address)) []

structure Config where
  upstreams : List SocketAddr
  upstreamSpecs : List DnsServerSpec
  fallbackUpstreams : List SocketAddr
  fallbackUpstreamSpecs : List DnsServerSpec
  domains : List Domain
  dnsDelegates : List DnsDelegate

def isLocalStub : SocketAddr → Bool
  | .v4 ip _ => ip == .new 127 0 0 53 || ip == .new 127 0 0 54
  | .v6 ip _ _ _ => ip == .localhost

def filteredServers (servers : List SocketAddr) : List SocketAddr :=
  pushAllNew [] (servers.filter fun server => !isLocalStub server)

def filteredServerSpecs (addresses : List SocketAddr) (specs : List DnsServerSpec) :
    List DnsServerSpec :=
  (filteredServers addresses).foldl (fun output address =>
    let matching := specs.filter (·.address == address)
    if matching.isEmpty then output ++ [plainSpec address] else pushAllNew output matching) []

/-- The IP address and the port are the same, whatever the scope. -/
def sameDnsEndpoint : SocketAddr → SocketAddr → Bool
  | .v4 ip port, .v4 ip' port' => ip == ip' && port == port'
  | .v6 ip port _ _, .v6 ip' port' _ _ => ip == ip' && port == port'
  | _, _ => false

/-- The stored servers with the endpoint of an address, at that address. -/
def specsAtEndpoint (specs : List DnsServerSpec) (address : SocketAddr) : List DnsServerSpec :=
  (specs.filter fun spec => sameDnsEndpoint spec.address address).map fun spec =>
    { spec with address := address }

def projectLinkSpecs (addresses : List SocketAddr) (specs : Option (List DnsServerSpec)) :
    List DnsServerSpec :=
  expandServers (specsAtEndpoint (specs.getD [])) addresses

/-! ### The resolver -/

structure Resolver where
  config : Config
  routing : RoutingTable
  linkServerSpecs : FiniteMap Int (List DnsServerSpec)

structure ServerKey where
  scope : ScopeKind
  server : SocketAddr
  slot : Nat
  deriving DecidableEq

namespace Resolver

variable (resolver : Resolver)

def configuredUpstreams : List SocketAddr := filteredServers resolver.config.upstreams

def configuredFallbackUpstreams : List SocketAddr :=
  filteredServers resolver.config.fallbackUpstreams

def linkDnsSpecs (ifindex : Int) : List DnsServerSpec :=
  match resolver.routing.links.lookup ifindex with
  | none => []
  | some link => projectLinkSpecs link.dnsServers (resolver.linkServerSpecs.lookup ifindex)

def configuredSpecs : ScopeKind → List DnsServerSpec
  | .global => filteredServerSpecs resolver.config.upstreams resolver.config.upstreamSpecs
  | .fallback =>
    filteredServerSpecs resolver.config.fallbackUpstreams resolver.config.fallbackUpstreamSpecs
  | .delegate index =>
    match resolver.config.dnsDelegates[index]? with
    | none => []
    | some delegate => delegate.servers
  | .link ifindex => resolver.linkDnsSpecs ifindex

def serverSpecsForScope (scope : ScopeKind) (servers : List SocketAddr) : List DnsServerSpec :=
  expandServers (fun address => (resolver.configuredSpecs scope).filter (·.address == address))
    servers

def serverSpecForKey (key : ServerKey) : DnsServerSpec :=
  (((resolver.serverSpecsForScope key.scope [key.server]).filter
    (·.address == key.server))[key.slot]?).getD (plainSpec key.server)

/-- The scopes that a query for a name is sent to. -/
def scopesFor (name : Text) (ifindex : Option Int) : Except LinkError (List RouteScope) :=
  select resolver.routing resolver.configuredUpstreams resolver.configuredFallbackUpstreams
    resolver.config.domains resolver.config.dnsDelegates name ifindex

end Resolver

/-- The keys of servers, with the slots that are in use at each address. -/
def serverKeysFrom (scope : ScopeKind) :
    FiniteMap SocketAddr Nat → List DnsServerSpec → List ServerKey
  | _, [] => []
  | slots, spec :: rest =>
    let slot := (slots.lookup spec.address).getD 0
    ⟨scope, spec.address, slot⟩ :: serverKeysFrom scope (slots.insert spec.address (slot + 1)) rest

def serverKeysForSpecs (scope : ScopeKind) (specs : List DnsServerSpec) : List ServerKey :=
  serverKeysFrom scope ∅ specs

/-! ### The servers at one address -/

theorem mem_extendSpecs_of_found {output found : List DnsServerSpec} {address : SocketAddr}
    {spec : DnsServerSpec} (h : spec ∈ found) : spec ∈ extendSpecs output address found := by
  have hext : spec ∈ pushAllNew output found := mem_pushAllNew.mpr (Or.inr h)
  simp only [extendSpecs]
  split_ifs
  · exact mem_append_left _ hext
  · exact hext

/-- From nothing, the servers found, or a plain one if there are none. -/
theorem extendSpecs_nil (address : SocketAddr) (found : List DnsServerSpec) :
    extendSpecs [] address found =
      if found = [] then [plainSpec address] else pushAllNew [] found := by
  simp only [extendSpecs, length_pushAllNew_eq_iff]
  cases found with
  | nil => simp
  | cons spec rest =>
    rw [if_neg fun h => not_mem_nil (h spec mem_cons_self), if_neg (cons_ne_nil _ _)]

section

variable {address other : SocketAddr} {output found : List DnsServerSpec}

theorem filter_extendSpecs_other (hfound : ∀ spec ∈ found, spec.address = other)
    (hne : other ≠ address) :
    (extendSpecs output other found).filter (·.address == address) =
      output.filter (·.address == address) := by
  have hnone : found.filter (·.address == address) = [] := by
    rw [filter_eq_nil_iff]
    intro spec hspec
    simp [hfound spec hspec, hne]
  have hplain : [plainSpec other].filter (·.address == address) = [] := by simp [plainSpec, hne]
  simp only [extendSpecs]
  split_ifs
  · rw [filter_append, hplain, append_nil, filter_pushAllNew, hnone, pushAllNew_nil]
  · rw [filter_pushAllNew, hnone, pushAllNew_nil]

/-- The first time an address is met, what is found at it is all that there is at it. -/
theorem filter_extendSpecs_first (hfound : ∀ spec ∈ found, spec.address = address)
    (hnone : output.filter (·.address == address) = []) :
    (extendSpecs output address found).filter (·.address == address) =
      extendSpecs [] address found := by
  have hall : found.filter (·.address == address) = found := by
    rw [filter_eq_self]
    intro spec hspec
    simp [hfound spec hspec]
  have hplain : [plainSpec address].filter (·.address == address) = [plainSpec address] := by
    simp [plainSpec]
  have hnew : (∀ spec ∈ found, spec ∈ output) ↔ found = [] := by
    constructor
    · intro h
      cases found with
      | nil => rfl
      | cons spec rest =>
        have hmem : spec ∈ output.filter (·.address == address) :=
          mem_filter.mpr ⟨h spec mem_cons_self, by simp [hfound spec mem_cons_self]⟩
        rw [hnone] at hmem
        cases hmem
    · rintro rfl
      simp
  rw [extendSpecs_nil]
  simp only [extendSpecs, length_pushAllNew_eq_iff, hnew]
  split_ifs with h
  · rw [filter_append, hplain, filter_pushAllNew, hnone, hall, h, pushAllNew_nil, nil_append]
  · rw [filter_pushAllNew, hnone, hall]

/-- Every further time, there is nothing new and a plain server is added. -/
theorem filter_extendSpecs_again (h : ∀ spec ∈ found, spec ∈ output) :
    (extendSpecs output address found).filter (·.address == address) =
      output.filter (·.address == address) ++ [plainSpec address] := by
  have hplain : [plainSpec address].filter (·.address == address) = [plainSpec address] := by
    simp [plainSpec]
  simp only [extendSpecs]
  rw [if_pos (length_pushAllNew_eq_iff.mpr h), filter_append, hplain, pushAllNew_of_subset h]

end

section

variable {found : SocketAddr → List DnsServerSpec}

section
variable (hfound : ∀ address, ∀ spec ∈ found address, spec.address = address)
include hfound

/-- **The servers at one address**: what is found at it, and a plain server for every further time
that the address is in the list. -/
theorem filter_expandServers (address : SocketAddr) (servers : List SocketAddr) :
    (expandServers found servers).filter (·.address == address) =
      if address ∈ servers then
        extendSpecs [] address (found address) ++
          List.replicate (servers.count address - 1) (plainSpec address)
      else [] := by
  induction servers using reverseRecOn with
  | nil => rfl
  | append_singleton servers last ih =>
    rw [expandServers, foldl_concat, ← expandServers]
    by_cases hlast : last = address
    · subst hlast
      rw [if_pos (by simp)]
      by_cases hmem : last ∈ servers
      · -- a further time: what is found there is in the list already
        rw [if_pos hmem] at ih
        have hpos : 0 < servers.count last := count_pos_iff.mpr hmem
        have hold : ∀ spec ∈ found last, spec ∈ expandServers found servers := by
          intro spec hspec
          have hin : spec ∈ (expandServers found servers).filter (·.address == last) := by
            rw [ih]
            exact mem_append_left _ (mem_extendSpecs_of_found hspec)
          exact (mem_filter.mp hin).1
        have hcount : (servers ++ [last]).count last - 1 = (servers.count last - 1) + 1 := by
          rw [count_append, count_singleton_self]
          omega
        rw [filter_extendSpecs_again hold, ih, hcount, replicate_succ', append_assoc]
      · rw [if_neg hmem] at ih
        have hcount : (servers ++ [last]).count last - 1 = 0 := by
          rw [count_append, count_eq_zero.mpr hmem, count_singleton_self]
        rw [filter_extendSpecs_first (hfound last) ih, hcount, replicate_zero, append_nil]
    · have hcount : (servers ++ [last]).count address = servers.count address := by
        rw [count_append, count_singleton]
        simp [hlast]
      have hmem : address ∈ servers ++ [last] ↔ address ∈ servers := by
        simp [Ne.symm hlast]
      rw [filter_extendSpecs_other (hfound last) hlast, ih, hcount]
      simp only [hmem]

/-- What is found at every address that anything is found at is all there is at it, unless an
address is listed again and has no plain server. -/
theorem expandServers_found_iff (servers : List SocketAddr) :
    (∀ spec ∈ expandServers found servers, found spec.address ≠ [] → spec ∈ found spec.address) ↔
      ∀ address, 2 ≤ servers.count address → found address ≠ [] →
        plainSpec address ∈ found address := by
  have hmem : ∀ spec, spec ∈ expandServers found servers ↔
      spec ∈ (expandServers found servers).filter (·.address == spec.address) := by
    simp [mem_filter]
  constructor
  · intro h address htwice hsome
    refine h (plainSpec address) ?_ hsome
    rw [hmem, show (plainSpec address).address = address from rfl, filter_expandServers hfound,
      if_pos (count_pos_iff.mp (by omega))]
    refine mem_append_right _ (mem_replicate.mpr ⟨by omega, rfl⟩)
  · intro h spec hspec hsome
    rw [hmem, filter_expandServers hfound] at hspec
    split_ifs at hspec
    · rcases mem_append.mp hspec with hspec | hspec
      · rw [extendSpecs_nil, if_neg hsome] at hspec
        simpa using hspec
      · obtain ⟨hcount, hplain⟩ := mem_replicate.mp hspec
        rw [hplain]
        exact h spec.address (by omega) hsome
    · cases hspec

end

end

/-! ### Slots -/

theorem serverKeysFrom_getElem? {key : ServerKey} :
    ∀ {specs : List DnsServerSpec} {slots : FiniteMap SocketAddr Nat} {i : Nat},
      (serverKeysFrom scope slots specs)[i]? = some key →
      ∃ spec, specs[i]? = some spec ∧
        key = ⟨scope, spec.address, (slots.lookup spec.address).getD 0 +
          (specs.take i).countP (·.address == spec.address)⟩
  | [], _, _, h => by simp [serverKeysFrom] at h
  | spec :: rest, slots, 0, h => by
    simp only [serverKeysFrom, List.getElem?_cons_zero, Option.some.injEq] at h
    exact ⟨spec, rfl, h.symm⟩
  | spec :: rest, slots, i + 1, h => by
    simp only [serverKeysFrom, List.getElem?_cons_succ] at h
    obtain ⟨found, hfound, hkey⟩ := serverKeysFrom_getElem? h
    refine ⟨found, hfound, hkey.trans ?_⟩
    rw [take_succ_cons, countP_cons]
    by_cases hsame : found.address = spec.address
    · rw [hsame, AList.lookup_insert]
      simp
      omega
    · rw [AList.lookup_insert_ne hsame]
      simp [Ne.symm hsame]

/-! ### Identities -/

namespace Resolver

variable {resolver : Resolver}

theorem filter_configured_address (scope : ScopeKind) :
    ∀ address, ∀ spec ∈ (resolver.configuredSpecs scope).filter (·.address == address),
      spec.address = address := by
  intro address spec hspec
  simpa using (mem_filter.mp hspec).2

theorem serverSpecForKey_of_key {servers : List SocketAddr} {i : Nat} {key : ServerKey}
    (h : (serverKeysForSpecs scope (resolver.serverSpecsForScope scope servers))[i]? = some key) :
    (resolver.serverSpecsForScope scope servers)[i]? = some (resolver.serverSpecForKey key) := by
  obtain ⟨spec, hspec, rfl⟩ := serverKeysFrom_getElem? h
  rw [hspec]
  have hslot := getElem?_filter_countP (p := (·.address == spec.address)) hspec (by simp)
  have hone := filter_expandServers (resolver.filter_configured_address scope) spec.address
    [spec.address]
  unfold serverSpecsForScope at hslot
  rw [filter_expandServers (resolver.filter_configured_address scope)] at hslot
  unfold serverSpecForKey serverSpecsForScope
  rw [if_pos (mem_singleton_self _), count_singleton_self, Nat.sub_self, replicate_zero,
    append_nil] at hone
  rw [hone]
  simp only [AList.lookup_empty, Option.getD_none, Nat.zero_add]
  split_ifs at hslot
  · rw [getElem?_append] at hslot
    split_ifs at hslot
    · rw [hslot]
      rfl
    · rename_i hout
      rw [getElem?_eq_none (by omega)]
      rw [getElem?_replicate] at hslot
      split_ifs at hslot
      exact hslot.symm
  · simp at hslot

end Resolver

/-- Every address that a delegate has twice is there without an interface and a name as well. -/
def RepeatsArePlain (resolver : Resolver) : ScopeKind → Prop
  | .delegate index => ∀ delegate, resolver.config.dnsDelegates[index]? = some delegate →
      ∀ address, 2 ≤ delegate.addresses.count address → plainSpec address ∈ delegate.servers
  | _ => True

/-- Only servers that are configured stand for the configured addresses of a list, unless an address
is listed again and has no plain server. -/
theorem serverSpecsForScope_configured_iff (resolver : Resolver) (scope : ScopeKind)
    (servers : List SocketAddr) :
    (∀ spec ∈ resolver.serverSpecsForScope scope servers,
        spec.address ∈ (resolver.configuredSpecs scope).map (·.address) →
        spec ∈ resolver.configuredSpecs scope) ↔
      ∀ address, 2 ≤ servers.count address →
        address ∈ (resolver.configuredSpecs scope).map (·.address) →
        plainSpec address ∈ resolver.configuredSpecs scope := by
  have hsome : ∀ address, (resolver.configuredSpecs scope).filter (·.address == address) ≠ [] ↔
      address ∈ (resolver.configuredSpecs scope).map (·.address) := by
    intro address
    simp [filter_eq_nil_iff]
  have hplain : ∀ address, (plainSpec address).address = address := fun _ => rfl
  have hiff := expandServers_found_iff (resolver.filter_configured_address scope) servers
  simp only [hsome, mem_filter, hplain, beq_self_eq_true, and_true] at hiff
  exact hiff

theorem serverSpecsForScope_configured_of_nodup {resolver : Resolver} {servers : List SocketAddr}
    (h : servers.Nodup) :
    ∀ spec ∈ resolver.serverSpecsForScope scope servers,
      spec.address ∈ (resolver.configuredSpecs scope).map (·.address) →
      spec ∈ resolver.configuredSpecs scope := by
  rw [serverSpecsForScope_configured_iff]
  intro address htwice
  have hone := nodup_iff_count_le_one.mp h address
  omega

/-- **No server is invented** for a scope that a query is sent to, unless it is one of a delegate
that has an address twice and not plain, and the keys of the servers lead back to them. -/
theorem server_identities (resolver : Resolver) (name : Text) (ifindex : Option Int)
    (scopes : List RouteScope) (h : resolver.scopesFor name ifindex = .ok scopes) :
    ∀ scope ∈ scopes,
      ((∀ spec ∈ resolver.serverSpecsForScope scope.kind scope.servers,
          spec.address ∈ (resolver.configuredSpecs scope.kind).map (·.address) →
          spec ∈ resolver.configuredSpecs scope.kind) ↔ RepeatsArePlain resolver scope.kind) ∧
      ∀ (i : Nat) (key : ServerKey),
        (serverKeysForSpecs scope.kind
          (resolver.serverSpecsForScope scope.kind scope.servers))[i]? = some key →
        (resolver.serverSpecsForScope scope.kind scope.servers)[i]? =
          some (resolver.serverSpecForKey key) := by
  intro scope hscope
  refine ⟨?_, fun i key => Resolver.serverSpecForKey_of_key⟩
  cases select_offered h scope hscope with
  | global =>
    exact iff_of_true
      (serverSpecsForScope_configured_of_nodup (nodup_pushAllNew nodup_nil _)) trivial
  | link link stored =>
    exact iff_of_true (serverSpecsForScope_configured_of_nodup link.distinct) trivial
  | delegate index delegate listed =>
    have hconfigured : resolver.configuredSpecs (.delegate index) = delegate.servers := by
      simp only [Resolver.configuredSpecs, listed]
    rw [serverSpecsForScope_configured_iff]
    simp only [delegateScope, hconfigured, RepeatsArePlain, listed, Option.some.injEq, forall_eq']
    constructor
    · intro hplain address htwice
      have hlisted : 0 < delegate.addresses.count address := by omega
      exact hplain address htwice (count_pos_iff.mp hlisted)
    · intro hplain address htwice _
      exact hplain address htwice
  | fallback =>
    exact iff_of_true
      (serverSpecsForScope_configured_of_nodup (nodup_pushAllNew nodup_nil _)) trivial

/-- A server at 192.0.2.53, by its name for TLS. -/
def namedServer (serverName : Text) : DnsServerSpec :=
  ⟨.v4 (.new 192 0 2 53) 853, none, some serverName⟩

/-- A resolver with one delegate, for the domain `corp`. -/
def delegating (servers : List DnsServerSpec) : Resolver :=
  ⟨⟨[], [], [], [], [], [⟨servers, [⟨"corp".toList, true⟩], none⟩]⟩, .empty, ∅⟩

/-- A delegate with two servers at one address, one of them plain. -/
theorem server_identities_named_and_plain :
    let address := (namedServer []).address
    let servers := [namedServer "one".toList, plainSpec address]
    (delegating servers).scopesFor "host.corp".toList none =
        .ok [⟨.delegate 0, [address, address]⟩] ∧
      ∀ spec ∈ (delegating servers).serverSpecsForScope (.delegate 0) [address, address],
        spec ∈ servers := by
  intro address servers
  have hscopes : (delegating servers).scopesFor "host.corp".toList none =
      .ok [⟨.delegate 0, [address, address]⟩] := by rfl
  have hplain : RepeatsArePlain (delegating servers) (.delegate 0) := by
    intro delegate hdelegate other htwice
    cases hdelegate
    have hlisted : other ∈ servers.map (·.address) :=
      count_pos_iff.mp (lt_of_lt_of_le zero_lt_two htwice)
    obtain rfl : other = address := by
      simpa [servers, address, namedServer, plainSpec] using hlisted
    exact mem_cons_of_mem _ mem_cons_self
  refine ⟨hscopes, fun spec hspec => ?_⟩
  refine (server_identities _ _ _ _ hscopes _ mem_cons_self).1.mpr hplain spec hspec ?_
  revert spec
  decide

/-- The address of a delegate with two names: a third server is asked without a name for TLS. -/
theorem two_names_invent_plain :
    (delegating [namedServer "one".toList, namedServer "two".toList]).scopesFor
        "host.corp".toList none =
      .ok [⟨.delegate 0, [(namedServer []).address, (namedServer []).address]⟩] ∧
    (delegating [namedServer "one".toList, namedServer "two".toList]).serverSpecsForScope
        (.delegate 0) [(namedServer []).address, (namedServer []).address] =
      [namedServer "one".toList, namedServer "two".toList, plainSpec (namedServer []).address] ∧
    plainSpec (namedServer []).address ∉
      (delegating [namedServer "one".toList, namedServer "two".toList]).configuredSpecs
        (.delegate 0) := by
  refine ⟨rfl, ?_, ?_⟩ <;> decide

end RustdResolved.Routing.ServerSpecs
