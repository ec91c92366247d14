import RustdResolved.Lib.Distinct
import RustdResolved.Query.Upstreams
import RustdResolved.Wire.Redirects

/-! # The routing table

The links with their servers and domains, and the choice of the scopes that are asked for a name. A
server is in the list of a link once only, which is part of the state of a link. -/

namespace RustdResolved.Routing.Table

open List Lib Maps Distinct Wire.Octets Dnssec.NameText Resolver.Modes
open Wire.Redirects (Ipv4Addr Ipv6Addr IpAddr)
open Query.Upstreams (ScopeKind)

/-! ### Addresses -/

inductive SocketAddr
  | v4 (ip : Ipv4Addr) (port : UInt16)
  | v6 (ip : Ipv6Addr) (port : UInt16) (flowinfo scopeId : UInt32)
  deriving DecidableEq, Repr

def ipOf : SocketAddr → IpAddr
  | .v4 ip _ => .v4 ip
  | .v6 ip _ _ _ => .v6 ip

def ipv4IsLinkLocal (address : Ipv4Addr) : Bool := address[0] == 169 && address[1] == 254

def ipv6IsLinkLocal (address : Ipv6Addr) : Bool :=
  u16FromBeBytes address[0] address[1] &&& 0xffc0 == 0xfe80

def normalizeServer (ifindex : Int) : SocketAddr → SocketAddr
  | .v4 ip port => .v4 ip port
  | .v6 ip port flowinfo scopeId =>
    if scopeId ≠ 0 ∨ !ipv6IsLinkLocal ip then .v6 ip port flowinfo scopeId
    else if ifindex < 0 then .v6 ip port flowinfo scopeId
    else .v6 ip port flowinfo (UInt32.ofNat ifindex.toNat)

/-! ### Names -/

inductive LinkError
  | invalidIfindex (ifindex : Int)
  | invalidDomain (domain : Text)
  | noSuchLink (ifindex : Int)
  | managedLink (ifindex : Int)
  deriving DecidableEq, Repr

structure Domain where
  name : Text
  routeOnly : Bool
  deriving DecidableEq, Repr

def validateIfindex (ifindex : Int) : Except LinkError Unit :=
  if ifindex ≤ 0 then .error (.invalidIfindex ifindex) else .ok ()

def normalizeName (name : Text) : Except LinkError Text :=
  let name := (trim name).rdropWhile (· == '.')
  if name.isEmpty || name == ['~'] then .ok ['.']
  else
    let name := if name.head? = some '~' then name.tail else name
    if name.isEmpty || !name.all (·.toNat < 128) || 253 < name.length ||
        (name.splitOn '.').any (fun label => label.isEmpty || 63 < label.length) then
      .error (.invalidDomain name)
    else .ok (name.map Char.toLower)

def normalizeDomain (domain : Domain) : Except LinkError Domain := do
  let name ← normalizeName domain.name
  .ok { domain with name := name }

/-- The number of labels of a domain that a name belongs to. -/
def domainMatchLabels (name domain : Text) : Option Nat :=
  if domain = ['.'] then some 0
  else if name.map Char.toLower = domain.map Char.toLower ||
      (domain.isSuffixOf name &&
        (name.take (name.length - domain.length)).getLast? == some '.') then
    some (domain.splitOn '.').length
  else none

def bestDomainMatch (name : Text) (domains : List Domain) : Option Nat :=
  (domains.filterMap fun domain => domainMatchLabels name domain.name).max?

/-! ### Links -/

structure KernelLinkState where
  ifindex : Int
  ifname : Text
  flags : UInt32
  mtu : UInt32
  operstate : UInt8
  hasIpv4Global : Bool
  hasIpv4LinkLocal : Bool
  hasIpv6Global : Bool
  hasIpv6LinkLocal : Bool
  deriving DecidableEq, Repr

def iffUp : UInt32 := 0x0001
def iffLoopback : UInt32 := 0x0008
def iffRunning : UInt32 := 0x0040
def iffLowerUp : UInt32 := 0x10000
def iffDormant : UInt32 := 0x20000
def ifOperUnknown : UInt8 := 0
def ifOperUp : UInt8 := 6

def KernelLinkState.hasCarrier (link : KernelLinkState) : Bool :=
  if link.operstate = ifOperUp then true
  else if link.operstate ≠ ifOperUnknown then false
  else
    link.flags &&& (iffLowerUp ||| iffRunning) == (iffLowerUp ||| iffRunning) &&
      link.flags &&& iffDormant == 0

def KernelLinkState.relevantUnicast (link : KernelLinkState) (servers : List SocketAddr) : Bool :=
  if link.flags &&& (iffLoopback ||| iffDormant) != 0 ||
      link.flags &&& (iffUp ||| iffLowerUp) != (iffUp ||| iffLowerUp) || !link.hasCarrier then false
  else
    let allowIpv4LinkLocal := servers.any fun
      | .v4 ip _ => ipv4IsLinkLocal ip
      | .v6 .. => false
    let allowIpv6LinkLocal := servers.any fun
      | .v4 .. => false
      | .v6 ip _ _ _ => ipv6IsLinkLocal ip
    link.hasIpv4Global || link.hasIpv6Global || (allowIpv4LinkLocal && link.hasIpv4LinkLocal) ||
      (allowIpv6LinkLocal && link.hasIpv6LinkLocal)

structure LinkState where
  ifindex : Int
  dnsServers : List SocketAddr
  distinct : dnsServers.Nodup
  domains : List Domain
  defaultRoute : Option Bool
  llmnr : SupportMode
  multicastDns : SupportMode
  dnsOverTls : TlsMode
  dnssec : ValidationMode
  dnssecNegativeTrustAnchors : List Text
  kernel : Option KernelLinkState
  deriving DecidableEq

namespace LinkState

def new (ifindex : Int) : LinkState :=
  { ifindex, dnsServers := [], distinct := List.nodup_nil, domains := [], defaultRoute := none,
    llmnr := .yes, multicastDns := .yes, dnsOverTls := .no, dnssec := .allowDowngrade,
    dnssecNegativeTrustAnchors := [], kernel := none }

def kernelRelevantUnicast (link : LinkState) : Bool :=
  match link.kernel with
  | none => true
  | some kernel => kernel.relevantUnicast link.dnsServers

def effectiveDefaultRoute (link : LinkState) : Bool :=
  match link.defaultRoute with
  | some defaultRoute => defaultRoute
  | none =>
    if link.dnsServers.isEmpty || !link.kernelRelevantUnicast then false
    else !link.domains.any fun domain => domain.routeOnly && domain.name != ['.']

end LinkState

/-! ### The table and its changes -/

/-- The links by their index. -/
structure RoutingTable where
  links : FiniteMap Int LinkState
  keyed : ∀ ifindex link, links.lookup ifindex = some link → link.ifindex = ifindex
  kernelSynchronized : Bool

/-- The outcome of a change, which leaves a table also when it fails. -/
abbrev Change := Except LinkError Bool × RoutingTable

namespace RoutingTable

def empty : RoutingTable := ⟨∅, by simp, false⟩

/-- The links in the order of their indices. -/
def inOrder (table : RoutingTable) : List LinkState :=
  (table.links.keys.insertionSort (· ≤ ·)).filterMap table.links.lookup

theorem mem_inOrder {table : RoutingTable} {link : LinkState} (h : link ∈ table.inOrder) :
    table.links.lookup link.ifindex = some link := by
  obtain ⟨ifindex, -, hlookup⟩ := mem_filterMap.mp h
  rw [table.keyed ifindex link hlookup]
  exact hlookup

def put (table : RoutingTable) (link : LinkState) : RoutingTable where
  links := table.links.insert link.ifindex link
  keyed := by
    intro ifindex other h
    rcases lookup_insert_cases h with ⟨rfl, rfl⟩ | h
    · rfl
    · exact table.keyed ifindex other h
  kernelSynchronized := table.kernelSynchronized

/-- The link at an index; as long as the kernel has not been heard there is one at every index. -/
def linkMut (table : RoutingTable) (ifindex : Int) : Except LinkError LinkState := do
  validateIfindex ifindex
  match table.links.lookup ifindex with
  | some link => .ok link
  | none => if table.kernelSynchronized then .error (.noSuchLink ifindex) else .ok (.new ifindex)

/-- Replaces the link at an index, and says whether that changes it. -/
def update (table : RoutingTable) (ifindex : Int)
    (change : LinkState → Except LinkError LinkState) : Change :=
  match table.linkMut ifindex with
  | .error error => (.error error, table)
  | .ok link =>
    match change link with
    | .error error => (.error error, table.put link)
    | .ok changed => (.ok (decide (changed ≠ link)), table.put changed)

theorem nodup_normalizedServers (ifindex : Int) (servers : List SocketAddr) :
    (pushAllNew [] (servers.map (normalizeServer ifindex))).Nodup :=
  nodup_pushAllNew List.nodup_nil _

def setDns (table : RoutingTable) (ifindex : Int) (servers : List SocketAddr) : Change :=
  table.update ifindex fun link =>
    .ok { link with
      dnsServers := pushAllNew [] (servers.map (normalizeServer ifindex))
      distinct := nodup_normalizedServers ifindex servers }

def setDomains (table : RoutingTable) (ifindex : Int) (domains : List Domain) : Change :=
  table.update ifindex fun link => do
    let domains ← domains.mapM normalizeDomain
    .ok { link with domains := pushAllNew [] domains }

def setDefaultRoute (table : RoutingTable) (ifindex : Int) (defaultRoute : Option Bool) : Change :=
  table.update ifindex fun link => .ok { link with defaultRoute := defaultRoute }

def setLlmnr (table : RoutingTable) (ifindex : Int) (mode : SupportMode) : Change :=
  table.update ifindex fun link => .ok { link with llmnr := mode }

def setMulticastDns (table : RoutingTable) (ifindex : Int) (mode : SupportMode) : Change :=
  table.update ifindex fun link => .ok { link with multicastDns := mode }

def setDnsOverTls (table : RoutingTable) (ifindex : Int) (mode : TlsMode) : Change :=
  table.update ifindex fun link => .ok { link with dnsOverTls := mode }

def setDnssec (table : RoutingTable) (ifindex : Int) (mode : ValidationMode) : Change :=
  table.update ifindex fun link => .ok { link with dnssec := mode }

def setDnssecNegativeTrustAnchors (table : RoutingTable) (ifindex : Int) (anchors : List Text) :
    Change :=
  table.update ifindex fun link => do
    let anchors ← anchors.mapM normalizeName
    .ok { link with dnssecNegativeTrustAnchors := pushAllNew [] anchors }

/-- The link that the kernel knows at an index, which is made if there is none. -/
def kernelLink (table : RoutingTable) (ifindex : Int) : LinkState :=
  (table.links.lookup ifindex).getD (.new ifindex)

theorem kernelLink_ifindex (table : RoutingTable) (ifindex : Int) :
    (table.kernelLink ifindex).ifindex = ifindex := by
  unfold kernelLink
  cases hlookup : table.links.lookup ifindex with
  | none => rfl
  | some link => exact table.keyed ifindex link hlookup

/-- The first loop of `sync_kernel_links`, which says whether it has changed anything. -/
def recordKernel (table : RoutingTable) (changed : Bool) : List KernelLinkState → Change
  | [] => (.ok changed, table)
  | kernel :: rest =>
    match validateIfindex kernel.ifindex with
    | .error error => (.error error, table)
    | .ok () =>
      let link := table.kernelLink kernel.ifindex
      recordKernel (table.put { link with kernel := some kernel })
        (changed || decide (link.kernel ≠ some kernel)) rest

/-- A link stays that the kernel has listed, or that it has not been heard about at all. -/
def staysListed (table : RoutingTable) (links : List KernelLinkState) (ifindex : Int)
    (link : LinkState) : Bool :=
  links.any (·.ifindex == ifindex) || (link.kernel.isNone && !table.kernelSynchronized)

/-- Keeps the links that pass a test; the kernel has been heard from then on. -/
def retainListed (table : RoutingTable) (links : List KernelLinkState) : RoutingTable where
  links := retain (table.staysListed links) table.links
  keyed := fun ifindex link h => table.keyed ifindex link (lookup_retain.mp h).1
  kernelSynchronized := true

def syncKernelLinks (table : RoutingTable) (links : List KernelLinkState) : Change :=
  match table.recordKernel (!table.kernelSynchronized) links with
  | (.error error, table) => (.error error, table)
  | (.ok changed, recorded) =>
    let retained := recorded.retainListed links
    (.ok (changed || retained.links.keys.length != recorded.links.keys.length), retained)

def revert (table : RoutingTable) (ifindex : Int) : Change :=
  match validateIfindex ifindex, table.links.lookup ifindex with
  | .error error, _ => (.error error, table)
  | .ok (), none => (.error (.noSuchLink ifindex), table)
  | .ok (), some link =>
    let reset := { LinkState.new ifindex with kernel := link.kernel }
    (.ok (decide (link ≠ reset)), table.put reset)

end RoutingTable

/-! ### The choice of scopes -/

structure DnsServerSpec where
  address : SocketAddr
  interface : Option Text
  serverName : Option Text
  deriving DecidableEq, Repr

structure DnsDelegate where
  servers : List DnsServerSpec
  domains : List Domain
  defaultRoute : Option Bool

def DnsDelegate.addresses (delegate : DnsDelegate) : List SocketAddr :=
  delegate.servers.map (·.address)

structure RouteScope where
  kind : ScopeKind
  servers : List SocketAddr
  deriving DecidableEq

/-- A scope that has servers, with the labels of its best domain for a name. -/
def routed (name : Text) (scope : RouteScope) (domains : List Domain) : Option (Nat × RouteScope) :=
  if scope.servers.isEmpty then none
  else (bestDomainMatch name domains).map fun labels => (labels, scope)

def linkScope (link : LinkState) : RouteScope := ⟨.link link.ifindex, link.dnsServers⟩

def delegateScope (index : Nat) (delegate : DnsDelegate) : RouteScope :=
  ⟨.delegate index, delegate.addresses⟩

section

variable (table : RoutingTable) (globalServers fallbackServers : List SocketAddr)
  (globalDomains : List Domain) (delegates : List DnsDelegate)

def domainMatches (name : Text) : List (Nat × RouteScope) :=
  (routed name ⟨.global, globalServers⟩ globalDomains).toList ++
    (table.inOrder.filter (·.kernelRelevantUnicast)).filterMap
      (fun link => routed name (linkScope link) link.domains) ++
    delegates.zipIdx.filterMap fun (delegate, index) =>
      routed name (delegateScope index delegate) delegate.domains

def defaultScopes : List RouteScope :=
  (if globalServers.isEmpty then [] else [⟨.global, globalServers⟩]) ++
    (table.inOrder.filter fun link =>
      link.effectiveDefaultRoute && !link.dnsServers.isEmpty && link.kernelRelevantUnicast).map
      linkScope ++
    (delegates.zipIdx.filter fun (delegate, _) =>
      delegate.defaultRoute.getD false && !delegate.servers.isEmpty).map
      fun (delegate, index) => delegateScope index delegate

def select (name : Text) (ifindex : Option Int) : Except LinkError (List RouteScope) :=
  match ifindex.filter (· ≠ 0) with
  | some ifindex => do
    validateIfindex ifindex
    match table.links.lookup ifindex with
    | none => .error (.noSuchLink ifindex)
    | some link =>
      if link.dnsServers.isEmpty || !link.kernelRelevantUnicast then
        .ok [] else .ok [linkScope link]
  | none => do
    let name ← normalizeName name
    let found := domainMatches table globalServers globalDomains delegates name
    match (found.map Prod.fst).max? with
    | some best => .ok ((found.filter (·.1 == best)).map Prod.snd)
    | none =>
      let scopes := defaultScopes table globalServers delegates
      if scopes.isEmpty && !fallbackServers.isEmpty then .ok [⟨.fallback, fallbackServers⟩]
      else .ok scopes

/-- The scopes that there are, each with all its servers. -/
inductive Offered : RouteScope → Prop
  | global : Offered ⟨.global, globalServers⟩
  | link (link : LinkState) (stored : table.links.lookup link.ifindex = some link) :
    Offered (linkScope link)
  | delegate (index : Nat) (delegate : DnsDelegate) (listed : delegates[index]? = some delegate) :
    Offered (delegateScope index delegate)
  | fallback : Offered ⟨.fallback, fallbackServers⟩

end

variable {table : RoutingTable} {globalServers fallbackServers : List SocketAddr}
  {globalDomains : List Domain} {delegates : List DnsDelegate} {name : Text} {scope : RouteScope}
  {found : Nat × RouteScope}

theorem routed_scope {domains : List Domain}
    (h : routed name scope domains = some found) : found.2 = scope := by
  unfold routed at h
  split_ifs at h
  obtain ⟨labels, -, rfl⟩ := Option.map_eq_some_iff.mp h
  rfl

theorem domainMatches_offered
    (h : found ∈ domainMatches table globalServers globalDomains delegates name) :
    Offered table globalServers fallbackServers delegates found.2 := by
  rcases mem_append.mp h with h | h
  · rcases mem_append.mp h with h | h
    · rw [routed_scope (Option.mem_toList.mp h)]
      exact .global
    · obtain ⟨link, hlink, hrouted⟩ := mem_filterMap.mp h
      rw [routed_scope hrouted]
      exact .link link (RoutingTable.mem_inOrder (mem_filter.mp hlink).1)
  · obtain ⟨⟨delegate, index⟩, hdelegate, hrouted⟩ := mem_filterMap.mp h
    rw [routed_scope hrouted]
    exact .delegate index delegate (mem_zipIdx_iff_getElem?.mp hdelegate)

theorem defaultScopes_offered (h : scope ∈ defaultScopes table globalServers delegates) :
    Offered table globalServers fallbackServers delegates scope := by
  rcases mem_append.mp h with h | h
  · rcases mem_append.mp h with h | h
    · split_ifs at h
      · cases h
      · rw [mem_singleton.mp h]
        exact .global
    · obtain ⟨link, hlink, rfl⟩ := mem_map.mp h
      exact .link link (RoutingTable.mem_inOrder (mem_filter.mp hlink).1)
  · obtain ⟨⟨delegate, index⟩, hdelegate, rfl⟩ := mem_map.mp h
    exact .delegate index delegate (mem_zipIdx_iff_getElem?.mp (mem_filter.mp hdelegate).1)

/-- **What `select` yields is a scope that there is, with all its servers.** -/
theorem select_offered {ifindex : Option Int} {scopes : List RouteScope}
    (h : select table globalServers fallbackServers globalDomains delegates name ifindex =
      .ok scopes) :
    ∀ scope ∈ scopes, Offered table globalServers fallbackServers delegates scope := by
  intro scope hscope
  unfold select at h
  split at h
  · rename_i index _
    obtain ⟨-, -, h⟩ := Lib.Result.of_bind h
    split at h
    · cases h
    · rename_i link hlink
      split_ifs at h <;> cases h
      · cases hscope
      · rw [mem_singleton.mp hscope]
        exact .link link (by rw [table.keyed index link hlink]; exact hlink)
  · obtain ⟨normalized, -, h⟩ := Lib.Result.of_bind h
    dsimp only at h
    split at h
    · cases h
      obtain ⟨found, hfound, rfl⟩ := mem_map.mp hscope
      exact domainMatches_offered (mem_filter.mp hfound).1
    · split_ifs at h <;> cases h
      · rw [mem_singleton.mp hscope]
        exact .fallback
      · exact defaultScopes_offered hscope

end RustdResolved.Routing.Table
