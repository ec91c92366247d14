import RustdResolved.Lib.Reported
import RustdResolved.Query.Store
import RustdResolved.Routing.ServerSpecs

/-! # The links of the resolver

The operations by which links come, change and go: what the kernel and networkd say, what clients
set, and a new configuration. Each changes several tables one after another, and an error ends it
where it is. At the end the answers that are cached are given up if anything has changed. -/

namespace RustdResolved.Routing.Links

open Lib Maps Distinct Reported Wire.Octets Resolver.Modes
open Query.Store (Cache)
open Table ServerSpecs

structure NetworkdLinkState where
  ifindex : Int
  managed : Bool
  dnsServers : List SocketAddr
  dnsServerSpecs : List DnsServerSpec
  domains : List Domain
  defaultRoute : Option Bool
  llmnr : SupportMode
  multicastDns : SupportMode
  dnsOverTls : Option TlsMode
  dnssec : Option ValidationMode
  dnssecNegativeTrustAnchors : List Text
  deriving DecidableEq

structure LoadedConfig where
  servers : Config
  dnsOverTls : TlsMode
  dnssec : ValidationMode
  llmnr : SupportMode
  multicastDns : SupportMode
  staleRetention : Nat

structure LinkResolver extends Resolver where
  dnsOverTls : TlsMode
  dnssec : ValidationMode
  staleRetention : Nat
  llmnrMode : SupportMode
  multicastDnsMode : SupportMode
  networkdLinks : FiniteMap Int NetworkdLinkState
  linkDnsOverTlsOverrides : FiniteMap Int TlsMode
  linkDnssecOverrides : FiniteMap Int ValidationMode
  routingGeneration : UInt64
  cache : Cache Unit

/-- The outcome of an operation, which leaves a resolver also when it fails. -/
abbrev Outcome := Except LinkError Unit × LinkResolver

namespace LinkResolver

/-- A new resolver with the cache that is made for its configuration. -/
def new (config : LoadedConfig) (cache : Cache Unit) : LinkResolver where
  config := config.servers
  routing := .empty
  linkServerSpecs := ∅
  dnsOverTls := config.dnsOverTls
  dnssec := config.dnssec
  staleRetention := config.staleRetention
  llmnrMode := config.llmnr
  multicastDnsMode := config.multicastDns
  networkdLinks := ∅
  linkDnsOverTlsOverrides := ∅
  linkDnssecOverrides := ∅
  routingGeneration := 1
  cache := cache

variable (resolver : LinkResolver)

def finishRoutingChange (changed : Bool) : LinkResolver :=
  if changed then
    { resolver with
      routingGeneration := resolver.routingGeneration + 1
      cache := resolver.cache.flush }
  else resolver

variable (ifindex : Int)

def linkIsManaged : Bool :=
  match resolver.networkdLinks.lookup ifindex with
  | some link => link.managed
  | none => false

/-! ### The servers of links -/

/-- Moves a server to the first address with its endpoint. -/
def atAddress (addresses : List SocketAddr) (spec : DnsServerSpec) : DnsServerSpec :=
  match addresses.find? (sameDnsEndpoint spec.address) with
  | some address => { spec with address := address }
  | none => spec

def normalizeLinkSpecs (addresses : List SocketAddr) (specs : List DnsServerSpec) :
    List DnsServerSpec :=
  pushAllNew [] (specs.map (atAddress addresses))

def removeEntry {β : Type} (entries : FiniteMap Int β) (ifindex : Int) : Bool × FiniteMap Int β :=
  ((entries.lookup ifindex).isSome, entries.erase ifindex)

def replaceLinkServerSpecs (stored : FiniteMap Int (List DnsServerSpec))
    (entry : Int × List DnsServerSpec) : Bool × FiniteMap Int (List DnsServerSpec) :=
  if entry.2.isEmpty then removeEntry stored entry.1
  else if stored.lookup entry.1 = some entry.2 then (false, stored)
  else (true, stored.insert entry.1 entry.2)

/-! ### What clients set -/

/-- The setters that change the routing table only. -/
def setLink (change : RoutingTable → Change) : Outcome :=
  if resolver.linkIsManaged ifindex then (.error (.managedLink ifindex), resolver)
  else
    match change resolver.routing with
    | (.error error, routing) => (.error error, { resolver with routing := routing })
    | (.ok changed, routing) =>
      (.ok (), finishRoutingChange { resolver with routing := routing } changed)

def setLinkDomains (domains : List Domain) : Outcome :=
  resolver.setLink ifindex fun table => table.setDomains ifindex domains

def setLinkDefaultRoute (defaultRoute : Option Bool) : Outcome :=
  resolver.setLink ifindex fun table => table.setDefaultRoute ifindex defaultRoute

def setLinkLlmnr (mode : SupportMode) : Outcome :=
  resolver.setLink ifindex fun table => table.setLlmnr ifindex mode

def setLinkMulticastDns (mode : SupportMode) : Outcome :=
  resolver.setLink ifindex fun table => table.setMulticastDns ifindex mode

def setLinkDnssecNegativeTrustAnchors (anchors : List Text) : Outcome :=
  resolver.setLink ifindex fun table => table.setDnssecNegativeTrustAnchors ifindex anchors

def setLinkDnsSpecs (specs : List DnsServerSpec) : Outcome :=
  if resolver.linkIsManaged ifindex then (.error (.managedLink ifindex), resolver)
  else
    match resolver.routing.setDns ifindex (specs.map (·.address)) with
    | (.error error, routing) => (.error error, { resolver with routing := routing })
    | (.ok routeChanged, routing) =>
      let addresses :=
        match routing.links.lookup ifindex with
        | some link => link.dnsServers
        | none => []
      let replaced := replaceLinkServerSpecs resolver.linkServerSpecs
        (ifindex, normalizeLinkSpecs addresses specs)
      (.ok (), finishRoutingChange
        { resolver with routing := routing, linkServerSpecs := replaced.2 }
        (routeChanged || replaced.1))

def setLinkDns (servers : List SocketAddr) : Outcome :=
  resolver.setLinkDnsSpecs ifindex (servers.map plainSpec)

/-- Stores or removes an override, and says whether it was another one. -/
def replaceOverride {β : Type} [DecidableEq β] (overrides : FiniteMap Int β) (ifindex : Int)
    (mode : Option β) : Bool × FiniteMap Int β :=
  (decide (overrides.lookup ifindex ≠ mode),
    match mode with
    | some mode => overrides.insert ifindex mode
    | none => overrides.erase ifindex)

def setLinkDnsOverTlsOverride (mode : Option TlsMode) : Outcome :=
  if resolver.linkIsManaged ifindex then (.error (.managedLink ifindex), resolver)
  else
    match resolver.routing.setDnsOverTls ifindex (mode.getD resolver.dnsOverTls) with
    | (.error error, routing) => (.error error, { resolver with routing := routing })
    | (.ok routeChanged, routing) =>
      let replaced := replaceOverride resolver.linkDnsOverTlsOverrides ifindex mode
      (.ok (), finishRoutingChange
        { resolver with routing := routing, linkDnsOverTlsOverrides := replaced.2 }
        (routeChanged || replaced.1))

def setLinkDnsOverTls (mode : TlsMode) : Outcome :=
  resolver.setLinkDnsOverTlsOverride ifindex (some mode)

def setLinkDnssecOverride (mode : Option ValidationMode) : Outcome :=
  if resolver.linkIsManaged ifindex then (.error (.managedLink ifindex), resolver)
  else
    match resolver.routing.setDnssec ifindex (mode.getD resolver.dnssec) with
    | (.error error, routing) => (.error error, { resolver with routing := routing })
    | (.ok routeChanged, routing) =>
      let replaced := replaceOverride resolver.linkDnssecOverrides ifindex mode
      (.ok (), finishRoutingChange
        { resolver with routing := routing, linkDnssecOverrides := replaced.2 }
        (routeChanged || replaced.1))

def setLinkDnssec (mode : ValidationMode) : Outcome :=
  resolver.setLinkDnssecOverride ifindex (some mode)

def revertLink : Outcome :=
  if resolver.linkIsManaged ifindex then (.error (.managedLink ifindex), resolver)
  else
    match tryAll [fun table => table.revert ifindex,
        fun table => table.setDnsOverTls ifindex resolver.dnsOverTls,
        fun table => table.setDnssec ifindex resolver.dnssec] false resolver.routing with
    | (.error error, routing) => (.error error, { resolver with routing := routing })
    | (.ok routeChanged, routing) =>
      let dnsOverTls := removeEntry resolver.linkDnsOverTlsOverrides ifindex
      let dnssec := removeEntry resolver.linkDnssecOverrides ifindex
      let specs := removeEntry resolver.linkServerSpecs ifindex
      (.ok (), finishRoutingChange
        { resolver with
          routing := routing
          linkDnsOverTlsOverrides := dnsOverTls.2
          linkDnssecOverrides := dnssec.2
          linkServerSpecs := specs.2 }
        (routeChanged || specs.1 || (dnsOverTls.1 || dnssec.1)))

/-! ### Policies -/

def linkPolicy : TlsMode × ValidationMode :=
  match (resolver.networkdLinks.lookup ifindex).filter (·.managed) with
  | some state => (state.dnsOverTls.getD resolver.dnsOverTls, state.dnssec.getD resolver.dnssec)
  | none =>
    ((resolver.linkDnsOverTlsOverrides.lookup ifindex).getD resolver.dnsOverTls,
      (resolver.linkDnssecOverrides.lookup ifindex).getD resolver.dnssec)

def expected : Except LinkError Bool → Bool
  | .ok changed => changed
  | .error _ => false

/-- Sets the modes of a link. -/
def reapplyOne (table : RoutingTable) (link : LinkState) : Bool × RoutingTable :=
  let first := table.setDnsOverTls link.ifindex (resolver.linkPolicy link.ifindex).1
  let second := first.2.setDnssec link.ifindex (resolver.linkPolicy link.ifindex).2
  (expected first.1 || expected second.1, second.2)

def reapplyLinkSecurityPolicies : Bool × LinkResolver :=
  let reapplied := reportAll resolver.reapplyOne resolver.routing.inOrder (false, resolver.routing)
  (reapplied.1, { resolver with routing := reapplied.2 })

/-! ### What networkd says -/

/-- The tables while the links of networkd are gone through. -/
structure Gathered where
  routing : RoutingTable
  changed : Bool
  removedIdentities : List Int
  managedIdentities : List (Int × List SocketAddr × List DnsServerSpec)

/-- Reverts the links that were managed and are so no longer. -/
def dropUnmanaged (networkd incoming : FiniteMap Int NetworkdLinkState) (gathered : Gathered) :
    List Int → Except LinkError Unit × Gathered
  | [] => (.ok (), gathered)
  | ifindex :: rest =>
    let wasManaged := ((networkd.lookup ifindex).map (·.managed)).getD false
    let stillManaged := ((incoming.lookup ifindex).map (·.managed)).getD false
    if wasManaged && !stillManaged then
      let gathered :=
        { gathered with removedIdentities := gathered.removedIdentities ++ [ifindex] }
      match gathered.routing.links.lookup ifindex with
      | none => dropUnmanaged networkd incoming gathered rest
      | some _ =>
        match gathered.routing.revert ifindex with
        | (.error error, routing) => (.error error, { gathered with routing := routing })
        | (.ok changed, routing) =>
          dropUnmanaged networkd incoming
            { gathered with routing := routing, changed := gathered.changed || changed } rest
    else dropUnmanaged networkd incoming gathered rest

/-- The changes that a managed link makes, one after another. -/
def networkdChanges (link : NetworkdLinkState) : List (RoutingTable → Change) :=
  [fun table => table.setDns link.ifindex link.dnsServers,
    fun table => table.setDomains link.ifindex link.domains,
    fun table => table.setDefaultRoute link.ifindex link.defaultRoute,
    fun table => table.setLlmnr link.ifindex link.llmnr,
    fun table => table.setMulticastDns link.ifindex link.multicastDns,
    fun table => table.setDnsOverTls link.ifindex (link.dnsOverTls.getD resolver.dnsOverTls),
    fun table => table.setDnssec link.ifindex (link.dnssec.getD resolver.dnssec),
    fun table =>
      table.setDnssecNegativeTrustAnchors link.ifindex link.dnssecNegativeTrustAnchors]

/-- Takes over what networkd says of the managed links that have an entry. -/
def takeManaged (resolver : LinkResolver) (gathered : Gathered) :
    List NetworkdLinkState → Except LinkError Unit × Gathered
  | [] => (.ok (), gathered)
  | link :: rest =>
    match gathered.routing.links.lookup link.ifindex with
    | none =>
      resolver.takeManaged
        { gathered with removedIdentities := gathered.removedIdentities ++ [link.ifindex] } rest
    | some _ =>
      match tryAll (resolver.networkdChanges link) gathered.changed gathered.routing with
      | (.error error, routing) => (.error error, { gathered with routing := routing })
      | (.ok changed, routing) =>
        let managedIdentities :=
          match routing.links.lookup link.ifindex with
          | some state =>
            gathered.managedIdentities ++ [(link.ifindex, state.dnsServers, link.dnsServerSpecs)]
          | none => gathered.managedIdentities
        resolver.takeManaged
          { gathered with
            routing := routing
            changed := changed
            managedIdentities := managedIdentities } rest

/-- The servers to store for a managed link. -/
def managedSpecs (identity : Int × List SocketAddr × List DnsServerSpec) :
    Int × List DnsServerSpec :=
  (identity.1,
    if identity.2.2.isEmpty then identity.2.1.map plainSpec
    else normalizeLinkSpecs identity.2.1 identity.2.2)

/-- Keeps the entries whose index passes a test, and says whether there are fewer. -/
def retainIndices {β : Type} (entries : FiniteMap Int β) (keep : Int → Bool) :
    Bool × FiniteMap Int β :=
  let kept := retain (fun ifindex _ => keep ifindex) entries
  (kept.keys.length != entries.keys.length, kept)

/-- The orders in which the hash maps of links are gone through. -/
structure Orders where
  previous : List Int → List Int
  incoming : List Int → List Int

/-- The links by their index, where the last one counts. -/
def byIfindex (links : List NetworkdLinkState) : FiniteMap Int NetworkdLinkState :=
  links.foldl (fun incoming link => incoming.insert link.ifindex link) ∅

/-- The second half of `sync_networkd_links`, when the links have been taken over. -/
def finishNetworkd (incoming : FiniteMap Int NetworkdLinkState)
    (gathered : Gathered) : LinkResolver :=
  let unmanaged := fun ifindex => !(((incoming.lookup ifindex).map (·.managed)).getD false)
  let dnsOverTls := retainIndices resolver.linkDnsOverTlsOverrides unmanaged
  let dnssec := retainIndices resolver.linkDnssecOverrides unmanaged
  let removed := reportAll removeEntry gathered.removedIdentities (false, resolver.linkServerSpecs)
  let replaced :=
    reportAll replaceLinkServerSpecs (gathered.managedIdentities.map managedSpecs) removed
  let reapplied := reapplyLinkSecurityPolicies
    { resolver with
      routing := gathered.routing
      networkdLinks := incoming
      linkDnsOverTlsOverrides := dnsOverTls.2
      linkDnssecOverrides := dnssec.2
      linkServerSpecs := replaced.2 }
  reapplied.2.finishRoutingChange
    (gathered.changed || replaced.1 || (dnsOverTls.1 || dnssec.1) || reapplied.1)

def syncNetworkdLinks (orders : Orders) (resolver : LinkResolver) (links : List NetworkdLinkState) :
    Outcome :=
  let incoming := byIfindex links
  match dropUnmanaged resolver.networkdLinks incoming ⟨resolver.routing, false, [], []⟩
      (orders.previous resolver.networkdLinks.keys) with
  | (.error error, gathered) => (.error error, { resolver with routing := gathered.routing })
  | (.ok (), gathered) =>
    match resolver.takeManaged gathered
        (((orders.incoming incoming.keys).filterMap incoming.lookup).filter (·.managed)) with
    | (.error error, gathered) => (.error error, { resolver with routing := gathered.routing })
    | (.ok (), gathered) => (.ok (), resolver.finishNetworkd incoming gathered)

/-! ### What the kernel says -/

def syncKernelLinks (orders : Orders) (resolver : LinkResolver) (links : List KernelLinkState) :
    Outcome :=
  match resolver.routing.syncKernelLinks links with
  | (.error error, routing) => (.error error, { resolver with routing := routing })
  | (.ok routeChanged, routing) =>
    let live := fun ifindex => (routing.links.lookup ifindex).isSome
    let specs := retainIndices resolver.linkServerSpecs live
    let dnsOverTls := retainIndices resolver.linkDnsOverTlsOverrides live
    let dnssec := retainIndices resolver.linkDnssecOverrides live
    let reapplied := reapplyLinkSecurityPolicies
      { resolver with
        routing := routing
        linkServerSpecs := specs.2
        linkDnsOverTlsOverrides := dnsOverTls.2
        linkDnssecOverrides := dnssec.2 }
    let synchronized := reapplied.2.finishRoutingChange
      (routeChanged || specs.1 || (dnsOverTls.1 || dnssec.1) || reapplied.1)
    syncNetworkdLinks orders synchronized (values synchronized.networkdLinks)

/-! ### A new configuration -/

def reloadProtocolModes (config : LoadedConfig) : LinkResolver :=
  finishRoutingChange
    { resolver with llmnrMode := config.llmnr, multicastDnsMode := config.multicastDns }
    (decide (resolver.llmnrMode ≠ config.llmnr) ||
      decide (resolver.multicastDnsMode ≠ config.multicastDns))

def reloadConfig (config : LoadedConfig) : LinkResolver :=
  let moded := resolver.reloadProtocolModes config
  let cache :=
    if resolver.staleRetention ≠ config.staleRetention then
      moded.cache.setStaleRetention config.staleRetention
    else moded.cache
  let reapplied := reapplyLinkSecurityPolicies
    { moded with
      config := config.servers
      dnsOverTls := config.dnsOverTls
      dnssec := config.dnssec
      staleRetention := config.staleRetention
      cache := cache }
  { reapplied.2 with
    cache := reapplied.2.cache.flush
    routingGeneration := reapplied.2.routingGeneration + 1 }

end LinkResolver

end RustdResolved.Routing.Links
