import RustdResolved.Lib.Runs
import RustdResolved.Query.SingleFlight
import RustdResolved.Query.Store
import RustdResolved.Query.Upstreams

/-! # Queries that share a cache and transactions in flight

`query_on_link_inner` looks for a response in the cache, and then asks the servers or waits for
another request that does. Many requests run at once. Here a request goes from phase to phase, with
a step for each thing it does to the state it shares with the others, and a run of the system is any
interleaving of such steps.

Every response has an origin that nothing reads: the request that got it from a server, and the
verdict of the validator. -/

namespace RustdResolved.Query.OnLink

open Wire Octets PacketHeader Packet Resolver Error Modes
open Dnssec.Semantics (DnssecVerdict)
open Store SingleFlight Upstreams

/-! ### Requests and their keys -/

/-- A request, with the routing generation that it found. -/
structure Request where
  query : Bytes
  flags : Nat
  ifindex : Option Int
  generation : UInt64
  deriving DecidableEq, Repr

structure InflightKey where
  route : UInt64
  query : Bytes
  deriving DecidableEq, Repr

/-- `generation.rotate_left(32) ^ ifindex`. -/
def routeCacheId (generation : UInt64) (ifindex : Option Int) : UInt64 :=
  let ifindex : UInt64 := match ifindex with
    | some value => if 0 ≤ value then UInt64.ofNat value.toNat else 0
    | none => 0
  ((generation <<< 32) ||| (generation >>> 32)) ^^^ ifindex

namespace Request
variable (request : Request)

def route : UInt64 := routeCacheId request.generation request.ifindex

/-- The identifier of the query, and the key of its response in the cache. -/
def identify : Except ResolveError (Nat × CacheKey) := do
  let header ← liftWire (Header.parse request.query)
  let question ← liftWire (firstQuestion request.query)
  .ok (header.id,
    { name := question.name.canonicalWire
      rrType := question.rrType
      rrClass := question.rrClass
      checkingDisabled := header.checkingDisabled
      route := request.route })

def inflightKey : Except ResolveError InflightKey := do
  let query ← liftWire (rewriteId request.query 0)
  .ok ⟨request.route, query⟩

end Request

/-- Where a response came from. -/
structure Origin where
  request : Request
  verdict : DnssecVerdict
  scope : ScopeKind
  deriving DecidableEq, Repr

structure SharedResponse where
  packet : Bytes
  ifindex : Option Int
  origin : Origin
  deriving DecidableEq, Repr

/-- What a request returns. -/
structure Delivered where
  packet : Bytes
  flags : Nat
  ifindex : Option Int
  origin : Origin
  deriving DecidableEq, Repr

variable (response : Bytes)

def normalizeSharedResponse (ifindex : Option Int) (origin : Origin) : Option SharedResponse :=
  match rewriteId response 0 with
  | .ok packet => some ⟨packet, ifindex, origin⟩
  | .error _ => none

def authenticatedResponseFlag : Nat :=
  match Header.parse response with
  | .ok header => if header.authenticData then rustdResolveAuthenticated else 0
  | .error _ => 0

def cacheResponseFlags : Nat :=
  authenticatedResponseFlag response ||| rustdResolveDns ||| rustdResolveFromCache

def dnsNetworkResponseFlags : Nat :=
  authenticatedResponseFlag response ||| rustdResolveDns ||| rustdResolveFromNetwork

def fromCache (hit : Hit Origin) : Delivered :=
  ⟨hit.packet, cacheResponseFlags hit.packet, hit.ifindex, hit.tag⟩

def sourceIfindex : ScopeKind → Option Int
  | .link ifindex => some ifindex
  | _ => none

/-! ### Phases -/

/-- What a request has found out before it takes part in a transaction. -/
structure Task where
  id : Nat
  key : CacheKey
  inflightKey : InflightKey
  scopes : List RouteScope
  staleResponse : Option (Hit Origin)
  deriving DecidableEq

/-- What a request does next. -/
inductive Phase
  /-- To look for a fresh response. -/
  | arrived
  /-- To look for a stale response, and for the servers to ask. -/
  | missed (id : Nat) (key : CacheKey)
  /-- To begin a transaction. -/
  | ready (task : Task)
  /-- To ask the servers, as the leader of a transaction. -/
  | leading (task : Task) (entry : Nat)
  /-- To put a response into the cache. -/
  | storing (task : Task) (entry : Nat) (fetched : Fetched)
  /-- To look for a response to return in place of an error. -/
  | failing (task : Task) (entry : Nat) (error : ResolveError)
  /-- To give the followers a response. -/
  | completing (key : InflightKey) (entry : Nat) (response : Option SharedResponse)
      (result : Except ResolveError Delivered)
  /-- To take the transaction out of the table. -/
  | unlinking (key : InflightKey) (entry : Nat) (result : Except ResolveError Delivered)
  /-- To wait for the leader. -/
  | waiting (task : Task) (entry : Nat)
  | done (result : Except ResolveError Delivered)
  deriving DecidableEq

/-- What the requests share. -/
structure Shared where
  cache : Cache Origin
  inflight : Inflight InflightKey SharedResponse
  generation : UInt64

/-- What comes from outside at a step. -/
structure Moment where
  now : Nat
  cancelled : Bool
  /-- The order of a hash map of the cache. -/
  order : List CacheKey → List CacheKey
  /-- The scopes for the question, among those that are relevant. -/
  routing : Except ResolveError (List RouteScope)
  outside : ScopeKind → Attempts
  arrivals : List RouteScope → List RouteScope

section
variable (config : Config) (moment : Moment) (shared : Shared) (request : Request)

def readCache : Bool := config.cache && !hasFlag request.flags rustdResolveNoCache

def allowStale : Bool := readCache config request && !hasFlag request.flags rustdResolveNoStale

def lookForFresh : Phase :=
  match request.identify with
  | .error error => .done (.error error)
  | .ok (id, key) =>
    if shared.generation ≠ request.generation then .done (.error .queryAborted)
    else if readCache config request then
      match shared.cache.getScoped key id false moment.now with
      | some hit => .done (.ok (fromCache hit))
      | none => .missed id key
    else .missed id key

/-- The scopes that a request is sent to, and its key in flight. -/
def findScopes : Except ResolveError (List RouteScope × InflightKey) :=
  if hasFlag request.flags rustdResolveNoNetwork ||
      !requestProtocolEnabled request.flags rustdResolveDns then .error .noNameServers
  else do
    let scopes ← moment.routing
    if scopes.isEmpty then .error .noNameServers
    else do
      let inflightKey ← request.inflightKey
      .ok (scopes, inflightKey)

def prepare (id : Nat) (key : CacheKey) : Phase :=
  let staleResponse :=
    if allowStale config request then shared.cache.getScoped key id true moment.now else none
  match findScopes moment request with
  | .error error => .done (.error error)
  | .ok (scopes, inflightKey) => .ready ⟨id, key, inflightKey, scopes, staleResponse⟩

variable (task : Task)

def join : Phase × Shared :=
  let (role, inflight) := shared.inflight.beginFor task.inflightKey
  let phase := match role with
    | .leader entry => Phase.leading task entry
    | .follower entry => Phase.waiting task entry
  (phase, { shared with inflight := inflight })

def ask (entry : Nat) : Phase :=
  let attempts := if task.staleResponse.isSome then 1 else config.attempts
  let result := queryScopesWithAttempts config request.query request.flags task.scopes
    moment.outside moment.arrivals attempts
  let result := if shared.generation ≠ request.generation then .error .queryAborted else result
  match result with
  | .ok fetched => .storing task entry fetched
  | .error .queryAborted => .completing task.inflightKey entry none (.error .queryAborted)
  | .error error => .failing task entry error

/-- The cache with a response from a server, if it takes it. -/
def storeFetched (key : CacheKey) (fetched : Fetched) : Cache Origin :=
  if config.cache && (config.cacheFromLocalhost || !fetched.server.loopback) then
    match shared.cache.insertScoped moment.order key fetched.response
        (sourceIfindex fetched.scope) ⟨request, fetched.verdict, fetched.scope⟩
        moment.now with
    | .ok (_, cache) => cache
    | .error _ => shared.cache
  else shared.cache

def store (entry : Nat) (fetched : Fetched) : Phase × Shared :=
  let ifindex := sourceIfindex fetched.scope
  let origin : Origin := ⟨request, fetched.verdict, fetched.scope⟩
  (.completing task.inflightKey entry (normalizeSharedResponse fetched.response ifindex origin)
      (.ok ⟨fetched.response, dnsNetworkResponseFlags fetched.response, ifindex, origin⟩),
    { shared with cache := storeFetched config moment shared request task.key fetched })

/-- The response that a failed leader returns all the same. -/
def fallback : Option (Hit Origin) :=
  if readCache config request then
    task.staleResponse.or
      (shared.cache.getScoped task.key task.id (allowStale config request) moment.now)
  else none

def settle (entry : Nat) (error : ResolveError) : Phase :=
  match fallback config moment shared request task with
  | some hit =>
    .completing task.inflightKey entry (normalizeSharedResponse hit.packet hit.ifindex hit.tag)
      (.ok (fromCache hit))
  | none => .completing task.inflightKey entry none (.error error)

def await (entry : Nat) : Phase :=
  match shared.inflight.wait entry with
  | .running => if moment.cancelled then .done (.error .queryAborted) else .waiting task entry
  | .finished none => .ready task
  | .finished (some response) =>
    match rewriteId response.packet task.id with
    | .ok packet =>
      .done (.ok ⟨packet, dnsNetworkResponseFlags packet, response.ifindex, response.origin⟩)
    | .error error => .done (.error (.wire error))

/-- One step of a request. -/
def advance : Phase → Phase × Shared
  | .arrived => (lookForFresh config moment shared request, shared)
  | .missed id key => (prepare config moment shared request id key, shared)
  | .ready task => join shared task
  | .leading task entry => (ask config moment shared request task entry, shared)
  | .storing task entry fetched => store config moment shared request task entry fetched
  | .failing task entry error => (settle config moment shared request task entry error, shared)
  | .completing key entry response result =>
    (.unlinking key entry result,
      { shared with inflight := shared.inflight.publish entry response })
  | .unlinking key entry result =>
    (.done result, { shared with inflight := shared.inflight.unlink key entry })
  | .waiting task entry => (await moment shared task entry, shared)
  | .done result => (.done result, shared)

end

/-! ### The system -/

structure Client where
  request : Request
  phase : Phase
  deriving DecidableEq

structure System where
  shared : Shared
  clients : List Client

inductive Input
  /-- A request comes to the cache, and has read the routing generation. -/
  | arrive (query : Bytes) (flags : Nat) (ifindex : Option Int)
  /-- A request takes a step. -/
  | advance (place : Nat) (moment : Moment)
  /-- The routing changes. -/
  | reroute
  | flush
  | setStaleRetention (staleRetention : Nat)

/-- The resolver at its start. -/
def System.new (cacheSize maximumTtl staleRetention : Nat) (storeNegative : Bool) : System :=
  ⟨⟨Cache.new cacheSize maximumTtl staleRetention storeNegative, Inflight.empty, 1⟩, []⟩

def step (config : Config) (system : System) : Input → System
  | .arrive query flags ifindex =>
    { system with
      clients := system.clients ++ [⟨⟨query, flags, ifindex, system.shared.generation⟩, .arrived⟩] }
  | .advance place moment =>
    match system.clients[place]? with
    | some client =>
      let (phase, shared) := advance config moment system.shared client.request client.phase
      ⟨shared, system.clients.set place { client with phase := phase }⟩
    | none => system
  | .reroute =>
    { system with shared := { system.shared with generation := system.shared.generation + 1 } }
  | .flush => { system with shared := { system.shared with cache := system.shared.cache.flush } }
  | .setStaleRetention staleRetention =>
    { system with shared := { system.shared with
      cache := system.shared.cache.setStaleRetention staleRetention } }

end RustdResolved.Query.OnLink
