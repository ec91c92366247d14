import RustdResolved.Dnssec.Authenticate
import RustdResolved.Edns.Exchange

/-! # Asking the servers of the scopes

A query goes to the servers of one or more scopes. `query_servers` tries the servers of a scope one
after another, and every response it returns has passed `authenticate_dns_response`.

What comes from outside (the choice of a server, its answer, the budget of attempts, a cancellation,
and the state that other requests have left the validator in) is an `Attempt`. -/

namespace RustdResolved.Query.Upstreams

open List Wire.Octets Resolver Error Modes
open Dnssec.Rrsets (PositiveTrustAnchor)
open Dnssec Semantics Authenticate Edns.Opt
open Edns.Exchange (extendedErrorOf)

def rcodeRefused : Nat := 5

inductive ScopeKind
  | global
  | link (ifindex : Int)
  | delegate (index : Nat)
  | fallback
  deriving DecidableEq, Repr

/-- A server of a scope. -/
structure Upstream where
  loopback : Bool
  pointsToStub : Bool
  deriving DecidableEq, Repr

structure RouteScope where
  kind : ScopeKind
  servers : List Upstream
  deriving DecidableEq, Repr

/-- What is configured for queries. The servers of a link have the link's DNSSEC mode and its
negative trust anchors. -/
structure Config where
  cache : Bool
  cacheFromLocalhost : Bool
  attempts : Nat
  dnssec : ScopeKind → ValidationMode
  negativeAnchors : ScopeKind → List Text
  positiveAnchors : List PositiveTrustAnchor

/-- What one attempt to get a response meets. -/
structure Attempt where
  cancelled : Bool
  /-- The budget is exhausted or has expired before the attempt. -/
  spentBefore : Bool
  /-- The place of the server that `select_server` chooses. -/
  selected : Option Nat
  /-- The answer of `exchange_with_features`. -/
  exchange : Except ResolveError Bytes
  surroundings : Surroundings
  world : World
  spentAfter : Bool

/-- What the attempts at the servers of a scope meet, and the budget that they leave. -/
structure Attempts where
  attempt : Nat → Attempt
  expired : Bool
  exhausted : Bool

/-- A response that was accepted, the server it came from, and the verdict on it. -/
structure Fetched where
  response : Bytes
  server : Upstream
  scope : ScopeKind
  verdict : DnssecVerdict
  deriving DecidableEq, Repr

structure Vars where
  attempted : List Nat
  lastResponse : Option Fetched
  lastError : Option ResolveError

/-- What a round of the loop leads to. -/
inductive Next
  | returns (result : Except ResolveError Fetched)
  | breaks (vars : Vars)
  | continues (vars : Vars)

def responseFullRcode (response : Bytes) : Except WireError (Nat × Option Nat × Option Text) := do
  let opt ← inspectOpt response
  let rcode ← fullRcode response opt
  match ← extendedErrorOf opt with
  | some (code, message) => .ok (rcode, some code, message)
  | none => .ok (rcode, none, none)

def responseIsSuccess (response : Bytes) : Bool :=
  match responseFullRcode response with
  | .ok (rcode, _) => rcode == 0
  | .error _ => false

def responseIsRefused (response : Bytes) : Bool :=
  match responseFullRcode response with
  | .ok (rcode, _) => rcode &&& 0x000f == rcodeRefused
  | .error _ => false

/-- An error after which no other server is asked. -/
def isTerminal : ResolveError → Bool
  | .dnssecValidationFailed .. => true
  | .dnsError _ _ (some _) _ => true
  | _ => false

section
variable (config : Config) (query : Bytes) (requestFlags : Nat)

section
variable (kind : ScopeKind)

/-- What the validator finds around it for a server of a scope. -/
def Config.surroundings (outside : Surroundings) : Surroundings :=
  { outside with
    mode := config.dnssec kind
    negativeAnchors := config.negativeAnchors kind
    positiveAnchors := config.positiveAnchors }

def tryServer (serverCount : Nat) (server : Upstream) (attempt : Attempt) (vars : Vars) : Next :=
  match attempt.exchange with
  | .ok response =>
    match (authenticateDnsResponse (config.surroundings kind attempt.surroundings) query response
        requestFlags attempt.world).1 with
    | .error error => .returns (.error error)
    | .ok (verdict, response) =>
      let fetched : Fetched := ⟨response, server, kind, verdict⟩
      if responseIsRefused response then
        let vars := { vars with lastResponse := some fetched }
        if vars.attempted.length = serverCount then .breaks vars else .continues vars
      else .returns (.ok fetched)
  | .error error =>
    if isTerminal error then .returns (.error error)
    else
      let vars := { vars with lastError := some error }
      if attempt.spentAfter then .breaks vars else .continues vars

/-- One round of the loop. -/
def attemptServer (servers : List Upstream) (attempt : Attempt) (vars : Vars) : Next :=
  if attempt.cancelled then .returns (.error .queryAborted)
  else if attempt.spentBefore then .breaks vars
  else
    let attempted := if vars.attempted.length = servers.length then [] else vars.attempted
    match attempt.selected with
    | none => .breaks vars
    | some place =>
      match servers[place]? with
      | none => .breaks vars
      | some server =>
        tryServer config query requestFlags kind servers.length server attempt
          { vars with attempted := attempted.insert place }

/-- The rounds of the loop. -/
def attemptServers (servers : List Upstream) : List Attempt → Vars → Next
  | [], vars => .breaks vars
  | attempt :: rest, vars =>
    match attemptServer config query requestFlags kind servers attempt vars with
    | .continues vars => attemptServers servers rest vars
    | next => next

end

/-- The result after the loop. -/
def afterAttempts (attempts : Attempts) (vars : Vars) : Except ResolveError Fetched :=
  match vars.lastResponse with
  | some fetched => .ok fetched
  | none =>
    if attempts.expired then .error (.io .timedOut)
    else if attempts.exhausted then .error .maxAttemptsReached
    else .error (vars.lastError.getD .noNameServers)

def queryServers (scope : RouteScope) (attempts : Attempts) (count : Nat) :
    Except ResolveError Fetched :=
  let servers := scope.servers.filter (!·.pointsToStub)
  if scope.servers.isEmpty then .error .noNameServers
  else if servers.isEmpty then .error .stubLoop
  else
    match attemptServers config query requestFlags scope.kind servers
        ((List.range count).map attempts.attempt) ⟨[], none, none⟩ with
    | .returns result => result
    | .breaks vars | .continues vars => afterAttempts attempts vars

/-- The first success, or else the last response, or else the last error. -/
def collect : List (Except ResolveError Fetched) → (success response : Option Fetched) →
    Option ResolveError → Except ResolveError Fetched
  | [], some fetched, _, _ | [], none, some fetched, _ => .ok fetched
  | [], none, none, error => .error (error.getD .noNameServers)
  | .ok fetched :: rest, success, response, error =>
    if responseIsSuccess fetched.response then
      collect rest (success.or (some fetched)) response error
    else collect rest success (some fetched) error
  | .error newError :: rest, success, response, _ => collect rest success response (some newError)

/-- Several scopes are asked at once; `arrivals` is the order in which they answer. -/
def queryScopesWithAttempts (scopes : List RouteScope) (outside : ScopeKind → Attempts)
    (arrivals : List RouteScope → List RouteScope) (count : Nat) : Except ResolveError Fetched :=
  match scopes with
  | [scope] => queryServers config query requestFlags scope (outside scope.kind) count
  | _ =>
    let results := (arrivals scopes).map fun scope =>
      queryServers config query requestFlags scope (outside scope.kind) count
    collect results none none none

end

/-! ### Every response is authenticated -/

variable {fetched : Fetched} {kind : ScopeKind}

section
variable {config : Config} {query : Bytes} {requestFlags count : Nat} {holds : Fetched → Prop}
  {attempt : Attempt} {vars : Vars} {servers : List Upstream}

def Attempt.Accepts (config : Config) (query : Bytes) (requestFlags : Nat) (kind : ScopeKind)
    (holds : Fetched → Prop) (attempt : Attempt) : Prop :=
  ∀ server answer verdict accepted world', attempt.exchange = .ok answer →
    authenticateDnsResponse (config.surroundings kind attempt.surroundings) query
      answer requestFlags
      attempt.world = (.ok (verdict, accepted), world') →
    holds ⟨accepted, server, kind, verdict⟩

/-- The results of a round have a property, those that it only keeps included. -/
def Next.All (holds : Fetched → Prop) : Next → Prop
  | .returns result => ∀ fetched, result = .ok fetched → holds fetched
  | .breaks vars | .continues vars => ∀ fetched, vars.lastResponse = some fetched → holds fetched

theorem tryServer_all {serverCount : Nat} {server : Upstream}
    (haccepts : attempt.Accepts config query requestFlags kind holds)
    (hvars : (Next.continues vars).All holds) :
    (tryServer config query requestFlags kind serverCount server attempt vars).All holds := by
  unfold tryServer
  cases hexchange : attempt.exchange with
  | error error =>
    dsimp only
    split_ifs
    · intro fetched h
      cases h
    · exact hvars
    · exact hvars
  | ok answer =>
    dsimp only
    rcases hauth : authenticateDnsResponse (config.surroundings kind attempt.surroundings) query
      answer requestFlags attempt.world with ⟨error | ⟨verdict, accepted⟩, world'⟩
    · intro fetched h
      cases h
    · have hfetched : holds ⟨accepted, server, kind, verdict⟩ :=
        haccepts server answer verdict accepted world' hexchange hauth
      dsimp only
      split_ifs <;> intro fetched h <;> cases h <;> exact hfetched

theorem attemptServer_all (haccepts : attempt.Accepts config query requestFlags kind holds)
    (hvars : (Next.continues vars).All holds) :
    (attemptServer config query requestFlags kind servers attempt vars).All holds := by
  unfold attemptServer
  split
  · intro fetched h
    cases h
  · split
    · exact hvars
    · dsimp only
      split
      · exact hvars
      · split
        · exact hvars
        · exact tryServer_all haccepts hvars

theorem attemptServers_all :
    ∀ (attempts : List Attempt) (vars : Vars),
      (∀ attempt ∈ attempts, attempt.Accepts config query requestFlags kind holds) →
      (Next.continues vars).All holds →
      (attemptServers config query requestFlags kind servers attempts vars).All holds
  | [], _, _, hvars => hvars
  | attempt :: rest, vars, haccepts, hvars => by
    rw [List.forall_mem_cons] at haccepts
    have hround : (attemptServer config query requestFlags kind servers attempt vars).All holds :=
      attemptServer_all haccepts.1 hvars
    unfold attemptServers
    split
    · rename_i next heq
      rw [heq] at hround
      exact attemptServers_all rest next haccepts.2 hround
    · exact hround

theorem queryServers_all {scope : RouteScope} {attempts : Attempts}
    (haccepts : ∀ n, (attempts.attempt n).Accepts config query requestFlags scope.kind holds)
    (h : queryServers config query requestFlags scope attempts count = .ok fetched) :
    holds fetched := by
  unfold queryServers at h
  have hloop : (attemptServers config query requestFlags scope.kind
      (scope.servers.filter (!·.pointsToStub)) ((range count).map attempts.attempt)
      ⟨[], none, none⟩).All holds := by
    refine attemptServers_all _ _ (fun attempt hattempt => ?_) fun _ h => by cases h
    obtain ⟨n, -, rfl⟩ := mem_map.mp hattempt
    exact haccepts n
  have hafter : ∀ vars, afterAttempts attempts vars = .ok fetched →
      vars.lastResponse = some fetched := by
    intro vars hvars
    unfold afterAttempts at hvars
    split at hvars
    · cases hvars
      assumption
    · split_ifs at hvars
  dsimp only at h
  split_ifs at h
  split at h
  · rename_i heq
    rw [heq] at hloop
    exact hloop fetched h
  · rename_i heq
    rw [heq] at hloop
    exact hloop fetched (hafter _ h)
  · rename_i heq
    rw [heq] at hloop
    exact hloop fetched (hafter _ h)

theorem collect_mem :
    ∀ (results : List (Except ResolveError Fetched)) (success response : Option Fetched)
      (error : Option ResolveError), collect results success response error = .ok fetched →
      .ok fetched ∈ results ∨ success = some fetched ∨ response = some fetched
  | [], some other, _, _, h => by
    cases h
    exact Or.inr (Or.inl rfl)
  | [], none, some other, _, h => by
    cases h
    exact Or.inr (Or.inr rfl)
  | [], none, none, _, h => by cases h
  | .ok new :: rest, success, response, error, h => by
    unfold collect at h
    split_ifs at h
    · rcases collect_mem rest _ _ _ h with hmem | hsuccess | hresponse
      · exact Or.inl (List.mem_cons_of_mem _ hmem)
      · cases success with
        | none =>
          cases hsuccess
          exact Or.inl List.mem_cons_self
        | some first => exact Or.inr (Or.inl hsuccess)
      · exact Or.inr (Or.inr hresponse)
    · rcases collect_mem rest _ _ _ h with hmem | hsuccess | hresponse
      · exact Or.inl (List.mem_cons_of_mem _ hmem)
      · exact Or.inr (Or.inl hsuccess)
      · cases hresponse
        exact Or.inl List.mem_cons_self
  | .error _ :: rest, success, response, _, h => by
    rcases collect_mem rest _ _ _ h with hmem | hothers
    · exact Or.inl (List.mem_cons_of_mem _ hmem)
    · exact Or.inr hothers

/-- **Every response that the servers of the scopes give is one that was accepted**, and has what
every accepted one has. -/
theorem queryScopesWithAttempts_all {scopes : List RouteScope} {outside : ScopeKind → Attempts}
    {arrivals : List RouteScope → List RouteScope}
    (haccepts : ∀ kind n, ((outside kind).attempt n).Accepts config query requestFlags kind holds)
    (h : queryScopesWithAttempts config query requestFlags scopes outside arrivals count =
      .ok fetched) : holds fetched := by
  unfold queryScopesWithAttempts at h
  split at h
  · exact queryServers_all (haccepts _) h
  · rcases collect_mem _ _ _ _ h with hmem | hnone | hnone
    · obtain ⟨scope, -, hscope⟩ := mem_map.mp hmem
      exact queryServers_all (haccepts _) hscope
    · cases hnone
    · cases hnone

/-- The response is what `authenticate_dns_response` has made of the answer of a server. -/
def Authenticated (config : Config) (query : Bytes) (requestFlags : Nat) (fetched : Fetched) :
    Prop :=
  ∃ outside answer world world',
    authenticateDnsResponse (config.surroundings fetched.scope outside) query answer requestFlags
      world = (.ok (fetched.verdict, fetched.response), world')

end

end RustdResolved.Query.Upstreams
