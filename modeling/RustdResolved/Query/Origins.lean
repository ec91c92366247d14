import RustdResolved.Query.OnLink

/-! # Where responses come from

A request gets a response from a server, from the cache, or from a leader that may itself have it
from the cache. On its way the response gets other identifiers and its TTLs are aged. In every run,
the request that first got the response from a server is linked to the one it is delivered to: the
keys under which it was passed on agree. A property that the way leaves alone, and that every
response from a server has, is one of every response that is delivered (`run_originsOk`). -/

namespace RustdResolved.Query.Origins

open Lib Result Runs Wire Octets PacketHeader Packet Resolver.Error Store SingleFlight Upstreams
open OnLink

variable {config : Config} {admits : Request → Prop} {good : Origin → Bytes → Prop} {entry : Nat}
  {fetched : Fetched} {key : CacheKey} {origin : Origin} {packet : Bytes} {request : Request}
  {task : Task}

/-! ### Links between requests -/

def HasKey (request : Request) (key : CacheKey) : Prop := ∃ id, request.identify = .ok (id, key)

/-- A response that one request got can come to another: under a key of the cache that it shares
with some request, which in turn shares the key in flight with the other one. -/
def Linked (request origin : Request) : Prop :=
  ∃ between key flight, between.inflightKey = .ok flight ∧ request.inflightKey = .ok flight ∧
    HasKey between key ∧ HasKey origin key

/-- A query with a header has a key in flight. -/
theorem inflightKey_of_hasKey (h : HasKey request key) :
    ∃ flight, request.inflightKey = .ok flight := by
  obtain ⟨id, h⟩ := h
  obtain ⟨header, hheader, -⟩ := of_bind h
  have hlength : 2 ≤ request.query.length := by
    have hparse := liftWire_eq_ok.mp hheader
    unfold Header.parse at hparse
    split_ifs at hparse with hshort
    simp only [dnsHeaderLen] at hshort
    omega
  refine ⟨⟨request.route, u16ToBeBytes 0 ++ request.query.drop 2⟩, ?_⟩
  have hrewrite : rewriteId request.query 0 = .ok (u16ToBeBytes 0 ++ request.query.drop 2) :=
    rewriteId_eq_ok.mpr ⟨hlength, rfl⟩
  unfold Request.inflightKey
  rw [hrewrite]
  rfl

/-! ### The invariant -/

/-- A property of a response and its origin that the way of a response leaves alone. -/
structure Lasting (good : Origin → Bytes → Prop) : Prop where
  otherId : ∀ {origin packet packet' id}, good origin packet →
    rewriteId packet id = .ok packet' → good origin packet'
  aged : ∀ {origin packet packet' elapsed stale}, good origin packet →
    ageTtls packet elapsed stale = .ok packet' → good origin packet'

/-- Whatever the validator accepts for a request at a moment has the property. -/
def Accepts (good : Origin → Bytes → Prop) (config : Config) (moment : Moment) (request : Request) :
    Prop :=
  ∀ kind n, ((moment.outside kind).attempt n).Accepts config request.query request.flags kind
    fun fetched => good ⟨request, fetched.verdict, fetched.scope⟩ fetched.response

section
variable (good : Origin → Bytes → Prop)

def CachedFor (key : CacheKey) (packet : Bytes) (origin : Origin) : Prop :=
  good origin packet ∧ HasKey origin.request key

/-- What is passed on under a key in flight. -/
def SharedFor (flight : InflightKey) (packet : Bytes) (origin : Origin) : Prop :=
  good origin packet ∧ ∃ between key, between.inflightKey = .ok flight ∧ HasKey between key ∧
    HasKey origin.request key

/-- The task of a request has its keys, and a stale response for them. -/
structure TaskOk (request : Request) (task : Task) : Prop where
  flight : request.inflightKey = .ok task.inflightKey
  hasKey : HasKey request task.key
  stale : ∀ hit, task.staleResponse = some hit → CachedFor good task.key hit.packet hit.tag

/-- What a request may return. -/
def ResultOk (request : Request) (result : Except ResolveError Delivered) : Prop :=
  ∀ delivered, result = .ok delivered → ∃ flight, request.inflightKey = .ok flight ∧
    SharedFor good flight delivered.packet delivered.origin

def PhaseOk (inflight : Inflight InflightKey SharedResponse) (request : Request) : Phase → Prop
  | .arrived => True
  | .missed _ key => HasKey request key
  | .ready task => TaskOk good request task
  | .leading task entry | .waiting task entry | .failing task entry _ =>
    TaskOk good request task ∧ inflight.Made task.inflightKey entry
  | .storing task entry fetched =>
    (TaskOk good request task ∧ inflight.Made task.inflightKey entry) ∧
      good ⟨request, fetched.verdict, fetched.scope⟩ fetched.response
  | .completing key entry response result =>
    inflight.Made key entry ∧
      (∀ shared, response = some shared → SharedFor good key shared.packet shared.origin) ∧
      ResultOk good request result
  | .unlinking _ _ result | .done result => ResultOk good request result

/-- What holds of the state that the requests share. -/
structure SharedOk (shared : Shared) : Prop where
  cache : shared.cache.Holds (CachedFor good)
  inflight : shared.inflight.Fits fun key response =>
    SharedFor good key response.packet response.origin

structure SystemOk (admits : Request → Prop) (system : System) : Prop where
  shared : SharedOk good system.shared
  clients : ∀ client ∈ system.clients, admits client.request ∧
    PhaseOk good system.shared.inflight client.request client.phase

end

theorem PhaseOk.mono {inflight inflight' : Inflight InflightKey SharedResponse}
    (hext : inflight.Extends inflight') : ∀ {phase : Phase},
      PhaseOk good inflight request phase → PhaseOk good inflight' request phase
  | .arrived, h | .missed _ _, h | .ready _, h | .unlinking _ _ _, h | .done _, h => h
  | .leading _ _, h | .waiting _ _, h | .failing _ _ _, h => ⟨h.1, hext _ _ h.2⟩
  | .storing _ _ _, h => ⟨⟨h.1.1, hext _ _ h.1.2⟩, h.2⟩
  | .completing _ _ _ _, h => ⟨hext _ _ h.1, h.2⟩

/-! ### Steps of a request -/

section
variable (hlasting : Lasting good) (moment : Moment) {shared : Shared} {request : Request}
  {error : ResolveError} {flight : InflightKey} {hit : Hit Origin} {id : Nat}

theorem resultOk_error : ResultOk good request (.error error) := by
  intro delivered h
  cases h

/-- A response from the cache may be shared under the key in flight of the request. -/
theorem sharedFor_of_cachedFor (hkey : HasKey request key)
    (hflight : request.inflightKey = .ok flight) (h : CachedFor good key packet origin) :
    SharedFor good flight packet origin :=
  ⟨h.1, request, key, hflight, hkey, h.2⟩

theorem resultOk_fromCache (hkey : HasKey request key)
    (h : CachedFor good key hit.packet hit.tag) : ResultOk good request (.ok (fromCache hit)) := by
  intro delivered heq
  cases heq
  obtain ⟨flight, hflight⟩ := inflightKey_of_hasKey hkey
  exact ⟨flight, hflight, sharedFor_of_cachedFor hkey hflight h⟩

include hlasting

theorem getScoped_ok {now : Nat} {allowStale : Bool} (hshared : SharedOk good shared)
    (hget : shared.cache.getScoped key id allowStale now = some hit) :
    CachedFor good key hit.packet hit.tag := by
  obtain ⟨answer, packet, elapsed, stale, hcached, hpacket, haged⟩ := hshared.cache.getScoped hget
  exact ⟨hlasting.aged (hlasting.otherId hcached.1 hpacket) haged, hcached.2⟩

theorem normalizeSharedResponse_ok {ifindex : Option Int}
    {sharedResponse : SharedResponse} (hshared : SharedFor good flight packet origin)
    (h : normalizeSharedResponse packet ifindex origin = some sharedResponse) :
    SharedFor good flight sharedResponse.packet sharedResponse.origin := by
  unfold normalizeSharedResponse at h
  split at h
  · rename_i hpacket
    cases h
    exact ⟨hlasting.otherId hshared.1 hpacket, hshared.2⟩
  · cases h

theorem lookForFresh_ok (hshared : SharedOk good shared) :
    PhaseOk good shared.inflight request (lookForFresh config moment shared request) := by
  unfold lookForFresh
  split
  · exact resultOk_error
  · rename_i id key hidentify
    split_ifs
    · exact resultOk_error
    · split
      · rename_i hit hget
        exact resultOk_fromCache ⟨id, hidentify⟩ (getScoped_ok hlasting hshared hget)
      · exact ⟨id, hidentify⟩
    · exact ⟨id, hidentify⟩

theorem prepare_ok (hshared : SharedOk good shared) (hkey : HasKey request key) :
    PhaseOk good shared.inflight request (prepare config moment shared request id key) := by
  unfold prepare
  dsimp only
  split
  · exact resultOk_error
  · rename_i scopes flight hscopes
    refine ⟨?_, hkey, ?_⟩
    · unfold findScopes at hscopes
      split_ifs at hscopes
      obtain ⟨_, -, hscopes⟩ := of_bind hscopes
      split_ifs at hscopes
      obtain ⟨_, hflight, hscopes⟩ := of_bind hscopes
      cases hscopes
      exact hflight
    · intro hit hhit
      split_ifs at hhit
      exact getScoped_ok hlasting hshared hhit

omit hlasting in
theorem join_ok (hshared : SharedOk good shared) (htask : TaskOk good request task) :
    PhaseOk good (join shared task).2.inflight request (join shared task).1 := by
  have hmade := hshared.inflight.made_beginFor task.inflightKey
  unfold join
  dsimp only
  split
  · rename_i entry hrole
    rw [hrole] at hmade
    exact ⟨htask, hmade⟩
  · rename_i entry hrole
    rw [hrole] at hmade
    exact ⟨htask, hmade⟩

omit hlasting in
theorem ask_ok (haccepts : Accepts good config moment request) (htask : TaskOk good request task)
    (hmade : shared.inflight.Made task.inflightKey entry) :
    PhaseOk good shared.inflight request (ask config moment shared request task entry) := by
  unfold ask
  dsimp only
  split
  · rename_i fetched hresult
    refine ⟨⟨htask, hmade⟩, ?_⟩
    split_ifs at hresult <;> exact queryScopesWithAttempts_all haccepts hresult
  · exact ⟨hmade, fun _ h => (by cases h), resultOk_error⟩
  · exact ⟨htask, hmade⟩

theorem store_ok (htask : TaskOk good request task)
    (hmade : shared.inflight.Made task.inflightKey entry)
    (hgood : good ⟨request, fetched.verdict, fetched.scope⟩ fetched.response) :
    PhaseOk good shared.inflight request
      (store config moment shared request task entry fetched).1 := by
  have hsharedFor := sharedFor_of_cachedFor htask.hasKey htask.flight ⟨hgood, htask.hasKey⟩
  refine ⟨hmade, fun _ => normalizeSharedResponse_ok hlasting hsharedFor, ?_⟩
  intro delivered heq
  cases heq
  exact ⟨task.inflightKey, htask.flight, hsharedFor⟩

theorem storeFetched_holds (hkey : HasKey request key)
    (hgood : good ⟨request, fetched.verdict, fetched.scope⟩ fetched.response)
    (hcache : shared.cache.Holds (CachedFor good)) :
    (storeFetched config moment shared request key fetched).Holds (CachedFor good) := by
  unfold storeFetched
  split
  · split
    · rename_i hinsert
      exact hcache.insertScoped (fun _ hpacket => ⟨hlasting.otherId hgood hpacket, hkey⟩) hinsert
    · exact hcache
  · exact hcache

theorem settle_ok (hshared : SharedOk good shared)
    (htask : TaskOk good request task) (hmade : shared.inflight.Made task.inflightKey entry) :
    PhaseOk good shared.inflight request
      (settle config moment shared request task entry error) := by
  unfold settle
  split
  · rename_i hit hfallback
    have hcached : CachedFor good task.key hit.packet hit.tag := by
      unfold fallback at hfallback
      split_ifs at hfallback
      cases hstale : task.staleResponse with
      | some stale =>
        rw [hstale] at hfallback
        cases hfallback
        exact htask.stale _ hstale
      | none =>
        rw [hstale] at hfallback
        exact getScoped_ok hlasting hshared hfallback
    exact ⟨hmade, fun _ => normalizeSharedResponse_ok hlasting
      (sharedFor_of_cachedFor htask.hasKey htask.flight hcached),
      resultOk_fromCache htask.hasKey hcached⟩
  · exact ⟨hmade, fun _ h => (by cases h), resultOk_error⟩

theorem await_ok (hshared : SharedOk good shared) (htask : TaskOk good request task)
    (hmade : shared.inflight.Made task.inflightKey entry) :
    PhaseOk good shared.inflight request (await moment shared task entry) := by
  unfold await
  split
  · split_ifs
    · exact resultOk_error
    · exact ⟨htask, hmade⟩
  · exact htask
  · rename_i response hwait
    obtain ⟨hgood, hlinked⟩ := hshared.inflight.wait hmade hwait
    split
    · rename_i packet hpacket
      intro delivered heq
      cases heq
      exact ⟨task.inflightKey, htask.flight, hlasting.otherId hgood hpacket, hlinked⟩
    · exact resultOk_error

/-- **One step of a request** keeps what holds of it and of the shared state. -/
theorem advance_ok {phase : Phase} (haccepts : Accepts good config moment request)
    (hshared : SharedOk good shared) (hphase : PhaseOk good shared.inflight request phase) :
    SharedOk good (advance config moment shared request phase).2 ∧
      PhaseOk good (advance config moment shared request phase).2.inflight request
        (advance config moment shared request phase).1 ∧
      shared.inflight.Extends (advance config moment shared request phase).2.inflight := by
  have hrefl : shared.inflight.Extends shared.inflight := fun _ _ h => h
  cases phase with
  | arrived => exact ⟨hshared, lookForFresh_ok hlasting moment hshared, hrefl⟩
  | missed id key => exact ⟨hshared, prepare_ok hlasting moment hshared hphase, hrefl⟩
  | ready task =>
    exact ⟨⟨hshared.cache, hshared.inflight.beginFor task.inflightKey⟩, join_ok hshared hphase,
      Inflight.extends_beginFor task.inflightKey⟩
  | leading task entry => exact ⟨hshared, ask_ok moment haccepts hphase.1 hphase.2, hrefl⟩
  | storing task entry fetched =>
    obtain ⟨⟨htask, hmade⟩, hgood⟩ := hphase
    exact ⟨⟨storeFetched_holds hlasting moment htask.hasKey hgood hshared.cache, hshared.inflight⟩,
      @store_ok config _ _ _ _ hlasting moment shared _ htask hmade hgood, hrefl⟩
  | failing task entry error =>
    exact ⟨hshared, settle_ok hlasting moment hshared hphase.1 hphase.2, hrefl⟩
  | completing key entry response result =>
    obtain ⟨hmade, hresponse, hresult⟩ := hphase
    exact ⟨⟨hshared.cache, hshared.inflight.publish hmade hresponse⟩, hresult,
      Inflight.extends_publish⟩
  | unlinking key entry result =>
    exact ⟨⟨hshared.cache, hshared.inflight.unlink key entry⟩, hphase,
      Inflight.extends_unlink key entry⟩
  | waiting task entry =>
    exact ⟨hshared, await_ok hlasting moment hshared hphase.1 hphase.2, hrefl⟩
  | done result => exact ⟨hshared, hphase, hrefl⟩

end

/-! ### Runs -/

def arriving (system : System) : Input → Option Request
  | .arrive query flags ifindex => some ⟨query, flags, ifindex, system.shared.generation⟩
  | _ => none

/-- Every request that arrives is admitted. -/
def Admitted (admits : Request → Prop) (system : System) (input : Input) : Prop :=
  ∀ request, arriving system input = some request → admits request

def StepAccepts (good : Origin → Bytes → Prop) (config : Config) (system : System) (input : Input) :
    Prop :=
  ∀ place moment client, input = .advance place moment → system.clients[place]? = some client →
    Accepts good config moment client.request

/-- A request of the run got the response from a server, and the verdict is the validator's. -/
structure Genuine (config : Config) (admits : Request → Prop) (good : Origin → Bytes → Prop)
    (origin : Origin) (packet : Bytes) : Prop where
  admitted : admits origin.request
  authenticated : ∃ response server, Authenticated config origin.request.query origin.request.flags
    ⟨response, server, origin.scope, origin.verdict⟩
  good : good origin packet

theorem lasting_genuine (h : Lasting good) : Lasting (Genuine config admits good) :=
  ⟨fun hgood hpacket => { hgood with good := h.otherId hgood.good hpacket },
    fun hgood haged => { hgood with good := h.aged hgood.good haged }⟩

theorem SystemOk.new (cacheSize maximumTtl staleRetention : Nat) (storeNegative : Bool) :
    SystemOk good admits (System.new cacheSize maximumTtl staleRetention storeNegative) :=
  ⟨⟨fun _ _ h => (by cases h), Inflight.fits_empty⟩, fun _ h => by cases h⟩

theorem SystemOk.step {system : System} {input : Input} (hlasting : Lasting good)
    (h : SystemOk (Genuine config admits good) admits system)
    (hadmitted : Admitted admits system input) (haccepts : StepAccepts good config system input) :
    SystemOk (Genuine config admits good) admits (step config system input) := by
  cases input with
  | arrive query flags ifindex =>
    refine ⟨h.shared, ?_⟩
    intro client hclient
    rcases List.mem_append.mp hclient with hbefore | hnew
    · exact h.clients client hbefore
    · rw [List.mem_singleton.mp hnew]
      exact ⟨hadmitted _ rfl, trivial⟩
  | advance place moment =>
    cases hplace : system.clients[place]? with
    | none =>
      simp only [OnLink.step, hplace]
      exact h
    | some client =>
      simp only [OnLink.step, hplace]
      obtain ⟨hadmits, hphase⟩ := h.clients client (List.mem_of_getElem? hplace)
      have hgenuine : Accepts (Genuine config admits good) config moment client.request :=
        fun kind n server answer verdict accepted world' hanswer hauth =>
          ⟨hadmits, ⟨_, server, _, answer, _, world', hauth⟩,
            haccepts place moment client rfl hplace kind n server answer verdict accepted world'
              hanswer hauth⟩
      obtain ⟨hshared, hnext, hext⟩ :=
        advance_ok (lasting_genuine hlasting) moment hgenuine h.shared hphase
      refine ⟨hshared, ?_⟩
      intro other hother
      rcases List.mem_or_eq_of_mem_set hother with hbefore | rfl
      · obtain ⟨hotherAdmits, hotherPhase⟩ := h.clients other hbefore
        exact ⟨hotherAdmits, hotherPhase.mono hext⟩
      · exact ⟨hadmits, hnext⟩
  | reroute => exact ⟨⟨h.shared.cache, h.shared.inflight⟩, h.clients⟩
  | flush => exact ⟨⟨Cache.holds_flush, h.shared.inflight⟩, h.clients⟩
  | setStaleRetention staleRetention =>
    exact ⟨⟨h.shared.cache.setStaleRetention staleRetention, h.shared.inflight⟩, h.clients⟩

/-- **Where the responses of a run come from**: whatever is delivered was accepted by the validator
for an admitted request that is linked to the one it is delivered to, and has what every response
from a server has. -/
theorem run_originsOk {cacheSize maximumTtl staleRetention : Nat} {storeNegative : Bool}
    {inputs : List Input} {delivered : Delivered} (hlasting : Lasting good)
    (hinputs : AllSteps (step config) (Admitted admits)
      (System.new cacheSize maximumTtl staleRetention storeNegative) inputs)
    (haccepts : AllSteps (step config) (StepAccepts good config)
      (System.new cacheSize maximumTtl staleRetention storeNegative) inputs)
    (hdelivered : ⟨request, .done (.ok delivered)⟩ ∈ (run (step config)
      (System.new cacheSize maximumTtl staleRetention storeNegative) inputs).clients) :
    Genuine config admits good delivered.origin delivered.packet ∧
      Linked request delivered.origin.request := by
  have hsystem := run_invariant (SystemOk (Genuine config admits good) admits)
    (fun _ _ h hstep => h.step hlasting hstep.1 hstep.2) inputs _ (SystemOk.new _ _ _ _)
    (hinputs.and haccepts)
  obtain ⟨flight, hflight, hgenuine, between, key, hbetween, hkey, horigin⟩ :=
    (hsystem.clients _ hdelivered).2 delivered rfl
  exact ⟨hgenuine, between, key, flight, hbetween, hflight, hkey, horigin⟩

end RustdResolved.Query.Origins
