import RustdResolved.Edns.Rounds

/-! # What an exchange keeps

An exchange changes what is known of a server and goes from feature level to feature level. A
property of what is known and one of the levels that fit each other (`Confined`) hold through every
round, so that every packet is sent at a level of that kind; and every response that is returned is
one made for the client. -/

namespace RustdResolved.Edns.Levels

open Lib Loop Stateful Wire.Octets Resolver.Error Servers Opt Exchange Rounds

/-- The least level that is possible for a server. -/
def minimumLevel (server : Server) : FeatureLevel :=
  if server.tlsMode = .yes then .tlsPlain else .udp

/-- Properties of what is known of a server and of levels that an exchange with it keeps. Where
DNSSEC is not required, they say nothing. -/
structure Confined (server : Server) (known : ServerState → Prop) (levels : FeatureLevel → Prop) :
    Prop where
  lax : server.dnssecMode ≠ .yes → (∀ state, known state) ∧ ∀ level, levels level
  features : ∀ {state state' : ServerState}, state'.features = state.features → known state →
    known state'
  possible : ∀ {state : ServerState} (now : Nat), known state →
    known { state with features :=
      (state.features.possibleLevel (bestLevel server state) (minimumLevel server) now).2 } ∧
    levels (state.features.possibleLevel (bestLevel server state) (minimumLevel server) now).1
  best : ∀ {state : ServerState}, known state → levels (bestLevel server state)
  tlsFailure : ∀ {state : ServerState} {level : FeatureLevel} (now : Nat),
    known state → levels level →
    known { state with features := (state.features.recordTlsFailure level now).2 } ∧
    ∀ lower, (state.features.recordTlsFailure level now).1 = some lower → levels lower
  downgrade : ∀ {state : ServerState} {level : FeatureLevel} (now : Nat),
    known state → levels level →
    known { state with features := state.features.downgradeTo level now }
  success : ∀ {state : ServerState} (level : FeatureLevel), known state →
    known { state with features := state.features.recordSuccess level }

section
variable (known : ServerState → Prop) (levels : FeatureLevel → Prop) (query : Bytes)

/-- A packet that was sent is the query as it is prepared at one of the levels. -/
def SentAt (sent : Sent) : Prop :=
  ∃ level payloadSize outbound, levels level ∧ prepareQuery query level payloadSize = .ok outbound ∧
    sent.packet = outbound.packet

structure Inside (state : ExchangeState) : Prop where
  server : known state.server
  sent : ∀ sent ∈ state.sent, SentAt levels query sent

def VarsOk (vars : Vars) : Prop := ∀ level, vars.forcedLevel = some level → levels level

/-- A response that is returned is one made for the client. -/
def AnswerOk (answer : Answer) : Prop :=
  ∀ response, answer = .ok response → ∃ raw, responseForClient query raw = .ok response

/-- How a round may end. -/
def Ends : LoopFlow Answer Vars → ExchangeState → Prop :=
  FlowEnds (fun vars state => VarsOk levels vars ∧ Inside known levels query state)
    (fun answer state => AnswerOk query answer ∧ Inside known levels query state)

end

variable {server : Server} {known : ServerState → Prop} {levels : FeatureLevel →
  Prop} {query : Bytes}
  {network : Network} {vars : Vars} {level : FeatureLevel}

/-! ### A round -/

theorem answerOk_error (error : ResolveError) : AnswerOk query (.error error) := by
  intro response h
  cases h

theorem answerOk_response {raw : Bytes} :
    AnswerOk query (liftWire (responseForClient query raw)) := by
  intro response h
  exact ⟨raw, liftWire_eq_ok.mp h⟩

theorem interruptible_inside :
    Interruptible (Inside known levels query) (Ends known levels query) :=
  ⟨fun error h => ⟨answerOk_error error, h⟩, fun h => ⟨h.server, h.sent⟩⟩

section
variable (hconfined : Confined server known levels)
include hconfined

theorem Confined.change {state state' : ServerState} (hlevel : levels level) (hknown : known state)
    (h : Change server level levels state.features state'.features) : known state' := by
  generalize hfeatures : state'.features = features at h
  cases h with
  | same => exact hconfined.features hfeatures hknown
  | lax hmode => exact (hconfined.lax hmode).1 state'
  | downgrade hlower now =>
    exact hconfined.features hfeatures (hconfined.downgrade now hknown hlower)
  | tlsFailure now => exact hconfined.features hfeatures (hconfined.tlsFailure now hknown hlevel).1
  | success verified => exact hconfined.features hfeatures (hconfined.success verified hknown)

/-- **The invariant meets the rules of a round.** -/
theorem rules_inside (network : Network) {outbound : PreparedQuery} {payloadSize : Nat}
    (hvars : VarsOk levels vars) (hlevel : levels level)
    (hprepared : prepareQuery query level payloadSize = .ok outbound) :
    RoundRules server network query vars level outbound.packet (fun _ => Inside known levels query)
      (Ends known levels query) levels where
  interruptible _ := interruptible_inside
  response raw h := ⟨answerOk_response, h⟩
  again hnext h := by
    refine ⟨fun forced hforced => ?_, h⟩
    rcases hnext with hsame | ⟨next, hnext, hlevels⟩
    · exact hvars forced (hsame ▸ hforced)
    · exact Option.some.inj (hnext.symm.trans hforced) ▸ hlevels
  change _ hchange h := ⟨hconfined.change hlevel h.server hchange, h.sent⟩
  sent _ _ h := by
    refine ⟨h.server, fun sent hsent => ?_⟩
    rcases List.mem_append.mp hsent with hbefore | hnew
    · exact h.sent sent hbefore
    · rw [List.mem_singleton.mp hnew]
      exact ⟨level, payloadSize, outbound, hlevel, hprepared, rfl⟩
  rootRrsig _ _ := interruptible_inside.checkRootRrsig
    (fun hfeatures h =>
      ⟨hconfined.change hlevel h.server (hfeatures.elim (· ▸ .same) fun h => .lax h), h.sent⟩)
    fun hmode h => ⟨fun forced _ => (hconfined.lax hmode).2 forced, h⟩
  same := hlevel
  tlsFailure _ h := (hconfined.tlsFailure _ h.server hlevel).2 _
  failure hmode _ := (hconfined.lax hmode).2 _
  invalid hmode _ := (hconfined.lax hmode).2 _
  badOpt hmode _ := (hconfined.lax hmode).2 _
  doOff hmode _ := (hconfined.lax hmode).2 _
  lower hmode := (hconfined.lax hmode).2 _

/-! ### Levels -/

theorem meets_candidateLevel (hvars : VarsOk levels vars) :
    Meets (Inside known levels query) (candidateLevel server network vars.forcedLevel)
      (fun candidate state => levels candidate ∧ Inside known levels query state)
      (Ends known levels query) := by
  cases hforced : vars.forcedLevel with
  | some forced => exact meets_pure fun _ h => ⟨hvars forced hforced, h⟩
  | none =>
    refine meets_bind interruptible_inside.readInstant fun now => meets_act fun _ h => ?_
    have hpossible := hconfined.possible now h.server
    exact ⟨hpossible.2, hpossible.1, h.sent⟩

theorem meets_chooseLevel (hvars : VarsOk levels vars) :
    Meets (Inside known levels query) (chooseLevel server network vars.forcedLevel)
      (fun choice state => levels choice.level ∧ Inside known levels query state)
      (Ends known levels query) := by
  refine meets_bind (Q := fun best state => levels best ∧ Inside known levels query state)
    (meets_act fun _ h => ⟨hconfined.best h.server, h⟩) fun best => meets_assume fun hbest => ?_
  refine meets_bind (meets_candidateLevel hconfined hvars) fun candidate =>
    meets_assume fun hcandidate => ?_
  refine meets_bind meets_read fun pathMtu => meets_act fun _ h => ⟨?_, h⟩
  dsimp only [guardedLevel]
  split_ifs
  · exact hbest
  · exact hcandidate

/-- **One round keeps the invariant.** -/
theorem meets_attempt (hvars : VarsOk levels vars) :
    Meets (Inside known levels query) (attempt server network query vars)
      (fun answer state => AnswerOk query answer ∧ Inside known levels query state)
      (Ends known levels query) := by
  refine meets_bind (meets_chooseLevel hconfined hvars) fun choice => meets_assume fun hlevel => ?_
  have hrules : Interruptible (Inside known levels query) (Ends known levels query) :=
    interruptible_inside
  refine meets_bind hrules.checkQuestion fun _ => ?_
  refine meets_bind (hrules.orReturn _) fun outbound => meets_assume fun hprepared => ?_
  refine meets_bind (Q := fun _ => Inside known levels query) ?_ fun _ => ?_
  · exact hrules.beginAttempt.imp fun _ _ ⟨_, h, _, hstate⟩ => hstate ▸ ⟨h.server, h.sent⟩
  have hround := rules_inside hconfined network hvars hlevel (liftWire_eq_ok.mp hprepared)
  refine meets_bind (meets_attemptSend hround) fun received => ?_
  exact hround.meets_judge.imp fun _ _ ⟨hanswer, _, h⟩ => ⟨hanswer ▸ answerOk_response, h⟩

/-- **A whole exchange keeps the invariant**, and its response is one made for the client. -/
theorem exchange_inside {state : ExchangeState} (hinside : Inside known levels query state) :
    AnswerOk query (exchangeWithFeatures server network query state).1 ∧
      Inside known levels query (exchangeWithFeatures server network query state).2 := by
  have hinitial : VarsOk levels .initial := by
    intro level h
    cases h
  have hround : ∀ vars, Meets (fun state => VarsOk levels vars ∧ Inside known levels query state)
      (attempt server network query vars)
      (fun answer state => AnswerOk query answer ∧ Inside known levels query state)
      (Ends known levels query) :=
    fun vars => meets_assume fun hvars => meets_attempt hconfined hvars
  exact rounds_ends _ (fun _ _ h => ⟨answerOk_error _, h.2⟩) hround _ _ state ⟨hinitial, hinside⟩

end

end RustdResolved.Edns.Levels
