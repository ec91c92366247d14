import RustdResolved.Edns.Rounds
import RustdResolved.Lib.Runs

/-! # Strict TLS

A server whose TLS mode is `yes` should only ever be asked over TLS. The loop keeps to that by
`guardedLevel`, which puts the best level in the place of one without TLS, but only while the best
level uses TLS. A response in which records of the root are not signed makes the best level one
without TLS, unless DNSSEC is required.

The invariant of the loop (`Between`, and `Ready` within a round) says which of the two is the case
for each packet that is sent, and what the server had sent before. -/

namespace RustdResolved.Edns.StrictTls

open List Lib Loop Stateful Runs Wire Octets PacketHeader Name Record DnssecRecords Presentation
open Resolver.Error Servers Opt Exchange Rounds

variable {level lower : FeatureLevel} {outbound : PreparedQuery} {packet query response : Bytes}
  {rcode : Nat} {server : Server} {state : ServerState}

/-- The best level for the server has been lowered to one without TLS. -/
def Exposed (server : Server) (missingRootRrsig : Bool) : Prop :=
  missingRootRrsig = true ∧ server.dnssecMode ≠ .yes

/-- The response has records of the root without a signature. -/
def LacksRootRrsig (sent : Sent) : Prop :=
  ∃ response, sent.response = .ok response ∧ rootRrsigMissing response = .ok true

/-! ### Levels -/

theorem bestLevel_of_exposed (h : Exposed server state.missingRootRrsig) :
    bestLevel server state = .edns0 := by
  simp [bestLevel, h.1, h.2]

/-- With strict TLS, the level of an attempt uses TLS exactly when the best level has not been
lowered, provided that the candidate is below a lowered one. -/
theorem usesTls_guardedLevel {candidate : FeatureLevel} (hstrict : server.tlsMode = .yes)
    (hcandidate : Exposed server state.missingRootRrsig → candidate.usesTls = false) :
    (guardedLevel server (bestLevel server state) candidate).usesTls = true ↔
      ¬ Exposed server state.missingRootRrsig := by
  by_cases hexposed : Exposed server state.missingRootRrsig
  · have hbest : guardedLevel server (bestLevel server state) candidate = candidate := by
      simp [guardedLevel, bestLevel_of_exposed hexposed, FeatureLevel.usesTls]
    simp [hbest, hcandidate hexposed, hexposed]
  · have hbest : (bestLevel server state).usesTls = true := by
      unfold bestLevel
      rw [if_neg (by simpa [Exposed] using hexposed), hstrict]
      cases server.dnssecMode <;> rfl
    unfold guardedLevel
    split_ifs with hguard
    · simp [hbest, hexposed]
    · simp [hstrict, hbest] at hguard
      simp [hguard, hexposed]

/-! ### The invariant -/

section
variable (server : Server) (start : Bool)

/-- What the history of an exchange says, from what was known of the server at the start: a packet
goes over TLS unless the best level had been lowered, and that was known at the start or learned
from a response. -/
structure Logged (state : ExchangeState) : Prop where
  faithful : server.tlsMode = .yes → ∀ sent ∈ state.sent,
    (sent.route = .tls ↔ ¬ Exposed server sent.missingRootRrsig)
  learned : state.server.missingRootRrsig = true →
    start = true ∨ ∃ sent ∈ state.sent, LacksRootRrsig sent
  sentLearned : ∀ sent ∈ state.sent, sent.missingRootRrsig = true →
    start = true ∨ ∃ other ∈ state.sent, LacksRootRrsig other

/-- A forced level for a server whose best level has been lowered does not use TLS. -/
def ForcedPlain (vars : Vars) (state : ExchangeState) : Prop :=
  server.tlsMode = .yes → Exposed server state.server.missingRootRrsig →
    ∀ level, vars.forcedLevel = some level → level.usesTls = false

/-- What holds between two rounds. -/
structure Between (vars : Vars) (state : ExchangeState) : Prop where
  logged : Logged server start state
  forced : ForcedPlain server vars state

/-- What holds within a round, once its level is chosen: `attempts` have been begun, and `received`
says what has come back. -/
structure Ready (received : List Sent → Prop) (vars : Vars) (level : FeatureLevel) (attempts : Nat)
    (state : ExchangeState) : Prop where
  logged : Logged server start state
  forced : ForcedPlain server vars state
  levelTls : server.tlsMode = .yes →
    (level.usesTls = true ↔ ¬ Exposed server state.server.missingRootRrsig)
  counted : state.budget.attempts = attempts
  received : received state.sent

/-- How a round may end that began with `before` attempts: to go on, it must have used one. -/
def Ends (before : Nat) : LoopFlow Answer Vars → ExchangeState → Prop
  | .done _, state => Logged server start state
  | .again vars, state =>
    Between server start vars state ∧ before < dnsTransactionAttemptsMax ∧
      state.budget.attempts = before + 1

end

variable {start : Bool} {received : List Sent → Prop} {vars : Vars} {before attempts : Nat}
  {network : Network} {α : Type} {Q : α → ExchangeState → Prop}

/-- The invariant depends on the server's state only through what is known of its signatures. -/
theorem Logged.congr {state state' : ExchangeState} (h : Logged server start state)
    (hserver : state'.server.missingRootRrsig = state.server.missingRootRrsig)
    (hsent : state'.sent = state.sent) : Logged server start state' := by
  refine ⟨?_, ?_, ?_⟩
  · rw [hsent]
    exact h.faithful
  · rw [hserver, hsent]
    exact h.learned
  · rw [hsent]
    exact h.sentLearned

theorem Ready.congr {state state' : ExchangeState}
    (h : Ready server start received vars level attempts state)
    (hserver : state'.server.missingRootRrsig = state.server.missingRootRrsig)
    (hsent : state'.sent = state.sent) (hbudget : state'.budget = state.budget) :
    Ready server start received vars level attempts state' := by
  refine ⟨h.logged.congr hserver hsent, ?_, ?_, ?_, ?_⟩
  · rw [ForcedPlain, hserver]
    exact h.forced
  · rw [hserver]
    exact h.levelTls
  · rw [hbudget]
    exact h.counted
  · rw [hsent]
    exact h.received

/-- The response has come back. -/
def Received (response : Bytes) (sent : List Sent) : Prop := ∃ s ∈ sent, s.response = .ok response

theorem Logged.send {state : ExchangeState} {sent : Sent} (h : Logged server start state)
    (hroute : server.tlsMode = .yes →
      (sent.route = .tls ↔ ¬ Exposed server state.server.missingRootRrsig))
    (hknown : sent.missingRootRrsig = state.server.missingRootRrsig) :
    Logged server start { state with sent := state.sent ++ [sent] } := by
  have hmono : (start = true ∨ ∃ s ∈ state.sent, LacksRootRrsig s) →
      start = true ∨ ∃ s ∈ state.sent ++ [sent], LacksRootRrsig s := by
    rintro (hstart | ⟨s, hs, hlacks⟩)
    · exact Or.inl hstart
    · exact Or.inr ⟨s, by simp [hs], hlacks⟩
  refine ⟨fun hstrict s hs => ?_, fun hmissing => hmono (h.learned hmissing),
    fun s hs hmissing => ?_⟩
  · rcases mem_append.mp hs with hold | hnew
    · exact h.faithful hstrict s hold
    · rw [mem_singleton.mp hnew, hknown]
      exact hroute hstrict
  · rcases mem_append.mp hs with hold | hnew
    · exact hmono (h.sentLearned s hold hmissing)
    · rw [mem_singleton.mp hnew, hknown] at hmissing
      exact hmono (h.learned hmissing)

/-- What holds within a round once a response has come back. -/
def ReadyAfter (server : Server) (start : Bool) (vars : Vars) (level : FeatureLevel)
    (attempts : Nat) (received : Option Bytes) : ExchangeState → Prop :=
  Ready server start (fun sent => ∀ response, received = some response →
    Received response sent) vars
    level attempts

/-- What is known of the signatures changes here, with the response that shows it. The level of the
round need not fit any more, but the next one is forced. -/
theorem meets_recordMissingRootRrsig {allowDowngrade : Bool}
    (hlacks : rootRrsigMissing response = .ok true) :
    Meets (ReadyAfter server start vars level attempts (some response))
      (recordMissingRootRrsig network allowDowngrade)
      (fun lower state => lower = .edns0 ∧ Logged server start state ∧
        state.budget.attempts = attempts)
      (Ends server start before) := by
  refine meets_bind (Q := fun _ state => Logged server start state ∧
    state.budget.attempts = attempts) (meets_act fun state h => ⟨?_, h.counted⟩) fun _ => ?_
  · obtain ⟨sent, hsent, hresponse⟩ := h.received response rfl
    exact ⟨h.logged.faithful, fun _ => Or.inr ⟨sent, hsent, response, hresponse, hlacks⟩,
      h.logged.sentLearned⟩
  · refine meets_ite (fun _ => ?_) fun _ => meets_pure fun _ h => ⟨rfl, h⟩
    refine meets_bind (Q := fun _ state => Logged server start state ∧
      state.budget.attempts = attempts) ?_ fun _ => meets_pure fun _ h => ⟨rfl, h⟩
    refine meets_bind (Q := fun _ state => Logged server start state ∧
      state.budget.attempts = attempts) (meets_act fun _ h => ⟨h.1.congr rfl rfl, h.2⟩) fun _ => ?_
    exact meets_act fun _ h => ⟨h.1.congr rfl rfl, h.2⟩

/-- A level to go on at uses no TLS if the present one does not. -/
def NextTo (server : Server) (level next : FeatureLevel) : Prop :=
  server.tlsMode = .yes → level.usesTls = false → next.usesTls = false

theorem interruptible_ready :
    Interruptible (Ready server start received vars level attempts) (Ends server start before) :=
  ⟨fun _ h => h.logged, fun h => h.congr rfl rfl rfl⟩

theorem keeps_checkRootRrsig (hbefore : before < dnsTransactionAttemptsMax) :
    Keeps (ReadyAfter server start vars level (before + 1) (some response))
      (Ends server start before)
      (checkRootRrsig server network vars response) := by
  refine meets_bind (interruptible_ready.orReturn _) fun missing => meets_assume fun hmissing => ?_
  refine meets_ite (fun htrue => ?_) fun _ => meets_pure fun _ h => h
  rw [htrue] at hmissing
  refine meets_bind (meets_recordMissingRootRrsig (liftWire_eq_ok.mp hmissing)) fun lower =>
    meets_assume fun hlower => ?_
  refine meets_ite (fun _ => meets_fail fun _ h => h.1) fun _ => ?_
  refine meets_ite (fun _ => meets_fail fun _ h => ⟨⟨h.1, ?_⟩, hbefore, h.2⟩) fun _ =>
    meets_fail fun _ h => h.1
  intro _ _ forced hforced
  rw [← Option.some.inj hforced, hlower]
  rfl

/-- **The invariant meets the rules of a round.** -/
theorem rules_ready (query packet : Bytes) (hbefore : before < dnsTransactionAttemptsMax) :
    RoundRules server network query vars level packet
      (fun round => ReadyAfter server start vars level (before + 1) round.response)
      (Ends server start before) (NextTo server level) where
  interruptible _ := interruptible_ready
  response _ h := h.logged
  again hnext h := by
    refine ⟨⟨h.logged, fun hstrict hexposed forced hforced => ?_⟩, hbefore, h.counted⟩
    rcases hnext with hsame | ⟨next, hnext, hplain⟩
    · exact h.forced hstrict hexposed forced (hsame ▸ hforced)
    · rw [← Option.some.inj (hnext.symm.trans hforced)]
      refine hplain hstrict ?_
      by_contra htls
      exact (h.levelTls hstrict).mp (by simpa using htls) hexposed
  change hmissing _ h := h.congr hmissing rfl rfl
  sent hroute _ h := by
    refine ⟨h.logged.send (fun hstrict => ?_) rfl, h.forced, h.levelTls, h.counted, ?_⟩
    · rw [hroute]
      exact h.levelTls hstrict
    · intro response hresponse
      refine ⟨_, mem_append_right _ (mem_singleton.mpr rfl), ?_⟩
      rename_i answer _
      cases answer with
      | ok a => exact congrArg Except.ok (Option.some.inj hresponse)
      | error error => cases hresponse
  rootRrsig _ _ := keeps_checkRootRrsig hbefore
  same _ hlevel := hlevel
  tlsFailure hmode _ _ hstrict := absurd hstrict hmode
  failure _ h _ hlevel := by
    unfold ServerFeatureState.recordFailure at h
    dsimp only at h
    split_ifs at h
    exact Option.some.inj h ▸ FeatureLevel.usesTls_lower hlevel
  invalid _ h _ hlevel := by
    have hlower := FeatureLevel.usesTls_lower hlevel
    unfold invalidPacketLevel at h
    cases level with
    | tlsPlain | tlsDnssecOk => cases hlevel
    | udp | edns0 | dnssecOk =>
      simp only [ite_self] at h
      split_ifs at h
      rw [← Option.some.inj h]
      exact hlower
  badOpt _ hmode hstrict := absurd hstrict hmode
  doOff _ hdo _ hlevel := by
    cases level with
    | dnssecOk => exact FeatureLevel.usesTls_of_le_edns0 (ServerFeatureState.downgradeTo_le ..)
    | udp | edns0 => cases hdo
    | tlsPlain | tlsDnssecOk => cases hlevel
  lower _ _ hlevel := FeatureLevel.usesTls_lower hlevel

/-! ### A round -/

/-- The candidate for a server whose best level has been lowered does not use TLS. -/
theorem meets_candidateLevel {best : FeatureLevel} :
    Meets (fun state => best = bestLevel server state.server ∧ Between server start vars state ∧
        state.budget.attempts = before)
      (candidateLevel server network vars.forcedLevel)
      (fun candidate state => best = bestLevel server state.server ∧
        Between server start vars state ∧ state.budget.attempts = before ∧
        (server.tlsMode = .yes → Exposed server state.server.missingRootRrsig →
          candidate.usesTls = false))
      (Ends server start before) := by
  cases hforced : vars.forcedLevel with
  | some forced =>
    exact meets_pure fun _ ⟨hbest, hbetween, hcounted⟩ =>
      ⟨hbest, hbetween, hcounted, fun hstrict hexposed =>
        hbetween.forced hstrict hexposed forced hforced⟩
  | none =>
    refine meets_bind (Q := fun _ state => best = bestLevel server state.server ∧
      Between server start vars state ∧ state.budget.attempts = before)
      (meets_act fun _ ⟨hbest, hbetween, hcounted⟩ =>
        ⟨hbest, ⟨hbetween.logged.congr rfl rfl, hbetween.forced⟩, hcounted⟩) fun now => ?_
    refine meets_act fun state ⟨hbest, hbetween, hcounted⟩ =>
      ⟨hbest, ⟨hbetween.logged.congr rfl rfl, hbetween.forced⟩, hcounted, fun _ hexposed => ?_⟩
    refine FeatureLevel.usesTls_of_le_edns0 ?_
    have hbest' : bestLevel server state.server = .edns0 := bestLevel_of_exposed hexposed
    rw [← hbest']
    exact state.server.features.possibleLevel_le _ _ now

theorem meets_chooseLevel :
    Meets (fun state => Between server start vars state ∧ state.budget.attempts = before)
      (chooseLevel server network vars.forcedLevel)
      (fun choice => Ready server start (fun _ => True) vars choice.level before)
      (Ends server start before) := by
  refine meets_bind (Q := fun best state => best = bestLevel server state.server ∧
    Between server start vars state ∧ state.budget.attempts = before)
    (meets_act fun _ h => ⟨rfl, h⟩) fun best => ?_
  refine meets_bind meets_candidateLevel fun candidate => ?_
  refine meets_bind meets_read fun pathMtu => ?_
  refine meets_act fun state ⟨hbest, hbetween, hcounted, hcandidate⟩ =>
    ⟨hbetween.logged, hbetween.forced, fun hstrict => ?_, hcounted, trivial⟩
  rw [hbest]
  exact usesTls_guardedLevel hstrict (hcandidate hstrict)

/-- **One round keeps the invariant.** -/
theorem meets_attempt :
    Meets (fun state => Between server start vars state ∧ state.budget.attempts = before)
      (attempt server network query vars) (fun _ => Logged server start)
      (Ends server start before) := by
  refine meets_bind meets_chooseLevel fun choice => ?_
  refine meets_bind interruptible_ready.checkQuestion fun _ => ?_
  refine meets_bind (interruptible_ready.orReturn _) fun outbound => meets_assume fun _ => ?_
  refine meets_bind (Q := fun _ state => before < dnsTransactionAttemptsMax ∧
    ReadyAfter server start vars choice.level (before + 1) none state) ?_ fun _ =>
      meets_assume fun hbefore => ?_
  · refine interruptible_ready.beginAttempt.imp fun _ _ ⟨earlier, h, hleft, hstate⟩ => ?_
    rw [hstate]
    exact ⟨h.counted ▸ hleft, h.logged.congr rfl rfl, h.forced, h.levelTls, by simp [h.counted],
      by simp⟩
  · refine meets_bind (meets_attemptSend (rules_ready query _ hbefore)) fun answer => ?_
    exact (rules_ready query outbound.packet hbefore).meets_judge.imp fun _ _ ⟨_, _, h⟩ => h.logged

/-! ### An exchange -/

theorem between_start {state : ExchangeState} (hsent : state.sent = []) :
    Between server state.server.missingRootRrsig .initial state :=
  ⟨⟨by simp [hsent], fun h => Or.inl h, by simp [hsent]⟩, by simp [ForcedPlain, Vars.initial]⟩

theorem logged_exchangeWithFeatures (server : Server) (network : Network) (query : Bytes)
    (state : ExchangeState) (hsent : state.sent = []) :
    Logged server state.server.missingRootRrsig
      (exchangeWithFeatures server network query state).2 := by
  refine rounds_post (Between server state.server.missingRootRrsig)
    (fun _ _ h => h.logged) (fun vars => ⟨fun h hrun => ?_, fun {s e s'} h hrun => ?_⟩) _ _ _
    (between_start hsent)
  · exact meets_attempt.ok ⟨h, rfl⟩ hrun
  · have hends := meets_attempt.error ⟨h, rfl⟩ hrun
    cases e with
    | done answer => exact hends
    | again vars' => exact hends.1

/-- The loop ends by itself within the rounds it is given. -/
theorem exchangeWithFeatures_fuel (state : ExchangeState) (hsent : state.sent = []) (out : Answer)
    (extra : Nat) :
    rounds out (attempt server network query) (dnsTransactionAttemptsMax + 1 + extra)
      .initial state =
      exchangeWithFeatures server network query state := by
  refine rounds_fuel out (Between server state.server.missingRootRrsig)
    (fun s => dnsTransactionAttemptsMax - s.budget.attempts) ?_ _ _ _ _ (between_start hsent)
    (by omega)
  intro vars s vars' s' hbetween hrun
  obtain ⟨hbetween', hbefore, hcounted⟩ := meets_attempt.error ⟨hbetween, rfl⟩ hrun
  exact ⟨hbetween', by omega⟩

/-! ### Runs -/

/-- What happens to the state of a server: an exchange with it, or a reset of what is known. -/
inductive ServerStep
  | exchange (server : Server) (network : Network) (query : Bytes) (budget : DnsAttemptBudget)
  | reset

/-- The state after a step, and the packets that were sent in it. -/
def ServerStep.result (state : ServerState) : ServerStep → ServerState × List Sent
  | .exchange server network query budget =>
    let after := (exchangeWithFeatures server network query ⟨state, budget, 0, []⟩).2
    (after.server, after.sent)
  | .reset => (.initial, [])

def serverStep (state : ServerState) (step : ServerStep) : ServerState := (step.result state).1

def sentAlong : ServerState → List ServerStep → List Sent
  | _, [] => []
  | state, step :: rest => (step.result state).2 ++ sentAlong (serverStep state step) rest

theorem sentAlong_append : ∀ (state : ServerState) (earlier later : List ServerStep),
    sentAlong state (earlier ++ later) =
      sentAlong state earlier ++ sentAlong (run serverStep state earlier) later
  | _, [], _ => rfl
  | state, step :: earlier, later => by
    rw [List.cons_append, sentAlong, sentAlong_append, sentAlong, List.append_assoc]
    rfl

theorem missingRootRrsig_run (steps : List ServerStep)
    (h : (run serverStep state steps).missingRootRrsig = true) :
    state.missingRootRrsig = true ∨ ∃ sent ∈ sentAlong state steps, LacksRootRrsig sent := by
  induction steps generalizing state with
  | nil => exact Or.inl h
  | cons step rest ih =>
    rcases ih h with hstep | ⟨sent, hsent, hlacks⟩
    · cases step with
      | exchange server network query budget =>
        refine ((logged_exchangeWithFeatures server network query ⟨state, budget, 0, []⟩
          rfl).learned hstep).imp_right ?_
        rintro ⟨sent, hsent, hlacks⟩
        exact ⟨sent, List.mem_append_left _ hsent, hlacks⟩
      | reset => cases hstep
    · exact Or.inr ⟨sent, List.mem_append_right _ hsent, hlacks⟩

theorem exchange_all_tls_iff {state : ExchangeState} (hstrict : server.tlsMode = .yes)
    (hsent : state.sent = []) :
    (∀ sent ∈ (exchangeWithFeatures server network query state).2.sent, sent.route = .tls) ↔
      ∀ sent ∈ (exchangeWithFeatures server network query state).2.sent,
        ¬ Exposed server sent.missingRootRrsig := by
  have hlogged := logged_exchangeWithFeatures server network query state hsent
  constructor
  · intro htls sent hmem
    exact (hlogged.faithful hstrict sent hmem).mp (htls sent hmem)
  · intro hsafe sent hmem
    exact (hlogged.faithful hstrict sent hmem).mpr (hsafe sent hmem)

/-- **Strict TLS**: in an exchange with a server whose TLS mode is `yes`, all packets go over TLS
exactly when none is sent after the best level has been lowered; and in every run from the initial
state they do, if DNSSEC is required or no response so far had records of the root without a
signature. -/
theorem strict_tls (server : Server) (network : Network) (query : Bytes)
    (hstrict : server.tlsMode = .yes) :
    (∀ state : ExchangeState, state.sent = [] →
      ((∀ sent ∈ (exchangeWithFeatures server network query state).2.sent, sent.route = .tls) ↔
        ∀ sent ∈ (exchangeWithFeatures server network query state).2.sent,
          ¬ Exposed server sent.missingRootRrsig)) ∧
    ∀ earlier budget,
      (server.dnssecMode = .yes ∨
        ∀ sent ∈ sentAlong .initial (earlier ++ [.exchange server network query budget]),
          ¬ LacksRootRrsig sent) →
      ∀ sent ∈ ((ServerStep.exchange server network query budget).result
        (run serverStep .initial earlier)).2, sent.route = .tls := by
  refine ⟨fun state hsent => exchange_all_tls_iff hstrict hsent, fun earlier budget hsigned => ?_⟩
  have hlogged := logged_exchangeWithFeatures server network query
    ⟨run serverStep .initial earlier, budget, 0, []⟩ rfl
  refine (exchange_all_tls_iff hstrict rfl).mpr fun sent hmem hexposed => ?_
  rcases hsigned with hyes | hsigned
  · exact hexposed.2 hyes
  · have hlearned :
        ∃ other ∈ sentAlong .initial (earlier ++ [.exchange server network query budget]),
          LacksRootRrsig other := by
      rw [sentAlong_append]
      rcases hlogged.sentLearned sent hmem hexposed.1 with hstart | ⟨other, hother, hlacks⟩
      · rcases missingRootRrsig_run earlier hstart with hinitial | ⟨other, hother, hlacks⟩
        · cases hinitial
        · exact ⟨other, mem_append_left _ hother, hlacks⟩
      · exact ⟨other, mem_append_right _ (mem_append_left _ hother), hlacks⟩
    obtain ⟨other, hother, hlacks⟩ := hlearned
    exact hsigned other hother hlacks

/-! ### A response without signatures -/

/-- A server that is to be asked over TLS only, where DNSSEC may be downgraded. -/
def tlsServer : Server := ⟨.allowDowngrade, .yes, false, false⟩

def hostQuery : Bytes := queryWire flagRd [labelOf "host", labelOf "test"] typeA

def rootSoa : Bytes :=
  recordWire [] typeSoa 3600
    (wireName [labelOf "a"] ++ wireName [labelOf "b"] ++ List.replicate 20 0)

def optRecord : Bytes := [0] ++ u16ToBeBytes typeOpt ++ u16ToBeBytes 1232 ++ [0, 0, 0x80, 0, 0, 0]

def responseWithOpt (flags : Nat) (authorities : List Bytes) : Bytes :=
  u16ToBeBytes 0 ++ u16ToBeBytes flags ++ u16ToBeBytes 1 ++ u16ToBeBytes 0 ++
    u16ToBeBytes authorities.length ++ u16ToBeBytes 1 ++
    (wireName [labelOf "host", labelOf "test"] ++ u16ToBeBytes typeA ++ u16ToBeBytes classIn) ++
    authorities.flatten ++ optRecord

/-- A server that always sends the same response. -/
def constantNetwork (response : Bytes) : Network :=
  { tls := fun _ _ => .ok response
    udp := fun _ _ => .ok (response, 0)
    tcp := fun _ _ => .ok response
    pooled := fun _ => false
    pathMtu := fun _ => none
    instant := fun _ => 0
    cancelled := fun _ => false }

def freshBudget : DnsAttemptBudget := ⟨0, 120000000000⟩

/-- **The name does not exist, and the proof is not signed: the query is repeated in plain
text.** -/
theorem plain_after_unsigned_root :
    ((ServerStep.exchange tlsServer (constantNetwork (responseWithOpt 0x8183 [rootSoa])) hostQuery
      freshBudget).result .initial).2.map (·.route) = [.tls, .udp] := by
  decide

theorem strict_tls_no_root_records :
    ((ServerStep.exchange tlsServer (constantNetwork (responseWithOpt 0x8180 [])) hostQuery
      freshBudget).result .initial).2.map (·.route) = [.tls] ∧
    ∀ sent ∈ ((ServerStep.exchange tlsServer (constantNetwork (responseWithOpt 0x8180 [])) hostQuery
      freshBudget).result (run serverStep .initial [])).2, sent.route = .tls := by
  refine ⟨by decide, (strict_tls tlsServer _ hostQuery rfl).2 [] freshBudget (Or.inr ?_)⟩
  have hresponses : ∀ sent ∈ sentAlong .initial ([] ++ [.exchange tlsServer
      (constantNetwork (responseWithOpt 0x8180 [])) hostQuery freshBudget]),
      sent.response = .ok (responseWithOpt 0x8180 []) := by decide
  have hsigned : rootRrsigMissing (responseWithOpt 0x8180 []) = .ok false := by decide
  rintro sent hsent ⟨response, hresponse, hlacks⟩
  rw [hresponses sent hsent] at hresponse
  cases hresponse
  rw [hsigned] at hlacks
  cases hlacks

end RustdResolved.Edns.StrictTls
