import RustdResolved.Edns.StrictTls

/-! # The attempts of a query

`query_servers` makes one budget for its query, and spends it only in exchanges: its own, and those
that the validation of a response needs. Each round of an exchange begins an attempt, which sends
little, and there is no round without one; the exchanges of a query hand the budget on. -/

namespace RustdResolved.Edns.Attempts

open Lib.Stateful Wire.Octets Servers Exchange Rounds

/-- The packets that were sent, by the attempts that were begun after the first ones. -/
structure Grouped (first : Nat) (attempts : List (List Route)) (sent : List Sent)
    (budget : DnsAttemptBudget) : Prop where
  routes : sent.map Sent.route = attempts.flatten
  counted : budget.attempts = first + attempts.length
  bounded : budget.attempts ≤ dnsTransactionAttemptsMax
  single : ∀ routes ∈ attempts, OneAttempt routes

def Spent (first : Nat) (sent : List Sent) (budget : DnsAttemptBudget) : Prop :=
  ∃ attempts, Grouped first attempts sent budget

variable {first : Nat} {server : Server} {network : Network} {query packet response : Bytes}
  {vars : Vars} {level : FeatureLevel} {round : Progress} {budget : DnsAttemptBudget}

theorem Spent.append {sent later : List Sent} {middle : DnsAttemptBudget}
    (h : Spent first sent middle) (hlater : Spent middle.attempts later budget) :
    Spent first (sent ++ later) budget := by
  obtain ⟨attempts, h⟩ := h
  obtain ⟨more, hlater⟩ := hlater
  refine ⟨attempts ++ more, by simp [h.routes, hlater.routes], ?_, hlater.bounded,
    List.forall_mem_append.mpr ⟨h.single, hlater.single⟩⟩
  rw [hlater.counted, h.counted, List.length_append, Nat.add_assoc]

theorem Spent.refl (h : budget.attempts ≤ dnsTransactionAttemptsMax) :
    Spent budget.attempts [] budget := ⟨[], rfl, rfl, h, by simp⟩

/-! ### A round -/

/-- What holds between two rounds. -/
def Between (first : Nat) (state : ExchangeState) : Prop := Spent first state.sent state.budget

/-- What holds within a round: the last attempt is the one of the round. -/
def Within (first : Nat) (round : Progress) (state : ExchangeState) : Prop :=
  ∃ earlier, Grouped first (earlier ++ [round.routes]) state.sent state.budget

theorem Within.between {state : ExchangeState} (h : Within first round state) :
    Between first state :=
  h.elim fun earlier h => ⟨earlier ++ [round.routes], h⟩

theorem interruptible_within : Interruptible (Within first round) fun _ => Between first :=
  ⟨fun _ => Within.between, id⟩

theorem rules_within (query packet : Bytes) :
    RoundRules server network query vars level packet (Within first) (fun _ => Between first)
      fun _ => True where
  interruptible _ := interruptible_within
  response _ := Within.between
  again _ := Within.between
  change _ _ := id
  sent := by
    rintro round state route answer - hone ⟨earlier, h⟩
    refine ⟨earlier, by simp [h.routes], by simpa using h.counted, h.bounded, ?_⟩
    obtain ⟨hearlier, -⟩ := List.forall_mem_append.mp h.single
    exact List.forall_mem_append.mpr ⟨hearlier, List.forall_mem_singleton.mpr hone⟩
  rootRrsig _ _ := interruptible_within.checkRootRrsig (fun _ => id) fun _ => Within.between
  same := trivial
  tlsFailure _ _ _ := trivial
  failure _ _ := trivial
  invalid _ _ := trivial
  badOpt _ _ := trivial
  doOff _ _ := trivial
  lower _ := trivial

theorem meets_chooseLevel : Keeps (Between first) (fun _ => Between first)
    (chooseLevel server network vars.forcedLevel) := by
  refine meets_bind meets_read fun best => meets_bind (Q := fun _ => Between first) ?_
    fun candidate =>
    meets_bind meets_read fun pathMtu => meets_read
  cases vars.forcedLevel with
  | some forced => exact meets_pure fun _ h => h
  | none => exact meets_bind (meets_act fun _ h => h) fun now => meets_act fun _ h => h

/-- **A round begins one attempt at most**, and only one that is left. -/
theorem meets_attempt : Keeps (Between first) (fun _ => Between first)
    (attempt server network query vars) := by
  have hrules : Interruptible (Between first) fun _ => Between first := ⟨fun _ h => h, id⟩
  refine meets_bind meets_chooseLevel fun choice => meets_bind hrules.checkQuestion fun _ => ?_
  refine meets_bind (hrules.orReturn _) fun outbound => meets_assume fun _ => ?_
  refine meets_bind (Q := fun _ => Within first ⟨[], none⟩) ?_ fun _ => ?_
  · refine hrules.beginAttempt.imp fun _ _ ⟨before, ⟨attempts, h⟩, hleft, hstate⟩ => ?_
    rw [hstate]
    refine ⟨attempts, by simp [h.routes], ?_, hleft, ?_⟩
    · simp [h.counted, Nat.add_assoc]
    · exact List.forall_mem_append.mpr ⟨h.single, by simp [OneAttempt]⟩
  · refine meets_bind (meets_attemptSend (rules_within query _)) fun answer => ?_
    exact (rules_within query outbound.packet).meets_judge.imp fun _ _ ⟨_, _, h⟩ => h.between

/-! ### A query -/

/-- A call of `exchange_with_features`. -/
structure Call where
  server : Server
  network : Network
  query : Bytes
  state : ServerState
  instantReads : Nat

def Call.start (call : Call) (budget : DnsAttemptBudget) : ExchangeState :=
  ⟨call.state, budget, call.instantReads, []⟩

def Call.run (call : Call) (budget : DnsAttemptBudget) : Answer × ExchangeState :=
  exchangeWithFeatures call.server call.network call.query (call.start budget)

/-- The budget after some calls, and what they sent. -/
def spend (budget : DnsAttemptBudget) : List Call → DnsAttemptBudget × List Sent
  | [] => (budget, [])
  | call :: rest =>
    let after := (call.run budget).2
    let later := spend after.budget rest
    (later.1, after.sent ++ later.2)

/-- A round of `query_servers`, as far as it concerns the budget: the exchange with the server that
is selected, those that the validation of its answer makes, and whether the loop goes on then. -/
structure ServerRound where
  cancelled : Bool
  now : Nat
  exchange : Call
  validation : Answer → List Call
  goesOn : Bool

def queryServers (budget : DnsAttemptBudget) : List ServerRound → DnsAttemptBudget × List Sent
  | [] => (budget, [])
  | round :: rest =>
    if round.cancelled || budget.exhausted || decide (budget.deadline ≤ round.now) then (budget, [])
    else
      let calls := round.exchange :: round.validation (round.exchange.run budget).1
      let spent := spend budget calls
      if round.goesOn then
        let later := queryServers spent.1 rest
        (later.1, spent.2 ++ later.2)
      else spent

theorem spent_run (call : Call) (h : budget.attempts ≤ dnsTransactionAttemptsMax) :
    Between budget.attempts (call.run budget).2 := by
  refine rounds_post (fun _ => Between budget.attempts) (fun _ _ h => h)
    (fun vars => ⟨meets_attempt.ok, fun {_ e _} hbetween hrun => ?_⟩) _ _ _ (Spent.refl h)
  cases e <;> exact meets_attempt.error hbetween hrun

theorem spent_spend : ∀ (calls : List Call) {budget : DnsAttemptBudget},
    budget.attempts ≤ dnsTransactionAttemptsMax →
    Spent budget.attempts (spend budget calls).2 (spend budget calls).1
  | [], _, h => .refl h
  | call :: rest, _, h =>
    have hcall := spent_run call h
    hcall.append (spent_spend rest (hcall.elim fun _ h => h.bounded))

theorem spent_queryServers : ∀ (rounds : List ServerRound) {budget : DnsAttemptBudget},
    budget.attempts ≤ dnsTransactionAttemptsMax →
    Spent budget.attempts (queryServers budget rounds).2 (queryServers budget rounds).1
  | [], _, h => .refl h
  | round :: rest, budget, h => by
    have hround := spent_spend (round.exchange :: round.validation (round.exchange.run budget).1) h
    unfold queryServers
    split_ifs
    · exact .refl h
    · exact hround.append (spent_queryServers rest (hround.elim fun _ h => h.bounded))
    · exact hround

/-- **The retries are bounded**: an exchange ends by itself within the rounds it is given, and a
query begins at most as many attempts as its budget has, whatever is answered; each of them sends
one datagram at most and then the packet at most twice over TCP, or at most twice over TLS. -/
theorem attempts_bounded (deadline : Nat) (rounds : List ServerRound) :
    (∀ (call : Call) (budget : DnsAttemptBudget) (out : Answer) (extra : Nat),
      Lib.Stateful.rounds out (attempt call.server call.network call.query)
        (dnsTransactionAttemptsMax + 1 + extra) .initial (call.start budget) = call.run budget) ∧
    ∃ attempts : List (List Route),
      (queryServers ⟨0, deadline⟩ rounds).2.map Sent.route = attempts.flatten ∧
      attempts.length = (queryServers ⟨0, deadline⟩ rounds).1.attempts ∧
      attempts.length ≤ 24 ∧ ∀ routes ∈ attempts, OneAttempt routes := by
  refine ⟨fun call budget out extra => ?_, ?_⟩
  · exact StrictTls.exchangeWithFeatures_fuel _ rfl out extra
  · obtain ⟨attempts, h⟩ := @spent_queryServers rounds ⟨0, deadline⟩ (Nat.zero_le _)
    have hcounted : attempts.length = (queryServers ⟨0, deadline⟩ rounds).1.attempts := by
      rw [h.counted, Nat.zero_add]
    exact ⟨attempts, h.routes, hcounted, hcounted ▸ h.bounded, h.single⟩

/-! ### A pooled stream that fails -/

/-- The first packet goes over a stream of the pool, and every stream breaks down. -/
def brokenStreams : Network :=
  { StrictTls.constantNetwork [] with
    tls := fun _ _ => .error (.io .timedOut)
    pooled := fun sent => sent == 0 }

/-- One attempt sends its packet twice over TLS. -/
theorem pooled_stream_sends_twice :
    (queryServers ⟨0, 10⟩ [⟨false, 0, ⟨StrictTls.tlsServer, brokenStreams, StrictTls.hostQuery,
        .initial, 0⟩, fun _ => [], false⟩]).1.attempts = 1 ∧
      (queryServers ⟨0, 10⟩ [⟨false, 0, ⟨StrictTls.tlsServer, brokenStreams, StrictTls.hostQuery,
        .initial, 0⟩, fun _ => [], false⟩]).2.map Sent.route = [.tls, .tls] := by
  decide

end RustdResolved.Edns.Attempts
