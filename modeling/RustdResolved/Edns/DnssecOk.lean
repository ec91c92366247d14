import RustdResolved.Edns.Levels
import RustdResolved.Edns.OptRecords
import RustdResolved.Edns.StrictTls

/-! # Queries that ask for DNSSEC

Where DNSSEC is required, a server should only be asked with the DNSSEC OK bit. The least level that
is asked for does not depend on the DNSSEC mode, so this rests on what is known of the server:
nothing that happens where DNSSEC is required lowers the possible level below the one with the bit
(`confined_dnssec`), while one exchange where it is not leaves a level without the bit behind
(`asked_without_dnssec`). -/

namespace RustdResolved.Edns.DnssecOk

open Lib.Runs Wire.Octets Resolver.Modes Servers OptRecords Exchange Levels StrictTls

variable {level : FeatureLevel}

/-- A level at which the DNSSEC OK bit is sent. -/
def AsksAt (level : FeatureLevel) : Prop := .dnssecOk ≤ level
  deriving Decidable

/-- What is known of a server allows a level with the DNSSEC OK bit. -/
structure Allows (state : ServerState) : Prop where
  possible : AsksAt state.features.possible
  badOpt : state.features.requiredBadOpt = false

theorem allows_initial : Allows .initial := ⟨by decide, rfl⟩

/-! ### Levels -/

theorem sendsDnssecOk_of_asksAt (h : AsksAt level) : level.sendsDnssecOk = true := by
  rw [AsksAt, FeatureLevel.le_iff_rank] at h
  cases level <;> first | rfl | (simp [FeatureLevel.rank] at h)

variable {server : Server} {state : ServerState}

/-- The least level that is possible is below every level with the bit. -/
theorem not_lt_minimumLevel (h : AsksAt level) : ¬ level < minimumLevel server := by
  have hminimum : minimumLevel server < .dnssecOk := by
    unfold minimumLevel
    split_ifs <;> decide
  exact not_lt.mpr (hminimum.le.trans h)

theorem allows_clipped {features : ServerFeatureState} {best : FeatureLevel} (hbest : AsksAt best)
    (hpossible : AsksAt features.possible) (hbad : features.requiredBadOpt = false) :
    AsksAt (features.clipped best (minimumLevel server)).possible ∧
      (features.clipped best (minimumLevel server)).requiredBadOpt = false := by
  unfold ServerFeatureState.clipped
  simp only [hbad, Bool.false_and, Bool.false_eq_true, if_false]
  by_cases hlt : best < features.possible
  · simp only [if_pos hlt, if_neg (not_lt_minimumLevel hbest)]
    exact ⟨hbest, trivial⟩
  · simp only [if_neg hlt, if_neg (not_lt_minimumLevel hpossible)]
    exact ⟨hpossible, hbad⟩

theorem allows_downgradeTo (now : Nat) (h : Allows state) (hlevel : AsksAt level) :
    Allows { state with features := state.features.downgradeTo level now } := by
  unfold ServerFeatureState.downgradeTo
  split_ifs
  · exact h
  · exact ⟨hlevel, h.badOpt⟩

theorem allows_recordTlsFailure {now : Nat} (h : Allows state) (hlevel : AsksAt level) :
    Allows { state with features := (state.features.recordTlsFailure level now).2 } ∧
    ∀ lower, (state.features.recordTlsFailure level now).1 = some lower → AsksAt lower := by
  have hdowngraded := allows_downgradeTo now h (le_refl FeatureLevel.dnssecOk)
  cases level with
  | tlsDnssecOk =>
    refine ⟨hdowngraded, fun lower hlower => ?_⟩
    cases hlower
    exact le_refl FeatureLevel.dnssecOk
  | tlsPlain => exact absurd hlevel (by decide)
  | udp | edns0 | dnssecOk => exact ⟨h, fun lower hlower => by cases hlower⟩

theorem allows_recordSuccess (h : Allows state) :
    Allows { state with features := state.features.recordSuccess level } := by
  unfold ServerFeatureState.recordSuccess
  dsimp only
  split_ifs <;> exact ⟨h.possible, h.badOpt⟩

theorem asksAt_bestLevel (hyes : server.dnssecMode = .yes) : AsksAt (bestLevel server state) := by
  rw [bestLevel, hyes]
  cases server.tlsMode <;> simp [preferredFeatureLevel] <;> decide

/-- **Where DNSSEC is required, the levels stay among those with the bit.** -/
theorem confined_dnssec (hyes : server.dnssecMode = .yes) : Confined server Allows AsksAt where
  lax hmode := absurd hyes hmode
  features hsame h := ⟨by rw [hsame]; exact h.possible, by rw [hsame]; exact h.badOpt⟩
  possible now h := by
    obtain ⟨hpossible, hbad⟩ := allows_clipped (asksAt_bestLevel hyes) h.possible h.badOpt
    unfold ServerFeatureState.possibleLevel
    dsimp only
    split_ifs
    · exact ⟨⟨asksAt_bestLevel hyes, hbad⟩, asksAt_bestLevel hyes⟩
    · exact ⟨⟨hpossible, hbad⟩, hpossible⟩
  best _ := asksAt_bestLevel hyes
  tlsFailure now h hlevel := allows_recordTlsFailure h hlevel
  downgrade now h hlevel := allows_downgradeTo now h hlevel
  success level h := allows_recordSuccess h

/-! ### Runs -/

def requiredSinceReset (steps : List ServerStep) : Bool :=
  steps.foldl (fun required step => match step with
    | .exchange server _ _ _ => required && decide (server.dnssecMode = .yes)
    | .reset => true) true

/-- The state that is left behind by exchanges where DNSSEC is required. -/
theorem allows_run {earlier : List ServerStep} (h : requiredSinceReset earlier = true) :
    Allows (run serverStep .initial earlier) := by
  induction earlier using List.reverseRecOn with
  | nil => exact allows_initial
  | append_singleton earlier step ih =>
    rw [run_concat]
    rw [requiredSinceReset, List.foldl_concat] at h
    cases step with
    | reset => exact allows_initial
    | exchange server network query budget =>
      obtain ⟨hearlier, hyes⟩ := Bool.and_eq_true_iff.mp h
      have hinside : Inside Allows AsksAt query ⟨run serverStep .initial earlier, budget, 0, []⟩ :=
        ⟨ih hearlier, by simp⟩
      exact (exchange_inside (confined_dnssec (of_decide_eq_true hyes)) hinside).2.server

/-- **DNSSEC is asked for**: where DNSSEC is required, and was required in all exchanges with the
server since its state was reset, every packet for a query without a TSIG record is sent with the
DNSSEC OK bit. -/
theorem dnssec_asked_for {query : Bytes} {earlier : List ServerStep} (network : Network)
    (budget : DnsAttemptBudget) (hyes : server.dnssecMode = .yes) (htsig : TsigFree query)
    (hearlier : requiredSinceReset earlier = true) :
    ∀ sent ∈ ((ServerStep.exchange server network query budget).result
      (run serverStep .initial earlier)).2, AsksForDnssec sent.packet := by
  intro sent hsent
  have hinside : Inside Allows AsksAt query ⟨run serverStep .initial earlier, budget, 0, []⟩ :=
    ⟨allows_run hearlier, by simp⟩
  obtain ⟨level, payloadSize, outbound, hlevel, hprepared, hpacket⟩ :=
    (exchange_inside (confined_dnssec hyes) hinside).2.sent sent hsent
  rw [hpacket]
  exact prepareQuery_asksForDnssec htsig (sendsDnssecOk_of_asksAt hlevel) hprepared

/-! ### A server that was asked without DNSSEC before -/

def udpServer (dnssecMode : ValidationMode) : Server := ⟨dnssecMode, .no, false, false⟩

def hostExchange (dnssecMode : ValidationMode) : ServerStep :=
  .exchange (udpServer dnssecMode) (constantNetwork (responseWithOpt 0x8180 []))
    hostQuery freshBudget

theorem dnssec_asked_for_new :
    ((hostExchange .yes).result .initial).2.length = 1 ∧
      ∀ sent ∈ ((hostExchange .yes).result (run serverStep .initial [])).2,
        AsksForDnssec sent.packet :=
  ⟨by decide, dnssec_asked_for _ _ rfl (by decide) rfl⟩

/-- **One exchange without DNSSEC is enough**: afterwards the server is asked without the DNSSEC OK
bit where DNSSEC is required. -/
theorem asked_without_dnssec :
    TsigFree hostQuery ∧
      ((hostExchange .yes).result (run serverStep .initial [hostExchange .no])).2.length = 1 ∧
      ∀ sent ∈ ((hostExchange .yes).result (run serverStep .initial [hostExchange .no])).2,
        ¬ AsksForDnssec sent.packet := by
  decide

end RustdResolved.Edns.DnssecOk
