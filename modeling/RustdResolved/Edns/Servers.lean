import Mathlib

/-! # What is known about a server

A server is asked at a feature level: plain, with EDNS, over TLS, with the DNSSEC OK bit. The state
of a server keeps the level that may still be possible, the transport in use, and what its packets
have shown. Times are readings of the monotonic clock, in nanoseconds; a clock never comes to the
end of its range. -/

namespace RustdResolved.Edns.Servers

/-! ### Feature levels -/

inductive FeatureLevel
  | udp
  | edns0
  | tlsPlain
  | dnssecOk
  | tlsDnssecOk
  deriving DecidableEq, Repr

namespace FeatureLevel

/-- The place of a level in the order of its declaration, by which levels are compared. -/
def rank : FeatureLevel → Nat
  | udp => 0
  | edns0 => 1
  | tlsPlain => 2
  | dnssecOk => 3
  | tlsDnssecOk => 4

theorem rank_injective : Function.Injective rank := by
  intro a b h
  cases a <;> cases b <;> first | rfl | cases h

instance : LinearOrder FeatureLevel := LinearOrder.lift' rank rank_injective

theorem le_iff_rank {a b : FeatureLevel} : a ≤ b ↔ a.rank ≤ b.rank := Iff.rfl

def usesEdns : FeatureLevel → Bool
  | udp => false
  | _ => true

def usesTls : FeatureLevel → Bool
  | tlsPlain | tlsDnssecOk => true
  | _ => false

/-- The source's `dnssec_ok`; the name of the level is taken. -/
def sendsDnssecOk : FeatureLevel → Bool
  | dnssecOk | tlsDnssecOk => true
  | _ => false

def lower : FeatureLevel → FeatureLevel
  | tlsDnssecOk => tlsPlain
  | dnssecOk => edns0
  | tlsPlain => edns0
  | edns0 | udp => udp

theorem usesTls_of_le_edns0 {level : FeatureLevel} (h : level ≤ edns0) : level.usesTls = false := by
  rw [le_iff_rank] at h
  cases level <;> first | rfl | (simp [rank] at h)

theorem usesTls_lower {level : FeatureLevel} (h : level.usesTls = false) :
    level.lower.usesTls = false := by
  cases level <;> first | rfl | cases h

end FeatureLevel

/-! ### Features -/

def featureRetryAttempts : Nat := 3
def featureGracePeriodMin : Nat := 5 * 60 * 1000000000
def featureGracePeriodMax : Nat := 6 * 60 * 60 * 1000000000

/-- A counter of eight bits that stays at its maximum. -/
def saturatingIncrement (n : Nat) : Nat := min 255 (n + 1)

structure ServerFeatureState where
  possible : FeatureLevel
  verified : FeatureLevel
  verifiedOnce : Bool
  failedAttempts : Nat
  retryAfter : Option Nat
  gracePeriod : Nat
  requiredBadOpt : Bool
  badOpt : Bool
  deriving DecidableEq, Repr

namespace ServerFeatureState

/-- The `Default` of the source. -/
def initial : ServerFeatureState :=
  { possible := .tlsDnssecOk
    verified := .udp
    verifiedOnce := false
    failedAttempts := 0
    retryAfter := none
    gracePeriod := featureGracePeriodMin
    requiredBadOpt := false
    badOpt := false }

variable (state : ServerFeatureState)

/-- The possible level between the least and the best one, before a retry is considered. -/
def clipped (best minimum : FeatureLevel) : ServerFeatureState :=
  let minimum := if state.requiredBadOpt then min minimum .udp else minimum
  let state :=
    if state.requiredBadOpt && state.possible.usesEdns then
      { state with possible := min state.possible .udp }
    else state
  let state := if best < state.possible then { state with possible := best } else state
  if state.possible < minimum then
    { state with possible := min minimum best, failedAttempts := 0, retryAfter := none }
  else state

def possibleLevel (best minimum : FeatureLevel) (now : Nat) : FeatureLevel × ServerFeatureState :=
  let state := state.clipped best minimum
  let retryDue := match state.retryAfter with
    | some retryAfter => decide (retryAfter ≤ now)
    | none => false
  let state :=
    if state.possible < best ∧ retryDue = true then
      { state with
        possible := best
        failedAttempts := 0
        retryAfter := none
        badOpt := false
        gracePeriod := min (state.gracePeriod * 2) featureGracePeriodMax }
    else state
  (state.possible, state)

variable (level : FeatureLevel)

def recordSuccess : ServerFeatureState :=
  let state := { state with verifiedOnce := true }
  let state := if state.verified < level then { state with verified := level } else state
  if level = state.possible then { state with failedAttempts := 0 } else state

variable (now : Nat)

def downgradeTo : ServerFeatureState :=
  if state.possible ≤ level then state
  else
    { state with
      possible := level
      verified := min state.verified level
      failedAttempts := 0
      retryAfter := some (now + state.gracePeriod) }

def recordFailure : Option FeatureLevel × ServerFeatureState :=
  if level ≠ state.possible then (none, state)
  else
    let state := { state with failedAttempts := saturatingIncrement state.failedAttempts }
    if state.failedAttempts < featureRetryAttempts then (none, state)
    else if level.lower = level then (none, state)
    else (some level.lower, state.downgradeTo level.lower now)

def recordTlsFailure : Option FeatureLevel × ServerFeatureState :=
  match level with
  | .tlsDnssecOk => (some .dnssecOk, state.downgradeTo .dnssecOk now)
  | .tlsPlain => (some .edns0, state.downgradeTo .edns0 now)
  | _ => (none, state)

def recordBadOpt : FeatureLevel × ServerFeatureState :=
  let state :=
    if level.usesEdns then { state with badOpt := true }.downgradeTo .udp now else state
  (state.possible, state)

def recordRequiredBadOpt : ServerFeatureState :=
  { state with
    requiredBadOpt := true
    badOpt := true
    possible := .udp
    verified := min state.verified .udp }

def recordDoOff : FeatureLevel × ServerFeatureState :=
  let state :=
    if level = .dnssecOk then state.downgradeTo .edns0 now
    else if level = .tlsDnssecOk then state.downgradeTo .tlsPlain now
    else state
  (state.possible, state)

theorem clipped_le (best minimum : FeatureLevel) :
    (state.clipped best minimum).possible ≤ best := by
  unfold clipped
  dsimp only
  split_ifs <;> first
    | exact min_le_right _ _
    | exact le_refl _
    | exact not_lt.mp ‹_›

theorem possibleLevel_le (best minimum : FeatureLevel) (now : Nat) :
    (state.possibleLevel best minimum now).1 ≤ best := by
  unfold possibleLevel
  dsimp only
  split_ifs
  · exact le_refl best
  · exact state.clipped_le best minimum

theorem downgradeTo_le : (state.downgradeTo level now).possible ≤ level := by
  unfold downgradeTo
  split_ifs with h
  · exact h
  · exact le_refl level

end ServerFeatureState

/-! ### Transport -/

def transportRetryAttempts : Nat := 3

inductive TransportMode
  | udp
  | tcp
  deriving DecidableEq, Repr

structure ServerTransportState where
  mode : TransportMode
  failedUdp : Nat
  failedTcp : Nat
  packetTruncated : Bool
  packetFragmented : Bool
  receivedUdpFragmentMax : Nat
  deriving DecidableEq, Repr

namespace ServerTransportState

def initial : ServerTransportState := ⟨.udp, 0, 0, false, false, 512⟩

section
variable (state : ServerTransportState)

def failures : TransportMode → Nat
  | .udp => state.failedUdp
  | .tcp => state.failedTcp

def recordSuccess : TransportMode → ServerTransportState
  | .udp => { state with failedUdp := 0 }
  | .tcp => { state with failedTcp := 0 }

def clearFailures : ServerTransportState :=
  { state with failedUdp := 0, failedTcp := 0 }

def countFailure : TransportMode → ServerTransportState
  | .udp => { state with failedUdp := saturatingIncrement state.failedUdp }
  | .tcp => { state with failedTcp := saturatingIncrement state.failedTcp }

def otherMode : TransportMode → TransportMode
  | .udp => .tcp
  | .tcp => .udp

def recordFailure (mode : TransportMode) : Option TransportMode × ServerTransportState :=
  let state := state.countFailure mode
  if state.failures mode < transportRetryAttempts ∨ mode ≠ state.mode then (none, state)
  else (some (otherMode mode), clearFailures { state with mode := otherMode mode })

def recordTruncated : ServerTransportState :=
  { state with packetTruncated := true }

def recordUdpPacket (dnsSize fragmentSize : Nat) (ipv6 : Bool) : ServerTransportState :=
  let headerSize := if ipv6 then 48 else 28
  if fragmentSize = 0 then
    { state with
      receivedUdpFragmentMax := max state.receivedUdpFragmentMax (min dnsSize (2 ^ 32 - 1)) }
  else
    { state with
      packetFragmented := true
      receivedUdpFragmentMax := max state.receivedUdpFragmentMax (fragmentSize - headerSize) }

end

end ServerTransportState

/-- `resolved_dns_udp_payload_size` of the native code; a path MTU of zero is an unknown one. -/
def dnsUdpPayloadSize (pathMtu : Option Nat) (ipv6 loopback fragmented : Bool)
    (receivedUdpFragmentMax : Nat) : Nat :=
  let headerSize := if ipv6 then 48 else 28
  let packetSize :=
    if loopback then 65536 - headerSize
    else
      let packetSize := match pathMtu.getD 0 with
        | 0 => 1232
        | pathMtu => pathMtu - headerSize
      let packetSize :=
        if fragmented = true ∧ 0 < receivedUdpFragmentMax ∧ receivedUdpFragmentMax < packetSize then
          receivedUdpFragmentMax
        else packetSize
      min packetSize 4096
  min (max packetSize 512) 65535

/-! ### The state of a server -/

/-- The state of a server, without its round-trip times and its cooldown. -/
structure ServerState where
  features : ServerFeatureState
  transport : ServerTransportState
  missingRootRrsig : Bool
  packetDoOff : Bool
  packetInvalid : Bool
  deriving DecidableEq, Repr

/-- The `Default` of the source, which `reset_server_features` returns to. -/
def ServerState.initial : ServerState := ⟨.initial, .initial, false, false, false⟩

end RustdResolved.Edns.Servers
