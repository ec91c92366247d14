import RustdResolved.Lib.Runs
import RustdResolved.Routing.Table

/-! # The kernel link monitor

`netlink.rs` takes snapshots of the links. The first one is published at once, and one that differs
from what is stable only after it was seen again for a while. The tracker takes a snapshot as stable
before it is published, so a publication that fails is not made again. Times are in nanoseconds. -/

namespace RustdResolved.Routing.LinkMonitor

open Lib.Runs Table

def millisecond : Nat := 1000000

def rtnlStateConfirmation : Nat := 350 * millisecond
def rtnlPollInterval : Nat := 100 * millisecond
def rtnlInitialBackoff : Nat := 250 * millisecond
def rtnlMaxBackoff : Nat := 30000 * millisecond

/-- The map from indices to links, as its values in the order of the indices. -/
abbrev Links := List KernelLinkState

def insertLink (link : KernelLinkState) : Links → Links
  | [] => [link]
  | first :: rest =>
    if link.ifindex < first.ifindex then link :: first :: rest
    else if link.ifindex = first.ifindex then link :: rest
    else first :: insertLink link rest

def collect (links : List KernelLinkState) : Links :=
  links.foldl (fun map link => insertLink link map) []

structure Candidate where
  links : Links
  firstSeen : Nat
  observations : Nat

structure LinkTracker where
  initialized : Bool
  stable : Links
  candidate : Option Candidate

inductive Decision
  | unchanged
  | confirmAfter (delay : Nat)
  | publish (previous current : Links)
  deriving DecidableEq

def LinkTracker.observe (tracker : LinkTracker) (links : List KernelLinkState) (now : Nat) :
    Decision × LinkTracker :=
  let incoming := collect links
  let afresh := (.confirmAfter rtnlStateConfirmation,
    { tracker with candidate := some ⟨incoming, now, 1⟩ })
  if tracker.initialized = false then (.publish tracker.stable incoming, ⟨true, incoming, none⟩)
  else if incoming = tracker.stable then (.unchanged, { tracker with candidate := none })
  else
    match tracker.candidate with
    | some candidate =>
      if candidate.links = incoming then
        let candidate := { candidate with observations := min (candidate.observations + 1) 255 }
        let elapsed := now - candidate.firstSeen
        if 2 ≤ candidate.observations ∧ rtnlStateConfirmation ≤ elapsed then
          (.publish tracker.stable incoming, { tracker with stable := incoming, candidate := none })
        else
          (.confirmAfter (rtnlStateConfirmation - elapsed),
            { tracker with candidate := some candidate })
      else afresh
    | none => afresh

/-- What one sample meets: the kernel's snapshot, if there is one, and whether the resolver would
accept it. -/
structure Sample where
  now : Nat
  snapshot : Option (List KernelLinkState)
  accepted : Bool

/-- The monitor, with the links that the resolver accepted last. -/
structure Monitor where
  tracker : LinkTracker
  nextSample : Option Nat
  reopenBackoff : Nat
  published : Option Links

def spawn (first : Sample) : Monitor :=
  let idle : Monitor := ⟨⟨false, [], none⟩, some first.now, rtnlInitialBackoff, none⟩
  match first.snapshot with
  | some snapshot =>
    match idle.tracker.observe snapshot first.now with
    | (.publish _ current, tracker) =>
      { idle with
        tracker := tracker
        nextSample := none
        published := if first.accepted then some current else none }
    | (_, tracker) => { idle with tracker := tracker, nextSample := none }
  | none => idle

/-- The part of the loop for a sample that is due. -/
def Monitor.sample (monitor : Monitor) (input : Sample) : Monitor :=
  match input.snapshot with
  | some snapshot =>
    match monitor.tracker.observe snapshot input.now with
    | (.unchanged, tracker) => { monitor with tracker := tracker, nextSample := none }
    | (.confirmAfter delay, tracker) =>
      { monitor with
        tracker := tracker
        nextSample := some (input.now + max delay rtnlPollInterval) }
    | (.publish _ current, tracker) =>
      if input.accepted then
        { monitor with tracker := tracker, nextSample := none, published := some current }
      else { monitor with tracker := tracker, nextSample := some (input.now + rtnlInitialBackoff) }
  | none =>
    { monitor with
      nextSample := some (input.now + monitor.reopenBackoff)
      reopenBackoff := min (monitor.reopenBackoff * 2) rtnlMaxBackoff }

/-! ### What an observation does -/

/-- What an observation says, and the tracker after it. -/
inductive Observed (tracker : LinkTracker) (incoming : Links) (now : Nat) :
    Decision × LinkTracker → Prop
  | first (initialized : tracker.initialized = false) :
    Observed tracker incoming now (.publish tracker.stable incoming, ⟨true, incoming, none⟩)
  | unchanged (initialized : tracker.initialized = true) (stable : incoming = tracker.stable) :
    Observed tracker incoming now (.unchanged, { tracker with candidate := none })
  | confirmed {candidate : Candidate} (initialized : tracker.initialized = true)
    (seen : tracker.candidate = some candidate) (links : candidate.links = incoming)
    (elapsed : candidate.firstSeen + rtnlStateConfirmation ≤ now) :
    Observed tracker incoming now
      (.publish tracker.stable incoming, { tracker with stable := incoming, candidate := none })
  | again {candidate : Candidate} {delay observations : Nat}
      (initialized : tracker.initialized = true)
    (seen : tracker.candidate = some candidate) (links : candidate.links = incoming) :
    Observed tracker incoming now
      (.confirmAfter delay, { tracker with candidate := some { candidate with observations } })
  | afresh {delay : Nat} (initialized : tracker.initialized = true) :
    Observed tracker incoming now
      (.confirmAfter delay, { tracker with candidate := some ⟨incoming, now, 1⟩ })

theorem observed (tracker : LinkTracker) (links : List KernelLinkState) (now : Nat) :
    Observed tracker (collect links) now (tracker.observe links now) := by
  unfold LinkTracker.observe
  dsimp only
  split_ifs with hnew hstable
  · exact .first hnew
  · exact .unchanged (Bool.not_eq_false _ ▸ hnew) hstable
  · have hinitialized : tracker.initialized = true := Bool.not_eq_false _ ▸ hnew
    split
    · rename_i candidate hseen
      split_ifs with hlinks hconfirmed
      · refine .confirmed hinitialized hseen hlinks ?_
        have helapsed := hconfirmed.2
        unfold rtnlStateConfirmation millisecond at helapsed ⊢
        omega
      · exact .again hinitialized hseen hlinks
      · exact .afresh hinitialized
    · exact .afresh hinitialized

/-! ### What the tracker holds -/

/-- The latest samples, the first of them at a time, show no other links. -/
def Shown (links : Links) (since : Nat) (samples : List Sample) : Prop :=
  ∃ first rest, first :: rest <:+ samples ∧ first.now = since ∧ first.snapshot ≠ none ∧
    ∀ input ∈ first :: rest, ∀ snapshot, input.snapshot = some snapshot → collect snapshot = links

variable {monitor : Monitor} {samples : List Sample} {input : Sample}

theorem Shown.concat {links : Links} {since : Nat} (h : Shown links since samples)
    (hinput : ∀ snapshot, input.snapshot = some snapshot → collect snapshot = links) :
    Shown links since (samples ++ [input]) := by
  obtain ⟨first, rest, ⟨before, rfl⟩, hnow, hsome, hall⟩ := h
  refine ⟨first, rest ++ [input], ⟨before, by simp⟩, hnow, hsome, ?_⟩
  rw [← List.cons_append, List.forall_mem_append, List.forall_mem_singleton]
  exact ⟨hall, hinput⟩

/-- The candidate is what the latest samples show, and what is stable was accepted if nothing was
refused. -/
structure Tracks (samples : List Sample) (monitor : Monitor) : Prop where
  initialized : (∃ input ∈ samples, input.snapshot ≠ none) → monitor.tracker.initialized = true
  shown : ∀ candidate, monitor.tracker.candidate = some candidate →
    Shown candidate.links candidate.firstSeen samples
  published : (∀ input ∈ samples, input.accepted = true) → monitor.tracker.initialized = true →
    monitor.published = some monitor.tracker.stable

theorem Tracks.spawn {first : Sample} : Tracks [first] (spawn first) := by
  constructor <;> cases hsnapshot : first.snapshot <;>
    simp [LinkMonitor.spawn, LinkTracker.observe, hsnapshot]

theorem Tracks.sample (h : Tracks samples monitor) :
    Tracks (samples ++ [input]) (monitor.sample input) := by
  obtain ⟨hinitialized, hshown, hpublished⟩ := h
  have hbefore : (∀ other ∈ samples ++ [input], other.accepted = true) →
      ∀ other ∈ samples, other.accepted = true := fun haccepted other hother =>
    haccepted other (List.mem_append_left _ hother)
  unfold Monitor.sample
  cases hsnapshot : input.snapshot with
  | none =>
    refine ⟨?_, fun candidate hcandidate => (hshown candidate hcandidate).concat ?_, ?_⟩
    · rintro ⟨other, hother, hsome⟩
      rcases List.mem_append.mp hother with hother | hother
      · exact hinitialized ⟨other, hother, hsome⟩
      · rw [List.mem_singleton.mp hother] at hsome
        exact absurd hsnapshot hsome
    · simp [hsnapshot]
    · exact fun haccepted => hpublished (hbefore haccepted)
  | some snapshot =>
    have hnone : ∀ candidate, (none : Option Candidate) = some candidate →
        Shown candidate.links candidate.firstSeen (samples ++ [input]) := nofun
    have hlast : (∀ other ∈ samples ++ [input], other.accepted = true) → input.accepted = true :=
      fun haccepted => haccepted input (by simp)
    have hobserved := observed monitor.tracker snapshot input.now
    dsimp only
    generalize monitor.tracker.observe snapshot input.now = result at hobserved
    cases hobserved with
    | first =>
      split_ifs with haccepted
      · exact ⟨fun _ => rfl, hnone, fun _ _ => rfl⟩
      · exact ⟨fun _ => rfl, hnone, fun hall => absurd (hlast hall) haccepted⟩
    | unchanged hset hstable =>
      exact ⟨fun _ => hset, hnone, fun hall _ => hpublished (hbefore hall) hset⟩
    | confirmed hset =>
      split_ifs with haccepted
      · exact ⟨fun _ => hset, hnone, fun _ _ => rfl⟩
      · exact ⟨fun _ => hset, hnone, fun hall => absurd (hlast hall) haccepted⟩
    | again hset hseen hlinks =>
      refine ⟨fun _ => hset, ?_, fun hall _ => hpublished (hbefore hall) hset⟩
      rintro candidate ⟨⟩
      exact (hshown _ hseen).concat (by simp [hsnapshot, hlinks])
    | afresh hset =>
      refine ⟨fun _ => hset, ?_, fun hall _ => hpublished (hbefore hall) hset⟩
      rintro candidate ⟨⟩
      exact ⟨input, [], ⟨samples, rfl⟩, rfl, by simp [hsnapshot], by simp [hsnapshot]⟩

theorem tracks_run {first : Sample} : ∀ samples : List Sample,
    Tracks (first :: samples) (run Monitor.sample (spawn first) samples) := by
  intro samples
  induction samples using List.reverseRecOn with
  | nil => exact .spawn
  | append_singleton samples input ih =>
    rw [run_concat]
    exact ih.sample

/-- **Links are published after they were shown for the confirmation interval**, but for the first
ones, and when a sample finds them unchanged the resolver has them, if it refused none. -/
theorem links_confirmed (first input : Sample) (samples : List Sample)
    (snapshot : List KernelLinkState) :
    let tracker := (run Monitor.sample (spawn first) samples).tracker
    (∀ previous current, (∃ earlier ∈ first :: samples, earlier.snapshot ≠ none) →
      (tracker.observe snapshot input.now).1 = .publish previous current →
      current = collect snapshot ∧ ∃ since, Shown current since (first :: samples) ∧
        since + rtnlStateConfirmation ≤ input.now) ∧
    ((∀ earlier ∈ first :: samples, earlier.accepted = true) →
      (tracker.observe snapshot input.now).1 = .unchanged →
      (run Monitor.sample (spawn first) samples).published = some (collect snapshot)) := by
  intro tracker
  obtain ⟨hinitialized, hshown, hpublished⟩ := @tracks_run first samples
  have hobserved := observed tracker snapshot input.now
  generalize tracker.observe snapshot input.now = result at hobserved
  constructor
  · intro previous current hearlier hpublish
    cases hobserved with
    | first hnew =>
      rw [hinitialized hearlier] at hnew
      cases hnew
    | confirmed _ hseen hlinks helapsed =>
      cases hpublish
      exact ⟨rfl, _, hlinks ▸ hshown _ hseen, helapsed⟩
    | unchanged | again | afresh => cases hpublish
  · intro haccepted hunchanged
    cases hobserved with
    | unchanged hset hstable => exact hstable ▸ hpublished haccepted hset
    | first | confirmed | again | afresh => cases hunchanged

/-- The resolver refuses a link. It is stable all the same, and the next sample finds it
unchanged. -/
theorem refused_links_stay :
    let link : KernelLinkState := ⟨2, [], 0, 0, 0, false, false, false, false⟩
    let monitor := run Monitor.sample (spawn ⟨0, some [], true⟩)
      [⟨1000 * millisecond, some [link], true⟩, ⟨1400 * millisecond, some [link], false⟩]
    let after := monitor.sample ⟨1700 * millisecond, some [link], true⟩
    (monitor.tracker.observe [link] (1700 * millisecond)).1 = .unchanged ∧ after.nextSample = none ∧
      after.published = some [] := by
  decide

end RustdResolved.Routing.LinkMonitor
