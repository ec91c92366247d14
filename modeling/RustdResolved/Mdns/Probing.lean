import RustdResolved.Mdns.Responder

/-! # Probing for names

Before a responder answers for its names on an interface it sends three probes and two
announcements. `poll` says what is due at a time, and a conflict starts it all over. A run is any
list of polls, late ones and many at once, and of restarts at any point. -/

namespace RustdResolved.Mdns.Probing

open Lib.Runs
open Mdns.Responder (MdnsMessageKind)

inductive MdnsProbeAction
  | wait
  | sendProbe
  | sendAnnouncement
  | established
  deriving DecidableEq, Repr

inductive MdnsProbePhase
  | probing
  | announcing
  | established
  deriving DecidableEq, Repr

/-- Times are in nanoseconds. -/
structure MdnsProbeState where
  phase : MdnsProbePhase
  probesSent : Nat
  announcementsSent : Nat
  nextDeadline : Nat
  deriving DecidableEq, Repr

def mdnsProbeCount : Nat := 3

def mdnsAnnouncementCount : Nat := 2

def mdnsProbeInterval : Nat := 250 * 1000000

def mdnsAnnouncementInterval : Nat := 1000 * 1000000

namespace MdnsProbeState

def new (now initialJitter : Nat) : MdnsProbeState :=
  ⟨.probing, 0, 0, now + min initialJitter mdnsProbeInterval⟩

def poll (state : MdnsProbeState) (now : Nat) : MdnsProbeAction × MdnsProbeState :=
  if state.phase = .established then (.established, state)
  else if now < state.nextDeadline then (.wait, state)
  else
    match state.phase with
    | .probing =>
      (.sendProbe, { state with
        probesSent := state.probesSent + 1
        nextDeadline := now + mdnsProbeInterval
        phase := if state.probesSent + 1 = mdnsProbeCount then .announcing else .probing })
    | .announcing =>
      (.sendAnnouncement,
        if state.announcementsSent + 1 = mdnsAnnouncementCount then
          { state with announcementsSent := state.announcementsSent + 1, phase := .established }
        else
          { state with
            announcementsSent := state.announcementsSent + 1
            nextDeadline := now + mdnsAnnouncementInterval })
    | .established => (.established, state)

def restartAfterConflict (_ : MdnsProbeState) (now jitter : Nat) : MdnsProbeState := new now jitter

theorem poll_early {state : MdnsProbeState} {now : Nat} (h : now < state.nextDeadline) :
    state.poll now = (.established, state) ∨ state.poll now = (.wait, state) := by
  unfold poll
  by_cases hestablished : state.phase = .established
  · exact .inl (if_pos hestablished)
  · rw [if_neg hestablished]
    exact .inr (if_pos h)

theorem phase_of_poll {state : MdnsProbeState} {now : Nat} (h : (state.poll now).1 = .established) :
    state.phase = .established := by
  by_contra hphase
  rw [poll, if_neg hphase] at h
  by_cases hearly : now < state.nextDeadline
  · rw [if_pos hearly] at h
    cases h
  · rw [if_neg hearly] at h
    cases hcase : state.phase with
    | established => exact hphase hcase
    | probing | announcing =>
      rw [hcase] at h
      cases h

def isEstablished (state : MdnsProbeState) : Bool := state.phase == .established

end MdnsProbeState

/-- An interface, with the packets that it has sent since the probe was last started. -/
structure Interface where
  probe : MdnsProbeState
  sent : List (Nat × MdnsProbeAction)

namespace Interface

def new (now jitter : Nat) : Interface := ⟨.new now jitter, []⟩

section
variable (interface : Interface)

def driveProbe (now : Nat) : Interface :=
  match interface.probe.poll now with
  | (.sendProbe, probe) => ⟨probe, interface.sent ++ [(now, .sendProbe)]⟩
  | (.sendAnnouncement, probe) => ⟨probe, interface.sent ++ [(now, .sendAnnouncement)]⟩
  | (_, probe) => { interface with probe }

def restartProbe (now jitter : Nat) : Interface :=
  ⟨interface.probe.restartAfterConflict now jitter, []⟩

/-- Whether a valid message is answered, and the interface after it. A conflict of a service starts
the probe over, and for one that changes the name of the host the loop is left. -/
def receive (now jitter : Nat) (kind : MdnsMessageKind)
    (serviceConflict rename : Bool) : Bool × Interface :=
  if serviceConflict then (false, interface.restartProbe now jitter)
  else if rename then (false, interface)
  else (kind == .query && interface.probe.isEstablished, interface)

end

end Interface

/-- What the loop of the responder does with an interface. -/
inductive Event
  | drive (now : Nat)
  | restart (now jitter : Nat)
  | message (now jitter : Nat) (kind : MdnsMessageKind) (serviceConflict rename : Bool)

def step (interface : Interface) : Event → Interface
  | .drive now => interface.driveProbe now
  | .restart now jitter => interface.restartProbe now jitter
  | .message now jitter kind serviceConflict rename =>
    (interface.receive now jitter kind serviceConflict rename).2

/-- Three probes, and then two announcements. -/
def required : List MdnsProbeAction :=
  [.sendProbe, .sendProbe, .sendProbe, .sendAnnouncement, .sendAnnouncement]

/-- Packets follow each other after these times at the earliest. -/
def Spaced : List Nat → List (Nat × MdnsProbeAction) → Prop
  | interval :: intervals, (time, _) :: next :: rest =>
    time + interval ≤ next.1 ∧ Spaced intervals (next :: rest)
  | _, _ => True

/-- What has been sent when the probe is in a state. -/
inductive Reached : Interface → Prop
  | start (deadline : Nat) : Reached ⟨⟨.probing, 0, 0, deadline⟩, []⟩
  | first (a : Nat) : Reached ⟨⟨.probing, 1, 0, a + mdnsProbeInterval⟩, [(a, .sendProbe)]⟩
  | second {a b : Nat} (hb : a + mdnsProbeInterval ≤ b) :
    Reached ⟨⟨.probing, 2, 0, b + mdnsProbeInterval⟩, [(a, .sendProbe), (b, .sendProbe)]⟩
  | third {a b c : Nat} (hb : a + mdnsProbeInterval ≤ b) (hc : b + mdnsProbeInterval ≤ c) :
    Reached ⟨⟨.announcing, 3, 0, c + mdnsProbeInterval⟩,
      [(a, .sendProbe), (b, .sendProbe), (c, .sendProbe)]⟩
  | announced {a b c d : Nat} (hb : a + mdnsProbeInterval ≤ b) (hc : b + mdnsProbeInterval ≤ c)
    (hd : c + mdnsProbeInterval ≤ d) : Reached ⟨⟨.announcing, 3, 1, d + mdnsAnnouncementInterval⟩,
      [(a, .sendProbe), (b, .sendProbe), (c, .sendProbe), (d, .sendAnnouncement)]⟩
  | established {a b c d e : Nat} (hb : a + mdnsProbeInterval ≤ b) (hc : b + mdnsProbeInterval ≤ c)
    (hd : c + mdnsProbeInterval ≤ d) (he : d + mdnsAnnouncementInterval ≤ e) :
    Reached ⟨⟨.established, 3, 2, d + mdnsAnnouncementInterval⟩, [(a, .sendProbe), (b, .sendProbe),
      (c, .sendProbe), (d, .sendAnnouncement), (e, .sendAnnouncement)]⟩

section
variable {interface : Interface} (h : Reached interface)
include h

theorem Reached.driveProbe (now : Nat) : Reached (interface.driveProbe now) := by
  unfold Interface.driveProbe
  by_cases hdue : now < interface.probe.nextDeadline
  · rcases MdnsProbeState.poll_early hdue with hpoll | hpoll
    all_goals
      rw [hpoll]
      exact h
  · have hlate := not_lt.mp hdue
    unfold MdnsProbeState.poll
    rw [if_neg hdue]
    cases h with
    | start => exact .first now
    | first => exact .second hlate
    | second hb => exact .third hb hlate
    | third hb hc => exact .announced hb hc hlate
    | announced hb hc hd => exact .established hb hc hd hlate
    | established hb hc hd he => exact .established hb hc hd he

theorem Reached.step (event : Event) : Reached (step interface event) := by
  cases event with
  | drive now => exact h.driveProbe now
  | restart => exact .start _
  | message now jitter kind serviceConflict rename =>
    cases serviceConflict
    · cases rename <;> exact h
    · exact .start _

theorem Reached.complete (hphase : interface.probe.phase = .established) :
    interface.sent.map Prod.snd = required := by
  cases h <;> first | rfl | cases hphase

end

/-- **The probing discipline**: in every run, what has been sent since the probe was last started
are the first of three probes and two announcements, each at least its interval after the one
before; and a poll says that the name is established, and a query is answered, only after all of
them. -/
theorem probing_discipline (start jitter : Nat) (events : List Event) :
    let interface := run step (.new start jitter) events
    interface.sent.map Prod.snd <+: required ∧
      Spaced [mdnsProbeInterval, mdnsProbeInterval, mdnsProbeInterval, mdnsAnnouncementInterval]
        interface.sent ∧
      (∀ now, (interface.probe.poll now).1 = .established →
        interface.sent.map Prod.snd = required) ∧
      ∀ now jitter kind serviceConflict rename,
        (interface.receive now jitter kind serviceConflict rename).1 = true →
          interface.sent.map Prod.snd = required := by
  have h :=
    run_preserves Reached (fun _ event h => h.step event) events (.new start jitter) (.start _)
  dsimp only
  generalize run step (.new start jitter) events = interface at h
  refine ⟨?_, ?_, fun now hpoll => h.complete ?_,
    fun now jitter kind serviceConflict rename hanswer =>
    h.complete ?_⟩
  · cases h <;> exact ⟨_, rfl⟩
  · cases h <;> simp_all [Spaced]
  · exact MdnsProbeState.phase_of_poll hpoll
  · cases serviceConflict <;> cases rename <;>
      simp_all [Interface.receive, MdnsProbeState.isEstablished]

end RustdResolved.Mdns.Probing
