import RustdResolved.Lib.Runs
import RustdResolved.Routing.Table

/-! # The executor of the TCP connections

A listener submits a job for each connection it accepts: it reserves a place for the peer, takes a
turn, offers the job to one worker after another until a queue has room, and releases the place if
none has. A worker takes the jobs of its queue one by one and releases the place of each when it is
done. All these, and each offer, are steps of their own, of any number of listeners and workers, and
a run is any list of them.

Places are counted under a key, a hash of the whole socket address. The limit holds for each key
(`Balanced.step`), so it holds for an IP address as far as its connections share one key. -/

namespace RustdResolved.Daemon.Executor

open List Lib Maps Runs Routing.Table
open Wire.Redirects (IpAddr)

variable {index place peerLimit queueDepth workers : Nat}

structure Job where
  peer : SocketAddr
  peerKey : UInt64
  deriving DecidableEq, Repr

structure Worker where
  queue : List Job
  running : Option Job
  deriving Repr

def Worker.jobs (worker : Worker) : List Job := worker.queue ++ worker.running.toList

/-- A job that a listener offers to the workers: the first of them, and how many queues were
full. -/
structure Offer where
  job : Job
  start : Nat
  offset : Nat
  deriving DecidableEq, Repr

/-- The executor, with the jobs that listeners hold: those that have their place, those that are
offered, and those that no worker took and whose places are still to be released. -/
structure BoundedExecutor where
  workers : List Worker
  queueDepth : Nat
  roundRobin : UInt64
  peerLimit : Nat
  peerInflight : FiniteMap UInt64 Nat
  submitting : List Job
  offered : List Offer
  refused : List Job

def BoundedExecutor.new (workers queueDepth peerLimit : Nat) : BoundedExecutor :=
  ⟨List.replicate workers ⟨[], none⟩, queueDepth, 0, peerLimit, ∅, [], [], []⟩

/-- `BoundedExecutor::new(DEFAULT_WORKERS, DEFAULT_QUEUE_DEPTH, DEFAULT_PEER_LIMIT)`. -/
def tcpExecutor : BoundedExecutor := .new 16 64 8

/-! ### The operations -/

variable (inflight : FiniteMap UInt64 Nat) (key : UInt64)

/-- The places that are taken under a key. -/
def count : Nat := (inflight.lookup key).getD 0

def reservePeer (limit : Nat) (inflight : FiniteMap UInt64 Nat) (key : UInt64) :
    Bool × FiniteMap UInt64 Nat :=
  if limit ≤ count inflight key then (false, inflight.insert key (count inflight key))
  else (true, inflight.insert key (count inflight key + 1))

def releasePeer : FiniteMap UInt64 Nat :=
  match inflight.lookup key with
  | some taken => if taken - 1 = 0 then inflight.erase key else inflight.insert key (taken - 1)
  | none => inflight

/-- The turn of a job: the worker that it is offered to first. -/
def takeTurn (executor : BoundedExecutor) (job : Job) : BoundedExecutor :=
  if executor.workers.isEmpty then { executor with refused := executor.refused ++ [job] }
  else
    { executor with
      roundRobin := executor.roundRobin + 1
      offered := executor.offered ++
        [⟨job, executor.roundRobin.toNat % executor.workers.length, 0⟩] }

/-- One turn of the loop: `try_send` to the next worker, until every worker was asked. -/
def trySend (executor : BoundedExecutor) (place : Nat) (offer : Offer) : BoundedExecutor :=
  if offer.offset < executor.workers.length then
    let index := (offer.start + offer.offset) % executor.workers.length
    match executor.workers[index]? with
    | some worker =>
      if worker.queue.length < executor.queueDepth then
        { executor with
          workers := executor.workers.set index { worker with queue := worker.queue ++ [offer.job] }
          offered := executor.offered.eraseIdx place }
      else
        { executor with
          offered := executor.offered.set place { offer with offset := offer.offset + 1 } }
    | none => executor
  else
    { executor with
      offered := executor.offered.eraseIdx place
      refused := executor.refused ++ [offer.job] }

inductive Action
  /-- A listener accepts a connection and reserves a place for it, or turns it down. -/
  | reserve (peer : SocketAddr)
  /-- A listener takes a turn for one of the jobs that have their place. -/
  | turn (place : Nat)
  /-- A listener offers a job to the next worker. -/
  | offer (place : Nat)
  /-- A listener releases the place of a job that no worker took. -/
  | release (place : Nat)
  /-- A worker takes the next job of its queue. -/
  | start (worker : Nat)
  /-- A worker has done its job and releases the place. -/
  | finish (worker : Nat)

section
variable (peerKeyFromSocketAddr : SocketAddr → UInt64)

def step (executor : BoundedExecutor) : Action → BoundedExecutor
  | .reserve peer =>
    let key := peerKeyFromSocketAddr peer
    match reservePeer executor.peerLimit executor.peerInflight key with
    | (true, peerInflight) =>
      { executor with peerInflight, submitting := executor.submitting ++ [⟨peer, key⟩] }
    | (false, peerInflight) => { executor with peerInflight }
  | .turn place =>
    match executor.submitting[place]? with
    | some job => takeTurn { executor with submitting := executor.submitting.eraseIdx place } job
    | none => executor
  | .offer place =>
    match executor.offered[place]? with
    | some offer => trySend executor place offer
    | none => executor
  | .release place =>
    match executor.refused[place]? with
    | some job =>
      { executor with
        refused := executor.refused.eraseIdx place
        peerInflight := releasePeer executor.peerInflight job.peerKey }
    | none => executor
  | .start index =>
    match executor.workers[index]? with
    | some ⟨job :: queue, none⟩ =>
      { executor with workers := executor.workers.set index ⟨queue, some job⟩ }
    | _ => executor
  | .finish index =>
    match executor.workers[index]? with
    | some ⟨queue, some job⟩ =>
      { executor with
        workers := executor.workers.set index ⟨queue, none⟩
        peerInflight := releasePeer executor.peerInflight job.peerKey }
    | _ => executor

end

def queuedOrRunning (executor : BoundedExecutor) : List Job := executor.workers.flatMap Worker.jobs

/-- All jobs that have a place. -/
def reserved (executor : BoundedExecutor) : List Job :=
  executor.submitting ++ (executor.offered.map Offer.job ++
    (executor.refused ++ queuedOrRunning executor))

/-- The jobs of the connections of an IP address. -/
def jobsOf (ip : IpAddr) (jobs : List Job) : Nat := jobs.countP fun job => ipOf job.peer = ip

/-! ### The counts -/

theorem count_insert (other : UInt64) (taken : Nat) :
    count (inflight.insert key taken) other = if other = key then
      taken else count inflight other := by
  unfold count
  split_ifs with heq
  · rw [heq, AList.lookup_insert]
    rfl
  · rw [AList.lookup_insert_ne heq]

theorem count_releasePeer {other : UInt64} :
    count (releasePeer inflight key) other =
      if other = key then count inflight other - 1 else count inflight other := by
  unfold releasePeer
  cases hlookup : inflight.lookup key with
  | none =>
    split_ifs with heq
    · rw [heq, count, hlookup]
      rfl
    · rfl
  | some taken =>
    dsimp only
    have htaken : count inflight key = taken := by
      rw [count, hlookup]
      rfl
    split_ifs with hlast heq heq
    · rw [heq, count, AList.lookup_erase, htaken, hlast]
      rfl
    · rw [count, AList.lookup_erase_ne heq, count]
    · rw [count_insert, if_pos heq, heq, htaken]
    · rw [count_insert, if_neg heq]

/-! ### What a step does to the jobs -/

/-- Replacing one worker replaces its jobs. -/
theorem flatMap_set_perm {workers : List Worker} {worker : Worker}
    (h : workers[index]? = some worker) :
    ∃ rest, (workers.flatMap Worker.jobs).Perm (worker.jobs ++ rest) ∧
      ∀ other : Worker, ((workers.set index other).flatMap Worker.jobs).Perm
        (other.jobs ++ rest) := by
  obtain ⟨hlt, hget⟩ := List.getElem?_eq_some_iff.mp h
  have hsplit : ∀ other : Worker, (workers.set index other).flatMap Worker.jobs =
      (workers.take index).flatMap Worker.jobs ++
        (other.jobs ++ (workers.drop (index + 1)).flatMap Worker.jobs) := by
    intro other
    rw [set_eq_take_append_cons_drop, if_pos hlt, flatMap_append, flatMap_cons]
  refine ⟨(workers.take index).flatMap Worker.jobs ++
    (workers.drop (index + 1)).flatMap Worker.jobs, ?_, ?_⟩
  · have hself := hsplit worker
    rw [← hget, set_getElem_self] at hself
    rw [hself, hget]
    exact perm_append_comm_assoc _ _ _
  · intro other
    rw [hsplit]
    exact perm_append_comm_assoc _ _ _

variable {job : Job} {executor : BoundedExecutor}

section
variable {keyOf : SocketAddr → UInt64}

/-- What a step does to the jobs that have a place, and to the counts. -/
inductive Effect (keyOf : SocketAddr → UInt64) (executor executor' : BoundedExecutor) :
    Action → Prop
  | moved {action : Action} (jobs : (reserved executor').Perm (reserved executor))
      (counts : ∀ key, count executor'.peerInflight key = count executor.peerInflight key) :
      Effect keyOf executor executor' action
  | taken {peer : SocketAddr}
      (jobs : (reserved executor').Perm (⟨peer, keyOf peer⟩ :: reserved executor))
      (free : count executor.peerInflight (keyOf peer) < executor.peerLimit)
      (counts : ∀ key, count executor'.peerInflight key =
        if key = keyOf peer then count executor.peerInflight key + 1
        else count executor.peerInflight key) :
      Effect keyOf executor executor' (.reserve peer)
  | released {action : Action} (job : Job)
      (jobs : (reserved executor).Perm (job :: reserved executor'))
      (counts : ∀ key, count executor'.peerInflight key =
        if key = job.peerKey then count executor.peerInflight key - 1
        else count executor.peerInflight key) :
      Effect keyOf executor executor' action

theorem perm_of_getElem? {α : Type} {l : List α} {a : α} (h : l[place]? = some a) :
    l.Perm (a :: l.eraseIdx place) := by
  obtain ⟨hlt, rfl⟩ := List.getElem?_eq_some_iff.mp h
  exact (getElem_cons_eraseIdx_perm hlt).symm

theorem effect_reserve {peer : SocketAddr} :
    Effect keyOf executor (step keyOf executor (.reserve peer)) (.reserve peer) := by
  simp only [step, reservePeer]
  split_ifs with hfull
  · refine .moved (.refl _) fun key => ?_
    rw [count_insert]
    split_ifs with hkey
    · rw [hkey]
    · rfl
  · refine .taken ?_ (by omega) fun key => ?_
    · unfold reserved queuedOrRunning
      rw [append_assoc]
      exact perm_middle
    · rw [count_insert]
      split_ifs with hkey
      · rw [hkey]
      · rfl

theorem effect_turn : Effect keyOf executor (step keyOf executor (.turn place)) (.turn place) := by
  simp only [step]
  split
  · rename_i job hjob
    unfold takeTurn
    have hsubmitting := perm_of_getElem? hjob
    split_ifs
    all_goals
      refine .moved (perm_iff_count.mpr fun other => ?_) fun _ => rfl
      have h1 := hsubmitting.count_eq other
      simp only [reserved, queuedOrRunning, map_append, map_cons, map_nil, count_append, count_cons,
        count_nil] at h1 ⊢
      omega
  · exact .moved (.refl _) fun _ => rfl

theorem effect_offer :
    Effect keyOf executor (step keyOf executor (.offer place)) (.offer place) := by
  simp only [step]
  split
  · rename_i offer hoffer
    have hoffered := (perm_of_getElem? hoffer).map Offer.job
    unfold trySend
    split_ifs with hmore
    · dsimp only
      split
      · rename_i worker hworker
        split_ifs
        · obtain ⟨rest, hbefore, hafter⟩ := flatMap_set_perm hworker
          refine .moved (perm_iff_count.mpr fun other => ?_) fun _ => rfl
          have h1 := hoffered.count_eq other
          have h2 := hbefore.count_eq other
          have h3 := (hafter { worker with queue := worker.queue ++ [offer.job] }).count_eq other
          simp only [reserved, queuedOrRunning, Worker.jobs, map_cons, count_append, count_cons,
            count_nil] at h1 h2 h3 ⊢
          omega
        · -- the job is the same, and the next worker is asked
          refine .moved (.of_eq ?_) fun _ => rfl
          have hget : (executor.offered.map Offer.job)[place]? = some offer.job := by
            rw [getElem?_map, hoffer]
            rfl
          obtain ⟨hlt, hget⟩ := List.getElem?_eq_some_iff.mp hget
          have hsame : (executor.offered.set place { offer with offset := offer.offset + 1 }).map
              Offer.job = executor.offered.map Offer.job := by
            rw [map_set, ← hget, set_getElem_self]
          simp only [reserved, queuedOrRunning, hsame]
      · exact .moved (.refl _) fun _ => rfl
    · refine .moved (perm_iff_count.mpr fun other => ?_) fun _ => rfl
      have h1 := hoffered.count_eq other
      simp only [reserved, queuedOrRunning, map_cons, count_append, count_cons, count_nil] at h1 ⊢
      omega
  · exact .moved (.refl _) fun _ => rfl

theorem effect_release :
    Effect keyOf executor (step keyOf executor (.release place)) (.release place) := by
  simp only [step]
  split
  · rename_i job hjob
    refine .released job ?_ fun key => count_releasePeer _ _
    refine perm_iff_count.mpr fun other => ?_
    have h1 := (perm_of_getElem? hjob).count_eq other
    simp only [reserved, queuedOrRunning, count_append, count_cons] at h1 ⊢
    omega
  · exact .moved (.refl _) fun _ => rfl

theorem effect_start :
    Effect keyOf executor (step keyOf executor (.start index)) (.start index) := by
  simp only [step]
  split
  · rename_i job queue hworker
    obtain ⟨rest, hbefore, hafter⟩ := flatMap_set_perm hworker
    refine .moved (perm_iff_count.mpr fun other => ?_) fun _ => rfl
    have h1 := hbefore.count_eq other
    have h2 := (hafter ⟨queue, some job⟩).count_eq other
    simp only [reserved, queuedOrRunning, Worker.jobs, count_append, count_cons,
      count_nil, Option.toList] at h1 h2 ⊢
    omega
  · exact .moved (.refl _) fun _ => rfl

theorem effect_finish :
    Effect keyOf executor (step keyOf executor (.finish index)) (.finish index) := by
  simp only [step]
  split
  · rename_i queue job hworker
    obtain ⟨rest, hbefore, hafter⟩ := flatMap_set_perm hworker
    refine .released job (perm_iff_count.mpr fun other => ?_) fun key => count_releasePeer _ _
    have h1 := hbefore.count_eq other
    have h2 := (hafter ⟨queue, none⟩).count_eq other
    simp only [reserved, queuedOrRunning, Worker.jobs, count_append, count_cons,
      count_nil, Option.toList] at h1 h2 ⊢
    omega
  · exact .moved (.refl _) fun _ => rfl

/-- **Every step has one of the effects.** -/
theorem effect_step {action : Action} :
    Effect keyOf executor (step keyOf executor action) action := by
  cases action with
  | reserve peer => exact effect_reserve
  | turn place => exact effect_turn
  | offer place => exact effect_offer
  | release place => exact effect_release
  | start index => exact effect_start
  | finish index => exact effect_finish

theorem step_peerLimit {action : Action} :
    (step keyOf executor action).peerLimit = executor.peerLimit := by
  cases action with
  | turn place =>
    simp only [step, takeTurn]
    split
    · split_ifs <;> rfl
    · rfl
  | offer place =>
    simp only [step, trySend]
    split
    · split_ifs
      · split
        · split_ifs <;> rfl
        · rfl
      · rfl
    · rfl
  | _ => simp only [step]; split <;> rfl

/-! ### The limit of a key -/

def jobsWith (jobs : List Job) : Nat := jobs.countP fun job => job.peerKey = key

theorem jobsWith_cons (job : Job) (jobs : List Job) :
    jobsWith key (job :: jobs) = jobsWith key jobs + if key = job.peerKey then 1 else 0 := by
  unfold jobsWith
  rw [countP_cons]
  simp only [decide_eq_true_eq, eq_comm (a := job.peerKey)]

theorem jobsWith_perm {jobs jobs' : List Job} (h : jobs.Perm jobs') (key : UInt64) :
    jobsWith key jobs = jobsWith key jobs' := h.countP_eq _

/-- Every job that has a place is counted under its key, and no count is over the limit. -/
structure Balanced (limit : Nat) (executor : BoundedExecutor) : Prop where
  peerLimit : executor.peerLimit = limit
  counted : ∀ key, jobsWith key (reserved executor) ≤ count executor.peerInflight key
  limited : ∀ key, count executor.peerInflight key ≤ limit

theorem reserved_new (workers queueDepth peerLimit : Nat) :
    reserved (.new workers queueDepth peerLimit) = [] := by
  have hidle : queuedOrRunning (.new workers queueDepth peerLimit) = [] := by
    refine flatMap_eq_nil_iff.mpr fun worker hworker => ?_
    rw [eq_of_mem_replicate hworker]
    rfl
  rw [reserved, hidle]
  rfl

theorem balanced_new : Balanced peerLimit (.new workers queueDepth peerLimit) where
  peerLimit := rfl
  counted := by
    intro key
    rw [reserved_new]
    exact Nat.zero_le _
  limited := fun _ => Nat.zero_le _

/-- **Every step keeps the counts.** -/
theorem Balanced.step {limit : Nat} (h : Balanced limit executor) (action : Action) :
    Balanced limit (step keyOf executor action) := by
  obtain ⟨hlimit, hcounted, hlimited⟩ := h
  refine ⟨step_peerLimit.trans hlimit, ?_, ?_⟩
  · intro key
    have hkey := hcounted key
    cases effect_step with
    | moved jobs counts =>
      rw [counts, jobsWith_perm jobs]
      exact hkey
    | taken jobs free counts =>
      rw [counts, jobsWith_perm jobs, jobsWith_cons]
      split_ifs <;> omega
    | released job jobs counts =>
      rw [counts]
      rw [jobsWith_perm jobs, jobsWith_cons] at hkey
      split_ifs at hkey ⊢ <;> omega
  · intro key
    have hkey := hlimited key
    cases effect_step with
    | moved jobs counts => rw [counts]; exact hkey
    | taken jobs free counts =>
      rw [counts]
      split_ifs with heq
      · subst heq
        omega
      · exact hkey
    | released job jobs counts =>
      rw [counts]
      split_ifs <;> omega

/-- A job that has a place was submitted in the run, under the key of its peer. -/
theorem reserved_run (keyOf : SocketAddr → UInt64) (actions : List Action)
    (hnew : reserved executor = []) :
    ∀ job ∈ reserved (run (step keyOf) executor actions),
      job.peerKey = keyOf job.peer ∧ .reserve job.peer ∈ actions := by
  induction actions using reverseRecOn with
  | nil =>
    intro job hjob
    rw [show run (step keyOf) executor [] = executor from rfl, hnew] at hjob
    cases hjob
  | append_singleton actions action ih =>
    intro job hjob
    have hold : job ∈ reserved (run (step keyOf) executor actions) →
        job.peerKey = keyOf job.peer ∧ .reserve job.peer ∈ actions ++ [action] :=
      fun h => ⟨(ih job h).1, mem_append_left _ (ih job h).2⟩
    rw [run_concat] at hjob
    cases effect_step with
    | moved jobs counts => exact hold (jobs.mem_iff.mp hjob)
    | taken jobs free counts =>
      rcases mem_cons.mp (jobs.mem_iff.mp hjob) with rfl | hmem
      · exact ⟨rfl, by simp⟩
      · exact hold hmem
    | released other jobs counts => exact hold (jobs.mem_iff.mpr (mem_cons_of_mem _ hjob))

/-- All connections of an IP address that the run accepts have one key. -/
def OneKey (keyOf : SocketAddr → UInt64) (ip : IpAddr) (actions : List Action) : Prop :=
  ∀ peer other, .reserve peer ∈ actions → .reserve other ∈ actions → ipOf peer = ip →
    ipOf other = ip →
    keyOf peer = keyOf other

theorem jobsOf_le {ip : IpAddr} {actions : List Action} (h : OneKey keyOf ip actions) :
    jobsOf ip (reserved (run (step keyOf) (.new workers queueDepth peerLimit)
      actions)) ≤ peerLimit := by
  have hbalanced :
      Balanced peerLimit (run (step keyOf) (.new workers queueDepth peerLimit) actions) :=
    run_preserves (Balanced peerLimit) (fun _ action h => h.step action) actions _ balanced_new
  have hsubmitted := reserved_run keyOf actions (reserved_new workers queueDepth peerLimit)
  generalize run (step keyOf) (.new workers queueDepth peerLimit) actions = executor
    at hbalanced hsubmitted
  by_cases hsome : ∃ job ∈ reserved executor, ipOf job.peer = ip
  · obtain ⟨job, hjob, hip⟩ := hsome
    refine le_trans ?_ ((hbalanced.counted job.peerKey).trans (hbalanced.limited job.peerKey))
    refine countP_mono_left fun other hother hsame => ?_
    rw [decide_eq_true_eq] at hsame ⊢
    rw [(hsubmitted other hother).1, (hsubmitted job hjob).1]
    exact h _ _ (hsubmitted other hother).2 (hsubmitted job hjob).2 hsame hip
  · have hnone : jobsOf ip (reserved executor) = 0 := by
      rw [jobsOf, countP_eq_zero]
      intro job hjob hsame
      exact hsome ⟨job, hjob, of_decide_eq_true hsame⟩
    rw [hnone]
    exact Nat.zero_le _

/-! ### Two keys of one address -/

/-- A listener accepts a connection, and the first worker takes its job at once. -/
def submit (peer : SocketAddr) : List Action := [.reserve peer, .turn 0, .offer 0]

/-- The executor has taken these jobs and counts them. -/
structure Holds (queueDepth peerLimit : Nat) (jobs : List Job) (executor : BoundedExecutor) :
    Prop where
  workers : executor.workers ≠ []
  queueDepth : executor.queueDepth = queueDepth
  peerLimit : executor.peerLimit = peerLimit
  queued : (queuedOrRunning executor).Perm jobs
  counts : ∀ key, count executor.peerInflight key = jobsWith key jobs
  submitting : executor.submitting = []
  offered : executor.offered = []

/-- An executor with fewer jobs than one queue takes has room at every worker. -/
theorem queue_length_lt {worker : Worker} (hworker : executor.workers[index]? = some worker)
    (hroom : (queuedOrRunning executor).length < executor.queueDepth) :
    worker.queue.length < executor.queueDepth := by
  obtain ⟨rest, hperm, -⟩ := flatMap_set_perm hworker
  have hlength := hperm.length_eq
  simp only [Worker.jobs, length_append] at hlength
  simp only [queuedOrRunning] at hroom
  omega

/-- **A submission succeeds** where the key has a place left and a queue has room. -/
theorem Holds.submit {jobs : List Job} (h : Holds queueDepth peerLimit jobs executor)
    (keyOf : SocketAddr → UInt64) (peer : SocketAddr) (hroom : jobs.length < queueDepth)
    (hfree : jobsWith (keyOf peer) jobs < peerLimit) :
    Holds queueDepth peerLimit (⟨peer, keyOf peer⟩ :: jobs)
      (run (step keyOf) executor (submit peer)) := by
  rw [← h.queued.length_eq, ← h.queueDepth] at hroom
  rw [← h.counts, ← h.peerLimit] at hfree
  have hpos : 0 < executor.workers.length := length_pos_iff.mpr h.workers
  have hlt := Nat.mod_lt executor.roundRobin.toNat hpos
  set index := executor.roundRobin.toNat % executor.workers.length with hindex
  set worker := executor.workers[index] with hget
  have hworker : executor.workers[index]? = some worker := getElem?_eq_getElem hlt
  set job : Job := ⟨peer, keyOf peer⟩ with hjob
  set inflight := executor.peerInflight.insert job.peerKey
    (count executor.peerInflight job.peerKey + 1) with hinflight
  have hreserve : step keyOf executor (.reserve peer) =
      { executor with peerInflight := inflight, submitting := [job] } := by
    simp only [step, reservePeer, if_neg (not_le.mpr hfree), h.submitting, nil_append]
    rfl
  have hturn :
      step keyOf { executor with peerInflight := inflight, submitting := [job] } (.turn 0) =
      { executor with
        peerInflight := inflight
        roundRobin := executor.roundRobin + 1
        submitting := []
        offered := [⟨job, index, 0⟩] } := by
    simp only [step, takeTurn, getElem?_cons_zero, eraseIdx_cons_zero, h.offered, nil_append,
      isEmpty_eq_false_iff.mpr h.workers]
    rfl
  have hsend : step keyOf { executor with
        peerInflight := inflight
        roundRobin := executor.roundRobin + 1
        submitting := []
        offered := [⟨job, index, 0⟩] } (.offer 0) =
      { executor with
        workers := executor.workers.set index { worker with queue := worker.queue ++ [job] }
        peerInflight := inflight
        roundRobin := executor.roundRobin + 1
        submitting := []
        offered := [] } := by
    simp only [step, trySend, getElem?_cons_zero, eraseIdx_cons_zero, Nat.add_zero, if_pos hpos,
      Nat.mod_eq_of_lt hlt, hworker, if_pos (queue_length_lt hworker hroom)]
  rw [Executor.submit, run_cons, run_cons, run_cons, hreserve, hturn, hsend, run, foldl_nil]
  refine ⟨?_, h.queueDepth, h.peerLimit, ?_, ?_, rfl, rfl⟩
  · rw [ne_eq, set_eq_nil_iff]
    exact h.workers
  · obtain ⟨rest, hbefore, hafter⟩ := flatMap_set_perm hworker
    refine .trans (perm_iff_count.mpr fun other => ?_) (h.queued.cons job)
    have h1 := hbefore.count_eq other
    have h2 := (hafter { worker with queue := worker.queue ++ [job] }).count_eq other
    simp only [queuedOrRunning, Worker.jobs, count_append, count_cons, count_nil] at h1 h2 ⊢
    omega
  · intro key
    rw [hinflight, count_insert, jobsWith_cons, h.counts, h.counts]
    split_ifs with heq
    · rw [heq]
    · rfl

theorem jobsWith_replicate (n : Nat) (job : Job) :
    jobsWith key (List.replicate n job) = if job.peerKey = key then n else 0 := by
  rw [jobsWith, countP_replicate]
  simp only [decide_eq_true_eq]

/-- Submissions of one connection after another, up to the limit. -/
theorem holds_submissions (keyOf : SocketAddr → UInt64) (hworkers : 0 < workers)
    (hdepth : peerLimit < queueDepth) (peer : SocketAddr) (submissions : Nat)
    (hle : submissions ≤ peerLimit) :
    Holds queueDepth peerLimit (List.replicate submissions ⟨peer, keyOf peer⟩)
      (run (step keyOf) (.new workers queueDepth peerLimit)
        (List.replicate submissions (submit peer)).flatten) := by
  induction submissions with
  | zero =>
    refine ⟨?_, rfl, rfl, ?_, fun _ => rfl, rfl, rfl⟩
    · exact ne_nil_of_length_pos (by simpa [run, BoundedExecutor.new] using hworkers)
    · have hreserved := reserved_new workers queueDepth peerLimit
      rw [reserved, append_eq_nil_iff, append_eq_nil_iff, append_eq_nil_iff] at hreserved
      exact .of_eq hreserved.2.2.2
  | succ submissions ih =>
    have hnext := (ih (by omega)).submit keyOf peer (by rw [length_replicate]; omega)
      (by rw [jobsWith_replicate, if_pos rfl]; omega)
    rwa [← run_append, ← flatten_concat, ← replicate_succ', ← replicate_succ] at hnext

end

/-- **The limit for an IP address is the limit for its keys.** As long as all connections of an
address that a run accepts have one key, the address never has more places than the limit. Where two
socket addresses of one IP address have different keys, an executor that takes that many jobs gets
past the limit. -/
theorem ip_limit (peerKeyFromSocketAddr : SocketAddr → UInt64)
    (workers queueDepth peerLimit : Nat) :
    (∀ actions ip, OneKey peerKeyFromSocketAddr ip actions →
      jobsOf ip (reserved (run (step peerKeyFromSocketAddr) (.new workers queueDepth peerLimit)
        actions)) ≤ peerLimit) ∧
    (0 < workers → 0 < peerLimit → peerLimit < queueDepth →
      ((∀ actions ip, jobsOf ip (queuedOrRunning (run (step peerKeyFromSocketAddr)
        (.new workers queueDepth peerLimit) actions)) ≤ peerLimit) ↔
        ∀ peer other, ipOf peer = ipOf other →
          peerKeyFromSocketAddr peer = peerKeyFromSocketAddr other)) := by
  refine ⟨fun actions ip => jobsOf_le, fun hworkers hlimit hdepth => ⟨?_, ?_⟩⟩
  · intro hall peer other hip
    by_contra hkeys
    -- one more than the limit, the last of them under the other key
    have hfull := holds_submissions peerKeyFromSocketAddr hworkers hdepth peer peerLimit (le_refl _)
    have hafter := hfull.submit peerKeyFromSocketAddr other (by rw [length_replicate]; exact hdepth)
      (by rw [jobsWith_replicate, if_neg hkeys]; exact hlimit)
    have hlimited := hall ((replicate peerLimit (submit peer)).flatten ++ submit other) (ipOf peer)
    rw [run_append, jobsOf, hafter.queued.countP_eq, countP_cons, countP_replicate] at hlimited
    simp only [hip, decide_true, if_true] at hlimited
    omega
  · intro hsame actions ip
    have hone : OneKey peerKeyFromSocketAddr ip actions := fun peer other _ _ hpeer hother =>
      hsame peer other (hpeer.trans hother.symm)
    have hsublist : (queuedOrRunning (run (step peerKeyFromSocketAddr)
        (.new workers queueDepth peerLimit) actions)).Sublist (reserved (run
        (step peerKeyFromSocketAddr) (.new workers queueDepth peerLimit) actions)) :=
      ((sublist_append_right _ _).trans (sublist_append_right _ _)).trans (sublist_append_right _ _)
    exact hsublist.countP_le.trans (jobsOf_le hone)

/-- Socket addresses of one client that differ in the port. -/
def client (port : UInt16) : SocketAddr := .v4 #v[192, 0, 2, 1] port

/-- Nine connections of one client, accepted one after another. -/
def connections : List Action :=
  [1, 2, 3, 4, 5, 6, 7, 8, 9].flatMap fun port => submit (client port)

/-- With one key for the client, its ninth connection has no place. -/
theorem ip_limit_nine :
    let byAddress : SocketAddr → UInt64 := fun peer =>
      match ipOf peer with
      | .v4 octets => (octets.get 3).toUInt64
      | .v6 _ => 0
    let executor := run (step byAddress) tcpExecutor connections
    jobsOf (.v4 #v[192, 0, 2, 1]) (queuedOrRunning executor) = 8 ∧
      jobsOf (.v4 #v[192, 0, 2, 1]) (reserved executor) ≤ 8 := by
  refine ⟨by decide, (ip_limit _ 16 64 8).1 connections _ ?_⟩
  intro peer other _ _ hpeer hother
  dsimp only
  rw [hpeer, hother]

/-- With a key that tells ports apart, nine connections of one client are queued. -/
theorem nine_connections : jobsOf (.v4 #v[192, 0, 2, 1]) (queuedOrRunning
    (run (step fun
      | .v4 _ port => port.toUInt64
      | .v6 _ port _ _ => port.toUInt64) tcpExecutor connections)) = 9 := by
  decide

end RustdResolved.Daemon.Executor
