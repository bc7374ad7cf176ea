import Mathlib.Data.Fintype.Basic
import Mathlib.Data.List.Infix
import Ucisdk.Flow.Leases
import Ucisdk.Protocol
import Ucisdk.Queue

/-!
# The accept loop and the workers

One thread accepts connections, reads a request from each and queues a job,
or answers the connection itself. Any number of workers take jobs and answer
them. The threads take turns in any order; a queue operation is one step.
-/

set_option autoImplicit false

namespace Ucisdk.Server

open Ucisdk.CString Ucisdk.Common Ucisdk.Protocol Ucisdk.Queue
open Flow Flow.Leases Relation

inductive LoopPhase where
  | accepting
  | reading (fd : ℕ)
  | pushing (job : Job)
  | left

/-- The connection that the loop has accepted and not passed on yet. -/
def LoopPhase.fd : LoopPhase → Option ℕ
  | .accepting => none
  | .reading fd => some fd
  | .pushing job => some job.clientFd
  | .left => none

inductive WorkerPhase where
  | popping
  | serving (job : Job)
  | returned

def WorkerPhase.fd : WorkerPhase → Option ℕ
  | .popping => none
  | .serving job => some job.clientFd
  | .returned => none

/-- A call of `write_response_and_close`; the accept loop is no worker. -/
structure Handed (κ : Type) where
  worker : Option κ
  fd : ℕ
  resp : Response

structure State (κ : Type) where
  queue : JobQueue
  loop : LoopPhase
  worker : κ → WorkerPhase
  accepted : ℕ
  pushed : List Job
  popped : List Job
  handed : List (Handed κ)

def start (κ : Type) : State κ where
  queue := queueInit
  loop := .accepting
  worker := fun _ => .popping
  accepted := 0
  pushed := []
  popped := []
  handed := []

/-- A response of the accept loop. -/
def loopResponse (requestId : Bytes) (status : StatusCode) (text : Bytes) : Response :=
  { Response.zero with
    requestId := store maxIdLen requestId
    status := status
    result := store maxResponseLen text }

section Steps

variable {κ : Type} [DecidableEq κ]

/-- A step of one of the threads. A worker may leave any response. The loop
stops the queue once it was left; `early` lets it be stopped at any time. -/
inductive Step (early : Prop) : State κ → State κ → Prop
  | accept {s : State κ} (h : s.loop = .accepting) :
      Step early s { s with loop := .reading s.accepted, accepted := s.accepted + 1 }
  | unread {s : State κ} (fd : ℕ) (h : s.loop = .reading fd) :
      Step early s { s with
        loop := .accepting
        handed := s.handed ++
          [⟨none, fd, loopResponse (lit "unknown") .badRequest (lit "empty request")⟩] }
  | unparsed {s : State κ} (fd : ℕ) (line : Bytes) (errbuf : ErrText) (h : s.loop = .reading fd)
      (hline : parseRequestJson line = .error errbuf) :
      Step early s { s with
        loop := .accepting
        handed := s.handed ++
          [⟨none, fd, loopResponse (lit "unknown") .badRequest errbuf.bytes⟩] }
  | parsed {s : State κ} (fd : ℕ) (line : Bytes) (request : Request) (h : s.loop = .reading fd)
      (hline : parseRequestJson line = .ok request) :
      Step early s { s with loop := .pushing ⟨fd, request⟩ }
  | push {s : State κ} (job : Job) (queue : JobQueue) (h : s.loop = .pushing job)
      (hpush : queuePush s.queue job = .queued queue) :
      Step early s { s with
        queue := queue
        loop := .accepting
        pushed := s.pushed ++ [job] }
  | refused {s : State κ} (job : Job) (h : s.loop = .pushing job)
      (hpush : queuePush s.queue job = .refused) :
      Step early s { s with
        loop := .accepting
        handed := s.handed ++ [⟨none, job.clientFd,
          loopResponse job.request.requestId.bytes .backendFail (lit "queue stopped")⟩] }
  | leave {s : State κ} (h : s.loop = .accepting) : Step early s { s with loop := .left }
  | stop {s : State κ} (h : early ∨ s.loop = .left) :
      Step early s { s with queue := queueStop s.queue }
  | pop {s : State κ} (k : κ) (job : Job) (queue : JobQueue) (h : s.worker k = .popping)
      (hpop : queuePop s.queue = .taken job queue) :
      Step early s { s with
        queue := queue
        worker := Function.update s.worker k (.serving job)
        popped := s.popped ++ [job] }
  | drained {s : State κ} (k : κ) (h : s.worker k = .popping)
      (hpop : queuePop s.queue = .stopped) :
      Step early s { s with worker := Function.update s.worker k .returned }
  | serve {s : State κ} (k : κ) (job : Job) (resp : Response) (h : s.worker k = .serving job) :
      Step early s { s with
        worker := Function.update s.worker k .popping
        handed := s.handed ++ [⟨some k, job.clientFd, resp⟩] }

def Reachable (early : Prop) (s : State κ) : Prop := ReflTransGen (Step early) (start κ) s

end Steps

section Invariant

variable {κ : Type}

/-- The connection that a worker has taken and not answered yet. -/
def working (worker : κ → WorkerPhase) (k : κ) : Option ℕ := (worker k).fd

/-- How often a connection is in the loop's hand. -/
def inLoop (loop : LoopPhase) (fd : ℕ) : ℕ := if loop.fd = some fd then 1 else 0

def inQueue (jobs : List Job) (fd : ℕ) : ℕ := (jobs.map Job.clientFd).count fd

def inHanded (handed : List (Handed κ)) (fd : ℕ) : ℕ := (handed.map Handed.fd).count fd

theorem inLoop_none {loop : LoopPhase} (h : loop.fd = none) (fd : ℕ) : inLoop loop fd = 0 := by
  simp [inLoop, h]

theorem inLoop_some {loop : LoopPhase} {fd' : ℕ} (h : loop.fd = some fd') (fd : ℕ) :
    inLoop loop fd = if fd = fd' then 1 else 0 := by
  simp [inLoop, h, eq_comm]

/-- One more connection in a list counts where it is the connection itself. -/
theorem count_one (fd fd' : ℕ) : [fd'].count fd = if fd = fd' then 1 else 0 := by
  by_cases h : fd = fd'
  · rw [if_pos h, h, List.count_singleton_self]
  · rw [if_neg h]
    exact List.count_eq_zero.mpr (by simpa using h)

theorem inQueue_append (jobs : List Job) (job : Job) (fd : ℕ) :
    inQueue (jobs ++ [job]) fd = inQueue jobs fd + if fd = job.clientFd then 1 else 0 := by
  rw [inQueue, List.map_append, List.count_append, List.map_singleton, count_one, inQueue]

theorem inQueue_cons (jobs : List Job) (job : Job) (fd : ℕ) :
    inQueue (job :: jobs) fd = inQueue jobs fd + if fd = job.clientFd then 1 else 0 := by
  have hsplit : job.clientFd :: jobs.map Job.clientFd =
      [job.clientFd] ++ jobs.map Job.clientFd := rfl
  rw [inQueue, List.map_cons, hsplit, List.count_append, count_one, Nat.add_comm, inQueue]

theorem inHanded_append (handed : List (Handed κ)) (worker : Option κ) (fd' : ℕ)
    (resp : Response) (fd : ℕ) :
    inHanded (handed ++ [⟨worker, fd', resp⟩]) fd =
      inHanded handed fd + if fd = fd' then 1 else 0 := by
  rw [inHanded, List.map_append, List.count_append, List.map_singleton, count_one, inHanded]

theorem queueInit_valid : queueInit.toRing.Valid := by
  constructor
  · show 0 < 128
    omega
  · rfl
  · show 0 ≤ 128
    omega

section Stop

variable [DecidableEq κ] {early : Prop} {s t : State κ}

theorem stop_step (h : s.queue.stop = true) (hstep : Step early s t) : t.queue.stop = true := by
  cases hstep with
  | push job queue hpush h' =>
    rw [queuePush_stopped h] at h'
    simp at h'
  | stop h' => rfl
  | pop k job queue hk hpop =>
    rw [queuePop] at hpop
    split_ifs at hpop
    rw [Popped.taken.injEq] at hpop
    rw [← hpop.2]
    exact h
  | _ => exact h

theorem stop_run (h : s.queue.stop = true) (hrun : ReflTransGen (Step early) s t) :
    t.queue.stop = true := by
  induction hrun with
  | refl => exact h
  | tail _ hstep ih => exact stop_step ih hstep

end Stop

section Working

variable [DecidableEq κ]

theorem working_update (worker : κ → WorkerPhase) (k : κ) (phase : WorkerPhase) :
    working (Function.update worker k phase) = Function.update (working worker) k phase.fd := by
  ext1 k'
  rw [working]
  by_cases hk : k' = k
  · rw [hk, Function.update_self, Function.update_self]
  · rw [Function.update_of_ne hk, Function.update_of_ne hk, working]

variable [Fintype κ] {worker : κ → WorkerPhase} {k : κ}

/-- A worker that was serving nothing takes a job. -/
theorem holders_serve {job : Job} (h : worker k = .popping) (fd : ℕ) :
    holders (working (Function.update worker k (.serving job))) fd =
      holders (working worker) fd + if fd = job.clientFd then 1 else 0 := by
  have hidle : working worker k = none := by
    rw [working, h]
    rfl
  rw [working_update]
  exact holders_take hidle job.clientFd fd

/-- A worker lets its job go. -/
theorem holders_served {job : Job} (h : worker k = .serving job) (fd : ℕ) :
    holders (working worker) fd =
      holders (working (Function.update worker k .popping)) fd +
        if fd = job.clientFd then 1 else 0 := by
  have hbusy : working worker k = some job.clientFd := by
    rw [working, h]
    rfl
  rw [working_update]
  exact holders_give hbusy fd

theorem holders_return (h : worker k = .popping) (fd : ℕ) :
    holders (working (Function.update worker k .returned)) fd = holders (working worker) fd := by
  have hidle : WorkerPhase.returned.fd = working worker k := by
    rw [working, h]
    rfl
  rw [working_update, hidle, Function.update_eq_self]

end Working

variable [Fintype κ]

/-- The places where a connection is: handed over, queued, with a worker, or in
the loop's hand. -/
def places (s : State κ) (fd : ℕ) : ℕ :=
  inHanded s.handed fd + inQueue s.queue.contents fd + holders (working s.worker) fd +
    inLoop s.loop fd

/-- Every accepted connection is in one place, and the pushed jobs are the
popped ones and those in the ring. -/
structure Inv (early : Prop) (s : State κ) : Prop where
  valid : s.queue.toRing.Valid
  fifo : s.pushed = s.popped ++ s.queue.contents
  drained : ∀ k, s.worker k = .returned → s.queue.stop = true ∧ s.queue.count = 0
  placed : ∀ fd, places s fd = if fd < s.accepted then 1 else 0
  late : ¬early → s.queue.stop = true → s.loop = .left

variable {early : Prop} {s t : State κ}

theorem popped_all (hinv : Inv early s) (h : s.queue.count = 0) : s.popped = s.pushed := by
  rw [hinv.fifo, Ring.contents_empty h, List.append_nil]

/-- Once every worker has returned, a connection that the loop let go of was
handed over in one call. -/
theorem handed_once [Nonempty κ] (hinv : Inv early s) (h : ∀ k, s.worker k = .returned) {fd : ℕ}
    (hfd : fd < s.accepted) (hloop : s.loop.fd ≠ some fd) :
    ∃ call, s.handed.filter (fun call => call.fd = fd) = [call] := by
  have hqueue : inQueue s.queue.contents fd = 0 := by
    have hzero := (hinv.drained (Classical.arbitrary κ) (h _)).2
    rw [Ring.contents_empty hzero]
    rfl
  have hworkers : holders (working s.worker) fd = 0 := by
    apply holders_idle
    intro k
    rw [working, h k]
    rfl
  have hplaced := hinv.placed fd
  rw [places, hqueue, hworkers, if_pos hfd] at hplaced
  have hfree : inLoop s.loop fd = 0 := by simp [inLoop, hloop]
  have hcount : inHanded s.handed fd = 1 := by omega
  apply List.length_eq_one_iff.mp
  rw [← hcount, inHanded, List.count, List.countP_map, List.countP_eq_length_filter]
  congr 1

theorem inv_start : Inv early (start κ) := by
  have hempty : (start κ).queue.contents = [] := rfl
  constructor
  · exact queueInit_valid
  · rw [hempty]
    rfl
  · intro k hk
    simp [start] at hk
  · intro fd
    have hidle : holders (working (start κ).worker) fd = 0 := holders_idle _ (fun _ => rfl) fd
    rw [places, hempty, hidle]
    rfl
  · intro _ hstop
    simp [start, queueInit] at hstop

variable [DecidableEq κ]

/-- A step moves at most one connection, from one place to another. -/
theorem places_step (hinv : Inv early s) (hstep : Step early s t) (fd : ℕ) :
    places t fd = if fd < t.accepted then 1 else 0 := by
  have hplaced := hinv.placed fd
  rw [places] at hplaced
  cases hstep with
  | accept h =>
    rw [inLoop_none (by rw [h]; rfl)] at hplaced
    show inHanded s.handed fd + inQueue s.queue.contents fd + holders (working s.worker) fd +
      inLoop (.reading s.accepted) fd = if fd < s.accepted + 1 then 1 else 0
    rw [inLoop_some rfl]
    split_ifs at hplaced ⊢ <;> omega
  | unread fd' h =>
    rw [inLoop_some (by rw [h]; rfl)] at hplaced
    show inHanded (s.handed ++ [_]) fd + inQueue s.queue.contents fd +
      holders (working s.worker) fd + inLoop .accepting fd = _
    rw [inLoop_none rfl, inHanded_append, ← hplaced]
    omega
  | unparsed fd' line errbuf h hline =>
    rw [inLoop_some (by rw [h]; rfl)] at hplaced
    show inHanded (s.handed ++ [_]) fd + inQueue s.queue.contents fd +
      holders (working s.worker) fd + inLoop .accepting fd = _
    rw [inLoop_none rfl, inHanded_append, ← hplaced]
    omega
  | parsed fd' line request h hline =>
    rw [inLoop_some (by rw [h]; rfl)] at hplaced
    show inHanded s.handed fd + inQueue s.queue.contents fd + holders (working s.worker) fd +
      inLoop (.pushing ⟨fd', request⟩) fd = _
    rw [inLoop_some rfl, ← hplaced]
  | push job queue h hpush =>
    have hcontents := (queuePush_queued hinv.valid hpush).2.2.2
    rw [inLoop_some (by rw [h]; rfl)] at hplaced
    show inHanded s.handed fd + inQueue queue.contents fd + holders (working s.worker) fd +
      inLoop .accepting fd = _
    rw [inLoop_none rfl, hcontents, inQueue_append, ← hplaced]
    omega
  | refused job h hpush =>
    rw [inLoop_some (by rw [h]; rfl)] at hplaced
    show inHanded (s.handed ++ [_]) fd + inQueue s.queue.contents fd +
      holders (working s.worker) fd + inLoop .accepting fd = _
    rw [inLoop_none rfl, inHanded_append, ← hplaced]
    omega
  | leave h =>
    rw [inLoop_none (by rw [h]; rfl)] at hplaced
    show inHanded s.handed fd + inQueue s.queue.contents fd + holders (working s.worker) fd +
      inLoop .left fd = _
    rw [inLoop_none rfl, ← hplaced]
  | stop h => exact hplaced
  | pop k job queue h hpop =>
    have hcontents := (queuePop_taken hinv.valid hpop).2.2.2
    rw [hcontents, inQueue_cons] at hplaced
    show inHanded s.handed fd + inQueue queue.contents fd +
      holders (working (Function.update s.worker k (.serving job))) fd + inLoop s.loop fd = _
    rw [holders_serve h, ← hplaced]
    omega
  | drained k h hpop =>
    show inHanded s.handed fd + inQueue s.queue.contents fd +
      holders (working (Function.update s.worker k .returned)) fd + inLoop s.loop fd = _
    rw [holders_return h, ← hplaced]
  | serve k job resp h =>
    rw [holders_served h] at hplaced
    show inHanded (s.handed ++ [_]) fd + inQueue s.queue.contents fd +
      holders (working (Function.update s.worker k .popping)) fd + inLoop s.loop fd = _
    rw [inHanded_append, ← hplaced]
    omega

/-- The pushed jobs are the popped ones and those still in the ring. -/
theorem fifo_step (hinv : Inv early s) (hstep : Step early s t) :
    t.queue.toRing.Valid ∧ t.pushed = t.popped ++ t.queue.contents := by
  cases hstep with
  | push job queue h hpush =>
    obtain ⟨_, _, hvalid, hcontents⟩ := queuePush_queued hinv.valid hpush
    constructor
    · exact hvalid
    · show s.pushed ++ [job] = s.popped ++ queue.contents
      rw [hcontents, hinv.fifo, List.append_assoc]
  | pop k job queue h hpop =>
    obtain ⟨_, _, hvalid, hcontents⟩ := queuePop_taken hinv.valid hpop
    constructor
    · exact hvalid
    · show s.pushed = s.popped ++ [job] ++ queue.contents
      rw [hinv.fifo, hcontents, List.append_assoc]
      rfl
  | _ => exact ⟨hinv.valid, hinv.fifo⟩

/-- A worker returns from an empty queue that was stopped, and nothing is
pushed after that. -/
theorem drained_step (hinv : Inv early s) (hstep : Step early s t) (k : κ)
    (hk : t.worker k = .returned) : t.queue.stop = true ∧ t.queue.count = 0 := by
  cases hstep with
  | push job queue h hpush =>
    have hstop := (queuePush_queued hinv.valid hpush).1
    rw [(hinv.drained k hk).1] at hstop
    exact absurd hstop (by simp)
  | stop h => exact ⟨rfl, (hinv.drained k hk).2⟩
  | pop k' job queue h hpop =>
    have hpos := (queuePop_taken hinv.valid hpop).2.1
    by_cases hkk : k = k'
    · simp [hkk] at hk
    · have hsame : s.worker k = .returned := by simpa [hkk] using hk
      have hzero := (hinv.drained k hsame).2
      omega
  | drained k' h hpop => exact queuePop_stopped hpop
  | serve k' job resp h =>
    by_cases hkk : k = k'
    · simp [hkk] at hk
    · exact hinv.drained k (by simpa [hkk] using hk)
  | _ => exact hinv.drained k hk

/-- A queue that is stopped only behind the loop is not stopped before. -/
theorem late_step (hinv : Inv early s) (hstep : Step early s t) (hearly : ¬early)
    (hstop : t.queue.stop = true) : t.loop = .left := by
  have hleft : s.queue.stop = true → s.loop = .left := hinv.late hearly
  cases hstep with
  | accept h => simp [hleft hstop] at h
  | unread fd h => simp [hleft hstop] at h
  | unparsed fd line errbuf h hline => simp [hleft hstop] at h
  | parsed fd line request h hline => simp [hleft hstop] at h
  | push job queue h hpush =>
    have hrunning := (queuePush_queued hinv.valid hpush).2.1
    rw [hrunning] at hstop
    simp at hstop
  | refused job h hpush => simp [hleft hstop] at h
  | leave h => rfl
  | stop h => exact h.resolve_left hearly
  | pop k job queue h hpop =>
    apply hleft
    rw [← (queuePop_taken hinv.valid hpop).1]
    exact hstop
  | drained k h hpop => exact hleft hstop
  | serve k job resp h => exact hleft hstop

theorem inv_step (hinv : Inv early s) (hstep : Step early s t) : Inv early t where
  valid := (fifo_step hinv hstep).1
  fifo := (fifo_step hinv hstep).2
  drained := drained_step hinv hstep
  placed := places_step hinv hstep
  late := late_step hinv hstep

theorem reachable_inv (h : Reachable early s) : Inv early s := by
  refine run_invariant ?_ inv_start h
  intro s t
  exact inv_step

/-- What the queue has and has not passed on, in a state of the threads. -/
structure Delivered (early : Prop) (s : State κ) : Prop where
  tail : s.queue.tail = (s.queue.head + s.queue.count) % maxQueueDepth
  bounded : s.queue.count ≤ maxQueueDepth
  ordered : s.popped <+: s.pushed
  closed : s.queue.stop = true → ∀ t, ReflTransGen (Step early) s t →
    ∀ job, queuePush t.queue job = .refused
  delivers : s.popped ≠ s.pushed →
    ∃ job queue, queuePop s.queue = .taken job queue ∧ s.popped ++ [job] <+: s.pushed
  emptied : queuePop s.queue = .stopped → s.popped = s.pushed
  answered : (∀ k, s.worker k = .returned) → ∀ fd < s.accepted, s.loop.fd ≠ some fd →
    ∃ call, s.handed.filter (fun call => call.fd = fd) = [call]
  answeredAll : ¬early → (∀ k, s.worker k = .returned) → ∀ fd < s.accepted,
    ∃ call, s.handed.filter (fun call => call.fd = fd) = [call]

/-- The queue passes every job on once and in order, and at the end every
accepted connection was handed over once. -/
theorem reachable_delivered [Nonempty κ] (h : Reachable early s) : Delivered early s := by
  have hinv := reachable_inv h
  have hprefix : s.popped <+: s.pushed := ⟨s.queue.contents, hinv.fifo.symm⟩
  constructor
  · exact hinv.valid.tail
  · exact hinv.valid.count
  · exact hprefix
  · intro hstop t hrun job
    exact queuePush_stopped (stop_run hstop hrun) job
  · intro hne
    have hcount : s.queue.count ≠ 0 := fun hzero => hne (popped_all hinv hzero)
    obtain ⟨job, queue, hpop⟩ := queuePop_some hcount
    have hcontents := (queuePop_taken hinv.valid hpop).2.2.2
    refine ⟨job, queue, hpop, queue.contents, ?_⟩
    rw [hinv.fifo, hcontents, List.append_assoc]
    rfl
  · intro hpop
    exact popped_all hinv (queuePop_stopped hpop).2
  · intro hall fd hfd hloop
    exact handed_once hinv hall hfd hloop
  · intro hearly hall fd hfd
    apply handed_once hinv hall hfd
    have hstop := (hinv.drained (Classical.arbitrary κ) (hall _)).1
    rw [hinv.late hearly hstop]
    simp [LoopPhase.fd]

def sampleLine : Bytes :=
  lit "\x7b\"request_id\":\"r1\",\"domain\":\"hash\",\"action\":\"hash\",\"algorithm\":\"sm3\"\x7d"

/-- Of two connections one is queued and one cannot be read. -/
theorem sample_run : ∃ s : State Unit,
    Reachable False s ∧ s.accepted = 2 ∧ s.popped ≠ [] ∧ ∀ k, s.worker k = .returned := by
  obtain ⟨request, hline⟩ : ∃ request, parseRequestJson sampleLine = .ok request := by
    have hok : (parseRequestJson sampleLine).isOk = true := by decide
    cases hparse : parseRequestJson sampleLine with
    | ok request => exact ⟨request, rfl⟩
    | error errbuf => simp [hparse, Except.isOk, Except.toBool] at hok
  have hrun := (((((((((((ReflTransGen.refl (r := Step False) (a := start Unit)).tail
    (.accept rfl)).tail (.unread 0 rfl)).tail (.accept rfl)).tail
    (.parsed 1 sampleLine request rfl hline)).tail (.push ⟨1, request⟩ _ rfl rfl)).tail
    (.leave rfl)).tail (.stop (.inr rfl))).tail (.pop () _ _ rfl rfl)).tail
    (.serve () _ Response.zero rfl)).tail (.drained () rfl rfl))
  exact ⟨_, hrun, rfl, by simp, fun _ => rfl⟩

theorem sample_run_delivered : ∃ s : State Unit,
    Reachable False s ∧ s.accepted = 2 ∧ (∀ k, s.worker k = .returned) ∧ Delivered False s := by
  obtain ⟨s, hrun, haccepted, _, hall⟩ := sample_run
  exact ⟨s, hrun, haccepted, hall, reachable_delivered hrun⟩

end Invariant

end Ucisdk.Server
