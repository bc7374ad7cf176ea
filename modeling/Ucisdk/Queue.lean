import Ucisdk.Common
import Ucisdk.Flow.Ring

/-!
# The job queue

The accept loop and the workers meet at a ring of jobs behind a mutex. An
operation that has to wait leaves the mutex and is tried again, so what it
does once it may go on is one step.
-/

set_option autoImplicit false

namespace Ucisdk.Queue

open Ucisdk.CString Ucisdk.Common
open Flow

abbrev maxQueueDepth : ℕ := 128

instance (priority := high) neZeroDepth : NeZero maxQueueDepth := ⟨by decide⟩

/-- A job's descriptor is the number of the connection it was accepted as;
the system may give the descriptor out again once it is closed. -/
structure Job where
  clientFd : ℕ
  request : Request

structure JobQueue extends Ring maxQueueDepth Job where
  stop : Bool

/-- `memset(&job, 0, sizeof(job))`. -/
def Job.zero : Job where
  clientFd := 0
  request :=
    { requestId := empty
      domain := .unknown
      action := .unknown
      algorithm := empty
      keyRef := empty
      payload := empty
      auxPayload := empty
      deviceHint := empty
      userPin := empty
      preference := .balanced
      sequence := empty }

def queueInit : JobQueue where
  items := fun _ => Job.zero
  head := 0
  tail := 0
  count := 0
  stop := false

/-- How `queue_push` stands: it waits, returns `-1` or returns `0`. -/
inductive Pushed where
  | waits
  | refused
  | queued (queue : JobQueue)

/-- How `queue_pop` stands: it waits, returns `-1` or returns `0` with a job. -/
inductive Popped where
  | waits
  | stopped
  | taken (job : Job) (queue : JobQueue)

def queuePush (queue : JobQueue) (job : Job) : Pushed :=
  if queue.stop = false ∧ queue.count ≥ maxQueueDepth then .waits
  else if queue.stop = true then .refused
  else .queued { queue.toRing.push job with stop := queue.stop }

def queuePop (queue : JobQueue) : Popped :=
  if queue.stop = false ∧ queue.count = 0 then .waits
  else if queue.stop = true ∧ queue.count = 0 then .stopped
  else .taken queue.toRing.pop.1 { queue.toRing.pop.2 with stop := queue.stop }

def queueStop (queue : JobQueue) : JobQueue := { queue with stop := true }

section Operations

variable {queue queue' : JobQueue} {job : Job}

theorem queuePush_stopped (h : queue.stop = true) (job : Job) : queuePush queue job = .refused := by
  simp [queuePush, h]

/-- A push that returns `0` found the queue running and with room, and put
its job behind the others. -/
theorem queuePush_queued (hv : queue.toRing.Valid) (h : queuePush queue job = .queued queue') :
    queue.stop = false ∧ queue'.stop = false ∧ queue'.toRing.Valid ∧
      queue'.contents = queue.contents ++ [job] := by
  rw [queuePush] at h
  split at h
  · simp at h
  · rename_i hroom
    split at h
    · simp at h
    · rename_i hstop
      rw [Bool.not_eq_true] at hstop
      rw [Pushed.queued.injEq] at h
      subst h
      have hlt : queue.count < maxQueueDepth := by
        rw [not_and] at hroom
        exact Nat.lt_of_not_le (hroom hstop)
      exact ⟨hstop, hstop, Ring.push_valid hv hlt job, Ring.push_contents hv hlt job⟩

theorem queuePop_stopped (h : queuePop queue = .stopped) : queue.stop = true ∧ queue.count = 0 := by
  rw [queuePop] at h
  split at h
  · simp at h
  · split at h
    · assumption
    · simp at h

/-- A pop that returns `0` took the oldest job. -/
theorem queuePop_taken (hv : queue.toRing.Valid) (h : queuePop queue = .taken job queue') :
    queue'.stop = queue.stop ∧ 0 < queue.count ∧ queue'.toRing.Valid ∧
      queue.contents = job :: queue'.contents := by
  rw [queuePop] at h
  split at h
  · simp at h
  · rename_i hwait
    split at h
    · simp at h
    · rename_i hstopped
      rw [Popped.taken.injEq] at h
      obtain ⟨rfl, rfl⟩ := h
      have hpos : 0 < queue.count := by
        apply Nat.pos_of_ne_zero
        intro hzero
        cases hs : queue.stop with
        | true => exact hstopped ⟨hs, hzero⟩
        | false => exact hwait ⟨hs, hzero⟩
      exact ⟨rfl, hpos, Ring.pop_valid hv hpos, Ring.pop_contents hpos⟩

/-- While a job is queued, a pop takes one, stopped or not. -/
theorem queuePop_some (h : queue.count ≠ 0) : ∃ job queue', queuePop queue = .taken job queue' := by
  rw [queuePop, if_neg (by simp [h]), if_neg (by simp [h])]
  exact ⟨_, _, rfl⟩

end Operations

end Ucisdk.Queue
