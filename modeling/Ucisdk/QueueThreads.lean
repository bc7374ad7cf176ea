import Mathlib.Data.Fintype.Basic
import Ucisdk.Flow.Conditions
import Ucisdk.Queue

/-!
# The threads at the job queue

The operations of the queue with their mutex and the two condition variables,
called by any number of threads. A push signals one sleeper of a pop and a pop
one sleeper of a push; stopping wakes all. A run of the threads is a run of
the operations as the queue has them, and no thread sleeps on that could go on.
-/

set_option autoImplicit false

namespace Ucisdk.QueueThreads

open Ucisdk.CString Ucisdk.Common Ucisdk.Queue
open Flow Flow.Conditions Relation

/-- The calls of a queue. -/
inductive QueueOp where
  | push (job : Job)
  | pop
  | stop

/-- The return value, and the job that a pop left in its argument. -/
structure Returned where
  rc : ℤ
  job : Option Job

inductive Condition where
  | notEmpty
  | notFull
  deriving DecidableEq, Repr

/-- The queue, and the jobs that went in and out in the order they did. -/
structure Shared where
  queue : JobQueue
  pushed : List Job
  popped : List Job

def sharedInit : Shared := ⟨queueInit, [], []⟩

def cond : QueueOp → Option Condition
  | .push _ => some .notFull
  | .pop => some .notEmpty
  | .stop => none

/-- The tests of the loops around `pthread_cond_wait`. -/
def waits (op : QueueOp) (shared : Shared) : Bool :=
  match op with
  | .push _ => !shared.queue.stop && shared.queue.count ≥ maxQueueDepth
  | .pop => !shared.queue.stop && shared.queue.count = 0
  | .stop => false

def perform (op : QueueOp) (shared : Shared) : Shared × Returned :=
  match op with
  | .push job =>
    if shared.queue.stop = true then (shared, ⟨-1, none⟩)
    else
      ({ shared with
          queue := { shared.queue.toRing.push job with stop := shared.queue.stop }
          pushed := shared.pushed ++ [job] }, ⟨0, none⟩)
  | .pop =>
    if shared.queue.stop = true ∧ shared.queue.count = 0 then (shared, ⟨-1, none⟩)
    else
      let popped := shared.queue.toRing.pop
      ({ shared with
          queue := { popped.2 with stop := shared.queue.stop }
          popped := shared.popped ++ [popped.1] }, ⟨0, some popped.1⟩)
  | .stop => ({ shared with queue := queueStop shared.queue }, ⟨0, none⟩)

/-- `pthread_cond_signal` and `pthread_cond_broadcast`. -/
def wakes (op : QueueOp) (shared : Shared) (c : Condition) : Wake :=
  match op, c with
  | .push _, .notEmpty => if shared.queue.stop = true then .nobody else .one
  | .push _, .notFull => .nobody
  | .pop, .notFull =>
    if shared.queue.stop = true ∧ shared.queue.count = 0 then .nobody else .one
  | .pop, .notEmpty => .nobody
  | .stop, _ => .everybody

def queueOps : Operations Shared QueueOp Returned Condition := ⟨cond, waits, perform, wakes⟩

/-- The ring is sound and holds what went in and not out. -/
structure Sound (shared : Shared) : Prop where
  valid : shared.queue.toRing.Valid
  fifo : shared.pushed = shared.popped ++ shared.queue.contents

/-- How many calls a variable's waiters could make now; a stopped queue lets
every call go on. -/
def room (c : Condition) (shared : Shared) : ℕ∞ :=
  if shared.queue.stop = true then ⊤
  else
    match c with
    | .notEmpty => (shared.queue.count : ℕ)
    | .notFull => (maxQueueDepth - shared.queue.count : ℕ)

section Operations

variable {shared : Shared} {op : QueueOp} {job : Job}

/-- The push as the queue has it: to wait, to be refused or to go in. -/
theorem queuePush_perform (shared : Shared) (job : Job) :
    queuePush shared.queue job =
      if waits (.push job) shared = true then .waits
      else if (perform (.push job) shared).2.rc = -1 then .refused
      else .queued (perform (.push job) shared).1.queue := by
  cases hstop : shared.queue.stop with
  | true => simp [queuePush, waits, perform, hstop]
  | false =>
    by_cases hfull : shared.queue.count ≥ maxQueueDepth
    · simp [queuePush, waits, hstop, hfull]
    · simp [queuePush, waits, perform, hstop, hfull]

/-- The pop as the queue has it: to wait, to end or to take a job. -/
theorem queuePop_perform (shared : Shared) :
    queuePop shared.queue =
      if waits .pop shared = true then .waits
      else
        match (perform .pop shared).2.job with
        | none => .stopped
        | some job => .taken job (perform .pop shared).1.queue := by
  cases hstop : shared.queue.stop with
  | true =>
    by_cases hempty : shared.queue.count = 0
    · simp [queuePop, waits, perform, hstop, hempty]
    · simp [queuePop, waits, perform, hstop, hempty]
  | false =>
    by_cases hempty : shared.queue.count = 0
    · simp [queuePop, waits, hstop, hempty]
    · simp [queuePop, waits, perform, hstop, hempty]

theorem room_running (hstop : shared.queue.stop = false) (c : Condition) :
    room c shared =
      match c with
      | .notEmpty => (shared.queue.count : ℕ)
      | .notFull => (maxQueueDepth - shared.queue.count : ℕ) := if_neg (by simp [hstop])

theorem room_stopped (hstop : shared.queue.stop = true) (c : Condition) :
    room c shared = ⊤ := if_pos hstop

theorem perform_sound (h : Sound shared) (hwaits : waits op shared = false) :
    Sound (perform op shared).1 := by
  cases op with
  | push job =>
    rw [perform]
    split
    · exact h
    · rename_i hstop
      have hlt : shared.queue.count < maxQueueDepth := by
        simpa [waits, hstop] using hwaits
      refine ⟨Ring.push_valid h.valid hlt job, ?_⟩
      show shared.pushed ++ [job] = shared.popped ++ (shared.queue.toRing.push job).contents
      rw [Ring.push_contents h.valid hlt, h.fifo, List.append_assoc]
  | pop =>
    rw [perform]
    split
    · exact h
    · rename_i hstop
      have hpos : 0 < shared.queue.count := by
        apply Nat.pos_of_ne_zero
        intro hzero
        simp [waits, hzero] at hwaits
        exact hstop ⟨hwaits, hzero⟩
      refine ⟨Ring.pop_valid h.valid hpos, ?_⟩
      show shared.pushed = shared.popped ++ [_] ++ shared.queue.toRing.pop.2.contents
      rw [h.fifo, Ring.pop_contents hpos, List.append_assoc]
      rfl
  | stop => exact ⟨h.valid, h.fifo⟩

/-- A push takes a place and signals the job it adds. -/
theorem room_push (hstop : shared.queue.stop = false) (hlt : shared.queue.count < maxQueueDepth)
    (c : Condition) :
    room c (perform (.push job) shared).1 + (if cond (.push job) = some c then 1 else 0) ≤
      room c shared + (if wakes (.push job) shared c = .one then 1 else 0) := by
  have hrun : (perform (.push job) shared).1.queue.stop = false := by
    simp [perform, hstop]
  have hcount : (perform (.push job) shared).1.queue.count = shared.queue.count + 1 := by
    simp [perform, hstop, Ring.push]
  rw [room_running hstop, room_running hrun, hcount]
  cases c with
  | notEmpty => simp [cond, wakes, hstop]
  | notFull =>
    have hsum : maxQueueDepth - (shared.queue.count + 1) + 1 ≤
        maxQueueDepth - shared.queue.count + 0 := by omega
    simp only [cond, wakes, reduceCtorEq, if_true, if_false]
    exact_mod_cast hsum

/-- A pop takes a job and signals the place it leaves. -/
theorem room_pop (hstop : shared.queue.stop = false) (hpos : 0 < shared.queue.count)
    (c : Condition) :
    room c (perform .pop shared).1 + (if cond .pop = some c then 1 else 0) ≤
      room c shared + (if wakes .pop shared c = .one then 1 else 0) := by
  have hrun : (perform .pop shared).1.queue.stop = false := by
    simp [perform, hstop]
  have hcount : (perform .pop shared).1.queue.count = shared.queue.count - 1 := by
    simp [perform, hstop, Ring.pop]
  rw [room_running hstop, room_running hrun, hcount]
  cases c with
  | notEmpty =>
    have hsum : shared.queue.count - 1 + 1 ≤ shared.queue.count + 0 := by omega
    simp only [cond, wakes, reduceCtorEq, if_true, if_false]
    exact_mod_cast hsum
  | notFull =>
    have hsum : maxQueueDepth - (shared.queue.count - 1) + 0 ≤
        maxQueueDepth - shared.queue.count + 1 := by omega
    have hone : wakes .pop shared .notFull = .one := by simp [wakes, hstop]
    rw [hone]
    simp only [cond, Option.some.injEq, reduceCtorEq, if_true, if_false]
    exact_mod_cast hsum

/-- The test of an operation says exactly that its variable has no room. -/
theorem waits_iff (hsound : Sound shared) {c : Condition} (hcond : cond op = some c) :
    waits op shared = true ↔ room c shared = 0 := by
  have hle := hsound.valid.count
  cases hstop : shared.queue.stop with
  | true =>
    rw [room_stopped hstop]
    cases op with
    | push job => simp [waits, hstop]
    | pop => simp [waits, hstop]
    | stop => simp [waits]
  | false =>
    rw [room_running hstop]
    cases op with
    | push job =>
      obtain rfl := Option.some.inj hcond
      have hfull : maxQueueDepth - shared.queue.count = 0 ↔ maxQueueDepth ≤ shared.queue.count := by
        omega
      simp only [waits, hstop, Bool.not_false, Bool.true_and, decide_eq_true_eq]
      exact_mod_cast hfull.symm
    | pop =>
      obtain rfl := Option.some.inj hcond
      simp [waits, hstop]
    | stop => simp [cond] at hcond

theorem queueOps_signalled : Signalled queueOps Sound room where
  kept _ _ hsound hwaits := perform_sound hsound hwaits
  waits _ _ _ hsound hcond := waits_iff hsound hcond
  signals op d c hsound hwaits hwakes := by
    have hwaits' : waits op d = false := hwaits
    cases hstop : d.queue.stop with
    | true =>
      rw [room_stopped hstop, top_add]
      exact le_top
    | false =>
      cases op with
      | push job => exact room_push hstop (by simpa [waits, hstop] using hwaits') c
      | pop =>
        exact room_pop hstop (Nat.pos_of_ne_zero (by simpa [waits, hstop] using hwaits')) c
      | stop => exact absurd rfl hwakes

end Operations

section Atomic

variable {κ : Type} [DecidableEq κ]

/-- The calls of the operations as the queue has them, each at once. -/
inductive QueueStep : Calls κ Shared QueueOp Returned → Calls κ Shared QueueOp Returned → Prop
  | call {s : Calls κ Shared QueueOp Returned} (k : κ) (op : QueueOp) (h : s.call k = .outside) :
      QueueStep s { s with call := Function.update s.call k (.pending op) }
  | queued {s : Calls κ Shared QueueOp Returned} (k : κ) (job : Job) (queue : JobQueue)
      (h : s.call k = .pending (.push job)) (hpush : queuePush s.data.queue job = .queued queue) :
      QueueStep s ⟨{ s.data with queue := queue, pushed := s.data.pushed ++ [job] },
        Function.update s.call k (.returned (.push job) ⟨0, none⟩)⟩
  | refused {s : Calls κ Shared QueueOp Returned} (k : κ) (job : Job)
      (h : s.call k = .pending (.push job)) (hpush : queuePush s.data.queue job = .refused) :
      QueueStep s ⟨s.data, Function.update s.call k (.returned (.push job) ⟨-1, none⟩)⟩
  | taken {s : Calls κ Shared QueueOp Returned} (k : κ) (job : Job) (queue : JobQueue)
      (h : s.call k = .pending .pop) (hpop : queuePop s.data.queue = .taken job queue) :
      QueueStep s ⟨{ s.data with queue := queue, popped := s.data.popped ++ [job] },
        Function.update s.call k (.returned .pop ⟨0, some job⟩)⟩
  | stopped {s : Calls κ Shared QueueOp Returned} (k : κ) (h : s.call k = .pending .pop)
      (hpop : queuePop s.data.queue = .stopped) :
      QueueStep s ⟨s.data, Function.update s.call k (.returned .pop ⟨-1, none⟩)⟩
  | stop {s : Calls κ Shared QueueOp Returned} (k : κ) (h : s.call k = .pending .stop) :
      QueueStep s ⟨{ s.data with queue := queueStop s.data.queue },
        Function.update s.call k (.returned .stop ⟨0, none⟩)⟩
  | resume {s : Calls κ Shared QueueOp Returned} (k : κ) (op : QueueOp) (reply : Returned)
      (h : s.call k = .returned op reply) :
      QueueStep s { s with call := Function.update s.call k .outside }

variable {s t : Calls κ Shared QueueOp Returned}

/-- An operation whose test lets it go on is one of those the queue has. -/
theorem performed_queueStep {k : κ} {op : QueueOp} (h : s.call k = .pending op)
    (hwaits : waits op s.data = false) :
    QueueStep s ⟨(perform op s.data).1,
      Function.update s.call k (.returned op (perform op s.data).2)⟩ := by
  cases op with
  | push job =>
    have hpush := queuePush_perform s.data job
    rw [if_neg (by simp [hwaits])] at hpush
    rw [perform] at hpush ⊢
    split
    · rename_i hstop
      rw [if_pos hstop, if_pos rfl] at hpush
      exact .refused k job h hpush
    · rename_i hstop
      rw [if_neg hstop, if_neg (by simp)] at hpush
      exact .queued k job _ h hpush
  | pop =>
    have hpop := queuePop_perform s.data
    rw [if_neg (by simp [hwaits])] at hpop
    rw [perform] at hpop ⊢
    split
    · rename_i hstop
      rw [if_pos hstop] at hpop
      exact .stopped k h hpop
    · rename_i hstop
      rw [if_neg hstop] at hpop
      exact .taken k _ _ h hpop
  | stop => exact .stop k h

theorem atomic_queueStep (h : AtomicStep queueOps s t) : QueueStep s t := by
  cases h with
  | call k op h => exact .call k op h
  | perform k op h hwaits => exact performed_queueStep h hwaits
  | resume k op reply h => exact .resume k op reply h

end Atomic

section Runs

variable {κ : Type} [DecidableEq κ] {s : Threads κ Shared QueueOp Returned}

abbrev QueueRun (s : Threads κ Shared QueueOp Returned) : Prop :=
  Conditions.Reachable queueOps sharedInit s

/-- The queue under threads: its calls are those of operations that are each
made at once, and the jobs come out as they went in. -/
structure Atomically (s : Threads κ Shared QueueOp Returned) : Prop where
  exclusive : ∀ k k' op op', s.place k = .inside op → s.place k' = .inside op' → k = k'
  calls : ReflTransGen QueueStep ⟨sharedInit, fun _ => .outside⟩ s.calls
  bounded : s.data.queue.count ≤ maxQueueDepth
  fifo : s.data.pushed = s.data.popped ++ s.data.queue.contents

theorem sharedInit_sound : Sound sharedInit :=
  ⟨⟨by decide, rfl, by decide⟩, rfl⟩

/-- A thread sleeps only where another that is awake can tell it to go on. -/
structure NobodyLeft (s : Threads κ Shared QueueOp Returned) : Prop where
  popping : ∀ k, s.place k = .asleep .pop → 0 < s.data.queue.count →
    ∃ k', Awake queueOps .notEmpty (s.place k')
  pushing : ∀ k job, s.place k = .asleep (.push job) → s.data.queue.count < maxQueueDepth →
    ∃ k', Awake queueOps .notFull (s.place k')
  stopped : s.data.queue.stop = true → ∀ k c, ¬Sleeps queueOps c (s.place k)
  moves : ∀ k c, Awake queueOps c (s.place k) → ∃ t, Step queueOps s t ∧ t.owner ≠ s.owner

variable [Fintype κ]

theorem queueRun_wakeful (h : QueueRun s) : Wakeful queueOps Sound room s :=
  reachable_wakeful queueOps_signalled sharedInit_sound h

/-- Two workers found the queue empty. -/
theorem two_asleep : ∃ s : Threads (Fin 3) Shared QueueOp Returned,
    QueueRun s ∧ s.data = sharedInit ∧ s.place 0 = .asleep .pop ∧
      s.place 1 = .asleep .pop ∧ s.place 2 = .inside (.push Job.zero) := by
  have hrun := ((((((((ReflTransGen.refl (r := Step queueOps)
    (a := begin (Fin 3) QueueOp Returned sharedInit)).tail
    (.call 0 .pop rfl)).tail (.lock 0 .pop (.inl rfl) rfl)).tail (.wait 0 .pop rfl rfl)).tail
    (.call 1 .pop rfl)).tail (.lock 1 .pop (.inl rfl) rfl)).tail (.wait 1 .pop rfl rfl)).tail
    (.call 2 (.push Job.zero) rfl)).tail (.lock 2 (.push Job.zero) (.inl rfl) rfl)
  exact ⟨_, hrun, rfl, rfl, rfl, rfl⟩

/-- A push wakes one of them; the other sleeps on beside the queued job. -/
theorem one_of_two_woken : ∃ s : Threads (Fin 3) Shared QueueOp Returned,
    QueueRun s ∧ s.place 1 = .asleep .pop ∧ s.data.queue.count = 1 := by
  obtain ⟨s, hrun, hdata, h0, h1, h2⟩ := two_asleep
  have hwoken : Woken queueOps (queueOps.wakes (.push Job.zero) s.data) s.place
      fun k => decide (k = 0) := by
    constructor
    · intro c hc _
      refine ⟨0, ?_, rfl⟩
      rw [h0]
      cases c with
      | notEmpty => rfl
      | notFull => cases hc
    · intro c hc
      rw [hdata] at hc
      cases c with
      | notEmpty => cases hc
      | notFull => cases hc
  have hwaits : queueOps.waits (.push Job.zero) s.data = false := by
    rw [hdata]
    rfl
  have hstep : Step queueOps s _ := .perform 2 (.push Job.zero) _ h2 hwaits hwoken
  refine ⟨_, hrun.tail hstep, ?_, ?_⟩
  · exact h1
  · rw [hdata]
    rfl

theorem queueRun_atomically (h : QueueRun s) : Atomically s := by
  have hsound := (queueRun_wakeful h).good
  have hexclusive := reachable_exclusive h
  constructor
  · intro k k' op op' hk hk'
    have howner := (hexclusive k).mp ⟨op, hk⟩
    rw [(hexclusive k').mp ⟨op', hk'⟩] at howner
    exact (Option.some.inj howner).symm
  · exact (run_calls h).lift id fun _ _ => atomic_queueStep
  · exact hsound.valid.count
  · exact hsound.fifo

theorem one_of_two_atomically : ∃ s : Threads (Fin 3) Shared QueueOp Returned,
    s.place 1 = .asleep .pop ∧ s.data.queue.count = 1 ∧ Atomically s := by
  obtain ⟨s, hrun, hsleep, hcount⟩ := one_of_two_woken
  exact ⟨s, hsleep, hcount, queueRun_atomically hrun⟩

theorem queueRun_nobodyLeft (h : QueueRun s) : NobodyLeft s := by
  have hwakeful := queueRun_wakeful h
  have hgoes {k : κ} {op : QueueOp} (hk : s.place k = .asleep op) {c : Condition}
      (hcond : cond op = some c) (hwaits : waits op s.data = false) :
      ∃ k', Awake queueOps c (s.place k') :=
    wakeful_sleeper queueOps_signalled hwakeful hk hcond hwaits
  constructor
  · intro k hk hpos
    exact hgoes hk rfl (by simp [waits, Nat.pos_iff_ne_zero.mp hpos])
  · intro k job hk hlt
    exact hgoes hk rfl (by simp [waits, hlt])
  · intro hstop k c
    rcases hwakeful.answered c with hnone | hroom
    · exact hnone k
    · rw [room_stopped hstop, top_le_iff] at hroom
      exact absurd hroom (ENat.natCast_ne_top _)
  · intro k c hk
    exact awake_moves (reachable_exclusive h) hk

/-- A worker sleeps beside a queued job, and another one is awake for it. -/
theorem one_of_two_answered : ∃ s : Threads (Fin 3) Shared QueueOp Returned,
    s.place 1 = .asleep .pop ∧ s.data.queue.count = 1 ∧ NobodyLeft s := by
  obtain ⟨s, hrun, hsleep, hcount⟩ := one_of_two_woken
  exact ⟨s, hsleep, hcount, queueRun_nobodyLeft hrun⟩

end Runs

end Ucisdk.QueueThreads
