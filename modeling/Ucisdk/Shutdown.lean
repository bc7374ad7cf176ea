import Ucisdk.Flow.Draining
import Ucisdk.GatewayAnswers

/-!
# The shutdown

Once the accept loop is left and the queue is stopped, the workers have a
finite amount of work: the steps of the calls that they are in and of the jobs
in the queue. Every step takes from it, so the gateway comes to its end however
the workers take turns, and it has answered every connection by then.
-/

set_option autoImplicit false

namespace Ucisdk.Shutdown

open Ucisdk.CString Ucisdk.Common Ucisdk.Protocol Ucisdk.Queue Ucisdk.Resource Ucisdk.Translator
open Ucisdk.Driver Ucisdk.Scheduler Ucisdk.StepCalls Ucisdk.SequenceRun
open Ucisdk.Server hiding State Step Reachable
open Ucisdk.Connection Ucisdk.Tasks Ucisdk.Gateway Ucisdk.GatewayAnswers
open Ucisdk.SkfApi Ucisdk.SkfText Ucisdk.SkfSession Ucisdk.Gm3000
open Flow Flow.Draining Relation

section Work

/-- The steps of the sequence behind the one that runs. -/
def left : After → ℕ
  | .plain => 0
  | .sequence steps _ => steps.length

/-- How many steps a task has left to go. -/
def taskWork : Task → ℕ
  | .stepping _ after => 3 * left after + 3
  | .holding _ after _ => 3 * left after + 2
  | .leaving _ after _ _ => 3 * left after + 1
  | .done _ _ => 0

/-- A job is popped, carried through the scheduler and handed over. -/
def jobWork (settings : Option GatewaySettings) (job : Job) : ℕ :=
  taskWork (taskOf settings job.request) + 2

def workerWork : WorkerPhase → Option Task → ℕ
  | .popping, _ => 1
  | .serving _, task => task.elim 0 taskWork + 2
  | .returned, _ => 0

def queueWork (settings : Option GatewaySettings) (jobs : List Job) : ℕ :=
  (jobs.map (jobWork settings)).sum

def work {κ : Type} [Fintype κ] (settings : Option GatewaySettings) (s : State κ) : ℕ :=
  (∑ k, workerWork (s.server.worker k) (s.task k)) + queueWork settings s.server.queue.contents

theorem next_work (req : Request) (after : After) (outcome : Outcome) :
    taskWork (next req after outcome) < 3 * left after + 1 := by
  cases after with
  | plain => cases outcome <;> simp [next, taskWork]
  | sequence steps resp =>
    cases outcome with
    | error errbuf => simp [next, taskWork]
    | ok stepResp =>
      cases steps with
      | nil => simp [next, taskWork]
      | cons step steps =>
        simp only [next, taskWork, left, List.length_cons]
        omega

variable {σ : Type} {skf : SkfAdapter σ} {settings : Option GatewaySettings}
  {registry : Registry} {req : Request}

/-- A task that is not finished goes on, where its slot is one of the registry. -/
theorem advance_work {task : Task} {now : Registry} (hgoes : ¬Finished task)
    (hslot : ∀ slot, task.slot = some slot → slot < now.devices.length) (world : σ) :
    taskWork (advance skf now world task).task < taskWork task := by
  cases task with
  | stepping call after =>
    rw [advance]
    cases ha : call.acquire now with
    | none => exact (next_work call.req after _).trans (by simp [taskWork])
    | some acquired =>
      simp only [taskWork]
      omega
  | holding call after slot =>
    have hlt := hslot slot rfl
    rw [advance, List.getElem?_eq_getElem hlt]
    cases ht : call.translate now.devices[slot] with
    | error errbuf =>
      simp only [ht, taskWork]
      omega
    | ok translated =>
      simp only [ht, taskWork]
      omega
  | leaving call after slot outcome =>
    rw [advance, List.getElem?_eq_getElem (hslot slot rfl)]
    exact next_work call.req after outcome
  | done rc resp => exact absurd ⟨rc, resp, rfl⟩ hgoes

theorem acquired_slot {call : StepCall} {now : Registry} {acquired : Acquired}
    (h : call.acquire now = some acquired) : acquired.slot < now.devices.length := by
  have hdevice := slot_acquired h
  have hlength := congrArg List.length (acquired_idle h)
  rw [List.length_map, List.length_map] at hlength
  rw [← hlength]
  exact (List.getElem?_eq_some_iff.mp hdevice).1

theorem advance_slot {task : Task} {now : Registry}
    (h : ∀ slot, task.slot = some slot → slot < now.devices.length) (world : σ) :
    ∀ slot, (advance skf now world task).task.slot = some slot → slot < now.devices.length := by
  cases task with
  | stepping call after =>
    rw [advance]
    cases ha : call.acquire now with
    | none => simp [next_slot]
    | some acquired =>
      rintro slot ⟨⟩
      exact acquired_slot ha
  | holding call after slot =>
    rw [advance]
    cases hd : now.devices[slot]? with
    | none => exact h
    | some device =>
      cases ht : call.translate device with
      | error errbuf =>
        simp only [ht]
        exact h
      | ok translated =>
        simp only [ht]
        exact h
  | leaving call after slot outcome =>
    rw [advance]
    cases hd : now.devices[slot]? with
    | none => exact h
    | some device => simp [next_slot]
  | done rc resp => exact h

theorem same_length {now : Registry}
    (hsame : now.devices.map idle = registry.devices.map idle) :
    now.devices.length = registry.devices.length := by
  simpa using congrArg List.length hsame

theorem worked_slot {task : Task} (h : Worked skf settings registry req task) :
    ∀ slot, task.slot = some slot → slot < registry.devices.length := by
  induction h with
  | start =>
    intro slot hslot
    rw [taskOf_slot] at hslot
    cases hslot
  | advance _ now world hsame ih =>
    have hlength := same_length hsame
    rw [← hlength] at ih ⊢
    exact advance_slot ih world

end Work

section Stopping

variable {κ σ : Type} [Fintype κ] [DecidableEq κ] {skf : SkfAdapter σ}
  {settings : Option GatewaySettings} {sent : ℕ → List ReadResult} {early : Prop}
  {registry : Registry} {s t : State κ}

/-- The accept loop has ended and the queue is stopped. -/
structure Stopping (skf : SkfAdapter σ) (settings : Option GatewaySettings)
    (sent : ℕ → List ReadResult) (early : Prop) (registry : Registry) (s : State κ) : Prop where
  reached : Reachable skf settings sent early registry s
  left : s.server.loop = .left
  stopped : s.server.queue.stop = true

def Returned (s : State κ) : Prop := ∀ k, s.server.worker k = .returned

omit [Fintype κ] in
/-- The loop, once it was left, changes nothing. -/
theorem loop_rests {before after : Server.State κ} (hleft : before.loop = .left)
    (hstopped : before.queue.stop = true) (hstep : Hears sent early before after)
    (hworker : after.worker = before.worker) : after = before := by
  have hsame (k : κ) : after.worker k = before.worker k := congrFun hworker k
  cases hstep with
  | answered fd resp h hread => simp [hleft] at h
  | parsed fd request h hread => simp [hleft] at h
  | other hstep hloop =>
    cases hstep with
    | accept h => simp [hleft] at h
    | unread fd h => simp [hleft] at h
    | unparsed fd line errbuf h hline => simp [hleft] at h
    | parsed fd line request h hline => simp [hleft] at h
    | push job queue h hpush => simp [hleft] at h
    | refused job h hpush => simp [hleft] at h
    | leave h => simp [hleft] at h
    | stop h =>
      obtain ⟨queue, _, _, _, _, _, _⟩ := before
      obtain ⟨_, _⟩ := queue
      simp only at hstopped
      subst hstopped
      rfl
    | pop k job queue h hpop =>
      have hk := hsame k
      simp [h] at hk
    | drained k h hpop =>
      have hk := hsame k
      simp [h] at hk
    | serve k job resp h =>
      have hk := hsame k
      simp [h] at hk

theorem reachable_valid (h : Reachable skf settings sent early registry s) :
    Server.Inv early s.server :=
  reachable_inv (hearing_reachable (reachable_server h))

theorem stopping_step (h : Stopping skf settings sent early registry s)
    (hstep : Step skf settings sent early s t) : Stopping skf settings sent early registry t := by
  have hreached : Reachable skf settings sent early registry t := h.reached.tail hstep
  cases hstep with
  | loop server hhears hworker =>
    have hsame := loop_rests h.left h.stopped hhears hworker
    exact ⟨hreached, hsame ▸ h.left, hsame ▸ h.stopped⟩
  | pop k job queue hk hpop =>
    have hstop := (queuePop_taken (reachable_valid h.reached).valid hpop).1
    exact ⟨hreached, h.left, hstop.trans h.stopped⟩
  | advance k task world hk hgoes => exact ⟨hreached, h.left, h.stopped⟩
  | serve k job rc resp hk htask => exact ⟨hreached, h.left, h.stopped⟩
  | drained k hk hpop => exact ⟨hreached, h.left, h.stopped⟩

/-- One worker's share of the work shrinks, more than the queue's grows. -/
theorem work_moved {server : Server.State κ} {registry' : Registry}
    {task : κ → Option Task} {k : κ}
    (hothers : ∀ k', k' ≠ k → server.worker k' = s.server.worker k' ∧ task k' = s.task k')
    (hless : workerWork (server.worker k) (task k) + queueWork settings server.queue.contents <
      workerWork (s.server.worker k) (s.task k) + queueWork settings s.server.queue.contents) :
    work settings ⟨server, registry', task⟩ < work settings s := by
  have hmoved : (∑ k', workerWork (server.worker k') (task k')) +
      workerWork (s.server.worker k) (s.task k) =
      (∑ k', workerWork (s.server.worker k') (s.task k')) +
        workerWork (server.worker k) (task k) := by
    refine sum_moved (fun k' => workerWork (s.server.worker k') (s.task k'))
      (fun k' => workerWork (server.worker k') (task k')) ?_
    intro k' hk'
    rw [(hothers k' hk').1, (hothers k' hk').2]
  rw [work, work]
  simp only
  omega

omit [Fintype κ] in
theorem task_slot (h : Reachable skf settings sent early registry s) {k : κ} {task : Task}
    (hk : s.task k = some task) :
    ∀ slot, task.slot = some slot → slot < s.registry.devices.length := by
  have hworking := reachable_working h
  rw [same_length hworking.same]
  cases hphase : s.server.worker k with
  | serving job =>
    obtain ⟨task', htask, hworked⟩ := hworking.serving k job hphase
    rw [hk, Option.some.injEq] at htask
    subst htask
    exact worked_slot hworked
  | popping => rw [hworking.free k (by simp [hphase])] at hk; cases hk
  | returned => rw [hworking.free k (by simp [hphase])] at hk; cases hk

/-- A step of the shutdown changes nothing, or takes from the work. -/
theorem work_falls (h : Stopping skf settings sent early registry s)
    (hstep : Step skf settings sent early s t) : t = s ∨ work settings t < work settings s := by
  cases hstep with
  | loop server hhears hworker =>
    left
    rw [loop_rests h.left h.stopped hhears hworker]
  | pop k job queue hk hpop =>
    right
    have hcontents := (queuePop_taken (reachable_valid h.reached).valid hpop).2.2.2
    apply work_moved
    · intro k' hk'
      exact ⟨Function.update_of_ne hk' .., Function.update_of_ne hk' ..⟩
    · rw [hk, hcontents]
      simp only [Function.update_self, workerWork, queueWork, List.map_cons, List.sum_cons,
        jobWork, Option.elim_some]
      omega
  | advance k task world hk hgoes =>
    right
    have hfalls : taskWork (advance skf s.registry world task).task < taskWork task :=
      advance_work hgoes (task_slot h.reached hk) world
    apply work_moved
    · intro k' hk'
      exact ⟨rfl, Function.update_of_ne hk' ..⟩
    · have hworking := reachable_working h.reached
      cases hphase : s.server.worker k with
      | serving job =>
        rw [hk]
        simp only [Function.update_self, workerWork, Option.elim_some]
        omega
      | popping => rw [hworking.free k (by simp [hphase])] at hk; cases hk
      | returned => rw [hworking.free k (by simp [hphase])] at hk; cases hk
  | serve k job rc resp hk htask =>
    right
    apply work_moved
    · intro k' hk'
      exact ⟨Function.update_of_ne hk' .., Function.update_of_ne hk' ..⟩
    · rw [hk]
      simp only [Function.update_self, workerWork]
      omega
  | drained k hk hpop =>
    right
    apply work_moved
    · intro k' hk'
      exact ⟨Function.update_of_ne hk' .., rfl⟩
    · rw [hk]
      simp only [Function.update_self, workerWork]
      omega

/-- While a worker has not returned, some worker goes on. -/
theorem work_goes (h : Stopping skf settings sent early registry s) (world : σ)
    (hworks : ¬Returned s) :
    ∃ t, Step skf settings sent early s t ∧ work settings t < work settings s := by
  obtain ⟨k, hk⟩ := not_forall.mp hworks
  have hfalls {t : State κ} (hstep : Step skf settings sent early s t) (hne : t ≠ s) :
      ∃ t, Step skf settings sent early s t ∧ work settings t < work settings s :=
    ⟨t, hstep, (work_falls h hstep).resolve_left hne⟩
  have hmoved {t : State κ} (hworker : t.server.worker k ≠ s.server.worker k) : t ≠ s := by
    rintro rfl
    exact hworker rfl
  cases hphase : s.server.worker k with
  | returned => exact absurd hphase hk
  | popping =>
    by_cases hcount : s.server.queue.count = 0
    · have hpop : queuePop s.server.queue = .stopped := by
        rw [queuePop, if_neg (by simp [h.stopped]), if_pos ⟨h.stopped, hcount⟩]
      refine hfalls (.drained k hphase hpop) (hmoved ?_)
      simp [hphase]
    · obtain ⟨job, queue, hpop⟩ := queuePop_some hcount
      refine hfalls (.pop k job queue hphase hpop) (hmoved ?_)
      simp [hphase]
  | serving job =>
    obtain ⟨task, htask, _⟩ := (reachable_working h.reached).serving k job hphase
    by_cases hdone : Finished task
    · obtain ⟨rc, resp, rfl⟩ := hdone
      refine hfalls (.serve k job rc resp hphase htask) (hmoved ?_)
      simp [hphase]
    · have hless : taskWork (advance skf s.registry world task).task < taskWork task :=
        advance_work hdone (task_slot h.reached htask) world
      refine hfalls (.advance k task world htask hdone) ?_
      intro hsame
      have hstays : (advance skf s.registry world task).task = task := by
        have hk' := congrFun (congrArg State.task hsame) k
        simpa [htask] using hk'
      rw [hstays] at hless
      exact lt_irrefl _ hless

theorem gateway_drains (skf : SkfAdapter σ) (settings : Option GatewaySettings)
    (sent : ℕ → List ReadResult) (early : Prop) (registry : Registry) (world : σ) :
    Drains (Step skf settings sent early) (Stopping (κ := κ) skf settings sent early registry)
      Returned (work settings) where
  kept _ _ := stopping_step
  falls _ _ := work_falls
  goes _ h := work_goes h world

/-- The end of the gateway: every accepted connection was handed one answer,
which is its own, and the registry is as it was loaded. -/
structure Settled (skf : SkfAdapter σ) (settings : Option GatewaySettings) (registry : Registry)
    (sent : ℕ → List ReadResult) (s : State κ) : Prop where
  returned : Returned s
  answered : ∀ fd < s.server.accepted, ∃ call,
    s.server.handed.filter (fun call => call.fd = fd) = [call] ∧
      Own skf settings registry sent call
  restored : s.registry = registry

theorem stopping_settled [Nonempty κ] (hids : (registry.devices.map fun d => d.deviceId.bytes).Nodup)
    (hzero : ∀ d ∈ registry.devices, d.inflight = 0)
    (h : Stopping skf settings sent early registry s) (hreturned : Returned s) :
    Settled skf settings registry sent s := by
  refine ⟨hreturned, ?_, ?_⟩
  · intro fd hfd
    obtain ⟨call, hcall⟩ := handed_once (reachable_valid h.reached) hreturned hfd
      (by simp [h.left, LoopPhase.fd])
    have hmem : call ∈ s.server.handed :=
      (List.mem_filter.mp (hcall ▸ List.mem_singleton_self call)).1
    exact ⟨call, hcall, reachable_own h.reached call hmem⟩
  · exact settled_registry hids hzero h.reached fun k job => by simp [hreturned k]

/-- What comes of a gateway whose queue is stopped: it moves only so often, a
run that does not rest while some thread can go on settles, and some run does. -/
structure ShutsDown (skf : SkfAdapter σ) (settings : Option GatewaySettings)
    (sent : ℕ → List ReadResult) (early : Prop) (registry : Registry) (s : State κ) : Prop where
  bounded : ∀ n t, Moves (Step skf settings sent early) n s t → n ≤ work settings s
  fair : ∀ run : ℕ → State κ, run 0 = s →
    (∀ n, Step skf settings sent early (run n) (run (n + 1))) →
    (∀ n, (∃ t, Step skf settings sent early (run n) t ∧ t ≠ run n) →
      ∃ m, n ≤ m ∧ run (m + 1) ≠ run m) →
    ∃ n, Settled skf settings registry sent (run n) ∧ ∀ m, n ≤ m → run m = run n
  settles : ∃ t, ReflTransGen (Step skf settings sent early) s t ∧
    Settled skf settings registry sent t

/-- Two workers, and a request in the queue when it is stopped. -/
theorem sample_stopping : ∃ s : State (Fin 2),
    Stopping absentToken none (fun _ => sampleReads) False sampleRegistry s ∧
      s.server.queue.contents = [⟨0, signTwice (lit "hello")⟩] ∧ 0 < s.server.accepted := by
  have hqueued := (((((ReflTransGen.refl
    (r := Step absentToken none (fun _ => sampleReads) False)
    (a := begin (Fin 2) sampleRegistry)).tail
    (.loop _ (.other (.accept rfl) (by simp [begin, start])) rfl)).tail
    (.loop _ (.parsed 0 _ rfl sample_received) rfl)).tail
    (.loop _ (.other (.push ⟨0, signTwice (lit "hello")⟩ _ rfl rfl) (by simp)) rfl)).tail
    (.loop _ (.other (.leave rfl) (by simp)) rfl)).tail
    (.loop _ (.other (.stop (.inr rfl)) (by simp)) rfl)
  exact ⟨_, ⟨hqueued, rfl, rfl⟩, rfl, Nat.one_pos⟩

end Stopping

end Ucisdk.Shutdown
