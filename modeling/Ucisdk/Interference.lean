import Ucisdk.Startup

/-!
# What a client without the PIN can make others notice

Two gateways hear the same from every connection, up to the requests that
come without the PIN: these may ask for anything. Whatever the one can do, the
other can do as well, with the same devices at every moment and the same
answers to all other connections, in the same order.
-/

set_option autoImplicit false

namespace Ucisdk.Interference

open Ucisdk.CString Ucisdk.Common Ucisdk.Protocol Ucisdk.Queue Ucisdk.Resource Ucisdk.Driver
open Ucisdk.Scheduler Ucisdk.SequenceRun Ucisdk.GatewayPin
open Ucisdk.Server hiding State Step Reachable
open Ucisdk.Connection Ucisdk.Tasks Ucisdk.Gateway Ucisdk.GatewayAnswers Ucisdk.Startup
open Flow Relation

variable {κ σ : Type} {settings : GatewaySettings} {sent sent' : ℕ → List ReadResult}

section Views

/-- A line that asks for something without the PIN. -/
def Wrong (settings : GatewaySettings) (reads : List ReadResult) (request : Request) : Prop :=
  receive reads = .parsed request ∧ request.userPin ≠ settings.gatewayPin

/-- What is sent differs at most in requests without the PIN. -/
def SameButWrong (settings : GatewaySettings) (sent sent' : ℕ → List ReadResult) : Prop :=
  ∀ fd, sent fd = sent' fd ∨
    ∃ request request', Wrong settings (sent fd) request ∧ Wrong settings (sent' fd) request'

/-- Two jobs of one connection, both without the PIN. -/
structure Swapped (settings : GatewaySettings) (sent sent' : ℕ → List ReadResult)
    (job job' : Job) : Prop where
  fd : job'.clientFd = job.clientFd
  wrong : Wrong settings (sent job.clientFd) job.request
  wrong' : Wrong settings (sent' job.clientFd) job'.request

def JobAlike (settings : GatewaySettings) (sent sent' : ℕ → List ReadResult) (job job' : Job) :
    Prop :=
  job = job' ∨ Swapped settings sent sent' job job'

structure QueueAlike (settings : GatewaySettings) (sent sent' : ℕ → List ReadResult)
    (queue queue' : JobQueue) : Prop where
  ring : Ring.Alike (JobAlike settings sent sent') queue.toRing queue'.toRing
  stop : queue'.stop = queue.stop

inductive LoopAlike (settings : GatewaySettings) (sent sent' : ℕ → List ReadResult) :
    LoopPhase → LoopPhase → Prop
  | accepting : LoopAlike settings sent sent' .accepting .accepting
  | reading (fd : ℕ) : LoopAlike settings sent sent' (.reading fd) (.reading fd)
  | pushing {job job' : Job} (h : JobAlike settings sent sent' job job') :
      LoopAlike settings sent sent' (.pushing job) (.pushing job')
  | left : LoopAlike settings sent sent' .left .left

def refusedTask (request : Request) : Option Task :=
  some (.done (-1) (refusal request.requestId request.domain request.action))

/-- Two workers in the same place of the same call, or both with a refusal. -/
inductive WorkerAlike (settings : GatewaySettings) (sent sent' : ℕ → List ReadResult) :
    WorkerPhase → Option Task → WorkerPhase → Option Task → Prop
  | same (phase : WorkerPhase) (task : Option Task) :
      WorkerAlike settings sent sent' phase task phase task
  | swapped {job job' : Job} (h : Swapped settings sent sent' job job') :
      WorkerAlike settings sent sent' (.serving job) (refusedTask job.request)
        (.serving job') (refusedTask job'.request)

/-- Two answers to one connection, the same unless it has no PIN. -/
structure HandedAlike (sent sent' : ℕ → List ReadResult) (call call' : Handed κ) : Prop where
  worker : call'.worker = call.worker
  fd : call'.fd = call.fd
  resp : sent call.fd = sent' call.fd → call'.resp = call.resp

/-- Two gateways that nobody with the PIN can tell apart. -/
structure Alike (settings : GatewaySettings) (sent sent' : ℕ → List ReadResult)
    (s s' : State κ) : Prop where
  registry : s'.registry = s.registry
  queue : QueueAlike settings sent sent' s.server.queue s'.server.queue
  accepted : s'.server.accepted = s.server.accepted
  loop : LoopAlike settings sent sent' s.server.loop s'.server.loop
  worker : ∀ k, WorkerAlike settings sent sent' (s.server.worker k) (s.task k)
    (s'.server.worker k) (s'.task k)
  handed : List.Forall₂ (HandedAlike sent sent') s.server.handed s'.server.handed

theorem alike_begin (registry : Registry) :
    Alike settings sent sent' (begin κ registry) (begin κ registry) := by
  constructor
  · rfl
  · exact ⟨⟨fun _ => .inl rfl, rfl, rfl, rfl⟩, rfl⟩
  · rfl
  · exact .accepting
  · intro k
    exact .same _ _
  · exact .nil

theorem handed_alike_append {handed handed' : List (Handed κ)} {call call' : Handed κ}
    (h : List.Forall₂ (HandedAlike sent sent') handed handed')
    (hcall : HandedAlike sent sent' call call') :
    List.Forall₂ (HandedAlike sent sent') (handed ++ [call]) (handed' ++ [call']) :=
  List.rel_append h (.cons hcall .nil)

theorem jobAlike_fd {job job' : Job} (h : JobAlike settings sent sent' job job') :
    job'.clientFd = job.clientFd := by
  rcases h with rfl | hswapped
  · rfl
  · exact hswapped.fd

/-- Alike jobs of a connection that sent the same are one job. -/
theorem jobAlike_same {job job' : Job} (h : JobAlike settings sent sent' job job')
    (hsent : sent job.clientFd = sent' job.clientFd) : job' = job := by
  rcases h with rfl | hswapped
  · rfl
  · obtain ⟨fd, request⟩ := job
    obtain ⟨fd', request'⟩ := job'
    obtain rfl : fd' = fd := hswapped.fd
    have hread := hswapped.wrong.1
    have hread' := hswapped.wrong'.1
    simp only at hsent hread hread'
    rw [hsent, hread'] at hread
    rw [Received.parsed.inj hread]

end Views

section Queues

variable {queue queue' next : JobQueue} {job job' : Job}

theorem push_alike (h : QueueAlike settings sent sent' queue queue')
    (hjob : JobAlike settings sent sent' job job') (hpush : queuePush queue job = .queued next) :
    ∃ next', queuePush queue' job' = .queued next' ∧ QueueAlike settings sent sent' next next' := by
  rw [queuePush, h.stop.symm, h.ring.count.symm] at hpush
  rw [queuePush]
  split at hpush
  · cases hpush
  · rename_i hroom
    rw [if_neg hroom]
    split at hpush
    · cases hpush
    · rename_i hstop
      rw [if_neg hstop]
      rw [Pushed.queued.injEq] at hpush
      subst hpush
      exact ⟨_, rfl, Ring.push_alike h.ring hjob, rfl⟩

theorem refused_alike (h : QueueAlike settings sent sent' queue queue')
    (hpush : queuePush queue job = .refused) : queuePush queue' job' = .refused := by
  rw [queuePush, h.stop.symm, h.ring.count.symm] at hpush
  rw [queuePush]
  split at hpush
  · cases hpush
  · rename_i hroom
    rw [if_neg hroom]
    split at hpush
    · rename_i hstop
      rw [if_pos hstop]
    · cases hpush

theorem pop_alike (h : QueueAlike settings sent sent' queue queue')
    (hpop : queuePop queue = .taken job next) :
    ∃ job' next', queuePop queue' = .taken job' next' ∧ JobAlike settings sent sent' job job' ∧
      QueueAlike settings sent sent' next next' := by
  rw [queuePop, h.stop.symm, h.ring.count.symm] at hpop
  rw [queuePop]
  split at hpop
  · cases hpop
  · rename_i hwait
    rw [if_neg hwait]
    split at hpop
    · cases hpop
    · rename_i hstopped
      rw [if_neg hstopped]
      rw [Popped.taken.injEq] at hpop
      obtain ⟨rfl, rfl⟩ := hpop
      obtain ⟨hjob, hring⟩ := Ring.pop_alike h.ring
      exact ⟨_, _, rfl, hjob, hring, rfl⟩

theorem stopped_alike (h : QueueAlike settings sent sent' queue queue')
    (hpop : queuePop queue = .stopped) : queuePop queue' = .stopped := by
  rw [queuePop, h.stop.symm, h.ring.count.symm] at hpop
  rw [queuePop]
  split at hpop
  · cases hpop
  · rename_i hwait
    rw [if_neg hwait]
    split at hpop
    · rename_i hstopped
      rw [if_pos hstopped]
    · cases hpop

end Queues

section Loop

variable {early : Prop} {s s' : State κ} {loop' : LoopPhase}

theorem accepting_alike (h : LoopAlike settings sent sent' .accepting loop') :
    loop' = .accepting := by
  cases h
  rfl

theorem reading_alike {fd : ℕ} (h : LoopAlike settings sent sent' (.reading fd) loop') :
    loop' = .reading fd := by
  cases h
  rfl

theorem pushing_alike {job : Job} (h : LoopAlike settings sent sent' (.pushing job) loop') :
    ∃ job', loop' = .pushing job' ∧ JobAlike settings sent sent' job job' := by
  cases h with
  | pushing hjob => exact ⟨_, rfl, hjob⟩

theorem left_alike (h : LoopAlike settings sent sent' .left loop') : loop' = .left := by
  cases h
  rfl

variable [DecidableEq κ]

/-- A step of the loop that reads nothing from a connection. -/
theorem other_alike_step (h : Alike settings sent sent' s s') {server : Server.State κ}
    (hstep : Server.Step early s.server server)
    (hreading : ∀ fd, s.server.loop = .reading fd → server.loop = .reading fd)
    (hworker : server.worker = s.server.worker) :
    ∃ server', Hears sent' early s'.server server' ∧ server'.worker = s'.server.worker ∧
      Alike settings sent sent' { s with server := server } { s' with server := server' } := by
  have hloop := h.loop
  cases hstep with
  | accept hl =>
    rw [hl] at hloop
    have hl' := accepting_alike hloop
    refine ⟨_, .other (.accept hl') (by simp [hl']), rfl, ?_⟩
    rw [h.accepted]
    exact { h with
      accepted := rfl
      loop := .reading _ }
  | unread fd hl => exact absurd (hreading fd hl) (by simp)
  | unparsed fd line errbuf hl hline => exact absurd (hreading fd hl) (by simp)
  | parsed fd line request hl hline => exact absurd (hreading fd hl) (by simp)
  | push job queue hl hpush =>
    rw [hl] at hloop
    obtain ⟨job', hl', hjob⟩ := pushing_alike hloop
    obtain ⟨queue', hpush', hqueue⟩ := push_alike h.queue hjob hpush
    refine ⟨_, .other (.push job' queue' hl' hpush') (by simp [hl']), rfl, ?_⟩
    exact { h with
      queue := hqueue
      loop := .accepting }
  | refused job hl hpush =>
    rw [hl] at hloop
    obtain ⟨job', hl', hjob⟩ := pushing_alike hloop
    refine ⟨_, .other (.refused job' hl' (refused_alike h.queue hpush)) (by simp [hl']), rfl, ?_⟩
    refine { h with
      loop := .accepting
      handed := handed_alike_append h.handed ⟨rfl, ?_, ?_⟩ }
    · exact jobAlike_fd hjob
    · intro hsent
      rw [jobAlike_same hjob hsent]
  | leave hl =>
    rw [hl] at hloop
    have hl' := accepting_alike hloop
    refine ⟨_, .other (.leave hl') (by simp [hl']), rfl, ?_⟩
    exact { h with loop := .left }
  | stop hwhen =>
    have hwhen' : early ∨ s'.server.loop = .left := by
      rcases hwhen with hearly | hl
      · exact .inl hearly
      · rw [hl] at hloop
        exact .inr (left_alike hloop)
    refine ⟨_, .other (.stop hwhen') (fun _ hfd => hfd), rfl, ?_⟩
    exact { h with queue := ⟨⟨h.queue.ring.items, h.queue.ring.head, h.queue.ring.tail,
      h.queue.ring.count⟩, rfl⟩ }
  | pop k job queue hk hpop =>
    have hsame := congrFun hworker k
    simp [hk] at hsame
  | drained k hk hpop =>
    have hsame := congrFun hworker k
    simp [hk] at hsame
  | serve k job resp hk =>
    have hsame := congrFun hworker k
    simp [hk] at hsame

/-- What the one loop can do, the other can do. -/
theorem loop_alike_step (hsame : SameButWrong settings sent sent')
    (h : Alike settings sent sent' s s') {server : Server.State κ}
    (hhears : Hears sent early s.server server) (hworker : server.worker = s.server.worker) :
    ∃ server', Hears sent' early s'.server server' ∧ server'.worker = s'.server.worker ∧
      Alike settings sent sent' { s with server := server } { s' with server := server' } := by
  have hloop := h.loop
  cases hhears with
  | answered fd resp hl hread =>
    rw [hl] at hloop
    have hsent : sent fd = sent' fd := by
      rcases hsame fd with hsent | ⟨request, request', hwrong, _⟩
      · exact hsent
      · rw [hwrong.1] at hread
        cases hread
    refine ⟨_, .answered fd resp (reading_alike hloop) (hsent ▸ hread), rfl, ?_⟩
    exact { h with
      loop := .accepting
      handed := handed_alike_append h.handed ⟨rfl, rfl, fun _ => rfl⟩ }
  | parsed fd request hl hread =>
    rw [hl] at hloop
    rcases hsame fd with hsent | ⟨request₁, request', hwrong, hwrong'⟩
    · refine ⟨_, .parsed fd request (reading_alike hloop) (hsent ▸ hread), rfl, ?_⟩
      exact { h with loop := .pushing (.inl rfl) }
    · obtain rfl := Received.parsed.inj (hwrong.1.symm.trans hread)
      refine ⟨_, .parsed fd request' (reading_alike hloop) hwrong'.1, rfl, ?_⟩
      exact { h with loop := .pushing (.inr ⟨rfl, hwrong, hwrong'⟩) }
  | other hstep hreading => exact other_alike_step h hstep hreading hworker

end Loop

section Workers

variable {skf : SkfAdapter σ} {early : Prop} {registry : Registry} {s s' t : State κ}
  {phase phase' : WorkerPhase} {task task' : Option Task}

theorem popping_alike (h : WorkerAlike settings sent sent' .popping task phase' task') :
    phase' = .popping ∧ task' = task := by
  cases h
  exact ⟨rfl, rfl⟩

/-- Only a call that goes on under the PIN is not over. -/
theorem going_alike {now : Task} (h : WorkerAlike settings sent sent' phase (some now) phase' task')
    (hgoes : ¬Finished now) : phase' = phase ∧ task' = some now := by
  cases h with
  | same phase task => exact ⟨rfl, rfl⟩
  | swapped h => exact absurd ⟨_, _, rfl⟩ hgoes

theorem serving_alike {job : Job} {rc : ℤ} {resp : Response}
    (h : WorkerAlike settings sent sent' (.serving job) (some (.done rc resp)) phase' task') :
    ∃ job' rc' resp', phase' = .serving job' ∧ task' = some (.done rc' resp') ∧
      job'.clientFd = job.clientFd ∧ (sent job.clientFd = sent' job.clientFd → resp' = resp) := by
  generalize hphase : WorkerPhase.serving job = now at h
  generalize htask : some (Task.done rc resp) = ended at h
  cases h with
  | same phase task => exact ⟨job, rc, resp, hphase.symm, htask.symm, rfl, fun _ => rfl⟩
  | @swapped job₁ job' h =>
    rw [WorkerPhase.serving.injEq] at hphase
    subst hphase
    refine ⟨job', _, _, rfl, rfl, h.fd, fun hsent => ?_⟩
    obtain rfl := jobAlike_same (.inr h) hsent
    rw [refusedTask, Option.some.injEq, Task.done.injEq] at htask
    exact htask.2.symm

variable [DecidableEq κ]

theorem workers_update {worker worker' : κ → WorkerPhase} {tasks tasks' : κ → Option Task}
    (h : ∀ k, WorkerAlike settings sent sent' (worker k) (tasks k) (worker' k) (tasks' k)) (k : κ)
    (hk : WorkerAlike settings sent sent' phase task phase' task') (k' : κ) :
    WorkerAlike settings sent sent' (Function.update worker k phase k')
      (Function.update tasks k task k') (Function.update worker' k phase' k')
      (Function.update tasks' k task' k') := by
  by_cases hkk : k' = k
  · subst hkk
    simp only [Function.update_self]
    exact hk
  · simp only [Function.update_of_ne hkk]
    exact h k'

/-- A job that is taken: the same call, or a refusal on both sides. -/
theorem taken_alike (hset : settings.gatewayPin.bytes ≠ []) {job job' : Job}
    (h : JobAlike settings sent sent' job job') :
    WorkerAlike settings sent sent' (.serving job) (some (taskOf (some settings) job.request))
      (.serving job') (some (taskOf (some settings) job'.request)) := by
  rcases h with rfl | hswapped
  · exact .same _ _
  · have htask {request : Request} (hpin : request.userPin ≠ settings.gatewayPin) :
        some (taskOf (some settings) request) = refusedTask request := by
      rw [taskOf, validateGatewayPin_wrong hset hpin]
      rfl
    rw [htask hswapped.wrong.2, htask hswapped.wrong'.2]
    exact .swapped hswapped

/-- What the one gateway can do, the other can do, and they stay alike. -/
theorem alike_step (hset : settings.gatewayPin.bytes ≠ [])
    (hsame : SameButWrong settings sent sent') (h : Alike settings sent sent' s s')
    (hstep : Step skf (some settings) sent early s t) :
    ∃ t', Step skf (some settings) sent' early s' t' ∧ Alike settings sent sent' t t' := by
  cases hstep with
  | loop server hhears hworker =>
    obtain ⟨server', hhears', hworker', halike⟩ := loop_alike_step hsame h hhears hworker
    exact ⟨_, .loop server' hhears' hworker', halike⟩
  | pop k job queue hk hpop =>
    obtain ⟨job', queue', hpop', hjob, hqueue⟩ := pop_alike h.queue hpop
    have hphase := h.worker k
    rw [hk] at hphase
    refine ⟨_, .pop k job' queue' (popping_alike hphase).1 hpop', ?_⟩
    exact { h with
      queue := hqueue
      worker := workers_update h.worker k (taken_alike hset hjob) }
  | advance k task world hk hgoes =>
    have hphase := h.worker k
    rw [hk] at hphase
    obtain ⟨hphase', htask'⟩ := going_alike hphase hgoes
    refine ⟨_, .advance k task world htask' hgoes, ?_⟩
    have hworker := workers_update h.worker k
      (.same (s.server.worker k) (some (advance skf s.registry world task).task))
    rw [Function.update_eq_self, ← hphase', Function.update_eq_self] at hworker
    rw [h.registry]
    exact { h with
      registry := rfl
      worker := hworker }
  | serve k job rc resp hk htask =>
    have hphase := h.worker k
    rw [hk, htask] at hphase
    obtain ⟨job', rc', resp', hk', htask', hfd, hresp⟩ := serving_alike hphase
    refine ⟨_, .serve k job' rc' resp' hk' htask', ?_⟩
    exact { h with
      worker := workers_update h.worker k (.same _ _)
      handed := handed_alike_append h.handed ⟨rfl, hfd, hresp⟩ }
  | drained k hk hpop =>
    have hphase := h.worker k
    rw [hk] at hphase
    refine ⟨_, .drained k (popping_alike hphase).1 (stopped_alike h.queue hpop), ?_⟩
    have hworker := workers_update h.worker k (.same .returned (s.task k))
    rw [Function.update_eq_self, ← (popping_alike hphase).2, Function.update_eq_self] at hworker
    exact { h with worker := hworker }

/-- Whatever one gateway can come to, the other can come to as well: the same
devices, the same workers in the same calls, and the same answers to all whose
lines are the same. -/
theorem reachable_alike (hset : settings.gatewayPin.bytes ≠ [])
    (hsame : SameButWrong settings sent sent')
    (h : Reachable skf (some settings) sent early registry s) :
    ∃ s', Reachable skf (some settings) sent' early registry s' ∧
      Alike settings sent sent' s s' := by
  induction h with
  | refl => exact ⟨_, .refl, alike_begin registry⟩
  | tail _ hstep ih =>
    obtain ⟨u', hrun', halike⟩ := ih
    obtain ⟨t', hstep', halike'⟩ := alike_step hset hsame halike hstep
    exact ⟨t', hrun'.tail hstep', halike'⟩

end Workers

section Samples

def sampleSettings : GatewaySettings := ⟨store maxFieldLen (lit "123456")⟩

def byeReads : List ReadResult :=
  (signTwiceLine (lit "bye")).map .byte ++ [.byte newline]

theorem bye_received : receive byeReads = .parsed (signTwice (lit "bye")) := by
  have hdelivers : Delivers byeReads (signTwiceLine (lit "bye")) :=
    delivers_bytes (by decide) []
  have hseen : seen (signTwiceLine (lit "bye")) = signTwiceLine (lit "bye") :=
    (seen_eq_iff _).mpr (by decide +kernel)
  rw [receive_parsed_iff hdelivers, hseen]
  decide

/-- A request without the PIN is answered, and another one in its place leads
to a gateway that is alike. -/
theorem sample_alike : ∃ s s' : State Unit,
    s.server.handed = [⟨some (), 0, refusal (signTwice (lit "hello")).requestId .asym .sign⟩] ∧
      Reachable absentToken (some sampleSettings) (fun _ => byeReads) False sampleRegistry s' ∧
      Alike sampleSettings (fun _ => sampleReads) (fun _ => byeReads) s s' := by
  have hset : sampleSettings.gatewayPin.bytes ≠ [] := by decide
  have hhello : (signTwice (lit "hello")).userPin ≠ sampleSettings.gatewayPin := by decide
  have hbye : (signTwice (lit "bye")).userPin ≠ sampleSettings.gatewayPin := by decide
  have hsame : SameButWrong sampleSettings (fun _ => sampleReads) (fun _ => byeReads) := by
    intro fd
    exact .inr ⟨_, _, ⟨sample_received, hhello⟩, ⟨bye_received, hbye⟩⟩
  obtain ⟨s, hrun, hhanded, _⟩ :=
    served_run absentToken (some sampleSettings) False sampleRegistry () () sample_received
  rw [schedulerExecute_wrong hset hhello] at hhanded
  obtain ⟨s', hrun', halike⟩ := reachable_alike hset hsame hrun
  exact ⟨s, s', hhanded, hrun', halike⟩

end Samples

end Ucisdk.Interference
