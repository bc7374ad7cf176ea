import Ucisdk.Flow.Progress
import Ucisdk.Shutdown

/-!
# Every request is answered

Fair threads, and no end of connections. A request whose line has come goes
from the accept loop to the queue, comes to its head whatever is pushed behind
it, and is carried through by the worker that pops it. A connection whose line
does not end holds the accept loop for ever.
-/

set_option autoImplicit false

namespace Ucisdk.Liveness

open Ucisdk.CString Ucisdk.Common Ucisdk.Protocol Ucisdk.Queue Ucisdk.Resource Ucisdk.Translator
open Ucisdk.Driver Ucisdk.Scheduler Ucisdk.StepCalls Ucisdk.SequenceRun
open Ucisdk.Server hiding State Step Reachable
open Ucisdk.Connection Ucisdk.Tasks Ucisdk.Gateway Ucisdk.GatewayAnswers Ucisdk.Shutdown
open Flow Flow.Leases Flow.Progress Relation

section Parties

variable {κ σ : Type}

/-- The worker takes a job, goes on with it, lets it go or returns. -/
def Works (k : κ) (s t : State κ) : Prop :=
  t.server.worker k ≠ s.server.worker k ∨ t.task k ≠ s.task k

/-- The accept loop goes on with the connection in its hand. -/
def Loops (s t : State κ) : Prop := s.server.loop.fd ≠ none ∧ t.server.loop ≠ s.server.loop

/-- A run of the gateway from its start. No worker that could go on is kept
waiting for ever, nor is the accept loop while it holds a connection; whether
another connection comes is left open. -/
structure FairRun [DecidableEq κ] (skf : SkfAdapter σ) (settings : Option GatewaySettings)
    (sent : ℕ → List ReadResult) (early : Prop) (registry : Registry) (run : ℕ → State κ) :
    Prop where
  start : run 0 = begin κ registry
  goes : Goes (Step skf settings sent early) run
  workers : ∀ k, Fair (Step skf settings sent early) (Works k) run
  loop : Fair (Step skf settings sent early) Loops run

theorem works_self (k : κ) (s : State κ) : ¬Works k s s := by simp [Works]

theorem loops_self (s : State κ) : ¬Loops s s := by simp [Loops]

/-- What the worker has left of its call. -/
def share (k : κ) (s : State κ) : ℕ := workerWork (s.server.worker k) (s.task k)

/-- The worker's share does not grow, and falls if the worker moves. -/
def Eases (k : κ) (s t : State κ) : Prop :=
  share k t ≤ share k s ∧ (Works k s t → share k t < share k s)

/-- The connection waits in the ring. -/
def Queued (fd : ℕ) (s : State κ) : Prop := ∃ job ∈ s.server.queue.contents, job.clientFd = fd

/-- The connection is with the worker. -/
def Serving (k : κ) (fd : ℕ) (s : State κ) : Prop := working s.server.worker k = some fd

/-- The connection was answered. -/
def Handed (fd : ℕ) (s : State κ) : Prop := ∃ call ∈ s.server.handed, call.fd = fd

theorem serving_job {k : κ} {fd : ℕ} {s : State κ} (h : Serving k fd s) :
    ∃ job, s.server.worker k = .serving job ∧ job.clientFd = fd := by
  rw [Serving, working] at h
  cases hphase : s.server.worker k with
  | serving job =>
    rw [hphase] at h
    exact ⟨job, rfl, Option.some.inj h⟩
  | popping => simp [hphase, WorkerPhase.fd] at h
  | returned => simp [hphase, WorkerPhase.fd] at h

/-- The jobs before a connection's. -/
def ahead (fd : ℕ) (jobs : List Job) : List Job := jobs.takeWhile fun job => job.clientFd ≠ fd

/-- What a worker and the jobs before a connection's have left, together. -/
def queuedRank (settings : Option GatewaySettings) (k : κ) (fd : ℕ) (s : State κ) : ℕ :=
  share k s + queueWork settings (ahead fd s.server.queue.contents)

theorem ahead_append {fd : ℕ} {jobs : List Job} (h : ∃ job ∈ jobs, job.clientFd = fd)
    (more : List Job) : ahead fd (jobs ++ more) = ahead fd jobs := by
  rw [ahead, List.takeWhile_append, if_neg, ahead]
  intro hlength
  have hall := (List.takeWhile_prefix _).eq_of_length hlength
  rw [List.takeWhile_eq_self_iff] at hall
  obtain ⟨job, hmem, hjob⟩ := h
  simpa [hjob] using hall job hmem

theorem ahead_cons {fd : ℕ} {job : Job} (h : job.clientFd ≠ fd) (jobs : List Job) :
    ahead fd (job :: jobs) = job :: ahead fd jobs := by
  rw [ahead, List.takeWhile_cons, if_pos (by simpa using h), ahead]

end Parties

section Steps

variable {κ σ : Type} [DecidableEq κ] {skf : SkfAdapter σ} {settings : Option GatewaySettings}
  {sent : ℕ → List ReadResult} {early : Prop} {registry : Registry} {s t : State κ} {k : κ}
  {fd : ℕ}

omit [DecidableEq κ] in
theorem eases_still (hworker : t.server.worker k = s.server.worker k)
    (htask : t.task k = s.task k) : Eases k s t := by
  rw [Eases, share, share, hworker, htask]
  exact ⟨le_rfl, by simp [Works, hworker, htask]⟩

omit [DecidableEq κ] in
/-- A step that takes one worker's share down leaves the others' as they are. -/
theorem eases_moved (k' : κ)
    (hothers : ∀ k, k ≠ k' → t.server.worker k = s.server.worker k ∧ t.task k = s.task k)
    (hless : share k' t < share k' s) (k : κ) : Eases k s t := by
  by_cases hk : k = k'
  · subst hk
    exact ⟨hless.le, fun _ => hless⟩
  · exact eases_still (hothers k hk).1 (hothers k hk).2

theorem pop_stopped {queue : JobQueue} (h : queuePop queue = .stopped) :
    queue.stop = true ∧ queue.count = 0 := by
  rw [queuePop] at h
  split_ifs at h with _ hstopped
  exact hstopped

/-- The loop leaves the ring as it is, or puts one job behind the others. -/
theorem loop_queue {before after : Server.State κ} (hvalid : before.queue.toRing.Valid)
    (hhears : Hears sent early before after) (hworker : after.worker = before.worker) :
    after.queue.contents = before.queue.contents ∨
      ∃ job, after.queue.contents = before.queue.contents ++ [job] := by
  have hsame (k : κ) : after.worker k = before.worker k := congrFun hworker k
  cases hhears with
  | answered fd resp h hread => exact .inl rfl
  | parsed fd request h hread => exact .inl rfl
  | other hstep hloop =>
    cases hstep with
    | push job queue h hpush => exact .inr ⟨job, (queuePush_queued hvalid hpush).2.2.2⟩
    | pop k job queue h hpop =>
      have hk := hsame k
      simp [h] at hk
    | _ => exact .inl rfl

/-- A worker that has not returned and does not have to wait can go on. -/
theorem worker_able (hreached : Reachable skf settings sent early registry s) (world : σ)
    (hreturned : s.server.worker k ≠ .returned)
    (hjob : s.server.worker k = .popping → s.server.queue.count ≠ 0) :
    Able (Step skf settings sent early) (Works k) s := by
  cases hphase : s.server.worker k with
  | returned => exact absurd hphase hreturned
  | popping =>
    obtain ⟨job, queue, hpop⟩ := queuePop_some (hjob hphase)
    exact ⟨_, .pop k job queue hphase hpop, .inl (by simp [hphase])⟩
  | serving job =>
    obtain ⟨task, htask, _⟩ := (reachable_working hreached).serving k job hphase
    by_cases hdone : Finished task
    · obtain ⟨rc, resp, rfl⟩ := hdone
      exact ⟨_, .serve k job rc resp hphase htask, .inl (by simp [hphase])⟩
    · refine ⟨_, .advance k task world htask hdone, .inr ?_⟩
      have hless : taskWork (advance skf s.registry world task).task < taskWork task :=
        advance_work hdone (task_slot hreached htask) world
      intro hsame
      have hstays : (advance skf s.registry world task).task = task := by
        simpa [htask] using hsame
      rw [hstays] at hless
      exact lt_irrefl _ hless

theorem eases_advance (hreached : Reachable skf settings sent early registry s) {k' : κ}
    {task : Task} (htask : s.task k' = some task) (hgoes : ¬Finished task) (world : σ) (k : κ) :
    Eases k s ⟨s.server, (advance skf s.registry world task).registry,
      Function.update s.task k' (some (advance skf s.registry world task).task)⟩ := by
  have hworking := reachable_working hreached
  refine eases_moved k' ?_ ?_ k
  · intro k hk
    exact ⟨rfl, Function.update_of_ne hk ..⟩
  · have hless : taskWork (advance skf s.registry world task).task < taskWork task :=
      advance_work hgoes (task_slot hreached htask) world
    simp only [share, Function.update_self, htask]
    cases hphase : s.server.worker k' with
    | serving job =>
      simp only [workerWork, Option.elim_some]
      omega
    | popping => rw [hworking.free k' (by simp [hphase])] at htask; cases htask
    | returned => rw [hworking.free k' (by simp [hphase])] at htask; cases htask

theorem eases_serve {k' : κ} {job : Job} (hphase : s.server.worker k' = .serving job)
    (resp : Response) (k : κ) :
    Eases k s ⟨{ s.server with
        worker := Function.update s.server.worker k' .popping
        handed := s.server.handed ++ [⟨some k', job.clientFd, resp⟩] },
      s.registry, Function.update s.task k' none⟩ := by
  refine eases_moved k' ?_ ?_ k
  · intro k hk
    exact ⟨Function.update_of_ne hk .., Function.update_of_ne hk ..⟩
  · rw [share, share, hphase]
    simp [workerWork]

theorem serving_kept (hreached : Reachable skf settings sent early registry s)
    (hserving : Serving k fd s) (hstep : Step skf settings sent early s t) :
    Handed fd t ∨ (Serving k fd t ∧ Eases k s t) := by
  obtain ⟨job, hphase, hfd⟩ := serving_job hserving
  have hother {k' : κ} {phase : WorkerPhase} (hk : s.server.worker k' = .popping) :
      k ≠ k' ∧ Function.update s.server.worker k' phase k = s.server.worker k := by
    have hne : k ≠ k' := by
      rintro rfl
      simp [hphase] at hk
    exact ⟨hne, Function.update_of_ne hne ..⟩
  have hstays {server : Server.State κ} {registry' : Registry} {task : κ → Option Task}
      (hworker : server.worker k = s.server.worker k) : Serving k fd ⟨server, registry', task⟩ := by
    rw [Serving, working, hworker]
    exact hserving
  cases hstep with
  | loop server hhears hworker =>
    exact .inr ⟨hstays (congrFun hworker k), eases_still (congrFun hworker k) rfl⟩
  | pop k' job' queue hk hpop =>
    obtain ⟨hne, hworker⟩ := hother hk
    exact .inr ⟨hstays hworker, eases_still hworker (Function.update_of_ne hne ..)⟩
  | advance k' task world htask hgoes =>
    exact .inr ⟨hstays rfl, eases_advance hreached htask hgoes world k⟩
  | serve k' job' rc resp hk htask =>
    by_cases hkk : k = k'
    · subst hkk
      rw [hphase, WorkerPhase.serving.injEq] at hk
      subst hk
      exact .inl ⟨_, List.mem_concat_self, hfd⟩
    · exact .inr ⟨hstays (Function.update_of_ne hkk ..), eases_serve hk resp k⟩
  | drained k' hk hpop =>
    obtain ⟨hne, hworker⟩ := hother hk
    exact .inr ⟨hstays hworker, eases_still hworker rfl⟩

/-- The worker that has a connection answers it. -/
theorem serving_leads (world : σ) (registry : Registry) (k : κ) (fd : ℕ) :
    Leads (Step skf settings sent early) (Works k)
      (fun s => Reachable skf settings sent early registry s ∧ Serving k fd s) (Handed fd)
      (share k) where
  able s h := by
    obtain ⟨job, hphase, _⟩ := serving_job h.2
    exact worker_able h.1 world (by simp [hphase]) (by simp [hphase])
  kept s t h hstep := by
    rcases serving_kept h.1 h.2 hstep with hgoal | ⟨hserving, heases⟩
    · exact .inl hgoal
    · exact .inr ⟨⟨h.1.tail hstep, hserving⟩, heases⟩
  moves s := works_self k s

end Steps

section Phases

variable {κ σ : Type} [Fintype κ] [DecidableEq κ] {skf : SkfAdapter σ}
  {settings : Option GatewaySettings} {sent : ℕ → List ReadResult} {early : Prop}
  {registry : Registry} {s t : State κ} {k : κ} {fd : ℕ}

omit [DecidableEq κ] in
theorem queued_running (hvalid : Server.Inv early s.server) (hqueued : Queued fd s) (k : κ) :
    s.server.queue.count ≠ 0 ∧ s.server.worker k ≠ .returned := by
  obtain ⟨job, hmem, _⟩ := hqueued
  have hcount : s.server.queue.count ≠ 0 := by
    intro hzero
    rw [Ring.contents_empty hzero] at hmem
    simp at hmem
  exact ⟨hcount, fun hreturned => hcount (hvalid.drained k hreturned).2⟩

omit [Fintype κ] [DecidableEq κ] in
/-- The jobs before a connection's as they were. -/
theorem rank_eases (heases : Eases k s t)
    (hahead : ahead fd t.server.queue.contents = ahead fd s.server.queue.contents) :
    queuedRank settings k fd t ≤ queuedRank settings k fd s ∧
      (Works k s t → queuedRank settings k fd t < queuedRank settings k fd s) := by
  rw [queuedRank, queuedRank, hahead]
  exact ⟨Nat.add_le_add_right heases.1 _, fun hworks => Nat.add_lt_add_right (heases.2 hworks) _⟩

omit [Fintype κ] in
/-- A job before a connection's goes to a worker. -/
theorem rank_pop (settings : Option GatewaySettings) (k : κ) {job : Job} {queue : JobQueue} {k' : κ}
    (hphase : s.server.worker k' = .popping)
    (hcontents : s.server.queue.contents = job :: queue.contents) (hfd : job.clientFd ≠ fd) :
    workerWork (Function.update s.server.worker k' (.serving job) k)
        (Function.update s.task k' (some (taskOf settings job.request)) k) +
        queueWork settings (ahead fd queue.contents) < queuedRank settings k fd s := by
  rw [queuedRank, share, hcontents, ahead_cons hfd]
  simp only [queueWork, List.map_cons, List.sum_cons, jobWork]
  by_cases hkk : k = k'
  · subst hkk
    rw [hphase]
    simp only [Function.update_self, workerWork, Option.elim_some]
    omega
  · rw [Function.update_of_ne hkk, Function.update_of_ne hkk]
    omega

theorem queued_kept (hreached : Reachable skf settings sent early registry s)
    (hqueued : Queued fd s) (hstep : Step skf settings sent early s t) (k : κ) :
    (∃ k', Serving k' fd t) ∨
      (Queued fd t ∧ queuedRank settings k fd t ≤ queuedRank settings k fd s ∧
        (Works k s t → queuedRank settings k fd t < queuedRank settings k fd s)) := by
  have hinv := reachable_valid hreached
  obtain ⟨job₀, hmem₀, hjob₀⟩ := hqueued
  cases hstep with
  | loop server hhears hworker =>
    have heases : Eases k s ⟨server, s.registry, s.task⟩ := eases_still (congrFun hworker k) rfl
    rcases loop_queue hinv.valid hhears hworker with hsame | ⟨job, hmore⟩
    · refine .inr ⟨⟨job₀, ?_, hjob₀⟩, rank_eases heases (congrArg (ahead fd) hsame)⟩
      rw [hsame]
      exact hmem₀
    · refine .inr ⟨⟨job₀, ?_, hjob₀⟩, rank_eases heases ?_⟩
      · rw [hmore]
        exact List.mem_append_left _ hmem₀
      · exact (congrArg (ahead fd) hmore).trans (ahead_append ⟨job₀, hmem₀, hjob₀⟩ _)
  | pop k' job queue hk hpop =>
    have hcontents := (queuePop_taken hinv.valid hpop).2.2.2
    by_cases hfd : job.clientFd = fd
    · left
      refine ⟨k', ?_⟩
      rw [Serving, working]
      simp [WorkerPhase.fd, hfd]
    · have hmem : job₀ ∈ queue.contents := by
        rw [hcontents] at hmem₀
        rcases List.mem_cons.mp hmem₀ with rfl | hmem
        · exact absurd hjob₀ hfd
        · exact hmem
      have hless := rank_pop settings k hk hcontents hfd
      exact .inr ⟨⟨job₀, hmem, hjob₀⟩, hless.le, fun _ => hless⟩
  | advance k' task world htask hgoes =>
    exact .inr ⟨⟨job₀, hmem₀, hjob₀⟩, rank_eases (eases_advance hreached htask hgoes world k) rfl⟩
  | serve k' job rc resp hk htask =>
    exact .inr ⟨⟨job₀, hmem₀, hjob₀⟩, rank_eases (eases_serve hk resp k) rfl⟩
  | drained k' hk hpop =>
    exact absurd (pop_stopped hpop).2 (queued_running hinv ⟨job₀, hmem₀, hjob₀⟩ k').1

/-- A queued connection comes to a worker: every worker helps it there. -/
theorem queued_leads (world : σ) (registry : Registry) (k : κ) (fd : ℕ) :
    Leads (Step skf settings sent early) (Works k)
      (fun s => Reachable skf settings sent early registry s ∧ Queued fd s)
      (fun s => ∃ k', Serving k' fd s) (queuedRank settings k fd) where
  able s h := by
    have hrunning := queued_running (reachable_valid h.1) h.2 k
    exact worker_able h.1 world hrunning.2 fun _ => hrunning.1
  kept s t h hstep := by
    rcases queued_kept h.1 h.2 hstep k with hgoal | ⟨hqueued, hfalls⟩
    · exact .inl hgoal
    · exact .inr ⟨⟨h.1.tail hstep, hqueued⟩, hfalls⟩
  moves s := works_self k s

/-- The loop has a job for the ring, and room for it or not. -/
def Pushing (waits : Prop) (fd : ℕ) (s : State κ) : Prop :=
  ∃ job, s.server.loop = .pushing job ∧ job.clientFd = fd ∧
    (queuePush s.server.queue job = .waits ↔ waits)

theorem push_waits_iff (queue : JobQueue) (job : Job) :
    queuePush queue job = .waits ↔ queue.stop = false ∧ queue.count ≥ maxQueueDepth := by
  rw [queuePush]
  split
  · rename_i hwaits
    simp [hwaits]
  · rename_i hwaits
    split
    · simp [hwaits]
    · simp [hwaits]

omit [Fintype κ] in
/-- The loop with a job in its hand: it goes on, or the ring alone changes. -/
theorem pushing_cases {before after : Server.State κ} {job : Job}
    (hhears : Hears sent early before after) (hworker : after.worker = before.worker)
    (hloop : before.loop = .pushing job) :
    (queuePush before.queue job = .queued after.queue ∧ after.loop = .accepting) ∨
      (queuePush before.queue job = .refused ∧ ∃ call ∈ after.handed, call.fd = job.clientFd) ∨
      (after.queue.stop = true ∧ after.loop = .pushing job) := by
  have hsame (k : κ) : after.worker k = before.worker k := congrFun hworker k
  cases hhears with
  | answered fd resp h hread => simp [hloop] at h
  | parsed fd request h hread => simp [hloop] at h
  | other hstep _ =>
    cases hstep with
    | accept h => simp [hloop] at h
    | unread fd h => simp [hloop] at h
    | unparsed fd line errbuf h hline => simp [hloop] at h
    | parsed fd line request h hline => simp [hloop] at h
    | push job' queue h hpush =>
      rw [hloop, LoopPhase.pushing.injEq] at h
      subst h
      exact .inl ⟨hpush, rfl⟩
    | refused job' h hpush =>
      rw [hloop, LoopPhase.pushing.injEq] at h
      subst h
      exact .inr (.inl ⟨hpush, _, List.mem_concat_self, rfl⟩)
    | leave h => simp [hloop] at h
    | stop h => exact .inr (.inr ⟨rfl, hloop⟩)
    | pop k job' queue h hpop =>
      have hk := hsame k
      simp [h] at hk
    | drained k h hpop =>
      have hk := hsame k
      simp [h] at hk
    | serve k job' resp h =>
      have hk := hsame k
      simp [h] at hk

/-- A pop makes room. -/
theorem pop_room {job job' : Job} {queue queue' : JobQueue} (hvalid : queue.toRing.Valid)
    (hpop : queuePop queue = .taken job queue') : ¬queuePush queue' job' = .waits := by
  have hlength := congrArg List.length (queuePop_taken hvalid hpop).2.2.2
  rw [List.length_cons, Ring.contents_length, Ring.contents_length] at hlength
  have hcount := hvalid.count
  rw [push_waits_iff]
  omega

theorem full_kept (hreached : Reachable skf settings sent early registry s)
    (hpushing : Pushing True fd s) (hstep : Step skf settings sent early s t) (k : κ) :
    Pushing False fd t ∨ (Pushing True fd t ∧ Eases k s t) := by
  obtain ⟨job, hloop, hfd, hwaits⟩ := hpushing
  rw [iff_true] at hwaits
  have hstays : Pushing True fd s := ⟨job, hloop, hfd, by simp [hwaits]⟩
  cases hstep with
  | loop server hhears hworker =>
    rcases pushing_cases hhears hworker hloop with ⟨hpush, _⟩ | ⟨hpush, _⟩ | ⟨hstop, hloop'⟩
    · rw [hwaits] at hpush
      cases hpush
    · rw [hwaits] at hpush
      cases hpush
    · refine .inl ⟨job, hloop', hfd, ?_⟩
      simp [push_waits_iff, hstop]
  | pop k' job' queue hk hpop =>
    exact .inl ⟨job, hloop, hfd, by simp [pop_room (reachable_valid hreached).valid hpop]⟩
  | advance k' task world htask hgoes =>
    exact .inr ⟨hstays, eases_advance hreached htask hgoes world k⟩
  | serve k' job' rc resp hk htask => exact .inr ⟨hstays, eases_serve hk resp k⟩
  | drained k' hk hpop =>
    rw [push_waits_iff] at hwaits
    have hstop := (pop_stopped hpop).1
    rw [hwaits.1] at hstop
    cases hstop

/-- A full ring gets room: every worker helps it there. -/
theorem full_leads (world : σ) (registry : Registry) (k : κ) (fd : ℕ) :
    Leads (Step skf settings sent early) (Works k)
      (fun s => Reachable skf settings sent early registry s ∧ Pushing True fd s)
      (Pushing False fd) (share k) where
  able s h := by
    obtain ⟨hreached, job, _, _, hwaits⟩ := h
    rw [iff_true, push_waits_iff] at hwaits
    have hfull : 128 ≤ s.server.queue.count := hwaits.2
    refine worker_able hreached world ?_ fun _ => by omega
    intro hreturned
    have hcount := ((reachable_valid hreached).drained k hreturned).2
    omega
  kept s t h hstep := by
    rcases full_kept h.1 h.2 hstep k with hgoal | ⟨hpushing, heases⟩
    · exact .inl hgoal
    · exact .inr ⟨⟨h.1.tail hstep, hpushing⟩, heases⟩
  moves s := works_self k s

omit [Fintype κ] in
/-- What the loop alone does away with holds until the loop goes on. -/
theorem loops_kept {Holds Goal : State κ → Prop}
    (hstep : ∀ s t, Holds s → Step skf settings sent early s t →
      Goal t ∨ (Holds t ∧ t.server.loop = s.server.loop)) (s t : State κ) (hholds : Holds s)
    (h : Step skf settings sent early s t) :
    Goal t ∨ (Holds t ∧ 0 ≤ 0 ∧ (Loops s t → 0 < 0)) := by
  rcases hstep s t hholds h with hgoal | ⟨hstays, hloop⟩
  · exact .inl hgoal
  · exact .inr ⟨hstays, le_rfl, fun hloops => absurd hloop hloops.2⟩

theorem room_kept (hreached : Reachable skf settings sent early registry s)
    (hpushing : Pushing False fd s) (hstep : Step skf settings sent early s t) :
    (Queued fd t ∨ Handed fd t) ∨ (Pushing False fd t ∧ t.server.loop = s.server.loop) := by
  have hvalid := (reachable_valid hreached).valid
  obtain ⟨job, hloop, hfd, hroom⟩ := hpushing
  rw [iff_false] at hroom
  have hstays : Pushing False fd s := ⟨job, hloop, hfd, by simp [hroom]⟩
  cases hstep with
  | loop server hhears hworker =>
    rcases pushing_cases hhears hworker hloop with ⟨hpush, _⟩ | ⟨_, hhanded⟩ | ⟨hstop, hloop'⟩
    · refine .inl (.inl ⟨job, ?_, hfd⟩)
      rw [(queuePush_queued hvalid hpush).2.2.2]
      exact List.mem_concat_self
    · exact .inl (.inr (hfd ▸ hhanded))
    · refine .inr ⟨⟨job, hloop', hfd, ?_⟩, hloop'.trans hloop.symm⟩
      simp [push_waits_iff, hstop]
  | pop k' job' queue hk hpop => exact .inr ⟨⟨job, hloop, hfd, by simp [pop_room hvalid hpop]⟩, rfl⟩
  | advance k' task world htask hgoes => exact .inr ⟨hstays, rfl⟩
  | serve k' job' rc resp hk htask => exact .inr ⟨hstays, rfl⟩
  | drained k' hk hpop => exact .inr ⟨hstays, rfl⟩

/-- With room the loop puts its job into the ring. -/
theorem room_leads (registry : Registry) (fd : ℕ) :
    Leads (Step skf settings sent early) Loops
      (fun s : State κ => Reachable skf settings sent early registry s ∧ Pushing False fd s)
      (fun s => Queued fd s ∨ Handed fd s) fun _ => 0 where
  able s h := by
    obtain ⟨_, job, hloop, _, hroom⟩ := h
    rw [iff_false] at hroom
    have hholds : s.server.loop.fd ≠ none := by simp [hloop, LoopPhase.fd]
    cases hpush : queuePush s.server.queue job with
    | waits => exact absurd hpush hroom
    | refused =>
      refine ⟨_, .loop _ (.other (.refused job hloop hpush) (by simp [hloop])) rfl, hholds, ?_⟩
      simp [hloop]
    | queued queue =>
      refine ⟨_, .loop _ (.other (.push job queue hloop hpush) (by simp [hloop])) rfl, hholds, ?_⟩
      simp [hloop]
  kept := by
    apply loops_kept
    intro s t h hstep
    rcases room_kept h.1 h.2 hstep with hgoal | ⟨hpushing, hloop⟩
    · exact .inl hgoal
    · exact .inr ⟨⟨h.1.tail hstep, hpushing⟩, hloop⟩
  moves s := loops_self s

omit [Fintype κ] in
/-- The loop that reads a connection: it has heard it, or reads on. -/
theorem reading_cases {before after : Server.State κ} (hhears : Hears sent early before after)
    (hworker : after.worker = before.worker) (hloop : before.loop = .reading fd) :
    (receive (sent fd) ≠ .waiting ∧ ((∃ call ∈ after.handed, call.fd = fd) ∨
        ∃ job, after.loop = .pushing job ∧ job.clientFd = fd)) ∨
      (after.loop = .reading fd ∧ after.accepted = before.accepted) := by
  have hsame (k : κ) : after.worker k = before.worker k := congrFun hworker k
  cases hhears with
  | answered fd' resp h hread =>
    rw [hloop, LoopPhase.reading.injEq] at h
    subst h
    exact .inl ⟨by simp [hread], .inl ⟨_, List.mem_concat_self, rfl⟩⟩
  | parsed fd' request h hread =>
    rw [hloop, LoopPhase.reading.injEq] at h
    subst h
    exact .inl ⟨by simp [hread], .inr ⟨_, rfl, rfl⟩⟩
  | other hstep hreads =>
    refine .inr ⟨hreads fd hloop, ?_⟩
    cases hstep with
    | accept h => simp [hloop] at h
    | _ => rfl

omit [Fintype κ] in
theorem reading_kept (hloop : s.server.loop = .reading fd)
    (hstep : Step skf settings sent early s t) :
    (Handed fd t ∨ ∃ job, t.server.loop = .pushing job ∧ job.clientFd = fd) ∨
      t.server.loop = .reading fd := by
  cases hstep with
  | loop server hhears hworker =>
    rcases reading_cases hhears hworker hloop with ⟨_, hgoal⟩ | ⟨hstays, _⟩
    · exact .inl hgoal
    · exact .inr hstays
  | _ => exact .inr hloop

omit [Fintype κ] in
/-- A line that has come is parsed. -/
theorem reading_leads {fd : ℕ} (hread : receive (sent fd) ≠ .waiting) :
    Leads (Step skf settings sent early) Loops
      (fun s : State κ => s.server.loop = .reading fd)
      (fun s => Handed fd s ∨ ∃ job, s.server.loop = .pushing job ∧ job.clientFd = fd)
      fun _ => 0 where
  able s h := by
    have hholds : s.server.loop.fd ≠ none := by simp [h, LoopPhase.fd]
    cases hreceived : receive (sent fd) with
    | waiting => exact absurd hreceived hread
    | answered resp =>
      exact ⟨_, .loop _ (.answered fd resp h hreceived) rfl, hholds, by simp [h]⟩
    | parsed request =>
      exact ⟨_, .loop _ (.parsed fd request h hreceived) rfl, hholds, by simp [h]⟩
  kept := by
    apply loops_kept
    intro s t h hstep
    rcases reading_kept h hstep with hgoal | hstays
    · exact .inl hgoal
    · exact .inr ⟨hstays, hstays.trans h.symm⟩
  moves s := loops_self s

end Phases

section Places

variable {κ σ : Type} [Fintype κ] [DecidableEq κ] {skf : SkfAdapter σ}
  {settings : Option GatewaySettings} {sent : ℕ → List ReadResult} {early : Prop}
  {registry : Registry} {s t : State κ} {k : κ} {fd : ℕ}

omit [DecidableEq κ] in
/-- Where an accepted connection is. -/
theorem accepted_place (hinv : Server.Inv early s.server) (hfd : fd < s.server.accepted) :
    Handed fd s ∨ Queued fd s ∨ (∃ k, Serving k fd s) ∨ s.server.loop.fd = some fd := by
  by_contra hnowhere
  simp only [not_or, not_exists] at hnowhere
  obtain ⟨hhanded, hqueued, hserving, hloop⟩ := hnowhere
  have hplaced := hinv.placed fd
  have hzero : inHanded s.server.handed fd = 0 := by
    apply List.count_eq_zero.mpr
    intro hmem
    obtain ⟨call, hcall, hcallfd⟩ := List.mem_map.mp hmem
    exact hhanded ⟨call, hcall, hcallfd⟩
  have hqueue : inQueue s.server.queue.contents fd = 0 := by
    apply List.count_eq_zero.mpr
    intro hmem
    obtain ⟨job, hjob, hjobfd⟩ := List.mem_map.mp hmem
    exact hqueued ⟨job, hjob, hjobfd⟩
  have hworkers : holders (working s.server.worker) fd = 0 := by
    rw [holders, Finset.card_eq_zero, Finset.filter_eq_empty_iff]
    exact fun k _ => hserving k
  rw [places, hzero, hqueue, hworkers, inLoop, if_neg hloop, if_pos hfd] at hplaced
  cases hplaced

omit [DecidableEq κ] in
theorem handed_single (hinv : Server.Inv early s.server) (hhanded : Handed fd s) :
    ∃ call, s.server.handed.filter (fun call => call.fd = fd) = [call] := by
  obtain ⟨call, hmem, hfd⟩ := hhanded
  have hpos : 0 < inHanded s.server.handed fd :=
    List.count_pos_iff.mpr (List.mem_map.mpr ⟨call, hmem, hfd⟩)
  have hplaced := hinv.placed fd
  rw [places] at hplaced
  have hone : inHanded s.server.handed fd = 1 := by
    split_ifs at hplaced <;> omega
  apply List.length_eq_one_iff.mp
  rw [← hone, inHanded, List.count, List.countP_map, List.countP_eq_length_filter]
  congr 1

omit [Fintype κ] in
theorem hears_grows {before after : Server.State κ} (hhears : Hears sent early before after) :
    before.handed <+: after.handed ∧ before.accepted ≤ after.accepted := by
  cases hears_step hhears with
  | accept => exact ⟨List.prefix_rfl, Nat.le_succ _⟩
  | unread => exact ⟨List.prefix_append .., le_rfl⟩
  | unparsed => exact ⟨List.prefix_append .., le_rfl⟩
  | refused => exact ⟨List.prefix_append .., le_rfl⟩
  | serve => exact ⟨List.prefix_append .., le_rfl⟩
  | _ => exact ⟨List.prefix_rfl, le_rfl⟩

omit [Fintype κ] in
theorem step_grows (hstep : Step skf settings sent early s t) :
    s.server.handed <+: t.server.handed ∧ s.server.accepted ≤ t.server.accepted := by
  rcases step_server hstep with hsame | hhears
  · rw [hsame]
    exact ⟨List.prefix_rfl, le_rfl⟩
  · exact hears_grows hhears

/-- A connection whose line does not end stays in the hand of the loop. -/
theorem waiting_place (hreached : Reachable skf settings sent early registry s)
    (hfd : fd < s.server.accepted) (hread : receive (sent fd) = .waiting) :
    s.server.loop = .reading fd := by
  have hinv := reachable_valid hreached
  have hheard := hearing_heard (reachable_server hreached)
  rcases accepted_place hinv hfd with ⟨call, hmem, rfl⟩ | ⟨job, hmem, rfl⟩ | ⟨k, hserving⟩ | hloop
  · rcases hheard.handed call hmem with hanswered | ⟨request, hparsed⟩
    · simp [hread] at hanswered
    · simp [hread] at hparsed
  · have hpushed := hheard.pushed job (by rw [hinv.fifo]; exact List.mem_append_right _ hmem)
    simp [hread] at hpushed
  · obtain ⟨job, hphase, rfl⟩ := serving_job hserving
    have hparsed := hheard.serving k job hphase
    simp [hread] at hparsed
  · cases hphase : s.server.loop with
    | reading fd' =>
      rw [hphase, LoopPhase.fd, Option.some.injEq] at hloop
      rw [hloop]
    | pushing job =>
      rw [hphase, LoopPhase.fd, Option.some.injEq] at hloop
      have hparsed := hheard.pushing job hphase
      simp [hloop, hread] at hparsed
    | accepting => simp [hphase, LoopPhase.fd] at hloop
    | left => simp [hphase, LoopPhase.fd] at hloop

omit [Fintype κ] in
theorem waiting_kept (hread : receive (sent fd) = .waiting) (accepted : ℕ)
    (h : s.server.loop = .reading fd ∧ s.server.accepted = accepted)
    (hstep : Step skf settings sent early s t) :
    t.server.loop = .reading fd ∧ t.server.accepted = accepted := by
  cases hstep with
  | loop server hhears hworker =>
    rcases reading_cases hhears hworker h.1 with ⟨hcame, _⟩ | ⟨hloop, haccepted⟩
    · exact absurd hread hcame
    · exact ⟨hloop, haccepted.trans h.2⟩
  | _ => exact h

omit [Fintype κ] in
/-- A worker that has returned does nothing more. -/
theorem returned_unable (hreached : Reachable skf settings sent early registry s)
    (hreturned : s.server.worker k = .returned) :
    ¬Able (Step skf settings sent early) (Works k) s := by
  rintro ⟨t, hstep, hworks⟩
  have htask := (reachable_working hreached).free k (by simp [hreturned])
  have hother {k' : κ} {phase : WorkerPhase} (hk : s.server.worker k' = phase)
      (hphase : phase ≠ .returned) : k ≠ k' := by
    rintro rfl
    exact hphase (hk.symm.trans hreturned)
  cases hstep with
  | loop server hhears hworker => simp [Works, hworker] at hworks
  | pop k' job queue hk hpop =>
    simp [Works, Function.update_of_ne (hother hk (by simp))] at hworks
  | advance k' task world hk hgoes =>
    have hne : k ≠ k' := by
      rintro rfl
      rw [htask] at hk
      cases hk
    simp [Works, Function.update_of_ne hne] at hworks
  | serve k' job rc resp hk hdone =>
    simp [Works, Function.update_of_ne (hother hk (by simp))] at hworks
  | drained k' hk hpop =>
    simp [Works, Function.update_of_ne (hother hk (by simp))] at hworks

end Places

section Runs

variable {κ σ : Type} [Fintype κ] [DecidableEq κ] {skf : SkfAdapter σ}
  {settings : Option GatewaySettings} {sent : ℕ → List ReadResult} {early : Prop}
  {registry : Registry} {run : ℕ → State κ} {n fd : ℕ}

omit [Fintype κ] in
theorem fair_reachable (h : FairRun skf settings sent early registry run) (n : ℕ) :
    Reachable skf settings sent early registry (run n) := by
  have hrun := goes_run h.goes n
  rw [h.start] at hrun
  exact hrun

omit [Fintype κ] in
theorem serving_answered (world : σ) (h : FairRun skf settings sent early registry run) {k : κ}
    (hserving : Serving k fd (run n)) : ∃ m, n ≤ m ∧ Handed fd (run m) :=
  leads_goal (serving_leads world registry k fd) h.goes (h.workers k)
    ⟨fair_reachable h n, hserving⟩

theorem queued_answered [Nonempty κ] (world : σ)
    (h : FairRun skf settings sent early registry run) (hqueued : Queued fd (run n)) :
    ∃ m, n ≤ m ∧ Handed fd (run m) := by
  obtain ⟨m, hm, k', hserving⟩ :=
    leads_goal (queued_leads world registry (Classical.arbitrary κ) fd) h.goes (h.workers _)
      ⟨fair_reachable h n, hqueued⟩
  obtain ⟨m', hm', hhanded⟩ := serving_answered world h hserving
  exact ⟨m', hm.trans hm', hhanded⟩

theorem room_answered [Nonempty κ] (world : σ)
    (h : FairRun skf settings sent early registry run) (hroom : Pushing False fd (run n)) :
    ∃ m, n ≤ m ∧ Handed fd (run m) := by
  obtain ⟨m, hm, hqueued | hhanded⟩ :=
    leads_goal (room_leads registry fd) h.goes h.loop ⟨fair_reachable h n, hroom⟩
  · obtain ⟨m', hm', hhanded⟩ := queued_answered world h hqueued
    exact ⟨m', hm.trans hm', hhanded⟩
  · exact ⟨m, hm, hhanded⟩

theorem pushing_answered [Nonempty κ] (world : σ)
    (h : FairRun skf settings sent early registry run) {job : Job}
    (hloop : (run n).server.loop = .pushing job) : ∃ m, n ≤ m ∧ Handed job.clientFd (run m) := by
  by_cases hwaits : queuePush (run n).server.queue job = .waits
  · obtain ⟨m, hm, hroom⟩ :=
      leads_goal (full_leads world registry (Classical.arbitrary κ) job.clientFd) h.goes
        (h.workers _) ⟨fair_reachable h n, job, hloop, rfl, by simp [hwaits]⟩
    obtain ⟨m', hm', hhanded⟩ := room_answered world h hroom
    exact ⟨m', hm.trans hm', hhanded⟩
  · exact room_answered world h ⟨job, hloop, rfl, by simp [hwaits]⟩

theorem reading_answered [Nonempty κ] (world : σ)
    (h : FairRun skf settings sent early registry run) (hread : receive (sent fd) ≠ .waiting)
    (hloop : (run n).server.loop = .reading fd) : ∃ m, n ≤ m ∧ Handed fd (run m) := by
  obtain ⟨m, hm, hhanded | ⟨job, hpushing, rfl⟩⟩ :=
    leads_goal (reading_leads hread) h.goes h.loop hloop
  · exact ⟨m, hm, hhanded⟩
  · obtain ⟨m', hm', hhanded⟩ := pushing_answered world h hpushing
    exact ⟨m', hm.trans hm', hhanded⟩

theorem accepted_answered [Nonempty κ] (world : σ)
    (h : FairRun skf settings sent early registry run) (hread : receive (sent fd) ≠ .waiting)
    (hfd : fd < (run n).server.accepted) : ∃ m, n ≤ m ∧ Handed fd (run m) := by
  rcases accepted_place (reachable_valid (fair_reachable h n)) hfd with
    hhanded | hqueued | ⟨k, hserving⟩ | hloop
  · exact ⟨n, le_rfl, hhanded⟩
  · exact queued_answered world h hqueued
  · exact serving_answered world h hserving
  · cases hphase : (run n).server.loop with
    | reading fd' =>
      rw [hphase, LoopPhase.fd, Option.some.injEq] at hloop
      exact reading_answered world h hread (hloop ▸ hphase)
    | pushing job =>
      rw [hphase, LoopPhase.fd, Option.some.injEq] at hloop
      exact hloop ▸ pushing_answered world h hphase
    | accepting => simp [hphase, LoopPhase.fd] at hloop
    | left => simp [hphase, LoopPhase.fd] at hloop

/-- What comes of an accepted connection. Once its line has come it is answered,
in one call that is its own; until then the loop reads it and accepts no other. -/
structure Attended (skf : SkfAdapter σ) (settings : Option GatewaySettings) (registry : Registry)
    (sent : ℕ → List ReadResult) (run : ℕ → State κ) (n fd : ℕ) : Prop where
  answered : receive (sent fd) ≠ .waiting → ∃ m call, n ≤ m ∧
    Own skf settings registry sent call ∧
      ∀ m', m ≤ m' → (run m').server.handed.filter (fun call => call.fd = fd) = [call]
  blocked : receive (sent fd) = .waiting → ∀ m, n ≤ m →
    (run m).server.loop = .reading fd ∧ (run m).server.accepted = (run n).server.accepted

/-- In every fair run every connection whose line comes is answered. -/
theorem fair_attended [Nonempty κ] (world : σ)
    (h : FairRun skf settings sent early registry run) (hfd : fd < (run n).server.accepted) :
    Attended skf settings registry sent run n fd := by
  constructor
  · intro hread
    obtain ⟨m, hm, hhanded⟩ := accepted_answered world h hread hfd
    have hinv (m : ℕ) := reachable_valid (fair_reachable h m)
    obtain ⟨call, hcall⟩ := handed_single (hinv m) hhanded
    have hmem : call ∈ (run m).server.handed :=
      (List.mem_filter.mp (hcall ▸ List.mem_singleton_self call)).1
    refine ⟨m, call, hm, reachable_own (fair_reachable h m) call hmem, fun m' hm' => ?_⟩
    have hprefix : (run m).server.handed <+: (run m').server.handed := by
      refine kept_on (P := fun s => (run m).server.handed <+: s.server.handed) ?_ h.goes
        List.prefix_rfl hm'
      exact fun s t hs hstep => hs.trans (step_grows hstep).1
    have hstill : Handed fd (run m') := by
      obtain ⟨call', hmem', hfd'⟩ := hhanded
      exact ⟨call', hprefix.subset hmem', hfd'⟩
    obtain ⟨call', hcall'⟩ := handed_single (hinv m') hstill
    have hsame := hprefix.filter fun call => call.fd = fd
    rw [hcall, hcall'] at hsame
    rw [hcall', ← hsame.eq_of_length rfl]
  · intro hread m hm
    refine kept_on (P := fun s => s.server.loop = .reading fd ∧
      s.server.accepted = (run n).server.accepted) ?_ h.goes
      ⟨waiting_place (fair_reachable h n) hfd hread, rfl⟩ hm
    exact fun s t hs hstep => waiting_kept hread _ hs hstep

/-- The first connection of two workers comes with its line and is answered. -/
theorem sample_attended : ∃ run : ℕ → State (Fin 2),
    FairRun absentToken none (fun _ => sampleReads) False sampleRegistry run ∧
      ∃ n, 0 < (run n).server.accepted ∧
        Attended absentToken none sampleRegistry (fun _ => sampleReads) run n 0 := by
  obtain ⟨s, hqueued, _, hfirst⟩ := sample_stopping
  obtain ⟨t, hrest, hstopping, hreturned⟩ := Draining.drains_final
    (gateway_drains (κ := Fin 2) absentToken none (fun _ => sampleReads) False sampleRegistry ())
    hqueued
  have hkept : ∀ s t : State (Fin 2), 0 < s.server.accepted →
      Step absentToken none (fun _ => sampleReads) False s t → 0 < t.server.accepted :=
    fun _ _ hs hstep => hs.trans_le (step_grows hstep).2
  have haccepted := run_invariant hkept hfirst hrest
  obtain ⟨run, hstart, hgoes, n, hrests⟩ := rests_run (hqueued.reached.trans hrest)
  have hfair : FairRun absentToken none (fun _ => sampleReads) False sampleRegistry run := by
    refine ⟨hstart, hgoes, ?_, ?_⟩
    · intro k n' hable
      have hlast := hable (max n n') (le_max_right ..)
      rw [hrests _ (le_max_left ..)] at hlast
      exact absurd hlast (returned_unable hstopping.reached (hreturned k))
    · intro n' hable
      obtain ⟨_, _, hholds, _⟩ := hable (max n n') (le_max_right ..)
      rw [hrests _ (le_max_left ..), hstopping.left] at hholds
      exact absurd rfl hholds
  refine ⟨run, hfair, n, ?_, fair_attended () hfair ?_⟩
  · rw [hrests n le_rfl]
    exact haccepted
  · rw [hrests n le_rfl]
    exact haccepted

end Runs

end Ucisdk.Liveness
