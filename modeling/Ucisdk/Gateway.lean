import Mathlib.Data.Fintype.Card
import Ucisdk.Connection
import Ucisdk.Failures
import Ucisdk.Inflight
import Ucisdk.Tasks

/-!
# The gateway as a whole

The accept loop, the queue and the workers over one registry. Every worker
carries the job it popped through the scheduler step by step, and the workers
take turns in any order, for as many connections as there come. The counters
of the devices are exact at every moment, and every answer is one of the
request that its connection sent.
-/

set_option autoImplicit false

namespace Ucisdk.Gateway

open Ucisdk.CString Ucisdk.Common Ucisdk.Protocol Ucisdk.Queue Ucisdk.Resource Ucisdk.Translator
open Ucisdk.Driver Ucisdk.Scheduler Ucisdk.StepCalls Ucisdk.SequenceRun Ucisdk.Server
open Ucisdk.Connection Ucisdk.Tasks
open Flow Flow.Leases Relation

/-- The threads, the registry they share and the call that each worker is in. -/
structure State (κ : Type) where
  server : Server.State κ
  registry : Registry
  task : κ → Option Task

def begin (κ : Type) (registry : Registry) : State κ :=
  ⟨Server.start κ, registry, fun _ => none⟩

def Finished (task : Task) : Prop := ∃ rc resp, task = .done rc resp

section Steps

variable {κ σ : Type} [DecidableEq κ] (skf : SkfAdapter σ) (settings : Option GatewaySettings)
  (sent : ℕ → List ReadResult) (early : Prop)

/-- A step of the accept loop, or of a worker: it takes a job, goes on with its
call, hands the response over or returns. The world of a dispatch is
arbitrary. -/
inductive Step : State κ → State κ → Prop
  | loop {s : State κ} (server : Server.State κ) (h : Hears sent early s.server server)
      (hworker : server.worker = s.server.worker) : Step s { s with server := server }
  | pop {s : State κ} (k : κ) (job : Job) (queue : JobQueue) (h : s.server.worker k = .popping)
      (hpop : queuePop s.server.queue = .taken job queue) :
      Step s ⟨{ s.server with
          queue := queue
          worker := Function.update s.server.worker k (.serving job)
          popped := s.server.popped ++ [job] },
        s.registry, Function.update s.task k (some (taskOf settings job.request))⟩
  | advance {s : State κ} (k : κ) (task : Task) (world : σ) (h : s.task k = some task)
      (hgoes : ¬Finished task) :
      Step s ⟨s.server, (advance skf s.registry world task).registry,
        Function.update s.task k (some (advance skf s.registry world task).task)⟩
  | serve {s : State κ} (k : κ) (job : Job) (rc : ℤ) (resp : Response)
      (h : s.server.worker k = .serving job) (htask : s.task k = some (.done rc resp)) :
      Step s ⟨{ s.server with
          worker := Function.update s.server.worker k .popping
          handed := s.server.handed ++ [⟨some k, job.clientFd, resp⟩] },
        s.registry, Function.update s.task k none⟩
  | drained {s : State κ} (k : κ) (h : s.server.worker k = .popping)
      (hpop : queuePop s.server.queue = .stopped) :
      Step s ⟨{ s.server with worker := Function.update s.server.worker k .returned },
        s.registry, s.task⟩

def Reachable (registry : Registry) (s : State κ) : Prop :=
  ReflTransGen (Step skf settings sent early) (begin κ registry) s

end Steps

section Server

variable {κ σ : Type} [DecidableEq κ] {skf : SkfAdapter σ} {settings : Option GatewaySettings}
  {sent : ℕ → List ReadResult} {early : Prop} {registry : Registry} {s t : State κ}

/-- The threads at the queue take a step of their own, or none. -/
theorem step_server (h : Step skf settings sent early s t) :
    t.server = s.server ∨ Hears sent early s.server t.server := by
  cases h with
  | loop server h hworker => exact .inr h
  | pop k job queue h hpop => exact .inr (.other (.pop k job queue h hpop) (fun _ hfd => hfd))
  | advance k task world h hgoes => exact .inl rfl
  | serve k job rc resp h htask =>
    exact .inr (.other (.serve k job resp h) (fun _ hfd => hfd))
  | drained k h hpop => exact .inr (.other (.drained k h hpop) (fun _ hfd => hfd))

theorem reachable_server (h : Reachable skf settings sent early registry s) :
    HearingRun sent early s.server := by
  induction h with
  | refl => exact .refl
  | tail _ hstep ih =>
    rcases step_server hstep with hsame | hhears
    · rw [hsame]
      exact ih
    · exact ih.tail hhears

end Server

section Counters

variable {κ σ : Type} {skf : SkfAdapter σ} {registry : Registry} {s : State κ}

def slotOf (task : Option Task) : Option ℕ := task.bind Task.slot

def phaseOf (slot : Option ℕ) : Inflight.Phase :=
  match slot with
  | none => .pending
  | some slot => .holding slot

theorem phaseOf_slot (slot : Option ℕ) : (phaseOf slot).slot = slot := by
  cases slot with
  | none => rfl
  | some slot => rfl

/-- The workers as callers of the registry. -/
def leased (registry : Registry) (task : κ → Option Task) : Inflight.State κ :=
  ⟨registry, fun k => phaseOf (slotOf (task k))⟩

theorem leased_held (registry : Registry) (task : κ → Option Task) :
    (leased registry task).held = fun k => slotOf (task k) := by
  funext k
  exact phaseOf_slot _

variable [Fintype κ]

theorem inv_held {u v : Inflight.State κ} (h : Inflight.Inv registry u)
    (hregistry : v.registry = u.registry) (hheld : v.held = u.held) : Inflight.Inv registry v := by
  constructor
  · rw [hregistry, hheld]
    exact h.counted
  · rw [hheld]
    exact h.limited

variable [DecidableEq κ]

omit [Fintype κ] in
theorem leased_update (before after : Registry) (task : κ → Option Task) (k : κ)
    (next : Option Task) :
    (leased after (Function.update task k next)).held =
      Function.update (leased before task).held k (slotOf next) := by
  rw [leased_held, leased_held]
  funext k'
  by_cases hk : k' = k
  · rw [hk, Function.update_self, Function.update_self]
  · rw [Function.update_of_ne hk, Function.update_of_ne hk]

/-- A worker whose slot stays as it is. -/
theorem counted_stays {task : κ → Option Task} {registry' : Registry}
    (h : Inflight.Inv registry (leased registry' task)) {k : κ} {next : Option Task}
    (hslot : slotOf next = slotOf (task k)) :
    Inflight.Inv registry (leased registry' (Function.update task k next)) := by
  refine inv_held h rfl ?_
  have hsame : Function.update (leased registry' task).held k (slotOf (task k)) =
      (leased registry' task).held := by
    rw [leased_held]
    exact Function.update_eq_self k _
  rw [leased_update registry' registry', hslot, hsame]

/-- A step of a call counts the slot it takes and the slot it gives back. -/
theorem counted_advance (hids : (registry.devices.map fun d => d.deviceId.bytes).Nodup)
    {task : κ → Option Task} {registry' : Registry}
    (h : Inflight.Inv registry (leased registry' task)) {k : κ} {now : Task}
    (hk : task k = some now) (world : σ) :
    Inflight.Inv registry (leased (advance skf registry' world now).registry
      (Function.update task k (some (advance skf registry' world now).task))) := by
  have hheld : (leased registry' task).held k = now.slot := by
    rw [leased_held]
    show slotOf (task k) = _
    rw [hk]
    rfl
  have hstays {next : Task} (hslot : slotOf (some next) = now.slot) :
      Inflight.Inv registry (leased registry' (Function.update task k (some next))) := by
    apply counted_stays h
    rw [hk]
    exact hslot
  cases now with
  | stepping call after =>
    rw [advance]
    cases ha : call.acquire registry' with
    | none => exact hstays (next_slot _ _ _)
    | some acquired =>
      have hinv := @Inflight.inv_acquire κ (fun _ => call) registry _ _ _ h k acquired hheld ha
      refine inv_held hinv rfl ?_
      rw [Inflight.held_update]
      exact leased_update registry' _ task k _
  | holding call after slot =>
    rw [advance]
    cases hd : registry'.devices[slot]? with
    | none => exact hstays rfl
    | some device =>
      cases ht : call.translate device with
      | error errbuf =>
        simp only [ht]
        exact hstays rfl
      | ok translated =>
        simp only [ht]
        exact hstays rfl
  | leaving call after slot outcome =>
    rw [advance]
    cases hd : registry'.devices[slot]? with
    | none => exact hstays rfl
    | some device =>
      have hinv : Inflight.Inv registry
          ⟨_, Function.update (leased registry' task).phase k (.returned outcome)⟩ :=
        Inflight.inv_release hids h hheld hd
      refine inv_held hinv rfl ?_
      rw [Inflight.held_update]
      refine (leased_update registry' _ task k _).trans ?_
      rw [slotOf, Option.bind_some, next_slot]
      rfl
  | done rc resp =>
    rw [advance]
    exact hstays rfl

omit [DecidableEq κ] in
theorem counted_begin (hzero : ∀ d ∈ registry.devices, d.inflight = 0) :
    Inflight.Inv registry (leased registry fun _ : κ => none) := by
  refine inv_held (Inflight.inv_start hzero) rfl ?_
  rw [leased_held]
  rfl

variable {settings : Option GatewaySettings} {sent : ℕ → List ReadResult} {early : Prop}

/-- A worker that takes a job or hands a response over holds no slot. -/
theorem counted_step (hids : (registry.devices.map fun d => d.deviceId.bytes).Nodup)
    {t : State κ} (h : Inflight.Inv registry (leased s.registry s.task))
    (hidle : ∀ k, s.server.worker k = .popping → slotOf (s.task k) = none)
    (hstep : Step skf settings sent early s t) :
    Inflight.Inv registry (leased t.registry t.task) := by
  cases hstep with
  | loop server _ _ => exact h
  | pop k job queue hk _ =>
    apply counted_stays h
    rw [hidle k hk]
    exact taskOf_slot settings job.request
  | advance k task world hk _ => exact counted_advance hids h hk world
  | serve k job rc resp _ htask =>
    apply counted_stays h
    rw [htask]
    rfl
  | drained k _ _ => exact h

end Counters

section Workers

variable {κ σ : Type} {skf : SkfAdapter σ} {settings : Option GatewaySettings}
  {sent : ℕ → List ReadResult} {early : Prop} {registry : Registry} {s t : State κ}

theorem advance_idle (now : Registry) (world : σ) (task : Task) :
    (advance skf now world task).registry.devices.map idle = now.devices.map idle := by
  cases task with
  | stepping call after =>
    rw [advance]
    cases ha : call.acquire now with
    | none => rfl
    | some acquired => exact acquired_idle ha
  | holding call after slot =>
    rw [advance]
    cases hd : now.devices[slot]? with
    | none => rfl
    | some device =>
      cases ht : call.translate device with
      | error errbuf => simp only [ht]
      | ok translated => simp only [ht]
  | leaving call after slot outcome =>
    rw [advance]
    cases hd : now.devices[slot]? with
    | none => rfl
    | some device => exact releaseFirst_idle _ now.devices
  | done rc resp => rfl

/-- Where the call for a request may have come to, on registries that differ
from the loaded one in their counters only. -/
inductive Worked (skf : SkfAdapter σ) (settings : Option GatewaySettings) (registry : Registry)
    (req : Request) : Task → Prop
  | start : Worked skf settings registry req (taskOf settings req)
  | advance {task : Task} (h : Worked skf settings registry req task) (now : Registry) (world : σ)
      (hsame : now.devices.map idle = registry.devices.map idle) :
      Worked skf settings registry req (advance skf now world task).task

/-- A worker that serves a job is in the call for its request. -/
structure Working (skf : SkfAdapter σ) (settings : Option GatewaySettings) (registry : Registry)
    (s : State κ) : Prop where
  same : s.registry.devices.map idle = registry.devices.map idle
  free : ∀ k, (∀ job, s.server.worker k ≠ .serving job) → s.task k = none
  serving : ∀ k job, s.server.worker k = .serving job →
    ∃ task, s.task k = some task ∧ Worked skf settings registry job.request task

theorem working_begin : Working skf settings registry (begin κ registry) := by
  constructor
  · rfl
  · intro k _
    rfl
  · intro k job hk
    simp [begin, start] at hk

variable [DecidableEq κ]

/-- One worker moves on, and the others are where they were. -/
theorem working_update (h : Working skf settings registry s) {server : Server.State κ}
    {registry' : Registry} (hsame : registry'.devices.map idle = registry.devices.map idle) {k : κ}
    {phase : WorkerPhase} (hworker : server.worker = Function.update s.server.worker k phase)
    {next : Option Task} (hfree : (∀ job, phase ≠ .serving job) → next = none)
    (hserving : ∀ job, phase = .serving job →
      ∃ task, next = some task ∧ Worked skf settings registry job.request task) :
    Working skf settings registry ⟨server, registry', Function.update s.task k next⟩ := by
  refine ⟨hsame, ?_, ?_⟩
  · intro k' hk'
    rw [hworker] at hk'
    by_cases hkk : k' = k
    · simp only [hkk, Function.update_self] at hk' ⊢
      exact hfree hk'
    · simp only [Function.update_of_ne hkk] at hk' ⊢
      exact h.free k' hk'
  · intro k' job hk'
    rw [hworker] at hk'
    by_cases hkk : k' = k
    · simp only [hkk, Function.update_self] at hk' ⊢
      exact hserving job hk'
    · simp only [Function.update_of_ne hkk] at hk' ⊢
      exact h.serving k' job hk'

theorem working_step (h : Working skf settings registry s)
    (hstep : Step skf settings sent early s t) : Working skf settings registry t := by
  cases hstep with
  | loop server hhears hworker =>
    refine ⟨h.same, ?_, ?_⟩
    · intro k hk
      rw [hworker] at hk
      exact h.free k hk
    · intro k job hk
      rw [hworker] at hk
      exact h.serving k job hk
  | pop k job queue hk hpop =>
    refine working_update h h.same rfl ?_ ?_
    · intro hnot
      exact absurd rfl (hnot job)
    · intro job' hjob
      rw [WorkerPhase.serving.injEq] at hjob
      exact ⟨_, rfl, hjob ▸ .start⟩
  | advance k task world hk hgoes =>
    refine working_update h ((advance_idle s.registry world task).trans h.same)
      (Function.update_eq_self k s.server.worker).symm ?_ ?_
    · intro hnot
      rw [h.free k hnot] at hk
      cases hk
    · intro job hjob
      obtain ⟨task', htask, hworked⟩ := h.serving k job hjob
      rw [hk, Option.some.injEq] at htask
      subst htask
      exact ⟨_, rfl, hworked.advance s.registry world h.same⟩
  | serve k job rc resp hk htask =>
    refine working_update h h.same rfl (fun _ => rfl) ?_
    intro job' hjob
    cases hjob
  | drained k hk hpop =>
    have hnone : s.task = Function.update s.task k none := by
      rw [← h.free k (by simp [hk]), Function.update_eq_self]
    rw [hnone]
    refine working_update h h.same rfl (fun _ => rfl) ?_
    intro job hjob
    cases hjob

theorem reachable_working (h : Reachable skf settings sent early registry s) :
    Working skf settings registry s := by
  induction h with
  | refl => exact working_begin
  | tail _ hstep ih => exact working_step ih hstep

end Workers

section Runs

variable {κ σ : Type} [DecidableEq κ] {skf : SkfAdapter σ} {settings : Option GatewaySettings}
  {sent : ℕ → List ReadResult} {early : Prop}

/-- A worker carries its call on while the others rest. -/
theorem carried_on {u v : Stand σ} (h : ReflTransGen (Alone skf) u v) (server : Server.State κ)
    (others : κ → Option Task) (k : κ) :
    ReflTransGen (Step skf settings sent early)
      ⟨server, u.registry, Function.update others k (some u.task)⟩
      ⟨server, v.registry, Function.update others k (some v.task)⟩ := by
  induction h with
  | refl => exact .refl
  | @tail v w hrun hstep ih =>
    rw [Alone] at hstep
    subst hstep
    by_cases hdone : Finished v.task
    · obtain ⟨rc, resp, hdone⟩ := hdone
      rw [hdone] at ih ⊢
      exact ih
    · have hgoes : Step skf settings sent early
          ⟨server, v.registry, Function.update others k (some v.task)⟩ _ :=
        .advance k v.task v.world (Function.update_self ..) hdone
      rw [Function.update_idem] at hgoes
      exact ih.tail hgoes

/-- A worker takes the request of the first connection. -/
theorem taken_run (skf : SkfAdapter σ) (settings : Option GatewaySettings) (early : Prop)
    (registry : Registry) (k : κ) {reads : List ReadResult} {request : Request}
    (hread : receive reads = .parsed request) :
    ∃ server : Server.State κ, server.worker k = .serving ⟨0, request⟩ ∧ server.handed = [] ∧
      Reachable skf settings (fun _ => reads) early registry ⟨server, registry,
        Function.update (fun _ => none) k (some (taskOf settings request))⟩ := by
  have hqueued := (((ReflTransGen.refl (r := Step skf settings (fun _ => reads) early)
    (a := begin κ registry)).tail (.loop _ (.other (.accept rfl) (by simp [begin, start]))
      rfl)).tail (.loop _ (.parsed 0 request rfl hread) rfl)).tail
    (.loop _ (.other (.push ⟨0, request⟩ _ rfl rfl) (by simp)) rfl)
  have htaken := hqueued.tail (.pop k ⟨0, request⟩ _ rfl rfl)
  exact ⟨_, Function.update_self .., rfl, htaken⟩

/-- One worker answers the first connection as the scheduler does. -/
theorem served_run (skf : SkfAdapter σ) (settings : Option GatewaySettings) (early : Prop)
    (registry : Registry) (world : σ) (k : κ) {reads : List ReadResult} {request : Request}
    (hread : receive reads = .parsed request) :
    ∃ s : State κ, Reachable skf settings (fun _ => reads) early registry s ∧
      s.server.handed = [⟨some k, 0, (schedulerExecute skf settings registry request world).resp⟩] ∧
      s.registry = (schedulerExecute skf settings registry request world).registry := by
  obtain ⟨server, hserving, hnone, htaken⟩ :=
    taken_run skf settings early registry k hread
  have hcarried := htaken.trans (carried_on (task_alone skf settings registry request world) _ _ k)
  have hserved := hcarried.tail (.serve k ⟨0, request⟩ _ _ hserving
    (Function.update_self k (some _) fun _ => none))
  refine ⟨_, hserved, ?_, rfl⟩
  simp only [hnone, List.nil_append]

def sampleReads : List ReadResult :=
  (signTwiceLine (lit "hello")).map .byte ++ [.byte newline]

theorem sample_received : receive sampleReads = .parsed (signTwice (lit "hello")) := by
  have hdelivers : Delivers sampleReads (signTwiceLine (lit "hello")) :=
    delivers_bytes (by decide) []
  have hseen : seen (signTwiceLine (lit "hello")) = signTwiceLine (lit "hello") :=
    (seen_eq_iff _).mpr (by decide +kernel)
  rw [receive_parsed_iff hdelivers, hseen]
  decide

end Runs

section Counted

variable {κ σ : Type} [Fintype κ] [DecidableEq κ] {skf : SkfAdapter σ}
  {settings : Option GatewaySettings} {sent : ℕ → List ReadResult} {early : Prop}
  {registry : Registry} {s : State κ}

theorem reachable_counted (hids : (registry.devices.map fun d => d.deviceId.bytes).Nodup)
    (hzero : ∀ d ∈ registry.devices, d.inflight = 0)
    (h : Reachable skf settings sent early registry s) :
    Inflight.Inv registry (leased s.registry s.task) := by
  induction h with
  | refl => exact counted_begin hzero
  | tail hrun hstep ih =>
    apply counted_step hids ih ?_ hstep
    intro k hk
    rw [(reachable_working hrun).free k (by simp [hk])]
    rfl

theorem idle_self {devices : List DeviceResource} (h : ∀ d ∈ devices, d.inflight = 0) :
    devices.map idle = devices := by
  have hsame : devices.map idle = devices.map id := by
    apply List.map_congr_left
    intro d hd
    rw [idle, ← h d hd]
    rfl
  rw [hsame, List.map_id]

theorem registry_ext {before after : Registry} (h : before.devices = after.devices) :
    before = after := by
  obtain ⟨devices, _⟩ := before
  obtain ⟨devices', _⟩ := after
  rw [Registry.mk.injEq]
  exact h

/-- Where nothing is served, every counter is where it was at the start. -/
theorem settled_registry (hids : (registry.devices.map fun d => d.deviceId.bytes).Nodup)
    (hzero : ∀ d ∈ registry.devices, d.inflight = 0)
    (h : Reachable skf settings sent early registry s)
    (hidle : ∀ k job, s.server.worker k ≠ .serving job) : s.registry = registry := by
  have hworking := reachable_working h
  have hnone : ∀ k, (leased s.registry s.task).held k = none := by
    intro k
    rw [leased_held]
    show slotOf (s.task k) = none
    rw [hworking.free k (hidle k)]
    rfl
  have hidle' : ∀ d ∈ s.registry.devices, d.inflight = 0 := by
    intro d hd
    obtain ⟨i, hi⟩ := List.mem_iff_getElem?.mp hd
    obtain ⟨d₀, _, rfl⟩ := (reachable_counted hids hzero h).slot hi
    simp only [holders_idle _ hnone]
    rfl
  apply registry_ext
  rw [← idle_self hidle', hworking.same, idle_self hzero]

/-- A device differs from the loaded one in its counter, which is exact. -/
theorem reachable_slot (hids : (registry.devices.map fun d => d.deviceId.bytes).Nodup)
    (hzero : ∀ d ∈ registry.devices, d.inflight = 0)
    (h : Reachable skf settings sent early registry s) {i : ℕ} {d : DeviceResource}
    (hd : s.registry.devices[i]? = some d) :
    ∃ d₀, registry.devices[i]? = some d₀ ∧
      d = { d₀ with inflight := (holders (fun k => slotOf (s.task k)) i : ℤ) } := by
  have hheld : (leased s.registry s.task).held = fun k => slotOf (s.task k) := leased_held _ _
  rw [← hheld]
  exact (reachable_counted hids hzero h).slot hd

theorem slot_counted (hids : (registry.devices.map fun d => d.deviceId.bytes).Nodup)
    (hzero : ∀ d ∈ registry.devices, d.inflight = 0)
    (h : Reachable skf settings sent early registry s) {i : ℕ} {d : DeviceResource}
    (hd : s.registry.devices[i]? = some d) :
    d.inflight = (holders (fun k => slotOf (s.task k)) i : ℤ) := by
  obtain ⟨d₀, _, rfl⟩ := reachable_slot hids hzero h hd
  rfl

theorem device_limited (hids : (registry.devices.map fun d => d.deviceId.bytes).Nodup)
    (hzero : ∀ d ∈ registry.devices, d.inflight = 0)
    (h : Reachable skf settings sent early registry s) {d : DeviceResource}
    (hd : d ∈ s.registry.devices) :
    0 ≤ d.inflight ∧ (0 < d.inflight → d.inflight ≤ d.maxInflight) := by
  have hheld : (leased s.registry s.task).held = fun k => slotOf (s.task k) := leased_held _ _
  obtain ⟨i, hi⟩ := List.mem_iff_getElem?.mp hd
  obtain ⟨d₀, h₀, rfl⟩ := reachable_slot hids hzero h hi
  refine ⟨Int.natCast_nonneg _, fun hpos => ?_⟩
  rw [← hheld] at hpos ⊢
  exact (reachable_counted hids hzero h).limited i d₀ h₀ (Int.natCast_pos.mp hpos)

theorem device_workers (hids : (registry.devices.map fun d => d.deviceId.bytes).Nodup)
    (hzero : ∀ d ∈ registry.devices, d.inflight = 0)
    (h : Reachable skf settings sent early registry s) {d : DeviceResource}
    (hd : d ∈ s.registry.devices) : d.inflight ≤ Fintype.card κ := by
  obtain ⟨i, hi⟩ := List.mem_iff_getElem?.mp hd
  rw [slot_counted hids hzero h hi]
  exact Int.ofNat_le.mpr (Finset.card_le_univ _)

/-- What the counters of the devices say while the gateway runs. -/
structure CountersExact (registry : Registry) (s : State κ) : Prop where
  counted : ∀ i d, s.registry.devices[i]? = some d →
    d.inflight = (holders (fun k => slotOf (s.task k)) i : ℤ)
  limited : ∀ d ∈ s.registry.devices, 0 ≤ d.inflight ∧ (0 < d.inflight → d.inflight ≤ d.maxInflight)
  workers : ∀ d ∈ s.registry.devices, d.inflight ≤ Fintype.card κ
  settled : (∀ k job, s.server.worker k ≠ .serving job) → s.registry = registry

end Counted

end Ucisdk.Gateway
