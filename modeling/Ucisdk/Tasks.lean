import Mathlib.Logic.Relation
import Ucisdk.SequenceRun

/-!
# A call of the scheduler in steps

A worker that runs `scheduler_execute` touches the registry twice for every
step of the request, where it acquires a slot and where it releases it; other
workers may do the same in between. A task is where such a call stands. It goes
on by one step at a time, and left alone it ends as the call itself does.
-/

set_option autoImplicit false

namespace Ucisdk.Tasks

open Ucisdk.CString Ucisdk.Common Ucisdk.Resource Ucisdk.Translator Ucisdk.Driver
open Ucisdk.Scheduler Ucisdk.StepCalls Ucisdk.SequenceRun
open Relation

/-- What comes behind a step: the end of a plain request, or the steps of a
sequence that are left, with the response as it was joined so far. -/
inductive After where
  | plain
  | sequence (steps : List SequenceStep) (resp : Response)

inductive Task where
  | stepping (call : StepCall) (after : After)
  | holding (call : StepCall) (after : After) (slot : ℕ)
  | leaving (call : StepCall) (after : After) (slot : ℕ) (outcome : Outcome)
  | done (rc : ℤ) (resp : Response)

/-- The slot that the task has acquired and not released yet. -/
def Task.slot : Task → Option ℕ
  | .stepping _ _ => none
  | .holding _ _ slot => some slot
  | .leaving _ _ slot _ => some slot
  | .done _ _ => none

/-- The checks in front of the first step. -/
def taskOf (settings : Option GatewaySettings) (req : Request) : Task :=
  let resp : Response := { Response.zero with requestId := store maxIdLen req.requestId.bytes }
  match validateGatewayPin settings req with
  | .answered resp => .done 0 resp
  | .refused resp => .done (-1) resp
  | .proceed =>
    if req.sequence.bytes ≠ [] then
      match parseSequence req with
      | .error errbuf => .done (-1) (buildErrorResponse req .badRequest (some errbuf))
      | .ok [] => .done 0 resp
      | .ok (step :: steps) =>
        .stepping (stepCall req step (store maxResponseLen req.payload.bytes).bytes Response.zero)
          (.sequence steps resp)
    else .stepping (stepCall req (plainStep req) req.payload.bytes resp) .plain

/-- What follows on a step that ended. -/
def next (req : Request) : After → Outcome → Task
  | .plain, .error errbuf => .done (-1) (buildErrorResponse req .noResource errbuf)
  | .plain, .ok resp => .done 0 { resp with trace := plainTrace resp, status := .ok }
  | .sequence _ _, .error errbuf => .done (-1) (buildErrorResponse req .backendFail errbuf)
  | .sequence steps resp, .ok stepResp =>
    let currentPayload := store maxResponseLen stepResp.result.bytes
    let resp := joinStepResponse resp stepResp
    match steps with
    | [] =>
      .done 0 { resp with
        result := store maxResponseLen currentPayload.bytes
        status := .ok }
    | step :: steps =>
      .stepping (stepCall req step currentPayload.bytes Response.zero) (.sequence steps resp)

theorem taskOf_slot (settings : Option GatewaySettings) (req : Request) :
    (taskOf settings req).slot = none := by
  rw [taskOf]
  split
  · rfl
  · rfl
  · split
    · split <;> rfl
    · rfl

theorem next_slot (req : Request) (after : After) (outcome : Outcome) :
    (next req after outcome).slot = none := by
  cases after with
  | plain => cases outcome <;> rfl
  | sequence steps resp =>
    cases outcome with
    | error errbuf => rfl
    | ok stepResp => cases steps <;> rfl

section Advance

variable {σ : Type} (skf : SkfAdapter σ)

structure Stand (σ : Type) where
  registry : Registry
  world : σ
  task : Task

/-- One step of a task, on the registry and the world it finds. The slot is a
pointer into the registry, which keeps its devices. -/
def advance (registry : Registry) (world : σ) : Task → Stand σ
  | .stepping call after =>
    match call.acquire registry with
    | none => ⟨registry, world, next call.req after (call.run skf registry world).outcome⟩
    | some acquired => ⟨acquired.registry, world, .holding call after acquired.slot⟩
  | .holding call after slot =>
    match registry.devices[slot]? with
    | none => ⟨registry, world, .holding call after slot⟩
    | some device =>
      match call.translate device with
      | .error errbuf => ⟨registry, world, .leaving call after slot (.error (some errbuf))⟩
      | .ok translated =>
        let dispatched := call.dispatch skf world device translated
        ⟨registry, dispatched.world, .leaving call after slot dispatched.outcome⟩
  | .leaving call after slot outcome =>
    match registry.devices[slot]? with
    | none => ⟨registry, world, .leaving call after slot outcome⟩
    | some device =>
      ⟨registryRelease registry device.deviceId.bytes, world, next call.req after outcome⟩
  | .done rc resp => ⟨registry, world, .done rc resp⟩

/-- The steps of a task that nobody interrupts. -/
def Alone (s t : Stand σ) : Prop := t = advance skf s.registry s.world s.task

end Advance

section Sequential

variable {σ : Type} {skf : SkfAdapter σ}

theorem slot_acquired {call : StepCall} {registry : Registry} {acquired : Acquired}
    (h : call.acquire registry = some acquired) :
    acquired.registry.devices[acquired.slot]? = some acquired.device := by
  obtain ⟨hint, d, _, hd⟩ := StepCall.acquire_grants h
  have hlt := (List.getElem?_eq_some_iff.mp hd.slot).1
  rw [hd.devices, List.getElem?_set_self hlt]

/-- A step of a task left alone is a call of `execute_single_step`. -/
theorem step_alone (skf : SkfAdapter σ) (call : StepCall) (after : After) (registry : Registry)
    (world : σ) :
    ReflTransGen (Alone skf) ⟨registry, world, .stepping call after⟩
      ⟨(call.run skf registry world).registry, (call.run skf registry world).world,
        next call.req after (call.run skf registry world).outcome⟩ := by
  cases ha : call.acquire registry with
  | none =>
    obtain ⟨errbuf, hrun⟩ := StepCall.run_unacquired ha skf world
    apply ReflTransGen.single
    rw [Alone, advance, ha]
    simp only [hrun]
  | some acquired =>
    have hslot := slot_acquired ha
    have hacquire : Alone skf ⟨registry, world, .stepping call after⟩
        ⟨acquired.registry, world, .holding call after acquired.slot⟩ := by
      rw [Alone, advance, ha]
    have hrelease (world : σ) (outcome : Outcome) :
        Alone skf ⟨acquired.registry, world, .leaving call after acquired.slot outcome⟩
          ⟨registryRelease acquired.registry acquired.device.deviceId.bytes, world,
            next call.req after outcome⟩ := by
      rw [Alone, advance, hslot]
    cases ht : call.translate acquired.device with
    | error errbuf =>
      have hleave : Alone skf ⟨acquired.registry, world, .holding call after acquired.slot⟩
          ⟨acquired.registry, world, .leaving call after acquired.slot (.error (some errbuf))⟩ := by
        simp only [Alone, advance, hslot, ht]
      rw [StepCall.run_untranslated ha ht]
      exact ((ReflTransGen.single hacquire).tail hleave).tail (hrelease _ _)
    | ok translated =>
      have hleave : Alone skf ⟨acquired.registry, world, .holding call after acquired.slot⟩
          ⟨acquired.registry, (call.dispatch skf world acquired.device translated).world,
            .leaving call after acquired.slot
              (call.dispatch skf world acquired.device translated).outcome⟩ := by
        simp only [Alone, advance, hslot, ht]
      rw [StepCall.run_dispatched ha ht]
      exact ((ReflTransGen.single hacquire).tail hleave).tail (hrelease _ _)

/-- The steps that are left take the task to the end of the run. -/
theorem steps_alone (req : Request) (step : SequenceStep) (steps : List SequenceStep)
    (payload : CStr maxResponseLen) (resp : Response) (registry : Registry) (world : σ) :
    ReflTransGen (Alone skf)
      ⟨registry, world,
        .stepping (stepCall req step payload.bytes Response.zero) (.sequence steps resp)⟩
      ⟨(runSteps skf req (step :: steps) payload resp registry world).registry,
        (runSteps skf req (step :: steps) payload resp registry world).world,
        .done (runSteps skf req (step :: steps) payload resp registry world).rc
          (runSteps skf req (step :: steps) payload resp registry world).resp⟩ := by
  induction steps generalizing step payload resp registry world with
  | nil =>
    have hstep := step_alone skf (stepCall req step payload.bytes Response.zero)
      (.sequence [] resp) registry world
    rw [show (stepCall req step payload.bytes Response.zero).run skf registry world =
      sequenceStepRun skf req step payload registry world from rfl] at hstep
    cases hout : (sequenceStepRun skf req step payload registry world).outcome with
    | error errbuf =>
      rw [hout] at hstep
      simp only [runSteps, hout]
      exact hstep
    | ok stepResp =>
      rw [hout] at hstep
      simp only [runSteps, hout]
      exact hstep
  | cons step' steps ih =>
    have hstep := step_alone skf (stepCall req step payload.bytes Response.zero)
      (.sequence (step' :: steps) resp) registry world
    rw [show (stepCall req step payload.bytes Response.zero).run skf registry world =
      sequenceStepRun skf req step payload registry world from rfl] at hstep
    rw [runSteps]
    cases hout : (sequenceStepRun skf req step payload registry world).outcome with
    | error errbuf =>
      rw [hout] at hstep
      exact hstep
    | ok stepResp =>
      rw [hout] at hstep
      exact hstep.trans (ih step' (store maxResponseLen stepResp.result.bytes)
        (joinStepResponse resp stepResp) _ _)

theorem plain_alone (req : Request) (resp : Response) (registry : Registry) (world : σ) :
    ReflTransGen (Alone skf)
      ⟨registry, world, .stepping (stepCall req (plainStep req) req.payload.bytes resp) .plain⟩
      ⟨(executePlain skf registry req resp world).registry,
        (executePlain skf registry req resp world).world,
        .done (executePlain skf registry req resp world).rc
          (executePlain skf registry req resp world).resp⟩ := by
  have hstep := step_alone skf (stepCall req (plainStep req) req.payload.bytes resp)
    .plain registry world
  rw [show (stepCall req (plainStep req) req.payload.bytes resp).run skf registry world =
    executeSingleStep skf registry req req.domain req.action req.algorithm.bytes
      req.payload.bytes req.auxPayload.bytes req.keyRef.bytes .unknown resp world from rfl] at hstep
  rw [executePlain]
  cases hout : (executeSingleStep skf registry req req.domain req.action req.algorithm.bytes
      req.payload.bytes req.auxPayload.bytes req.keyRef.bytes .unknown resp world).outcome with
  | error errbuf =>
    rw [hout] at hstep
    exact hstep
  | ok resp =>
    rw [hout] at hstep
    exact hstep

/-- Left alone, a task comes to the end of the call of `scheduler_execute`. -/
theorem task_alone (skf : SkfAdapter σ) (settings : Option GatewaySettings)
    (registry : Registry) (req : Request) (world : σ) :
    ReflTransGen (Alone skf) ⟨registry, world, taskOf settings req⟩
      ⟨(schedulerExecute skf settings registry req world).registry,
        (schedulerExecute skf settings registry req world).world,
        .done (schedulerExecute skf settings registry req world).rc
          (schedulerExecute skf settings registry req world).resp⟩ := by
  rw [taskOf, schedulerExecute]
  cases hpin : validateGatewayPin settings req with
  | answered resp => exact .refl
  | refused resp => exact .refl
  | proceed =>
    by_cases hsequence : req.sequence.bytes = []
    · simp only [hsequence, ne_eq, not_true_eq_false, if_false]
      exact plain_alone req _ registry world
    · simp only [hsequence, ne_eq, not_false_eq_true, if_true]
      rw [executeSequence]
      cases hparse : parseSequence req with
      | error errbuf => exact .refl
      | ok steps =>
        cases steps with
        | nil => exact .refl
        | cons step steps => exact steps_alone req step steps _ _ registry world

theorem done_stays {registry : Registry} {world : σ} {rc : ℤ} {resp : Response} {s : Stand σ}
    (h : ReflTransGen (Alone skf) ⟨registry, world, .done rc resp⟩ s) :
    s = ⟨registry, world, .done rc resp⟩ := by
  induction h with
  | refl => rfl
  | tail _ hstep ih =>
    rw [ih] at hstep
    exact hstep

/-- Left alone, a task ends exactly as the call of `scheduler_execute` does. -/
theorem task_alone_iff (skf : SkfAdapter σ) (settings : Option GatewaySettings)
    (registry : Registry) (req : Request) (world : σ) (rc : ℤ) (resp : Response)
    (registry' : Registry) (world' : σ) :
    ReflTransGen (Alone skf) ⟨registry, world, taskOf settings req⟩
        ⟨registry', world', .done rc resp⟩ ↔
      rc = (schedulerExecute skf settings registry req world).rc ∧
        resp = (schedulerExecute skf settings registry req world).resp ∧
        registry' = (schedulerExecute skf settings registry req world).registry ∧
        world' = (schedulerExecute skf settings registry req world).world := by
  have hends := task_alone skf settings registry req world
  constructor
  · intro h
    have hunique : Relator.RightUnique (Alone skf) := fun s t t' ht ht' => ht.trans ht'.symm
    have hsame : (⟨registry', world', .done rc resp⟩ : Stand σ) =
        ⟨(schedulerExecute skf settings registry req world).registry,
          (schedulerExecute skf settings registry req world).world,
          .done (schedulerExecute skf settings registry req world).rc
            (schedulerExecute skf settings registry req world).resp⟩ := by
      rcases h.total_of_right_unique hunique hends with hgoes | hgoes
      · exact (done_stays hgoes).symm
      · exact done_stays hgoes
    rw [Stand.mk.injEq, Task.done.injEq] at hsame
    obtain ⟨hregistry, hworld, hrc, hresp⟩ := hsame
    exact ⟨hrc, hresp, hregistry, hworld⟩
  · rintro ⟨rfl, rfl, rfl, rfl⟩
    exact hends

end Sequential

end Ucisdk.Tasks
