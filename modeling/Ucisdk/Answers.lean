import Ucisdk.GatewayAnswers
import Ucisdk.Isolation

/-!
# What a request is answered while others run

A step that is carried through while other workers use the devices does one of
three things: it finds no device, or it finds no rule for the device it got, or
its call is dispatched to that device. A request is answered with what its
steps do, one after the other, each with the result of the one before it.
-/

set_option autoImplicit false

namespace Ucisdk.Answers

open Ucisdk.CString Ucisdk.Common Ucisdk.Protocol Ucisdk.Queue Ucisdk.Resource Ucisdk.Translator
open Ucisdk.Driver Ucisdk.Scheduler Ucisdk.StepCalls Ucisdk.SequenceRun
open Ucisdk.Server hiding State Step Reachable
open Ucisdk.Connection Ucisdk.Tasks Ucisdk.Gateway Ucisdk.GatewayAnswers Ucisdk.Isolation
open Flow Relation

variable {σ : Type}

section Meaning

/-- The message of a step that finds no device. -/
def unacquiredText (call : StepCall) : ErrText :=
  match resolveDeviceHintFromKeyRef call.req call.keyRef with
  | .error errbuf => errbuf
  | .ok _ =>
    store errbufLen (lit "no available device matches domain=" ++ domainToString call.domain ++
      lit " action=" ++ actionToString call.action ++ lit " alg=" ++ call.algorithm)

/-- A device in a slot that the step may use. -/
structure Fits (registry : Registry) (call : StepCall) (slot : ℕ) (d : DeviceResource) : Prop where
  loaded : registry.devices[slot]? = some d
  usable : ∃ hint, resolveDeviceHintFromKeyRef call.req call.keyRef = .ok hint ∧
    Usable call hint.bytes d

/-- What a call does on a device it has, with whatever load and in whatever
world. -/
inductive OnDevice (skf : SkfAdapter σ) (call : StepCall) (d : DeviceResource) : Outcome → Prop
  | untranslated {errbuf : ErrText} (h : call.translate d = .error errbuf) :
      OnDevice skf call d (.error (some errbuf))
  | dispatched (load : ℤ) (world : σ) {translated : TranslatedCall}
      (h : call.translate d = .ok translated) :
      OnDevice skf call d (call.dispatch skf world { d with inflight := load } translated).outcome

/-- What a step does while others run. -/
inductive StepDoes (skf : SkfAdapter σ) (registry : Registry) (call : StepCall) : Outcome → Prop
  | unacquired : StepDoes skf registry call (.error (some (unacquiredText call)))
  | acquired {slot : ℕ} {d : DeviceResource} {outcome : Outcome}
      (hfits : Fits registry call slot d) (h : OnDevice skf call d outcome) :
      StepDoes skf registry call outcome

/-- The steps of a sequence, each with the full result of the one before it. -/
inductive StepsDo (skf : SkfAdapter σ) (registry : Registry) (req : Request) :
    List SequenceStep → CStr maxResponseLen → Response → ℤ → Response → Prop
  | finish (payload : CStr maxResponseLen) (resp : Response) :
      StepsDo skf registry req [] payload resp 0 { resp with
        result := payload
        status := .ok }
  | fail {step : SequenceStep} {steps : List SequenceStep} {payload : CStr maxResponseLen}
      {resp : Response} {err : Option ErrText}
      (h : StepDoes skf registry (stepCall req step payload.bytes Response.zero) (.error err)) :
      StepsDo skf registry req (step :: steps) payload resp (-1)
        (buildErrorResponse req .backendFail err)
  | pass {step : SequenceStep} {steps : List SequenceStep} {payload : CStr maxResponseLen}
      {resp stepResp last : Response} {rc : ℤ}
      (h : StepDoes skf registry (stepCall req step payload.bytes Response.zero) (.ok stepResp))
      (hrest : StepsDo skf registry req steps stepResp.result (joinStepResponse resp stepResp)
        rc last) :
      StepsDo skf registry req (step :: steps) payload resp rc last

def opened (req : Request) : Response :=
  { Response.zero with requestId := store maxIdLen req.requestId.bytes }

/-- What a request that is let through is answered. -/
inductive Serves (skf : SkfAdapter σ) (registry : Registry) (req : Request) : ℤ → Response → Prop
  | malformed {errbuf : ErrText} (hne : req.sequence.bytes ≠ [])
      (hparse : parseSequence req = .error errbuf) :
      Serves skf registry req (-1) (buildErrorResponse req .badRequest (some errbuf))
  | nothing (hne : req.sequence.bytes ≠ []) (hparse : parseSequence req = .ok []) :
      Serves skf registry req 0 (opened req)
  | sequence {steps : List SequenceStep} {rc : ℤ} {resp : Response}
      (hne : req.sequence.bytes ≠ []) (hparse : parseSequence req = .ok steps) (hsome : steps ≠ [])
      (h : StepsDo skf registry req steps (store maxResponseLen req.payload.bytes) (opened req)
        rc resp) : Serves skf registry req rc resp
  | refused {err : Option ErrText} (hnil : req.sequence.bytes = [])
      (h : StepDoes skf registry
        (stepCall req (plainStep req) req.payload.bytes (opened req)) (.error err)) :
      Serves skf registry req (-1) (buildErrorResponse req .noResource err)
  | plain {resp : Response} (hnil : req.sequence.bytes = [])
      (h : StepDoes skf registry
        (stepCall req (plainStep req) req.payload.bytes (opened req)) (.ok resp)) :
      Serves skf registry req 0 { resp with
        trace := plainTrace resp
        status := .ok }

/-- What the scheduler answers a request, whatever runs beside it. -/
inductive AnswerOf (skf : SkfAdapter σ) (settings : Option GatewaySettings) (registry : Registry)
    (req : Request) : ℤ → Response → Prop
  | answered {resp : Response} (hpin : validateGatewayPin settings req = .answered resp) :
      AnswerOf skf settings registry req 0 resp
  | refused {resp : Response} (hpin : validateGatewayPin settings req = .refused resp) :
      AnswerOf skf settings registry req (-1) resp
  | served {rc : ℤ} {resp : Response} (hpin : validateGatewayPin settings req = .proceed)
      (h : Serves skf registry req rc resp) : AnswerOf skf settings registry req rc resp

end Meaning

section Tasks

variable {skf : SkfAdapter σ} {registry now : Registry} {rc : ℤ} {resp : Response}

/-- How a task ends if it is carried on while others run. -/
inductive Finishes (skf : SkfAdapter σ) (registry : Registry) : Task → ℤ → Response → Prop
  | done (rc : ℤ) (resp : Response) : Finishes skf registry (.done rc resp) rc resp
  | stepping {call : StepCall} {after : After} {outcome : Outcome} {rc : ℤ} {resp : Response}
      (h : StepDoes skf registry call outcome)
      (hnext : Finishes skf registry (next call.req after outcome) rc resp) :
      Finishes skf registry (.stepping call after) rc resp
  | holding {call : StepCall} {after : After} {slot : ℕ} {d : DeviceResource} {outcome : Outcome}
      {rc : ℤ} {resp : Response} (hslot : registry.devices[slot]? = some d)
      (h : OnDevice skf call d outcome)
      (hnext : Finishes skf registry (next call.req after outcome) rc resp) :
      Finishes skf registry (.holding call after slot) rc resp
  | leaving {call : StepCall} {after : After} {slot : ℕ} {outcome : Outcome} {rc : ℤ}
      {resp : Response} (hnext : Finishes skf registry (next call.req after outcome) rc resp) :
      Finishes skf registry (.leaving call after slot outcome) rc resp

theorem finishes_done {rc' : ℤ} {resp' : Response}
    (h : Finishes skf registry (.done rc resp) rc' resp') : rc' = rc ∧ resp' = resp := by
  cases h
  exact ⟨rfl, rfl⟩

theorem unacquired_does {call : StepCall} (h : call.acquire now = none) (world : σ) :
    StepDoes skf registry call (call.run skf now world).outcome := by
  have houtcome : (call.run skf now world).outcome = .error (some (unacquiredText call)) := by
    rw [StepCall.acquire] at h
    rw [StepCall.run, executeSingleStep, unacquiredText]
    cases hresolve : resolveDeviceHintFromKeyRef call.req call.keyRef with
    | error errbuf => rfl
    | ok hint =>
      rw [hresolve] at h
      simp only [StepCall.run_eq_bound hresolve, h]
  rw [houtcome]
  exact .unacquired

/-- The device in a slot is the one that was loaded into it, but for its load. -/
theorem same_slot (hsame : now.devices.map idle = registry.devices.map idle) {slot : ℕ}
    {d : DeviceResource} (hd : now.devices[slot]? = some d) :
    ∃ d₀, registry.devices[slot]? = some d₀ ∧ d = { d₀ with inflight := d.inflight } := by
  have hslot := congrArg (fun devices : List DeviceResource => devices[slot]?) hsame
  simp only [List.getElem?_map, hd, Option.map_some] at hslot
  obtain ⟨d₀, hd₀, hidle⟩ := Option.map_eq_some_iff.mp hslot.symm
  refine ⟨d₀, hd₀, ?_⟩
  have hloaded : { idle d with inflight := d.inflight } =
      { idle d₀ with inflight := d.inflight } := by rw [hidle]
  exact hloaded

/-- A slot is only acquired for a device that the step may use. -/
theorem acquired_fits (hsame : now.devices.map idle = registry.devices.map idle)
    {call : StepCall} {acquired : Acquired} (h : call.acquire now = some acquired)
    {d : DeviceResource} (hd : registry.devices[acquired.slot]? = some d) :
    Fits registry call acquired.slot d := by
  obtain ⟨hint, d', hresolve, hslot, husable, _⟩ := acquired_usable h
  obtain ⟨d₀, hd₀, hload⟩ := same_slot hsame hslot
  obtain rfl := Option.some.inj (hd.symm.trans hd₀)
  rw [hload] at husable
  exact ⟨hd, hint, hresolve, (usable_loaded d _).mp husable⟩

/-- However a task ends after a step, it ends so from where it was. -/
theorem advance_finishes (hsame : now.devices.map idle = registry.devices.map idle)
    {task : Task} {world : σ}
    (h : Finishes skf registry (advance skf now world task).task rc resp) :
    Finishes skf registry task rc resp := by
  cases task with
  | stepping call after =>
    rw [advance] at h
    cases hacquire : call.acquire now with
    | none =>
      rw [hacquire] at h
      exact .stepping (unacquired_does hacquire world) h
    | some acquired =>
      rw [hacquire] at h
      cases h with
      | holding hslot hdoes hnext =>
        exact .stepping (.acquired (acquired_fits hsame hacquire hslot) hdoes) hnext
  | holding call after slot =>
    rw [advance] at h
    cases hd : now.devices[slot]? with
    | none =>
      rw [hd] at h
      exact h
    | some d =>
      rw [hd] at h
      obtain ⟨d₀, hd₀, hload⟩ := same_slot hsame hd
      have htranslate : call.translate d = call.translate d₀ := by
        rw [hload]
        rfl
      simp only [htranslate] at h
      cases ht : call.translate d₀ with
      | error errbuf =>
        rw [ht] at h
        cases h with
        | leaving hnext => exact .holding hd₀ (.untranslated ht) hnext
      | ok translated =>
        rw [ht] at h
        cases h with
        | leaving hnext =>
          rw [hload] at hnext
          exact .holding hd₀ (.dispatched d.inflight world ht) hnext
  | leaving call after slot outcome =>
    rw [advance] at h
    cases hd : now.devices[slot]? with
    | none =>
      rw [hd] at h
      exact h
    | some d =>
      rw [hd] at h
      exact .leaving h
  | done rc' resp' => exact h

theorem worked_finishes {settings : Option GatewaySettings} {req : Request} {task : Task}
    (hworked : Worked skf settings registry req task) (h : Finishes skf registry task rc resp) :
    Finishes skf registry (taskOf settings req) rc resp := by
  induction hworked with
  | start => exact h
  | advance _ now world hsame ih => exact ih (advance_finishes hsame h)

end Tasks

section Requests

variable {skf : SkfAdapter σ} {settings : Option GatewaySettings} {registry : Registry}
  {req : Request} {rc : ℤ} {last : Response}

theorem steps_do (step : SequenceStep) (steps : List SequenceStep) (payload : CStr maxResponseLen)
    (resp : Response)
    (h : Finishes skf registry (.stepping (stepCall req step payload.bytes Response.zero)
      (.sequence steps resp)) rc last) :
    StepsDo skf registry req (step :: steps) payload resp rc last := by
  induction steps generalizing step payload resp with
  | nil =>
    cases h with
    | @stepping _ _ outcome _ _ hdoes hnext =>
      cases outcome with
      | error err =>
        obtain ⟨rfl, rfl⟩ := finishes_done hnext
        exact .fail hdoes
      | ok stepResp =>
        simp only [next, store_bytes_self] at hnext
        obtain ⟨rfl, rfl⟩ := finishes_done hnext
        exact .pass hdoes (.finish _ _)
  | cons step' steps ih =>
    cases h with
    | @stepping _ _ outcome _ _ hdoes hnext =>
      cases outcome with
      | error err =>
        obtain ⟨rfl, rfl⟩ := finishes_done hnext
        exact .fail hdoes
      | ok stepResp =>
        simp only [next, store_bytes_self] at hnext
        exact .pass hdoes (ih step' _ _ hnext)

theorem plain_serves (hnil : req.sequence.bytes = [])
    (h : Finishes skf registry
      (.stepping (stepCall req (plainStep req) req.payload.bytes (opened req)) .plain) rc last) :
    Serves skf registry req rc last := by
  cases h with
  | @stepping _ _ outcome _ _ hdoes hnext =>
    cases outcome with
    | error err =>
      obtain ⟨rfl, rfl⟩ := finishes_done hnext
      exact .refused hnil hdoes
    | ok resp =>
      obtain ⟨rfl, rfl⟩ := finishes_done hnext
      exact .plain hnil hdoes

/-- The end of a call from its start is an answer to the request. -/
theorem finishes_answer (h : Finishes skf registry (taskOf settings req) rc last) :
    AnswerOf skf settings registry req rc last := by
  rw [taskOf] at h
  cases hpin : validateGatewayPin settings req with
  | answered resp =>
    rw [hpin] at h
    obtain ⟨rfl, rfl⟩ := finishes_done h
    exact .answered hpin
  | refused resp =>
    rw [hpin] at h
    obtain ⟨rfl, rfl⟩ := finishes_done h
    exact .refused hpin
  | proceed =>
    rw [hpin] at h
    refine .served hpin ?_
    by_cases hnil : req.sequence.bytes = []
    · simp only [hnil, ne_eq, not_true_eq_false, if_false] at h
      exact plain_serves hnil h
    · simp only [ne_eq, hnil, not_false_eq_true, if_true] at h
      cases hparse : parseSequence req with
      | error errbuf =>
        rw [hparse] at h
        obtain ⟨rfl, rfl⟩ := finishes_done h
        exact .malformed hnil hparse
      | ok steps =>
        rw [hparse] at h
        cases steps with
        | nil =>
          obtain ⟨rfl, rfl⟩ := finishes_done h
          exact .nothing hnil hparse
        | cons step steps => exact .sequence hnil hparse (by simp) (steps_do step steps _ _ h)

end Requests

section Runs

variable {κ : Type} [Fintype κ] [DecidableEq κ] {skf : SkfAdapter σ}
  {settings : Option GatewaySettings} {sent : ℕ → List ReadResult} {early : Prop}
  {registry : Registry} {s : State κ}

/-- In whatever order the workers take their steps, what one of them hands to a
connection is an answer of the scheduler to the request of that connection. -/
theorem reachable_answerOf (h : Reachable skf settings sent early registry s) {call : Handed κ}
    (hmem : call ∈ s.server.handed) {k : κ} (hk : call.worker = some k) :
    ∃ request rc, receive (sent call.fd) = .parsed request ∧
      AnswerOf skf settings registry request rc call.resp := by
  have hown := reachable_own h call hmem
  rw [Own, hk] at hown
  obtain ⟨request, rc, hread, hworked⟩ := hown
  exact ⟨request, rc, hread, finishes_answer (worked_finishes hworked (.done rc call.resp))⟩

/-- A worker answers a sequence of two steps. -/
theorem sample_answerOf : ∃ (s : State (Fin 2)) (call : Handed (Fin 2)),
    s.server.handed = [call] ∧ ∃ request rc, receive sampleReads = .parsed request ∧
      AnswerOf absentToken none sampleRegistry request rc call.resp := by
  obtain ⟨s, hserved, hhanded, _⟩ :=
    served_run absentToken none False sampleRegistry () (0 : Fin 2) sample_received
  exact ⟨s, _, hhanded, reachable_answerOf hserved (hhanded ▸ List.mem_singleton_self _) rfl⟩

end Runs

end Ucisdk.Answers
