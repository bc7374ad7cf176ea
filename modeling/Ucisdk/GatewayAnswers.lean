import Ucisdk.Gateway

/-!
# Whose answer a connection gets

Every answer that the gateway hands over is made for the request of that very
connection: the accept loop's own answers, and those of a worker, which end a
call of the scheduler for that request, however the workers took turns.
-/

set_option autoImplicit false

namespace Ucisdk.GatewayAnswers

open Ucisdk.CString Ucisdk.Common Ucisdk.Protocol Ucisdk.Queue Ucisdk.Resource Ucisdk.Translator
open Ucisdk.Driver Ucisdk.Scheduler Ucisdk.StepCalls Ucisdk.SequenceRun
open Ucisdk.Server hiding State Step Reachable
open Ucisdk.Connection Ucisdk.Tasks Ucisdk.Gateway Ucisdk.Failures
open Ucisdk.SkfApi Ucisdk.SkfText Ucisdk.SkfSession Ucisdk.Gm3000
open Flow Relation

section Handed

variable {κ σ : Type} [DecidableEq κ] {skf : SkfAdapter σ} {settings : Option GatewaySettings}
  {sent : ℕ → List ReadResult} {early : Prop} {registry : Registry} {s t : State κ}

/-- An answer of the accept loop: to a line that it could not parse, or to a
request that the queue refused. -/
def LoopAnswer (reads : List ReadResult) (resp : Response) : Prop :=
  receive reads = .answered resp ∨
    ∃ request, receive reads = .parsed request ∧
      resp = loopResponse request.requestId.bytes .backendFail (lit "queue stopped")

/-- An answer of a worker: the end of a call for the request. -/
def WorkerAnswer (skf : SkfAdapter σ) (settings : Option GatewaySettings) (registry : Registry)
    (reads : List ReadResult) (resp : Response) : Prop :=
  ∃ request rc, receive reads = .parsed request ∧
    Worked skf settings registry request (.done rc resp)

/-- Every answer is one to what its connection sent. -/
def Own (skf : SkfAdapter σ) (settings : Option GatewaySettings) (registry : Registry)
    (sent : ℕ → List ReadResult) (call : Handed κ) : Prop :=
  match call.worker with
  | none => LoopAnswer (sent call.fd) call.resp
  | some _ => WorkerAnswer skf settings registry (sent call.fd) call.resp

omit [DecidableEq κ] in
theorem own_append {handed : List (Handed κ)} {last : Handed κ}
    (h : ∀ call ∈ handed, Own skf settings registry sent call)
    (hlast : Own skf settings registry sent last) :
    ∀ call ∈ handed ++ [last], Own skf settings registry sent call := by
  intro call hmem
  rcases List.mem_append.mp hmem with hmem | hmem
  · exact h call hmem
  · rw [List.mem_singleton.mp hmem]
    exact hlast

/-- What the loop hands over is an answer of its own. -/
theorem loop_own {before after : Server.State κ} (hheard : Heard sent before)
    (hown : ∀ call ∈ before.handed, Own skf settings registry sent call)
    (hstep : Hears sent early before after) (hworker : after.worker = before.worker) :
    ∀ call ∈ after.handed, Own skf settings registry sent call := by
  cases hstep with
  | answered fd resp h hread =>
    have hloop : Own skf settings registry sent (⟨none, fd, resp⟩ : Handed κ) := Or.inl hread
    exact own_append hown hloop
  | parsed fd request h hread => exact hown
  | other hstep hloop =>
    cases hstep with
    | unread fd h => exact absurd (hloop fd h) (by simp)
    | unparsed fd line errbuf h hline => exact absurd (hloop fd h) (by simp)
    | refused job h hpush =>
      have hloop : LoopAnswer (sent job.clientFd)
          (loopResponse job.request.requestId.bytes .backendFail (lit "queue stopped")) :=
        .inr ⟨job.request, hheard.pushing job h, rfl⟩
      exact own_append hown hloop
    | serve k job resp h =>
      have hsame := congrFun hworker k
      simp [h] at hsame
    | _ => exact hown

theorem own_step (hworking : Working skf settings registry s) (hheard : Heard sent s.server)
    (hown : ∀ call ∈ s.server.handed, Own skf settings registry sent call)
    (hstep : Step skf settings sent early s t) :
    ∀ call ∈ t.server.handed, Own skf settings registry sent call := by
  cases hstep with
  | loop server h hworker => exact loop_own hheard hown h hworker
  | serve k job rc resp h htask =>
    obtain ⟨task, htask', hworked⟩ := hworking.serving k job h
    rw [htask, Option.some.injEq] at htask'
    subst htask'
    have hworker : WorkerAnswer skf settings registry (sent job.clientFd) resp :=
      ⟨job.request, rc, hheard.serving k job h, hworked⟩
    exact own_append hown hworker
  | _ => exact hown

theorem reachable_own [Fintype κ] (h : Reachable skf settings sent early registry s) :
    ∀ call ∈ s.server.handed, Own skf settings registry sent call := by
  induction h with
  | refl => simp [begin, start]
  | tail hrun hstep ih =>
    exact own_step (reachable_working hrun) (hearing_heard (reachable_server hrun)) ih hstep

end Handed

section Worked

variable {σ : Type} {env : Env} {lib : Library σ} {settings : Option GatewaySettings}
  {registry : Registry} {req : Request}

/-- How a call of the scheduler ends for a request. -/
def Ended (req : Request) (rc : ℤ) (resp : Response) : Prop :=
  (rc = 0 ∧ resp.status = .ok ∧ resp.requestId = req.requestId) ∨
    ∃ status msg, rc = -1 ∧ status ≠ .ok ∧ msg.bytes ≠ [] ∧
      resp = buildErrorResponse req status (some msg)

/-- A step for the request, and the response that it will be joined to. -/
def StepOf (req : Request) (call : StepCall) : After → Prop
  | .plain => call.req = req ∧ call.resp.requestId = req.requestId
  | .sequence _ resp => call.req = req ∧ resp.requestId = req.requestId

def OutcomeOf (call : StepCall) : Outcome → Prop
  | .ok filled => filled.requestId = call.resp.requestId
  | .error err => ∃ msg, err = some msg ∧ msg.bytes ≠ []

/-- A task of the request, with its id and a message for every failure. -/
def TaskOf (req : Request) : Task → Prop
  | .stepping call after => StepOf req call after
  | .holding call after _ => StepOf req call after
  | .leaving call after _ outcome => StepOf req call after ∧ OutcomeOf call outcome
  | .done rc resp => Ended req rc resp

theorem stepOf_req {call : StepCall} {after : After} (h : StepOf req call after) :
    call.req = req := by
  cases after with
  | plain => exact h.1
  | sequence steps resp => exact h.1

theorem ends_outcome {call : StepCall} {invoked : Option Invocation} {outcome : Outcome}
    (h : Ends env call invoked outcome) : OutcomeOf call outcome := by
  cases outcome with
  | ok filled => exact h
  | error err => exact fails_written h

theorem taskOf_task (settings : Option GatewaySettings) (req : Request) :
    TaskOf req (taskOf settings req) := by
  have hid : store maxIdLen req.requestId.bytes = req.requestId := store_bytes_self _
  rw [taskOf]
  cases hpin : validateGatewayPin settings req with
  | answered resp =>
    obtain ⟨hstatus, hresp⟩ := validateGatewayPin_answer hpin
    exact .inl ⟨rfl, hstatus, hresp⟩
  | refused resp =>
    obtain ⟨msg, hmsg, hresp⟩ := validateGatewayPin_refused hpin
    exact .inr ⟨_, msg, rfl, by simp, hmsg, hresp⟩
  | proceed =>
    simp only
    split
    · cases hparse : parseSequence req with
      | error errbuf => exact .inr ⟨_, errbuf, rfl, by simp, parseSequence_written hparse, rfl⟩
      | ok steps =>
        cases steps with
        | nil => exact .inl ⟨rfl, rfl, hid⟩
        | cons step steps => exact ⟨rfl, hid⟩
    · exact ⟨rfl, hid⟩

/-- What follows on a step is of the request as well. -/
theorem next_task {call : StepCall} {after : After} {outcome : Outcome}
    (h : StepOf req call after) (hout : OutcomeOf call outcome) :
    TaskOf req (next call.req after outcome) := by
  rw [stepOf_req h]
  cases outcome with
  | error err =>
    obtain ⟨msg, rfl, hmsg⟩ := hout
    cases after with
    | plain => exact .inr ⟨_, msg, rfl, by simp, hmsg, rfl⟩
    | sequence steps resp => exact .inr ⟨_, msg, rfl, by simp, hmsg, rfl⟩
  | ok filled =>
    cases after with
    | plain => exact .inl ⟨rfl, rfl, Eq.trans hout h.2⟩
    | sequence steps resp =>
      cases steps with
      | nil => exact .inl ⟨rfl, rfl, h.2⟩
      | cons step steps => exact ⟨rfl, h.2⟩

theorem advance_task {task : Task} (h : TaskOf req task) (env : Env) (lib : Library σ)
    (now : Registry) (world : σ) :
    TaskOf req (advance (skfAdapter env lib) now world task).task := by
  cases task with
  | stepping call after =>
    rw [advance]
    cases ha : call.acquire now with
    | none => exact next_task h (ends_outcome (step_ends call env lib now world))
    | some acquired => exact h
  | holding call after slot =>
    rw [advance]
    cases hd : now.devices[slot]? with
    | none => exact h
    | some device =>
      cases ht : call.translate device with
      | error errbuf =>
        simp only [ht]
        obtain ⟨text, herr, htext⟩ := translate_text env ht
        refine ⟨h, errbuf, rfl, ?_⟩
        rw [herr]
        exact store_ne_nil (by decide) (stepText_ne_nil htext)
      | ok translated =>
        simp only [ht]
        exact ⟨h, ends_outcome (dispatch_ends call ht env lib world)⟩
  | leaving call after slot outcome =>
    rw [advance]
    cases hd : now.devices[slot]? with
    | none => exact h
    | some device => exact next_task h.1 h.2
  | done rc resp => exact h

theorem worked_task {task : Task} (h : Worked (skfAdapter env lib) settings registry req task) :
    TaskOf req task := by
  induction h with
  | start => exact taskOf_task settings req
  | advance _ now world _ ih => exact advance_task ih env lib now world

/-- What a connection is answered, by the loop or by a worker. -/
structure Answered (env : Env) (lib : Library σ) (settings : Option GatewaySettings)
    (registry : Registry) (reads : List ReadResult) (resp : Response) : Prop where
  unread : ∀ badResp, receive reads = .answered badResp →
    resp = badResp ∧ resp.status = .badRequest
  request : ∀ request, receive reads = .parsed request →
    resp.requestId = request.requestId ∧
      (resp.status = .ok ∨ ∃ status msg, status ≠ .ok ∧ msg.bytes ≠ [] ∧
        resp = buildErrorResponse request status (some msg)) ∧
      (resp = loopResponse request.requestId.bytes .backendFail (lit "queue stopped") ∨
        ∃ rc, Worked (skfAdapter env lib) settings registry request (.done rc resp))
  received : receive reads ≠ .waiting

theorem ended_answer {rc : ℤ} {resp : Response} (h : Ended req rc resp) :
    resp.requestId = req.requestId ∧ (resp.status = .ok ∨ ∃ status msg, status ≠ .ok ∧
      msg.bytes ≠ [] ∧ resp = buildErrorResponse req status (some msg)) := by
  rcases h with ⟨_, hstatus, hid⟩ | ⟨status, msg, _, hstatus, hmsg, hresp⟩
  · exact ⟨hid, .inl hstatus⟩
  · refine ⟨?_, .inr ⟨status, msg, hstatus, hmsg, hresp⟩⟩
    rw [hresp]
    exact store_bytes_self _

theorem stopped_answer (req : Request) :
    loopResponse req.requestId.bytes .backendFail (lit "queue stopped") =
      buildErrorResponse req .backendFail (errorText "queue stopped") := by
  have htext : (store errbufLen (lit "queue stopped")).bytes = lit "queue stopped" := by
    apply store_fits
    decide
  rw [loopResponse, buildErrorResponse, errorText]
  simp only [Option.elim_some, htext]

theorem loop_answered {reads : List ReadResult} {resp : Response} (h : LoopAnswer reads resp) :
    Answered env lib settings registry reads resp := by
  rcases h with hread | ⟨request, hread, hresp⟩
  · constructor
    · intro badResp hbad
      obtain rfl := Received.answered.inj (hread.symm.trans hbad)
      exact ⟨rfl, receive_answered hread⟩
    · intro request hparsed
      rw [hread] at hparsed
      cases hparsed
    · simp [hread]
  · constructor
    · intro badResp hbad
      rw [hread] at hbad
      cases hbad
    · intro request' hparsed
      obtain rfl := Received.parsed.inj (hread.symm.trans hparsed)
      have hbuilt := stopped_answer request
      have hmsg : (store errbufLen (lit "queue stopped")).bytes ≠ [] := by decide
      refine ⟨?_, .inr ⟨.backendFail, store errbufLen (lit "queue stopped"), by simp, hmsg, ?_⟩,
        .inl hresp⟩
      · rw [hresp]
        exact store_bytes_self _
      · exact hresp.trans hbuilt
    · simp [hread]

theorem worker_answered {reads : List ReadResult} {resp : Response}
    (h : WorkerAnswer (skfAdapter env lib) settings registry reads resp) :
    Answered env lib settings registry reads resp := by
  obtain ⟨request, rc, hread, hworked⟩ := h
  obtain ⟨hid, hstatus⟩ := ended_answer (worked_task hworked)
  constructor
  · intro badResp hbad
    rw [hread] at hbad
    cases hbad
  · intro request' hparsed
    obtain rfl := Received.parsed.inj (hread.symm.trans hparsed)
    exact ⟨hid, hstatus, .inr ⟨rc, hworked⟩⟩
  · simp [hread]

/-- However the threads take turns, every answer that is handed over is for the
line of its connection: it carries that request's id, and the result of a call
for that request or a message. -/
theorem reachable_answered {κ : Type} [Fintype κ] [DecidableEq κ] {sent : ℕ → List ReadResult}
    {early : Prop} {s : State κ}
    (h : Reachable (skfAdapter env lib) settings sent early registry s) :
    ∀ call ∈ s.server.handed,
      Answered env lib settings registry (sent call.fd) call.resp := by
  intro call hmem
  have hown := reachable_own h call hmem
  rw [Own] at hown
  split at hown
  · exact loop_answered hown
  · exact worker_answered hown

/-- A worker answers one connection. -/
theorem sample_answered : ∃ (s : State Unit) (call : Handed Unit),
    s.server.handed = [call] ∧
      Answered (fun _ => none) (obliging (fun _ => true) []) none sampleRegistry sampleReads
        call.resp := by
  obtain ⟨s, hrun, hhanded, _⟩ :=
    served_run (κ := Unit) (skfAdapter (fun _ => none) (obliging (fun _ => true) [])) none False
      sampleRegistry () () sample_received
  exact ⟨s, _, hhanded, reachable_answered hrun _ (by rw [hhanded]; exact List.mem_singleton_self _)⟩

end Worked

end Ucisdk.GatewayAnswers
