import Mathlib.Data.List.Forall2
import Ucisdk.Flow.Relay
import Ucisdk.StepCalls

/-!
# Runs of a request

The records of a run are the steps that were called, each with what it was
given. A sequence is a relay of its steps; what a response may claim about
the steps is read off the records.
-/

set_option autoImplicit false

namespace Ucisdk.SequenceRun

open Ucisdk.CString Ucisdk.Common Ucisdk.Protocol Ucisdk.Resource Ucisdk.Translator Ucisdk.Driver
open Ucisdk.Scheduler Ucisdk.StepCalls
open Scan.Tokens Flow.Relay

variable {σ : Type}

def stepCall (req : Request) (step : SequenceStep) (payload : Bytes) (resp : Response) : StepCall where
  req := req
  domain := step.domain
  action := step.action
  algorithm := step.algorithm.bytes
  payload := payload
  auxPayload := req.auxPayload.bytes
  keyRef := req.keyRef.bytes
  explicitType := step.preferredType
  resp := resp

/-- The full result a step leaves for the next one. -/
def passed (ρ : StepRecord σ) : Option Bytes :=
  match ρ.run.outcome with
  | .ok resp => some resp.result.bytes
  | .error _ => none

/-- A record of a step that was called with a payload. -/
def Called (skf : SkfAdapter σ) (req : Request) (step : SequenceStep) (payload : Bytes)
    (ρ : StepRecord σ) : Prop :=
  ρ.step = step ∧ ρ.payload = payload ∧
    ρ.run = (stepCall req step payload Response.zero).run skf ρ.before ρ.worldBefore

/-- How a run's relay ended, as its return code and response report it. -/
structure Reported (req : Request) (final : Option Bytes) (e : Execution σ) : Prop where
  failed : final = none → e.rc = -1 ∧ ∃ errbuf, e.resp = buildErrorResponse req .backendFail errbuf
  succeeded : ∀ q, final = some q → e.rc = 0 ∧ e.resp.status = .ok ∧ e.resp.result.bytes = q

theorem runSteps_relayed (skf : SkfAdapter σ) (req : Request) (steps : List SequenceStep)
    (payload : CStr maxResponseLen) (resp : Response) (registry : Registry) (world : σ) :
    ∃ final, Relayed (Called skf req) passed payload.bytes steps
        (runSteps skf req steps payload resp registry world).trace final ∧
      Reported req final (runSteps skf req steps payload resp registry world) := by
  induction steps generalizing payload resp registry world with
  | nil =>
    refine ⟨some payload.bytes, .finish _, ?_, ?_⟩
    · simp
    · intro q hq
      rw [Option.some.injEq] at hq
      subst hq
      exact ⟨rfl, rfl, store_self payload⟩
  | cons step steps ih =>
    cases hout : (sequenceStepRun skf req step payload registry world).outcome with
    | error errbuf =>
      refine ⟨none, ?_, ?_⟩
      · simp only [runSteps, hout]
        apply Relayed.halt
        · exact ⟨rfl, rfl, rfl⟩
        · simp [passed, hout]
      · simp only [runSteps, hout]
        exact ⟨fun _ => ⟨rfl, errbuf, rfl⟩, by simp⟩
    | ok stepResp =>
      obtain ⟨final, hrel, hrep⟩ := ih (store maxResponseLen stepResp.result.bytes)
        (joinStepResponse resp stepResp)
        (sequenceStepRun skf req step payload registry world).registry
        (sequenceStepRun skf req step payload registry world).world
      refine ⟨final, ?_, ?_⟩
      · simp only [runSteps, hout]
        apply Relayed.pass (w := stepResp.result.bytes)
        · exact ⟨rfl, rfl, rfl⟩
        · simp [passed, hout]
        · rw [store_self] at hrel
          exact hrel
      · simp only [runSteps, hout]
        exact ⟨hrep.failed, hrep.succeeded⟩

theorem executeSequence_run (skf : SkfAdapter σ) {req : Request} {step : SequenceStep}
    {steps : List SequenceStep} (h : parseSequence req = .ok (step :: steps))
    (registry : Registry) (resp : Response) (world : σ) :
    ∃ final, Relayed (Called skf req) passed req.payload.bytes (step :: steps)
        (executeSequence skf registry req resp world).trace final ∧
      Reported req final (executeSequence skf registry req resp world) := by
  have hp : (store maxResponseLen req.payload.bytes).bytes = req.payload.bytes := by
    apply store_fits
    exact Nat.lt_trans req.payload.fits (by decide)
  have hrun : executeSequence skf registry req resp world =
      runSteps skf req (step :: steps) (store maxResponseLen req.payload.bytes) resp registry
        world := by
    rw [executeSequence, h]
  have hrel := runSteps_relayed skf req (step :: steps) (store maxResponseLen req.payload.bytes)
    resp registry world
  rw [hp, ← hrun] at hrel
  exact hrel

/-- Every record of a run, plain or in a sequence, is a call for the request. -/
theorem schedulerExecute_run {skf : SkfAdapter σ} {settings : Option GatewaySettings}
    {registry : Registry} {req : Request} {world : σ} {ρ : StepRecord σ}
    (hρ : ρ ∈ (schedulerExecute skf settings registry req world).trace) :
    ∃ resp, ρ.run = (stepCall req ρ.step ρ.payload resp).run skf ρ.before ρ.worldBefore := by
  rw [schedulerExecute] at hρ
  split at hρ
  · simp at hρ
  · simp at hρ
  · split at hρ
    · cases hparse : parseSequence req with
      | error errbuf => simp [executeSequence, hparse] at hρ
      | ok steps =>
        cases steps with
        | nil => simp [executeSequence, hparse] at hρ
        | cons step steps =>
          obtain ⟨final, hrel, _⟩ := executeSequence_run skf hparse registry _ world
          obtain ⟨_, _, _, rfl, rfl, hrun⟩ := relay_mem hrel ρ hρ
          exact ⟨Response.zero, hrun⟩
    · rw [executePlain] at hρ
      simp only at hρ
      split at hρ
      all_goals
        rw [List.mem_singleton] at hρ
        subst hρ
        exact ⟨_, rfl⟩

theorem runSteps_idle {skf : SkfAdapter σ} (req : Request) (steps : List SequenceStep)
    (payload : CStr maxResponseLen) (resp : Response) (registry : Registry) (world : σ) :
    ∀ ρ ∈ (runSteps skf req steps payload resp registry world).trace,
      ρ.before.devices.map idle = registry.devices.map idle := by
  induction steps generalizing payload resp registry world with
  | nil => simp [runSteps]
  | cons step steps ih =>
    have hrun : (sequenceStepRun skf req step payload registry world).registry.devices.map idle =
        registry.devices.map idle :=
      run_idle (stepCall req step payload.bytes Response.zero) registry world
    intro ρ hρ
    rw [runSteps] at hρ
    simp only at hρ
    split at hρ
    · rw [List.mem_singleton] at hρ
      rw [hρ]
    · rcases List.mem_cons.mp hρ with rfl | hρ
      · rfl
      · rw [ih _ _ _ _ ρ hρ, hrun]

/-- Every step of a run finds the devices that the run began with. -/
theorem schedulerExecute_idle {skf : SkfAdapter σ} {settings : Option GatewaySettings}
    {registry : Registry} {req : Request} {world : σ} {ρ : StepRecord σ}
    (hρ : ρ ∈ (schedulerExecute skf settings registry req world).trace) :
    ρ.before.devices.map idle = registry.devices.map idle := by
  rw [schedulerExecute] at hρ
  split at hρ
  · simp at hρ
  · simp at hρ
  · split at hρ
    · rw [executeSequence] at hρ
      split at hρ
      · simp at hρ
      · simp at hρ
      · exact runSteps_idle req _ _ _ registry world ρ hρ
    · rw [executePlain] at hρ
      simp only at hρ
      split at hρ
      all_goals
        rw [List.mem_singleton] at hρ
        rw [hρ]

theorem executeSequence_step_mem {skf : SkfAdapter σ} {registry : Registry} {req : Request}
    {resp : Response} {world : σ} {ρ : StepRecord σ}
    (hρ : ρ ∈ (executeSequence skf registry req resp world).trace) :
    ∃ steps, parseSequence req = .ok steps ∧ ρ.step ∈ steps := by
  cases hparse : parseSequence req with
  | error errbuf => simp [executeSequence, hparse] at hρ
  | ok steps =>
    cases steps with
    | nil => simp [executeSequence, hparse] at hρ
    | cons step steps =>
      obtain ⟨final, hrel, _⟩ := executeSequence_run skf hparse registry resp world
      obtain ⟨s, hs, _, rfl, _⟩ := relay_mem hrel ρ hρ
      exact ⟨step :: steps, rfl, hs⟩

/-- A step of a run of a sequence is a step of the sequence. -/
theorem schedulerExecute_step_mem {skf : SkfAdapter σ} {settings : Option GatewaySettings}
    {registry : Registry} {req : Request} {world : σ} (hne : req.sequence.bytes ≠ [])
    {ρ : StepRecord σ} (hρ : ρ ∈ (schedulerExecute skf settings registry req world).trace) :
    ∃ steps, parseSequence req = .ok steps ∧ ρ.step ∈ steps := by
  rw [schedulerExecute] at hρ
  split at hρ
  · simp at hρ
  · simp at hρ
  · rw [if_pos hne] at hρ
    exact executeSequence_step_mem hρ

/-- The gateway PIN does not stop or answer the request. -/
def PinOpen (settings : Option GatewaySettings) (req : Request) : Prop :=
  ∀ s, settings = some s → s.gatewayPin.bytes ≠ [] →
    req.userPin = s.gatewayPin ∧ ¬(req.action = .checkPin ∧ req.domain = .auth)

theorem validateGatewayPin_proceed_iff (settings : Option GatewaySettings) (req : Request) :
    validateGatewayPin settings req = .proceed ↔ PinOpen settings req := by
  cases settings with
  | none => simp [validateGatewayPin, PinOpen]
  | some s =>
    by_cases hs : s.gatewayPin.bytes = []
    · simp [validateGatewayPin, PinOpen, hs]
    · by_cases hc : req.action = .checkPin ∧ req.domain = .auth
      · by_cases hp : req.userPin = s.gatewayPin <;>
          simp [validateGatewayPin, PinOpen, hs, hc.1, hc.2, hp]
      · by_cases hp : req.userPin = s.gatewayPin <;>
          simp [validateGatewayPin, PinOpen, hs, hc, hp]

theorem validateGatewayPin_answered {settings : Option GatewaySettings} {req : Request}
    {resp : Response} (h : validateGatewayPin settings req = .answered resp) :
    req.domain = .auth ∧ req.action = .checkPin := by
  unfold validateGatewayPin at h
  split at h
  · simp at h
  · split_ifs at h with _ hc
    exact ⟨hc.2, hc.1⟩

theorem validateGatewayPin_refused {settings : Option GatewaySettings} {req : Request}
    {resp : Response} (h : validateGatewayPin settings req = .refused resp) :
    ∃ msg : ErrText, msg.bytes ≠ [] ∧ resp = buildErrorResponse req .unauthorized (some msg) := by
  rw [validateGatewayPin.eq_def] at h
  split at h
  · simp at h
  · split_ifs at h
    · exact ⟨_, store_ne_nil (by decide) (by simp [lit_eq_nil_iff]), (PinCheck.refused.inj h).symm⟩
    · exact ⟨_, store_ne_nil (by decide) (by simp [lit_eq_nil_iff]), (PinCheck.refused.inj h).symm⟩

/-- An accepted sequence has a step for each token. -/
theorem parseSteps_forall₂ {room : ℕ} {ts : List Bytes} {steps : List SequenceStep}
    (h : parseSteps room ts = .ok steps) :
    List.Forall₂ (fun token step => parseStep token = .ok step) ts steps := by
  induction ts generalizing room steps with
  | nil =>
    have hnil : steps = [] := by
      cases room <;> simpa [parseSteps, eq_comm] using h
    subst hnil
    exact .nil
  | cons token ts ih =>
    cases room with
    | zero => simp [parseSteps] at h
    | succ room =>
      rw [parseSteps] at h
      cases hs : parseStep token with
      | error e => simp [hs, bind, Except.bind] at h
      | ok step =>
        cases hr : parseSteps room ts with
        | error e => simp [hs, hr, bind, Except.bind] at h
        | ok rest =>
          simp only [hs, hr, bind, Except.bind, Except.ok.injEq] at h
          rw [← h]
          exact .cons hs (ih hr)

/-- A sequence without steps is one of separators alone. -/
theorem parseSequence_nil_iff {req : Request} (hne : req.sequence.bytes ≠ []) :
    parseSequence req = .ok [] ↔ ∀ c ∈ req.sequence.bytes, gt c = true := by
  rw [parseSequence, if_neg hne, store_self, ← tokens_eq_nil_iff]
  constructor
  · intro h
    exact List.forall₂_nil_right_iff.mp (parseSteps_forall₂ h)
  · intro h
    rw [h, parseSteps]

/-- The steps a request consists of. -/
def consistsOf (req : Request) : Option (List SequenceStep) :=
  if req.sequence.bytes ≠ [] then (parseSequence req).toOption else some [plainStep req]

def DispatchedOk (ρ : StepRecord σ) : Prop :=
  (∃ i, ρ.run.invoked = some i) ∧ ∃ resp, ρ.run.outcome = .ok resp

/-- What the status promises: the gateway answered its own PIN request, or
each step of the request was dispatched and succeeded, and there was one. -/
def OkEarned (settings : Option GatewaySettings) (req : Request) (e : Execution σ) : Prop :=
  e.rc = 0 → e.resp.status = .ok →
    (req.domain = .auth ∧ req.action = .checkPin ∧
      validateGatewayPin settings req = .answered e.resp) ∨
    (e.trace ≠ [] ∧ consistsOf req = some (e.trace.map StepRecord.step) ∧
      ∀ ρ ∈ e.trace, DispatchedOk ρ)

theorem called_dispatchedOk {skf : SkfAdapter σ} {req : Request} {step : SequenceStep}
    {payload : Bytes} {ρ : StepRecord σ} (h : Called skf req step payload ρ)
    (hp : passed ρ ≠ none) : DispatchedOk ρ := by
  rw [passed] at hp
  split at hp
  · rename_i resp hout
    rw [h.2.2] at hout
    obtain ⟨i, hi⟩ := StepCall.ok_invoked hout
    rw [← h.2.2] at hi hout
    exact ⟨⟨i, hi⟩, ⟨resp, hout⟩⟩
  · exact absurd rfl hp

theorem executeSequence_okEarned {skf : SkfAdapter σ} {req : Request}
    (hne : req.sequence.bytes ≠ []) (hgt : ¬∀ c ∈ req.sequence.bytes, gt c = true)
    (settings : Option GatewaySettings) (registry : Registry) (resp : Response) (world : σ) :
    OkEarned settings req (executeSequence skf registry req resp world) := by
  intro hrc _
  cases hparse : parseSequence req with
  | error errbuf => simp [executeSequence, hparse] at hrc
  | ok steps =>
    cases steps with
    | nil => exact absurd ((parseSequence_nil_iff hne).mp hparse) hgt
    | cons step steps =>
      obtain ⟨final, hrel, hrep⟩ := executeSequence_run skf hparse registry resp world
      have hfinal : final ≠ none := by
        intro hn
        have hf := (hrep.failed hn).1
        omega
      obtain ⟨hsteps, hpassed⟩ := relay_complete StepRecord.step (fun _ _ _ h => h.1) hrel hfinal
      refine Or.inr ⟨?_, ?_, ?_⟩
      · intro hnil
        simp [hnil] at hsteps
      · rw [consistsOf, if_pos hne, hparse, hsteps]
        rfl
      · intro ρ hρ
        obtain ⟨_, _, _, hcalled⟩ := relay_mem hrel ρ hρ
        exact called_dispatchedOk hcalled (hpassed ρ hρ)

theorem executePlain_okEarned {skf : SkfAdapter σ} {req : Request}
    (he : req.sequence.bytes = []) (settings : Option GatewaySettings) (registry : Registry)
    (resp : Response) (world : σ) :
    OkEarned settings req (executePlain skf registry req resp world) := by
  intro hrc _
  cases hout : (executeSingleStep skf registry req req.domain req.action req.algorithm.bytes
      req.payload.bytes req.auxPayload.bytes req.keyRef.bytes .unknown resp world).outcome with
  | error errbuf => simp [executePlain, hout] at hrc
  | ok answer =>
    have hcall : ((stepCall req (plainStep req) req.payload.bytes resp).run skf registry
        world).outcome = .ok answer := hout
    obtain ⟨i, hi⟩ := StepCall.ok_invoked hcall
    refine Or.inr ?_
    simp only [executePlain, hout]
    refine ⟨by simp, by simp [consistsOf, he], ?_⟩
    intro ρ hρ
    rw [List.mem_singleton] at hρ
    subst hρ
    exact ⟨⟨i, hi⟩, ⟨answer, hout⟩⟩

theorem schedulerExecute_ok_earned_iff (skf : SkfAdapter σ) (settings : Option GatewaySettings)
    (registry : Registry) (req : Request) (world : σ) :
    OkEarned settings req (schedulerExecute skf settings registry req world) ↔
      ¬(PinOpen settings req ∧ req.sequence.bytes ≠ [] ∧
        ∀ c ∈ req.sequence.bytes, gt c = true) := by
  cases hpin : validateGatewayPin settings req with
  | answered resp =>
    have hclosed : ¬PinOpen settings req := by
      rw [← validateGatewayPin_proceed_iff, hpin]
      simp
    have hauth := validateGatewayPin_answered hpin
    simp only [schedulerExecute, hpin, hclosed, false_and, not_false_eq_true, iff_true]
    exact fun _ _ => Or.inl ⟨hauth.1, hauth.2, hpin⟩
  | refused resp =>
    have hclosed : ¬PinOpen settings req := by
      rw [← validateGatewayPin_proceed_iff, hpin]
      simp
    simp only [schedulerExecute, hpin, hclosed, false_and, not_false_eq_true, iff_true]
    intro hrc
    simp at hrc
  | proceed =>
    have hopen : PinOpen settings req := (validateGatewayPin_proceed_iff settings req).mp hpin
    by_cases he : req.sequence.bytes = []
    · simp only [schedulerExecute, hpin, he, ne_eq, not_true_eq_false, if_false, false_and,
        and_false, not_false_eq_true, iff_true]
      exact executePlain_okEarned he settings registry _ world
    · simp only [schedulerExecute, hpin, he, ne_eq, not_false_eq_true, if_true, hopen, true_and]
      constructor
      · intro hok hgt
        simp only [executeSequence, (parseSequence_nil_iff he).mpr hgt] at hok
        rcases hok rfl rfl with h | h
        · rw [hpin] at h
          simp at h
        · exact h.1 rfl
      · intro hgt
        exact executeSequence_okEarned he hgt settings registry _ world

/-- An adapter whose every call fails, as without the vendor library. -/
def absentToken : SkfAdapter Unit :=
  let fail : Handler Unit := fun _ _ _ world =>
    (.error (some (store errbufLen (lit "failed to load SKF library"))), world)
  ⟨fail, fail, fail, fail, fail, fail, fail⟩

def separatorLine : Bytes :=
  lit "\x7b\"request_id\":\"r1\",\"domain\":\"asym\",\"action\":\"verify\",\"sequence\":\">\"\x7d"

def separatorRequest : Request where
  requestId := store maxIdLen (lit "r1")
  domain := .asym
  action := .verify
  algorithm := store maxFieldLen (lit "auto")
  keyRef := empty
  payload := empty
  auxPayload := empty
  deviceHint := empty
  userPin := empty
  preference := .balanced
  sequence := store maxPayloadLen (lit ">")

/-- An empty registry reports a verification as done. -/
theorem separator_sequence_unearned :
    parseRequestJson separatorLine = .ok separatorRequest ∧
      ¬OkEarned none separatorRequest
        (schedulerExecute absentToken none registryInit separatorRequest ()) := by
  constructor
  · decide
  · intro h
    rcases h (by decide) (by decide) with h | h
    · exact absurd h.1 (by decide)
    · exact h.1 (List.eq_nil_of_length_eq_zero (by decide))

/-- A step handed over whole: its handler gets the step's names, the
request's key and second payload, and exactly the given payload. -/
def HandedWhole (req : Request) (step : SequenceStep) (payload : Bytes) (ρ : StepRecord σ) :
    Prop :=
  ρ.step = step ∧ (passed ρ ≠ none → ρ.run.invoked ≠ none) ∧
    ∀ i, ρ.run.invoked = some i →
      i.call.call.domain = step.domain ∧ i.call.call.action = step.action ∧
      i.call.call.algorithm = step.algorithm ∧ i.call.call.keyRef = req.keyRef ∧
      i.call.call.auxPayload = req.auxPayload ∧ i.call.call.payload.bytes = payload

/-- The run is the relay of the steps' full results, from the request's
payload to the response's result. -/
def ComposesExactly (req : Request) (steps : List SequenceStep) (e : Execution σ) : Prop :=
  ∃ final, Relayed (HandedWhole req) passed req.payload.bytes steps e.trace final ∧
    (e.rc = 0 ↔ final ≠ none) ∧ ∀ q, final = some q → e.resp.result.bytes = q

/-- The payload reaches an adapter and fits the translated call. -/
def FitsCall (req : Request) (ρ : StepRecord σ) : Prop :=
  (stepCall req ρ.step ρ.payload Response.zero).target ρ.before ≠ none →
    ρ.payload.length < maxPayloadLen

theorem called_invoked {skf : SkfAdapter σ} {req : Request} {step : SequenceStep}
    {payload : Bytes} {ρ : StepRecord σ} (h : Called skf req step payload ρ) :
    (∃ i, ρ.run.invoked = some i) ↔
      (stepCall req ρ.step ρ.payload Response.zero).target ρ.before ≠ none := by
  obtain ⟨rfl, rfl, hrun⟩ := h
  rw [Option.ne_none_iff_exists', hrun]
  constructor
  · rintro ⟨i, hi⟩
    exact ⟨i.device, (StepCall.invoked_target skf ρ.worldBefore i.device).mpr ⟨i, hi, rfl⟩⟩
  · rintro ⟨device, hd⟩
    obtain ⟨i, hi, _⟩ := (StepCall.invoked_target skf ρ.worldBefore device).mp hd
    exact ⟨i, hi⟩

/-- The call a step hands over is whole up to the cut of its payload. -/
theorem called_call {skf : SkfAdapter σ} {req : Request} {step : SequenceStep}
    {payload : Bytes} {ρ : StepRecord σ} (h : Called skf req step payload ρ) {i : Invocation}
    (hi : ρ.run.invoked = some i) :
    i.call.call =
      { domain := step.domain
        action := step.action
        algorithm := step.algorithm
        keyRef := req.keyRef
        payload := store maxPayloadLen payload
        auxPayload := req.auxPayload } := by
  rw [h.2.2, StepCall.invoked_iff] at hi
  obtain ⟨acquired, _, _, ht⟩ := hi
  rw [StepCall.translate_eq ht]
  simp only [stepCall, store_bytes_self]

theorem called_handedWhole {skf : SkfAdapter σ} {req : Request} {step : SequenceStep}
    {payload : Bytes} {ρ : StepRecord σ} (h : Called skf req step payload ρ)
    (hfits : FitsCall req ρ) : HandedWhole req step payload ρ := by
  refine ⟨h.1, ?_, ?_⟩
  · intro hp
    obtain ⟨i, hi⟩ := (called_dispatchedOk h hp).1
    simp [hi]
  · intro i hi
    have hlen := hfits ((called_invoked h).mp ⟨i, hi⟩)
    rw [h.2.1] at hlen
    rw [called_call h hi]
    exact ⟨rfl, rfl, rfl, rfl, rfl, store_fits hlen⟩

theorem handedWhole_fitsCall {skf : SkfAdapter σ} {req : Request} {step : SequenceStep}
    {payload : Bytes} {ρ : StepRecord σ} (h : Called skf req step payload ρ)
    (hw : HandedWhole req step payload ρ) : FitsCall req ρ := by
  intro ht
  obtain ⟨i, hi⟩ := (called_invoked h).mpr ht
  have hp := (hw.2.2 i hi).2.2.2.2.2
  rw [called_call h hi, store_bytes_eq_iff] at hp
  rw [h.2.1]
  exact hp

theorem composesExactly_fitsCall {skf : SkfAdapter σ} {req : Request} {step : SequenceStep}
    {steps : List SequenceStep} (h : parseSequence req = .ok (step :: steps))
    (registry : Registry) (resp : Response) (world : σ)
    (hc : ComposesExactly req (step :: steps) (executeSequence skf registry req resp world)) :
    ∀ ρ ∈ (executeSequence skf registry req resp world).trace, FitsCall req ρ := by
  intro ρ hρ
  obtain ⟨final, hwhole, _⟩ := hc
  obtain ⟨final', hcalled, _⟩ := executeSequence_run skf h registry resp world
  obtain ⟨_, _, _, hw, hca⟩ := relay_mem (relay_and hwhole hcalled) ρ hρ
  exact handedWhole_fitsCall hca hw

theorem executeSequence_composes_iff (skf : SkfAdapter σ) (registry : Registry) (req : Request)
    (resp : Response) (world : σ) (step : SequenceStep) (steps : List SequenceStep)
    (h : parseSequence req = .ok (step :: steps)) :
    ComposesExactly req (step :: steps) (executeSequence skf registry req resp world) ↔
      ∀ ρ ∈ (executeSequence skf registry req resp world).trace, FitsCall req ρ := by
  constructor
  · exact composesExactly_fitsCall h registry resp world
  · intro hfits
    obtain ⟨final, hrel, hrep⟩ := executeSequence_run skf h registry resp world
    refine ⟨final, ?_, ?_, ?_⟩
    · exact relay_mono hrel fun s v ρ hρ hc => called_handedWhole hc (hfits ρ hρ)
    · cases final with
      | none => simp [(hrep.failed rfl).1]
      | some q => simp [(hrep.succeeded q rfl).1]
    · intro q hq
      exact (hrep.succeeded q hq).2.2

instance (req : Request) (ρ : StepRecord σ) : Decidable (FitsCall req ρ) :=
  inferInstanceAs (Decidable (_ → _))

def anySource (domain : ApiDomain) (action : ApiAction) (algorithm : String) : Capability :=
  ⟨domain, action, store maxFieldLen (lit algorithm), 0xffffffff⟩

def classicOne : DeviceResource where
  deviceId := store maxFieldLen (lit "classic-1")
  type := .classic
  backendProfile := store maxFieldLen (lit "swsds-classic")
  priority := 100
  enabled := true
  maxInflight := 8
  inflight := 0
  securityScore := 70
  efficiencyScore := 95
  caps := [anySource .asym .sign "sm2", anySource .asym .verify "sm2",
    anySource .hash .hash "sm3"]
  capsFit := by decide

def pqcOne : DeviceResource where
  deviceId := store maxFieldLen (lit "pqc-1")
  type := .pqc
  backendProfile := store maxFieldLen (lit "swsds-pqc")
  priority := 200
  enabled := true
  maxInflight := 8
  inflight := 0
  securityScore := 98
  efficiencyScore := 70
  caps := [anySource .pqc .sign "dilithium3", anySource .pqc .verify "dilithium3",
    anySource .hash .hash "sm3"]
  capsFit := by decide

def sampleRegistry : Registry := ⟨[classicOne, pqcOne], by decide⟩

/-- A request to sign twice. -/
def signTwice (payload : Bytes) : Request where
  requestId := store maxIdLen (lit "r6")
  domain := .asym
  action := .sign
  algorithm := store maxFieldLen (lit "sm2")
  keyRef := store maxFieldLen (lit "k1")
  payload := store maxPayloadLen payload
  auxPayload := empty
  deviceHint := empty
  userPin := empty
  preference := .balanced
  sequence := store maxPayloadLen (lit "asym:sign:classic:sm2>pqc:sign:pqc:dilithium3")

def signTwiceLine (payload : Bytes) : Bytes :=
  lit "\x7b\"request_id\":\"r6\",\"domain\":\"asym\",\"action\":\"sign\",\"algorithm\":\"sm2\"," ++
    lit "\"key_ref\":\"k1\",\"payload\":\"" ++ payload ++
    lit "\",\"sequence\":\"asym:sign:classic:sm2>pqc:sign:pqc:dilithium3\"\x7d"

def classicSign : SequenceStep := ⟨.asym, .sign, .classic, store maxFieldLen (lit "sm2")⟩

def pqcSign : SequenceStep := ⟨.pqc, .sign, .pqc, store maxFieldLen (lit "dilithium3")⟩

theorem hello_composes :
    parseRequestJson (signTwiceLine (lit "hello")) = .ok (signTwice (lit "hello")) ∧
      ComposesExactly (signTwice (lit "hello")) [classicSign, pqcSign]
        (executeSequence absentToken sampleRegistry (signTwice (lit "hello")) Response.zero ()) := by
  constructor
  · decide
  · apply (executeSequence_composes_iff absentToken sampleRegistry (signTwice (lit "hello"))
      Response.zero () classicSign [pqcSign] (by decide)).mpr
    decide

/-- The first signature of a payload of 1010 bytes has 1033 bytes; the second
step signs its first 1023. -/
theorem long_payload_cut :
    parseRequestJson (signTwiceLine (List.replicate 1010 97)) =
        .ok (signTwice (List.replicate 1010 97)) ∧
      parseSequence (signTwice (List.replicate 1010 97)) = .ok [classicSign, pqcSign] ∧
      ¬ComposesExactly (signTwice (List.replicate 1010 97)) [classicSign, pqcSign]
        (executeSequence absentToken sampleRegistry (signTwice (List.replicate 1010 97))
          Response.zero ()) := by
  have hparse : parseSequence (signTwice (List.replicate 1010 97)) = .ok [classicSign, pqcSign] := by
    decide
  refine ⟨by decide +kernel, hparse, ?_⟩
  intro hc
  have hfits := composesExactly_fitsCall hparse sampleRegistry Response.zero () hc
  revert hfits
  decide +kernel

end Ucisdk.SequenceRun
