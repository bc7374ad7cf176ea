import Ucisdk.Scan.Joined
import Ucisdk.SequenceGrammar

/-!
# Sequences put together

A sequence cut at one of its separators is two requests: the second is given
the first one's result as payload and starts from the devices and the world
that the first one left. The responses are joined as the scheduler joins the
responses of single steps.
-/

set_option autoImplicit false

namespace Ucisdk.SequenceJoin

open Ucisdk.CString Ucisdk.Common Ucisdk.Protocol Ucisdk.Resource Ucisdk.Translator Ucisdk.Driver
open Ucisdk.Scheduler Ucisdk.StepCalls Ucisdk.SequenceRun Ucisdk.SequenceGrammar
open Scan.Tokens Scan.Joined

section Responses

variable {cap : ℕ} [NeZero cap]

theorem appendWithSep_bytes (dst : CStr cap) (value : Bytes) (sep : String) :
    (appendWithSep dst value sep).bytes = joined (cap - 1) (lit sep) dst.bytes value := by
  rw [appendWithSep, joined]
  split
  · rfl
  · by_cases hdst : dst.bytes = []
    · rw [if_neg (not_not_intro hdst), if_pos hdst, append, store_bytes, hdst, List.nil_append]
    · rw [if_pos hdst, if_neg hdst, append, append, store_bytes, store_bytes, take_append_left,
        List.append_assoc]

theorem appendWithSep_assoc (hcap : 1 < cap) (a b : CStr cap) (c : Bytes) (sep : String) :
    appendWithSep (appendWithSep a b.bytes sep) c sep =
      appendWithSep a (appendWithSep b c sep).bytes sep := by
  apply CStr.ext
  rw [appendWithSep_bytes, appendWithSep_bytes, appendWithSep_bytes, appendWithSep_bytes]
  exact joined_assoc (by omega) a.bytes b.bytes c

theorem appendWithSep_empty (a : CStr cap) (sep : String) :
    appendWithSep a (empty : CStr cap).bytes sep = a := by
  rw [appendWithSep, if_pos empty_bytes]

/-- The response of a run put behind that of an earlier one. -/
def joinResponses (resp next : Response) : Response :=
  { next with
    selectedDevice := appendWithSep resp.selectedDevice next.selectedDevice.bytes ">"
    backendName := appendWithSep resp.backendName next.backendName.bytes ">"
    backendCall := appendWithSep resp.backendCall next.backendCall.bytes ">"
    trace := appendWithSep resp.trace next.trace.bytes " => " }

theorem joinResponses_step (resp next stepResp : Response) :
    joinResponses resp (joinStepResponse next stepResp) =
      joinStepResponse (joinResponses resp next) stepResp := by
  simp only [joinResponses, joinStepResponse, appendWithSep_assoc (by decide : 1 < maxResponseLen)]

end Responses

section Runs

variable {σ : Type} (skf : SkfAdapter σ) (req : Request)

/-- What a run leaves: its return code, its response, the devices and the
world, and the handlers it invoked. -/
structure Ending (σ : Type) where
  rc : ℤ
  resp : Response
  registry : Registry
  world : σ
  invoked : List (Option Invocation)

def ending (e : Execution σ) : Ending σ where
  rc := e.rc
  resp := e.resp
  registry := e.registry
  world := e.world
  invoked := e.trace.map fun ρ => ρ.run.invoked

/-- A run and, where it succeeded, a second one behind it. -/
def Ending.andThen (e : Ending σ) (next : Response → Registry → σ → Ending σ) : Ending σ :=
  if e.rc = 0 then
    let f := next e.resp e.registry e.world
    { f with
      resp := if f.rc = 0 then joinResponses e.resp f.resp else f.resp
      invoked := e.invoked ++ f.invoked }
  else e

variable {skf req}

section OneStep

variable {step : SequenceStep} {payload : CStr maxResponseLen} {registry : Registry} {world : σ}

theorem runSteps_error (steps : List SequenceStep) (resp : Response) {errbuf : Option ErrText}
    (h : (sequenceStepRun skf req step payload registry world).outcome = .error errbuf) :
    runSteps skf req (step :: steps) payload resp registry world =
      let run := sequenceStepRun skf req step payload registry world
      ⟨-1, buildErrorResponse req .backendFail errbuf, run.registry, run.world,
        [⟨registry, world, step, payload.bytes, run⟩]⟩ := by
  simp only [runSteps, h]

theorem runSteps_ok (steps : List SequenceStep) (resp : Response) {stepResp : Response}
    (h : (sequenceStepRun skf req step payload registry world).outcome = .ok stepResp) :
    runSteps skf req (step :: steps) payload resp registry world =
      let run := sequenceStepRun skf req step payload registry world
      let rest := runSteps skf req steps stepResp.result (joinStepResponse resp stepResp)
        run.registry run.world
      { rest with trace := ⟨registry, world, step, payload.bytes, run⟩ :: rest.trace } := by
  simp only [runSteps, h, store_bytes_self]

end OneStep

/-- The texts collected so far stay in front of what the steps add. -/
theorem runSteps_joined (resp : Response) (steps : List SequenceStep)
    (payload : CStr maxResponseLen) (acc : Response) (registry : Registry) (world : σ) :
    runSteps skf req steps payload (joinResponses resp acc) registry world =
      let e := runSteps skf req steps payload acc registry world
      { e with resp := if e.rc = 0 then joinResponses resp e.resp else e.resp } := by
  induction steps generalizing payload acc registry world with
  | nil => rfl
  | cons step steps ih =>
    cases hout : (sequenceStepRun skf req step payload registry world).outcome with
    | error errbuf =>
      rw [runSteps_error _ _ hout, runSteps_error _ _ hout]
      rfl
    | ok stepResp =>
      rw [runSteps_ok _ _ hout, runSteps_ok _ _ hout, ← joinResponses_step]
      simp only [ih]

/-- A run does not look at the status and the result it began with. -/
def fresh (resp : Response) : Response := { resp with result := empty, status := .ok }

theorem runSteps_append (steps₁ steps₂ : List SequenceStep) (payload : CStr maxResponseLen)
    (resp : Response) (hresp : fresh resp = resp) (registry : Registry) (world : σ) :
    runSteps skf req (steps₁ ++ steps₂) payload resp registry world =
      let e := runSteps skf req steps₁ payload resp registry world
      if e.rc = 0 then
        let f := runSteps skf req steps₂ e.resp.result (fresh e.resp) e.registry e.world
        { f with trace := e.trace ++ f.trace }
      else e := by
  induction steps₁ generalizing payload resp registry world with
  | nil =>
    have hfresh : fresh { resp with result := payload, status := .ok } = resp := hresp
    simp only [List.nil_append, runSteps, if_true, store_bytes_self, hfresh]
  | cons step steps₁ ih =>
    rw [List.cons_append]
    cases hout : (sequenceStepRun skf req step payload registry world).outcome with
    | error errbuf =>
      rw [runSteps_error _ _ hout, runSteps_error _ _ hout]
      rfl
    | ok stepResp =>
      have hjoined : fresh (joinStepResponse resp stepResp) = joinStepResponse resp stepResp := by
        rw [← hresp]
        rfl
      rw [runSteps_ok _ _ hout, runSteps_ok _ _ hout]
      simp only [ih _ _ hjoined]
      split
      · rfl
      · rfl

theorem runSteps_requestId (steps : List SequenceStep) (payload : CStr maxResponseLen)
    (resp : Response) (hid : resp.requestId = req.requestId) (registry : Registry) (world : σ) :
    (runSteps skf req steps payload resp registry world).resp.requestId = req.requestId := by
  induction steps generalizing payload resp registry world with
  | nil => exact hid
  | cons step steps ih =>
    cases hout : (sequenceStepRun skf req step payload registry world).outcome with
    | error errbuf =>
      rw [runSteps_error _ _ hout]
      exact store_bytes_self req.requestId
    | ok stepResp =>
      rw [runSteps_ok _ _ hout]
      exact ih _ (joinStepResponse resp stepResp) hid _ _

theorem executeSingleStep_cut (registry : Registry) (domain : ApiDomain) (action : ApiAction)
    (algorithm auxPayload keyRef : Bytes) (explicitType : DeviceType) (resp : Response) (world : σ)
    {payload payload' : Bytes}
    (h : store maxPayloadLen payload = store maxPayloadLen payload') :
    executeSingleStep skf registry req domain action algorithm payload auxPayload keyRef
        explicitType resp world =
      executeSingleStep skf registry req domain action algorithm payload' auxPayload keyRef
        explicitType resp world := by
  simp only [executeSingleStep, translateBackendCall, h]

/-- A step reads no more of its payload than a request can carry. -/
theorem runSteps_cut (steps : List SequenceStep) (hne : steps ≠ [])
    {payload payload' : CStr maxResponseLen}
    (h : store maxPayloadLen payload.bytes = store maxPayloadLen payload'.bytes) (resp : Response)
    (registry : Registry) (world : σ) :
    ending (runSteps skf req steps payload resp registry world) =
      ending (runSteps skf req steps payload' resp registry world) := by
  cases steps with
  | nil => exact absurd rfl hne
  | cons step steps =>
    have hrun : sequenceStepRun skf req step payload registry world =
        sequenceStepRun skf req step payload' registry world :=
      executeSingleStep_cut registry _ _ _ _ _ _ _ world h
    cases hout : (sequenceStepRun skf req step payload' registry world).outcome with
    | error errbuf =>
      rw [runSteps_error _ _ hout, runSteps_error _ _ (hrun ▸ hout), hrun]
      rfl
    | ok stepResp =>
      rw [runSteps_ok _ _ hout, runSteps_ok _ _ (hrun ▸ hout), hrun]
      rfl

end Runs

section Parts

/-- A request for a part of its sequence. -/
def part (req : Request) (sequence : Bytes) (payload : CStr maxPayloadLen) : Request :=
  { req with
    sequence := store maxPayloadLen sequence
    payload := payload }

theorem parseSequence_tokens (req : Request) :
    parseSequence req = parseSteps maxSequenceSteps (tokens gt req.sequence.bytes) := by
  rw [parseSequence]
  split
  · rename_i hnil
    rw [hnil, tokens_nil, parseSteps]
  · rw [store_self]

theorem parseSteps_append {room : ℕ} {ts₁ ts₂ : List Bytes} {steps : List SequenceStep} :
    parseSteps room (ts₁ ++ ts₂) = .ok steps ↔
      ∃ steps₁ steps₂, parseSteps room ts₁ = .ok steps₁ ∧ parseSteps room ts₂ = .ok steps₂ ∧
        steps₁.length + steps₂.length ≤ room ∧ steps = steps₁ ++ steps₂ := by
  simp only [parseSteps_ok_iff]
  constructor
  · rintro ⟨hroom, h⟩
    have hlen := h.length_eq
    rw [List.length_append] at hlen
    have h₁ := List.forall₂_take_append steps ts₁ ts₂ h.flip
    have h₂ := List.forall₂_drop_append steps ts₁ ts₂ h.flip
    refine ⟨steps.take ts₁.length, steps.drop ts₁.length, ⟨?_, h₁.flip⟩, ⟨?_, h₂.flip⟩, ?_, ?_⟩
    · rw [List.length_take]
      omega
    · rw [List.length_drop]
      omega
    · rw [List.length_take, List.length_drop]
      omega
    · exact (List.take_append_drop ts₁.length steps).symm
  · rintro ⟨steps₁, steps₂, ⟨_, h₁⟩, ⟨_, h₂⟩, hroom, rfl⟩
    rw [List.length_append]
    exact ⟨hroom, List.rel_append h₁ h₂⟩

variable {req : Request} {first rest : Bytes}

theorem part_first (hcut : req.sequence.bytes = first ++ 62 :: rest) (p : CStr maxPayloadLen) :
    (part req first p).sequence.bytes = first := by
  have hfits := req.sequence.fits
  rw [hcut, List.length_append, List.length_cons] at hfits
  apply store_fits
  omega

theorem part_rest (hcut : req.sequence.bytes = first ++ 62 :: rest) (p : CStr maxPayloadLen) :
    (part req rest p).sequence.bytes = rest := by
  have hfits := req.sequence.fits
  rw [hcut, List.length_append, List.length_cons] at hfits
  apply store_fits
  omega

theorem tokens_cut (hcut : req.sequence.bytes = first ++ 62 :: rest) :
    tokens gt req.sequence.bytes = tokens gt first ++ tokens gt rest := by
  rw [hcut, tokens_append_cons gt first rest (by decide)]

/-- A sequence is read as its two parts are, as long as their steps have room
together. -/
theorem parseSequence_cut (hcut : req.sequence.bytes = first ++ 62 :: rest)
    (p p' : CStr maxPayloadLen) {steps : List SequenceStep} :
    parseSequence req = .ok steps ↔
      ∃ steps₁ steps₂, parseSequence (part req first p) = .ok steps₁ ∧
        parseSequence (part req rest p') = .ok steps₂ ∧
        steps₁.length + steps₂.length ≤ maxSequenceSteps ∧ steps = steps₁ ++ steps₂ := by
  rw [parseSequence_tokens, parseSequence_tokens, parseSequence_tokens, part_first hcut,
    part_rest hcut, tokens_cut hcut]
  exact parseSteps_append

theorem parseSequence_no_steps (h : parseSequence req = .ok []) :
    tokens gt req.sequence.bytes = [] := by
  rw [parseSequence_tokens] at h
  exact List.forall₂_nil_right_iff.mp (parseSteps_forall₂ h)

theorem sequence_ne_nil {steps : List SequenceStep} (h : parseSequence req = .ok steps)
    (hne : steps ≠ []) : req.sequence.bytes ≠ [] := by
  intro hnil
  rw [parseSequence, if_pos hnil, Except.ok.injEq] at h
  exact hne h.symm

end Parts

section Requests

variable {σ : Type} {skf : SkfAdapter σ} {settings : Option GatewaySettings} {req : Request}
  {first rest : Bytes}

theorem runSteps_part (sequence : Bytes) (p : CStr maxPayloadLen) (steps : List SequenceStep)
    (payload : CStr maxResponseLen) (resp : Response) (registry : Registry) (world : σ) :
    runSteps skf (part req sequence p) steps payload resp registry world =
      runSteps skf req steps payload resp registry world := by
  induction steps generalizing payload resp registry world with
  | nil => rfl
  | cons step steps ih =>
    have hrun : sequenceStepRun skf (part req sequence p) step payload registry world =
        sequenceStepRun skf req step payload registry world := rfl
    cases hout : (sequenceStepRun skf req step payload registry world).outcome with
    | error errbuf =>
      rw [runSteps_error _ _ hout, runSteps_error _ _ (hrun ▸ hout), hrun]
      rfl
    | ok stepResp =>
      rw [runSteps_ok _ _ hout, runSteps_ok _ _ (hrun ▸ hout), hrun]
      simp only [ih]

/-- The response a request starts with. -/
def opened (req : Request) : Response :=
  { Response.zero with requestId := store maxIdLen req.requestId.bytes }

theorem joinResponses_opened {resp : Response} (hid : resp.requestId = req.requestId) :
    joinResponses resp (opened req) = fresh resp := by
  rw [joinResponses, opened, fresh, ← hid]
  simp only [Response.zero, appendWithSep_empty, store_bytes_self]

theorem executeSequence_steps {steps : List SequenceStep} (h : parseSequence req = .ok steps)
    (hne : steps ≠ []) (registry : Registry) (resp : Response) (world : σ) :
    executeSequence skf registry req resp world =
      runSteps skf req steps (store maxResponseLen req.payload.bytes) resp registry world := by
  rw [executeSequence, h]
  cases steps with
  | nil => exact absurd rfl hne
  | cons step steps => rfl

theorem executeSequence_part {sequence : Bytes}
    (h : parseSequence (part req sequence req.payload) = parseSequence req) (registry : Registry)
    (resp : Response) (world : σ) :
    executeSequence skf registry (part req sequence req.payload) resp world =
      executeSequence skf registry req resp world := by
  rw [executeSequence, executeSequence, h]
  split
  · rfl
  · rfl
  · exact runSteps_part _ _ _ _ _ _ _

theorem schedulerExecute_proceed (hpin : validateGatewayPin settings req = .proceed)
    (hne : req.sequence.bytes ≠ []) (registry : Registry) (world : σ) :
    schedulerExecute skf settings registry req world =
      executeSequence skf registry req (opened req) world := by
  rw [schedulerExecute]
  simp only [hpin, if_pos hne]
  rfl

theorem schedulerExecute_refused {resp : Response}
    (hpin : validateGatewayPin settings req = .refused resp) (registry : Registry) (world : σ) :
    schedulerExecute skf settings registry req world = ⟨-1, resp, registry, world, []⟩ := by
  rw [schedulerExecute]
  simp only [hpin]

theorem validateGatewayPin_part (sequence : Bytes) (p : CStr maxPayloadLen) :
    validateGatewayPin settings (part req sequence p) = validateGatewayPin settings req := rfl

/-- A part with the same steps as the whole sequence is served as the whole is. -/
theorem schedulerExecute_part {sequence : Bytes}
    (h : parseSequence (part req sequence req.payload) = parseSequence req)
    (hne : req.sequence.bytes ≠ [])
    (hpart : (part req sequence req.payload).sequence.bytes ≠ []) (registry : Registry)
    (world : σ) :
    schedulerExecute skf settings registry req world =
      schedulerExecute skf settings registry (part req sequence req.payload) world := by
  have hcheck : validateGatewayPin settings (part req sequence req.payload) =
      validateGatewayPin settings req := validateGatewayPin_part sequence req.payload
  cases hpin : validateGatewayPin settings req with
  | proceed =>
    rw [schedulerExecute_proceed hpin hne, schedulerExecute_proceed (hcheck.trans hpin) hpart]
    exact (executeSequence_part h registry _ world).symm
  | answered resp =>
    rw [schedulerExecute, schedulerExecute]
    simp only [hcheck, hpin]
  | refused resp =>
    rw [schedulerExecute_refused hpin, schedulerExecute_refused (hcheck.trans hpin)]

/-- The steps of two parts, run as one sequence. -/
theorem executeSequence_append {steps₁ steps₂ : List SequenceStep}
    (h : parseSequence req = .ok (steps₁ ++ steps₂)) {sequence₁ sequence₂ : Bytes}
    (h₁ : parseSequence (part req sequence₁ req.payload) = .ok steps₁) (hne₁ : steps₁ ≠ [])
    (h₂ : ∀ p, parseSequence (part req sequence₂ p) = .ok steps₂) (hne₂ : steps₂ ≠ [])
    (registry : Registry) (world : σ) :
    ending (executeSequence skf registry req (opened req) world) =
      (ending (executeSequence skf registry (part req sequence₁ req.payload) (opened req)
        world)).andThen fun resp registry world =>
          ending (executeSequence skf registry
            (part req sequence₂ (store maxPayloadLen resp.result.bytes)) (opened req) world) := by
  have hwhole : executeSequence skf registry req (opened req) world =
      runSteps skf req (steps₁ ++ steps₂) (store maxResponseLen req.payload.bytes) (opened req)
        registry world :=
    executeSequence_steps h (by simp [hne₁]) registry (opened req) world
  have hfirst : executeSequence skf registry (part req sequence₁ req.payload) (opened req) world =
      runSteps skf req steps₁ (store maxResponseLen req.payload.bytes) (opened req) registry
        world := by
    rw [executeSequence_steps h₁ hne₁, runSteps_part]
    rfl
  have hid : (runSteps skf req steps₁ (store maxResponseLen req.payload.bytes) (opened req)
      registry world).resp.requestId = req.requestId :=
    runSteps_requestId steps₁ _ (opened req) (store_bytes_self req.requestId) registry world
  rw [hwhole, hfirst, runSteps_append _ _ _ (opened req) (by rfl)]
  generalize runSteps skf req steps₁ (store maxResponseLen req.payload.bytes) (opened req)
    registry world = e at hid
  have hcut : ending (runSteps skf req steps₂ e.resp.result (opened req) e.registry e.world) =
      ending (executeSequence skf e.registry
        (part req sequence₂ (store maxPayloadLen e.resp.result.bytes)) (opened req) e.world) := by
    rw [executeSequence_steps (h₂ _) hne₂, runSteps_part]
    apply runSteps_cut _ hne₂
    apply CStr.ext
    simp [part, List.take_take]
  rw [Ending.andThen]
  by_cases hrc : e.rc = 0
  · rw [if_pos (show (ending e).rc = 0 from hrc)]
    simp only [if_pos hrc, ← joinResponses_opened hid, runSteps_joined]
    simp only [ending, Ending.mk.injEq, List.map_append] at hcut ⊢
    obtain ⟨hcode, hresp, hregistry, hworld, hinvoked⟩ := hcut
    refine ⟨hcode, ?_, hregistry, hworld, ?_⟩
    · simp only [hcode, hresp]
      rfl
    · rw [hinvoked]
  · rw [if_neg (show (ending e).rc ≠ 0 from hrc)]
    simp only [if_neg hrc]

/-- Both parts hold steps, and there is room for all of them. -/
theorem schedulerExecute_both (hcut : req.sequence.bytes = first ++ 62 :: rest)
    (hanswered : ∀ resp, validateGatewayPin settings req ≠ .answered resp)
    {steps₁ steps₂ : List SequenceStep}
    (h₁ : parseSequence (part req first req.payload) = .ok steps₁) (hne₁ : steps₁ ≠ [])
    (h₂ : parseSequence (part req rest req.payload) = .ok steps₂) (hne₂ : steps₂ ≠ [])
    (hroom : steps₁.length + steps₂.length ≤ maxSequenceSteps) (registry : Registry) (world : σ) :
    ending (schedulerExecute skf settings registry req world) =
      (ending (schedulerExecute skf settings registry (part req first req.payload)
        world)).andThen fun resp registry world =>
          ending (schedulerExecute skf settings registry
            (part req rest (store maxPayloadLen resp.result.bytes)) world) := by
  have hne : req.sequence.bytes ≠ [] := by
    rw [hcut]
    simp
  have hcheck (sequence : Bytes) (p : CStr maxPayloadLen) :
      validateGatewayPin settings (part req sequence p) = validateGatewayPin settings req :=
    validateGatewayPin_part sequence p
  have hwhole : parseSequence req = .ok (steps₁ ++ steps₂) :=
    (parseSequence_cut hcut _ _).mpr ⟨steps₁, steps₂, h₁, h₂, hroom, rfl⟩
  cases hpin : validateGatewayPin settings req with
  | proceed =>
    have hlater (p : CStr maxPayloadLen) (registry : Registry) (world : σ) :
        schedulerExecute skf settings registry (part req rest p) world =
          executeSequence skf registry (part req rest p) (opened req) world := by
      have hsteps : parseSequence (part req rest p) = .ok steps₂ := h₂
      exact schedulerExecute_proceed ((hcheck _ _).trans hpin) (sequence_ne_nil hsteps hne₂)
        registry world
    rw [schedulerExecute_proceed hpin hne,
      schedulerExecute_proceed ((hcheck _ _).trans hpin) (sequence_ne_nil h₁ hne₁)]
    simp only [hlater]
    exact executeSequence_append hwhole h₁ hne₁ (fun _ => h₂) hne₂ registry world
  | answered resp => exact absurd hpin (hanswered resp)
  | refused resp =>
    rw [schedulerExecute_refused hpin, schedulerExecute_refused ((hcheck _ _).trans hpin)]
    rfl

/-- Unless there are two parts with room for all their steps, nothing is dispatched. -/
theorem schedulerExecute_neither (hcut : req.sequence.bytes = first ++ 62 :: rest)
    (hanswered : ∀ resp, validateGatewayPin settings req ≠ .answered resp)
    (hneither : ∀ steps₁ steps₂, parseSequence (part req first req.payload) = .ok steps₁ →
      parseSequence (part req rest req.payload) = .ok steps₂ →
      maxSequenceSteps < steps₁.length + steps₂.length) (registry : Registry) (world : σ) :
    (∃ errbuf, schedulerExecute skf settings registry req world =
      ⟨-1, buildErrorResponse req .badRequest (some errbuf), registry, world, []⟩) ∨
    ∃ resp, validateGatewayPin settings req = .refused resp ∧
      schedulerExecute skf settings registry req world = ⟨-1, resp, registry, world, []⟩ := by
  have hne : req.sequence.bytes ≠ [] := by
    rw [hcut]
    simp
  cases hpin : validateGatewayPin settings req with
  | proceed =>
    left
    cases hwhole : parseSequence req with
    | error errbuf =>
      refine ⟨errbuf, ?_⟩
      rw [schedulerExecute_proceed hpin hne, executeSequence, hwhole]
    | ok steps =>
      obtain ⟨steps₁, steps₂, h₁, h₂, hroom, _⟩ :=
        (parseSequence_cut hcut req.payload req.payload).mp hwhole
      have hlong := hneither steps₁ steps₂ h₁ h₂
      omega
  | answered resp => exact absurd hpin (hanswered resp)
  | refused resp => exact Or.inr ⟨resp, rfl, schedulerExecute_refused hpin registry world⟩

/-- How a request for a sequence cut in two behaves. -/
structure CutAt (skf : SkfAdapter σ) (settings : Option GatewaySettings) (registry : Registry)
    (req : Request) (first rest : Bytes) (world : σ) : Prop where
  both : ∀ steps₁ steps₂, parseSequence (part req first req.payload) = .ok steps₁ → steps₁ ≠ [] →
    parseSequence (part req rest req.payload) = .ok steps₂ → steps₂ ≠ [] →
    steps₁.length + steps₂.length ≤ maxSequenceSteps →
      ending (schedulerExecute skf settings registry req world) =
        (ending (schedulerExecute skf settings registry (part req first req.payload)
          world)).andThen fun resp registry world =>
            ending (schedulerExecute skf settings registry
              (part req rest (store maxPayloadLen resp.result.bytes)) world)
  left : parseSequence (part req first req.payload) = .ok [] → rest ≠ [] →
    schedulerExecute skf settings registry req world =
      schedulerExecute skf settings registry (part req rest req.payload) world
  right : parseSequence (part req rest req.payload) = .ok [] → first ≠ [] →
    schedulerExecute skf settings registry req world =
      schedulerExecute skf settings registry (part req first req.payload) world
  neither : (∀ steps₁ steps₂, parseSequence (part req first req.payload) = .ok steps₁ →
      parseSequence (part req rest req.payload) = .ok steps₂ →
      maxSequenceSteps < steps₁.length + steps₂.length) →
    (∃ errbuf, schedulerExecute skf settings registry req world =
      ⟨-1, buildErrorResponse req .badRequest (some errbuf), registry, world, []⟩) ∨
    ∃ resp, validateGatewayPin settings req = .refused resp ∧
      schedulerExecute skf settings registry req world = ⟨-1, resp, registry, world, []⟩

/-- A request for a sequence that is cut at any of its separators: two
requests, one behind the other, as long as both parts hold steps and these
have room together. -/
theorem schedulerExecute_cut (hcut : req.sequence.bytes = first ++ 62 :: rest)
    (hanswered : ∀ resp, validateGatewayPin settings req ≠ .answered resp) (registry : Registry)
    (world : σ) :
    CutAt skf settings registry req first rest world := by
  have hne : req.sequence.bytes ≠ [] := by
    rw [hcut]
    simp
  constructor
  · intro steps₁ steps₂ h₁ hne₁ h₂ hne₂ hroom
    exact schedulerExecute_both hcut hanswered h₁ hne₁ h₂ hne₂ hroom registry world
  · intro h₁ hrest
    apply schedulerExecute_part
    · have htokens := parseSequence_no_steps h₁
      rw [part_first hcut] at htokens
      rw [parseSequence_tokens, parseSequence_tokens, part_rest hcut, tokens_cut hcut, htokens,
        List.nil_append]
    · exact hne
    · rw [part_rest hcut]
      exact hrest
  · intro h₂ hfirst
    apply schedulerExecute_part
    · have htokens := parseSequence_no_steps h₂
      rw [part_rest hcut] at htokens
      rw [parseSequence_tokens, parseSequence_tokens, part_first hcut, tokens_cut hcut, htokens,
        List.append_nil]
    · exact hne
    · rw [part_first hcut]
      exact hfirst
  · intro hneither
    exact schedulerExecute_neither hcut hanswered hneither registry world

end Requests

/-- Two signatures, cut between the two. -/
theorem signTwice_cut :
    let req := signTwice (lit "hello")
    let run := schedulerExecute absentToken none
    ending (run sampleRegistry req ()) =
        (ending (run sampleRegistry (part req (lit "asym:sign:classic:sm2") req.payload)
          ())).andThen (fun resp registry world =>
            ending (run registry (part req (lit "pqc:sign:pqc:dilithium3")
              (store maxPayloadLen resp.result.bytes)) world)) ∧
      (run sampleRegistry req ()).resp.selectedDevice.bytes = lit "classic-1>pqc-1" := by
  have hcut : (signTwice (lit "hello")).sequence.bytes =
      lit "asym:sign:classic:sm2" ++ 62 :: lit "pqc:sign:pqc:dilithium3" := by
    decide
  have hlaw : CutAt absentToken none sampleRegistry (signTwice (lit "hello"))
      (lit "asym:sign:classic:sm2") (lit "pqc:sign:pqc:dilithium3") () :=
    schedulerExecute_cut hcut (by simp [validateGatewayPin]) sampleRegistry ()
  constructor
  · exact hlaw.both [classicSign] [pqcSign] (by decide) (by simp) (by decide)
      (by simp) (by decide)
  · decide

end Ucisdk.SequenceJoin
