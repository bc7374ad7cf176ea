import Ucisdk.RuleCoverage
import Ucisdk.SequenceRun
import Ucisdk.SkfConduct

/-!
# What a failed run answers

Every exit on a failure leaves a text in errbuf, also where the hardware token
is involved, so the response of a failed run is made of its request id, a
status and that text. What earlier steps filled in is not in it, unless the
text quotes the payload that the failing step was handed.
-/

set_option autoImplicit false

namespace Ucisdk.Failures

open Ucisdk.CString Ucisdk.Common Ucisdk.Protocol Ucisdk.Resource Ucisdk.Translator Ucisdk.Driver
open Ucisdk.Scheduler Ucisdk.StepCalls Ucisdk.SequenceRun
open Ucisdk.SkfApi Ucisdk.SkfText Ucisdk.SkfSession Ucisdk.Gm3000 Ucisdk.SkfConduct
open Ucisdk.RuleCoverage
open Flow.Calls Scan.Tokens

section Texts

/-- The texts of a key that cannot be bound to a device. -/
def bindingTexts : List String :=
  ["internal_index key device_id conflicts with device_hint",
    "internal_index key requires device_id or device_hint"]

/-- What a step may leave in errbuf. The payload is not among the arguments. -/
inductive StepText (env : Env) (domain : ApiDomain) (action : ApiAction)
    (algorithm keyRef : Bytes) : Bytes → Prop where
  | binding {text : String} (h : text ∈ bindingTexts) :
    StepText env domain action algorithm keyRef (lit text)
  | noDevice :
    StepText env domain action algorithm keyRef
      (lit "no available device matches domain=" ++ domainToString domain ++ lit " action=" ++
        actionToString action ++ lit " alg=" ++ algorithm)
  | noRule (profile : Bytes) :
    StepText env domain action algorithm keyRef
      (lit "no translation rule for profile=" ++ profile ++ lit " domain=" ++
        domainToString domain ++ lit " action=" ++ actionToString action ++ lit " alg=" ++
        algorithm)
  | token {call : TranslatedCall} {text : Bytes}
      (hkey : call.call.keyRef = store maxFieldLen keyRef) (haction : call.call.action = action)
      (halgorithm : call.call.algorithm = store maxFieldLen algorithm)
      (h : PhraseOf env call text) : StepText env domain action algorithm keyRef text

theorem stepText_ne_nil {env : Env} {domain : ApiDomain} {action : ApiAction}
    {algorithm keyRef text : Bytes} (h : StepText env domain action algorithm keyRef text) :
    text ≠ [] := by
  cases h with
  | binding h =>
    rw [ne_eq, lit_eq_nil_iff]
    rintro rfl
    revert h
    decide
  | noDevice => simp [lit_eq_nil_iff]
  | noRule profile => simp [lit_eq_nil_iff]
  | token hkey haction halgorithm h => exact phrase_ne_nil h

/-- A failed binding says why. -/
theorem resolve_text {req : Request} {keyRef : Bytes} {errbuf : ErrText}
    (h : resolveDeviceHintFromKeyRef req keyRef = .error errbuf) :
    ∃ text ∈ bindingTexts, errbuf = store errbufLen (lit text) := by
  simp only [resolveDeviceHintFromKeyRef] at h
  split at h
  · simp at h
  · split at h
    · split at h
      · exact ⟨_, by simp [bindingTexts], (Except.error.inj h).symm⟩
      · simp at h
    · split at h
      · simp at h
      · exact ⟨_, by simp [bindingTexts], (Except.error.inj h).symm⟩

theorem translate_text {domain : ApiDomain} {action : ApiAction}
    {algorithm payload auxPayload keyRef : Bytes} {device : DeviceResource} {errbuf : ErrText}
    (env : Env) (h : translateBackendCall domain action algorithm payload auxPayload keyRef
      device = .error errbuf) :
    ∃ text, errbuf = store errbufLen text ∧ StepText env domain action algorithm keyRef text := by
  rw [translateBackendCall] at h
  split at h
  · exact ⟨_, (Except.error.inj h).symm, .noRule device.backendProfile.bytes⟩
  · simp at h

theorem parseStep_written {token : Bytes} {errbuf : ErrText}
    (h : parseStep token = .error errbuf) : errbuf.bytes ≠ [] := by
  simp only [parseStep] at h
  split at h
  · rw [← Except.error.inj h]
    exact store_ne_nil (by decide) (by simp [lit_eq_nil_iff])
  · rw [← Except.error.inj h]
    exact store_ne_nil (by decide) (by simp [lit_eq_nil_iff])
  · rw [← Except.error.inj h]
    exact store_ne_nil (by decide) (by simp [lit_eq_nil_iff])
  · rw [← Except.error.inj h]
    exact store_ne_nil (by decide) (by simp [lit_eq_nil_iff])
  · split at h
    · rw [← Except.error.inj h]
      exact store_ne_nil (by decide) (by simp [lit_eq_nil_iff])
    · split at h
      · rw [← Except.error.inj h]
        exact store_ne_nil (by decide) (by simp [lit_eq_nil_iff])
      · simp at h

theorem parseSteps_written {room : ℕ} {ts : List Bytes} {errbuf : ErrText}
    (h : parseSteps room ts = .error errbuf) : errbuf.bytes ≠ [] := by
  induction ts generalizing room with
  | nil => cases room <;> simp [parseSteps] at h
  | cons token ts ih =>
    cases room with
    | zero =>
      rw [← Except.error.inj h]
      exact store_ne_nil (by decide) (by decide)
    | succ room =>
      rw [parseSteps] at h
      cases hstep : parseStep token with
      | error e =>
        simp only [hstep, bind, Except.bind, Except.error.injEq] at h
        subst h
        exact parseStep_written hstep
      | ok step =>
        cases hrest : parseSteps room ts with
        | error e =>
          simp only [hstep, hrest, bind, Except.bind, Except.error.injEq] at h
          subst h
          exact ih hrest
        | ok steps => simp [hstep, hrest, bind, Except.bind] at h

/-- A sequence that is refused is refused with a text. -/
theorem parseSequence_written {req : Request} {errbuf : ErrText}
    (h : parseSequence req = .error errbuf) : errbuf.bytes ≠ [] := by
  rw [parseSequence] at h
  split at h
  · simp at h
  · exact parseSteps_written h

end Texts

section Mock

variable {σ : Type}

theorem answer_requestId {device : DeviceResource} {call : TranslatedCall}
    {resp filled : Response} {name : String} {args : List Bytes}
    (h : answer device call resp name args = .ok filled) :
    filled.requestId = resp.requestId := by
  rw [← Except.ok.inj h]
  rfl

theorem notSupported_ne_ok {adapter : String} {call : TranslatedCall} {filled : Response} :
    notSupported adapter call ≠ .ok filled := by
  simp [notSupported]

/-- A mock adapter leaves the request id as it is. -/
theorem mock_requestId {skf : SkfAdapter σ} {device : DeviceResource}
    (hmock : device.backendProfile.bytes ≠ lit "gm3000-skf") {domain : ApiDomain}
    {call : TranslatedCall} {resp filled : Response} {world : σ}
    (h : (driverDispatch (driverOpsFor skf device) domain device call resp world).outcome =
      .ok filled) : filled.requestId = resp.requestId := by
  rw [driverOpsFor, if_neg hmock] at h
  by_cases htype : device.type = .classic
  · rw [if_pos htype] at h
    cases domain <;>
      simp only [driverDispatch, classicDriverOps, Mock.handler, classicDeviceManage,
        classicKeyManage, classicAsym, classicSym, classicHash, classicFile, classicNotSupported,
        reduceCtorEq] at h <;>
      first
      | exact absurd h notSupported_ne_ok
      | (split at h <;> first | exact answer_requestId h | exact absurd h notSupported_ne_ok)
  · rw [if_neg htype] at h
    cases domain <;>
      simp only [driverDispatch, pqcDriverOps, Mock.handler, pqcDeviceManage, pqcKeyManage,
        pqcHash, pqcFile, pqcOpsImpl, pqcNotSupported, reduceCtorEq] at h <;>
      first
      | exact absurd h notSupported_ne_ok
      | (split at h <;> first | exact answer_requestId h | exact absurd h notSupported_ne_ok)

end Mock

section Token

variable {σ : Type}

/-- The rules for a verification on the token are those of SM2 and RSA. -/
theorem verify_rules : ∀ r ∈ gRules, r.backendProfile = lit "gm3000-skf" → r.domain = .asym →
    r.action = .verify → r.algorithm = lit "sm2" ∨ r.algorithm = lit "rsa" := by
  decide

theorem verifiesKnown {action : ApiAction} {algorithm payload auxPayload keyRef : Bytes}
    {device : DeviceResource} {translated : TranslatedCall}
    (htoken : device.backendProfile.bytes = lit "gm3000-skf")
    (h : translateBackendCall .asym action algorithm payload auxPayload keyRef device =
      .ok translated) : VerifiesKnown translated := by
  obtain ⟨htranslated, halgorithm, r, hr, _, hprofile, hdomain, haction, halg⟩ := translated_rule h
  intro hverify
  have hrule := verify_rules r hr (hprofile.trans htoken) hdomain
    (haction.trans (htranslated.symm.trans hverify))
  have hsame : r.algorithm = algorithm := by
    refine halg.resolve_right fun hauto => ?_
    rw [hauto] at hrule
    revert hrule
    decide
  rw [sm2OrRsa, halgorithm, ← hsame]
  rcases hrule with hrule | hrule
  · rw [hrule]
    decide
  · rw [hrule]
    decide

/-- A handler of the token that a translated call gets to fails with a text. -/
theorem token_tells {domain : ApiDomain} {action : ApiAction}
    {algorithm payload auxPayload keyRef : Bytes} {device : DeviceResource}
    {translated : TranslatedCall} (htoken : device.backendProfile.bytes = lit "gm3000-skf")
    (h : translateBackendCall domain action algorithm payload auxPayload keyRef device =
      .ok translated) {handler : Gm3000Handler} (hfor : handlerFor domain = some handler)
    (env : Env) (lib : Library σ) (world : σ) :
    Tells env translated (handler.run env lib translated world).value := by
  have hverify : handler = .asymCrypto → VerifiesKnown translated := by
    intro hasym
    subst hasym
    have hdomain : domain = .asym := by
      cases domain <;> simp_all [handlerFor]
    subst hdomain
    exact verifiesKnown htoken h
  have hconduct : Conducts (fun _ => True) (Tells env translated)
      (handler.run env lib translated) := handler_conducts trivial hverify
  exact (hconduct world).1

end Token

section Steps

variable {σ : Type} {env : Env} {lib : Library σ}

/-- The text that quotes the payload of a call that got to the token. -/
def Quotes (call : StepCall) (invoked : Option Invocation) (text : Bytes) : Prop :=
  (∃ i, invoked = some i ∧ i.device.backendProfile.bytes = lit "gm3000-skf") ∧
    QuotesPayload call.action (store maxPayloadLen call.payload).bytes text

/-- A failure of a step leaves one of the texts. -/
def Fails (env : Env) (call : StepCall) (invoked : Option Invocation) (err : Option ErrText) :
    Prop :=
  ∃ text, err = some (store errbufLen text) ∧
    (StepText env call.domain call.action call.algorithm call.keyRef text ∨
      Quotes call invoked text)

theorem fails_written {call : StepCall} {invoked : Option Invocation} {err : Option ErrText}
    (h : Fails env call invoked err) : ∃ msg, err = some msg ∧ msg.bytes ≠ [] := by
  obtain ⟨text, herr, htext⟩ := h
  refine ⟨_, herr, store_ne_nil (by decide) ?_⟩
  rcases htext with hstep | ⟨_, hquotes⟩
  · exact stepText_ne_nil hstep
  · exact quotes_ne_nil hquotes

/-- How a step ends: a success keeps the request id it was handed. -/
def Ends (env : Env) (call : StepCall) (invoked : Option Invocation) : Outcome → Prop
  | .ok filled => filled.requestId = call.resp.requestId
  | .error err => Fails env call invoked err

theorem dispatch_ends (call : StepCall) {device : DeviceResource} {translated : TranslatedCall}
    (h : call.translate device = .ok translated) (env : Env) (lib : Library σ) (world : σ) :
    Ends env call (call.dispatch (skfAdapter env lib) world device translated).invoked
      (call.dispatch (skfAdapter env lib) world device translated).outcome := by
  rw [StepCall.dispatch_invoked h, StepCall.dispatch]
  by_cases htoken : device.backendProfile.bytes = lit "gm3000-skf"
  · obtain ⟨handler, hfor, _⟩ := translated_handler htoken h
    have htells := token_tells htoken h hfor env lib world
    have hcall := StepCall.translate_eq h
    rw [token_dispatch htoken hfor]
    cases hv : (handler.run env lib translated world).value with
    | ok text => rfl
    | error err =>
      rw [hv] at htells
      obtain ⟨text, herr, htext⟩ := htells
      refine ⟨text, herr, ?_⟩
      rcases htext with hphrase | hquotes
      · left
        refine .token ?_ ?_ ?_ hphrase
        · rw [hcall]
        · rw [hcall]
        · rw [hcall]
      · right
        refine ⟨⟨_, rfl, htoken⟩, ?_⟩
        rw [hcall] at hquotes
        exact hquotes
  · cases hout : (driverDispatch (driverOpsFor (skfAdapter env lib) device) call.domain device
        translated call.resp world).outcome with
    | ok filled => exact mock_requestId htoken hout
    | error err =>
      have hok := mock_dispatched htoken h (skfAdapter env lib) call.resp world
      rw [hout] at hok
      simp [Except.isOk, Except.toBool] at hok

/-- A step that fails leaves a text, whatever the registry and the library are. -/
theorem step_ends (call : StepCall) (env : Env) (lib : Library σ) (registry : Registry)
    (world : σ) :
    Ends env call (call.run (skfAdapter env lib) registry world).invoked
      (call.run (skfAdapter env lib) registry world).outcome := by
  cases hres : resolveDeviceHintFromKeyRef call.req call.keyRef with
  | error errbuf =>
    obtain ⟨text, htext, herr⟩ := resolve_text hres
    rw [StepCall.run, executeSingleStep, hres]
    exact ⟨lit text, congrArg some herr, .inl (.binding htext)⟩
  | ok hint =>
    cases hacq : call.acquire registry with
    | none =>
      rw [StepCall.acquire, hres] at hacq
      rw [StepCall.run, executeSingleStep, hres]
      simp only [StepCall.run_eq_bound hres, hacq]
      exact ⟨_, rfl, .inl .noDevice⟩
    | some acquired =>
      cases htr : call.translate acquired.device with
      | error errbuf =>
        rw [StepCall.run_untranslated hacq htr]
        obtain ⟨text, herr, htext⟩ := translate_text env htr
        exact ⟨text, congrArg some herr, .inl htext⟩
      | ok translated =>
        rw [StepCall.run_dispatched hacq htr]
        exact dispatch_ends call htr env lib world

end Steps

section Runs

variable {σ : Type} {env : Env} {lib : Library σ} {settings : Option GatewaySettings}
  {req : Request}

def StepFailed (env : Env) (req : Request) (ρ : StepRecord σ) (msg : ErrText) : Prop :=
  ρ.run.outcome = .error (some msg) ∧
    Fails env (stepCall req ρ.step ρ.payload Response.zero) ρ.run.invoked (some msg)

/-- The last step failed with the message, those before it succeeded. -/
def StoppedBy (env : Env) (req : Request) (trace : List (StepRecord σ)) (msg : ErrText) : Prop :=
  ∃ before ρ, trace = before ++ [ρ] ∧ (∀ ρ ∈ before, ρ.run.outcome.isOk = true) ∧
    StepFailed env req ρ msg

theorem stoppedBy_cons {ρ : StepRecord σ} {trace : List (StepRecord σ)} {msg : ErrText}
    (hok : ρ.run.outcome.isOk = true) (h : StoppedBy env req trace msg) :
    StoppedBy env req (ρ :: trace) msg := by
  obtain ⟨before, last, htrace, hbefore, hfailed⟩ := h
  refine ⟨ρ :: before, last, ?_, ?_, hfailed⟩
  · rw [htrace, List.cons_append]
  · intro ρ' hρ'
    rcases List.mem_cons.mp hρ' with rfl | hmem
    · exact hok
    · exact hbefore ρ' hmem

theorem stoppedBy_written {trace : List (StepRecord σ)} {msg : ErrText}
    (h : StoppedBy env req trace msg) : msg.bytes ≠ [] := by
  obtain ⟨before, ρ, _, _, _, hfails⟩ := h
  obtain ⟨msg', heq, hne⟩ := fails_written hfails
  rw [Option.some.inj heq]
  exact hne

/-- Steps ran to their end, or one of them failed. -/
def Ran (env : Env) (req : Request) (status : StatusCode) (e : Execution σ) : Prop :=
  (e.rc = 0 ∧ e.resp.status = .ok ∧ e.resp.requestId = req.requestId) ∨
  ∃ msg, e.rc = -1 ∧ e.resp = buildErrorResponse req status (some msg) ∧
    StoppedBy env req e.trace msg

theorem runSteps_ran (steps : List SequenceStep) (payload : CStr maxResponseLen) {resp : Response}
    (hid : resp.requestId = req.requestId) (registry : Registry) (world : σ) :
    Ran env req .backendFail
      (runSteps (skfAdapter env lib) req steps payload resp registry world) := by
  induction steps generalizing payload resp registry world with
  | nil => exact .inl ⟨rfl, rfl, hid⟩
  | cons step steps ih =>
    have hends := step_ends (stepCall req step payload.bytes Response.zero) env lib registry world
    change Ends env _ (sequenceStepRun (skfAdapter env lib) req step payload registry world).invoked
      (sequenceStepRun (skfAdapter env lib) req step payload registry world).outcome at hends
    cases hout : (sequenceStepRun (skfAdapter env lib) req step payload registry world).outcome with
    | error err =>
      rw [hout] at hends
      obtain ⟨msg, rfl, _⟩ := fails_written hends
      simp only [runSteps, hout]
      exact .inr ⟨msg, rfl, rfl, [], _, rfl, by simp, hout, hends⟩
    | ok stepResp =>
      have hjoined : (joinStepResponse resp stepResp).requestId = req.requestId := hid
      have hrest := ih (store maxResponseLen stepResp.result.bytes) hjoined
        (sequenceStepRun (skfAdapter env lib) req step payload registry world).registry
        (sequenceStepRun (skfAdapter env lib) req step payload registry world).world
      simp only [runSteps, hout]
      rcases hrest with hdone | ⟨msg, hrc, hresp, hstopped⟩
      · exact .inl hdone
      · have hok : (sequenceStepRun (skfAdapter env lib) req step payload registry
            world).outcome.isOk = true := by
          rw [hout]
          rfl
        exact .inr ⟨msg, hrc, hresp, stoppedBy_cons hok hstopped⟩

theorem executePlain_ran {resp : Response} (hid : resp.requestId = req.requestId)
    (registry : Registry) (world : σ) :
    Ran env req .noResource (executePlain (skfAdapter env lib) registry req resp world) := by
  have hends := step_ends (stepCall req (plainStep req) req.payload.bytes resp) env lib registry
    world
  have hrun : (stepCall req (plainStep req) req.payload.bytes resp).run (skfAdapter env lib)
      registry world = executeSingleStep (skfAdapter env lib) registry req req.domain req.action
        req.algorithm.bytes req.payload.bytes req.auxPayload.bytes req.keyRef.bytes .unknown resp
        world := rfl
  rw [hrun] at hends
  cases hout : (executeSingleStep (skfAdapter env lib) registry req req.domain req.action
      req.algorithm.bytes req.payload.bytes req.auxPayload.bytes req.keyRef.bytes .unknown resp
      world).outcome with
  | error err =>
    rw [hout] at hends
    obtain ⟨msg, rfl, _⟩ := fails_written hends
    simp only [executePlain, hout]
    exact .inr ⟨msg, rfl, rfl, [], _, rfl, by simp, hout, hends⟩
  | ok filled =>
    rw [hout] at hends
    simp only [executePlain, hout]
    exact .inl ⟨rfl, rfl, Eq.trans hends hid⟩

/-- The request was turned away before any step: by the PIN or by the parse of
its sequence. -/
def TurnedAway (settings : Option GatewaySettings) (req : Request) (e : Execution σ)
    (msg : ErrText) : Prop :=
  e.trace = [] ∧
    (validateGatewayPin settings req = .refused e.resp ∨ parseSequence req = .error msg)

/-- What a run answers. After a failure there is a status and a message, and
the message is that of the exit that was taken. -/
structure Answers (env : Env) (settings : Option GatewaySettings) (req : Request)
    (e : Execution σ) : Prop where
  rc_iff : e.rc = 0 ↔ e.resp.status = .ok
  requestId : e.resp.requestId = req.requestId
  failed : e.rc ≠ 0 → ∃ status msg, status ≠ .ok ∧ msg.bytes ≠ [] ∧
    e.resp = { Response.zero with
      requestId := req.requestId
      status := status
      result := store maxResponseLen msg.bytes } ∧
    (TurnedAway settings req e msg ∨ StoppedBy env req e.trace msg)

theorem answers_ok {e : Execution σ} (hrc : e.rc = 0) (hstatus : e.resp.status = .ok)
    (hid : e.resp.requestId = req.requestId) : Answers env settings req e :=
  ⟨by simp [hrc, hstatus], hid, fun h => absurd hrc h⟩

theorem answers_failed {e : Execution σ} {status : StatusCode} {msg : ErrText} (hrc : e.rc = -1)
    (hstatus : status ≠ .ok) (hmsg : msg.bytes ≠ [])
    (hresp : e.resp = buildErrorResponse req status (some msg))
    (hsource : TurnedAway settings req e msg ∨ StoppedBy env req e.trace msg) :
    Answers env settings req e := by
  rw [buildErrorResponse, store_bytes_self] at hresp
  constructor
  · rw [hrc, hresp]
    simp [hstatus]
  · rw [hresp]
  · intro _
    exact ⟨status, msg, hstatus, hmsg, hresp, hsource⟩

theorem ran_answers {e : Execution σ} {status : StatusCode} (hstatus : status ≠ .ok)
    (h : Ran env req status e) : Answers env settings req e := by
  rcases h with ⟨hrc, hok, hid⟩ | ⟨msg, hrc, hresp, hstopped⟩
  · exact answers_ok hrc hok hid
  · exact answers_failed hrc hstatus (stoppedBy_written hstopped) hresp (.inr hstopped)

theorem validateGatewayPin_answer {resp : Response}
    (h : validateGatewayPin settings req = .answered resp) :
    resp.status = .ok ∧ resp.requestId = req.requestId := by
  rw [validateGatewayPin.eq_def] at h
  split at h
  · simp at h
  · split_ifs at h
    rw [← PinCheck.answered.inj h]
    exact ⟨rfl, store_bytes_self _⟩

theorem run_answers (env : Env) (lib : Library σ)
    (settings : Option GatewaySettings) (registry : Registry) (req : Request) (world : σ) :
    Answers env settings req
      (schedulerExecute (skfAdapter env lib) settings registry req world) := by
  rw [schedulerExecute]
  have hid : store maxIdLen req.requestId.bytes = req.requestId := store_bytes_self _
  cases hpin : validateGatewayPin settings req with
  | answered resp =>
    obtain ⟨hstatus, hresp⟩ := validateGatewayPin_answer hpin
    exact answers_ok rfl hstatus hresp
  | refused resp =>
    obtain ⟨msg, hmsg, hresp⟩ := validateGatewayPin_refused hpin
    exact answers_failed rfl (by simp) hmsg hresp (.inl ⟨rfl, .inl hpin⟩)
  | proceed =>
    simp only
    split
    · rw [executeSequence]
      cases hparse : parseSequence req with
      | error errbuf =>
        exact answers_failed rfl (by simp) (parseSequence_written hparse) rfl
          (.inl ⟨rfl, .inr hparse⟩)
      | ok steps =>
        cases steps with
        | nil => exact answers_ok rfl rfl hid
        | cons step steps => exact ran_answers (by simp) (runSteps_ran _ _ hid registry world)
    · exact ran_answers (by simp) (executePlain_ran hid registry world)

/-- No failure leaves errbuf as it was: neither one of a step, nor one of a
parse, and so no failed run answers with it. The handlers of the token have an
exit that leaves it so, and no translated call gets there. -/
theorem failures_written (env : Env) (lib : Library σ) :
    (∀ registry req domain action algorithm payload auxPayload keyRef explicitType resp world,
      Written (executeSingleStep (skfAdapter env lib) registry req domain action algorithm payload
        auxPayload keyRef explicitType resp world).outcome) ∧
    (∀ req errbuf, parseSequence req = .error errbuf → errbuf.bytes ≠ []) ∧
    (∀ settings registry req world,
      (schedulerExecute (skfAdapter env lib) settings registry req world).rc ≠ 0 →
        ∃ status msg, msg.bytes ≠ [] ∧
          (schedulerExecute (skfAdapter env lib) settings registry req world).resp =
            buildErrorResponse req status (some msg)) ∧
    ∀ domain handler call world, handlerFor domain = some handler →
      (handler.run env lib call world).value = .error none →
        ∀ action algorithm payload auxPayload keyRef device,
          device.backendProfile.bytes = lit "gm3000-skf" →
            translateBackendCall domain action algorithm payload auxPayload keyRef device ≠
              .ok call := by
  refine ⟨?_, fun req errbuf => parseSequence_written, ?_, ?_⟩
  · intro registry req domain action algorithm payload auxPayload keyRef explicitType resp world
    have hends := step_ends ⟨req, domain, action, algorithm, payload, auxPayload, keyRef,
      explicitType, resp⟩ env lib registry world
    rw [StepCall.run] at hends
    cases hout : (executeSingleStep (skfAdapter env lib) registry req domain action algorithm
        payload auxPayload keyRef explicitType resp world).outcome with
    | ok filled => trivial
    | error err =>
      simp only [hout] at hends
      exact fails_written hends
  · intro settings registry req world hrc
    obtain ⟨status, msg, _, hmsg, hresp, _⟩ :=
      (run_answers env lib settings registry req world).failed hrc
    refine ⟨status, msg, hmsg, ?_⟩
    rw [hresp, buildErrorResponse, store_bytes_self]
    rfl
  · intro domain handler call world hfor hsilent action algorithm payload auxPayload keyRef device
      htoken htranslated
    have htells := token_tells htoken htranslated hfor env lib world
    rw [hsilent] at htells
    obtain ⟨text, herr, _⟩ := htells
    cases herr

end Runs

section Samples

/-- A token that offers random bytes. -/
def randomToken : DeviceResource where
  deviceId := store maxFieldLen (lit "token-1")
  type := .classic
  backendProfile := store maxFieldLen (lit "gm3000-skf")
  priority := 100
  enabled := true
  maxInflight := 1
  inflight := 0
  securityScore := 90
  efficiencyScore := 50
  caps := [anySource .device .generateRandom "auto"]
  capsFit := by decide

/-- A request for as many random bytes as the hash of `abc` says. -/
def hashThenRandom : Request where
  requestId := store maxIdLen (lit "r26")
  domain := .hash
  action := .hash
  algorithm := store maxFieldLen (lit "sm3")
  keyRef := empty
  payload := store maxPayloadLen (lit "abc")
  auxPayload := empty
  deviceHint := empty
  userPin := empty
  preference := .balanced
  sequence := store maxPayloadLen
    (lit "hash:hash:classic:sm3>device:generate_random:classic:auto")

end Samples

end Ucisdk.Failures
