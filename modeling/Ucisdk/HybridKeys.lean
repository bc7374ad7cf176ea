import Ucisdk.HybridRequest
import Ucisdk.KeyRoundTrip

/-!
# The keys of a hybrid call

A hybrid call puts both key references into one field. Every step looks the
same first token up in it, so both steps run on the device of the first
reference that names one.
-/

set_option autoImplicit false

namespace Ucisdk.HybridKeys

open Ucisdk.CString Ucisdk.Common Ucisdk.Protocol Ucisdk.Resource Ucisdk.Translator Ucisdk.Driver
open Ucisdk.Scheduler Ucisdk.StepCalls Ucisdk.SequenceRun Ucisdk.Routing
open Ucisdk.JsonObject Ucisdk.RequestFields
open Ucisdk.RequestLine hiding named
open Ucisdk.Ccm Ucisdk.CcmObject Ucisdk.KeyText Ucisdk.KeyRoundTrip
open Ucisdk.HybridRequest
open Scan.Quoted Scan.Tokens

def classicStep (call : HybridCall) : SequenceStep :=
  ⟨.asym, call.action, .classic, store maxFieldLen (lit "sm2")⟩

def pqcStep (call : HybridCall) : SequenceStep :=
  ⟨.pqc, call.action, .pqc, store maxFieldLen (lit "dilithium3")⟩

/-- A device that is the one a key reference names. -/
def OwnDevice (key : UnifKeyRef) (device : DeviceResource) : Prop :=
  key.szDeviceId.bytes ≠ [] ∧ device.deviceId.bytes = key.szDeviceId.bytes

/-- In every run of the request a step is dispatched to the device of its own
key alone. -/
def OnOwnDevices (classicKey pqcKey : UnifKeyRef) (req : Request) : Prop :=
  ∀ (σ : Type) (skf : SkfAdapter σ) (settings : Option GatewaySettings) (registry : Registry)
    (world : σ), ∀ ρ ∈ (schedulerExecute skf settings registry req world).trace,
      ∀ i ∈ ρ.run.invoked,
        (ρ.step.preferredType = .classic → OwnDevice classicKey i.device) ∧
        (ρ.step.preferredType = .pqc → OwnDevice pqcKey i.device)

section Bound

variable {classicKey pqcKey : UnifKeyRef} {req : Request}

/-- An internal key without a device binds no step. -/
theorem onOwnDevices_of_unbound (hkey : keyRefIsInternalIndex req.keyRef.bytes = true)
    (hun : Unbound req) : OnOwnDevices classicKey pqcKey req := by
  intro σ skf settings registry world ρ hρ i hi
  obtain ⟨resp, hrun⟩ := schedulerExecute_run hρ
  obtain ⟨errbuf, hrefused⟩ : ∃ errbuf, ρ.run =
      ⟨.error (some errbuf), ρ.before, ρ.worldBefore, none⟩ := by
    rw [hrun]
    exact run_unbound hkey hun
  rw [hrefused] at hi
  simp at hi

theorem onOwnDevices_of_bound (hkey : keyRefIsInternalIndex req.keyRef.bytes = true)
    (hne : keyDevice req.keyRef.bytes ≠ [])
    (hc : keyDevice req.keyRef.bytes = classicKey.szDeviceId.bytes)
    (hp : keyDevice req.keyRef.bytes = pqcKey.szDeviceId.bytes) :
    OnOwnDevices classicKey pqcKey req := by
  intro σ skf settings registry world ρ hρ i hi
  obtain ⟨resp, hrun⟩ := schedulerExecute_run hρ
  rw [Option.mem_def, hrun] at hi
  have hon := (run_boundDevice hkey hi).bound
  rw [if_pos hne] at hon
  constructor
  · intro _
    exact ⟨hc ▸ hne, hon.trans hc⟩
  · intro _
    exact ⟨hp ▸ hne, hon.trans hp⟩

theorem parseStep_no_colon {token : Bytes} (hne : token ≠ []) (h : ∀ c ∈ token, c ≠ colon)
    (step : SequenceStep) : parseStep token ≠ .ok step := by
  have hfree : ∀ c ∈ token.take (maxFieldLen - 1), isColon c = false := by
    intro c hc
    simpa [isColon, colon] using h c (List.mem_of_mem_take hc)
  have hcut : token.take (maxFieldLen - 1) ≠ [] := by
    simpa using hne
  rw [parseStep, store_bytes, tokens_piece isColon _ hcut hfree]
  simp

/-- A sequence without a colon has no step. -/
theorem parseSequence_no_colon (h : ∀ c ∈ req.sequence.bytes, c ≠ colon) {steps : List SequenceStep}
    (hparse : parseSequence req = .ok steps) : steps = [] := by
  rw [parseSequence] at hparse
  by_cases hempty : req.sequence.bytes = []
  · rw [if_pos hempty, Except.ok.injEq] at hparse
    exact hparse.symm
  · rw [if_neg hempty, store_self] at hparse
    have hall := parseSteps_forall₂ hparse
    cases htokens : tokens gt req.sequence.bytes with
    | nil =>
      rw [htokens] at hall
      exact List.forall₂_nil_left_iff.mp hall
    | cons token ts =>
      have htoken : token ∈ tokens gt req.sequence.bytes := by simp [htokens]
      obtain ⟨hne, _, hsub⟩ := mem_tokens gt htoken
      rw [htokens] at hall
      cases hall with
      | cons hstep _ =>
        exact absurd hstep (parseStep_no_colon hne (fun c hc => h c (hsub.subset hc)) _)

/-- A request whose sequence holds no step dispatches none. -/
theorem onOwnDevices_of_no_colon (hne : req.sequence.bytes ≠ [])
    (h : ∀ c ∈ req.sequence.bytes, c ≠ colon) : OnOwnDevices classicKey pqcKey req := by
  intro σ skf settings registry world ρ hρ
  obtain ⟨steps, hparse, hm⟩ := schedulerExecute_step_mem hne hρ
  rw [parseSequence_no_colon h hparse] at hm
  simp at hm

end Bound

section Token

/-- A token that serves both steps of a hybrid call, under any id. -/
def tokenDevice (id : CStr maxFieldLen) : DeviceResource where
  deviceId := id
  type := .classic
  backendProfile := store maxFieldLen (lit "gm3000-skf")
  priority := 50
  enabled := true
  maxInflight := 4
  inflight := 0
  securityScore := 80
  efficiencyScore := 80
  caps := [anySource .asym .sign "sm2", anySource .asym .verify "sm2",
    anySource .pqc .sign "dilithium3", anySource .pqc .verify "dilithium3"]
  capsFit := by decide

def tokenRegistry (id : CStr maxFieldLen) : Registry :=
  ⟨[tokenDevice id], by
    rw [List.length_singleton]
    decide⟩

/-- An adapter whose every call succeeds. -/
def obligingToken : SkfAdapter Unit :=
  let succeed : Handler Unit := fun _ _ resp world => (.ok resp, world)
  ⟨succeed, succeed, succeed, succeed, succeed, succeed, succeed⟩

def hybridSteps (call : HybridCall) : List SequenceStep := [classicStep call, pqcStep call]

theorem keyRefSourceValue_le (keyRef : Bytes) : (keyRefSourceValue keyRef).toNat ≤ 4 := by
  rw [keyRefSourceValue]
  split
  · decide
  · split_ifs <;> decide

theorem token_supports (id : CStr maxFieldLen) {call : HybridCall} {step : SequenceStep}
    (hstep : step ∈ hybridSteps call) {source : UInt32} (hsource : source.toNat ≤ 4) :
    deviceSupports (tokenDevice id) step.domain step.action step.algorithm.bytes source = true := by
  have hall : ∀ n ≤ 4, ∀ call ∈ [HybridCall.sign, .verify], ∀ step ∈ hybridSteps call,
      deviceSupports (tokenDevice empty) step.domain step.action step.algorithm.bytes
        (UInt32.ofNat n) = true := by
    decide
  have hs := hall source.toNat hsource call (by cases call <;> simp) step hstep
  rw [UInt32.ofNat_toNat] at hs
  exact hs

theorem token_rule (id : CStr maxFieldLen) {call : HybridCall} {step : SequenceStep}
    (hstep : step ∈ hybridSteps call) :
    ∃ r, findRule (tokenDevice id) step.domain step.action step.algorithm.bytes = some r := by
  have hall : ∀ call ∈ [HybridCall.sign, .verify], ∀ step ∈ hybridSteps call,
      (findRule (tokenDevice empty) step.domain step.action step.algorithm.bytes).isSome = true := by
    decide
  exact Option.isSome_iff_exists.mp (hall call (by cases call <;> simp) step hstep)

variable {call : HybridCall} {step : SequenceStep} {req : Request} {hint : CStr maxFieldLen}
  (id : CStr maxFieldLen)

/-- The token takes the step under its id, and a classic step without one. -/
theorem token_acquired (hstep : step ∈ hybridSteps call)
    (hres : resolveDeviceHintFromKeyRef req req.keyRef.bytes = .ok hint)
    (hhint : (hint.bytes ≠ [] ∧ hint = id) ∨ (hint.bytes = [] ∧ step.preferredType = .classic))
    (payload : Bytes) (resp : Response) :
    (stepCall req step payload resp).acquire (tokenRegistry id) =
      some (acquireSlot (tokenRegistry id) (tokenDevice id, 0)) := by
  have hsup := token_supports id hstep (keyRefSourceValue_le req.keyRef.bytes)
  rw [StepCall.acquire]
  simp only [stepCall, hres, registryAcquireCandidate]
  rcases hhint with ⟨hne, rfl⟩ | ⟨hempty, htype⟩
  · have hhinted : hinted hint.bytes step.domain step.action step.algorithm.bytes
        (keyRefSourceValue req.keyRef.bytes) (tokenDevice hint) = true := by
      rw [hinted, hsup]
      simp [tokenDevice]
    simp only [hne, ne_eq, not_false_eq_true, if_true]
    simp [tokenRegistry, hhinted]
  · have hcand : candidate .classic step.domain step.action step.algorithm.bytes
        (keyRefSourceValue req.keyRef.bytes) (tokenDevice id) = true := by
      rw [candidate, hsup]
      simp [tokenDevice]
    have horder : buildOrder req.preference step.preferredType = [.classic] := by
      simp [buildOrder, htype]
    simp only [hempty, ne_eq, not_true_eq_false, if_false, horder]
    simp [acquireInOrder, tokenRegistry, bestCandidate, hcand, betterCandidate]

theorem token_released :
    registryRelease (acquireSlot (tokenRegistry id) (tokenDevice id, 0)).registry id.bytes =
      tokenRegistry id := by
  simp [registryRelease, acquireSlot, tokenRegistry, releaseFirst, tokenDevice]

/-- The step runs on the token and leaves the registry as it was. -/
theorem token_run (hstep : step ∈ hybridSteps call)
    (hres : resolveDeviceHintFromKeyRef req req.keyRef.bytes = .ok hint)
    (hhint : (hint.bytes ≠ [] ∧ hint = id) ∨ (hint.bytes = [] ∧ step.preferredType = .classic))
    (payload : Bytes) (resp : Response) :
    ∃ i, (stepCall req step payload resp).run obligingToken (tokenRegistry id) () =
        ⟨.ok resp, tokenRegistry id, (), some i⟩ ∧ i.device.deviceId = id := by
  have hacq := token_acquired id hstep hres hhint payload resp
  obtain ⟨r, hr⟩ := token_rule id hstep
  have hrule : findRule (acquireSlot (tokenRegistry id) (tokenDevice id, 0)).device step.domain
      step.action step.algorithm.bytes = some r := hr
  obtain ⟨translated, htr⟩ : ∃ translated, (stepCall req step payload resp).translate
      (acquireSlot (tokenRegistry id) (tokenDevice id, 0)).device = .ok translated := by
    simp only [StepCall.translate, translateBackendCall, stepCall, hrule]
    exact ⟨_, rfl⟩
  have hdispatch : (stepCall req step payload resp).dispatch obligingToken ()
      (acquireSlot (tokenRegistry id) (tokenDevice id, 0)).device translated =
        ⟨.ok resp, (), some ⟨(acquireSlot (tokenRegistry id) (tokenDevice id, 0)).device,
          translated⟩⟩ := by
    have hops : driverOpsFor obligingToken
        (acquireSlot (tokenRegistry id) (tokenDevice id, 0)).device =
          skfDriverOps obligingToken := rfl
    rw [StepCall.dispatch, hops]
    simp only [hybridSteps, List.mem_cons, List.not_mem_nil, or_false] at hstep
    rcases hstep with rfl | rfl <;> rfl
  rw [StepCall.run_dispatched hacq htr, hdispatch]
  refine ⟨⟨(acquireSlot (tokenRegistry id) (tokenDevice id, 0)).device, translated⟩, ?_, rfl⟩
  congr 1
  exact token_released id

/-- With the token alone every step runs on it. -/
theorem token_runSteps (hres : resolveDeviceHintFromKeyRef req req.keyRef.bytes = .ok hint)
    (hne : hint.bytes ≠ []) (steps : List SequenceStep) (hsub : ∀ step ∈ steps, step ∈ hybridSteps call)
    (payload : CStr maxResponseLen) (resp : Response) :
    ∀ step ∈ steps, ∃ ρ ∈ (runSteps obligingToken req steps payload resp (tokenRegistry hint) ()).trace,
      ρ.step = step ∧ ∃ i, ρ.run.invoked = some i ∧ i.device.deviceId = hint := by
  induction steps generalizing payload resp with
  | nil => simp
  | cons first steps ih =>
    obtain ⟨i, hrun, hdev⟩ := token_run hint (hsub first (by simp)) hres (Or.inl ⟨hne, rfl⟩)
      payload.bytes Response.zero
    have hstep : sequenceStepRun obligingToken req first payload (tokenRegistry hint) () =
        ⟨.ok Response.zero, tokenRegistry hint, (), some i⟩ := hrun
    intro step hm
    rw [runSteps, hstep]
    rcases List.mem_cons.mp hm with rfl | hm
    · exact ⟨_, List.mem_cons_self, rfl, i, rfl, hdev⟩
    · obtain ⟨ρ, hρ, hs⟩ := ih (fun s hs => hsub s (by simp [hs])) (store maxResponseLen
        Response.zero.result.bytes) (joinStepResponse resp Response.zero) step hm
      exact ⟨ρ, List.mem_cons_of_mem _ hρ, hs⟩

end Token

section Converse

variable {classicKey pqcKey : UnifKeyRef} {req : Request} {call : HybridCall}

/-- An id that is not the one of the key. -/
def otherId (key : UnifKeyRef) : CStr maxFieldLen where
  bytes := 120 :: key.szDeviceId.bytes
  fits := by
    have hfit := key.szDeviceId.fits
    rw [List.length_cons]
    show _ < 256
    omega

theorem scheduler_trace {σ : Type} (skf : SkfAdapter σ) (registry : Registry) (world : σ)
    (hne : req.sequence.bytes ≠ []) {step : SequenceStep} {steps : List SequenceStep}
    (hparse : parseSequence req = .ok (step :: steps)) :
    ∃ payload resp, (schedulerExecute skf none registry req world).trace =
      (runSteps skf req (step :: steps) payload resp registry world).trace := by
  rw [schedulerExecute, validateGatewayPin]
  simp only [hne, ne_eq, not_false_eq_true, if_true]
  rw [executeSequence, hparse]
  exact ⟨_, _, rfl⟩

/-- Whatever device the reference binds the request to has to be both keys'. -/
theorem bound_of_onOwnDevices (hne : req.sequence.bytes ≠ [])
    (hparse : parseSequence req = .ok (hybridSteps call)) (hhint : req.deviceHint.bytes = [])
    (h : OnOwnDevices classicKey pqcKey req) :
    keyRefIsInternalIndex req.keyRef.bytes = true ∧
      (keyDevice req.keyRef.bytes = [] ∨
        (keyDevice req.keyRef.bytes = classicKey.szDeviceId.bytes ∧
          keyDevice req.keyRef.bytes = pqcKey.szDeviceId.bytes)) := by
  by_cases hkey : keyRefIsInternalIndex req.keyRef.bytes = true
  · refine ⟨hkey, ?_⟩
    by_cases hdev : keyDevice req.keyRef.bytes = []
    · exact Or.inl hdev
    · right
      have hbound := resolve_internal hkey
      rw [boundDevice, if_pos hdev, if_neg (by simp [hhint])] at hbound
      cases hres : resolveDeviceHintFromKeyRef req req.keyRef.bytes with
      | error errbuf =>
        rw [hres] at hbound
        simp [Except.toOption] at hbound
      | ok hint =>
        rw [hres] at hbound
        have hid : hint.bytes = keyDevice req.keyRef.bytes := Option.some.inj hbound
        obtain ⟨payload, resp, htrace⟩ :=
          scheduler_trace obligingToken (tokenRegistry hint) () hne hparse
        have hruns := token_runSteps hres (hid ▸ hdev) (hybridSteps call) (fun _ hs => hs) payload
          resp
        rw [hybridSteps, ← htrace] at hruns
        constructor
        · obtain ⟨ρ, hρ, hstep, i, hi, hon⟩ := hruns (classicStep call) (by simp)
          have hown := (h Unit obligingToken none (tokenRegistry hint) () ρ hρ i hi).1
            (by rw [hstep]; rfl)
          rw [← hid, ← hon]
          exact hown.2
        · obtain ⟨ρ, hρ, hstep, i, hi, hon⟩ := hruns (pqcStep call) (by simp)
          have hown := (h Unit obligingToken none (tokenRegistry hint) () ρ hρ i hi).2
            (by rw [hstep]; rfl)
          rw [← hid, ← hon]
          exact hown.2
  · exfalso
    have hres : resolveDeviceHintFromKeyRef req req.keyRef.bytes = .ok empty := by
      rw [Bool.not_eq_true] at hkey
      simp only [resolveDeviceHintFromKeyRef, hkey, if_true, hhint]
      rfl
    have hfirst : classicStep call ∈ hybridSteps call := by simp [hybridSteps]
    obtain ⟨payload, resp, htrace⟩ :=
      scheduler_trace obligingToken (tokenRegistry (otherId classicKey)) () hne hparse
    obtain ⟨i, hrun, hdev⟩ := token_run (otherId classicKey) hfirst hres
      (Or.inr ⟨empty_bytes, rfl⟩) payload.bytes Response.zero
    have hstep : sequenceStepRun obligingToken req (classicStep call) payload
        (tokenRegistry (otherId classicKey)) () =
        ⟨.ok Response.zero, tokenRegistry (otherId classicKey), (), some i⟩ := hrun
    rw [runSteps, hstep] at htrace
    have hown := (h Unit obligingToken none (tokenRegistry (otherId classicKey)) () _
      (by rw [htrace]; exact List.mem_cons_self) i rfl).1 rfl
    have hlen := congrArg List.length hown.2
    rw [hdev, otherId, List.length_cons] at hlen
    omega

end Converse

section Ordinary

variable {key classicKey pqcKey : UnifKeyRef}

theorem hybrid_firstToken (hc : OrdinaryKey classicKey) (hp : OrdinaryKey pqcKey) (name : Bytes) :
    firstToken (hybridText classicKey pqcKey) name =
      ((keyTokens classicKey ++ keyTokens pqcKey).find? (named name)).map
        (List.drop (name.length + 1)) := by
  rw [firstToken, hybridText_tokens (by simp [semicolon]) hc hp]

/-- The device of the first reference that names one. -/
theorem hybrid_keyDevice (hc : OrdinaryKey classicKey) (hp : OrdinaryKey pqcKey) :
    keyDevice (hybridText classicKey pqcKey) =
      if classicKey.szDeviceId.bytes = [] then pqcKey.szDeviceId.bytes
      else classicKey.szDeviceId.bytes := by
  have hdrop : ∀ id : Bytes, (lit "device_id" ++ lit "=" ++ id).drop
      ((lit "device_id").length + 1) = id := fun id => List.drop_left' (by decide)
  rw [keyDevice, hybrid_firstToken hc hp, List.find?_append, find_device, find_device]
  by_cases hdc : classicKey.szDeviceId.bytes = [] <;>
    by_cases hdp : pqcKey.szDeviceId.bytes = [] <;> simp only [hdc, hdp, if_true, if_false,
      Option.none_or, Option.some_or, Option.map_some, Option.map_none, Option.getD_some,
      Option.getD_none, hdrop]

theorem hybrid_internal (hc : OrdinaryKey classicKey) (hp : OrdinaryKey pqcKey)
    (hsource : classicKey.uiSource = 1) (hfit : (hybridText classicKey pqcKey).length < maxFieldLen) :
    keyRefIsInternalIndex (hybridText classicKey pqcKey) = true := by
  refine (keyRefIsInternalIndex_iff ⟨hybridText classicKey pqcKey, hfit⟩).mpr ?_
  refine ⟨lit "1", ?_, Or.inl rfl⟩
  rw [hybrid_firstToken hc hp, keyTokens_parts classicKey, List.append_assoc, find_source, hsource]
  rfl

end Ordinary

/-- The reference, as the server reads it, binds both steps to a device that
is both keys', or lets none of them run. -/
def BindsBoth (classicKey pqcKey : UnifKeyRef) (keyRef : Bytes) : Prop :=
  keyRefIsInternalIndex keyRef = true ∧
    (keyDevice keyRef = [] ∨
      (keyDevice keyRef = classicKey.szDeviceId.bytes ∧
        keyDevice keyRef = pqcKey.szDeviceId.bytes))

section Hybrid

variable {call : HybridCall} {alg : UnifAlgParams} {classicKey pqcKey : UnifKeyRef}
  {data signature : UnifBuffer} {json : CStr 2048} {req : Request}

theorem hybrid_steps (hseq : req.sequence.bytes = lit call.sequence) :
    parseSequence req = .ok (hybridSteps call) := by
  rw [parseSequence, hseq]
  cases call <;> rfl

theorem onOwnDevices_iff (hjson : call.build alg classicKey pqcKey data signature = (.ok, json))
    (hreq : parseRequestJson json.bytes = .ok req) (hhint : req.deviceHint.bytes = []) :
    OnOwnDevices classicKey pqcKey req ↔
      Spells quote (escape (sentKeyRef classicKey pqcKey)) Field.sequence.key ∨
        BindsBoth classicKey pqcKey (delivered (sentKeyRef classicKey pqcKey)) := by
  obtain ⟨hkeyRef, hseq⟩ := hybrid_request hjson hreq
  rw [← hkeyRef]
  by_cases hspells : Spells quote (escape (sentKeyRef classicKey pqcKey)) Field.sequence.key
  · rw [if_pos hspells] at hseq
    refine iff_of_true ?_ (Or.inl hspells)
    apply onOwnDevices_of_no_colon
    · rw [hseq]
      exact ne_of_start [] (payload_start call alg classicKey pqcKey data signature)
        (by decide)
    · intro c hc
      rw [hseq] at hc
      exact (payload_quiet call alg classicKey pqcKey data signature c hc).2
  · rw [if_neg hspells] at hseq
    have hne : req.sequence.bytes ≠ [] := by
      rw [hseq]
      cases call <;> exact List.cons_ne_nil _ _
    rw [or_iff_right hspells]
    constructor
    · intro h
      exact bound_of_onOwnDevices hne (hybrid_steps hseq) hhint h
    · rintro ⟨hkey, hdev⟩
      by_cases hnone : keyDevice req.keyRef.bytes = []
      · exact onOwnDevices_of_unbound hkey (Or.inr ⟨hnone, hhint⟩)
      · obtain ⟨hc, hp⟩ := hdev.resolve_left hnone
        exact onOwnDevices_of_bound hkey hnone hc hp

/-- For keys without special bytes: the references are short, and both name
the same device or neither names one. -/
theorem bindsBoth_ordinary_iff (hc : OrdinaryKey classicKey) (hp : OrdinaryKey pqcKey)
    (hsource : classicKey.uiSource = 1) :
    (Spells quote (escape (sentKeyRef classicKey pqcKey)) Field.sequence.key ∨
        BindsBoth classicKey pqcKey (delivered (sentKeyRef classicKey pqcKey))) ↔
      (hybridText classicKey pqcKey).length < maxFieldLen ∧
        classicKey.szDeviceId.bytes = pqcKey.szDeviceId.bytes := by
  have hplain : ∀ c ∈ sentKeyRef classicKey pqcKey, Plain c := fun c hm =>
    hybridText_plain hc hp c (List.mem_of_mem_take hm)
  have hspells : ¬Spells quote (escape (sentKeyRef classicKey pqcKey)) Field.sequence.key := by
    rw [spells_plain_text hplain]
    exact ne_of_start [] (keyRef_start classicKey pqcKey) (by decide)
  rw [or_iff_right hspells, delivered, (upToQuote_escape_iff _).mpr hplain]
  by_cases hfit : (hybridText classicKey pqcKey).length < maxFieldLen
  · have hwhole : sentKeyRef classicKey pqcKey = hybridText classicKey pqcKey := by
      apply List.take_of_length_le
      have hcap : maxFieldLen = 256 := rfl
      omega
    rw [hwhole, if_pos hfit, BindsBoth, hybrid_keyDevice hc hp, hybrid_internal hc hp hsource hfit]
    by_cases hdc : classicKey.szDeviceId.bytes = []
    · simp [hdc, hfit, eq_comm]
    · simp [hdc, hfit]
  · have hlong : ¬(sentKeyRef classicKey pqcKey).length < maxFieldLen := by
      rw [sentKeyRef, List.length_take]
      have hcap : maxFieldLen = 256 := rfl
      omega
    rw [if_neg hlong]
    refine iff_of_false ?_ fun h => hfit h.1
    rintro ⟨hkey, _⟩
    revert hkey
    decide

/-- Both steps keep to their own keys' devices if and only if the joined
reference binds them to one device that is both keys'. -/
theorem hybrid_steps_on_own_devices_iff
    (hjson : call.build alg classicKey pqcKey data signature = (.ok, json))
    (hreq : parseRequestJson json.bytes = .ok req) (hhint : req.deviceHint.bytes = [])
    (hsource : classicKey.uiSource = 1) :
    (OnOwnDevices classicKey pqcKey req ↔
      Spells quote (escape (sentKeyRef classicKey pqcKey)) Field.sequence.key ∨
        BindsBoth classicKey pqcKey (delivered (sentKeyRef classicKey pqcKey))) ∧
    (OrdinaryKey classicKey → OrdinaryKey pqcKey →
      (OnOwnDevices classicKey pqcKey req ↔
        (hybridText classicKey pqcKey).length < maxFieldLen ∧
          classicKey.szDeviceId.bytes = pqcKey.szDeviceId.bytes)) := by
  have hiff := onOwnDevices_iff hjson hreq hhint
  refine ⟨hiff, ?_⟩
  intro hc hp
  rw [hiff]
  exact bindsBoth_ordinary_iff hc hp hsource

end Hybrid

section Samples

/-- An internal key on the device of that id. -/
def internalKey (deviceId : String) : UnifKeyRef where
  uiAlgID := 2
  uiUsage := 1
  uiSource := 1
  uiKeyIndex := 7
  hKeyHandle := 0
  pExternalKey := 0
  szKeyId := empty
  szDeviceId := store 64 (lit deviceId)

def signParams : UnifAlgParams := ⟨0, 0, 0, 0, 0, 0⟩

def someData : UnifBuffer := ⟨4096, 32⟩

/-- The hybrid signature under two internal keys. -/
def signUnder (classicDevice pqcDevice : String) : CcmCode × CStr 2048 :=
  HybridCall.sign.build signParams (internalKey classicDevice) (internalKey pqcDevice) someData
    someData

/-- The request object of that call. -/
def signObject (classicDevice pqcDevice : String) : FlatObject :=
  builtObject (hybridTexts .sign signParams (internalKey classicDevice) (internalKey pqcDevice)
    someData someData (lit "auto"))

theorem signed_request {classicDevice pqcDevice : String}
    (hfit : (signObject classicDevice pqcDevice).text.length < 2048)
    (haccepts : Accepts (taken (signObject classicDevice pqcDevice).members))
    (hhint : (assembled (taken (signObject classicDevice pqcDevice).members)).deviceHint.bytes = []) :
    ∃ json req, signUnder classicDevice pqcDevice = (.ok, json) ∧
      parseRequestJson json.bytes = .ok req ∧ req.deviceHint.bytes = [] := by
  have hbuilt : signUnder classicDevice pqcDevice =
      (.ok, store 2048 (signObject classicDevice pqcDevice).text) := by
    rw [signUnder, HybridCall.build_eq]
    exact buildJson_ok rfl (by decide) (List.cons_ne_nil _ _) hfit
  refine ⟨_, assembled (taken (signObject classicDevice pqcDevice).members), hbuilt, ?_, hhint⟩
  rw [store_fits hfit, parse_ok_iff]
  exact ⟨haccepts, rfl⟩

theorem one_device_serves_both :
    ∃ json req, signUnder "gm3000-1" "gm3000-1" = (.ok, json) ∧
      parseRequestJson json.bytes = .ok req ∧
      OnOwnDevices (internalKey "gm3000-1") (internalKey "gm3000-1") req := by
  obtain ⟨json, req, hjson, hreq, hhint⟩ : ∃ json req, signUnder "gm3000-1" "gm3000-1" =
      (.ok, json) ∧ parseRequestJson json.bytes = .ok req ∧ req.deviceHint.bytes = [] :=
    signed_request (by decide +kernel) (by decide) (by decide +kernel)
  refine ⟨json, req, hjson, hreq, ?_⟩
  exact ((hybrid_steps_on_own_devices_iff hjson hreq hhint rfl).2 (by decide)
    (by decide)).mpr ⟨by decide +kernel, rfl⟩

/-- The PQC step of keys on two devices is not kept from the classic one. -/
theorem pqc_step_on_classic_device :
    ∃ json req, signUnder "gm3000-1" "pqc-1" = (.ok, json) ∧
      parseRequestJson json.bytes = .ok req ∧ req.deviceHint.bytes = [] ∧
      ¬OnOwnDevices (internalKey "gm3000-1") (internalKey "pqc-1") req := by
  obtain ⟨json, req, hjson, hreq, hhint⟩ : ∃ json req, signUnder "gm3000-1" "pqc-1" =
      (.ok, json) ∧ parseRequestJson json.bytes = .ok req ∧ req.deviceHint.bytes = [] :=
    signed_request (by decide +kernel) (by decide) (by decide +kernel)
  refine ⟨json, req, hjson, hreq, hhint, ?_⟩
  rw [onOwnDevices_iff hjson hreq hhint,
    bindsBoth_ordinary_iff (by decide) (by decide) rfl]
  rintro ⟨_, hsame⟩
  revert hsame
  decide

end Samples

end Ucisdk.HybridKeys
