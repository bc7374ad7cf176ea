import Ucisdk.SequenceRun

/-!
# Where a step runs

A key that lives inside a device binds its request to that device; a type
that a sequence step declares is enforced by the order of candidates alone.
-/

set_option autoImplicit false

namespace Ucisdk.Routing

open Ucisdk.CString Ucisdk.Common Ucisdk.Protocol Ucisdk.Resource Ucisdk.Translator Ucisdk.Driver
open Ucisdk.Scheduler Ucisdk.StepCalls Ucisdk.SequenceRun
open Scan.Tokens Flow.Relay

section KeyRef

/-- The value of the first token `name=...` of a key reference. -/
def firstToken (keyRef name : Bytes) : Option Bytes :=
  ((tokens semicolon keyRef).find? (named name)).map (List.drop (name.length + 1))

theorem firstToken_fits (keyRef : CStr maxFieldLen) {name v : Bytes}
    (h : firstToken keyRef.bytes name = some v) : v.length < maxFieldLen := by
  rw [firstToken, Option.map_eq_some_iff] at h
  obtain ⟨t, ht, rfl⟩ := h
  have hlen := (mem_tokens semicolon (List.mem_of_find?_eq_some ht)).2.2.length_le
  have hfit := keyRef.fits
  rw [List.length_drop]
  exact Nat.lt_of_le_of_lt (Nat.sub_le _ _) (Nat.lt_of_le_of_lt hlen hfit)

/-- `key_ref_get_token` answers with the first token unless it is blank. -/
theorem keyRefGetToken_eq (keyRef : CStr maxFieldLen) {name : Bytes} (hn : name ≠ []) :
    (keyRefGetToken keyRef.bytes name maxFieldLen).map CStr.bytes =
      (firstToken keyRef.bytes name).filter (· ≠ []) := by
  rw [keyRefGetToken]
  by_cases hk : keyRef.bytes = []
  · simp [hk, firstToken]
  · rw [if_neg (by simp [hk, hn]), store_self]
    cases hf : (tokens semicolon keyRef.bytes).find? (named name) with
    | none => simp [firstToken, hf]
    | some t =>
      have hv : firstToken keyRef.bytes name = some (t.drop (name.length + 1)) := by
        simp [firstToken, hf]
      have hs := store_fits (firstToken_fits keyRef hv)
      rw [hv]
      by_cases ht : t.drop (name.length + 1) = []
      · simp [ht, Option.filter]
      · simp only [hs, ht, if_false, Option.map_some, Option.filter, ne_eq, not_false_eq_true,
          decide_true, if_true]

theorem keyRefIsInternalIndex_iff (keyRef : CStr maxFieldLen) :
    keyRefIsInternalIndex keyRef.bytes = true ↔
      ∃ v ∈ firstToken keyRef.bytes (lit "source"), v = lit "1" ∨ v = lit "internal_index" := by
  have hget := keyRefGetToken_eq keyRef (show lit "source" ≠ [] by decide)
  rw [keyRefIsInternalIndex]
  cases hk : keyRefGetToken keyRef.bytes (lit "source") maxFieldLen with
  | none =>
    rw [hk, Option.map_none, eq_comm, Option.filter_eq_none_iff] at hget
    simp only [Bool.false_eq_true, false_iff, not_exists, not_and]
    intro v hv hsrc
    have hempty := hget v hv
    simp only [ne_eq, decide_not, Bool.not_eq_true', decide_eq_false_iff_not, not_not] at hempty
    subst hempty
    revert hsrc
    decide
  | some source =>
    rw [hk, Option.map_some, eq_comm, Option.filter_eq_some_iff] at hget
    simp [hget.1]

theorem internal_source {keyRef : CStr maxFieldLen}
    (h : keyRefIsInternalIndex keyRef.bytes = true) : keyRefSourceValue keyRef.bytes = 1 := by
  rw [keyRefIsInternalIndex] at h
  rw [keyRefSourceValue]
  split at h
  · simp at h
  · rename_i source hk
    simp only [Bool.or_eq_true, decide_eq_true_eq] at h
    rcases h with h | h
    · rw [h]
      decide
    · rw [h]
      decide

/-- The device id a key reference carries, empty when it carries none. -/
def keyDevice (keyRef : Bytes) : Bytes := (firstToken keyRef (lit "device_id")).getD []

/-- The device an internal key binds its request to: the one the key names,
else the one the request names, and none when the two disagree. -/
def boundDevice (req : Request) : Option Bytes :=
  if keyDevice req.keyRef.bytes ≠ [] then
    if req.deviceHint.bytes ≠ [] ∧ req.deviceHint.bytes ≠ keyDevice req.keyRef.bytes then none
    else some (keyDevice req.keyRef.bytes)
  else if req.deviceHint.bytes ≠ [] then some req.deviceHint.bytes
  else none

theorem boundDevice_ne_nil {req : Request} {id : Bytes} (h : boundDevice req = some id) :
    id ≠ [] := by
  rw [boundDevice] at h
  split_ifs at h with hk hc hd
  · rw [← Option.some.inj h]
    exact hk
  · rw [← Option.some.inj h]
    exact hd

theorem boundDevice_eq_none_iff (req : Request) :
    boundDevice req = none ↔
      (keyDevice req.keyRef.bytes ≠ [] ∧ req.deviceHint.bytes ≠ [] ∧
        req.deviceHint.bytes ≠ keyDevice req.keyRef.bytes) ∨
      (keyDevice req.keyRef.bytes = [] ∧ req.deviceHint.bytes = []) := by
  rw [boundDevice]
  by_cases hk : keyDevice req.keyRef.bytes = [] <;> by_cases hd : req.deviceHint.bytes = [] <;>
    simp [hk, hd]

/-- The two-layered resolution computes the bound device. -/
theorem resolve_internal {req : Request} (h : keyRefIsInternalIndex req.keyRef.bytes = true) :
    (resolveDeviceHintFromKeyRef req req.keyRef.bytes).toOption.map CStr.bytes =
      boundDevice req := by
  have hget := keyRefGetToken_eq req.keyRef (show lit "device_id" ≠ [] by decide)
  simp only [resolveDeviceHintFromKeyRef, h, Bool.true_eq_false, if_false, store_bytes_self]
  rw [boundDevice, keyDevice]
  cases hk : keyRefGetToken req.keyRef.bytes (lit "device_id") maxFieldLen with
  | none =>
    rw [hk, Option.map_none, eq_comm, Option.filter_eq_none_iff] at hget
    have hempty : (firstToken req.keyRef.bytes (lit "device_id")).getD [] = [] := by
      cases hf : firstToken req.keyRef.bytes (lit "device_id") with
      | none => rfl
      | some v => simpa using hget v hf
    simp only [hempty, ne_eq, not_true_eq_false, if_false]
    by_cases hd : req.deviceHint.bytes = [] <;> simp [hd, Except.toOption]
  | some keyDeviceId =>
    rw [hk, Option.map_some, eq_comm, Option.filter_eq_some_iff] at hget
    obtain ⟨hf, hne⟩ := hget
    simp only [ne_eq, decide_not, Bool.not_eq_true', decide_eq_false_iff_not] at hne
    simp only [hf, Option.getD_some, ne_eq, hne, not_false_eq_true, if_true, CStr.ext_iff]
    split_ifs <;> simp [Except.toOption]

end KeyRef

variable {σ : Type}

/-- A device of the registry that an internal key may be used on. -/
structure RunsOn (req : Request) (step : SequenceStep) (before : Registry)
    (device : DeviceResource) : Prop where
  listed : ∃ d ∈ before.devices, device = { d with inflight := d.inflight + 1 }
  bound : if keyDevice req.keyRef.bytes ≠ [] then device.deviceId.bytes = keyDevice req.keyRef.bytes
    else req.deviceHint.bytes ≠ [] ∧ device.deviceId.bytes = req.deviceHint.bytes
  enabled : device.enabled = true
  capable : ∃ cap ∈ device.caps, cap.domain = step.domain ∧ cap.action = step.action ∧
    (cap.algorithm = step.algorithm ∨ cap.algorithm.bytes = lit "auto") ∧
    cap.keySourceMask &&& (1 : UInt32) <<< (1 : UInt32) ≠ 0

/-- Two bindings that differ, or none. -/
def Unbound (req : Request) : Prop :=
  (keyDevice req.keyRef.bytes ≠ [] ∧ req.deviceHint.bytes ≠ [] ∧
    req.deviceHint.bytes ≠ keyDevice req.keyRef.bytes) ∨
  (keyDevice req.keyRef.bytes = [] ∧ req.deviceHint.bytes = [])

structure Refused (ρ : StepRecord σ) : Prop where
  failed : ∃ errbuf, ρ.run.outcome = .error errbuf
  uninvoked : ρ.run.invoked = none
  unchanged : ρ.run.registry = ρ.before

theorem supports_capable {device : DeviceResource} {domain : ApiDomain} {action : ApiAction}
    {algorithm : CStr maxFieldLen}
    (h : deviceSupports device domain action algorithm.bytes 1 = true) :
    ∃ cap ∈ device.caps, cap.domain = domain ∧ cap.action = action ∧
      (cap.algorithm = algorithm ∨ cap.algorithm.bytes = lit "auto") ∧
      cap.keySourceMask &&& (1 : UInt32) <<< (1 : UInt32) ≠ 0 := by
  obtain ⟨cap, hmem, ⟨hd, ha, halg⟩, hmask⟩ := deviceSupports_cap h
  have hname : cap.algorithm = algorithm ∨ cap.algorithm.bytes = lit "auto" := by
    rw [CStr.ext_iff]
    exact halg
  exact ⟨cap, hmem, hd, ha, hname, hmask.resolve_left (by decide)⟩

theorem resolve_bound {req : Request} (hkey : keyRefIsInternalIndex req.keyRef.bytes = true)
    {hint : CStr maxFieldLen} (h : resolveDeviceHintFromKeyRef req req.keyRef.bytes = .ok hint) :
    boundDevice req = some hint.bytes := by
  rw [← resolve_internal hkey, h]
  rfl

theorem run_boundDevice {skf : SkfAdapter σ} {req : Request} {step : SequenceStep}
    {payload : Bytes} {resp : Response} {registry : Registry} {world : σ} {i : Invocation}
    (hkey : keyRefIsInternalIndex req.keyRef.bytes = true)
    (hi : ((stepCall req step payload resp).run skf registry world).invoked = some i) :
    RunsOn req step registry i.device := by
  obtain ⟨acquired, ha, hdev, _⟩ := (StepCall.invoked_iff i).mp hi
  obtain ⟨hint, d, hres, hd⟩ := StepCall.acquire_grants ha
  have hbound := resolve_bound hkey hres
  have hid := hd.hinted (boundDevice_ne_nil hbound)
  have hsup := hd.supports
  rw [show (stepCall req step payload resp).keyRef = req.keyRef.bytes from rfl,
    internal_source hkey] at hsup
  rw [hdev, hd.device]
  refine ⟨⟨d, List.mem_of_getElem? hd.slot, rfl⟩, ?_, hd.enabled, supports_capable hsup⟩
  show if _ then d.deviceId.bytes = _ else _ ∧ d.deviceId.bytes = _
  rw [hid]
  rw [boundDevice] at hbound
  split_ifs at hbound with hk hc hh
  · rw [if_pos hk]
    exact (Option.some.inj hbound).symm
  · rw [if_neg hk]
    exact ⟨hh, (Option.some.inj hbound).symm⟩

theorem run_unbound {skf : SkfAdapter σ} {req : Request} {step : SequenceStep}
    {payload : Bytes} {resp : Response} {registry : Registry} {world : σ}
    (hkey : keyRefIsInternalIndex req.keyRef.bytes = true) (hun : Unbound req) :
    ∃ errbuf, (stepCall req step payload resp).run skf registry world =
      ⟨.error (some errbuf), registry, world, none⟩ := by
  have hnone := (boundDevice_eq_none_iff req).mpr hun
  apply StepCall.run_unacquired
  rw [StepCall.acquire]
  split
  · rfl
  · rename_i hint hres
    rw [resolve_bound hkey hres] at hnone
    simp at hnone

/-- A key kept inside a device is only used on the device it is bound to. -/
theorem internal_key_runs_on_bound_device (skf : SkfAdapter σ)
    (settings : Option GatewaySettings) (registry : Registry) (req : Request) (world : σ)
    (hsource : ∃ v ∈ firstToken req.keyRef.bytes (lit "source"),
      v = lit "1" ∨ v = lit "internal_index") :
    ∀ ρ ∈ (schedulerExecute skf settings registry req world).trace,
      (∀ i ∈ ρ.run.invoked, RunsOn req ρ.step ρ.before i.device) ∧
      (Unbound req → Refused ρ) := by
  intro ρ hρ
  have hkey := (keyRefIsInternalIndex_iff req.keyRef).mpr hsource
  obtain ⟨resp, hrun⟩ := schedulerExecute_run hρ
  constructor
  · intro i hi
    rw [Option.mem_def, hrun] at hi
    exact run_boundDevice hkey hi
  · intro hun
    obtain ⟨errbuf, hrefused⟩ : ∃ errbuf, ρ.run =
        ⟨.error (some errbuf), ρ.before, ρ.worldBefore, none⟩ := by
      rw [hrun]
      exact run_unbound hkey hun
    exact ⟨⟨_, by rw [hrefused]⟩, by rw [hrefused], by rw [hrefused]⟩

/-- A hash under an internal key, or a sequence of one hash. -/
def hashWith (keyRef deviceHint sequence : String) : Request where
  requestId := store maxIdLen (lit "key-bind-2")
  domain := .hash
  action := .hash
  algorithm := store maxFieldLen (lit "sm3")
  keyRef := store maxFieldLen (lit keyRef)
  payload := store maxPayloadLen (lit "abc")
  auxPayload := empty
  deviceHint := store maxFieldLen (lit deviceHint)
  userPin := empty
  preference := .classicFirst
  sequence := store maxPayloadLen (lit sequence)

/-- A hash under an internal key of the PQC device. -/
def pqcKeyHash : Request := hashWith "source=1;key_index=7;device_id=pqc-1" "" ""

theorem internal_key_overrides_preference :
    (schedulerExecute absentToken none sampleRegistry pqcKeyHash ()).trace.map
        (fun ρ => ρ.run.invoked.map fun i => i.device.deviceId.bytes) = [some (lit "pqc-1")] ∧
      ∀ ρ ∈ (schedulerExecute absentToken none sampleRegistry pqcKeyHash ()).trace,
        (∀ i ∈ ρ.run.invoked, RunsOn pqcKeyHash ρ.step ρ.before i.device) ∧
          (Unbound pqcKeyHash → Refused ρ) := by
  constructor
  · decide
  · exact internal_key_runs_on_bound_device absentToken none sampleRegistry pqcKeyHash ()
      ⟨lit "1", by decide, Or.inl rfl⟩

/-- Each dispatched step of a sequence runs on a device of its type. -/
def TypesKept (req : Request) (e : Execution σ) : Prop :=
  req.sequence.bytes ≠ [] →
    ∀ ρ ∈ e.trace, ∀ i ∈ ρ.run.invoked, i.device.type = ρ.step.preferredType

/-- The step is not bound to a device, or the device it is bound to has the
type the step declares or no rule for the step. -/
def HintOfType (req : Request) (step : SequenceStep) (registry : Registry) : Prop :=
  ∀ hint, resolveDeviceHintFromKeyRef req req.keyRef.bytes = .ok hint → hint.bytes ≠ [] →
    ∀ d ∈ registry.devices.find? (hinted hint.bytes step.domain step.action step.algorithm.bytes
      (keyRefSourceValue req.keyRef.bytes)),
      findRule d step.domain step.action step.algorithm.bytes ≠ none → d.type = step.preferredType

theorem zipIdx_find (p : DeviceResource → Bool) (ds : List DeviceResource) (k : ℕ) :
    ((ds.zipIdx k).find? fun entry => p entry.1).map Prod.fst = ds.find? p := by
  induction ds generalizing k with
  | nil => rfl
  | cons d ds ih =>
    rw [List.zipIdx_cons, List.find?_cons, List.find?_cons]
    cases hp : p d with
    | true => rfl
    | false => exact ih (k + 1)

/-- A hinted call reaches the first device its hint selects, if a rule
translates the call for it. -/
theorem hinted_target {req : Request} {step : SequenceStep} {payload : Bytes} {resp : Response}
    {registry : Registry} {hint : CStr maxFieldLen}
    (hres : resolveDeviceHintFromKeyRef req req.keyRef.bytes = .ok hint) (hne : hint.bytes ≠ [])
    (device : DeviceResource) :
    (stepCall req step payload resp).target registry = some device ↔
      ∃ d, registry.devices.find? (hinted hint.bytes step.domain step.action step.algorithm.bytes
          (keyRefSourceValue req.keyRef.bytes)) = some d ∧
        findRule d step.domain step.action step.algorithm.bytes ≠ none ∧
        device = { d with inflight := d.inflight + 1 } := by
  rw [← zipIdx_find _ _ 0, StepCall.target, StepCall.acquire]
  simp only [stepCall, hres, registryAcquireCandidate, hne, ne_eq, not_false_eq_true, if_true]
  cases hf : registry.devices.zipIdx.find? fun entry =>
      hinted hint.bytes step.domain step.action step.algorithm.bytes
        (keyRefSourceValue req.keyRef.bytes) entry.1 with
  | none => simp
  | some entry =>
    have hrule : findRule (acquireSlot registry entry).device step.domain step.action
        step.algorithm.bytes = findRule entry.1 step.domain step.action step.algorithm.bytes := rfl
    simp only [Option.map_some, Option.some.injEq, hrule]
    cases hr : findRule entry.1 step.domain step.action step.algorithm.bytes with
    | none => simp [hr]
    | some r =>
      simp only [Option.some.injEq]
      constructor
      · rintro rfl
        exact ⟨entry.1, rfl, by simp [hr], rfl⟩
      · rintro ⟨d, rfl, _, rfl⟩
        rfl

theorem parseStep_type {token : Bytes} {step : SequenceStep} (h : parseStep token = .ok step) :
    step.preferredType ≠ .unknown := by
  rw [parseStep] at h
  simp only at h
  split at h
  · simp at h
  · simp at h
  · simp at h
  · simp at h
  · split at h
    · simp at h
    · split at h
      · simp at h
      · rename_i hk
        rw [Except.ok.injEq] at h
        rw [← h]
        intro ht
        exact hk (Or.inr (Or.inr ht))

theorem parseSequence_type {req : Request} {steps : List SequenceStep}
    (h : parseSequence req = .ok steps) : ∀ step ∈ steps, step.preferredType ≠ .unknown := by
  rw [parseSequence] at h
  split at h
  · rw [Except.ok.injEq] at h
    simp [← h]
  · have hall := parseSteps_forall₂ h
    clear h
    generalize tokens gt _ = ts at hall
    induction hall with
    | nil => simp
    | cons hs _ ih =>
      intro step hm
      rcases List.mem_cons.mp hm with rfl | hm
      · exact parseStep_type hs
      · exact ih step hm

/-- Without a device binding the order of candidates holds the declared type
alone. -/
theorem unhinted_type {req : Request} {step : SequenceStep} {payload : Bytes} {resp : Response}
    {registry : Registry} {device : DeviceResource} (htype : step.preferredType ≠ .unknown)
    {hint : CStr maxFieldLen} (hres : resolveDeviceHintFromKeyRef req req.keyRef.bytes = .ok hint)
    (hempty : hint.bytes = [])
    (ht : (stepCall req step payload resp).target registry = some device) :
    device.type = step.preferredType := by
  obtain ⟨acquired, translated, ha, rfl, _⟩ := (StepCall.target_eq_some device).mp ht
  obtain ⟨hint', d, hres', hd⟩ := StepCall.acquire_grants ha
  have hsame : hint' = hint := Except.ok.inj (hres'.symm.trans hres)
  subst hsame
  obtain ⟨type, hmem, hor⟩ := hd.ordered hempty
  have hsingle : type = step.preferredType := by
    simpa [stepCall, buildOrder, htype] using hmem
  subst hsingle
  rw [hd.device]
  exact hor.resolve_left htype

theorem step_type_iff {skf : SkfAdapter σ} {req : Request} {ρ : StepRecord σ} {resp : Response}
    (hrun : ρ.run = (stepCall req ρ.step ρ.payload resp).run skf ρ.before ρ.worldBefore)
    (htype : ρ.step.preferredType ≠ .unknown) :
    (∀ i ∈ ρ.run.invoked, i.device.type = ρ.step.preferredType) ↔
      HintOfType req ρ.step ρ.before := by
  have htarget : ∀ device, (stepCall req ρ.step ρ.payload resp).target ρ.before = some device ↔
      ∃ i, ρ.run.invoked = some i ∧ i.device = device := by
    rw [hrun]
    exact StepCall.invoked_target skf ρ.worldBefore
  constructor
  · intro h hint hres hne d hd hrule
    have ht : (stepCall req ρ.step ρ.payload resp).target ρ.before =
        some { d with inflight := d.inflight + 1 } :=
      (hinted_target hres hne _).mpr ⟨d, hd, hrule, rfl⟩
    obtain ⟨i, hi, hdev⟩ := (htarget _).mp ht
    have hi := h i hi
    rw [hdev] at hi
    exact hi
  · intro h i hi
    have ht := (htarget i.device).mpr ⟨i, hi, rfl⟩
    cases hres : resolveDeviceHintFromKeyRef req req.keyRef.bytes with
    | error errbuf =>
      simp [StepCall.target, StepCall.acquire, stepCall, hres] at ht
    | ok hint =>
      by_cases hempty : hint.bytes = []
      · exact unhinted_type htype hres hempty ht
      · obtain ⟨d, hd, hrule, hdev⟩ := (hinted_target hres hempty i.device).mp ht
        rw [hdev]
        exact h hint hres hempty d hd hrule

theorem sequence_step_type {skf : SkfAdapter σ} {settings : Option GatewaySettings}
    {registry : Registry} {req : Request} {world : σ} (hne : req.sequence.bytes ≠ [])
    {ρ : StepRecord σ} (hρ : ρ ∈ (schedulerExecute skf settings registry req world).trace) :
    ρ.step.preferredType ≠ .unknown := by
  obtain ⟨steps, hparse, hm⟩ := schedulerExecute_step_mem hne hρ
  exact parseSequence_type hparse ρ.step hm

theorem sequence_types_kept_iff (skf : SkfAdapter σ) (settings : Option GatewaySettings)
    (registry : Registry) (req : Request) (world : σ) :
    TypesKept req (schedulerExecute skf settings registry req world) ↔
      (req.sequence.bytes ≠ [] →
        ∀ ρ ∈ (schedulerExecute skf settings registry req world).trace,
          HintOfType req ρ.step ρ.before) := by
  apply forall_congr'
  intro hne
  apply forall₂_congr
  intro ρ hρ
  obtain ⟨resp, hrun⟩ := schedulerExecute_run hρ
  exact step_type_iff hrun (sequence_step_type hne hρ)

def pqcHashLine : Bytes :=
  lit "\x7b\"request_id\":\"key-bind-2\",\"domain\":\"hash\",\"action\":\"hash\"," ++
    lit "\"algorithm\":\"sm3\",\"payload\":\"abc\",\"device_hint\":\"classic-1\"," ++
    lit "\"preference\":\"classic_first\",\"sequence\":\"hash:hash:pqc:sm3\"\x7d"

/-- A device hint takes a step that declares `pqc` to a classic device. -/
theorem hint_overrides_type :
    parseRequestJson pqcHashLine = .ok (hashWith "" "classic-1" "hash:hash:pqc:sm3") ∧
      ¬TypesKept (hashWith "" "classic-1" "hash:hash:pqc:sm3")
        (schedulerExecute absentToken none sampleRegistry
          (hashWith "" "classic-1" "hash:hash:pqc:sm3") ()) := by
  constructor
  · decide +kernel
  · intro h
    have hkept := h (by decide)
    revert hkept
    decide

end Ucisdk.Routing
