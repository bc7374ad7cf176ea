import Ucisdk.Scheduler

/-!
# One call of the scheduler

The arguments of one call of `execute_single_step` in one record, what the
call acquires, and what it does in each of its cases. Every later result
about steps uses these facts and not the function's body.
-/

set_option autoImplicit false

namespace Ucisdk.StepCalls

open Ucisdk.CString Ucisdk.Common Ucisdk.Protocol Ucisdk.Resource Ucisdk.Translator Ucisdk.Driver
open Ucisdk.Scheduler

section Acquisition

/-- What an acquisition grants: a slot below its limit that supports the
call and, when a hint is given, carries its id. -/
structure Grants (registry : Registry) (domain : ApiDomain) (action : ApiAction)
    (algorithm deviceHint : Bytes) (keySource : UInt32) (order : List DeviceType)
    (acquired : Acquired) (d : DeviceResource) : Prop where
  slot : registry.devices[acquired.slot]? = some d
  device : acquired.device = { d with inflight := d.inflight + 1 }
  devices : acquired.registry.devices = registry.devices.set acquired.slot acquired.device
  enabled : d.enabled = true
  below : d.inflight < d.maxInflight
  supports : deviceSupports d domain action algorithm keySource = true
  hinted : deviceHint ≠ [] → d.deviceId.bytes = deviceHint
  ordered : deviceHint = [] → ∃ type ∈ order, type = .unknown ∨ d.type = type

variable {registry : Registry} {domain : ApiDomain} {action : ApiAction}
  {algorithm deviceHint : Bytes} {keySource : UInt32} {preference : Preference}
  {order : List DeviceType} {acquired : Acquired}

theorem bestCandidate_mem (eligible : DeviceResource → Bool)
    (entries : List (DeviceResource × ℕ)) (start : Option (DeviceResource × ℕ))
    (best : DeviceResource × ℕ) (h : bestCandidate preference eligible entries start = some best) :
    start = some best ∨ best ∈ entries ∧ eligible best.1 = true := by
  induction entries generalizing start with
  | nil => exact Or.inl h
  | cons entry rest ih =>
    rw [bestCandidate] at h
    split at h
    · rename_i he
      rw [Bool.and_eq_true] at he
      rcases ih _ h with hs | hm
      · rw [Option.some.injEq] at hs
        subst hs
        exact Or.inr ⟨by simp, he.1⟩
      · exact Or.inr ⟨by simp [hm.1], hm.2⟩
    · rcases ih _ h with hs | hm
      · exact Or.inl hs
      · exact Or.inr ⟨by simp [hm.1], hm.2⟩

theorem hinted_grants (entry : DeviceResource × ℕ) (hne : deviceHint ≠ [])
    (hm : entry ∈ registry.devices.zipIdx)
    (h : hinted deviceHint domain action algorithm keySource entry.1 = true) :
    Grants registry domain action algorithm deviceHint keySource order
      (acquireSlot registry entry) entry.1 := by
  simp only [hinted, Bool.and_eq_true, decide_eq_true_eq] at h
  obtain ⟨⟨⟨hid, hen⟩, hlt⟩, hs⟩ := h
  exact {
    slot := List.mem_zipIdx_iff_getElem?.mp hm
    device := rfl
    devices := rfl
    enabled := hen
    below := hlt
    supports := hs
    hinted := fun _ => hid
    ordered := fun h => absurd h hne }

theorem candidate_grants (type : DeviceType) (entry : DeviceResource × ℕ)
    (htype : type ∈ order) (hm : entry ∈ registry.devices.zipIdx)
    (h : candidate type domain action algorithm keySource entry.1 = true) :
    Grants registry domain action algorithm [] keySource order
      (acquireSlot registry entry) entry.1 := by
  simp only [candidate, Bool.and_eq_true, Bool.or_eq_true, decide_eq_true_eq] at h
  obtain ⟨⟨⟨hen, ht⟩, hlt⟩, hs⟩ := h
  exact {
    slot := List.mem_zipIdx_iff_getElem?.mp hm
    device := rfl
    devices := rfl
    enabled := hen
    below := hlt
    supports := hs
    hinted := fun h => absurd rfl h
    ordered := fun _ => ⟨type, htype, ht⟩ }

theorem acquireInOrder_grants (types : List DeviceType) (hsub : ∀ t ∈ types, t ∈ order)
    (h : acquireInOrder registry domain action algorithm keySource preference types =
      some acquired) :
    ∃ d, Grants registry domain action algorithm [] keySource order acquired d := by
  induction types with
  | nil => simp [acquireInOrder] at h
  | cons type types ih =>
    rw [acquireInOrder] at h
    split at h
    · rename_i best hbest
      rw [Option.some.injEq] at h
      subst h
      rcases bestCandidate_mem _ _ _ _ hbest with hn | hm
      · simp at hn
      · exact ⟨best.1, candidate_grants type best (hsub type (by simp)) hm.1 hm.2⟩
    · exact ih (fun t ht => hsub t (by simp [ht])) h

theorem registryAcquireCandidate_grants
    (h : registryAcquireCandidate registry domain action algorithm deviceHint keySource preference
      order = some acquired) :
    ∃ d, Grants registry domain action algorithm deviceHint keySource order acquired d := by
  rw [registryAcquireCandidate] at h
  split at h
  · rename_i hne
    split at h
    · rename_i entry hfind
      rw [Option.some.injEq] at h
      subst h
      have hp := List.find?_some hfind
      exact ⟨entry.1, hinted_grants entry hne (List.mem_of_find?_eq_some hfind) hp⟩
    · simp at h
  · rename_i hempty
    rw [not_not] at hempty
    subst hempty
    exact acquireInOrder_grants order (fun _ ht => ht) h

end Acquisition

structure StepCall where
  req : Request
  domain : ApiDomain
  action : ApiAction
  algorithm : Bytes
  payload : Bytes
  auxPayload : Bytes
  keyRef : Bytes
  explicitType : DeviceType
  resp : Response

namespace StepCall

variable {σ : Type} (skf : SkfAdapter σ) (call : StepCall) (registry : Registry) (world : σ)

def run : StepRun σ :=
  executeSingleStep skf registry call.req call.domain call.action call.algorithm call.payload
    call.auxPayload call.keyRef call.explicitType call.resp world

/-- What the call acquires from a registry, if it binds and finds a slot. -/
def acquire : Option Acquired :=
  match resolveDeviceHintFromKeyRef call.req call.keyRef with
  | .error _ => none
  | .ok hint =>
    registryAcquireCandidate registry call.domain call.action call.algorithm hint.bytes
      (keyRefSourceValue call.keyRef) call.req.preference
      (buildOrder call.req.preference call.explicitType)

def translate (device : DeviceResource) : Except ErrText TranslatedCall :=
  translateBackendCall call.domain call.action call.algorithm call.payload call.auxPayload
    call.keyRef device

def dispatch (device : DeviceResource) (translated : TranslatedCall) : Dispatched σ :=
  driverDispatch (driverOpsFor skf device) call.domain device translated call.resp world

variable {skf call registry world}

theorem resolve_empty {req : Request} {keyRef : Bytes} {hint : CStr maxFieldLen}
    (h : resolveDeviceHintFromKeyRef req keyRef = .ok hint) (he : hint.bytes = []) :
    req.deviceHint.bytes = [] := by
  have hs : (store maxFieldLen req.deviceHint.bytes).bytes = req.deviceHint.bytes := store_self _
  simp only [resolveDeviceHintFromKeyRef] at h
  split at h
  · rw [Except.ok.injEq] at h
    subst h
    rw [← hs]
    exact he
  · split at h
    · rename_i keyDeviceId hget
      split at h
      · simp at h
      · rename_i hc
        by_contra hne
        rw [not_and_or, not_not, not_not] at hc
        rcases hc with hc | hc
        · rw [hs] at hc
          exact hne hc
        · rw [Except.ok.injEq] at h
          rw [← h, store_self, ← hc, hs] at he
          exact hne he
    · split at h
      · rw [Except.ok.injEq] at h
        subst h
        rw [← hs]
        exact he
      · simp at h

/-- The conditional on the explicit type never decides: an empty effective
hint means that the request carries none. -/
theorem run_eq_bound {hint : CStr maxFieldLen}
    (h : resolveDeviceHintFromKeyRef call.req call.keyRef = .ok hint) :
    (if hint.bytes ≠ [] then hint.bytes
      else if call.explicitType = .unknown then call.req.deviceHint.bytes else []) = hint.bytes := by
  by_cases he : hint.bytes = []
  · simp [he, resolve_empty h he]
  · simp [he]

theorem run_unacquired (h : call.acquire registry = none) (skf : SkfAdapter σ) (world : σ) :
    ∃ errbuf, call.run skf registry world = ⟨.error (some errbuf), registry, world, none⟩ := by
  rw [run, executeSingleStep]
  rw [acquire] at h
  split
  · rename_i errbuf hr
    exact ⟨errbuf, rfl⟩
  · rename_i hint hr
    rw [hr] at h
    simp only [run_eq_bound hr, h]
    exact ⟨_, rfl⟩

/-- A device is acquired by the hint that is resolved. -/
theorem acquire_eq_some {acquired : Acquired} (h : call.acquire registry = some acquired) :
    ∃ hint, resolveDeviceHintFromKeyRef call.req call.keyRef = .ok hint ∧
      registryAcquireCandidate registry call.domain call.action call.algorithm hint.bytes
        (keyRefSourceValue call.keyRef) call.req.preference
        (buildOrder call.req.preference call.explicitType) = some acquired := by
  rw [acquire] at h
  split at h
  · cases h
  · rename_i hint hr
    exact ⟨hint, hr, h⟩

theorem run_untranslated {acquired : Acquired} {errbuf : ErrText}
    (h : call.acquire registry = some acquired)
    (ht : call.translate acquired.device = .error errbuf) :
    call.run skf registry world =
      ⟨.error (some errbuf), registryRelease acquired.registry acquired.device.deviceId.bytes, world,
        none⟩ := by
  obtain ⟨hint, hr, hacquired⟩ := acquire_eq_some h
  rw [translate] at ht
  rw [run, executeSingleStep, hr]
  simp only [run_eq_bound hr, hacquired, ht]

/-- Both exits behind a dispatch release the slot that was acquired. -/
theorem run_dispatched {acquired : Acquired} {translated : TranslatedCall}
    (h : call.acquire registry = some acquired)
    (ht : call.translate acquired.device = .ok translated) :
    call.run skf registry world =
      ⟨(call.dispatch skf world acquired.device translated).outcome,
        registryRelease acquired.registry acquired.device.deviceId.bytes,
        (call.dispatch skf world acquired.device translated).world,
        (call.dispatch skf world acquired.device translated).invoked⟩ := by
  obtain ⟨hint, hr, hacquired⟩ := acquire_eq_some h
  rw [translate] at ht
  rw [run, executeSingleStep, hr]
  simp only [run_eq_bound hr, hacquired, ht, dispatch]
  split
  · rename_i errbuf he
    rw [he]
  · rename_i resp he
    rw [he]

theorem findRule_domain {device : DeviceResource} {domain : ApiDomain} {action : ApiAction}
    {algorithm : Bytes} {r : TranslationRule}
    (h : findRule device domain action algorithm = some r) :
    domain ≠ .unknown ∧ domain ≠ .auth := by
  have hp := List.find?_some h
  have hm : ∀ r ∈ gRules, r.domain ≠ .unknown ∧ r.domain ≠ .auth := by decide
  simp only [ruleMatches, Bool.and_eq_true, decide_eq_true_eq] at hp
  rw [← hp.1.1.2]
  exact hm r (List.mem_of_find?_eq_some h)

/-- A translated call names a domain with a handler in every adapter. -/
theorem dispatch_invoked {device : DeviceResource} {translated : TranslatedCall}
    (ht : call.translate device = .ok translated) :
    (call.dispatch skf world device translated).invoked = some ⟨device, translated⟩ := by
  rw [translate, translateBackendCall] at ht
  split at ht
  · simp at ht
  · rename_i r hr
    have hd := findRule_domain hr
    rw [dispatch, driverOpsFor]
    cases hdom : call.domain <;> simp [hdom] at hd <;>
      split_ifs <;> rfl

theorem invoked_iff (i : Invocation) :
    (call.run skf registry world).invoked = some i ↔
      ∃ acquired, call.acquire registry = some acquired ∧ i.device = acquired.device ∧
        call.translate acquired.device = .ok i.call := by
  constructor
  · intro hi
    cases ha : call.acquire registry with
    | none =>
      obtain ⟨errbuf, hr⟩ := run_unacquired ha skf world
      simp [hr] at hi
    | some acquired =>
      cases ht : call.translate acquired.device with
      | error errbuf =>
        rw [run_untranslated ha ht] at hi
        simp at hi
      | ok translated =>
        rw [run_dispatched ha ht, dispatch_invoked ht, Option.some.injEq] at hi
        subst hi
        exact ⟨acquired, rfl, rfl, ht⟩
  · rintro ⟨acquired, ha, hd, ht⟩
    rw [run_dispatched ha ht, dispatch_invoked ht, ← hd]

theorem ok_invoked {resp : Response} (h : (call.run skf registry world).outcome = .ok resp) :
    ∃ i, (call.run skf registry world).invoked = some i := by
  cases ha : call.acquire registry with
  | none =>
    obtain ⟨errbuf, hr⟩ := run_unacquired ha skf world
    simp [hr] at h
  | some acquired =>
    cases ht : call.translate acquired.device with
    | error errbuf =>
      rw [run_untranslated ha ht] at h
      simp at h
    | ok translated => exact ⟨⟨acquired.device, translated⟩, invoked_iff _ |>.mpr ⟨_, ha, rfl, ht⟩⟩

theorem acquire_grants {acquired : Acquired} (h : call.acquire registry = some acquired) :
    ∃ hint d, resolveDeviceHintFromKeyRef call.req call.keyRef = .ok hint ∧
      Grants registry call.domain call.action call.algorithm hint.bytes
        (keyRefSourceValue call.keyRef) (buildOrder call.req.preference call.explicitType)
        acquired d := by
  rw [acquire] at h
  split at h
  · simp at h
  · rename_i hint hr
    obtain ⟨d, hd⟩ := registryAcquireCandidate_grants h
    exact ⟨hint, d, hr, hd⟩

theorem translate_eq {device : DeviceResource} {translated : TranslatedCall}
    (ht : call.translate device = .ok translated) :
    translated.call =
      { domain := call.domain
        action := call.action
        algorithm := store maxFieldLen call.algorithm
        keyRef := store maxFieldLen call.keyRef
        payload := store maxPayloadLen call.payload
        auxPayload := store maxPayloadLen call.auxPayload } := by
  rw [translate, translateBackendCall] at ht
  split at ht
  · simp at ht
  · rw [Except.ok.injEq] at ht
    rw [← ht]

/-- The device whose adapter the call reaches, read off the registry alone. -/
def target (call : StepCall) (registry : Registry) : Option DeviceResource :=
  match call.acquire registry with
  | none => none
  | some acquired =>
    match findRule acquired.device call.domain call.action call.algorithm with
    | none => none
    | some _ => some acquired.device

theorem target_eq_some (device : DeviceResource) :
    call.target registry = some device ↔
      ∃ acquired translated, call.acquire registry = some acquired ∧ acquired.device = device ∧
        call.translate device = .ok translated := by
  rw [target]
  constructor
  · intro h
    split at h
    · simp at h
    · rename_i acquired ha
      split at h
      · simp at h
      · rename_i r hr
        rw [Option.some.injEq] at h
        subst h
        rw [translate, translateBackendCall, hr]
        exact ⟨acquired, _, ha, rfl, rfl⟩
  · rintro ⟨acquired, translated, ha, rfl, ht⟩
    rw [translate, translateBackendCall] at ht
    rw [ha]
    split at ht
    · simp at ht
    · rename_i r hr
      simp [hr]

theorem invoked_target (skf : SkfAdapter σ) (world : σ) (device : DeviceResource) :
    call.target registry = some device ↔
      ∃ i, (call.run skf registry world).invoked = some i ∧ i.device = device := by
  rw [target_eq_some]
  constructor
  · rintro ⟨acquired, translated, ha, rfl, ht⟩
    exact ⟨⟨acquired.device, translated⟩, (invoked_iff _).mpr ⟨acquired, ha, rfl, ht⟩, rfl⟩
  · rintro ⟨i, hi, rfl⟩
    obtain ⟨acquired, ha, hd, ht⟩ := (invoked_iff _).mp hi
    rw [← hd] at ht
    exact ⟨acquired, i.call, ha, hd.symm, ht⟩

end StepCall

section Frame

/-- A device without its counter. -/
def idle (d : DeviceResource) : DeviceResource := { d with inflight := 0 }

theorem releaseFirst_idle (deviceId : Bytes) (ds : List DeviceResource) :
    (releaseFirst deviceId ds).map idle = ds.map idle := by
  induction ds with
  | nil => rfl
  | cons d ds ih =>
    rw [releaseFirst]
    split
    · rw [List.map_cons, List.map_cons]
      congr 1
      split <;> rfl
    · rw [List.map_cons, List.map_cons, ih]

theorem acquired_idle {call : StepCall} {registry : Registry} {acquired : Acquired}
    (h : call.acquire registry = some acquired) :
    acquired.registry.devices.map idle = registry.devices.map idle := by
  obtain ⟨hint, d, _, hd⟩ := StepCall.acquire_grants h
  rw [hd.devices, hd.device]
  apply List.ext_getElem?
  intro i
  rw [List.getElem?_map, List.getElem?_map]
  by_cases hi : i = acquired.slot
  · subst hi
    rw [List.getElem?_set_self (List.getElem?_eq_some_iff.mp hd.slot).1, hd.slot]
    rfl
  · rw [List.getElem?_set_ne (Ne.symm hi)]

theorem released_idle {call : StepCall} {registry : Registry} {acquired : Acquired}
    (h : call.acquire registry = some acquired) :
    (registryRelease acquired.registry acquired.device.deviceId.bytes).devices.map idle =
      registry.devices.map idle := by
  rw [← acquired_idle h]
  exact releaseFirst_idle _ acquired.registry.devices

/-- A call leaves every device as it was, its counter apart. -/
theorem run_idle {σ : Type} {skf : SkfAdapter σ} (call : StepCall) (registry : Registry)
    (world : σ) :
    (call.run skf registry world).registry.devices.map idle = registry.devices.map idle := by
  cases ha : call.acquire registry with
  | none =>
    obtain ⟨errbuf, hr⟩ := StepCall.run_unacquired ha skf world
    rw [hr]
  | some acquired =>
    cases ht : call.translate acquired.device with
    | error errbuf =>
      rw [StepCall.run_untranslated ha ht]
      exact released_idle ha
    | ok translated =>
      rw [StepCall.run_dispatched ha ht]
      exact released_idle ha

/-- A device that is there behind a call was there before it. -/
theorem idle_mem {before after : List DeviceResource} (h : after.map idle = before.map idle)
    {d : DeviceResource} (hd : d ∈ after) : ∃ e ∈ before, idle e = idle d := by
  have hidle : idle d ∈ before.map idle := by
    rw [← h]
    exact List.mem_map_of_mem hd
  exact List.mem_map.mp hidle

end Frame

end Ucisdk.StepCalls
