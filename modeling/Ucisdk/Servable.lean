import Ucisdk.Ranking
import Ucisdk.Routing

/-!
# Devices that can serve a step

A step takes its best-ranked candidate and looks for the translation rule
behind it. A device that declares a capability without a rule is then in the
way of every other one.
-/

set_option autoImplicit false

namespace Ucisdk.Servable

open Ucisdk.CString Ucisdk.Common Ucisdk.Resource Ucisdk.Translator Ucisdk.Driver
open Ucisdk.Scheduler Ucisdk.StepCalls Ucisdk.SequenceRun Ucisdk.Ranking Ucisdk.Routing

section First

theorem argmin_map {α β γ : Type} [Preorder γ] [DecidableLT γ] (f : β → γ) (g : α → β)
    (l : List α) : (l.argmin fun a => f (g a)).map g = (l.map g).argmin f := by
  have hfold (start : Option α) :
      (l.foldl (List.argAux fun a b => f (g a) < f (g b)) start).map g =
        (l.map g).foldl (List.argAux fun b c => f b < f c) (start.map g) := by
    induction l generalizing start with
    | nil => rfl
    | cons a l ih =>
      rw [List.foldl_cons, List.map_cons, List.foldl_cons, ih]
      congr 1
      cases start with
      | none => rfl
      | some b =>
        simp only [List.argAux, Option.map_some]
        split_ifs <;> rfl
  exact hfold none

/-- The device the inner scan takes, whatever its slot. -/
theorem bestCandidate_device (preference : Preference) (eligible : DeviceResource → Bool)
    (devices : List DeviceResource) :
    (bestCandidate preference eligible devices.zipIdx none).map Prod.fst =
      (devices.filter eligible).argmin (rank preference) := by
  have hmap : (devices.zipIdx.filter fun e => eligible e.1).map Prod.fst =
      devices.filter eligible := by
    have hcomp := List.filter_map (f := Prod.fst) (p := eligible) (l := devices.zipIdx)
    rw [List.zipIdx_map_fst] at hcomp
    exact hcomp.symm
  rw [bestCandidate_argmin, argmin_map, hmap]

end First

section Call

variable (call : StepCall)

/-- Neither a hint nor the key binds the call to a device. -/
def Free : Prop := call.req.deviceHint.bytes = [] ∧ keyRefIsInternalIndex call.keyRef = false

instance : Decidable (Free call) := inferInstanceAs (Decidable (_ ∧ _))

def order : List DeviceType := buildOrder call.req.preference call.explicitType

/-- An enabled device below its limit, of an allowed type, that supports the call. -/
def Allowed (d : DeviceResource) : Prop :=
  Serves call.domain call.action call.algorithm (keyRefSourceValue call.keyRef) d ∧
    ∃ type ∈ order call, OfType type d

def CanServe (d : DeviceResource) : Prop :=
  Allowed call d ∧ ∃ translated, call.translate d = .ok translated

/-- The first of the best-ranked candidates of the first type that has any. -/
def bestRanked (devices : List DeviceResource) : Option DeviceResource :=
  (order call).findSome? fun type =>
    (devices.filter (candidate type call.domain call.action call.algorithm
      (keyRefSourceValue call.keyRef))).argmin (rank call.req.preference)

/-- The device the call takes: the first one its binding selects, or else the
best-ranked one. -/
def chosen (devices : List DeviceResource) : Option DeviceResource :=
  match resolveDeviceHintFromKeyRef call.req call.keyRef with
  | .error _ => none
  | .ok hint =>
    if hint.bytes ≠ [] then
      devices.find? (hinted hint.bytes call.domain call.action call.algorithm
        (keyRefSourceValue call.keyRef))
    else bestRanked call devices

variable {call}

theorem translate_ok_iff (d : DeviceResource) :
    (∃ translated, call.translate d = .ok translated) ↔
      (findRule d call.domain call.action call.algorithm).isSome = true := by
  rw [StepCall.translate, translateBackendCall]
  cases findRule d call.domain call.action call.algorithm with
  | none => simp
  | some r => simp

theorem findRule_inflight (d : DeviceResource) (n : ℤ) (domain : ApiDomain) (action : ApiAction)
    (algorithm : Bytes) :
    findRule { d with inflight := n } domain action algorithm = findRule d domain action algorithm :=
  rfl

theorem acquireInOrder_device (registry : Registry) (domain : ApiDomain) (action : ApiAction)
    (algorithm : Bytes) (keySource : UInt32) (preference : Preference) (types : List DeviceType) :
    (acquireInOrder registry domain action algorithm keySource preference types).map
        Acquired.device =
      (types.findSome? fun type =>
        (registry.devices.filter (candidate type domain action algorithm keySource)).argmin
          (rank preference)).map fun d => { d with inflight := d.inflight + 1 } := by
  induction types with
  | nil => rfl
  | cons type types ih =>
    have hscan := bestCandidate_device preference (candidate type domain action algorithm keySource)
      registry.devices
    rw [acquireInOrder, List.findSome?_cons, ← hscan]
    cases bestCandidate preference (candidate type domain action algorithm keySource)
        registry.devices.zipIdx none with
    | none => exact ih
    | some best => rfl

theorem acquire_chosen (call : StepCall) (registry : Registry) :
    (call.acquire registry).map Acquired.device =
      (chosen call registry.devices).map fun d => { d with inflight := d.inflight + 1 } := by
  rw [StepCall.acquire, chosen]
  cases resolveDeviceHintFromKeyRef call.req call.keyRef with
  | error errbuf => rfl
  | ok hint =>
    simp only
    by_cases hempty : hint.bytes = []
    · simp only [registryAcquireCandidate, hempty, ne_eq, not_true_eq_false, if_false]
      exact acquireInOrder_device registry call.domain call.action call.algorithm
        (keyRefSourceValue call.keyRef) call.req.preference (order call)
    · simp only [registryAcquireCandidate, hempty, ne_eq, not_false_eq_true, if_true]
      rw [← zipIdx_find _ registry.devices 0]
      cases registry.devices.zipIdx.find? fun entry =>
          hinted hint.bytes call.domain call.action call.algorithm
            (keyRefSourceValue call.keyRef) entry.1 with
      | none => rfl
      | some entry => rfl

/-- The call reaches the device it takes, if a rule translates the call for it. -/
theorem target_chosen (call : StepCall) (registry : Registry) (device : DeviceResource) :
    call.target registry = some device ↔
      ∃ d, chosen call registry.devices = some d ∧
        (findRule d call.domain call.action call.algorithm).isSome = true ∧
        device = { d with inflight := d.inflight + 1 } := by
  have hdevice := acquire_chosen call registry
  rw [StepCall.target_eq_some]
  constructor
  · rintro ⟨acquired, translated, ha, rfl, ht⟩
    rw [ha, Option.map_some, eq_comm, Option.map_eq_some_iff] at hdevice
    obtain ⟨d, hd, heq⟩ := hdevice
    have hrule := (translate_ok_iff acquired.device).mp ⟨_, ht⟩
    rw [← heq, findRule_inflight] at hrule
    exact ⟨d, hd, hrule, heq.symm⟩
  · rintro ⟨d, hd, hrule, rfl⟩
    rw [hd, Option.map_some, Option.map_eq_some_iff] at hdevice
    obtain ⟨acquired, ha, heq⟩ := hdevice
    have hruled : (findRule acquired.device call.domain call.action call.algorithm).isSome =
        true := by
      rw [heq]
      exact hrule
    obtain ⟨translated, ht⟩ := (translate_ok_iff acquired.device).mpr hruled
    rw [heq] at ht
    exact ⟨acquired, translated, ha, heq, ht⟩

theorem free_chosen (hfree : Free call) (devices : List DeviceResource) :
    chosen call devices = bestRanked call devices := by
  have hres : resolveDeviceHintFromKeyRef call.req call.keyRef =
      .ok (store maxFieldLen call.req.deviceHint.bytes) := by
    simp [resolveDeviceHintFromKeyRef, hfree.2]
  have hhint : (store maxFieldLen call.req.deviceHint.bytes).bytes = [] := by
    rw [store_self]
    exact hfree.1
  rw [chosen, hres]
  simp only [hhint, ne_eq, not_true_eq_false, if_false]

variable {σ : Type} (skf : SkfAdapter σ) (registry : Registry) (world : σ)

/-- The call reaches a handler if and only if its best-ranked device has a rule. -/
theorem invoked_iff_ruled (hfree : Free call) :
    (call.run skf registry world).invoked.isSome = true ↔
      ∃ d, bestRanked call registry.devices = some d ∧
        (findRule d call.domain call.action call.algorithm).isSome = true := by
  rw [Option.isSome_iff_exists, ← free_chosen hfree]
  constructor
  · rintro ⟨i, hi⟩
    have ht := (StepCall.invoked_target skf world i.device).mpr ⟨i, hi, rfl⟩
    obtain ⟨d, hd, hrule, _⟩ := (target_chosen call registry i.device).mp ht
    exact ⟨d, hd, hrule⟩
  · rintro ⟨d, hd, hrule⟩
    have ht := (target_chosen call registry _).mpr ⟨d, hd, hrule, rfl⟩
    obtain ⟨i, hi, _⟩ := (StepCall.invoked_target skf world _).mp ht
    exact ⟨i, hi⟩

variable (call) in
/-- Where some device can serve the call, the call reaches a handler. -/
def Served : Prop :=
  (∃ d ∈ registry.devices, CanServe call d) → (call.run skf registry world).invoked.isSome = true

variable (call) in
theorem served_iff (hfree : Free call) :
    Served call skf registry world ↔
      (∃ d, bestRanked call registry.devices = some d ∧
        (findRule d call.domain call.action call.algorithm).isSome = true) ∨
      ∀ d ∈ registry.devices, Allowed call d →
        findRule d call.domain call.action call.algorithm = none := by
  rw [Served, invoked_iff_ruled skf registry world hfree]
  constructor
  · intro h
    by_cases hcan : ∃ d ∈ registry.devices, CanServe call d
    · exact Or.inl (h hcan)
    · right
      intro d hd hallowed
      rw [← Option.not_isSome_iff_eq_none]
      intro hrule
      exact hcan ⟨d, hd, hallowed, (translate_ok_iff d).mpr hrule⟩
  · rintro (hbest | hnone)
    · intro _
      exact hbest
    · rintro ⟨d, hd, hallowed, ht⟩
      rw [translate_ok_iff, hnone d hd hallowed] at ht
      simp at ht

end Call

section Samples

/-- `softlib-1` of the shipped `devices.conf`. -/
def softlibOne : DeviceResource where
  deviceId := store maxFieldLen (lit "softlib-1")
  type := .classic
  backendProfile := store maxFieldLen (lit "softlib")
  priority := 300
  enabled := true
  maxInflight := 8
  inflight := 0
  securityScore := 60
  efficiencyScore := 100
  caps := [⟨.asym, .sign, store maxFieldLen (lit "sm2"), 8⟩, anySource .hash .hash "sm3"]
  capsFit := by decide

def softlibRegistry : Registry := ⟨[classicOne, softlibOne], by decide⟩

def hashRequest (preference : Preference) : Request where
  requestId := store maxIdLen (lit "r14")
  domain := .hash
  action := .hash
  algorithm := store maxFieldLen (lit "sm3")
  keyRef := empty
  payload := store maxPayloadLen (lit "abc")
  auxPayload := empty
  deviceHint := empty
  userPin := empty
  preference := preference
  sequence := empty

def hashCall (preference : Preference) : StepCall :=
  stepCall (hashRequest preference) (plainStep (hashRequest preference)) (lit "abc") Response.zero

theorem balanced_hash_served : Served (hashCall .balanced) absentToken softlibRegistry () := by
  apply (served_iff (hashCall .balanced) absentToken softlibRegistry () (by decide)).mpr
  left
  have hbest : (bestRanked (hashCall .balanced) softlibRegistry.devices).any (fun d =>
      (findRule d .hash .hash (lit "sm3")).isSome) = true := by
    decide
  rw [Option.any_eq_true] at hbest
  exact hbest

/-- The library declares `hash:hash:sm3` with the best efficiency score and
has no rule for it. -/
theorem efficient_hash_hidden :
    ¬Served (hashCall .efficient) absentToken softlibRegistry () := by
  intro h
  have hserved : ((hashCall .efficient).run absentToken softlibRegistry ()).invoked.isSome =
      true := by
    apply h
    refine ⟨classicOne, by decide, ⟨by decide, ?_⟩, ?_⟩
    · exact ⟨.classic, by decide, by decide⟩
    · rw [translate_ok_iff]
      decide
  revert hserved
  decide

end Samples

end Ucisdk.Servable
