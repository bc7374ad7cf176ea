import Mathlib.Data.Int.Notation
import Ucisdk.Common

/-!
# The device registry

A registry is the array of devices in registration order. Acquiring counts a
call on the slot that was chosen; releasing searches the slot by its id.
-/

set_option autoImplicit false

namespace Ucisdk.Resource

open Ucisdk.CString Ucisdk.Common

structure Capability where
  domain : ApiDomain
  action : ApiAction
  algorithm : CStr maxFieldLen
  keySourceMask : UInt32
  deriving DecidableEq

structure DeviceResource where
  deviceId : CStr maxFieldLen
  type : DeviceType
  backendProfile : CStr maxFieldLen
  priority : ℤ
  enabled : Bool
  maxInflight : ℤ
  inflight : ℤ
  securityScore : ℤ
  efficiencyScore : ℤ
  caps : List Capability
  capsFit : caps.length ≤ maxCaps
  deriving DecidableEq

structure Registry where
  devices : List DeviceResource
  fits : devices.length ≤ maxDevices
  deriving DecidableEq

def registryInit : Registry := ⟨[], by decide⟩

def registryAdd (registry : Registry) (device : DeviceResource) : Option Registry :=
  if h : registry.devices.length < maxDevices then
    some ⟨registry.devices ++ [device], by
      rw [List.length_append, List.length_singleton]
      exact h⟩
  else none

def registryFindById (registry : Registry) (deviceId : Bytes) : Option DeviceResource :=
  registry.devices.find? fun d => d.deviceId.bytes = deviceId

def deviceSupports (device : DeviceResource) (domain : ApiDomain) (action : ApiAction)
    (algorithm : Bytes) (keySource : UInt32) : Bool :=
  device.caps.any fun cap =>
    cap.domain = domain && cap.action = action &&
      (cap.algorithm.bytes = algorithm || cap.algorithm.bytes = lit "auto") &&
      (keySource = 0 || cap.keySourceMask &&& (1 <<< keySource) ≠ 0)

/-- A device that supports a step has a capability for it that admits the key source. -/
theorem deviceSupports_cap {device : DeviceResource} {domain : ApiDomain} {action : ApiAction}
    {algorithm : Bytes} {keySource : UInt32}
    (h : deviceSupports device domain action algorithm keySource = true) :
    ∃ cap ∈ device.caps,
      (cap.domain = domain ∧ cap.action = action ∧
        (cap.algorithm.bytes = algorithm ∨ cap.algorithm.bytes = lit "auto")) ∧
      (keySource = 0 ∨ cap.keySourceMask &&& (1 <<< keySource) ≠ 0) := by
  rw [deviceSupports, List.any_eq_true] at h
  obtain ⟨cap, hmem, hcap⟩ := h
  simp only [Bool.and_eq_true, Bool.or_eq_true, decide_eq_true_eq] at hcap
  obtain ⟨⟨⟨hd, ha⟩, halg⟩, hmask⟩ := hcap
  exact ⟨cap, hmem, ⟨hd, ha, halg⟩, hmask⟩

def betterCandidate (best : Option DeviceResource) (cand : DeviceResource)
    (preference : Preference) : Bool :=
  match best with
  | none => true
  | some best =>
    if preference = .secure ∧ cand.securityScore ≠ best.securityScore then
      cand.securityScore > best.securityScore
    else if preference = .efficient ∧ cand.efficiencyScore ≠ best.efficiencyScore then
      cand.efficiencyScore > best.efficiencyScore
    else if cand.priority ≠ best.priority then cand.priority < best.priority
    else if cand.inflight ≠ best.inflight then cand.inflight < best.inflight
    else cand.deviceId.bytes < best.deviceId.bytes

/-- The slot a call acquired, and the device as `*out` then shows it. -/
structure Acquired where
  registry : Registry
  slot : ℕ
  device : DeviceResource

/-- `d->inflight++; *out = d`. -/
def acquireSlot (registry : Registry) (entry : DeviceResource × ℕ) : Acquired :=
  let device := { entry.1 with inflight := entry.1.inflight + 1 }
  { registry := ⟨registry.devices.set entry.2 device, by simpa using registry.fits⟩
    slot := entry.2
    device := device }

def hinted (deviceHint : Bytes) (domain : ApiDomain) (action : ApiAction) (algorithm : Bytes)
    (keySource : UInt32) (d : DeviceResource) : Bool :=
  d.deviceId.bytes = deviceHint && d.enabled && d.inflight < d.maxInflight &&
    deviceSupports d domain action algorithm keySource

def candidate (type : DeviceType) (domain : ApiDomain) (action : ApiAction) (algorithm : Bytes)
    (keySource : UInt32) (d : DeviceResource) : Bool :=
  d.enabled && (type = .unknown || d.type = type) && d.inflight < d.maxInflight &&
    deviceSupports d domain action algorithm keySource

/-- One pass over the slots for one type of the fallback order. -/
def bestCandidate (preference : Preference) (eligible : DeviceResource → Bool) :
    List (DeviceResource × ℕ) → Option (DeviceResource × ℕ) → Option (DeviceResource × ℕ)
  | [], best => best
  | entry :: rest, best =>
    if eligible entry.1 && betterCandidate (best.map Prod.fst) entry.1 preference then
      bestCandidate preference eligible rest (some entry)
    else bestCandidate preference eligible rest best

def acquireInOrder (registry : Registry) (domain : ApiDomain) (action : ApiAction)
    (algorithm : Bytes) (keySource : UInt32) (preference : Preference) :
    List DeviceType → Option Acquired
  | [] => none
  | type :: order =>
    match bestCandidate preference (candidate type domain action algorithm keySource)
        registry.devices.zipIdx none with
    | some best => some (acquireSlot registry best)
    | none => acquireInOrder registry domain action algorithm keySource preference order

def registryAcquireCandidate (registry : Registry) (domain : ApiDomain) (action : ApiAction)
    (algorithm deviceHint : Bytes) (keySource : UInt32) (preference : Preference)
    (fallbackOrder : List DeviceType) : Option Acquired :=
  if deviceHint ≠ [] then
    match registry.devices.zipIdx.find? fun entry =>
        hinted deviceHint domain action algorithm keySource entry.1 with
    | some entry => some (acquireSlot registry entry)
    | none => none
  else acquireInOrder registry domain action algorithm keySource preference fallbackOrder

def releaseFirst (deviceId : Bytes) : List DeviceResource → List DeviceResource
  | [] => []
  | d :: ds =>
    if d.deviceId.bytes = deviceId then
      (if d.inflight > 0 then { d with inflight := d.inflight - 1 } else d) :: ds
    else d :: releaseFirst deviceId ds

theorem releaseFirst_length (deviceId : Bytes) (ds : List DeviceResource) :
    (releaseFirst deviceId ds).length = ds.length := by
  induction ds with
  | nil => rfl
  | cons d ds ih =>
    rw [releaseFirst]
    split
    · rfl
    · simp [ih]

def registryRelease (registry : Registry) (deviceId : Bytes) : Registry :=
  ⟨releaseFirst deviceId registry.devices, by
    rw [releaseFirst_length]
    exact registry.fits⟩

end Ucisdk.Resource
