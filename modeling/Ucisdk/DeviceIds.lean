import Ucisdk.ConfigExact
import Ucisdk.Ranking
import Ucisdk.Inflight

/-!
# The ids of a loaded registry

The loader keeps the first 255 bytes of an id and compares it with no other.
Whether a lookup by id means one device is up to the file.
-/

set_option autoImplicit false

namespace Ucisdk.DeviceIds

open Ucisdk.CString Ucisdk.Common Ucisdk.Resource Ucisdk.Config Ucisdk.ConfigExact
open Ucisdk.Inflight Ucisdk.Ranking
open Scan.Tokens Scan.Lines

section Declared

/-- The ids that the device lines of a file declare, in order, as far as a
device keeps them. A line is what one `fgets` reads, up to its first NUL. -/
def declaredIds (file : Bytes) : List Bytes :=
  (reads newline 1023 file).filterMap fun piece =>
    (declaredDevice (piece.takeWhile fun c => c ≠ 0)).map fun entry => entry.1.take 255

theorem takeWhile_text (piece : Bytes) :
    ∀ c ∈ piece.takeWhile (fun c => c ≠ 0), c ≠ 0 := by
  intro c hc
  simpa using List.mem_takeWhile_imp hc

theorem readLine_text (piece : Bytes) :
    readLine piece = readLine (piece.takeWhile fun c => c ≠ 0) := by
  have hwhole : ((piece.takeWhile fun c => c ≠ 0).takeWhile fun c => c ≠ 0) =
      piece.takeWhile fun c => c ≠ 0 := by
    rw [List.takeWhile_eq_self_iff]
    intro c hc
    simpa using takeWhile_text piece c hc
  simp only [readLine, hwhole]

theorem readLine_id (piece : Bytes) :
    (readLine piece).map (fun fields => fields.1.deviceId.bytes) =
      (declaredDevice (piece.takeWhile fun c => c ≠ 0)).map fun entry => entry.1.take 255 := by
  have hread := readLine_whole (takeWhile_text piece)
  rw [readLine_text]
  cases hdeclared : declaredDevice (piece.takeWhile fun c => c ≠ 0) with
  | none =>
    rw [hdeclared] at hread
    rw [hread]
    rfl
  | some entry =>
    rw [hdeclared] at hread
    obtain ⟨device, hdevice, hid⟩ := hread
    rw [hdevice]
    show some device.deviceId.bytes = some (entry.1.take 255)
    rw [hid]
    rfl

theorem madeOf_ids {fields : List (DeviceResource × Bytes)} {devices : List DeviceResource}
    (h : List.Forall₂ MadeOf fields devices) :
    devices.map (fun d => d.deviceId.bytes) = fields.map fun f => f.1.deviceId.bytes := by
  induction h with
  | nil => rfl
  | cons hmade _ ih => rw [List.map_cons, List.map_cons, ih, hmade.1]

variable {path file : Bytes} {registry : Registry}

/-- The ids of the registry are the ones the file declares. -/
theorem loaded_ids (hload : loadResourcesFromFile path (some file) registryInit = ⟨none, registry⟩) :
    registry.devices.map (fun d => d.deviceId.bytes) = declaredIds file := by
  obtain ⟨hdevices, hall⟩ := loadLines_ok hload
  have hids := madeOf_ids (registered_forall₂ hall)
  rw [hdevices, registryInit, List.nil_append, hids, List.map_filterMap, declaredIds]
  congr 1
  funext piece
  exact readLine_id piece

end Declared

section Denoting

/-- Every id of the registry denotes one device, wherever it is looked up. -/
structure DenotesOne (registry : Registry) : Prop where
  distinct : (registry.devices.map fun d => d.deviceId.bytes).Nodup
  found : ∀ d ∈ registry.devices, registryFindById registry d.deviceId.bytes = some d
  hinted : ∀ d ∈ registry.devices, ∀ e ∈ registry.devices,
    ∀ domain action algorithm keySource,
      hinted d.deviceId.bytes domain action algorithm keySource e = true → e = d
  released : ∀ i d, registry.devices[i]? = some d →
    (registryRelease registry d.deviceId.bytes).devices =
      registry.devices.set i (if d.inflight > 0 then { d with inflight := d.inflight - 1 } else d)

variable {registry : Registry}

theorem device_of_id (hids : (registry.devices.map fun d => d.deviceId.bytes).Nodup)
    {d e : DeviceResource} (hd : d ∈ registry.devices) (he : e ∈ registry.devices)
    (h : e.deviceId.bytes = d.deviceId.bytes) : e = d :=
  List.inj_on_of_nodup_map hids he hd h

theorem denotesOne_iff :
    DenotesOne registry ↔ (registry.devices.map fun d => d.deviceId.bytes).Nodup := by
  constructor
  · intro h
    exact h.distinct
  · intro hids
    constructor
    · exact hids
    · intro d hd
      rw [registryFindById]
      cases hfind : registry.devices.find? fun e => e.deviceId.bytes = d.deviceId.bytes with
      | none =>
        have hno := List.find?_eq_none.mp hfind d hd
        simp at hno
      | some e =>
        have hid := List.find?_some hfind
        rw [decide_eq_true_eq] at hid
        rw [device_of_id hids hd (List.mem_of_find?_eq_some hfind) hid]
    · intro d hd e he domain action algorithm keySource hhint
      exact device_of_id hids hd he ((hinted_iff d.deviceId.bytes e).mp hhint).1
    · intro i d hd
      exact releaseFirst_slot hids hd

end Denoting

section Samples

end Samples

end Ucisdk.DeviceIds
