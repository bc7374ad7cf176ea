import Mathlib.Data.Fintype.Basic
import Ucisdk.Flow.Leases
import Ucisdk.SequenceRun

/-!
# Concurrent calls on one registry

Any number of calls of `execute_single_step` share a registry. An acquisition
and a release are each one step under the registry's lock; between the two a
call translates and dispatches without touching the registry. Each step of
the relation is one of the places where a call may be preempted.
-/

set_option autoImplicit false

namespace Ucisdk.Inflight

open Ucisdk.CString Ucisdk.Common Ucisdk.Resource Ucisdk.Translator Ucisdk.Driver
open Ucisdk.Scheduler Ucisdk.StepCalls Ucisdk.SequenceRun
open Flow.Leases Relation

/-- Where a call stands. The slot is the pointer the acquisition returned. -/
inductive Phase where
  | pending
  | holding (slot : ℕ)
  | leaving (slot : ℕ) (outcome : Outcome)
  | returned (outcome : Outcome)

/-- The slot a call has acquired and not released yet. -/
def Phase.slot : Phase → Option ℕ
  | .pending => none
  | .holding slot => some slot
  | .leaving slot _ => some slot
  | .returned _ => none

structure State (κ : Type) where
  registry : Registry
  phase : κ → Phase

def State.held {κ : Type} (s : State κ) (k : κ) : Option ℕ := (s.phase k).slot

def start {κ : Type} (registry : Registry) : State κ := ⟨registry, fun _ => .pending⟩

section Steps

variable {κ σ : Type} [DecidableEq κ] (skf : SkfAdapter σ) (calls : κ → StepCall)

/-- A step of one caller. The world of a dispatch is arbitrary, so a handler
may end in any way it can. -/
inductive Step : State κ → State κ → Prop
  | refuse {s : State κ} (k : κ) (errbuf : ErrText) (hk : s.phase k = .pending)
      (ha : (calls k).acquire s.registry = none) :
      Step s ⟨s.registry, Function.update s.phase k (.returned (.error (some errbuf)))⟩
  | acquire {s : State κ} (k : κ) (acquired : Acquired) (hk : s.phase k = .pending)
      (ha : (calls k).acquire s.registry = some acquired) :
      Step s ⟨acquired.registry, Function.update s.phase k (.holding acquired.slot)⟩
  | untranslated {s : State κ} (k : κ) (slot : ℕ) (device : DeviceResource) (errbuf : ErrText)
      (hk : s.phase k = .holding slot) (hd : s.registry.devices[slot]? = some device)
      (ht : (calls k).translate device = .error errbuf) :
      Step s ⟨s.registry, Function.update s.phase k (.leaving slot (.error (some errbuf)))⟩
  | dispatched {s : State κ} (k : κ) (slot : ℕ) (device : DeviceResource)
      (translated : TranslatedCall) (world : σ) (hk : s.phase k = .holding slot)
      (hd : s.registry.devices[slot]? = some device)
      (ht : (calls k).translate device = .ok translated) :
      Step s ⟨s.registry, Function.update s.phase k
        (.leaving slot ((calls k).dispatch skf world device translated).outcome)⟩
  | release {s : State κ} (k : κ) (slot : ℕ) (outcome : Outcome) (device : DeviceResource)
      (hk : s.phase k = .leaving slot outcome) (hd : s.registry.devices[slot]? = some device) :
      Step s ⟨registryRelease s.registry device.deviceId.bytes,
        Function.update s.phase k (.returned outcome)⟩

def Reachable (registry : Registry) (s : State κ) : Prop :=
  ReflTransGen (Step skf calls) (start registry) s

end Steps

section Release

/-- With distinct ids the search for an id ends at the slot that carries it. -/
theorem releaseFirst_slot {ds : List DeviceResource} {i : ℕ} {d : DeviceResource}
    (hids : (ds.map fun d => d.deviceId.bytes).Nodup) (hd : ds[i]? = some d) :
    releaseFirst d.deviceId.bytes ds =
      ds.set i (if d.inflight > 0 then { d with inflight := d.inflight - 1 } else d) := by
  induction ds generalizing i with
  | nil => simp at hd
  | cons e ds ih =>
    rw [List.map_cons, List.nodup_cons] at hids
    cases i with
    | zero =>
      rw [List.getElem?_cons_zero, Option.some.injEq] at hd
      subst hd
      rw [releaseFirst, if_pos rfl, List.set_cons_zero]
    | succ i =>
      rw [List.getElem?_cons_succ] at hd
      have hne : e.deviceId.bytes ≠ d.deviceId.bytes := by
        intro he
        apply hids.1
        rw [he]
        exact List.mem_map_of_mem (List.mem_of_getElem? hd)
      rw [releaseFirst, if_neg hne, ih hids.2 hd, List.set_cons_succ]

/-- The search ends at the slot that was leased. -/
theorem releaseFirst_eq_set {ds : List DeviceResource} {i : ℕ} {d : DeviceResource}
    (hids : (ds.map fun d => d.deviceId.bytes).Nodup) (hd : ds[i]? = some d)
    (hpos : 0 < d.inflight) :
    releaseFirst d.deviceId.bytes ds = ds.set i { d with inflight := d.inflight - 1 } := by
  rw [releaseFirst_slot hids hd, if_pos hpos]

theorem acquired_slot {call : StepCall} {registry : Registry} {acquired : Acquired}
    (h : call.acquire registry = some acquired) :
    acquired.registry.devices[acquired.slot]? = some acquired.device := by
  obtain ⟨hint, d, _, hd⟩ := StepCall.acquire_grants h
  have hlt := (List.getElem?_eq_some_iff.mp hd.slot).1
  rw [hd.devices, List.getElem?_set_self hlt]

end Release

section Solo

variable {σ : Type} (skf : SkfAdapter σ) (call : StepCall) (registry : Registry) (world : σ)

/-- A call that runs alone takes the steps of `execute_single_step`. -/
theorem solo_run :
    Reachable skf (fun _ : Unit => call) registry
      ⟨(call.run skf registry world).registry,
        fun _ => .returned (call.run skf registry world).outcome⟩ := by
  have hphase (f : Unit → Phase) (p : Phase) : Function.update f () p = fun _ => p := by
    funext u
    simp
  cases ha : call.acquire registry with
  | none =>
    obtain ⟨errbuf, hr⟩ := StepCall.run_unacquired ha skf world
    have hstep : Step skf (fun _ : Unit => call) (start registry) ⟨registry, _⟩ :=
      .refuse () errbuf rfl ha
    rw [hphase] at hstep
    rw [hr]
    exact .single hstep
  | some acquired =>
    have hslot := acquired_slot ha
    have hacquire : Step skf (fun _ : Unit => call) (start registry) ⟨acquired.registry, _⟩ :=
      .acquire () acquired rfl ha
    rw [hphase] at hacquire
    have hrelease (outcome : Outcome) : Step skf (fun _ : Unit => call)
        ⟨acquired.registry, fun _ => .leaving acquired.slot outcome⟩
        ⟨registryRelease acquired.registry acquired.device.deviceId.bytes,
          fun _ => .returned outcome⟩ := by
      have hstep : Step skf (fun _ : Unit => call)
          ⟨acquired.registry, fun _ => .leaving acquired.slot outcome⟩
          ⟨registryRelease acquired.registry acquired.device.deviceId.bytes, _⟩ :=
        .release () acquired.slot outcome acquired.device rfl hslot
      rw [hphase] at hstep
      exact hstep
    cases ht : call.translate acquired.device with
    | error errbuf =>
      have hleave : Step skf (fun _ : Unit => call) ⟨acquired.registry, fun _ =>
          .holding acquired.slot⟩ ⟨acquired.registry, _⟩ :=
        .untranslated () acquired.slot acquired.device errbuf rfl hslot ht
      rw [hphase] at hleave
      rw [StepCall.run_untranslated ha ht]
      exact ((ReflTransGen.single hacquire).tail hleave).tail (hrelease _)
    | ok translated =>
      have hleave : Step skf (fun _ : Unit => call) ⟨acquired.registry, fun _ =>
          .holding acquired.slot⟩ ⟨acquired.registry, _⟩ :=
        .dispatched () acquired.slot acquired.device translated world rfl hslot ht
      rw [hphase] at hleave
      rw [StepCall.run_dispatched ha ht]
      exact ((ReflTransGen.single hacquire).tail hleave).tail (hrelease _)

end Solo

section Invariant

variable {κ σ : Type} {skf : SkfAdapter σ} {calls : κ → StepCall} {registry : Registry}
  {s : State κ}

theorem held_update [DecidableEq κ] (s : State κ) (r : Registry) (k : κ) (p : Phase) :
    (State.mk r (Function.update s.phase k p)).held = Function.update s.held k p.slot := by
  funext k'
  by_cases hk : k' = k
  · subst hk
    simp [State.held]
  · simp [State.held, hk]

variable [Fintype κ]

/-- The registry is the initial one with its holders counted on each slot. -/
structure Inv (registry : Registry) (s : State κ) : Prop where
  counted : s.registry.devices =
    registry.devices.mapIdx fun i d => { d with inflight := (holders s.held i : ℤ) }
  limited : ∀ i d, registry.devices[i]? = some d → 0 < holders s.held i →
    (holders s.held i : ℤ) ≤ d.maxInflight

theorem Inv.slot (h : Inv registry s) {i : ℕ} {d : DeviceResource}
    (hd : s.registry.devices[i]? = some d) :
    ∃ d₀, registry.devices[i]? = some d₀ ∧ d = { d₀ with inflight := (holders s.held i : ℤ) } := by
  rw [h.counted, List.getElem?_mapIdx, Option.map_eq_some_iff] at hd
  obtain ⟨d₀, h₀, he⟩ := hd
  exact ⟨d₀, h₀, he.symm⟩

theorem Inv.ids (h : Inv registry s) :
    (s.registry.devices.map fun d => d.deviceId.bytes) =
      registry.devices.map fun d => d.deviceId.bytes := by
  rw [h.counted]
  apply List.ext_getElem?
  intro i
  simp only [List.getElem?_map, List.getElem?_mapIdx, Option.map_map]
  rfl

theorem inv_start (hzero : ∀ d ∈ registry.devices, d.inflight = 0) :
    Inv registry (start registry : State κ) := by
  have hidle (i : ℕ) : holders (start registry : State κ).held i = 0 :=
    holders_idle _ (fun _ => rfl) i
  constructor
  · apply List.ext_getElem?
    intro i
    rw [List.getElem?_mapIdx, hidle]
    cases hd : registry.devices[i]? with
    | none => exact hd
    | some d =>
      have hz := hzero d (List.mem_of_getElem? hd)
      have hself : { d with inflight := ((0 : ℕ) : ℤ) } = d := by
        cases d
        simp only at hz
        subst hz
        rfl
      rw [Option.map_some, hself]
      exact hd
  · intro i d _ hpos
    rw [hidle] at hpos
    omega

variable [DecidableEq κ]

/-- A step that leaves the registry alone and keeps the caller's slot. -/
theorem inv_stay (h : Inv registry s) {k : κ} {p : Phase} (hp : p.slot = s.held k) :
    Inv registry ⟨s.registry, Function.update s.phase k p⟩ := by
  have hheld : (State.mk s.registry (Function.update s.phase k p)).held = s.held := by
    rw [held_update, hp, Function.update_eq_self]
  constructor
  · rw [hheld]
    exact h.counted
  · rw [hheld]
    exact h.limited

theorem inv_acquire (h : Inv registry s) {k : κ} {acquired : Acquired}
    (hk : s.held k = none) (ha : (calls k).acquire s.registry = some acquired) :
    Inv registry ⟨acquired.registry, Function.update s.phase k (.holding acquired.slot)⟩ := by
  obtain ⟨hint, d, _, hd⟩ := StepCall.acquire_grants ha
  obtain ⟨d₀, h₀, rfl⟩ := h.slot hd.slot
  have hheld : (State.mk acquired.registry
      (Function.update s.phase k (.holding acquired.slot))).held =
        Function.update s.held k (some acquired.slot) := held_update s _ k _
  have hlt := (List.getElem?_eq_some_iff.mp hd.slot).1
  have hbelow := hd.below
  constructor
  · show acquired.registry.devices = _
    rw [hheld, hd.devices]
    apply List.ext_getElem?
    intro j
    rw [List.getElem?_mapIdx, holders_take hk]
    by_cases hj : j = acquired.slot
    · subst hj
      rw [List.getElem?_set_self hlt, hd.device, h₀, if_pos rfl]
      rfl
    · rw [List.getElem?_set_ne (Ne.symm hj), h.counted, List.getElem?_mapIdx, if_neg hj,
        Nat.add_zero]
  · intro i d hi
    rw [hheld, holders_take hk]
    by_cases hj : i = acquired.slot
    · subst hj
      rw [h₀, Option.some.injEq] at hi
      subst hi
      intro _
      rw [if_pos rfl]
      exact Int.add_one_le_iff.mpr hbelow
    · rw [if_neg hj, Nat.add_zero]
      exact h.limited i d hi

theorem inv_release (hids : (registry.devices.map fun d => d.deviceId.bytes).Nodup)
    (h : Inv registry s) {k : κ} {slot : ℕ} {device : DeviceResource} {outcome : Outcome}
    (hk : s.held k = some slot) (hd : s.registry.devices[slot]? = some device) :
    Inv registry ⟨registryRelease s.registry device.deviceId.bytes,
      Function.update s.phase k (.returned outcome)⟩ := by
  obtain ⟨d₀, h₀, rfl⟩ := h.slot hd
  have hheld : (State.mk (registryRelease s.registry d₀.deviceId.bytes)
      (Function.update s.phase k (.returned outcome))).held = Function.update s.held k none :=
    held_update s _ k _
  have hgive := holders_give hk
  have hcount : (0 : ℤ) < holders s.held slot := by
    exact_mod_cast holders_pos hk
  have hlt := (List.getElem?_eq_some_iff.mp hd).1
  constructor
  · show releaseFirst d₀.deviceId.bytes s.registry.devices = _
    rw [hheld, releaseFirst_eq_set (h.ids ▸ hids) hd hcount]
    apply List.ext_getElem?
    intro j
    rw [List.getElem?_mapIdx]
    by_cases hj : j = slot
    · subst hj
      have hj := hgive j
      rw [if_pos rfl] at hj
      rw [List.getElem?_set_self hlt, h₀, hj]
      simp
    · have hj' := hgive j
      rw [if_neg hj, Nat.add_zero] at hj'
      rw [List.getElem?_set_ne (Ne.symm hj), h.counted, List.getElem?_mapIdx, hj']
  · intro i d hi hpos
    rw [hheld] at hpos ⊢
    have hle := h.limited i d hi
    have hi' := hgive i
    omega

/-- Every step of every caller, whatever its outcome, keeps the count. -/
theorem inv_step (hids : (registry.devices.map fun d => d.deviceId.bytes).Nodup)
    (s t : State κ) (h : Inv registry s) (hstep : Step skf calls s t) : Inv registry t := by
  cases hstep with
  | refuse k errbuf hk _ =>
    apply inv_stay h
    simp [State.held, hk, Phase.slot]
  | acquire k acquired hk ha =>
    apply inv_acquire h _ ha
    simp [State.held, hk, Phase.slot]
  | untranslated k slot device errbuf hk _ _ =>
    apply inv_stay h
    simp [State.held, hk, Phase.slot]
  | dispatched k slot device translated world hk _ _ =>
    apply inv_stay h
    simp [State.held, hk, Phase.slot]
  | release k slot outcome device hk hd =>
    apply inv_release hids h _ hd
    simp [State.held, hk, Phase.slot]

theorem reachable_inv (hids : (registry.devices.map fun d => d.deviceId.bytes).Nodup)
    (hzero : ∀ d ∈ registry.devices, d.inflight = 0) (hreach : Reachable skf calls registry s) :
    Inv registry s :=
  run_invariant (inv_step hids) (inv_start hzero) hreach

/-- What the counters say in a state of the system. -/
structure InflightExact (registry : Registry) (s : State κ) : Prop where
  counted : ∀ i d, s.registry.devices[i]? = some d → d.inflight = (holders s.held i : ℤ)
  nonneg : ∀ d ∈ s.registry.devices, 0 ≤ d.inflight
  limited : ∀ d ∈ s.registry.devices, 0 < d.inflight → d.inflight ≤ d.maxInflight
  settled : (∀ k, ∃ outcome, s.phase k = .returned outcome) →
    ∀ d ∈ s.registry.devices, d.inflight = 0
  frame : (s.registry.devices.map fun d => { d with inflight := 0 }) = registry.devices

theorem inflight_exact (skf : SkfAdapter σ) (calls : κ → StepCall) (registry : Registry)
    (hids : (registry.devices.map fun d => d.deviceId.bytes).Nodup)
    (hzero : ∀ d ∈ registry.devices, d.inflight = 0) (s : State κ)
    (hreach : Reachable skf calls registry s) : InflightExact registry s := by
  have h := reachable_inv hids hzero hreach
  constructor
  · intro i d hd
    obtain ⟨d₀, _, rfl⟩ := h.slot hd
    rfl
  · intro d hd
    obtain ⟨i, hi⟩ := List.mem_iff_getElem?.mp hd
    obtain ⟨d₀, _, rfl⟩ := h.slot hi
    exact Int.natCast_nonneg _
  · intro d hd hpos
    obtain ⟨i, hi⟩ := List.mem_iff_getElem?.mp hd
    obtain ⟨d₀, h₀, rfl⟩ := h.slot hi
    exact h.limited i d₀ h₀ (Int.natCast_pos.mp hpos)
  · intro hall d hd
    obtain ⟨i, hi⟩ := List.mem_iff_getElem?.mp hd
    obtain ⟨d₀, _, rfl⟩ := h.slot hi
    have hidle : ∀ k, s.held k = none := by
      intro k
      obtain ⟨outcome, hk⟩ := hall k
      simp [State.held, hk, Phase.slot]
    simp [holders_idle s.held hidle i]
  · rw [h.counted]
    apply List.ext_getElem?
    intro i
    rw [List.getElem?_map, List.getElem?_mapIdx, Option.map_map]
    cases hd : registry.devices[i]? with
    | none => rfl
    | some d =>
      have hz := hzero d (List.mem_of_getElem? hd)
      cases d
      simp only at hz
      subst hz
      rfl

end Invariant

def signCall : StepCall :=
  stepCall (signTwice (lit "hello")) classicSign (lit "hello") Response.zero

/-- One of two callers has acquired the classic device. -/
theorem one_of_two_callers_counted :
    ∃ s : State (Fin 2), s.held 0 = some 0 ∧ s.held 1 = none ∧ InflightExact sampleRegistry s := by
  have hslot : (signCall.acquire sampleRegistry).map Acquired.slot = some 0 := by decide
  obtain ⟨acquired, ha, hs⟩ := Option.map_eq_some_iff.mp hslot
  have hstep : Step absentToken (fun _ : Fin 2 => signCall) (start sampleRegistry) _ :=
    .acquire 0 acquired rfl ha
  refine ⟨_, ?_, ?_, inflight_exact absentToken (fun _ => signCall) sampleRegistry (by decide)
    (by decide) _ (.single hstep)⟩
  · rw [← hs]
    rfl
  · rfl

end Ucisdk.Inflight
