import Mathlib.Data.List.Find
import Mathlib.Data.List.Pairwise
import Ucisdk.Gateway
import Ucisdk.Servable

/-!
# Requests beside each other

Where every device has a place for each worker, load refuses nobody a device.
A request that names its device, or whose candidates no counter has to decide
between, takes the slot that it would take alone, and is answered as the
scheduler answers it alone.
-/

set_option autoImplicit false

namespace Ucisdk.Isolation

open Ucisdk.CString Ucisdk.Common Ucisdk.Protocol Ucisdk.Queue Ucisdk.Resource Ucisdk.Translator
open Ucisdk.Driver Ucisdk.Scheduler Ucisdk.StepCalls Ucisdk.SequenceRun Ucisdk.Ranking
open Ucisdk.Servable
open Ucisdk.Server hiding State Step Reachable
open Ucisdk.Connection Ucisdk.Tasks Ucisdk.Gateway
open Flow Flow.Leases Relation

section Choice

theorem argmin_congr {α β γ : Type} [Preorder β] [DecidableLT β] [Preorder γ] [DecidableLT γ]
    {f : α → β} {g : α → γ} {l : List α} (h : ∀ a ∈ l, ∀ b ∈ l, (f a < f b ↔ g a < g b)) :
    l.argmin f = l.argmin g := by
  have hfold (rest : List α) (start : Option α) (hrest : rest ⊆ l) (hstart : ∀ b ∈ start, b ∈ l) :
      rest.foldl (List.argAux fun a b => f a < f b) start =
        rest.foldl (List.argAux fun a b => g a < g b) start := by
    induction rest generalizing start with
    | nil => rfl
    | cons a rest ih =>
      rw [List.cons_subset] at hrest
      have hstep : List.argAux (fun a b => f a < f b) start a =
          List.argAux (fun a b => g a < g b) start a := by
        cases start with
        | none => rfl
        | some b => simp only [List.argAux, h a hrest.1 b (hstart b rfl)]
      rw [List.foldl_cons, List.foldl_cons, hstep]
      apply ih _ hrest.2
      intro b hb
      cases start with
      | none =>
        rw [List.argAux, Option.mem_some_iff] at hb
        exact hb ▸ hrest.1
      | some c =>
        simp only [List.argAux] at hb
        split_ifs at hb
        · exact Option.mem_some_iff.mp hb ▸ hrest.1
        · exact hstart b hb
  exact hfold l none (List.Subset.refl l) (by simp)

/-- Every device takes one more call. -/
def Roomy (devices : List DeviceResource) : Prop := ∀ d ∈ devices, d.inflight < d.maxInflight

/-- No counter decides between two devices. -/
def Untied (preference : Preference) (devices : List DeviceResource) : Prop :=
  devices.Pairwise fun d e => score preference d ≠ score preference e ∨ d.priority ≠ e.priority

instance (preference : Preference) (devices : List DeviceResource) :
    Decidable (Untied preference devices) := inferInstanceAs (Decidable (List.Pairwise _ _))

theorem untied_rank {preference : Preference} {devices : List DeviceResource}
    (h : Untied preference devices) : ∀ d ∈ devices, ∀ e ∈ devices,
      (rank preference (idle d) < rank preference (idle e) ↔
        rank preference d < rank preference e) := by
  intro d hd e he
  by_cases hsame : d = e
  · simp [hsame]
  · have hsymm : Std.Symm fun d e : DeviceResource =>
        score preference d ≠ score preference e ∨ d.priority ≠ e.priority :=
      ⟨fun d e h => h.imp Ne.symm Ne.symm⟩
    have hscore (d : DeviceResource) : score preference (idle d) = score preference d := by
      cases preference <;> rfl
    have hapart := List.Pairwise.forall h hd he hsame
    rw [rank_lt_iff, rank_lt_iff, hscore, hscore]
    have hpriority (d : DeviceResource) : (idle d).priority = d.priority := rfl
    rw [hpriority, hpriority]
    omega

section Call

variable {call : StepCall} {devices now : List DeviceResource}

/-- Whether the call takes the same device whatever the counters. -/
def Steady (call : StepCall) (devices : List DeviceResource) : Prop :=
  ¬Free call ∨ Untied call.req.preference devices

theorem candidate_idle (hroomy : Roomy devices) (hidle : Roomy (devices.map idle))
    (type : DeviceType) (domain : ApiDomain) (action : ApiAction) (algorithm : Bytes)
    (keySource : UInt32) : ∀ d ∈ devices,
      candidate type domain action algorithm keySource (idle d) =
        candidate type domain action algorithm keySource d := by
  intro d hd
  have hidled := hidle (idle d) (List.mem_map_of_mem hd)
  rw [candidate, candidate, decide_eq_true (hroomy d hd), decide_eq_true hidled]
  rfl

theorem hinted_idle (hroomy : Roomy devices) (hidle : Roomy (devices.map idle)) (hint : Bytes)
    (domain : ApiDomain) (action : ApiAction) (algorithm : Bytes) (keySource : UInt32) :
    ∀ d ∈ devices, hinted hint domain action algorithm keySource (idle d) =
      hinted hint domain action algorithm keySource d := by
  intro d hd
  have hidled := hidle (idle d) (List.mem_map_of_mem hd)
  rw [hinted, hinted, decide_eq_true (hroomy d hd), decide_eq_true hidled]
  rfl

theorem filter_idle (hroomy : Roomy devices) (hidle : Roomy (devices.map idle)) (type : DeviceType)
    (domain : ApiDomain) (action : ApiAction) (algorithm : Bytes) (keySource : UInt32) :
    (devices.map idle).filter (candidate type domain action algorithm keySource) =
      (devices.filter (candidate type domain action algorithm keySource)).map idle := by
  rw [List.filter_map]
  congr 1
  apply List.filter_congr
  exact candidate_idle hroomy hidle type domain action algorithm keySource

theorem find_idle (hroomy : Roomy devices) (hidle : Roomy (devices.map idle)) (hint : Bytes)
    (domain : ApiDomain) (action : ApiAction) (algorithm : Bytes) (keySource : UInt32) :
    (devices.map idle).find? (hinted hint domain action algorithm keySource) =
      (devices.find? (hinted hint domain action algorithm keySource)).map idle := by
  have hfind : devices.find? (hinted hint domain action algorithm keySource ∘ idle) =
      devices.find? (hinted hint domain action algorithm keySource) :=
    List.find?_congr (hinted_idle hroomy hidle hint domain action algorithm keySource)
  rw [List.find?_map, hfind]

/-- Whether the call finds a device does not depend on the counters. -/
theorem chosen_some (call : StepCall) (hroomy : Roomy devices) (hidle : Roomy (devices.map idle)) :
    (chosen call (devices.map idle)).isSome = (chosen call devices).isSome := by
  rw [chosen, chosen]
  cases resolveDeviceHintFromKeyRef call.req call.keyRef with
  | error errbuf => rfl
  | ok hint =>
    simp only
    split
    · rw [find_idle hroomy hidle, Option.isSome_map]
    · rw [Bool.eq_iff_iff, bestRanked, bestRanked, List.findSome?_isSome_iff,
        List.findSome?_isSome_iff]
      refine exists_congr fun type => and_congr_right fun _ => ?_
      rw [filter_idle hroomy hidle, Option.isSome_iff_ne_none, Option.isSome_iff_ne_none, ne_eq,
        ne_eq, List.argmin_eq_none, List.argmin_eq_none, List.map_eq_nil_iff]

theorem token_nonempty {keyRef name : Bytes} {out : CStr maxFieldLen}
    (h : keyRefGetToken keyRef name maxFieldLen = some out) : out.bytes ≠ [] := by
  rw [keyRefGetToken] at h
  split at h
  · cases h
  · split at h
    · cases h
    · dsimp only at h
      split at h
      · cases h
      · rename_i hne
        rw [Option.some.injEq] at h
        exact h ▸ hne

/-- A hint or the key binds the call to a device. -/
theorem bound_hint (hbound : ¬Free call) {hint : CStr maxFieldLen}
    (h : resolveDeviceHintFromKeyRef call.req call.keyRef = .ok hint) : hint.bytes ≠ [] := by
  have hself : (store maxFieldLen call.req.deviceHint.bytes).bytes = call.req.deviceHint.bytes :=
    store_self _
  simp only [resolveDeviceHintFromKeyRef] at h
  split at h
  · rename_i hexternal
    rw [Except.ok.injEq] at h
    rw [← h, hself]
    exact fun hempty => hbound ⟨hempty, hexternal⟩
  · split at h
    · rename_i keyDeviceId hget
      split at h
      · cases h
      · rw [Except.ok.injEq] at h
        rw [← h, store_self]
        exact token_nonempty hget
    · split at h
      · rename_i hhint
        rw [Except.ok.injEq] at h
        exact h ▸ hhint
      · cases h

/-- The device that a steady call takes does not depend on the counters. -/
theorem chosen_idle (hsteady : Steady call devices) (hroomy : Roomy devices)
    (hidle : Roomy (devices.map idle)) :
    chosen call (devices.map idle) = (chosen call devices).map idle := by
  rw [chosen, chosen]
  cases hresolve : resolveDeviceHintFromKeyRef call.req call.keyRef with
  | error errbuf => rfl
  | ok hint =>
    simp only
    split
    · exact find_idle hroomy hidle _ _ _ _ _
    · rename_i hempty
      have huntied : Untied call.req.preference devices :=
        hsteady.resolve_left fun hbound => hempty (bound_hint hbound hresolve)
      rw [bestRanked, bestRanked, List.map_findSome?]
      congr 1
      funext type
      rw [filter_idle hroomy hidle, ← argmin_map, Function.comp_apply]
      congr 1
      apply argmin_congr
      intro d hd e he
      exact untied_rank huntied d (List.mem_of_mem_filter hd) e (List.mem_of_mem_filter he)

theorem untied_idle {preference : Preference} (h : now.map idle = devices.map idle) :
    Untied preference now ↔ Untied preference devices := by
  have hmap (ds : List DeviceResource) :
      Untied preference (ds.map idle) ↔ Untied preference ds := by
    have hscore (d : DeviceResource) : score preference (idle d) = score preference d := by
      cases preference <;> rfl
    rw [Untied, Untied, List.pairwise_map]
    simp only [hscore]
    rfl
  rw [← hmap, h, hmap]

end Call

section Acquire

variable {call : StepCall} {registry now : Registry}

/-- A registry as it was loaded, with no call on any device. -/
structure Fresh (registry : Registry) : Prop where
  ids : (registry.devices.map fun d => d.deviceId.bytes).Nodup
  zero : ∀ d ∈ registry.devices, d.inflight = 0
  room : ∀ d ∈ registry.devices, 0 < d.maxInflight

theorem Fresh.roomy (h : Fresh registry) : Roomy registry.devices := by
  intro d hd
  rw [h.zero d hd]
  exact h.room d hd

/-- With room everywhere a call is refused a device only if it is refused one
when nothing runs. -/
theorem acquire_isSome (hfresh : Fresh registry)
    (hsame : now.devices.map idle = registry.devices.map idle) (hroomy : Roomy now.devices) :
    (call.acquire now).isSome = (call.acquire registry).isSome := by
  have hself := idle_self hfresh.zero
  have hidle : Roomy (now.devices.map idle) := by
    rw [hsame, hself]
    exact hfresh.roomy
  have hnow := congrArg Option.isSome (acquire_chosen call now)
  have hthen := congrArg Option.isSome (acquire_chosen call registry)
  rw [Option.isSome_map, Option.isSome_map] at hnow hthen
  rw [hnow, hthen, ← chosen_some call hroomy hidle, hsame, hself]

/-- The id at the slot that a call acquires. -/
theorem acquired_id (hsame : now.devices.map idle = registry.devices.map idle)
    {acquired : Acquired} (h : call.acquire now = some acquired) :
    (registry.devices.map fun d => d.deviceId.bytes)[acquired.slot]? =
      some acquired.device.deviceId.bytes := by
  have hids := congrArg (List.map fun d => d.deviceId.bytes) ((acquired_idle h).trans hsame)
  rw [List.map_map, List.map_map] at hids
  have hids' : (acquired.registry.devices.map fun d => d.deviceId.bytes) =
      registry.devices.map fun d => d.deviceId.bytes := hids
  rw [← hids', List.getElem?_map, slot_acquired h, Option.map_some]

/-- With room everywhere a steady call takes the slot that it takes when
nothing runs. -/
theorem acquire_slot (hfresh : Fresh registry) (hsteady : Steady call registry.devices)
    (hsame : now.devices.map idle = registry.devices.map idle) (hroomy : Roomy now.devices) :
    (call.acquire now).map Acquired.slot = (call.acquire registry).map Acquired.slot := by
  have hself := idle_self hfresh.zero
  have hidle : Roomy (now.devices.map idle) := by
    rw [hsame, hself]
    exact hfresh.roomy
  have hsteady' : Steady call now.devices := hsteady.imp_right (untied_idle hsame).mpr
  have hchosen := chosen_idle hsteady' hroomy hidle
  rw [hsame, hself] at hchosen
  have hnow := acquire_chosen call now
  have hthen := acquire_chosen call registry
  rw [hchosen] at hthen
  cases hc : chosen call now.devices with
  | none =>
    rw [hc, Option.map_none, Option.map_eq_none_iff] at hnow
    rw [hc, Option.map_none, Option.map_none, Option.map_eq_none_iff] at hthen
    rw [hnow, hthen]
  | some d =>
    rw [hc, Option.map_some, Option.map_eq_some_iff] at hnow
    rw [hc, Option.map_some, Option.map_some, Option.map_eq_some_iff] at hthen
    obtain ⟨acquired, hacquired, hdevice⟩ := hnow
    obtain ⟨acquired', hacquired', hdevice'⟩ := hthen
    rw [hacquired, hacquired', Option.map_some, Option.map_some, Option.some.injEq]
    have hid := acquired_id hsame hacquired
    have hid' := acquired_id rfl hacquired'
    rw [hdevice] at hid
    rw [hdevice'] at hid'
    exact (List.getElem?_inj (List.getElem?_eq_some_iff.mp hid).1 hfresh.ids).mp
      (hid.trans hid'.symm)

end Acquire

end Choice

section Solo

variable {σ : Type} {skf : SkfAdapter σ} {settings : Option GatewaySettings}
  {registry now : Registry} {req : Request} {task : Task}

/-- The request's steps take the same devices whatever the counters: it names
its device, or no counter decides between the devices that there are. -/
def SteadyRequest (registry : Registry) (req : Request) : Prop :=
  ¬(req.deviceHint.bytes = [] ∧ keyRefIsInternalIndex req.keyRef.bytes = false) ∨
    Untied req.preference registry.devices

/-- No device is a token. -/
def Mocked (registry : Registry) : Prop :=
  ∀ d ∈ registry.devices, d.backendProfile.bytes ≠ lit "gm3000-skf"

instance (registry : Registry) : Decidable (Mocked registry) :=
  inferInstanceAs (Decidable (∀ d ∈ registry.devices, _))

/-- The call that a task is in is one of the request. -/
def CallOf (req : Request) : Task → Prop
  | .stepping call _ => call.req = req ∧ call.keyRef = req.keyRef.bytes
  | .holding call _ _ => call.req = req ∧ call.keyRef = req.keyRef.bytes
  | .leaving call _ _ _ => call.req = req ∧ call.keyRef = req.keyRef.bytes
  | .done _ _ => True

theorem taskOf_callOf (settings : Option GatewaySettings) (req : Request) :
    CallOf req (taskOf settings req) := by
  rw [taskOf]
  split
  · trivial
  · trivial
  · split
    · split
      · trivial
      · trivial
      · exact ⟨rfl, rfl⟩
    · exact ⟨rfl, rfl⟩

theorem next_callOf (req : Request) (after : After) (outcome : Outcome) :
    CallOf req (next req after outcome) := by
  cases after with
  | plain => cases outcome <;> trivial
  | sequence steps resp =>
    cases outcome with
    | error errbuf => trivial
    | ok stepResp =>
      cases steps with
      | nil => trivial
      | cons step steps => exact ⟨rfl, rfl⟩

theorem advance_callOf (h : CallOf req task) (skf : SkfAdapter σ) (now : Registry) (world : σ) :
    CallOf req (advance skf now world task).task := by
  cases task with
  | stepping call after =>
    rw [advance]
    cases ha : call.acquire now with
    | none => exact h.1 ▸ next_callOf call.req after _
    | some acquired => exact h
  | holding call after slot =>
    rw [advance]
    cases hd : now.devices[slot]? with
    | none => exact h
    | some device =>
      cases ht : call.translate device with
      | error errbuf =>
        simp only [ht]
        exact h
      | ok translated =>
        simp only [ht]
        exact h
  | leaving call after slot outcome =>
    rw [advance]
    cases hd : now.devices[slot]? with
    | none => exact h
    | some device => exact h.1 ▸ next_callOf call.req after outcome
  | done rc resp => trivial

/-- A step of the task with the registry to itself. -/
def solo (skf : SkfAdapter σ) (registry : Registry) (world : σ) (task : Task) : Task :=
  (advance skf registry world task).task

/-- A mock answers whatever the counter of its device and the token's world. -/
theorem dispatch_mocked {d : DeviceResource} (hmock : d.backendProfile.bytes ≠ lit "gm3000-skf")
    (call : StepCall) (translated : TranslatedCall) (world world' : σ) :
    (call.dispatch skf world d translated).outcome =
      (call.dispatch skf world' (idle d) translated).outcome := by
  rw [StepCall.dispatch, StepCall.dispatch, driverOpsFor, driverOpsFor, if_neg hmock,
    if_neg (show (idle d).backendProfile.bytes ≠ lit "gm3000-skf" from hmock)]
  have htype : (idle d).type = d.type := rfl
  rw [htype]
  split
  · cases call.domain <;> rfl
  · cases call.domain <;> rfl

theorem unacquired_outcome {call : StepCall} (hnow : call.acquire now = none)
    (hthen : call.acquire registry = none) (world world' : σ) :
    (call.run skf now world).outcome = (call.run skf registry world').outcome := by
  rw [StepCall.acquire] at hnow hthen
  rw [StepCall.run, StepCall.run, executeSingleStep, executeSingleStep]
  cases hresolve : resolveDeviceHintFromKeyRef call.req call.keyRef with
  | error errbuf => rfl
  | ok hint =>
    rw [hresolve] at hnow hthen
    simp only [StepCall.run_eq_bound hresolve, hnow, hthen]

/-- A task goes on among others as it does alone. -/
theorem advance_same (hfresh : Fresh registry) (hmock : Mocked registry)
    (hsteady : SteadyRequest registry req) (hcall : CallOf req task)
    (hsame : now.devices.map idle = registry.devices.map idle)
    (hroomy : task.slot = none → Roomy now.devices) (world world' : σ) :
    (advance skf now world task).task = solo skf registry world' task := by
  have hself := idle_self hfresh.zero
  have hdevice (slot : ℕ) : registry.devices[slot]? = now.devices[slot]?.map idle := by
    rw [← List.getElem?_map, hsame, hself]
  rw [solo]
  cases task with
  | stepping call after =>
    have hsteady' : Steady call registry.devices := by
      rw [Steady, Free, hcall.1, hcall.2]
      exact hsteady
    have hslot := acquire_slot hfresh hsteady' hsame (hroomy rfl)
    rw [advance, advance]
    cases hnow : call.acquire now with
    | none =>
      rw [hnow, Option.map_none, eq_comm, Option.map_eq_none_iff] at hslot
      rw [hslot]
      simp only [unacquired_outcome hnow hslot world world']
    | some acquired =>
      rw [hnow, Option.map_some, eq_comm, Option.map_eq_some_iff] at hslot
      obtain ⟨acquired', hthen, hslot⟩ := hslot
      rw [hthen]
      simp only [hslot]
  | holding call after slot =>
    rw [advance, advance, hdevice slot]
    cases hd : now.devices[slot]? with
    | none => rfl
    | some d =>
      have hprofile : d.backendProfile.bytes ≠ lit "gm3000-skf" := by
        have hmem : idle d ∈ registry.devices := by
          apply List.mem_of_getElem?
          rw [hdevice slot, hd, Option.map_some]
        exact hmock (idle d) hmem
      have htranslate : call.translate (idle d) = call.translate d := rfl
      simp only [Option.map_some, htranslate]
      cases ht : call.translate d with
      | error errbuf => rfl
      | ok translated => simp only [dispatch_mocked hprofile call translated world world']
  | leaving call after slot outcome =>
    rw [advance, advance, hdevice slot]
    cases hd : now.devices[slot]? with
    | none => rfl
    | some d => rfl
  | done rc resp => rfl

/-- Where the call for the request comes to with the registry to itself. -/
def Orbit (skf : SkfAdapter σ) (settings : Option GatewaySettings) (registry : Registry)
    (world : σ) (req : Request) (task : Task) : Prop :=
  ∃ n, (solo skf registry world)^[n] (taskOf settings req) = task

theorem orbit_callOf {world : σ} (h : Orbit skf settings registry world req task) :
    CallOf req task := by
  obtain ⟨n, rfl⟩ := h
  induction n with
  | zero => exact taskOf_callOf settings req
  | succ n ih =>
    rw [Function.iterate_succ_apply']
    exact advance_callOf ih skf registry world

theorem orbit_solo {world : σ} (h : Orbit skf settings registry world req task) :
    Orbit skf settings registry world req (solo skf registry world task) := by
  obtain ⟨n, rfl⟩ := h
  exact ⟨n + 1, Function.iterate_succ_apply' ..⟩

/-- There is one end. -/
theorem orbit_done {world : σ} {rc rc' : ℤ} {resp resp' : Response}
    (h : Orbit skf settings registry world req (.done rc resp))
    (h' : Orbit skf settings registry world req (.done rc' resp')) : resp = resp' := by
  have hfixed (rc : ℤ) (resp : Response) (n : ℕ) :
      (solo skf registry world)^[n] (.done rc resp) = .done rc resp :=
    Function.iterate_fixed rfl n
  obtain ⟨n, hn⟩ := h
  obtain ⟨m, hm⟩ := h'
  have hsame : Task.done rc resp = Task.done rc' resp' := by
    rw [← hfixed rc resp m, ← hn, ← Function.iterate_add_apply, Nat.add_comm,
      Function.iterate_add_apply, hm, hfixed rc' resp' n]
  exact (Task.done.inj hsame).2

end Solo

section Refusal

variable {call : StepCall} {now : Registry}

/-- What a call asks of a device, its load apart. -/
structure Usable (call : StepCall) (hint : Bytes) (d : DeviceResource) : Prop where
  enabled : d.enabled = true
  supports : deviceSupports d call.domain call.action call.algorithm
    (keyRefSourceValue call.keyRef) = true
  hinted : hint ≠ [] → d.deviceId.bytes = hint
  ordered : hint = [] → ∃ type ∈ order call, OfType type d

/-- The load of a device has no part in it. -/
theorem usable_loaded {hint : Bytes} (d : DeviceResource) (n : ℤ) :
    Usable call hint { d with inflight := n } ↔ Usable call hint d := by
  constructor
  · intro h
    exact ⟨h.enabled, h.supports, h.hinted, h.ordered⟩
  · intro h
    exact ⟨h.enabled, h.supports, h.hinted, h.ordered⟩

theorem deviceIds_nodup {devices : List DeviceResource}
    (h : (devices.map fun d => d.deviceId.bytes).Nodup) :
    (devices.map fun d => d.deviceId).Nodup := by
  have hmap : (devices.map fun d => d.deviceId).map CStr.bytes =
      devices.map fun d => d.deviceId.bytes := List.map_map
  rw [← hmap] at h
  exact h.of_map CStr.bytes

/-- The slot that a call takes was usable and below its limit. -/
theorem acquired_usable {acquired : Acquired} (h : call.acquire now = some acquired) :
    ∃ hint d, resolveDeviceHintFromKeyRef call.req call.keyRef = .ok hint ∧
      now.devices[acquired.slot]? = some d ∧ Usable call hint.bytes d ∧
        d.inflight < d.maxInflight := by
  obtain ⟨hint, d, hresolve, hd⟩ := StepCall.acquire_grants h
  refine ⟨hint, d, hresolve, hd.slot, ⟨hd.enabled, hd.supports, hd.hinted, fun hempty => ?_⟩,
    hd.below⟩
  obtain ⟨type, hmem, htype⟩ := hd.ordered hempty
  exact ⟨type, hmem, htype⟩

/-- A call is refused a device exactly when all it could use are at their limits. -/
theorem acquire_none_iff (hids : (now.devices.map fun d => d.deviceId.bytes).Nodup) :
    call.acquire now = none ↔
      ∀ hint, resolveDeviceHintFromKeyRef call.req call.keyRef = .ok hint →
        ∀ d ∈ now.devices, Usable call hint.bytes d → d.maxInflight ≤ d.inflight := by
  constructor
  · intro hnone hint hresolve d hd husable
    by_contra hbelow
    rw [not_le] at hbelow
    have hserves : Serves call.domain call.action call.algorithm (keyRefSourceValue call.keyRef) d :=
      ⟨husable.enabled, hbelow, husable.supports⟩
    have hids' := deviceIds_nodup hids
    rw [StepCall.acquire, hresolve] at hnone
    simp only at hnone
    by_cases hempty : hint.bytes = []
    · rw [hempty] at hnone
      obtain ⟨type, hmem, htype⟩ := husable.ordered hempty
      exact (takes_none_iff hids' _).mp hnone d hd hserves type hmem htype
    · have htakes := acquire_takes call.domain call.action call.algorithm
        (keyRefSourceValue call.keyRef) call.req.preference hids' hint.bytes
        (buildOrder call.req.preference call.explicitType)
      rw [hnone] at htakes
      apply htakes d
      rw [Takes, if_neg hempty]
      exact ⟨hd, husable.hinted hempty, hserves⟩
  · intro hfull
    cases hacquire : call.acquire now with
    | none => rfl
    | some acquired =>
      obtain ⟨hint, d, hresolve, hslot, husable, hbelow⟩ := acquired_usable hacquire
      have hlimit := hfull hint hresolve d (List.mem_of_getElem? hslot) husable
      omega

end Refusal

section Beside

variable {κ σ : Type} [Fintype κ] [DecidableEq κ] {skf : SkfAdapter σ}
  {settings : Option GatewaySettings} {sent : ℕ → List ReadResult} {early : Prop}
  {registry : Registry} {s t : State κ} {k : κ}

/-- Every device takes a call of each worker. -/
def Ample (κ : Type) [Fintype κ] (registry : Registry) : Prop :=
  ∀ d ∈ registry.devices, (Fintype.card κ : ℤ) ≤ d.maxInflight

instance (κ : Type) [Fintype κ] (registry : Registry) : Decidable (Ample κ registry) :=
  inferInstanceAs (Decidable (∀ d ∈ registry.devices, _))

/-- A worker that holds no slot finds room on every device. -/
theorem reachable_roomy (hids : (registry.devices.map fun d => d.deviceId.bytes).Nodup)
    (hzero : ∀ d ∈ registry.devices, d.inflight = 0) (hample : Ample κ registry)
    (h : Reachable skf settings sent early registry s) (hk : slotOf (s.task k) = none) :
    Roomy s.registry.devices := by
  have hinv := reachable_counted hids hzero h
  have hheld : (leased s.registry s.task).held = fun k => slotOf (s.task k) := leased_held _ _
  intro d hd
  obtain ⟨i, hi⟩ := List.mem_iff_getElem?.mp hd
  obtain ⟨d₀, h₀, rfl⟩ := hinv.slot hi
  rw [hheld]
  have hfew : holders (fun k => slotOf (s.task k)) i < Fintype.card κ := by
    apply Finset.card_lt_univ_of_notMem (x := k)
    simp [hk]
  have hmany := hample d₀ (List.mem_of_getElem? h₀)
  show (holders (fun k => slotOf (s.task k)) i : ℤ) < d₀.maxInflight
  omega

omit [DecidableEq κ] in
theorem ample_fresh (hids : (registry.devices.map fun d => d.deviceId.bytes).Nodup)
    (hzero : ∀ d ∈ registry.devices, d.inflight = 0) (hample : Ample κ registry) (k : κ) :
    Fresh registry := by
  refine ⟨hids, hzero, fun d hd => ?_⟩
  have hworkers : 0 < Fintype.card κ := Fintype.card_pos_iff.mpr ⟨k⟩
  have hmany := hample d hd
  omega

/-- What a call finds on a registry that others use beside it. -/
structure Unloaded (registry now : Registry) (call : StepCall) : Prop where
  served : (call.acquire now).isSome = (call.acquire registry).isSome
  slot : Steady call registry.devices →
    (call.acquire now).map Acquired.slot = (call.acquire registry).map Acquired.slot

/-- With a place for each worker on every device, no call is refused a device
because of the others, and a steady one takes the same. -/
theorem reachable_unloaded (hids : (registry.devices.map fun d => d.deviceId.bytes).Nodup)
    (hzero : ∀ d ∈ registry.devices, d.inflight = 0) (hample : Ample κ registry)
    (h : Reachable skf settings sent early registry s) {call : StepCall} {after : After}
    (hk : s.task k = some (.stepping call after)) : Unloaded registry s.registry call := by
  have hsame := (reachable_working h).same
  have hslot : slotOf (s.task k) = none := by
    rw [hk]
    rfl
  have hroomy := reachable_roomy hids hzero hample h hslot
  have hfresh := ample_fresh hids hzero hample k
  exact ⟨acquire_isSome hfresh hsame hroomy,
    fun hsteady => acquire_slot hfresh hsteady hsame hroomy⟩

theorem sample_stepping : ∃ call after,
    taskOf none (signTwice (lit "hello")) = .stepping call after ∧
      (advance absentToken sampleRegistry () (.stepping call after)).task.slot = some 0 := by
  have hslot : (advance absentToken sampleRegistry ()
      (taskOf none (signTwice (lit "hello")))).task.slot = some 0 := by decide
  have hnone := taskOf_slot none (signTwice (lit "hello"))
  cases htask : taskOf none (signTwice (lit "hello")) with
  | stepping call after => exact ⟨call, after, rfl, htask ▸ hslot⟩
  | holding call after slot => simp [htask, Task.slot] at hnone
  | leaving call after slot outcome => simp [htask, Task.slot] at hnone
  | done rc resp => simp [htask, advance, Task.slot] at hslot

/-- Of two workers one goes a step into its call, and the other begins one. -/
theorem two_run (registry : Registry)
    (hgoes : ¬Finished (taskOf none (signTwice (lit "hello")))) :
    ∃ s : State (Fin 2), Reachable absentToken none (fun _ => sampleReads) False registry s ∧
      s.registry = (advance absentToken registry () (taskOf none (signTwice (lit "hello")))).registry ∧
      s.task 0 = some (advance absentToken registry ()
        (taskOf none (signTwice (lit "hello")))).task ∧
      s.task 1 = some (taskOf none (signTwice (lit "hello"))) := by
  have htaken := ((((ReflTransGen.refl
    (r := Step absentToken none (fun _ => sampleReads) False)
    (a := begin (Fin 2) registry)).tail
    (.loop _ (.other (.accept rfl) (by simp [begin, start])) rfl)).tail
    (.loop _ (.parsed 0 _ rfl sample_received) rfl)).tail
    (.loop _ (.other (.push ⟨0, signTwice (lit "hello")⟩ _ rfl rfl) (by simp)) rfl)).tail
    (.pop 0 ⟨0, signTwice (lit "hello")⟩ _ rfl rfl)
  have hholding := htaken.tail (.advance 0 (taskOf none (signTwice (lit "hello"))) () rfl hgoes)
  have htaken' := (((hholding.tail
    (.loop _ (.other (.accept rfl) (by simp)) rfl)).tail
    (.loop _ (.parsed 1 _ rfl sample_received) rfl)).tail
    (.loop _ (.other (.push ⟨1, signTwice (lit "hello")⟩ _ rfl rfl) (by simp)) rfl)).tail
    (.pop 1 ⟨1, signTwice (lit "hello")⟩ _ rfl rfl)
  exact ⟨_, htaken', rfl, rfl, rfl⟩

/-- Of two workers one holds a slot, and the other is about to acquire one. -/
theorem sample_unloaded : ∃ s : State (Fin 2), slotOf (s.task 0) = some 0 ∧
    ∃ call after, s.task 1 = some (.stepping call after) ∧
      Unloaded sampleRegistry s.registry call := by
  obtain ⟨call, after, hstepping, hslot⟩ := sample_stepping
  have hgoes : ¬Finished (taskOf none (signTwice (lit "hello"))) := by
    rintro ⟨rc, resp, hdone⟩
    rw [hstepping] at hdone
    cases hdone
  obtain ⟨s, hrun, _, hfirst, hsecond⟩ := two_run sampleRegistry hgoes
  rw [hstepping] at hfirst hsecond
  refine ⟨s, ?_, call, after, hsecond,
    reachable_unloaded (by decide) (by decide) (by decide) hrun hsecond⟩
  rw [hfirst]
  exact hslot

/-- Every device that the call could use has as many workers in it as it takes. -/
def Saturated (registry : Registry) (s : State κ) (call : StepCall) (hint : Bytes) : Prop :=
  ∀ i d, registry.devices[i]? = some d → Usable call hint d →
    d.maxInflight ≤ holders (fun k => slotOf (s.task k)) i

/-- How a call fares that asks for a device while others run. -/
structure RefusedByLoad (registry : Registry) (s : State κ) (call : StepCall) : Prop where
  refused : call.acquire s.registry = none ↔
    ∀ hint, resolveDeviceHintFromKeyRef call.req call.keyRef = .ok hint →
      Saturated registry s call hint.bytes
  granted : ∀ acquired, call.acquire s.registry = some acquired →
    ∃ hint d, resolveDeviceHintFromKeyRef call.req call.keyRef = .ok hint ∧
      registry.devices[acquired.slot]? = some d ∧ Usable call hint.bytes d ∧
        holders (fun k => slotOf (s.task k)) acquired.slot < d.maxInflight

omit [DecidableEq κ] [Fintype κ] in
theorem same_ids (h : s.registry.devices.map idle = registry.devices.map idle) :
    (s.registry.devices.map fun d => d.deviceId.bytes) =
      registry.devices.map fun d => d.deviceId.bytes := by
  have hids := congrArg (List.map fun d : DeviceResource => d.deviceId.bytes) h
  rw [List.map_map, List.map_map] at hids
  exact hids

/-- The device that was loaded into a slot, with its present load. -/
theorem loaded_slot (hids : (registry.devices.map fun d => d.deviceId.bytes).Nodup)
    (hzero : ∀ d ∈ registry.devices, d.inflight = 0)
    (h : Reachable skf settings sent early registry s) {i : ℕ} {d : DeviceResource}
    (hd : registry.devices[i]? = some d) :
    s.registry.devices[i]? =
      some { d with inflight := (holders (fun k => slotOf (s.task k)) i : ℤ) } := by
  have hlength := congrArg List.length (reachable_working h).same
  rw [List.length_map, List.length_map] at hlength
  obtain ⟨hlt, _⟩ := List.getElem?_eq_some_iff.mp hd
  have hnow := List.getElem?_eq_getElem (hlength.symm ▸ hlt : i < s.registry.devices.length)
  obtain ⟨d₀, hd₀, hload⟩ := reachable_slot hids hzero h hnow
  obtain rfl := Option.some.inj (hd.symm.trans hd₀)
  rw [hnow, hload]

/-- In every state of the gateway a call is refused a device if and only if
each one it could use has all its places taken by workers at this moment. -/
theorem reachable_refused (hids : (registry.devices.map fun d => d.deviceId.bytes).Nodup)
    (hzero : ∀ d ∈ registry.devices, d.inflight = 0)
    (h : Reachable skf settings sent early registry s) (call : StepCall) :
    RefusedByLoad registry s call := by
  have hids' : (s.registry.devices.map fun d => d.deviceId.bytes).Nodup := by
    rw [same_ids (reachable_working h).same]
    exact hids
  constructor
  · rw [acquire_none_iff hids']
    constructor
    · intro hfull hint hresolve i d hd husable
      have hslot := loaded_slot hids hzero h hd
      exact hfull hint hresolve _ (List.mem_of_getElem? hslot) ((usable_loaded d _).mpr husable)
    · intro hsaturated hint hresolve d hd husable
      obtain ⟨i, hi⟩ := List.mem_iff_getElem?.mp hd
      obtain ⟨d₀, hd₀, rfl⟩ := reachable_slot hids hzero h hi
      exact hsaturated hint hresolve i d₀ hd₀ ((usable_loaded d₀ _).mp husable)
  · intro acquired hacquired
    obtain ⟨hint, d, hresolve, hslot, husable, hbelow⟩ := acquired_usable hacquired
    obtain ⟨d₀, hd₀, rfl⟩ := reachable_slot hids hzero h hslot
    exact ⟨hint, d₀, hresolve, hd₀, (usable_loaded d₀ _).mp husable, hbelow⟩

/-- The sample with one place on its first device. -/
def narrowRegistry : Registry := ⟨[{ classicOne with maxInflight := 1 }, pqcOne], by decide⟩

/-- Of two workers one holds the only place, and the other is refused it. -/
theorem sample_refused : ∃ s : State (Fin 2), slotOf (s.task 0) = some 0 ∧
    ∃ call after, s.task 1 = some (.stepping call after) ∧ call.acquire s.registry = none ∧
      RefusedByLoad narrowRegistry s call := by
  obtain ⟨call, after, hstepping, _⟩ := sample_stepping
  have hgoes : ¬Finished (taskOf none (signTwice (lit "hello"))) := by
    rintro ⟨rc, resp, hdone⟩
    rw [hstepping] at hdone
    cases hdone
  obtain ⟨s, hrun, hregistry, hfirst, hsecond⟩ := two_run narrowRegistry hgoes
  have hholds : (advance absentToken narrowRegistry ()
      (taskOf none (signTwice (lit "hello")))).task.slot = some 0 := by decide
  have hagain : (advance absentToken (advance absentToken narrowRegistry ()
      (taskOf none (signTwice (lit "hello")))).registry ()
        (taskOf none (signTwice (lit "hello")))).task.slot = none := by decide
  have hnone : call.acquire s.registry = none := by
    rw [← hregistry, hstepping, advance] at hagain
    cases hacquire : call.acquire s.registry with
    | none => rfl
    | some acquired => simp [hacquire, Task.slot] at hagain
  rw [hstepping] at hsecond
  refine ⟨s, ?_, call, after, hsecond, hnone,
    reachable_refused (by decide) (by decide) hrun call⟩
  rw [hfirst]
  exact hholds

/-- The calls for steady requests are where they would be alone. -/
structure Apart (skf : SkfAdapter σ) (settings : Option GatewaySettings) (registry : Registry)
    (sent : ℕ → List ReadResult) (world : σ) (s : State κ) : Prop where
  serving : ∀ k job task, s.server.worker k = .serving job → s.task k = some task →
    SteadyRequest registry job.request → Orbit skf settings registry world job.request task
  handed : ∀ call ∈ s.server.handed, ∀ k request, call.worker = some k →
    receive (sent call.fd) = .parsed request → SteadyRequest registry request →
      ∃ rc, Orbit skf settings registry world request (.done rc call.resp)

omit [Fintype κ] [DecidableEq κ] in
theorem apart_begin (world : σ) : Apart skf settings registry sent world (begin κ registry) := by
  constructor
  · intro k job task hphase
    simp [begin, start] at hphase
  · intro call hmem
    simp [begin, start] at hmem

omit [Fintype κ] in
/-- The loop hands over no answer of a worker. -/
theorem loop_handed {before after : Server.State κ} (hhears : Hears sent early before after)
    (hworker : after.worker = before.worker) :
    ∀ call ∈ after.handed, call ∈ before.handed ∨ call.worker = none := by
  have hlast {handed : List (Handed κ)} {last : Handed κ} (hnone : last.worker = none) :
      ∀ call ∈ handed ++ [last], call ∈ handed ∨ call.worker = none := by
    intro call hmem
    rcases List.mem_append.mp hmem with hmem | hmem
    · exact .inl hmem
    · exact .inr (List.mem_singleton.mp hmem ▸ hnone)
  cases hhears with
  | answered fd resp h hread => exact hlast rfl
  | parsed fd request h hread => exact fun call hmem => .inl hmem
  | other hstep hloop =>
    cases hstep with
    | unread fd h => exact hlast rfl
    | unparsed fd line errbuf h hline => exact hlast rfl
    | refused job h hpush => exact hlast rfl
    | serve k job resp h =>
      have hk := congrFun hworker k
      simp [h] at hk
    | _ => exact fun call hmem => .inl hmem

omit [Fintype κ] in
/-- One worker's call moves on, and the others are where they were. -/
theorem apart_serving {world : σ} (h : Apart skf settings registry sent world s)
    {server : Server.State κ} {registry' : Registry} {phase : WorkerPhase} {next : Option Task}
    (hworker : server.worker = Function.update s.server.worker k phase)
    (hnext : ∀ job task, phase = .serving job → next = some task →
      SteadyRequest registry job.request → Orbit skf settings registry world job.request task)
    (hhanded : ∀ call ∈ server.handed, ∀ k request, call.worker = some k →
      receive (sent call.fd) = .parsed request → SteadyRequest registry request →
        ∃ rc, Orbit skf settings registry world request (.done rc call.resp)) :
    Apart skf settings registry sent world ⟨server, registry', Function.update s.task k next⟩ := by
  refine ⟨?_, hhanded⟩
  intro k' job task hphase htask hsteady
  rw [hworker] at hphase
  by_cases hk : k' = k
  · simp only [hk, Function.update_self] at hphase htask
    exact hnext job task hphase htask hsteady
  · simp only [Function.update_of_ne hk] at hphase htask
    exact h.serving k' job task hphase htask hsteady

theorem apart_step (hids : (registry.devices.map fun d => d.deviceId.bytes).Nodup)
    (hzero : ∀ d ∈ registry.devices, d.inflight = 0) (hample : Ample κ registry)
    (hmock : Mocked registry) {world : σ} (hreached : Reachable skf settings sent early registry s)
    (h : Apart skf settings registry sent world s) (hstep : Step skf settings sent early s t) :
    Apart skf settings registry sent world t := by
  cases hstep with
  | loop server hhears hworker =>
    refine ⟨fun k job task hphase => h.serving k job task (congrFun hworker k ▸ hphase), ?_⟩
    intro call hmem k request hk
    rcases loop_handed hhears hworker call hmem with hold | hnone
    · exact h.handed call hold k request hk
    · rw [hnone] at hk
      cases hk
  | pop k job queue hk hpop =>
    refine apart_serving h rfl ?_ h.handed
    intro job' task hphase htask _
    rw [WorkerPhase.serving.injEq] at hphase
    subst hphase
    exact ⟨0, Option.some.inj htask⟩
  | advance k task world' htask hgoes =>
    refine apart_serving h (Function.update_eq_self k s.server.worker).symm ?_ h.handed
    intro job task' hphase htask' hsteady
    have horbit := h.serving k job task hphase htask hsteady
    have hroomy : task.slot = none → Roomy s.registry.devices := by
      intro hslot
      apply reachable_roomy hids hzero hample hreached (k := k)
      rw [htask]
      exact hslot
    have hnext : (advance skf s.registry world' task).task = solo skf registry world task :=
      advance_same (ample_fresh hids hzero hample k) hmock hsteady (orbit_callOf horbit)
        (reachable_working hreached).same hroomy world' world
    rw [← Option.some.inj htask', hnext]
    exact orbit_solo horbit
  | serve k job rc resp hphase htask =>
    refine apart_serving h rfl (fun job' task hpopping => by cases hpopping) ?_
    intro call hmem k' request hk' hread hsteady
    rcases List.mem_append.mp hmem with hold | hlast
    · exact h.handed call hold k' request hk' hread hsteady
    · rw [List.mem_singleton] at hlast
      subst hlast
      have hheard := (hearing_heard (reachable_server hreached)).serving k job hphase
      rw [hheard, Received.parsed.injEq] at hread
      subst hread
      exact ⟨rc, h.serving k job _ hphase htask hsteady⟩
  | drained k hk hpop =>
    refine ⟨fun k' job task hphase => ?_, h.handed⟩
    by_cases hkk : k' = k
    · simp [hkk] at hphase
    · simp only [Function.update_of_ne hkk] at hphase
      exact h.serving k' job task hphase

theorem reachable_apart (hids : (registry.devices.map fun d => d.deviceId.bytes).Nodup)
    (hzero : ∀ d ∈ registry.devices, d.inflight = 0) (hample : Ample κ registry)
    (hmock : Mocked registry) (world : σ) (h : Reachable skf settings sent early registry s) :
    Apart skf settings registry sent world s := by
  induction h with
  | refl => exact apart_begin world
  | tail hrun hstep ih => exact apart_step hids hzero hample hmock hrun ih hstep

end Beside

end Ucisdk.Isolation
