import Ucisdk.ConfigExact
import Ucisdk.Servable

/-!
# Key sources

A capability may limit the source of the keys it takes; a key reference names
the source of its key. The file and the reference spell a source alike, by
name or by number. A reference that spells none is scheduled as if it named
no source, so it passes every limit.
-/

set_option autoImplicit false

namespace Ucisdk.KeySources

open Ucisdk.CString Ucisdk.Common Ucisdk.Resource Ucisdk.Translator Ucisdk.Driver Ucisdk.Scheduler
open Ucisdk.StepCalls Ucisdk.SequenceRun Ucisdk.Config Ucisdk.ConfigExact Ucisdk.Servable
open Scan.Lines

section Vocabulary

inductive KeySource where
  | internalIndex
  | sessionHandle
  | externalKey
  | managedKey
  deriving DecidableEq

def KeySource.number : KeySource → UInt32
  | .internalIndex => 1
  | .sessionHandle => 2
  | .externalKey => 3
  | .managedKey => 4

/-- The source that a name or a number spells. -/
def spelled (s : Bytes) : Option KeySource :=
  if s = lit "internal_index" ∨ s = lit "1" then some .internalIndex
  else if s = lit "session_handle" ∨ s = lit "2" then some .sessionHandle
  else if s = lit "external_key" ∨ s = lit "3" then some .externalKey
  else if s = lit "managed_key" ∨ s = lit "4" then some .managedKey
  else none

/-- The keys a capability takes: any, or those of one source. -/
inductive Limit where
  | any
  | only (source : KeySource)
  deriving DecidableEq

/-- The limit that the fourth part of a capability spells. -/
def limitOf : Option Bytes → Option Limit
  | none => some .any
  | some s => if s = [] ∨ s = lit "any" then some .any else (spelled s).map Limit.only

def Limit.mask : Limit → UInt32
  | .any => 0xffffffff
  | .only source => 1 <<< source.number

/-- A limit admits the source that a text spells, and an unlimited capability
every text. -/
def Limit.Admits (s : Bytes) : Limit → Prop
  | .any => True
  | .only source => spelled s = some source

theorem keySourceMask_eq (text : Option Bytes) :
    keySourceMask text = ((limitOf text).map Limit.mask).getD 0 := by
  cases text with
  | none => rfl
  | some s =>
    rw [keySourceMask, keySourceMaskFor, limitOf, spelled]
    split_ifs <;> rfl

/-- The value of a source token. -/
def sourceValue (s : Bytes) : UInt32 := ((spelled s).map KeySource.number).getD 0

theorem keyRefSourceValue_eq {keyRef : Bytes} {source : CStr maxFieldLen}
    (h : keyRefGetToken keyRef (lit "source") maxFieldLen = some source) :
    keyRefSourceValue keyRef = sourceValue source.bytes := by
  simp only [keyRefSourceValue, h]
  generalize source.bytes = s
  by_cases hname : s ∈ [lit "internal_index", lit "session_handle", lit "external_key",
      lit "managed_key"]
  · revert s
    decide
  · by_cases hnumber : s ∈ [lit "1", lit "2", lit "3", lit "4"]
    · clear hname
      revert s
      decide
    · simp only [List.mem_cons, List.not_mem_nil, or_false, not_or] at hname hnumber
      simp [sourceValue, spelled, hname, hnumber]

/-- The bit of a source is set in the masks that admit it, and in no other. -/
theorem mask_bit (limit : Limit) (source : KeySource) :
    limit.mask &&& (1 <<< source.number) ≠ 0 ↔ limit = .any ∨ limit = .only source := by
  cases limit with
  | any => cases source <;> decide
  | only other => cases other <;> cases source <;> decide

theorem source_number (source : KeySource) : source.number ≠ 0 := by
  cases source <;> decide

/-- The value of a source is one of the bits, or 0 for a text that spells none. -/
theorem sourceValue_admits (limit : Limit) (s : Bytes) :
    (sourceValue s = 0 ∨ limit.mask &&& (1 <<< sourceValue s) ≠ 0) ↔
      spelled s = none ∨ limit.Admits s := by
  cases hs : spelled s with
  | none => simp [sourceValue, hs]
  | some source =>
    have hvalue : sourceValue s = source.number := by
      rw [sourceValue, hs]
      rfl
    rw [hvalue, mask_bit]
    have hadmits : limit.Admits s ↔ limit = .any ∨ limit = .only source := by
      cases limit with
      | any => simp [Limit.Admits]
      | only other =>
        rw [Limit.Admits, hs, Option.some.injEq, Limit.only.injEq]
        simp [eq_comm]
    rw [hadmits]
    simp [source_number]

end Vocabulary

section Loaded

/-- A capability was made of a token that spells a limit. -/
def SpellsLimit (cap : Capability) : Prop :=
  ∃ token parts limit, capabilityParts token = some parts ∧
    limitOf parts.keySource = some limit ∧ cap.keySourceMask = limit.mask

theorem parseCapability_limit {token : Bytes} {cap : Capability}
    (h : parseCapability token = some cap) : SpellsLimit cap := by
  rw [parseCapability] at h
  split at h
  · simp at h
  · rename_i parts hparts
    split at h
    · simp at h
    · split at h
      · simp at h
      · split at h
        · simp at h
        · rename_i hmask
          rw [Option.some.injEq] at h
          subst h
          rw [keySourceMask_eq] at hmask
          cases hlimit : limitOf parts.keySource with
          | none => simp [hlimit] at hmask
          | some limit =>
            refine ⟨_, parts, limit, hparts, hlimit, ?_⟩
            show keySourceMask parts.keySource = limit.mask
            rw [keySourceMask_eq, hlimit]
            rfl

theorem forall₂_limits {ts : List Bytes} {caps : List Capability}
    (h : List.Forall₂ (fun token cap => parseCapability token = some cap) ts caps) :
    ∀ cap ∈ caps, SpellsLimit cap := by
  induction h with
  | nil => simp
  | cons hcap _ ih =>
    intro cap hm
    rcases List.mem_cons.mp hm with rfl | hm
    · exact parseCapability_limit hcap
    · exact ih cap hm

theorem madeOf_limits {fields : List (DeviceResource × Bytes)} {devices : List DeviceResource}
    (h : List.Forall₂ MadeOf fields devices) :
    ∀ d ∈ devices, ∀ cap ∈ d.caps, SpellsLimit cap := by
  induction h with
  | nil => simp
  | cons hmade _ ih =>
    intro d hd
    rcases List.mem_cons.mp hd with rfl | hd
    · exact forall₂_limits hmade.2
    · exact ih d hd

/-- Every capability of a loaded registry is limited as its token spells it. -/
theorem loaded_limits {path file : Bytes} {registry : Registry}
    (hload : loadResourcesFromFile path (some file) registryInit = ⟨none, registry⟩) :
    ∀ d ∈ registry.devices, ∀ cap ∈ d.caps, SpellsLimit cap := by
  obtain ⟨hdevices, hall⟩ := loadLines_ok hload
  rw [hdevices, registryInit, List.nil_append]
  exact madeOf_limits (registered_forall₂ hall)

end Loaded

section Runs

variable {σ : Type}

/-- A capability for a step of a request. -/
def Covers (step : SequenceStep) (cap : Capability) : Prop :=
  cap.domain = step.domain ∧ cap.action = step.action ∧
    (cap.algorithm.bytes = step.algorithm.bytes ∨ cap.algorithm.bytes = lit "auto")

/-- The device has a capability for the step whose declared source admits the
source of the key. -/
def Admitted (source : Bytes) (step : SequenceStep) (device : DeviceResource) : Prop :=
  ∃ cap ∈ device.caps, Covers step cap ∧
    ∃ limit : Limit, cap.keySourceMask = limit.mask ∧ limit.Admits source

/-- A step of the run only reaches a device that admits the source of its key. -/
def AdmittedOnly (source : Bytes) (e : Execution σ) : Prop :=
  ∀ ρ ∈ e.trace, ∀ i ∈ ρ.run.invoked, Admitted source ρ.step i.device

/-- The source is one of the spelled ones, or the device that the step takes
has an unlimited capability for it, or no rule. -/
def SourceKnown (req : Request) (source : Bytes) (step : SequenceStep) (registry : Registry) :
    Prop :=
  spelled source ≠ none ∨
    ∀ d ∈ chosen (stepCall req step [] Response.zero) registry.devices,
      (findRule d step.domain step.action step.algorithm.bytes).isSome = true →
        ∃ cap ∈ d.caps, Covers step cap ∧ cap.keySourceMask = Limit.any.mask

theorem idle_caps {registry before : Registry}
    (h : before.devices.map idle = registry.devices.map idle)
    (hlimits : ∀ d ∈ registry.devices, ∀ cap ∈ d.caps, SpellsLimit cap) :
    ∀ d ∈ before.devices, ∀ cap ∈ d.caps, SpellsLimit cap := by
  intro d hd cap hcap
  obtain ⟨e, he, heq⟩ := idle_mem h hd
  apply hlimits e he
  have hcaps : (idle e).caps = (idle d).caps := congrArg DeviceResource.caps heq
  show cap ∈ (idle e).caps
  rw [hcaps]
  exact hcap

/-- A dispatched step whose source is spelled was admitted by a limit. -/
theorem spelled_admitted {skf : SkfAdapter σ} {req : Request} {step : SequenceStep}
    {payload : Bytes} {resp : Response} {registry : Registry} {world : σ} {i : Invocation}
    {source : CStr maxFieldLen}
    (hlimits : ∀ d ∈ registry.devices, ∀ cap ∈ d.caps, SpellsLimit cap)
    (hsource : keyRefGetToken req.keyRef.bytes (lit "source") maxFieldLen = some source)
    (hspelled : spelled source.bytes ≠ none)
    (hi : ((stepCall req step payload resp).run skf registry world).invoked = some i) :
    Admitted source.bytes step i.device := by
  obtain ⟨acquired, ha, hdevice, _⟩ := (StepCall.invoked_iff i).mp hi
  obtain ⟨hint, d, _, hd⟩ := StepCall.acquire_grants ha
  obtain ⟨cap, hmem, hcovers, hmask⟩ := deviceSupports_cap hd.supports
  have hvalue : keyRefSourceValue (stepCall req step payload resp).keyRef =
      sourceValue source.bytes := keyRefSourceValue_eq hsource
  rw [hvalue] at hmask
  obtain ⟨_, _, limit, _, _, hlimit⟩ := hlimits d (List.mem_of_getElem? hd.slot) cap hmem
  rw [hlimit] at hmask
  rw [hdevice, hd.device]
  exact ⟨cap, hmem, hcovers, limit, hlimit,
    ((sourceValue_admits limit source.bytes).mp hmask).resolve_left hspelled⟩

theorem step_admitted_iff {skf : SkfAdapter σ} {req : Request} {ρ : StepRecord σ} {resp : Response}
    {source : CStr maxFieldLen}
    (hrun : ρ.run = (stepCall req ρ.step ρ.payload resp).run skf ρ.before ρ.worldBefore)
    (hlimits : ∀ d ∈ ρ.before.devices, ∀ cap ∈ d.caps, SpellsLimit cap)
    (hsource : keyRefGetToken req.keyRef.bytes (lit "source") maxFieldLen = some source) :
    (∀ i ∈ ρ.run.invoked, Admitted source.bytes ρ.step i.device) ↔
      SourceKnown req source.bytes ρ.step ρ.before := by
  have htarget : ∀ device, (∃ d, chosen (stepCall req ρ.step [] Response.zero) ρ.before.devices =
        some d ∧ (findRule d ρ.step.domain ρ.step.action ρ.step.algorithm.bytes).isSome = true ∧
          device = { d with inflight := d.inflight + 1 }) ↔
      ∃ i, ρ.run.invoked = some i ∧ i.device = device := by
    intro device
    rw [hrun, ← StepCall.invoked_target skf ρ.worldBefore device]
    exact (target_chosen (stepCall req ρ.step ρ.payload resp) ρ.before device).symm
  constructor
  · intro h
    by_cases hspelled : spelled source.bytes = none
    · right
      intro d hd hrule
      obtain ⟨i, hi, hdevice⟩ := (htarget _).mp ⟨d, hd, hrule, rfl⟩
      obtain ⟨cap, hmem, hcovers, limit, hlimit, hadmits⟩ := h i hi
      rw [hdevice] at hmem
      cases limit with
      | any => exact ⟨cap, hmem, hcovers, hlimit⟩
      | only other =>
        rw [Limit.Admits, hspelled] at hadmits
        simp at hadmits
    · exact Or.inl hspelled
  · intro h i hi
    rcases h with hspelled | hany
    · have hi' := hi
      rw [hrun] at hi'
      exact spelled_admitted hlimits hsource hspelled hi'
    · obtain ⟨d, hd, hrule, hdevice⟩ := (htarget i.device).mpr ⟨i, hi, rfl⟩
      obtain ⟨cap, hmem, hcovers, hmask⟩ := hany d hd hrule
      rw [hdevice]
      exact ⟨cap, hmem, hcovers, .any, hmask, trivial⟩

end Runs

section Samples

/-- A request to sign with a key of the named source. -/
def signFrom (source : String) : Request where
  requestId := store maxIdLen (lit "r20")
  domain := .asym
  action := .sign
  algorithm := store maxFieldLen (lit "sm2")
  keyRef := store maxFieldLen (lit "source=" ++ lit source)
  payload := store maxPayloadLen (lit "abc")
  auxPayload := empty
  deviceHint := empty
  userPin := empty
  preference := .balanced
  sequence := empty

theorem softlib_loads : ∃ registry,
    loadResourcesFromFile (lit "softlib.conf") (some softlibConf) registryInit = ⟨none, registry⟩ ∧
      registry = (loadResourcesFromFile (lit "softlib.conf") (some softlibConf)
        registryInit).registry := by
  have hok : (loadResourcesFromFile (lit "softlib.conf") (some softlibConf)
      registryInit).errbuf = none := by
    decide
  exact ⟨_, loaded_ok hok, rfl⟩

end Samples

end Ucisdk.KeySources
