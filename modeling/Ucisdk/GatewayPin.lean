import Ucisdk.Config
import Ucisdk.SequenceRun

/-!
# The gateway PIN

No settings file yields an empty PIN, so the check is always on; it stands in
front of every route through the scheduler. What a wrong PIN is answered
depends on the id, the domain and the action of the request.
-/

set_option autoImplicit false

namespace Ucisdk.GatewayPin

open Ucisdk.CString Ucisdk.Common Ucisdk.Resource Ucisdk.Driver Ucisdk.Scheduler Ucisdk.Config
open Ucisdk.SequenceRun

theorem loadGatewaySettings_pin {path : Bytes} {file : Option Bytes} {settings : GatewaySettings}
    (h : loadGatewaySettings path file = .ok settings) : settings.gatewayPin.bytes ≠ [] := by
  cases file with
  | none => simp [loadGatewaySettings] at h
  | some text =>
    rw [loadGatewaySettings] at h
    split at h
    · simp at h
    · rename_i hne
      rw [Except.ok.injEq] at h
      rw [← h]
      exact hne

section Check

/-- What a request with a wrong PIN is answered. -/
def refusal (requestId : CStr maxIdLen) (domain : ApiDomain) (action : ApiAction) : Response :=
  { Response.zero with
    requestId := requestId
    status := .unauthorized
    result := store maxResponseLen (lit (if action = .checkPin ∧ domain = .auth then
      "invalid gateway pin" else "gateway pin check failed")) }

variable {settings : GatewaySettings} {req : Request}

theorem validateGatewayPin_wrong (hset : settings.gatewayPin.bytes ≠ [])
    (hpin : req.userPin ≠ settings.gatewayPin) :
    validateGatewayPin (some settings) req =
      .refused (refusal req.requestId req.domain req.action) := by
  have hstore (text : String) (hfits : (lit text).length < errbufLen) :
      buildErrorResponse req .unauthorized (errorText text) =
        { Response.zero with
          requestId := req.requestId
          status := .unauthorized
          result := store maxResponseLen (lit text) } := by
    simp only [buildErrorResponse, errorText, Option.elim_some, store_fits hfits, store_bytes_self]
  simp only [validateGatewayPin, if_neg hset, refusal]
  by_cases hcheck : req.action = .checkPin ∧ req.domain = .auth
  · rw [if_pos hcheck, if_neg hpin, if_pos hcheck, hstore _ (by decide)]
  · rw [if_neg hcheck, if_pos hpin, if_neg hcheck, hstore _ (by decide)]

theorem validateGatewayPin_right (hpin : req.userPin = settings.gatewayPin) :
    validateGatewayPin (some settings) req = .proceed ∨
      ∃ resp, validateGatewayPin (some settings) req = .answered resp ∧ resp.status = .ok := by
  simp only [validateGatewayPin, hpin, ne_eq, not_true_eq_false, if_false, if_true]
  split
  · exact Or.inl rfl
  · split
    · exact Or.inr ⟨_, rfl, rfl⟩
    · exact Or.inl rfl

end Check

section Status

variable {σ : Type} (skf : SkfAdapter σ) (registry : Registry) (req : Request) (world : σ)

theorem runSteps_authorized (steps : List SequenceStep) (payload : CStr maxResponseLen)
    (resp : Response) :
    (runSteps skf req steps payload resp registry world).resp.status ≠ .unauthorized := by
  induction steps generalizing payload resp registry world with
  | nil => simp [runSteps]
  | cons step steps ih =>
    rw [runSteps]
    simp only
    split
    · simp [buildErrorResponse]
    · apply ih

theorem executeSequence_authorized {resp : Response} (h : resp.status ≠ .unauthorized) :
    (executeSequence skf registry req resp world).resp.status ≠ .unauthorized := by
  rw [executeSequence]
  split
  · simp [buildErrorResponse]
  · exact h
  · apply runSteps_authorized

theorem executePlain_authorized (resp : Response) :
    (executePlain skf registry req resp world).resp.status ≠ .unauthorized := by
  rw [executePlain]
  split
  · simp [buildErrorResponse]
  · simp

end Status

section Runs

variable {σ : Type}

/-- A request that was turned away before it touched anything. -/
structure TurnedAway (registry : Registry) (req : Request) (world : σ) (e : Execution σ) : Prop where
  rc : e.rc = -1
  uninvoked : e.trace = []
  registry : e.registry = registry
  world : e.world = world
  resp : e.resp = refusal req.requestId req.domain req.action

/-- The PIN decides whether a request is served and whether it is told that
it is not authorized. -/
structure PinDecides (settings : GatewaySettings) (registry : Registry) (req : Request) (world : σ)
    (e : Execution σ) : Prop where
  wrong : req.userPin ≠ settings.gatewayPin →
    TurnedAway registry req world e ∧ e.resp.status = .unauthorized
  right : req.userPin = settings.gatewayPin → e.resp.status ≠ .unauthorized

theorem schedulerExecute_wrong {settings : GatewaySettings} {req : Request}
    (hset : settings.gatewayPin.bytes ≠ []) (hpin : req.userPin ≠ settings.gatewayPin)
    (skf : SkfAdapter σ) (registry : Registry) (world : σ) :
    schedulerExecute skf (some settings) registry req world =
      ⟨-1, refusal req.requestId req.domain req.action, registry, world, []⟩ := by
  rw [schedulerExecute]
  simp only [validateGatewayPin_wrong hset hpin]

theorem schedulerExecute_right {settings : GatewaySettings} {req : Request}
    (hpin : req.userPin = settings.gatewayPin) (skf : SkfAdapter σ) (registry : Registry)
    (world : σ) :
    (schedulerExecute skf (some settings) registry req world).resp.status ≠ .unauthorized := by
  rw [schedulerExecute]
  rcases validateGatewayPin_right hpin with hproceed | ⟨resp, hanswered, hok⟩
  · simp only [hproceed]
    split
    · apply executeSequence_authorized
      simp [Response.zero]
    · apply executePlain_authorized
  · simp only [hanswered, hok]
    simp

/-- Two runs with wrong PINs, under any settings that load, any registries,
adapters and worlds, are answered alike when their requests agree on id,
domain and action. -/
theorem pin_decides {path : Bytes} {file : Option Bytes} {settings : GatewaySettings}
    (hload : loadGatewaySettings path file = .ok settings) (skf : SkfAdapter σ)
    (registry : Registry) (req : Request) (world : σ) :
    PinDecides settings registry req world
        (schedulerExecute skf (some settings) registry req world) ∧
      ∀ (τ : Type) (path' : Bytes) (file' : Option Bytes) (settings' : GatewaySettings)
        (skf' : SkfAdapter τ) (registry' : Registry) (req' : Request) (world' : τ),
        loadGatewaySettings path' file' = .ok settings' →
        req.userPin ≠ settings.gatewayPin → req'.userPin ≠ settings'.gatewayPin →
        req.requestId = req'.requestId → req.domain = req'.domain → req.action = req'.action →
        (schedulerExecute skf (some settings) registry req world).resp =
          (schedulerExecute skf' (some settings') registry' req' world').resp := by
  have hset := loadGatewaySettings_pin hload
  constructor
  · constructor
    · intro hpin
      rw [schedulerExecute_wrong hset hpin]
      exact ⟨⟨rfl, rfl, rfl, rfl, rfl⟩, rfl⟩
    · intro hpin
      exact schedulerExecute_right hpin skf registry world
  · intro τ path' file' settings' skf' registry' req' world' hload' hpin hpin' hid hdomain haction
    have hset' := loadGatewaySettings_pin hload'
    rw [schedulerExecute_wrong hset hpin, schedulerExecute_wrong hset' hpin', hid, hdomain, haction]

end Runs

def gatewayConf : Bytes := lit "gateway_pin=123456\n"

/-- The shipped settings turn away a request without a PIN, and answer another
payload on an empty registry alike. -/
theorem shipped_pin_decides :
    ∃ settings, loadGatewaySettings (lit "configs/gateway.conf") (some gatewayConf) = .ok settings ∧
      TurnedAway sampleRegistry (signTwice (lit "hello")) ()
        (schedulerExecute absentToken (some settings) sampleRegistry (signTwice (lit "hello")) ()) ∧
      (schedulerExecute absentToken (some settings) sampleRegistry
          (signTwice (lit "hello")) ()).resp =
        (schedulerExecute absentToken (some settings) registryInit
          (signTwice (lit "bye")) ()).resp := by
  have hload : loadGatewaySettings (lit "configs/gateway.conf") (some gatewayConf) =
      .ok ⟨store maxFieldLen (lit "123456")⟩ := by
    rfl
  have hdecides := pin_decides hload absentToken sampleRegistry (signTwice (lit "hello")) ()
  refine ⟨_, hload, (hdecides.1.wrong (by decide)).1, ?_⟩
  exact hdecides.2 Unit _ _ _ absentToken registryInit (signTwice (lit "bye")) () hload (by decide)
    (by decide) rfl rfl rfl

end Ucisdk.GatewayPin
