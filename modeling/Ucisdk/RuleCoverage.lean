import Ucisdk.SkfReady
import Ucisdk.Scheduler

/-!
# The translation table and the adapters

A rule of the table promises a backend call, and the adapter of the device
has to have a branch for it. The table is finite, but its rules for `auto`
take any algorithm; what an adapter does is stated by domain, action and
algorithm, so that the table can be checked against it.
-/

set_option autoImplicit false

namespace Ucisdk.RuleCoverage

open Ucisdk.CString Ucisdk.Common Ucisdk.Protocol Ucisdk.Resource Ucisdk.Translator Ucisdk.Driver
open Ucisdk.Scheduler
open Ucisdk.SkfApi Ucisdk.SkfSession Ucisdk.Gm3000 Ucisdk.SkfReady
open Flow.Calls

section Rules

variable {domain : ApiDomain} {action : ApiAction} {algorithm payload auxPayload keyRef : Bytes}
  {device : DeviceResource} {translated : TranslatedCall}

/-- A step is translated by a rule of the table. -/
theorem translated_rule
    (h : translateBackendCall domain action algorithm payload auxPayload keyRef device =
      .ok translated) :
    translated.call.action = action ∧ translated.call.algorithm = store maxFieldLen algorithm ∧
      ∃ r ∈ gRules, r.type = device.type ∧ r.backendProfile = device.backendProfile.bytes ∧
        r.domain = domain ∧ r.action = action ∧
        (r.algorithm = algorithm ∨ r.algorithm = lit "auto") := by
  rw [translateBackendCall] at h
  split at h
  · simp at h
  · rename_i r hr
    have hmatch := List.find?_some hr
    simp only [ruleMatches, Bool.and_eq_true, Bool.or_eq_true, decide_eq_true_eq] at hmatch
    obtain ⟨⟨⟨⟨htype, hprofile⟩, hdomain⟩, haction⟩, halg⟩ := hmatch
    rw [← Except.ok.inj h]
    exact ⟨rfl, rfl, r, List.mem_of_find?_eq_some hr, htype, hprofile, hdomain, haction, halg⟩

end Rules

section Mock

/-- What the mock adapter of a device has a branch for. -/
def mockImplements (type : DeviceType) (domain : ApiDomain) (action : ApiAction) : Bool :=
  let keyAccess := action = .getPrivateKeyAccess || action = .releasePrivateKeyAccess
  match domain with
  | .device => action = .getDeviceInfo || action = .generateRandom
  | .key =>
    if type = .classic then
      keyAccess || action = .generateKeyPair || action = .exportPublicKey || action = .importKey ||
        action = .destroyKey
    else keyAccess || action = .generateKeyPair
  | .asym =>
    type = .classic &&
      (action = .sign || action = .verify || action = .encrypt || action = .decrypt)
  | .sym => type = .classic && (action = .encrypt || action = .decrypt || action = .mac)
  | .hash => action = .hash
  | .file =>
    action = .createFile || action = .readFile || action = .writeFile || action = .deleteFile
  | .pqc =>
    type ≠ .classic &&
      (action = .sign || action = .verify || action = .kemEncap || action = .kemDecap)
  | _ => false

variable {σ : Type}

/-- A mock adapter succeeds exactly in the branches it has. -/
theorem mock_dispatch (skf : SkfAdapter σ) {device : DeviceResource}
    (hmock : device.backendProfile.bytes ≠ lit "gm3000-skf") (domain : ApiDomain)
    (call : TranslatedCall) (resp : Response) (world : σ) :
    (driverDispatch (driverOpsFor skf device) domain device call resp world).outcome.isOk =
      mockImplements device.type domain call.call.action := by
  rw [driverOpsFor, if_neg hmock]
  by_cases htype : device.type = .classic
  · rw [if_pos htype, htype]
    cases domain <;> cases haction : call.call.action <;>
      simp only [driverDispatch, classicDriverOps, Mock.handler, classicDeviceManage,
        classicKeyManage, classicAsym, classicSym, classicHash, classicFile, classicNotSupported,
        haction] <;> rfl
  · rw [if_neg htype]
    have hother : mockImplements device.type domain call.call.action =
        mockImplements .pqc domain call.call.action := by
      simp [mockImplements, htype]
    rw [hother]
    cases domain <;> cases haction : call.call.action <;>
      simp only [driverDispatch, pqcDriverOps, Mock.handler, pqcDeviceManage, pqcKeyManage,
        pqcHash, pqcFile, pqcOpsImpl, pqcNotSupported, haction] <;> rfl

/-- Every rule for a mock device has its branch. -/
theorem mock_rules : ∀ r ∈ gRules, r.backendProfile ≠ lit "gm3000-skf" →
    mockImplements r.type r.domain r.action = true := by
  decide

end Mock

section Token

variable {σ : Type} {env : Env} {lib : Library σ}

/-- The handler of the token that a domain is dispatched to. -/
def handlerFor : ApiDomain → Option Gm3000Handler
  | .device => some .deviceManage
  | .key => some .keyManage
  | .asym => some .asymCrypto
  | .sym => some .symCrypto
  | .hash => some .hashOps
  | .file => some .fileOps
  | .pqc => some .pqcOps
  | _ => none

theorem token_dispatch {device : DeviceResource}
    (htoken : device.backendProfile.bytes = lit "gm3000-skf") {domain : ApiDomain}
    {h : Gm3000Handler} (hfor : handlerFor domain = some h) (call : TranslatedCall)
    (resp : Response) (world : σ) :
    (driverDispatch (driverOpsFor (skfAdapter env lib) device) domain device call resp
      world).outcome = answered device call resp (h.run env lib call world).value := by
  rw [driverOpsFor, if_pos htoken]
  cases domain <;> simp only [handlerFor, reduceCtorEq, Option.some.injEq] at hfor <;>
    subst hfor <;> rfl

theorem answered_isOk (device : DeviceResource) (call : TranslatedCall) (resp : Response)
    (v : Status Bytes) : (answered device call resp v).isOk = v.isOk := by
  cases v with
  | error err => rfl
  | ok text => rfl

/-- A branch for an algorithm that is neither SM2 nor RSA takes every algorithm. -/
theorem implements_any {h : Gm3000Handler} {action : ApiAction}
    (hauto : implements h action (lit "auto") = true) (algorithm : Bytes) :
    implements h action algorithm = true := by
  have hneither : (lit "auto" = lit "sm2") = False ∧ (lit "auto" = lit "rsa") = False := by
    constructor <;> decide
  cases h <;> simp_all [implements]

/-- The key pairs that the table translates and no branch of the token generates. -/
def PqcKeyPair (domain : ApiDomain) (action : ApiAction) (algorithm : Bytes) : Prop :=
  domain = .key ∧ action = .generateKeyPair ∧
    algorithm ∈ [lit "kyber768", lit "mlkem768", lit "dilithium3"]

instance (domain : ApiDomain) (action : ApiAction) (algorithm : Bytes) :
    Decidable (PqcKeyPair domain action algorithm) := inferInstanceAs (Decidable (_ ∧ _))

/-- Every other rule for the token has its branch. -/
theorem token_rules : ∀ r ∈ gRules, r.backendProfile = lit "gm3000-skf" →
    r.algorithm.length < maxFieldLen ∧ (handlerFor r.domain).any fun h =>
      implements h r.action r.algorithm || PqcKeyPair r.domain r.action r.algorithm := by
  decide

theorem pqcKeyPair_unimplemented {domain : ApiDomain} {action : ApiAction} {algorithm : Bytes}
    (hpair : PqcKeyPair domain action algorithm) :
    implements .keyManage action algorithm = false := by
  obtain ⟨_, haction, halg⟩ := hpair
  rw [haction]
  revert halg
  revert algorithm
  decide

theorem pqcAlgorithm_stored : ∀ algorithm ∈ [lit "kyber768", lit "mlkem768", lit "dilithium3"],
    (store maxFieldLen algorithm).bytes = algorithm := by
  decide

/-- Whatever the library exports, such a key pair is refused. -/
theorem pqcKeyPair_refused (env : Env) (lib : Library σ) {call : TranslatedCall}
    (hpair : PqcKeyPair .key call.call.action call.call.algorithm.bytes) (world : σ) :
    (gm3000KeyManage env lib call world).value.isOk = false := by
  have halg : sm2OrRsa call = false := by
    have hhas := pqcKeyPair_unimplemented hpair
    rw [hpair.2.1] at hhas
    simpa [implements, onApp, sm2OrRsa] using hhas
  exact keyManage_refused (.inr (.inr ⟨hpair.2.1, halg⟩)) world

/-- The handler that the step of a translated call is dispatched to, and what
it has of it. -/
theorem translated_handler {domain : ApiDomain} {action : ApiAction}
    {algorithm payload auxPayload keyRef : Bytes} {device : DeviceResource}
    {translated : TranslatedCall} (htoken : device.backendProfile.bytes = lit "gm3000-skf")
    (h : translateBackendCall domain action algorithm payload auxPayload keyRef device =
      .ok translated) :
    ∃ handler, handlerFor domain = some handler ∧
      (implements handler action translated.call.algorithm.bytes = true ↔
        ¬PqcKeyPair domain action algorithm) := by
  obtain ⟨_, halgorithm, r, hr, _, hprofile, hdomain, haction, halg⟩ := translated_rule h
  obtain ⟨hshort, hany⟩ := token_rules r hr (hprofile.trans htoken)
  rw [Option.any_eq_true] at hany
  obtain ⟨handler, hfor, himpl⟩ := hany
  subst hdomain haction
  refine ⟨handler, hfor, ?_⟩
  rw [Bool.or_eq_true, decide_eq_true_iff] at himpl
  have hkey : PqcKeyPair r.domain r.action algorithm → handler = .keyManage := by
    intro hpair
    rw [hpair.1] at hfor
    exact (Option.some.inj hfor).symm
  rcases halg with halg | halg
  · subst halg
    rw [halgorithm, store_fits hshort]
    constructor
    · intro hhas hpair
      rw [hkey hpair, pqcKeyPair_unimplemented hpair] at hhas
      simp at hhas
    · exact himpl.resolve_right
  · rw [halg] at himpl
    have hauto := himpl.resolve_right fun hpair => by
      have hmem := hpair.2.2
      revert hmem
      decide
    refine ⟨fun _ hpair => ?_, fun _ => implements_any hauto _⟩
    have hhas := implements_any hauto algorithm
    rw [hkey hpair, pqcKeyPair_unimplemented hpair] at hhas
    simp at hhas

end Token

section Dispatch

variable {σ : Type} {env : Env} {lib : Library σ}

/-- The inputs of a translated call are what its handler on the token reads. -/
def Readable (env : Env) (domain : ApiDomain) (call : TranslatedCall) : Prop :=
  ∀ h, handlerFor domain = some h → readable env h call = true

/-- The environment names what the handler on the token needs of it. -/
def TokenConfigured (env : Env) (domain : ApiDomain) (action : ApiAction) : Prop :=
  ∀ h, handlerFor domain = some h → Configured env h action

theorem mock_dispatched {domain : ApiDomain} {action : ApiAction}
    {algorithm payload auxPayload keyRef : Bytes} {device : DeviceResource}
    {translated : TranslatedCall} (hmock : device.backendProfile.bytes ≠ lit "gm3000-skf")
    (h : translateBackendCall domain action algorithm payload auxPayload keyRef device =
      .ok translated) (skf : SkfAdapter σ) (resp : Response) (world : σ) :
    (driverDispatch (driverOpsFor skf device) domain device translated resp
      world).outcome.isOk = true := by
  obtain ⟨htranslated, _, r, hr, htype, hprofile, hdomain, haction, _⟩ := translated_rule h
  rw [mock_dispatch skf hmock, htranslated, ← htype, ← hdomain, ← haction]
  exact mock_rules r hr (hprofile ▸ hmock)

theorem token_dispatched_iff {domain : ApiDomain} {action : ApiAction}
    {algorithm payload auxPayload keyRef : Bytes} {device : DeviceResource}
    {translated : TranslatedCall} (htoken : device.backendProfile.bytes = lit "gm3000-skf")
    (h : translateBackendCall domain action algorithm payload auxPayload keyRef device =
      .ok translated) (hlib : Ready lib) (hread : Readable env domain translated)
    (resp : Response) (world : σ) :
    (driverDispatch (driverOpsFor (skfAdapter env lib) device) domain device translated resp
        world).outcome.isOk = true ↔
      ¬PqcKeyPair domain action algorithm ∧ TokenConfigured env domain action := by
  obtain ⟨handler, hfor, himpl⟩ := translated_handler htoken h
  have haction := (translated_rule h).1
  have hconf : TokenConfigured env domain action ↔ Configured env handler action := by
    simp [TokenConfigured, hfor]
  rw [token_dispatch htoken hfor, answered_isOk, hconf]
  constructor
  · intro hok
    constructor
    · intro hpair
      have hstored : translated.call.algorithm.bytes = algorithm := by
        rw [(translated_rule h).2.1]
        exact pqcAlgorithm_stored algorithm hpair.2.2
      have hkey : handler = .keyManage := by
        rw [hpair.1] at hfor
        exact (Option.some.inj hfor).symm
      have hcall : PqcKeyPair .key translated.call.action translated.call.algorithm.bytes := by
        rw [haction, hstored]
        exact ⟨rfl, hpair.2⟩
      have hrefused := pqcKeyPair_refused env lib hcall world
      rw [hkey] at hok
      exact not_fine hrefused hok
    · by_contra hnone
      rw [← haction] at hnone
      exact not_fine (handler_unconfigured hnone world) hok
  · rintro ⟨hpair, hconf⟩
    have hhas := himpl.mpr hpair
    rw [← haction] at hhas hconf
    exact handler_ready hlib hhas hconf (hread handler hfor) world

/-- A translated step succeeds on its adapter, except for the key pairs that
no branch of the token generates and for what its environment does not name. -/
theorem dispatched_iff {domain : ApiDomain} {action : ApiAction}
    {algorithm payload auxPayload keyRef : Bytes} {device : DeviceResource}
    {translated : TranslatedCall}
    (h : translateBackendCall domain action algorithm payload auxPayload keyRef device =
      .ok translated)
    (htoken : device.backendProfile.bytes = lit "gm3000-skf" →
      Ready lib ∧ Readable env domain translated) (resp : Response) (world : σ) :
    (driverDispatch (driverOpsFor (skfAdapter env lib) device) domain device translated resp
        world).outcome.isOk = true ↔
      (device.backendProfile.bytes = lit "gm3000-skf" →
        ¬PqcKeyPair domain action algorithm ∧ TokenConfigured env domain action) := by
  by_cases hprofile : device.backendProfile.bytes = lit "gm3000-skf"
  · obtain ⟨hlib, hread⟩ := htoken hprofile
    rw [token_dispatched_iff hprofile h hlib hread]
    simp [hprofile]
  · simp [hprofile, mock_dispatched hprofile h]

section Samples

/-- A token without capabilities; which ones it has does not matter here. -/
def someToken : DeviceResource where
  deviceId := store maxFieldLen (lit "token-1")
  type := .classic
  backendProfile := store maxFieldLen (lit "gm3000-skf")
  priority := 100
  enabled := true
  maxInflight := 1
  inflight := 1
  securityScore := 90
  efficiencyScore := 50
  caps := []
  capsFit := Nat.zero_le _

/-- What `translate_backend_call` makes of a key pair for an algorithm. -/
def keyPairCall (algorithm backendCall : String) : TranslatedCall where
  call := {
    domain := .key
    action := .generateKeyPair
    algorithm := store maxFieldLen (lit algorithm)
    keyRef := store maxFieldLen (lit "k1")
    payload := empty
    auxPayload := empty }
  backendName := store maxFieldLen (lit "classic:gm3000-skf")
  backendCallName := store maxFieldLen (lit backendCall)

def appOnly : Env := fun name => if name = lit "GM3000_SKF_APP" then some (lit "app") else none

theorem keyPair_translated : translateBackendCall .key .generateKeyPair (lit "sm2") [] [] (lit "k1")
    someToken = .ok (keyPairCall "sm2" "SKF_GenECCKeyPair") := by
  decide

theorem sm2_pair_dispatched :
    (driverDispatch (driverOpsFor (skfAdapter appOnly (obliging (fun _ => true) [])) someToken) .key
        someToken (keyPairCall "sm2" "SKF_GenECCKeyPair") Response.zero ()).outcome.isOk = true ↔
      (someToken.backendProfile.bytes = lit "gm3000-skf" →
        ¬PqcKeyPair .key .generateKeyPair (lit "sm2") ∧
          TokenConfigured appOnly .key .generateKeyPair) := by
  refine dispatched_iff keyPair_translated (fun _ => ⟨obliging_ready [], ?_⟩) Response.zero ()
  intro h hfor
  rw [← Option.some.inj hfor]
  rfl

/-- The library exports the function for Kyber key pairs, and the adapter
reports it as missing. -/
theorem kyber_pair_missing :
    translateBackendCall .key .generateKeyPair (lit "kyber768") [] [] (lit "k1") someToken =
        .ok (keyPairCall "kyber768" "SKF_GenerateKeyPairKyber") ∧
      Ready (obliging (fun _ => true) []) ∧
      Readable appOnly .key (keyPairCall "kyber768" "SKF_GenerateKeyPairKyber") ∧
      (driverDispatch (driverOpsFor (skfAdapter appOnly (obliging (fun _ => true) [])) someToken)
        .key someToken (keyPairCall "kyber768" "SKF_GenerateKeyPairKyber") Response.zero
        ()).outcome =
          .error (some (store errbufLen (lit "GM3000 SKF library does not export required symbol " ++
            lit "PQC key-pair function for requested algorithm"))) := by
  refine ⟨by decide +kernel, obliging_ready [], ?_, by decide +kernel⟩
  intro h hfor
  rw [← Option.some.inj hfor]
  rfl

end Samples

end Dispatch

end Ucisdk.RuleCoverage
