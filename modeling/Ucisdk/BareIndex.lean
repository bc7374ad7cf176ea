import Ucisdk.KeyText
import Ucisdk.SequenceRun

/-!
# Keys that are named by an index alone

An index names a key on one device only. A request that gives an index and
no device has to be stopped in front of the registry; the scheduler knows
such a key by the source that stands beside the index.
-/

set_option autoImplicit false

namespace Ucisdk.BareIndex

open Ucisdk.CString Ucisdk.Common Ucisdk.Protocol Ucisdk.Resource Ucisdk.Translator Ucisdk.Driver
open Ucisdk.Scheduler Ucisdk.StepCalls Ucisdk.SequenceRun Ucisdk.Ccm Ucisdk.CcmObject
open Ucisdk.KeyText Ucisdk.RequestFields
open Scan.Tokens

variable {σ : Type}

/-- The request names no device, neither in its key nor beside it. -/
structure NamesNoDevice (req : Request) : Prop where
  key : keyRefGetToken req.keyRef.bytes (lit "device_id") maxFieldLen = none
  hint : req.deviceHint.bytes = []

/-- The run failed, and none of its steps acquired a device. -/
def RejectedUnacquired (req : Request) (e : Execution σ) : Prop :=
  e.rc ≠ 0 ∧ ∀ ρ ∈ e.trace, (stepCall req ρ.step ρ.payload Response.zero).acquire ρ.before = none

/-- No device that is free supports a step of the request. -/
def NoneFree (registry : Registry) (req : Request) (step : SequenceStep) : Prop :=
  (registryAcquireCandidate registry step.domain step.action step.algorithm.bytes []
    (keyRefSourceValue req.keyRef.bytes) req.preference
    (buildOrder req.preference step.preferredType)).isNone = true

/-- The request is stopped by the gateway PIN or by its sequence, or its first
step is: by the source of its key, or because no device is free for it. -/
def StoppedFirst (settings : Option GatewaySettings) (registry : Registry) (req : Request) : Prop :=
  (∃ resp, validateGatewayPin settings req = .refused resp) ∨
    PinOpen settings req ∧
      (consistsOf req = none ∨ ∃ step steps, consistsOf req = some (step :: steps) ∧
        (keyRefIsInternalIndex req.keyRef.bytes = true ∨ NoneFree registry req step))

theorem resolve_nameless {req : Request} (h : NamesNoDevice req) :
    resolveDeviceHintFromKeyRef req req.keyRef.bytes =
      if keyRefIsInternalIndex req.keyRef.bytes = true then
        .error (store errbufLen (lit "internal_index key requires device_id or device_hint"))
      else .ok empty := by
  simp only [resolveDeviceHintFromKeyRef, h.key, h.hint]
  by_cases hkey : keyRefIsInternalIndex req.keyRef.bytes = true
  · simp [hkey]
  · simp [hkey, CString.empty]

/-- Without a device a step acquires one by rank, unless its key is known as internal. -/
theorem acquire_nameless_iff {req : Request} (h : NamesNoDevice req) (registry : Registry)
    (step : SequenceStep) (payload : Bytes) (resp : Response) :
    (stepCall req step payload resp).acquire registry = none ↔
      keyRefIsInternalIndex req.keyRef.bytes = true ∨ NoneFree registry req step := by
  rw [StepCall.acquire, NoneFree, Option.isNone_iff_eq_none]
  simp only [stepCall, resolve_nameless h]
  by_cases hkey : keyRefIsInternalIndex req.keyRef.bytes = true
  · simp [hkey]
  · simp [hkey]

theorem runSteps_rejected_iff (skf : SkfAdapter σ) (req : Request) (step : SequenceStep)
    (steps : List SequenceStep) (payload : CStr maxResponseLen) (resp : Response)
    (registry : Registry) (world : σ) :
    RejectedUnacquired req (runSteps skf req (step :: steps) payload resp registry world) ↔
      (stepCall req step payload.bytes Response.zero).acquire registry = none := by
  constructor
  · intro h
    have hfirst : (⟨registry, world, step, payload.bytes,
        sequenceStepRun skf req step payload registry world⟩ : StepRecord σ) ∈
        (runSteps skf req (step :: steps) payload resp registry world).trace := by
      rw [runSteps]
      simp only
      split
      · exact List.mem_singleton_self _
      · exact List.mem_cons_self
    have hnone := h.2 _ hfirst
    exact hnone
  · intro h
    obtain ⟨errbuf, hrun⟩ := StepCall.run_unacquired h skf world
    have hout : (sequenceStepRun skf req step payload registry world).outcome =
        .error (some errbuf) := congrArg StepRun.outcome hrun
    rw [RejectedUnacquired, runSteps]
    simp only [hout]
    refine ⟨by simp, ?_⟩
    intro ρ hρ
    rw [List.mem_singleton] at hρ
    subst hρ
    exact h

theorem executePlain_rejected_iff (skf : SkfAdapter σ) (registry : Registry) (req : Request)
    (resp : Response) (world : σ) :
    RejectedUnacquired req (executePlain skf registry req resp world) ↔
      (stepCall req (plainStep req) req.payload.bytes resp).acquire registry = none := by
  constructor
  · intro h
    rw [RejectedUnacquired, executePlain] at h
    split at h
    · have hnone := h.2 _ (List.mem_singleton_self _)
      exact hnone
    · exact absurd rfl h.1
  · intro h
    obtain ⟨errbuf, hrun⟩ := StepCall.run_unacquired h skf world
    have hout : (executeSingleStep skf registry req req.domain req.action req.algorithm.bytes
        req.payload.bytes req.auxPayload.bytes req.keyRef.bytes .unknown resp world).outcome =
        .error (some errbuf) := congrArg StepRun.outcome hrun
    rw [RejectedUnacquired, executePlain]
    simp only [hout]
    refine ⟨by simp, ?_⟩
    intro ρ hρ
    rw [List.mem_singleton] at hρ
    subst hρ
    exact h

theorem executeSequence_rejected_iff {req : Request} (hreq : NamesNoDevice req)
    (hne : req.sequence.bytes ≠ []) (skf : SkfAdapter σ) (registry : Registry) (resp : Response)
    (world : σ) :
    RejectedUnacquired req (executeSequence skf registry req resp world) ↔
      consistsOf req = none ∨ ∃ step steps, consistsOf req = some (step :: steps) ∧
        (keyRefIsInternalIndex req.keyRef.bytes = true ∨ NoneFree registry req step) := by
  rw [executeSequence, consistsOf, if_pos hne]
  cases hparse : parseSequence req with
  | error errbuf => simp [RejectedUnacquired, Except.toOption]
  | ok steps =>
    cases steps with
    | nil => simp [RejectedUnacquired, Except.toOption]
    | cons step steps =>
      simp only [Except.toOption]
      rw [runSteps_rejected_iff, acquire_nameless_iff hreq]
      simp

section Generated

/-- A reference of one token has no token of another name. -/
theorem getToken_other {token name : Bytes} {outSz : ℕ} [NeZero outSz]
    (hplain : ∀ c ∈ token, semicolon c = false) (hfit : token.length < maxFieldLen)
    (hname : named name token = false) : keyRefGetToken token name outSz = none := by
  rw [keyRefGetToken]
  split
  · rfl
  · rename_i hne
    rw [not_or] at hne
    rw [store_fits hfit, tokens_piece semicolon token hne.1 hplain, List.find?_singleton, hname]
    rfl

theorem indexToken_plain (uiKeyIndex : UInt32) :
    (∀ c ∈ numberToken "key_index" uiKeyIndex, semicolon c = false) ∧
      (numberToken "key_index" uiKeyIndex).length < maxFieldLen := by
  constructor
  · intro c hc
    have hname : ∀ c ∈ lit "key_index", Inert c := by decide
    have hinert := numberToken_inert hname uiKeyIndex c hc
    simp [semicolon, hinert.2.2]
  · have hdigits : (decimal uiKeyIndex.toNat).length ≤ 10 :=
      decimal_length (by decide) (Nat.lt_trans uiKeyIndex.toNat_lt (by decide))
    have hlead : (lit "key_index").length + (lit "=").length = 10 := by decide
    simp only [numberToken, List.length_append, maxFieldLen]
    omega

/-- What `CCM_GenerateKeyPair` and `CCM_GenerateSymKey` write for an index. -/
theorem generate_keyRef (alg : UnifAlgParams) (uiKeyIndex : UInt32)
    (publicKey privateKey key : UnifKeyRef) :
    (keyPairOpts alg uiKeyIndex publicKey privateKey).keyRef.bytes =
        numberToken "key_index" uiKeyIndex ∧
      (symKeyOpts alg uiKeyIndex key).keyRef.bytes = numberToken "key_index" uiKeyIndex := by
  have hshort : (numberToken "key_index" uiKeyIndex).length < 512 :=
    Nat.lt_trans (indexToken_plain uiKeyIndex).2 (by decide)
  have htoken : ((appendToken "key_index" uiKeyIndex (empty : CStr 512)).2).bytes =
      numberToken "key_index" uiKeyIndex := by
    have hraw := appends_raw (empty : CStr 512) (numberToken "key_index" uiKeyIndex)
    have hout : appendToken "key_index" uiKeyIndex (empty : CStr 512) =
        appendRaw (numberToken "key_index" uiKeyIndex) empty := by
      simp [appendToken, separator, numberToken]
    rw [hout, hraw, append_bytes, empty_bytes, List.nil_append]
    exact List.take_of_length_le (by omega)
  exact ⟨htoken, htoken⟩

/-- Such a key is never known as internal, although nothing but its index names it. -/
theorem generate_unknown (uiKeyIndex : UInt32) :
    keyRefGetToken (numberToken "key_index" uiKeyIndex) (lit "device_id") maxFieldLen = none ∧
      keyRefIsInternalIndex (numberToken "key_index" uiKeyIndex) = false := by
  obtain ⟨hplain, hfit⟩ := indexToken_plain uiKeyIndex
  constructor
  · exact getToken_other hplain hfit rfl
  · rw [keyRefIsInternalIndex, getToken_other hplain hfit rfl]

end Generated

section Samples

def keyMemory : Memory where
  algParamsAt := fun _ => plainParams 1
  keyRefAt := fun _ => ⟨1, 0, 0, 0, 0, 0, empty, empty⟩
  bufferAt := fun _ => ⟨0, 0⟩
  byteAt := fun _ => 0

/-- The call for a key pair in slot 7, on whatever device there is. -/
def generateSeven : CcmCode × CStr 2048 := ccmGenerateKeyPair keyMemory 4096 7 4112 4128

def sevenRequest : Request where
  requestId := store maxIdLen (lit "ccm-keypair")
  domain := .key
  action := .generateKeyPair
  algorithm := store maxFieldLen (lit "sm2")
  keyRef := store maxFieldLen (lit "key_index=7")
  payload := store maxPayloadLen
    (lit "mode=0;padding=0;hash_alg=0;security_level=0;ex_params=(nil)")
  auxPayload := store maxPayloadLen (lit ("alg=1;usage=0;source=0;key_index=0;key_handle=(nil);" ++
    "external_key=(nil);alg=1;usage=0;source=0;key_index=0;key_handle=(nil);external_key=(nil)"))
  deviceHint := empty
  userPin := empty
  preference := .balanced
  sequence := empty

/-- The two mock devices, the classic one with key pairs of sm2. -/
def keyRegistry : Registry :=
  ⟨[{ classicOne with
      caps := [anySource .key .generateKeyPair "sm2"]
      capsFit := by decide }, pqcOne], by decide⟩

def sevenTexts : Field → Bytes :=
  requestTexts (lit "key") (lit "generate_key_pair") (lit "sm2")
    (keyPairOpts (plainParams 1) 7 (keyMemory.keyRefAt 4112) (keyMemory.keyRefAt 4128))

theorem seven_built : generateSeven = (.ok, store 2048 (builtObject sevenTexts).text) := by
  have hcall : generateSeven = buildJson (lit "key") (lit "generate_key_pair")
      (algOrAuto (plainParams 1)) (keyPairOpts (plainParams 1) 7 (keyMemory.keyRefAt 4112)
        (keyMemory.keyRefAt 4128)) 2048 := rfl
  have hname : ccmAlgName (algOrAuto (plainParams 1)) = some (lit "sm2") := rfl
  rw [hcall]
  exact buildJson_ok hname (by decide) (List.cons_ne_nil _ _) (by decide +kernel)

theorem seven_parsed : parseRequestJson (builtObject sevenTexts).text = .ok sevenRequest := by
  decide +kernel

theorem seven_nameless : NamesNoDevice sevenRequest := ⟨by decide, rfl⟩

end Samples

end Ucisdk.BareIndex
