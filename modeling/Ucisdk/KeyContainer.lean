import Ucisdk.KeyRoundTrip
import Ucisdk.SkfConduct
import Ucisdk.SkfReady

/-!
# The container of a key

The adapter takes the whole text of a key reference as the name of the
container. Two references to one key reach one container only where they are
spelled alike, down to the tokens that do not say which key it is.
-/

set_option autoImplicit false

namespace Ucisdk.KeyContainer

open Ucisdk.CString Ucisdk.Common Ucisdk.Protocol Ucisdk.Translator
open Ucisdk.SkfApi Ucisdk.SkfText Ucisdk.SkfSession Ucisdk.Gm3000 Ucisdk.SkfConduct Ucisdk.SkfReady
open Ucisdk.Ccm Ucisdk.KeyText Ucisdk.KeyRoundTrip
open Flow.Calls

/-- The references have the same source, index and ids. -/
structure SameKey (k₁ k₂ : Bytes) : Prop where
  source : tokenText k₁ "source" = tokenText k₂ "source"
  keyIndex : tokenText k₁ "key_index" = tokenText k₂ "key_index"
  keyId : tokenText k₁ "key_id" = tokenText k₂ "key_id"
  deviceId : tokenText k₁ "device_id" = tokenText k₂ "device_id"

inductive ContainerOp where
  | sign
  | decrypt
  | generateKeyPair
  | exportPublicKey
  | destroyKey
  deriving DecidableEq, Repr

namespace ContainerOp

def action : ContainerOp → ApiAction
  | .sign => .sign
  | .decrypt => .decrypt
  | .generateKeyPair => .generateKeyPair
  | .exportPublicKey => .exportPublicKey
  | .destroyKey => .destroyKey

def handler : ContainerOp → Gm3000Handler
  | .sign => .asymCrypto
  | .decrypt => .asymCrypto
  | .generateKeyPair => .keyManage
  | .exportPublicKey => .keyManage
  | .destroyKey => .keyManage

/-- A call for the operation under a key reference. -/
structure Call (op : ContainerOp) (key : CStr maxFieldLen) where
  call : TranslatedCall
  action_eq : call.call.action = op.action
  keyRef_eq : call.call.keyRef = key

end ContainerOp

def containerOf : SkfCall → Option Bytes
  | .openContainer _ name => some name
  | .deleteContainer _ name => some name
  | _ => none

/-- The containers that a run opens or deletes. -/
def containers (calls : List (Flow.Calls.Call skf)) : List Bytes :=
  calls.filterMap fun c => containerOf c.op

section Runs

variable {σ : Type} (env : Env) (lib : Library σ)

/-- The containers of one operation on the token. -/
def reached {op : ContainerOp} {key : CStr maxFieldLen} (c : op.Call key) (s : σ) : List Bytes :=
  containers (op.handler.run env lib c.call s).calls

end Runs

/-- Under either reference every operation reaches the same container. -/
def SameContainer (env : Env) (k₁ k₂ : CStr maxFieldLen) : Prop :=
  ∀ (σ : Type) (lib : Library σ) (op₁ op₂ : ContainerOp) (c₁ : op₁.Call k₁) (c₂ : op₂.Call k₂)
    (s₁ s₂ : σ), ∀ name₁ ∈ reached env lib c₁ s₁, ∀ name₂ ∈ reached env lib c₂ s₂, name₁ = name₂

/-- The name of the container for a reference without a text. -/
def defaultContainer (env : Env) : Bytes :=
  (getenv env "GM3000_SKF_CONTAINER").getD (lit "default")

/-- The texts are equal, or one is empty and the other spells the default. -/
def SpelledAlike (env : Env) (k₁ k₂ : CStr maxFieldLen) : Prop :=
  k₁ = k₂ ∨ k₁.bytes = [] ∧ k₂.bytes = defaultContainer env ∨
    k₂.bytes = [] ∧ k₁.bytes = defaultContainer env

instance (env : Env) (k₁ k₂ : CStr maxFieldLen) : Decidable (SpelledAlike env k₁ k₂) :=
  inferInstanceAs (Decidable (_ ∨ _))

section Names

variable {σ : Type} {env : Env} {lib : Library σ}

theorem containerName_eq (env : Env) {call : TranslatedCall} {key : CStr maxFieldLen}
    (h : call.call.keyRef = key) :
    containerNameFromCall env call = if key.bytes ≠ [] then key.bytes else defaultContainer env := by
  rw [containerNameFromCall, h, defaultContainer]

theorem defaultContainer_ne_nil (env : Env) : defaultContainer env ≠ [] := by
  rw [defaultContainer, getenv]
  split
  · decide
  · rename_i value _
    by_cases hvalue : value = []
    · simp [hvalue, show lit "default" ≠ [] by decide]
    · simp [hvalue]

theorem spelledAlike_iff (env : Env) (k₁ k₂ : CStr maxFieldLen) :
    SpelledAlike env k₁ k₂ ↔
      (if k₁.bytes ≠ [] then k₁.bytes else defaultContainer env) =
        if k₂.bytes ≠ [] then k₂.bytes else defaultContainer env := by
  have hdefault := defaultContainer_ne_nil env
  rw [SpelledAlike, CStr.ext_iff]
  by_cases h₁ : k₁.bytes = []
  · by_cases h₂ : k₂.bytes = []
    · simp [h₁, h₂]
    · simp [h₁, h₂, eq_comm, hdefault.symm]
  · by_cases h₂ : k₂.bytes = []
    · simp [h₁, h₂]
    · simp [h₁, h₂]

theorem names_of_conduct {α : Type} {p : Bytes → Prop} {w : α → Prop} {act : Run σ α}
    (h : Conducts p w act) (s : σ) : ∀ name ∈ containers (act s).calls, p name := by
  intro name hname
  rw [containers, List.mem_filterMap] at hname
  obtain ⟨made, hmade, hof⟩ := hname
  have hnamed := (h s).2 made hmade
  cases hop : made.op <;> simp [hop, containerOf, Named] at hof hnamed
  all_goals
    subst hof
    exact hnamed

/-- Whatever the library does, only the container of the call is reached. -/
theorem reached_name {op : ContainerOp} {key : CStr maxFieldLen} (c : op.Call key) (s : σ) :
    ∀ name ∈ reached env lib c s, name = containerNameFromCall env c.call := by
  have hverify : op.handler = .asymCrypto → VerifiesKnown c.call := by
    intro _ haction
    rw [c.action_eq] at haction
    cases op <;> cases haction
  have hconduct : Conducts (· = containerNameFromCall env c.call) (Tells env c.call)
      (op.handler.run env lib c.call) := handler_conducts rfl hverify
  exact names_of_conduct hconduct s

/-- A key that is destroyed on a token that can be opened is deleted there. -/
theorem destroyed_reached (hlib : Ready lib) (happ : getenv env "GM3000_SKF_APP" ≠ none)
    {key : CStr maxFieldLen} (c : ContainerOp.destroyKey.Call key) (s : σ) :
    containerNameFromCall env c.call ∈ reached env lib c s := by
  have honApp : onApp c.call.call.action = true := by
    rw [c.action_eq]
    rfl
  have hmakes : Makes (fun made => containerOf made.op = some (containerNameFromCall env c.call))
      (gm3000KeyManage env lib c.call) := by
    rw [gm3000KeyManage, if_pos honApp]
    refine makes_after (openBase_ready hlib) ?_
    rintro v ⟨rt, sess, rfl, hrt⟩
    refine makes_after (openApp_ready hlib happ hrt sess) ?_
    rintro ⟨sess, v⟩ hv
    cases v with
    | error err => exact absurd hv (fine_error err)
    | ok _ =>
      apply makes_first
      rw [keyOp, c.action_eq]
      show Makes _ (destroyKey env lib rt sess c.call)
      rw [destroyKey, attempt, if_neg (by simp [hrt])]
      exact makes_first (makes_call fun _ => rfl)
  obtain ⟨made, hmade, hof⟩ := hmakes s
  exact List.mem_filterMap.mpr ⟨made, hmade, hof⟩

/-- Without an application nothing behind `openApp` is run. -/
theorem unopened_conducts (happ : getenv env "GM3000_SKF_APP" = none) {p : Bytes → Prop}
    (call : TranslatedCall) {α : Type} {rest : Runtime → Session → Run σ (Status α)} :
    Conducts p Refused (do
      match ← openBase env lib with
      | .error err => pure (.error err)
      | .ok (rt, sess) =>
        match ← openApp env lib rt sess with
        | (sess, .error err) => finalizeErrorOrSuccess lib (.error err) rt sess
        | (sess, .ok ()) => rest rt sess) := by
  have hopen : Conducts p (Tells env call) (openBase env lib) := openBase_conducts
  apply keeps_bind hopen
  intro v _
  cases v with
  | error err => exact keeps_pure rfl
  | ok opened =>
    obtain ⟨rt, sess⟩ := opened
    have happly : Conducts p (fun v => Tells env call v.2) (openApp env lib rt sess) :=
      openApp_conducts rt sess
    apply keeps_bind (keeps_yields happly (openApp_refused happ rt sess))
    rintro ⟨sess, v⟩ ⟨_, hv⟩
    cases v with
    | error err => exact finalize_conducts rfl rt sess
    | ok opened => exact absurd hv (refused_ok opened)

theorem unopened_session (happ : getenv env "GM3000_SKF_APP" = none) {p : Bytes → Prop}
    (call : TranslatedCall) {op : Runtime → Session → Run σ (Status Bytes)} :
    Conducts p Refused (do
      match ← openAppContainer env lib call with
      | .error err => pure (.error err)
      | .ok (rt, sess) =>
        let rc ← op rt sess
        finalizeErrorOrSuccess lib rc rt sess) := by
  have hopen : Conducts p Refused (openAppContainer env lib call) := unopened_conducts happ call
  apply keeps_bind hopen
  intro v hv
  cases v with
  | error err => exact keeps_pure rfl
  | ok opened => exact absurd hv (refused_ok opened)

theorem unopened_reached (happ : getenv env "GM3000_SKF_APP" = none) {op : ContainerOp}
    {key : CStr maxFieldLen} (c : op.Call key) (s : σ) : reached env lib c s = [] := by
  have hnone : Conducts (fun _ => False) Refused (op.handler.run env lib c.call) := by
    have hkey : Conducts (fun _ => False) Refused (gm3000KeyManage env lib c.call) := by
      rw [gm3000KeyManage]
      split
      · exact unopened_conducts happ c.call
      · exact unopened_session happ c.call
    have hasym : onDevice c.call.call.action = false →
        Conducts (fun _ => False) Refused (gm3000AsymCrypto env lib c.call) := by
      intro hdevice
      rw [gm3000AsymCrypto]
      split
      · exact keeps_pure rfl
      · rw [openForAsym, if_neg (by simp [hdevice])]
        exact unopened_session happ c.call
    have haction := c.action_eq
    cases op with
    | sign => exact hasym (by rw [haction]; rfl)
    | decrypt => exact hasym (by rw [haction]; rfl)
    | generateKeyPair => exact hkey
    | exportPublicKey => exact hkey
    | destroyKey => exact hkey
  exact List.eq_nil_iff_forall_not_mem.mpr (names_of_conduct hnone s)

end Names

/-- A call for an operation on an SM2 key without further inputs. -/
def sm2Call (op : ContainerOp) (key : CStr maxFieldLen) : op.Call key where
  call :=
    { sampleCall .key op.action "sm2" "" "" with
      call := { (sampleCall .key op.action "sm2" "" "").call with keyRef := key } }
  action_eq := rfl
  keyRef_eq := rfl

/-- Two references reach one container exactly if they are spelled alike, or
if no application can be opened, so that none is reached. -/
theorem sameContainer_iff (env : Env) (k₁ k₂ : CStr maxFieldLen) :
    SameContainer env k₁ k₂ ↔ SpelledAlike env k₁ k₂ ∨ getenv env "GM3000_SKF_APP" = none := by
  constructor
  · intro h
    by_cases happ : getenv env "GM3000_SKF_APP" = none
    · exact .inr happ
    · have hlib := obliging_ready []
      have hname := h Unit _ .destroyKey .destroyKey (sm2Call _ k₁) (sm2Call _ k₂) () () _
        (destroyed_reached hlib happ _ ()) _ (destroyed_reached hlib happ _ ())
      rw [containerName_eq env (sm2Call _ k₁).keyRef_eq,
        containerName_eq env (sm2Call _ k₂).keyRef_eq] at hname
      exact .inl ((spelledAlike_iff env k₁ k₂).mpr hname)
  · rintro (halike | happ)
    · intro σ lib op₁ op₂ c₁ c₂ s₁ s₂ name₁ hname₁ name₂ hname₂
      rw [reached_name c₁ s₁ name₁ hname₁, reached_name c₂ s₂ name₂ hname₂,
        containerName_eq env c₁.keyRef_eq, containerName_eq env c₂.keyRef_eq]
      exact (spelledAlike_iff env k₁ k₂).mp halike
    · intro σ lib op₁ op₂ c₁ c₂ s₁ s₂ name₁ hname₁
      rw [unopened_reached happ c₁ s₁] at hname₁
      simp at hname₁

section Samples

/-- An internal key, referred to for one use. -/
def usedKey (uiUsage : UInt32) : UnifKeyRef := { keyOnA "k1" with uiUsage := uiUsage }

def usedRef (uiUsage : UInt32) : CStr maxFieldLen := store maxFieldLen (keyText (usedKey uiUsage))

/-- The environment of a token with an application and nothing else. -/
def appEnv : Env := fun name => if name = lit "GM3000_SKF_APP" then some (lit "app") else none

/-- A pair is generated under one use of the key, and another container is
destroyed under another use of it. -/
theorem other_container_destroyed :
    SameKey (usedRef 1).bytes (usedRef 2).bytes ∧
      reached appEnv (obliging (fun _ => true) []) (sm2Call .generateKeyPair (usedRef 1)) () =
        [(usedRef 1).bytes] ∧
      reached appEnv (obliging (fun _ => true) []) (sm2Call .destroyKey (usedRef 2)) () =
        [(usedRef 2).bytes] ∧
      ¬SameContainer appEnv (usedRef 1) (usedRef 2) := by
  refine ⟨⟨?_, ?_, ?_, ?_⟩, ?_, ?_, ?_⟩
  · decide
  · decide
  · decide
  · decide
  · decide +kernel
  · decide +kernel
  · rw [sameContainer_iff]
    decide

end Samples

end Ucisdk.KeyContainer
