import Ucisdk.Gm3000

/-!
# A library that does as it is asked

The library can be loaded, exports every symbol, finds a device and answers
every call with success. A handler that is asked for what it implements, with
inputs it can read and an application to open, then succeeds.
-/

set_option autoImplicit false

namespace Ucisdk.SkfReady

open Ucisdk.CString Ucisdk.Common Ucisdk.Protocol Ucisdk.Resource Ucisdk.Translator Ucisdk.Driver
open Ucisdk.SkfApi Ucisdk.SkfText Ucisdk.SkfSession Ucisdk.Gm3000
open Flow.Calls

/-- The answer of a function that did what it was called for. -/
def Succeeded : Call skf → Prop
  | ⟨.dlopen _, handle⟩ => handle ≠ 0
  | ⟨.dlerror, _⟩ => True
  | ⟨.dlsym _ _, address⟩ => address ≠ 0
  | ⟨.dlclose _, _⟩ => True
  | ⟨.calloc _, block⟩ => block ≠ 0
  | ⟨.free _, _⟩ => True
  | ⟨.enumDevLength, reply⟩ => reply.rv = sarOk ∧ reply.len ≠ 0
  | ⟨.enumDev _, reply⟩ => reply.rv = sarOk ∧ reply.out ≠ []
  | ⟨.connectDev _, reply⟩ => reply.rv = sarOk
  | ⟨.disConnectDev _, rv⟩ => rv = sarOk
  | ⟨.getDevInfo _, reply⟩ => reply.rv = sarOk
  | ⟨.genRandom _ _, reply⟩ => reply.rv = sarOk
  | ⟨.openApplication _ _, reply⟩ => reply.rv = sarOk
  | ⟨.closeApplication _, rv⟩ => rv = sarOk
  | ⟨.verifyPIN _ _, reply⟩ => reply.rv = sarOk
  | ⟨.deleteContainer _ _, rv⟩ => rv = sarOk
  | ⟨.openContainer _ _, reply⟩ => reply.rv = sarOk
  | ⟨.closeContainer _, rv⟩ => rv = sarOk
  | ⟨.genECCKeyPair _ _, reply⟩ => reply.rv = sarOk
  | ⟨.genRSAKeyPair _ _, reply⟩ => reply.rv = sarOk
  | ⟨.exportPublicKey _ _, reply⟩ => reply.rv = sarOk
  | ⟨.eccSignData _ _, reply⟩ => reply.rv = sarOk
  | ⟨.eccVerify _ _ _ _, rv⟩ => rv = sarOk
  | ⟨.rsaSignData _ _ _, reply⟩ => reply.rv = sarOk
  | ⟨.rsaVerify _ _ _ _, rv⟩ => rv = sarOk
  | ⟨.extECCEncrypt _ _ _, reply⟩ => reply.rv = sarOk
  | ⟨.eccDecrypt _ _ _ _, reply⟩ => reply.rv = sarOk
  | ⟨.extRSAPubKeyOperation _ _ _ _, reply⟩ => reply.rv = sarOk
  | ⟨.rsaDecrypt _ _ _ _, reply⟩ => reply.rv = sarOk
  | ⟨.setSymmKey _ _ _, reply⟩ => reply.rv = sarOk
  | ⟨.encryptInit _, rv⟩ => rv = sarOk
  | ⟨.encrypt _ _ _, reply⟩ => reply.rv = sarOk
  | ⟨.decryptInit _, rv⟩ => rv = sarOk
  | ⟨.decrypt _ _ _, reply⟩ => reply.rv = sarOk
  | ⟨.mac _ _ _, reply⟩ => reply.rv = sarOk
  | ⟨.digestInit _ _, reply⟩ => reply.rv = sarOk
  | ⟨.digest _ _ _, reply⟩ => reply.rv = sarOk
  | ⟨.closeHandle _, rv⟩ => rv = sarOk
  | ⟨.createFile _ _ _ _ _, rv⟩ => rv = sarOk
  | ⟨.deleteFile _ _, rv⟩ => rv = sarOk
  | ⟨.readFile _ _ _ _, reply⟩ => reply.rv = sarOk
  | ⟨.writeFile _ _ _ _, rv⟩ => rv = sarOk
  | ⟨.encapKyber _ _ _ _, reply⟩ => reply.rv = sarOk
  | ⟨.decapKyber _ _ _ _, reply⟩ => reply.rv = sarOk
  | ⟨.signDilithium _ _ _ _, reply⟩ => reply.rv = sarOk
  | ⟨.verifyDilithium _ _ _ _, rv⟩ => rv = sarOk

/-- Every call succeeds, in every state. -/
def Ready {σ : Type} (lib : Library σ) : Prop := ∀ op s, Succeeded ⟨op, (lib op s).1⟩

theorem obliging_ready (out : Bytes) : Ready (obliging (fun _ => true) out) := by
  intro op s
  cases op <;> simp [obliging, Succeeded, sarOk, show lit "token" ≠ [] by decide]

section Opening

variable {σ : Type} {env : Env} {lib : Library σ}

theorem ready_call (hlib : Ready lib) (op : SkfCall) :
    Yields (fun reply => Succeeded ⟨op, reply⟩) (call lib op) := hlib op

/-- A result, and not a failure. -/
def Fine {α : Type} (v : Status α) : Prop := v.isOk = true

theorem fine_error {α : Type} (err : Option ErrText) : ¬Fine (.error err : Status α) := by
  simp [Fine, Except.isOk, Except.toBool]

/-- A runtime with every symbol. -/
def Whole (v : Status Runtime) : Prop := ∃ rt, v = .ok rt ∧ ∀ sym, rt.found sym = true

theorem loadSymbol_ready (hlib : Ready lib) (handle : Ptr) (sym : SkfSymbol) (required : Bool) :
    Yields (fun v => v = .ok true) (loadSymbol lib handle sym required) := by
  refine yields_bind (yields_any _) fun _ _ => ?_
  refine yields_bind (ready_call hlib (.dlsym handle sym)) fun ptr hptr => ?_
  rw [if_neg hptr]
  exact yields_pure rfl

theorem loadSymbols_ready (hlib : Ready lib) (required : Bool) (syms : List SkfSymbol)
    (rt : Runtime) :
    Yields (fun v => ∃ rt', v = .ok rt' ∧
        ∀ sym, sym ∈ syms ∨ rt.found sym = true → rt'.found sym = true)
      (loadSymbols lib required syms rt) := by
  induction syms generalizing rt with
  | nil => exact yields_pure ⟨rt, rfl, fun sym h => h.resolve_left (by simp)⟩
  | cons sym syms ih =>
    refine yields_bind (loadSymbol_ready hlib rt.lib sym required) fun v hv => ?_
    subst hv
    intro s
    obtain ⟨rt', hrt', hfound⟩ := ih { rt with found := Function.update rt.found sym true } s
    refine ⟨rt', hrt', fun sym' h => hfound sym' ?_⟩
    by_cases hsym : sym' = sym
    · right
      rw [hsym]
      exact Function.update_self ..
    · cases h with
      | inl hmem => exact .inl ((List.mem_cons.mp hmem).resolve_left hsym)
      | inr hrt =>
        right
        rw [← hrt]
        exact Function.update_of_ne hsym ..

theorem openRuntime_ready (hlib : Ready lib) : Yields Whole (openRuntime env lib) := by
  refine yields_bind (ready_call hlib (.dlopen (libPath env))) fun handle hhandle => ?_
  rw [if_neg hhandle]
  refine yields_bind (loadSymbols_ready hlib true requiredSymbols ⟨handle, fun _ => false⟩) ?_
  rintro v ⟨rt, rfl, hrequired⟩ s
  obtain ⟨rt', hrt', hfound⟩ := loadSymbols_ready hlib false optionalSymbols rt s
  refine ⟨rt', hrt', fun sym => hfound sym ?_⟩
  have hall : sym ∈ optionalSymbols ∨ sym ∈ requiredSymbols := by cases sym <;> decide
  exact hall.imp_right fun hmem => hrequired sym (.inl hmem)

theorem enumFirstDevice_ready (hlib : Ready lib) : Yields Fine (enumFirstDevice lib) := by
  refine yields_bind (ready_call hlib .enumDevLength) ?_
  rintro first ⟨hrv, hlen⟩
  rw [if_neg (by simp [hrv, hlen])]
  refine yields_bind (ready_call hlib (.calloc (first.len.toNat + 1))) fun buf hbuf => ?_
  rw [if_neg hbuf]
  refine yields_bind (ready_call hlib (.enumDev first.len)) ?_
  rintro second ⟨hrv, hout⟩
  refine yields_bind (yields_any _) fun _ _ => ?_
  rw [if_neg (by simp [hrv, hout])]
  exact yields_pure rfl

theorem deviceName_ready (hlib : Ready lib) : Yields Fine (deviceName env lib) := by
  rw [deviceName]
  split
  · exact yields_pure rfl
  · exact enumFirstDevice_ready hlib

theorem openDevice_ready (hlib : Ready lib) :
    Yields (fun v => Fine v.2) (openDevice env lib) := by
  refine yields_bind (deviceName_ready hlib) fun v hv => ?_
  cases v with
  | error err => exact absurd hv (fine_error err)
  | ok name =>
    refine yields_bind (ready_call hlib (.connectDev name))
      fun opened (hrv : opened.rv = sarOk) => ?_
    rw [if_neg (not_not.mpr hrv)]
    exact yields_pure rfl

/-- A session over a runtime with every symbol. -/
def Open (v : Status (Runtime × Session)) : Prop :=
  ∃ rt sess, v = .ok (rt, sess) ∧ ∀ sym, rt.found sym = true

theorem openBase_ready (hlib : Ready lib) : Yields Open (openBase env lib) := by
  refine yields_bind (openRuntime_ready hlib) ?_
  rintro v ⟨rt, rfl, hfound⟩
  refine yields_bind (openDevice_ready hlib) ?_
  rintro ⟨sess, v⟩ hv
  cases v with
  | error err => exact absurd hv (fine_error err)
  | ok _ => exact yields_pure ⟨rt, sess, rfl, hfound⟩

theorem openApp_ready (hlib : Ready lib) (happ : getenv env "GM3000_SKF_APP" ≠ none)
    {rt : Runtime} (hrt : ∀ sym, rt.found sym = true) (sess : Session) :
    Yields (fun v => Fine v.2) (openApp env lib rt sess) := by
  rw [openApp, if_neg (by simp [hrt])]
  split
  · contradiction
  · refine yields_bind (ready_call hlib (.openApplication sess.dev _))
      fun opened (hrv : opened.rv = sarOk) => ?_
    rw [if_neg (not_not.mpr hrv)]
    exact yields_pure rfl

theorem verifyPin_ready (hlib : Ready lib) (sess : Session) (pin : Bytes) :
    Yields Fine (verifyPin lib sess pin) := by
  refine yields_bind (ready_call hlib (.verifyPIN sess.app pin))
    fun verified (hrv : verified.rv = sarOk) => ?_
  rw [if_neg (not_not.mpr hrv)]
  exact yields_pure rfl

theorem verifyPinIfSet_ready (hlib : Ready lib) {rt : Runtime} (hrt : ∀ sym, rt.found sym = true)
    (sess : Session) : Yields Fine (verifyPinIfSet env lib rt sess) := by
  rw [verifyPinIfSet]
  split
  · exact yields_pure rfl
  · rw [if_neg (by simp [hrt])]
    refine yields_bind (verifyPin_ready hlib sess _) fun v hv => ?_
    cases v with
    | error err => exact absurd hv (fine_error err)
    | ok retry => exact yields_pure rfl

theorem openContainer_ready (hlib : Ready lib) {rt : Runtime} (hrt : ∀ sym, rt.found sym = true)
    (sess : Session) (call : TranslatedCall) :
    Yields (fun v => Fine v.2) (openContainer env lib rt sess call) := by
  rw [openContainer, if_neg (by simp [hrt])]
  refine yields_bind (ready_call hlib (.openContainer sess.app (containerNameFromCall env call)))
    fun opened (hrv : opened.rv = sarOk) => ?_
  rw [if_neg (not_not.mpr hrv)]
  exact yields_pure rfl

theorem openAppContainer_ready (hlib : Ready lib) (happ : getenv env "GM3000_SKF_APP" ≠ none)
    (call : TranslatedCall) : Yields Open (openAppContainer env lib call) := by
  refine yields_bind (openBase_ready hlib) ?_
  rintro v ⟨rt, sess, rfl, hrt⟩
  refine yields_bind (openApp_ready hlib happ hrt sess) ?_
  rintro ⟨sess, v⟩ hv
  cases v with
  | error err => exact absurd hv (fine_error err)
  | ok _ =>
    refine yields_bind (verifyPinIfSet_ready hlib hrt sess) fun v hv => ?_
    cases v with
    | error err => exact absurd hv (fine_error err)
    | ok _ =>
      refine yields_bind (openContainer_ready hlib hrt sess call) ?_
      rintro ⟨sess, v⟩ hv
      cases v with
      | error err => exact absurd hv (fine_error err)
      | ok _ => exact yields_pure ⟨rt, sess, rfl, hrt⟩

/-- The end of a session keeps the result. -/
theorem finalize_yields {α : Type} {w : α → Prop} {rc : α} (hrc : w rc) (rt : Runtime)
    (sess : Session) : Yields w (finalizeErrorOrSuccess lib rc rt sess) := fun _ => hrc

end Opening

section Operations

variable {σ : Type} {env : Env} {lib : Library σ} {call : TranslatedCall} {rt : Runtime}

/-- What a handler has a branch for. -/
def implements (h : Gm3000Handler) (action : ApiAction) (algorithm : Bytes) : Bool :=
  let sm2OrRsa := algorithm = lit "sm2" || algorithm = lit "rsa"
  match h with
  | .deviceManage => action = .getDeviceInfo || action = .generateRandom
  | .keyManage =>
    onApp action || action = .exportPublicKey || action = .importKey ||
      action = .generateKeyPair && sm2OrRsa
  | .asymCrypto =>
    (action = .sign || action = .verify || action = .encrypt || action = .decrypt) && sm2OrRsa
  | .symCrypto => action = .encrypt || action = .decrypt || action = .mac
  | .hashOps => true
  | .fileOps =>
    action = .createFile || action = .readFile || action = .writeFile || action = .deleteFile
  | .pqcOps => action = .kemEncap || action = .kemDecap || action = .sign || action = .verify

/-- The environment names the application, and the PIN where it is asked for. -/
def Configured (env : Env) (h : Gm3000Handler) (action : ApiAction) : Prop :=
  match h with
  | .keyManage =>
    getenv env "GM3000_SKF_APP" ≠ none ∧
      (action = .getPrivateKeyAccess → getenv env "GM3000_SKF_PIN" ≠ none)
  | .asymCrypto => onDevice action = false → getenv env "GM3000_SKF_APP" ≠ none
  | .fileOps => getenv env "GM3000_SKF_APP" ≠ none
  | _ => True

/-- The two halves of `aux_payload` decode, as SM2 or as RSA wants them. -/
def pairReadable (call : TranslatedCall) : Bool :=
  match splitPair call.call.auxPayload.bytes with
  | none => false
  | some (pubHex, sigHex) =>
    if call.call.algorithm.bytes = lit "sm2" then
      (structFromHex pubHex eccPublicKeyBlobLen).isSome &&
        (structFromHex sigHex eccSignatureBlobLen).isSome
    else
      (structFromHex pubHex rsaPublicKeyBlobLen).isSome && (blobFromHex sigHex gm3000MaxIo).isSome

/-- What an operation takes from `aux_payload`, or from the payload, decodes. -/
def partReadable (call : TranslatedCall) : Bool :=
  match call.call.action with
  | .verify => pairReadable call
  | .encrypt =>
    (structFromHex call.call.auxPayload.bytes
      (if call.call.algorithm.bytes = lit "sm2" then eccPublicKeyBlobLen
        else rsaPublicKeyBlobLen)).isSome
  | .decrypt =>
    call.call.algorithm.bytes ≠ lit "sm2" ||
      (structFromHex call.call.payload.bytes eccCipherBlobLen).isSome
  | _ => true

def pqcReadable (call : TranslatedCall) : Bool :=
  match call.call.action with
  | .kemEncap => (structFromHex call.call.auxPayload.bytes kyberPublicKeyLen).isSome
  | .kemDecap => (structFromHex call.call.auxPayload.bytes kyberPrivateKeyLen).isSome
  | .sign => (structFromHex call.call.auxPayload.bytes dilithiumPrivateKeyLen).isSome
  | .verify => (dilithiumPair call).isOk
  | _ => true

def fileReadable (call : TranslatedCall) : Bool :=
  match call.call.action with
  | .createFile => (parseUlong call.call.payload.bytes 1024).isSome
  | .readFile => (readLen call).isOk
  | .writeFile => (inputToBytes call.call.payload.bytes gm3000MaxIo).isSome
  | _ => true

/-- The inputs are in the format that the handler reads. -/
def readable (env : Env) (h : Gm3000Handler) (call : TranslatedCall) : Bool :=
  let input := (inputToBytes call.call.payload.bytes gm3000MaxIo).isSome
  match h with
  | .deviceManage => call.call.action ≠ .generateRandom || (randomLen call).isOk
  | .keyManage => call.call.action ≠ .importKey || (importKeyBytes call).isSome
  | .asymCrypto => input && partReadable call
  | .symCrypto => (symInputs env call).isOk
  | .hashOps => input
  | .fileOps => fileName call ≠ [] && fileReadable call
  | .pqcOps => input && pqcReadable call

theorem perform_ready {α : Type} (hlib : Ready lib) {args : Status α} {op : α → SkfCall}
    {answer : (a : α) → (op a).Reply → Status Bytes} (hargs : Fine args)
    (hanswer : ∀ a reply, Succeeded ⟨op a, reply⟩ → Fine (answer a reply)) :
    Yields Fine (perform lib args op answer) := by
  cases args with
  | error err => exact absurd hargs (fine_error err)
  | ok a =>
    refine yields_bind (ready_call hlib (op a)) fun reply hreply => ?_
    exact yields_pure (hanswer a reply hreply)

theorem attempt_ready {α : Type} (hlib : Ready lib) (hrt : ∀ sym, rt.found sym = true)
    (sym : SkfSymbol) {args : Status α} {op : α → SkfCall}
    {answer : (a : α) → (op a).Reply → Status Bytes} (hargs : Fine args)
    (hanswer : ∀ a reply, Succeeded ⟨op a, reply⟩ → Fine (answer a reply)) :
    Yields Fine (attempt lib rt sym args op answer) := by
  rw [attempt, if_neg (by simp [hrt])]
  exact perform_ready hlib hargs hanswer

theorem answerStatus_fine (name : String) {rv : Ulong} (text : Bytes) (h : rv = sarOk) :
    Fine (answerStatus name rv text) := by
  rw [answerStatus, if_neg (not_not.mpr h)]
  rfl

theorem answerHex_fine (name : String) {reply : Output} (lead : Bytes) (outSz : ℕ)
    (h : reply.rv = sarOk) : Fine (answerHex name reply lead outSz) := by
  rw [answerHex, if_neg (not_not.mpr h)]
  rfl

theorem orFail_fine {α : Type} {value : Option α} {text : Bytes} (h : value.isSome = true) :
    Fine (orFail value text) := by
  cases value with
  | none => simp at h
  | some a => rfl

theorem pairFromHex_fine {pub sig : Option Bytes} {text : Bytes} (hpub : pub.isSome = true)
    (hsig : sig.isSome = true) : Fine (pairFromHex pub sig text) := by
  cases pub with
  | none => simp at hpub
  | some pub =>
    cases sig with
    | none => simp at hsig
    | some sig => rfl

theorem deviceOp_ready (hlib : Ready lib)
    (himpl : implements .deviceManage call.call.action call.call.algorithm.bytes = true)
    (hread : readable env .deviceManage call = true) (sess : Session) :
    Yields Fine (deviceOp lib sess call) := by
  rw [deviceOp]
  split
  · exact perform_ready hlib rfl fun _ _ h => answerStatus_fine _ _ h
  · rename_i haction
    have hlen : Fine (randomLen call) := by simpa [readable, haction, Fine] using hread
    exact perform_ready hlib hlen fun _ _ h => answerHex_fine _ _ _ h
  · simp_all [implements]

theorem keyAccess_ready (hlib : Ready lib) (hrt : ∀ sym, rt.found sym = true)
    (hpin : getenv env "GM3000_SKF_PIN" ≠ none) (sess : Session) :
    Yields Fine (keyAccess env lib rt sess) := by
  rw [keyAccess, if_neg (by simp [hrt])]
  split
  · contradiction
  · refine yields_bind (verifyPin_ready hlib sess _) fun v hv => ?_
    cases v with
    | error err => exact absurd hv (fine_error err)
    | ok retry => exact yields_pure rfl

theorem keyGeneratePair_ready (hlib : Ready lib) (hrt : ∀ sym, rt.found sym = true)
    (halg : sm2OrRsa call = true) (sess : Session) :
    Yields Fine (keyGeneratePair lib rt sess call) := by
  rw [keyGeneratePair]
  split
  · exact attempt_ready hlib hrt _ rfl fun _ _ h => answerHex_fine _ _ _ h
  · split
    · exact attempt_ready hlib hrt _ rfl fun _ _ h => answerHex_fine _ _ _ h
    · simp_all [sm2OrRsa]

theorem importKey_ready (hlib : Ready lib) (hrt : ∀ sym, rt.found sym = true)
    (hkey : (importKeyBytes call).isSome = true) (sess : Session) :
    Yields Fine (importKey lib rt sess call) := by
  rw [importKey, if_neg (by simp [hrt])]
  split
  · simp_all
  · rename_i key _
    refine yields_bind (ready_call hlib (.setSymmKey sess.dev key
      (orSm4Cbc (algToSkfId call.call.algorithm.bytes)))) fun opened (hrv : opened.rv = sarOk) => ?_
    rw [if_neg (not_not.mpr hrv)]
    exact yields_bind (yields_any _) fun _ _ => yields_pure rfl

theorem destroyKey_ready (hlib : Ready lib) (hrt : ∀ sym, rt.found sym = true) (sess : Session) :
    Yields Fine (destroyKey env lib rt sess call) := by
  refine attempt_ready hlib hrt _ rfl fun name rv (h : rv = sarOk) => ?_
  rw [if_neg (not_not.mpr h)]
  rfl

theorem keyOp_ready (hlib : Ready lib) (hrt : ∀ sym, rt.found sym = true)
    (himpl : implements .keyManage call.call.action call.call.algorithm.bytes = true)
    (hconf : Configured env .keyManage call.call.action)
    (hread : readable env .keyManage call = true) (sess : Session) :
    Yields Fine (keyOp env lib rt sess call) := by
  rw [keyOp]
  split
  · rename_i haction
    exact keyAccess_ready hlib hrt (hconf.2 haction) sess
  · exact yields_pure rfl
  · rename_i haction
    have halg : sm2OrRsa call = true := by
      simpa [implements, onApp, haction, sm2OrRsa] using himpl
    exact keyGeneratePair_ready hlib hrt halg sess
  · exact attempt_ready hlib hrt _ rfl fun _ _ h => answerHex_fine _ _ _ h
  · rename_i haction
    have hkey : (importKeyBytes call).isSome = true := by simpa [readable, haction] using hread
    exact importKey_ready hlib hrt hkey sess
  · exact destroyKey_ready hlib hrt sess
  · simp_all [implements, onApp]

theorem verifyOp_ready (hlib : Ready lib) (hrt : ∀ sym, rt.found sym = true)
    (halg : sm2OrRsa call = true) (hpair : pairReadable call = true) (sess : Session)
    (input : Bytes) : Yields Fine (verifyOp lib rt sess call input) := by
  rw [pairReadable] at hpair
  rw [verifyOp]
  cases hsplit : splitPair call.call.auxPayload.bytes with
  | none => simp [hsplit] at hpair
  | some halves =>
    simp only [hsplit] at hpair ⊢
    split at hpair
    · rename_i hsm2
      rw [Bool.and_eq_true] at hpair
      rw [if_pos hsm2]
      exact attempt_ready hlib hrt _ (pairFromHex_fine hpair.1 hpair.2)
        fun _ _ h => answerStatus_fine _ _ h
    · rename_i hsm2
      have hrsa : call.call.algorithm.bytes = lit "rsa" := by simpa [sm2OrRsa, hsm2] using halg
      rw [Bool.and_eq_true] at hpair
      rw [if_neg hsm2, if_pos hrsa]
      exact attempt_ready hlib hrt _ (pairFromHex_fine hpair.1 hpair.2)
        fun _ _ h => answerStatus_fine _ _ h

theorem signOp_ready (hlib : Ready lib) (hrt : ∀ sym, rt.found sym = true) (sess : Session)
    (input : Bytes) : Yields Fine (signOp lib rt sess call input) := by
  rw [signOp]
  split
  · exact attempt_ready hlib hrt _ rfl fun _ _ h => answerHex_fine _ _ _ h
  · exact attempt_ready hlib hrt _ rfl fun _ _ h => answerHex_fine _ _ _ h

theorem encryptOp_ready (hlib : Ready lib) (hrt : ∀ sym, rt.found sym = true)
    (hpub : (structFromHex call.call.auxPayload.bytes
      (if call.call.algorithm.bytes = lit "sm2" then eccPublicKeyBlobLen
        else rsaPublicKeyBlobLen)).isSome = true) (sess : Session) (input : Bytes) :
    Yields Fine (encryptOp lib rt sess call input) := by
  rw [encryptOp]
  split
  · rename_i hsm2
    rw [if_pos hsm2] at hpub
    exact attempt_ready hlib hrt _ (orFail_fine hpub) fun _ _ h => answerHex_fine _ _ _ h
  · rename_i hsm2
    rw [if_neg hsm2] at hpub
    exact attempt_ready hlib hrt _ (orFail_fine hpub) fun _ _ h => answerHex_fine _ _ _ h

theorem decryptOp_ready (hlib : Ready lib) (hrt : ∀ sym, rt.found sym = true)
    (hcipher : call.call.algorithm.bytes = lit "sm2" →
      (structFromHex call.call.payload.bytes eccCipherBlobLen).isSome = true) (sess : Session)
    (input : Bytes) : Yields Fine (decryptOp lib rt sess call input) := by
  rw [decryptOp]
  split
  · rename_i hsm2
    exact attempt_ready hlib hrt _ (orFail_fine (hcipher hsm2)) fun _ _ h => answerHex_fine _ _ _ h
  · exact attempt_ready hlib hrt _ rfl fun _ _ h => answerHex_fine _ _ _ h

theorem asymOp_ready (hlib : Ready lib) (hrt : ∀ sym, rt.found sym = true)
    (himpl : implements .asymCrypto call.call.action call.call.algorithm.bytes = true)
    (hread : partReadable call = true) (sess : Session) (input : Bytes) :
    Yields Fine (asymOp lib rt sess call input) := by
  rw [implements, Bool.and_eq_true] at himpl
  have halg : sm2OrRsa call = true := himpl.2
  rw [asymOp]
  split
  · rename_i haction
    exact verifyOp_ready hlib hrt halg (by simpa [partReadable, haction] using hread) sess input
  · split
    · exact signOp_ready hlib hrt sess input
    · split
      · rename_i haction
        exact encryptOp_ready hlib hrt (by simpa [partReadable, haction] using hread) sess input
      · split
        · rename_i haction
          refine decryptOp_ready hlib hrt (fun hsm2 => ?_) sess input
          simpa [partReadable, haction, hsm2] using hread
        · simp_all

theorem initThen_ready {init : Run σ Ulong} {op : Run σ Output} (hinit : Yields (· = sarOk) init)
    (hop : Yields (fun reply => reply.rv = sarOk) op) (name : String) (lead : Bytes) (outSz : ℕ) :
    Yields Fine (initThen init op name lead outSz) := by
  refine yields_bind hinit fun rv hrv => ?_
  rw [if_neg (not_not.mpr hrv)]
  exact yields_bind hop fun reply hreply => yields_pure (answerHex_fine _ _ _ hreply)

theorem symOp_ready (hlib : Ready lib) (hrt : ∀ sym, rt.found sym = true)
    (himpl : implements .symCrypto call.call.action call.call.algorithm.bytes = true) (hkey : Ptr)
    (input : Bytes) : Yields Fine (symOp lib rt hkey call input) := by
  rw [symOp]
  split
  · rw [if_neg (by simp [hrt])]
    exact initThen_ready (ready_call hlib (.encryptInit hkey))
      (ready_call hlib (.encrypt hkey input gm3000MaxIo)) _ _ _
  · rw [if_neg (by simp [hrt])]
    exact initThen_ready (ready_call hlib (.decryptInit hkey))
      (ready_call hlib (.decrypt hkey input gm3000MaxIo)) _ _ _
  · exact attempt_ready hlib hrt _ rfl fun _ _ h => answerHex_fine _ _ _ h
  · simp_all [implements]

theorem withHandle_ready {opened : Opened} (hrv : opened.rv = sarOk) (name : String)
    {op : Ptr → Run σ (Status Bytes)} (hop : ∀ handle, Yields Fine (op handle)) :
    Yields Fine (withHandle lib rt opened name op) := by
  rw [withHandle, if_neg (not_not.mpr hrv)]
  refine yields_bind (hop opened.handle) fun rc hrc => ?_
  exact yields_bind (yields_any _) fun _ _ => yields_pure hrc

theorem fileOp_ready (hlib : Ready lib) (hrt : ∀ sym, rt.found sym = true)
    (himpl : implements .fileOps call.call.action call.call.algorithm.bytes = true)
    (hread : fileReadable call = true) (sess : Session) :
    Yields Fine (fileOp lib rt sess call) := by
  rw [fileOp]
  split
  · rename_i haction
    have hsize : (parseUlong call.call.payload.bytes 1024).isSome = true := by
      simpa [fileReadable, haction] using hread
    exact attempt_ready hlib hrt _ (orFail_fine hsize) fun _ _ h => answerStatus_fine _ _ h
  · rename_i haction
    have hlen : Fine (readLen call) := by simpa [fileReadable, haction, Fine] using hread
    exact attempt_ready hlib hrt _ hlen fun _ _ h => answerHex_fine _ _ _ h
  · rename_i haction
    have hdata : (inputToBytes call.call.payload.bytes gm3000MaxIo).isSome = true := by
      simpa [fileReadable, haction] using hread
    exact attempt_ready hlib hrt _ (orFail_fine hdata) fun _ _ h => answerStatus_fine _ _ h
  · exact attempt_ready hlib hrt _ rfl fun _ _ h => answerStatus_fine _ _ h
  · simp_all [implements]

theorem pqcOp_ready (hlib : Ready lib) (hrt : ∀ sym, rt.found sym = true)
    (himpl : implements .pqcOps call.call.action call.call.algorithm.bytes = true)
    (hread : pqcReadable call = true) (sess : Session) (input : Bytes) :
    Yields Fine (pqcOp lib rt sess call input) := by
  rw [pqcReadable] at hread
  rw [pqcOp]
  split
  · rename_i haction
    simp only [haction] at hread
    refine attempt_ready hlib hrt _ (orFail_fine hread) fun _ reply (h : reply.rv = sarOk) => ?_
    rw [if_neg (not_not.mpr h)]
    rfl
  · rename_i haction
    simp only [haction] at hread
    exact attempt_ready hlib hrt _ (orFail_fine hread) fun _ _ h => answerHex_fine _ _ _ h
  · rename_i haction
    simp only [haction] at hread
    exact attempt_ready hlib hrt _ (orFail_fine hread) fun _ _ h => answerHex_fine _ _ _ h
  · rename_i haction
    simp only [haction] at hread
    exact attempt_ready hlib hrt _ hread fun _ _ h => answerStatus_fine _ _ h
  · simp_all [implements]

end Operations

section Handlers

variable {σ : Type} {env : Env} {lib : Library σ} {call : TranslatedCall}

/-- An operation on a session that was opened, and its end. -/
theorem session_ready {opening : Run σ (Status (Runtime × Session))}
    {op : Runtime → Session → Run σ (Status Bytes)} (hopen : Yields Open opening)
    (hop : ∀ rt sess, (∀ sym, rt.found sym = true) → Yields Fine (op rt sess)) :
    Yields Fine (do
      match ← opening with
      | .error err => pure (.error err)
      | .ok (rt, sess) =>
        let rc ← op rt sess
        finalizeErrorOrSuccess lib rc rt sess) := by
  refine yields_bind hopen ?_
  rintro v ⟨rt, sess, rfl, hrt⟩
  exact yields_bind (hop rt sess hrt) fun rc hrc => finalize_yields hrc rt sess

theorem appSession_ready (hlib : Ready lib) (happ : getenv env "GM3000_SKF_APP" ≠ none)
    {op : Runtime → Session → Run σ (Status Bytes)}
    (hop : ∀ rt sess, (∀ sym, rt.found sym = true) → Yields Fine (op rt sess)) :
    Yields Fine (do
      match ← openBase env lib with
      | .error err => pure (.error err)
      | .ok (rt, sess) =>
        match ← openApp env lib rt sess with
        | (sess, .error err) => finalizeErrorOrSuccess lib (.error err) rt sess
        | (sess, .ok ()) =>
          let rc ← op rt sess
          finalizeErrorOrSuccess lib rc rt sess) := by
  refine yields_bind (openBase_ready hlib) ?_
  rintro v ⟨rt, sess, rfl, hrt⟩
  refine yields_bind (openApp_ready hlib happ hrt sess) ?_
  rintro ⟨sess, v⟩ hv
  cases v with
  | error err => exact absurd hv (fine_error err)
  | ok _ => exact yields_bind (hop rt sess hrt) fun rc hrc => finalize_yields hrc rt sess

theorem keyManage_ready (hlib : Ready lib)
    (himpl : implements .keyManage call.call.action call.call.algorithm.bytes = true)
    (hconf : Configured env .keyManage call.call.action)
    (hread : readable env .keyManage call = true) :
    Yields Fine (gm3000KeyManage env lib call) := by
  rw [gm3000KeyManage]
  split
  · exact appSession_ready hlib hconf.1 fun rt sess hrt =>
      keyOp_ready hlib hrt himpl hconf hread sess
  · exact session_ready (openAppContainer_ready hlib hconf.1 call) fun rt sess hrt =>
      keyOp_ready hlib hrt himpl hconf hread sess

theorem asymCrypto_ready (hlib : Ready lib)
    (himpl : implements .asymCrypto call.call.action call.call.algorithm.bytes = true)
    (hconf : Configured env .asymCrypto call.call.action)
    (hread : readable env .asymCrypto call = true) :
    Yields Fine (gm3000AsymCrypto env lib call) := by
  have hopen : Yields Open (openForAsym env lib call) := by
    rw [openForAsym]
    split
    · exact openBase_ready hlib
    · rename_i hdevice
      exact openAppContainer_ready hlib (hconf (Bool.eq_false_iff.mpr hdevice)) call
  rw [readable, Bool.and_eq_true] at hread
  rw [gm3000AsymCrypto]
  split
  · simp_all
  · exact session_ready hopen fun rt sess hrt => asymOp_ready hlib hrt himpl hread.2 sess _

theorem symCrypto_ready (hlib : Ready lib)
    (himpl : implements .symCrypto call.call.action call.call.algorithm.bytes = true)
    (hread : readable env .symCrypto call = true) : Yields Fine (gm3000SymCrypto env lib call) := by
  rw [readable] at hread
  rw [gm3000SymCrypto]
  split
  · simp_all [Except.isOk, Except.toBool]
  · rename_i key input _
    refine yields_bind (openBase_ready hlib) ?_
    rintro v ⟨rt, sess, rfl, hrt⟩
    simp only
    rw [if_neg (by simp [hrt])]
    refine yields_bind (ready_call hlib (.setSymmKey sess.dev key
      (orSm4Cbc (algToSkfId call.call.algorithm.bytes)))) fun opened (hrv : opened.rv = sarOk) => ?_
    refine yields_bind (withHandle_ready hrv _ fun hkey => ?_) fun rc hrc =>
      finalize_yields hrc rt sess
    exact symOp_ready hlib hrt himpl hkey input

theorem hashOps_ready (hlib : Ready lib) (hread : readable env .hashOps call = true) :
    Yields Fine (gm3000HashOps env lib call) := by
  rw [readable] at hread
  rw [gm3000HashOps]
  split
  · simp_all
  · rename_i input _
    refine yields_bind (openBase_ready hlib) ?_
    rintro v ⟨rt, sess, rfl, hrt⟩
    simp only
    rw [if_neg (by simp [hrt])]
    refine yields_bind (ready_call hlib (.digestInit sess.dev
      (orSm3 (algToSkfId call.call.algorithm.bytes)))) fun opened (hrv : opened.rv = sarOk) => ?_
    refine yields_bind (withHandle_ready hrv _ fun hhash => ?_) fun rc hrc =>
      finalize_yields hrc rt sess
    exact yields_bind (ready_call hlib (.digest hhash input digestLen)) fun reply hreply =>
      yields_pure (answerHex_fine _ _ _ hreply)

theorem fileOps_ready (hlib : Ready lib)
    (himpl : implements .fileOps call.call.action call.call.algorithm.bytes = true)
    (hconf : Configured env .fileOps call.call.action)
    (hread : readable env .fileOps call = true) : Yields Fine (gm3000FileOps env lib call) := by
  rw [readable, Bool.and_eq_true, decide_eq_true_iff] at hread
  rw [gm3000FileOps, if_neg hread.1]
  exact appSession_ready hlib hconf fun rt sess hrt => fileOp_ready hlib hrt himpl hread.2 sess

theorem pqcOps_ready (hlib : Ready lib)
    (himpl : implements .pqcOps call.call.action call.call.algorithm.bytes = true)
    (hread : readable env .pqcOps call = true) : Yields Fine (gm3000PqcOps env lib call) := by
  rw [readable, Bool.and_eq_true] at hread
  rw [gm3000PqcOps]
  split
  · simp_all
  · exact session_ready (openBase_ready hlib) fun rt sess hrt =>
      pqcOp_ready hlib hrt himpl hread.2 sess _

/-- A handler that has what it needs succeeds. -/
theorem handler_ready (hlib : Ready lib) {h : Gm3000Handler}
    (himpl : implements h call.call.action call.call.algorithm.bytes = true)
    (hconf : Configured env h call.call.action) (hread : readable env h call = true) :
    Yields Fine (h.run env lib call) := by
  cases h with
  | deviceManage =>
    exact session_ready (openBase_ready hlib) fun _ sess _ => deviceOp_ready hlib himpl hread sess
  | keyManage => exact keyManage_ready hlib himpl hconf hread
  | asymCrypto => exact asymCrypto_ready hlib himpl hconf hread
  | symCrypto => exact symCrypto_ready hlib himpl hread
  | hashOps => exact hashOps_ready hlib hread
  | fileOps => exact fileOps_ready hlib himpl hconf hread
  | pqcOps => exact pqcOps_ready hlib himpl hread

end Handlers

section Refusals

variable {σ : Type} {env : Env} {lib : Library σ} {call : TranslatedCall}

/-- A failure, whatever the library does. -/
def Refused {α : Type} (v : Status α) : Prop := v.isOk = false

theorem refused_ok {α : Type} (a : α) : ¬Refused (.ok a : Status α) := by
  simp [Refused, Except.isOk, Except.toBool]

theorem not_fine {α : Type} {v : Status α} (h : Refused v) : ¬Fine v := by
  simp [Fine, Refused] at *
  exact h

theorem session_refused {opening : Run σ (Status (Runtime × Session))}
    {op : Runtime → Session → Run σ (Status Bytes)}
    (h : Yields Refused opening ∨ ∀ rt sess, Yields Refused (op rt sess)) :
    Yields Refused (do
      match ← opening with
      | .error err => pure (.error err)
      | .ok (rt, sess) =>
        let rc ← op rt sess
        finalizeErrorOrSuccess lib rc rt sess) := by
  rcases h with hopen | hop
  · refine yields_bind hopen fun v hv => ?_
    cases v with
    | error err => exact yields_pure rfl
    | ok opened => exact absurd hv (refused_ok opened)
  · refine yields_bind (yields_any _) fun v _ => ?_
    cases v with
    | error err => exact yields_pure rfl
    | ok opened =>
      exact yields_bind (hop opened.1 opened.2) fun rc hrc =>
        finalize_yields hrc opened.1 opened.2

theorem openApp_refused (happ : getenv env "GM3000_SKF_APP" = none) (rt : Runtime)
    (sess : Session) : Yields (fun v => Refused v.2) (openApp env lib rt sess) := by
  rw [openApp, happ]
  split
  · exact yields_pure rfl
  · exact yields_pure rfl

theorem appSession_refused {op : Runtime → Session → Run σ (Status Bytes)}
    (h : getenv env "GM3000_SKF_APP" = none ∨ ∀ rt sess, Yields Refused (op rt sess)) :
    Yields Refused (do
      match ← openBase env lib with
      | .error err => pure (.error err)
      | .ok (rt, sess) =>
        match ← openApp env lib rt sess with
        | (sess, .error err) => finalizeErrorOrSuccess lib (.error err) rt sess
        | (sess, .ok ()) =>
          let rc ← op rt sess
          finalizeErrorOrSuccess lib rc rt sess) := by
  refine yields_bind (yields_any _) fun v _ => ?_
  cases v with
  | error err => exact yields_pure rfl
  | ok opened =>
    rcases h with happ | hop
    · refine yields_bind (openApp_refused happ opened.1 opened.2) ?_
      rintro ⟨sess, v⟩ hv
      cases v with
      | error err => exact finalize_yields (by rfl) opened.1 sess
      | ok opened => exact absurd hv (refused_ok opened)
    · refine yields_bind (yields_any _) ?_
      rintro ⟨sess, v⟩ _
      cases v with
      | error err => exact finalize_yields (by rfl) opened.1 sess
      | ok _ =>
        exact yields_bind (hop opened.1 sess) fun rc hrc => finalize_yields hrc opened.1 sess

theorem openAppContainer_refused (happ : getenv env "GM3000_SKF_APP" = none)
    (call : TranslatedCall) : Yields Refused (openAppContainer env lib call) := by
  refine yields_bind (yields_any _) fun v _ => ?_
  cases v with
  | error err => exact yields_pure rfl
  | ok opened =>
    refine yields_bind (openApp_refused happ opened.1 opened.2) ?_
    rintro ⟨sess, v⟩ hv
    cases v with
    | error err => exact finalize_yields (by rfl) opened.1 sess
    | ok opened => exact absurd hv (refused_ok opened)

/-- The operations of a key that no environment or no function is there for. -/
theorem keyOp_refused
    (h : call.call.action = .getPrivateKeyAccess ∧ getenv env "GM3000_SKF_PIN" = none ∨
      call.call.action = .generateKeyPair ∧ sm2OrRsa call = false)
    (rt : Runtime) (sess : Session) : Yields Refused (keyOp env lib rt sess call) := by
  rw [keyOp]
  rcases h with ⟨haction, hpin⟩ | ⟨haction, halg⟩
  · rw [haction]
    simp only
    rw [keyAccess, hpin]
    split
    · exact yields_pure rfl
    · exact yields_pure rfl
  · rw [sm2OrRsa, Bool.or_eq_false_iff, decide_eq_false_iff_not, decide_eq_false_iff_not] at halg
    rw [haction]
    simp only
    rw [keyGeneratePair, if_neg halg.1, if_neg halg.2]
    exact yields_pure rfl

theorem keyManage_refused
    (h : getenv env "GM3000_SKF_APP" = none ∨
      call.call.action = .getPrivateKeyAccess ∧ getenv env "GM3000_SKF_PIN" = none ∨
      call.call.action = .generateKeyPair ∧ sm2OrRsa call = false) :
    Yields Refused (gm3000KeyManage env lib call) := by
  rw [gm3000KeyManage]
  split
  · exact appSession_refused (h.imp_right keyOp_refused)
  · exact session_refused
      (h.imp (fun happ => openAppContainer_refused happ call) keyOp_refused)

/-- A handler that lacks what its environment has to name fails. -/
theorem handler_unconfigured {h : Gm3000Handler} (hconf : ¬Configured env h call.call.action) :
    Yields Refused (h.run env lib call) := by
  cases h with
  | keyManage =>
    rw [Configured, not_and_or, not_not, Classical.not_imp, not_not] at hconf
    exact keyManage_refused (hconf.imp_right Or.inl)
  | asymCrypto =>
    rw [Configured, Classical.not_imp, not_not] at hconf
    have hopen : Yields Refused (openForAsym env lib call) := by
      rw [openForAsym, if_neg (by simp [hconf.1])]
      exact openAppContainer_refused hconf.2 call
    show Yields Refused (gm3000AsymCrypto env lib call)
    rw [gm3000AsymCrypto]
    split
    · exact yields_pure rfl
    · exact session_refused (.inl hopen)
  | fileOps =>
    rw [Configured, not_not] at hconf
    show Yields Refused (gm3000FileOps env lib call)
    rw [gm3000FileOps]
    split
    · exact yields_pure rfl
    · exact appSession_refused (.inl hconf)
  | _ => exact absurd trivial hconf

end Refusals

end Ucisdk.SkfReady
