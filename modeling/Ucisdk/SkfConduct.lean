import Ucisdk.Gm3000

/-!
# What a handler names and what it reports

Whatever the library replies, a handler opens and deletes only the container
of its own call, and where it fails it has left one of the texts below in
errbuf. The one branch that leaves none is a verification with an algorithm
that no rule of the translation lets through, and the one text that quotes
the payload is that of a random length.
-/

set_option autoImplicit false

namespace Ucisdk.SkfConduct

open Ucisdk.CString Ucisdk.Common Ucisdk.Protocol Ucisdk.Resource Ucisdk.Translator Ucisdk.Driver
open Ucisdk.SkfApi Ucisdk.SkfText Ucisdk.SkfSession Ucisdk.Gm3000
open Flow.Calls

section Texts

/-- The texts of the adapter without a part that is filled in. -/
def fixedTexts : List String :=
  ["out of memory enumerating SKF devices",
    "GM3000_SKF_APP is required for this operation",
    "GM3000_SKF_PIN is required for get_private_key_access",
    "import_key requires key bytes in payload or aux_payload",
    "invalid asym input payload",
    "verify requires aux_payload pubkey_hex|signature_hex",
    "invalid SM2 public key or signature hex",
    "invalid RSA public key or signature hex",
    "SM2 encrypt requires public key hex in aux_payload",
    "RSA encrypt requires public key hex in aux_payload",
    "SM2 decrypt requires cipher hex payload",
    "sym operation requires key bytes in aux_payload or GM3000_SKF_SYM_KEY",
    "invalid sym input payload",
    "invalid hash input payload",
    "file operation requires key_ref as file name",
    "create_file payload must be file size",
    "write_file payload too large or invalid hex",
    "invalid pqc input payload",
    "KEM encap requires KyberPublicKey hex in aux_payload",
    "KEM decap requires KyberPrivateKey hex in aux_payload",
    "Dilithium sign requires private key hex in aux_payload",
    "Dilithium verify requires aux_payload pubkey_hex|signature_hex",
    "invalid Dilithium public key or signature hex"]

/-- What is missing where it is not the name of one symbol. -/
def absentTexts : List String :=
  ["SKF_EncryptInit/SKF_Encrypt", "SKF_DecryptInit/SKF_Decrypt", "SKF_DigestInit/SKF_Digest",
    "PQC key-pair function for requested algorithm"]

/-- What a call on `container` that fails may leave in errbuf. The payload and
`aux_payload` are not among the arguments. -/
inductive Phrase (env : Env) (container : Bytes) (action : ApiAction) (algorithm : Bytes) :
    Bytes → Prop where
  | fixed {text : String} (h : text ∈ fixedTexts) :
    Phrase env container action algorithm (lit text)
  | symbol (sym : SkfSymbol) (msg : Bytes) :
    Phrase env container action algorithm
      (lit "missing SKF symbol " ++ lit sym.name ++ lit ": " ++ msg)
  | library (msg : Bytes) :
    Phrase env container action algorithm (lit "dlopen " ++ libPath env ++ lit " failed: " ++ msg)
  | absent (sym : SkfSymbol) :
    Phrase env container action algorithm
      (lit "GM3000 SKF library does not export required symbol " ++ lit sym.name)
  | absentOf {names : String} (h : names ∈ absentTexts) :
    Phrase env container action algorithm
      (lit "GM3000 SKF library does not export required symbol " ++ lit names)
  | enumeration (rv len : Ulong) :
    Phrase env container action algorithm (lit "SKF_EnumDev length failed rv=0x" ++ hexUpper rv ++
      lit " len=" ++ decimal len.toNat)
  | failed (sym : SkfSymbol) (rv : Ulong) :
    Phrase env container action algorithm (lit sym.name ++ lit " failed rv=0x" ++ hexUpper rv)
  | importFailed (rv : Ulong) :
    Phrase env container action algorithm
      (lit "SKF_SetSymmKey(import)" ++ lit " failed rv=0x" ++ hexUpper rv)
  | connectFailed (name : Bytes) (rv : Ulong) :
    Phrase env container action algorithm
      (lit "SKF_ConnectDev(" ++ name ++ lit ")" ++ lit " failed rv=0x" ++ hexUpper rv)
  | applicationFailed {name : Bytes} (h : getenv env "GM3000_SKF_APP" = some name) (rv : Ulong) :
    Phrase env container action algorithm
      (lit "SKF_OpenApplication(" ++ name ++ lit ")" ++ lit " failed rv=0x" ++ hexUpper rv)
  | containerFailed (rv : Ulong) :
    Phrase env container action algorithm
      (lit "SKF_OpenContainer(" ++ container ++ lit ")" ++ lit " failed rv=0x" ++ hexUpper rv)
  | destroyFailed (rv : Ulong) :
    Phrase env container action algorithm
      (lit "SKF_DeleteContainer(" ++ container ++ lit ")" ++ lit " failed rv=0x" ++ hexUpper rv)
  | pin (rv retry : Ulong) :
    Phrase env container action algorithm (lit "SKF_VerifyPIN failed rv=0x" ++ hexUpper rv ++
      lit " retry=" ++ decimal retry.toNat)
  | unsupported {what : String} (h : what ∈ ["device", "key", "sym", "file", "pqc"]) :
    Phrase env container action algorithm
      (lit "unsupported gm3000 " ++ lit what ++ lit " action=" ++ actionToString action)
  | unsupportedAsym :
    Phrase env container action algorithm
      (lit "unsupported gm3000 asym action=" ++ actionToString action ++ lit " alg=" ++ algorithm)
  | readLength :
    Phrase env container action algorithm
      (lit "read_file payload must be length <= " ++ decimal gm3000MaxIo)

abbrev PhraseOf (env : Env) (call : TranslatedCall) : Bytes → Prop :=
  Phrase env (containerNameFromCall env call) call.call.action call.call.algorithm.bytes

theorem phrase_ne_nil {env : Env} {container algorithm text : Bytes} {action : ApiAction}
    (h : Phrase env container action algorithm text) : text ≠ [] := by
  cases h with
  | fixed h =>
    rw [ne_eq, lit_eq_nil_iff]
    rintro rfl
    revert h
    decide
  | failed sym rv => cases sym <;> simp [SkfSymbol.name, lit_eq_nil_iff]
  | _ => simp [lit_eq_nil_iff]

/-- The text that shows the payload it could not read as a length. -/
def QuotesPayload (action : ApiAction) (payload text : Bytes) : Prop :=
  action = .generateRandom ∧ text = lit "invalid random length payload=" ++ payload

theorem quotes_ne_nil {action : ApiAction} {payload text : Bytes}
    (h : QuotesPayload action payload text) : text ≠ [] := by
  rw [h.2]
  simp [lit_eq_nil_iff]

end Texts

section Rules

variable {σ α β : Type} {env : Env} {lib : Library σ} {call : TranslatedCall}
  {allowed : SkfCall → Prop} {p : Bytes → Prop}

/-- The name of a container that is opened or deleted meets `p`. -/
def Named (p : Bytes → Prop) : SkfCall → Prop
  | .openContainer _ name => p name
  | .deleteContainer _ name => p name
  | _ => True

/-- A failure comes with a text that is not empty. -/
def Written : Status α → Prop
  | .ok _ => True
  | .error err => ∃ msg, err = some msg ∧ msg.bytes ≠ []

/-- A failure comes with one of the texts above. -/
def Tells (env : Env) (call : TranslatedCall) : Status α → Prop
  | .ok _ => True
  | .error err => ∃ text, err = some (store errbufLen text) ∧
      (PhraseOf env call text ∨ QuotesPayload call.call.action call.call.payload.bytes text)

theorem fail_tells {text : Bytes} (h : PhraseOf env call text) :
    Tells env call (fail text : Status α) := ⟨text, rfl, .inl h⟩

/-- The containers of a part of a program meet `p`, its values meet `w`. -/
abbrev Conducts (p : Bytes → Prop) (w : α → Prop) (act : Run σ α) : Prop :=
  Keeps (Named p) w act

/-- A part of a program whose value says nothing about a failure. -/
abbrev Acts (p : Bytes → Prop) (act : Run σ α) : Prop := Conducts p (fun _ => True) act

/-- The calls that open the token and its application, and those that close. -/
def upkeep : SkfCall → Bool
  | .dlopen _ | .dlerror | .dlsym _ _ | .dlclose _ | .calloc _ | .free _ => true
  | .enumDevLength | .enumDev _ | .connectDev _ | .disConnectDev _ => true
  | .openApplication _ _ | .closeApplication _ | .verifyPIN _ _ => true
  | .closeContainer _ | .closeHandle _ => true
  | _ => false

/-- What is allowed includes all upkeep. -/
class Admits (allowed : SkfCall → Prop) : Prop where
  admits : ∀ op, upkeep op = true → allowed op

theorem admitted [Admits allowed] {op : SkfCall} (h : upkeep op = true) : allowed op :=
  Admits.admits op h

instance : Admits (Named p) where
  admits op h := by
    cases op <;> trivial

theorem acts_pure (a : α) : Keeps allowed (fun _ => True) (pure a : Run σ α) := keeps_pure trivial

theorem acts_call {op : SkfCall} (h : allowed op) :
    Keeps allowed (fun _ => True) (Flow.Calls.call lib op) :=
  keeps_call h fun _ => trivial

theorem conducts_after {act : Run σ α} {next : α → Run σ β} {w : β → Prop}
    (hact : Keeps allowed (fun _ => True) act) (hnext : ∀ a, Keeps allowed w (next a)) :
    Keeps allowed w (act >>= next) :=
  keeps_bind hact fun a _ => hnext a

/-- A failure is handed on as it is. -/
theorem tells_error {err : Option ErrText} (h : Tells env call (.error err : Status α)) :
    Tells env call (.error err : Status β) := by
  obtain ⟨text, herr, htext⟩ := h
  exact ⟨text, herr, htext⟩

theorem answerStatus_tells (sym : SkfSymbol) (rv : Ulong) (text : Bytes) :
    Tells env call (answerStatus sym.name rv text) := by
  rw [answerStatus]
  split
  · exact fail_tells (.failed sym rv)
  · trivial

theorem answerHex_tells (sym : SkfSymbol) (reply : Output) (lead : Bytes) (outSz : ℕ) :
    Tells env call (answerHex sym.name reply lead outSz) := by
  rw [answerHex]
  split
  · exact fail_tells (.failed sym reply.rv)
  · trivial

theorem orFail_tells (value : Option α) {text : String} (h : text ∈ fixedTexts) :
    Tells env call (orFail value (lit text)) := by
  cases value with
  | none => exact fail_tells (.fixed h)
  | some a => trivial

theorem pairFromHex_tells (pub sig : Option Bytes) {text : String} (h : text ∈ fixedTexts) :
    Tells env call (pairFromHex pub sig (lit text)) := by
  rw [pairFromHex.eq_def]
  split
  · trivial
  · exact fail_tells (.fixed h)

theorem conducts_perform {args : Status α} {op : α → SkfCall}
    {answer : (a : α) → (op a).Reply → Status Bytes} (hargs : Tells env call args)
    (hallowed : ∀ a, args = .ok a → allowed (op a))
    (hanswer : ∀ a reply, Tells env call (answer a reply)) :
    Keeps allowed (Tells env call) (perform lib args op answer) := by
  cases args with
  | error err => exact keeps_pure (tells_error hargs)
  | ok a =>
    apply conducts_after (acts_call (hallowed a rfl))
    intro reply
    exact keeps_pure (hanswer a reply)

theorem conducts_attempt {rt : Runtime} {sym : SkfSymbol} {args : Status α} {op : α → SkfCall}
    {answer : (a : α) → (op a).Reply → Status Bytes} (hargs : Tells env call args)
    (hallowed : ∀ a, args = .ok a → allowed (op a))
    (hanswer : ∀ a reply, Tells env call (answer a reply)) :
    Keeps allowed (Tells env call) (attempt lib rt sym args op answer) := by
  rw [attempt]
  split
  · exact keeps_pure (fail_tells (.absent sym))
  · exact conducts_perform hargs hallowed hanswer

theorem closeIf_acts (handle : Ptr) (found : Bool) (op : Ptr → SkfCall)
    (h : allowed (op handle)) : Keeps allowed (fun _ => True) (closeIf lib handle found op) := by
  rw [closeIf]
  split
  · exact conducts_after (acts_call h) fun _ => acts_pure _
  · exact acts_pure _

end Rules

section Sessions

variable {σ : Type} {env : Env} {lib : Library σ} {call : TranslatedCall}
  {allowed : SkfCall → Prop} [Admits allowed] {p : Bytes → Prop}

theorem lastDlError_acts : Keeps allowed (fun _ => True) (lastDlError lib) := by
  refine conducts_after (acts_call (admitted (by rfl))) fun msg => ?_
  exact acts_pure _

theorem loadSymbol_conducts (handle : Ptr) (sym : SkfSymbol) (required : Bool) :
    Keeps allowed (Tells env call) (loadSymbol lib handle sym required) := by
  refine conducts_after (acts_call (admitted (by rfl))) fun _ => ?_
  refine conducts_after (acts_call (admitted (by rfl))) fun ptr => ?_
  split
  · split
    · apply conducts_after lastDlError_acts
      intro msg
      exact keeps_pure (fail_tells (.symbol sym msg))
    · exact keeps_pure trivial
  · exact keeps_pure trivial

theorem loadSymbols_conducts (required : Bool) (syms : List SkfSymbol) (rt : Runtime) :
    Keeps allowed (Tells env call) (loadSymbols lib required syms rt) := by
  induction syms generalizing rt with
  | nil => exact keeps_pure trivial
  | cons sym syms ih =>
    apply keeps_bind (loadSymbol_conducts rt.lib sym required)
    intro v hv
    cases v with
    | error err => exact keeps_pure (tells_error hv)
    | ok ptr => exact ih _

theorem openRuntime_conducts : Keeps allowed (Tells env call) (openRuntime env lib) := by
  refine conducts_after (acts_call (admitted (by rfl))) fun handle => ?_
  split
  · apply conducts_after lastDlError_acts
    intro msg
    exact keeps_pure (fail_tells (.library msg))
  · apply keeps_bind (loadSymbols_conducts true requiredSymbols _)
    intro v hv
    cases v with
    | error err => exact keeps_pure (tells_error hv)
    | ok rt => exact loadSymbols_conducts false optionalSymbols rt

theorem closeRuntime_acts (rt : Runtime) : Keeps allowed (fun _ => True) (closeRuntime lib rt) := by
  rw [closeRuntime]
  split
  · exact acts_call (admitted rfl)
  · exact acts_pure _

theorem enumFirstDevice_conducts : Keeps allowed (Tells env call) (enumFirstDevice lib) := by
  refine conducts_after (acts_call (admitted (by rfl))) fun first => ?_
  split
  · exact keeps_pure (fail_tells (.enumeration _ _))
  · refine conducts_after (acts_call (admitted (by rfl))) fun buf => ?_
    split
    · exact keeps_pure (fail_tells (.fixed (by decide)))
    · refine conducts_after (acts_call (admitted (by rfl))) fun second => ?_
      refine conducts_after (acts_call (admitted (by rfl))) fun _ => ?_
      split
      · exact keeps_pure (fail_tells (.failed .enumDev _))
      · exact keeps_pure trivial

theorem deviceName_conducts : Keeps allowed (Tells env call) (deviceName env lib) := by
  rw [deviceName]
  split
  · exact keeps_pure trivial
  · exact enumFirstDevice_conducts

theorem openDevice_conducts :
    Keeps allowed (fun v => Tells env call v.2) (openDevice env lib) := by
  apply keeps_bind deviceName_conducts
  intro v hv
  cases v with
  | error err => exact keeps_pure (tells_error hv)
  | ok name =>
    refine conducts_after (acts_call (admitted (by rfl))) fun opened => ?_
    split
    · exact keeps_pure (fail_tells (.connectFailed _ _))
    · exact keeps_pure trivial

theorem openApp_conducts (rt : Runtime) (sess : Session) :
    Keeps allowed (fun v => Tells env call v.2) (openApp env lib rt sess) := by
  rw [openApp]
  split
  · exact keeps_pure (fail_tells (.absent .openApplication))
  · split
    · exact keeps_pure (fail_tells (.fixed (by decide)))
    · rename_i name happ
      refine conducts_after (acts_call (admitted (by rfl))) fun opened => ?_
      split
      · exact keeps_pure (fail_tells (.applicationFailed happ _))
      · exact keeps_pure trivial

theorem openContainer_conducts (hp : p (containerNameFromCall env call)) (rt : Runtime)
    (sess : Session) :
    Conducts p (fun v => Tells env call v.2) (openContainer env lib rt sess call) := by
  rw [openContainer]
  split
  · exact keeps_pure (fail_tells (.absent .openContainer))
  · refine conducts_after (acts_call hp) fun opened => ?_
    split
    · exact keeps_pure (fail_tells (.containerFailed _))
    · exact keeps_pure trivial

theorem verifyPin_conducts (sess : Session) (pin : Bytes) :
    Keeps allowed (Tells env call) (verifyPin lib sess pin) := by
  refine conducts_after (acts_call (admitted (by rfl))) fun verified => ?_
  split
  · exact keeps_pure (fail_tells (.pin _ _))
  · exact keeps_pure trivial

theorem verifyPinIfSet_conducts (rt : Runtime) (sess : Session) :
    Keeps allowed (Tells env call) (verifyPinIfSet env lib rt sess) := by
  rw [verifyPinIfSet]
  split
  · exact keeps_pure trivial
  · split
    · exact keeps_pure (fail_tells (.absent .verifyPIN))
    · apply keeps_bind (verifyPin_conducts sess _)
      intro v hv
      cases v with
      | error err => exact keeps_pure (tells_error hv)
      | ok retry => exact keeps_pure trivial

theorem closeSession_acts (rt : Runtime) (sess : Session) :
    Keeps allowed (fun _ => True) (closeSession lib rt sess) := by
  apply conducts_after (closeIf_acts sess.container _ .closeContainer (admitted rfl))
  intro _
  apply conducts_after (closeIf_acts sess.app _ .closeApplication (admitted rfl))
  intro _
  exact closeIf_acts sess.dev true .disConnectDev (admitted rfl)

theorem finalize_conducts {α : Type} {w : α → Prop} {rc : α} (hrc : w rc) (rt : Runtime)
    (sess : Session) : Keeps allowed w (finalizeErrorOrSuccess lib rc rt sess) := by
  apply conducts_after (closeSession_acts rt sess)
  intro _
  apply conducts_after (closeRuntime_acts rt)
  intro _
  exact keeps_pure hrc

theorem openBase_conducts : Keeps allowed (Tells env call) (openBase env lib) := by
  apply keeps_bind openRuntime_conducts
  intro v hv
  cases v with
  | error err => exact keeps_pure (tells_error hv)
  | ok rt =>
    apply keeps_bind openDevice_conducts
    rintro ⟨sess, v⟩ hv
    cases v with
    | error err =>
      apply conducts_after (closeRuntime_acts rt)
      intro _
      exact keeps_pure (tells_error hv)
    | ok _ => exact keeps_pure trivial

theorem openAppContainer_conducts (hp : p (containerNameFromCall env call)) :
    Conducts p (Tells env call) (openAppContainer env lib call) := by
  apply keeps_bind openBase_conducts
  intro v hv
  cases v with
  | error err => exact keeps_pure (tells_error hv)
  | ok opened =>
    obtain ⟨rt, sess⟩ := opened
    apply keeps_bind (openApp_conducts rt sess)
    rintro ⟨sess, v⟩ hv
    cases v with
    | error err => exact finalize_conducts (tells_error hv) rt sess
    | ok _ =>
      apply keeps_bind (verifyPinIfSet_conducts rt sess)
      intro v hv
      cases v with
      | error err => exact finalize_conducts (tells_error hv) rt sess
      | ok _ =>
        apply keeps_bind (openContainer_conducts hp rt sess)
        rintro ⟨sess, v⟩ hv
        cases v with
        | error err => exact finalize_conducts (tells_error hv) rt sess
        | ok _ => exact keeps_pure trivial

end Sessions

section Operations

variable {σ : Type} {env : Env} {lib : Library σ} {call : TranslatedCall}
  {allowed : SkfCall → Prop} {p : Bytes → Prop}

/-- The branch without a text: a verification of neither SM2 nor RSA. -/
def VerifiesKnown (call : TranslatedCall) : Prop :=
  call.call.action = .verify → sm2OrRsa call = true

theorem randomLen_tells (haction : call.call.action = .generateRandom) :
    Tells env call (randomLen call) := by
  rw [randomLen]
  split
  · exact ⟨_, rfl, .inr ⟨haction, rfl⟩⟩
  · split
    · exact ⟨_, rfl, .inr ⟨haction, rfl⟩⟩
    · trivial

theorem deviceOp_conducts (sess : Session) (hinfo : allowed (.getDevInfo sess.dev))
    (hrandom : ∀ len, randomLen call = .ok len → allowed (.genRandom sess.dev len)) :
    Keeps allowed (Tells env call) (deviceOp lib sess call) := by
  rw [deviceOp]
  split
  · exact conducts_perform trivial (fun _ _ => hinfo)
      fun _ info => answerStatus_tells .getDevInfo _ _
  · rename_i haction
    exact conducts_perform (randomLen_tells haction) hrandom
      fun _ reply => answerHex_tells .genRandom _ _ _
  · exact keeps_pure (fail_tells (.unsupported (by decide)))

theorem keyAccess_conducts (rt : Runtime) (sess : Session) :
    Conducts p (Tells env call) (keyAccess env lib rt sess) := by
  rw [keyAccess]
  split
  · exact keeps_pure (fail_tells (.absent .verifyPIN))
  · split
    · exact keeps_pure (fail_tells (.fixed (by decide)))
    · apply keeps_bind (verifyPin_conducts sess _)
      intro v hv
      cases v with
      | error err => exact keeps_pure (tells_error hv)
      | ok retry => exact keeps_pure trivial

theorem keyGeneratePair_conducts (rt : Runtime) (sess : Session) :
    Conducts p (Tells env call) (keyGeneratePair lib rt sess call) := by
  rw [keyGeneratePair]
  split
  · exact conducts_attempt trivial (fun _ _ => trivial)
      fun _ _ => answerHex_tells .genECCKeyPair _ _ _
  · split
    · exact conducts_attempt trivial (fun _ _ => trivial)
        fun _ _ => answerHex_tells .genRSAKeyPair _ _ _
    · exact keeps_pure (fail_tells (.absentOf (by decide)))

theorem importKey_conducts (rt : Runtime) (sess : Session) :
    Conducts p (Tells env call) (importKey lib rt sess call) := by
  rw [importKey]
  split
  · exact keeps_pure (fail_tells (.absent .setSymmKey))
  · split
    · exact keeps_pure (fail_tells (.fixed (by decide)))
    · refine conducts_after (acts_call (by trivial)) fun opened => ?_
      split
      · exact keeps_pure (fail_tells (.importFailed _))
      · apply conducts_after (closeIf_acts opened.handle _ .closeHandle trivial)
        intro _
        exact keeps_pure trivial

theorem destroyKey_conducts (hp : p (containerNameFromCall env call)) (rt : Runtime)
    (sess : Session) :
    Conducts p (Tells env call) (destroyKey env lib rt sess call) := by
  rw [destroyKey, attempt]
  split
  · exact keeps_pure (fail_tells (.absent .deleteContainer))
  · refine conducts_after (acts_call hp) fun rv => ?_
    apply keeps_pure
    beta_reduce
    split
    · exact fail_tells (.destroyFailed _)
    · trivial

theorem keyOp_conducts (hp : p (containerNameFromCall env call)) (rt : Runtime) (sess : Session) :
    Conducts p (Tells env call) (keyOp env lib rt sess call) := by
  rw [keyOp]
  split
  · exact keyAccess_conducts rt sess
  · exact keeps_pure trivial
  · exact keyGeneratePair_conducts rt sess
  · exact conducts_attempt trivial (fun _ _ => trivial)
      fun _ _ => answerHex_tells .exportPublicKey _ _ _
  · exact importKey_conducts rt sess
  · exact destroyKey_conducts hp rt sess
  · exact keeps_pure (fail_tells (.unsupported (by decide)))

theorem signOp_conducts (rt : Runtime) (sess : Session) (input : Bytes) :
    Conducts p (Tells env call) (signOp lib rt sess call input) := by
  rw [signOp]
  split
  · exact conducts_attempt trivial (fun _ _ => trivial) fun _ _ => answerHex_tells .eccSignData _ _ _
  · exact conducts_attempt trivial (fun _ _ => trivial) fun _ _ => answerHex_tells .rsaSignData _ _ _

theorem verifyOp_conducts (h : sm2OrRsa call = true) (rt : Runtime) (sess : Session)
    (input : Bytes) : Conducts p (Tells env call) (verifyOp lib rt sess call input) := by
  rw [verifyOp]
  split
  · exact keeps_pure (fail_tells (.fixed (by decide)))
  · split
    · exact conducts_attempt (pairFromHex_tells _ _ (by decide))
        (fun _ _ => trivial) fun _ _ => answerStatus_tells .eccVerify _ _
    · split
      · exact conducts_attempt (pairFromHex_tells _ _ (by decide))
          (fun _ _ => trivial) fun _ _ => answerStatus_tells .rsaVerify _ _
      · simp_all [sm2OrRsa]

theorem encryptOp_conducts (rt : Runtime) (sess : Session) (input : Bytes) :
    Conducts p (Tells env call) (encryptOp lib rt sess call input) := by
  rw [encryptOp]
  split
  · exact conducts_attempt (orFail_tells _ (by decide)) (fun _ _ => trivial)
      fun _ _ => answerHex_tells .extECCEncrypt _ _ _
  · exact conducts_attempt (orFail_tells _ (by decide)) (fun _ _ => trivial)
      fun _ _ => answerHex_tells .extRSAPubKeyOperation _ _ _

theorem decryptOp_conducts (rt : Runtime) (sess : Session) (input : Bytes) :
    Conducts p (Tells env call) (decryptOp lib rt sess call input) := by
  rw [decryptOp]
  split
  · exact conducts_attempt (orFail_tells _ (by decide)) (fun _ _ => trivial)
      fun _ _ => answerHex_tells .eccDecrypt _ _ _
  · exact conducts_attempt trivial (fun _ _ => trivial) fun _ _ => answerHex_tells .rsaDecrypt _ _ _

theorem asymOp_conducts (h : VerifiesKnown call) (rt : Runtime) (sess : Session) (input : Bytes) :
    Conducts p (Tells env call) (asymOp lib rt sess call input) := by
  rw [asymOp]
  split
  · rename_i hverify
    exact verifyOp_conducts (h hverify) rt sess input
  · split
    · exact signOp_conducts rt sess input
    · split
      · exact encryptOp_conducts rt sess input
      · split
        · exact decryptOp_conducts rt sess input
        · exact keeps_pure (fail_tells .unsupportedAsym)

theorem initThen_conducts {init : Run σ Ulong} {op : Run σ Output} (hinit : Acts p init)
    (hop : Acts p op) (sym : SkfSymbol) (lead : Bytes) (outSz : ℕ) :
    Conducts p (Tells env call) (initThen init op sym.name lead outSz) := by
  apply conducts_after hinit
  intro rv
  split
  · exact keeps_pure (fail_tells (.failed sym _))
  · apply conducts_after hop
    intro reply
    exact keeps_pure (answerHex_tells sym _ _ _)

theorem symOp_conducts (rt : Runtime) (hkey : Ptr) (input : Bytes) :
    Conducts p (Tells env call) (symOp lib rt hkey call input) := by
  rw [symOp]
  split
  · split
    · exact keeps_pure (fail_tells (.absentOf (by decide)))
    · exact initThen_conducts (acts_call (by trivial)) (acts_call (by trivial)) .encrypt _ _
  · split
    · exact keeps_pure (fail_tells (.absentOf (by decide)))
    · exact initThen_conducts (acts_call (by trivial)) (acts_call (by trivial)) .decrypt _ _
  · exact conducts_attempt trivial (fun _ _ => trivial) fun _ _ => answerHex_tells .mac _ _ _
  · exact keeps_pure (fail_tells (.unsupported (by decide)))

theorem withHandle_conducts (rt : Runtime) (opened : Opened) (sym : SkfSymbol)
    {op : Ptr → Run σ (Status Bytes)}
    (hop : ∀ handle, Conducts p (Tells env call) (op handle)) :
    Conducts p (Tells env call) (withHandle lib rt opened sym.name op) := by
  have hrc : Conducts p (Tells env call)
      (if opened.rv ≠ sarOk then (pure (failed (lit sym.name) opened.rv) : Run σ _)
        else op opened.handle) := by
    split
    · exact keeps_pure (fail_tells (.failed sym _))
    · exact hop _
  apply keeps_bind hrc
  intro rc hrc
  apply conducts_after (closeIf_acts opened.handle _ .closeHandle trivial)
  intro _
  exact keeps_pure hrc

theorem orFail_eq_ok {α : Type} {value : Option α} {text : Bytes} {a : α}
    (h : orFail value text = .ok a) : value = some a := by
  cases value with
  | none => cases h
  | some b =>
    rw [orFail] at h
    cases h
    rfl

/-- The calls of the file operations, with what the sizes were read from. -/
structure AllowsFiles (allowed : SkfCall → Prop) (call : TranslatedCall) : Prop where
  create : ∀ app size, parseUlong call.call.payload.bytes 1024 = some size →
    allowed (.createFile app (fileName call) size gm3000DefaultRights gm3000DefaultRights)
  read : ∀ app want, readLen call = .ok want → allowed (.readFile app (fileName call) 0 want)
  write : ∀ app data, allowed (.writeFile app (fileName call) 0 data)
  delete : ∀ app, allowed (.deleteFile app (fileName call))

theorem readLen_tells : Tells env call (readLen call) := by
  rw [readLen]
  split
  · exact fail_tells .readLength
  · split
    · exact fail_tells .readLength
    · trivial

theorem fileOp_conducts (hallows : AllowsFiles allowed call) (rt : Runtime) (sess : Session) :
    Keeps allowed (Tells env call) (fileOp lib rt sess call) := by
  rw [fileOp]
  split
  · exact conducts_attempt (orFail_tells _ (by decide))
      (fun size hsize => hallows.create _ size (orFail_eq_ok hsize))
      fun _ _ => answerStatus_tells .createFile _ _
  · exact conducts_attempt readLen_tells (hallows.read _)
      fun _ _ => answerHex_tells .readFile _ _ _
  · exact conducts_attempt (orFail_tells _ (by decide)) (fun data _ => hallows.write _ data)
      fun _ _ => answerStatus_tells .writeFile _ _
  · exact conducts_attempt trivial (fun _ _ => hallows.delete _)
      fun _ _ => answerStatus_tells .deleteFile _ _
  · exact keeps_pure (fail_tells (.unsupported (by decide)))

theorem pqcOp_conducts (rt : Runtime) (sess : Session) (input : Bytes) :
    Conducts p (Tells env call) (pqcOp lib rt sess call input) := by
  have hpair : Tells env call (dilithiumPair call) := by
    rw [dilithiumPair]
    split
    · exact fail_tells (.fixed (by decide))
    · exact pairFromHex_tells _ _ (by decide)
  have hencap : ∀ reply : Encapsulated, Tells env call
      (if reply.rv ≠ sarOk then failed (lit "SKF_Encap_Kyber") reply.rv
        else .ok (hexAnswer (lit "gm3000-kem-ct(hex:") reply.out gm3000ResultHex ++
          hexAnswer (lit "|ss(hex:") reply.shared (hexRoom sharedLen))) := by
    intro reply
    split
    · exact fail_tells (.failed .encapKyber _)
    · trivial
  rw [pqcOp]
  split
  · exact conducts_attempt (orFail_tells _ (by decide)) (fun _ _ => trivial)
      fun _ reply => hencap reply
  · exact conducts_attempt (orFail_tells _ (by decide)) (fun _ _ => trivial)
      fun _ _ => answerHex_tells .decapKyber _ _ _
  · exact conducts_attempt (orFail_tells _ (by decide)) (fun _ _ => trivial)
      fun _ _ => answerHex_tells .signDilithium _ _ _
  · exact conducts_attempt hpair (fun _ _ => trivial)
      fun _ _ => answerStatus_tells .verifyDilithium _ _
  · exact keeps_pure (fail_tells (.unsupported (by decide)))

end Operations

section Handlers

variable {σ : Type} {env : Env} {lib : Library σ} {call : TranslatedCall}
  {allowed : SkfCall → Prop} [Admits allowed] {p : Bytes → Prop}

/-- An operation between the opening of a session and its end. -/
theorem session_conducts {opening : Run σ (Status (Runtime × Session))}
    {op : Runtime → Session → Run σ (Status Bytes)}
    (hopen : Keeps allowed (Tells env call) opening)
    (hop : ∀ rt sess, Keeps allowed (Tells env call) (op rt sess)) :
    Keeps allowed (Tells env call) (do
      match ← opening with
      | .error err => pure (.error err)
      | .ok (rt, sess) =>
        let rc ← op rt sess
        finalizeErrorOrSuccess lib rc rt sess) := by
  apply keeps_bind hopen
  intro v hv
  cases v with
  | error err => exact keeps_pure (tells_error hv)
  | ok opened =>
    apply keeps_bind (hop opened.1 opened.2)
    intro rc hrc
    exact finalize_conducts hrc opened.1 opened.2

theorem appSession_conducts {op : Runtime → Session → Run σ (Status Bytes)}
    (hop : ∀ rt sess, Keeps allowed (Tells env call) (op rt sess)) :
    Keeps allowed (Tells env call) (do
      match ← openBase env lib with
      | .error err => pure (.error err)
      | .ok (rt, sess) =>
        match ← openApp env lib rt sess with
        | (sess, .error err) => finalizeErrorOrSuccess lib (.error err) rt sess
        | (sess, .ok ()) =>
          let rc ← op rt sess
          finalizeErrorOrSuccess lib rc rt sess) := by
  apply keeps_bind openBase_conducts
  intro v hv
  cases v with
  | error err => exact keeps_pure (tells_error hv)
  | ok opened =>
    apply keeps_bind (openApp_conducts opened.1 opened.2)
    rintro ⟨sess, v⟩ hv
    cases v with
    | error err => exact finalize_conducts (tells_error hv) opened.1 sess
    | ok _ =>
      apply keeps_bind (hop opened.1 sess)
      intro rc hrc
      exact finalize_conducts hrc opened.1 sess

theorem keyManage_conducts (hp : p (containerNameFromCall env call)) :
    Conducts p (Tells env call) (gm3000KeyManage env lib call) := by
  rw [gm3000KeyManage]
  split
  · exact appSession_conducts (keyOp_conducts hp)
  · exact session_conducts (openAppContainer_conducts hp) (keyOp_conducts hp)

theorem asymCrypto_conducts (hp : p (containerNameFromCall env call)) (h : VerifiesKnown call) :
    Conducts p (Tells env call) (gm3000AsymCrypto env lib call) := by
  have hopen : Conducts p (Tells env call) (openForAsym env lib call) := by
    rw [openForAsym]
    split
    · exact openBase_conducts
    · exact openAppContainer_conducts hp
  rw [gm3000AsymCrypto]
  split
  · exact keeps_pure (fail_tells (.fixed (by decide)))
  · exact session_conducts hopen fun rt sess => asymOp_conducts h rt sess _

theorem symCrypto_conducts : Conducts p (Tells env call) (gm3000SymCrypto env lib call) := by
  have hinputs : Tells env call (symInputs env call) := by
    rw [symInputs]
    split
    · exact fail_tells (.fixed (by decide))
    · split
      · exact fail_tells (.fixed (by decide))
      · split
        · exact fail_tells (.fixed (by decide))
        · trivial
  rw [gm3000SymCrypto]
  split
  · rename_i err herr
    rw [herr] at hinputs
    exact keeps_pure (tells_error hinputs)
  · apply keeps_bind openBase_conducts
    intro v hv
    cases v with
    | error err => exact keeps_pure (tells_error hv)
    | ok opened =>
      obtain ⟨rt, sess⟩ := opened
      simp only
      split
      · exact finalize_conducts (fail_tells (.absent .setSymmKey)) rt sess
      · refine conducts_after (acts_call (by trivial)) fun opened => ?_
        apply keeps_bind
          (withHandle_conducts rt opened .setSymmKey fun hkey => symOp_conducts rt hkey _)
        intro rc hrc
        exact finalize_conducts hrc rt sess

theorem hashOps_conducts : Conducts p (Tells env call) (gm3000HashOps env lib call) := by
  rw [gm3000HashOps]
  split
  · exact keeps_pure (fail_tells (.fixed (by decide)))
  · rename_i input _
    apply keeps_bind openBase_conducts
    intro v hv
    cases v with
    | error err => exact keeps_pure (tells_error hv)
    | ok opened =>
      obtain ⟨rt, sess⟩ := opened
      simp only
      split
      · exact finalize_conducts (fail_tells (.absentOf (by decide))) rt sess
      · refine conducts_after (acts_call (by trivial)) fun opened => ?_
        have hdigest (hhash : Ptr) : Conducts p (Tells env call) (do
            let reply ← Flow.Calls.call lib (.digest hhash input digestLen)
            pure (answerHex "SKF_Digest" reply
              (lit "gm3000-hash(" ++ call.call.algorithm.bytes ++ lit ",hex:")
              (hexRoom digestLen))) := by
          refine conducts_after (acts_call (by trivial)) fun reply => ?_
          exact keeps_pure (answerHex_tells .digest _ _ _)
        apply keeps_bind (withHandle_conducts rt opened .digest hdigest)
        intro rc hrc
        exact finalize_conducts hrc rt sess

theorem deviceManage_conducts (hinfo : ∀ dev, allowed (.getDevInfo dev))
    (hrandom : ∀ dev len, randomLen call = .ok len → allowed (.genRandom dev len)) :
    Keeps allowed (Tells env call) (gm3000DeviceManage env lib call) :=
  session_conducts openBase_conducts fun _ sess =>
    deviceOp_conducts sess (hinfo sess.dev) (hrandom sess.dev)

theorem fileOps_conducts (hallows : AllowsFiles allowed call) :
    Keeps allowed (Tells env call) (gm3000FileOps env lib call) := by
  rw [gm3000FileOps]
  split
  · exact keeps_pure (fail_tells (.fixed (by decide)))
  · exact appSession_conducts (fileOp_conducts hallows)

theorem pqcOps_conducts : Conducts p (Tells env call) (gm3000PqcOps env lib call) := by
  rw [gm3000PqcOps]
  split
  · exact keeps_pure (fail_tells (.fixed (by decide)))
  · exact session_conducts openBase_conducts fun rt sess => pqcOp_conducts rt sess _

/-- Every handler names the container of its call only, and says why it failed. -/
theorem handler_conducts {h : Gm3000Handler} (hp : p (containerNameFromCall env call))
    (hverify : h = .asymCrypto → VerifiesKnown call) :
    Conducts p (Tells env call) (h.run env lib call) := by
  cases h with
  | deviceManage => exact deviceManage_conducts (fun _ => trivial) fun _ _ _ => trivial
  | keyManage => exact keyManage_conducts hp
  | asymCrypto => exact asymCrypto_conducts hp (hverify rfl)
  | symCrypto => exact symCrypto_conducts
  | hashOps => exact hashOps_conducts
  | fileOps =>
    exact fileOps_conducts
      ⟨fun _ _ _ => trivial, fun _ _ _ => trivial, fun _ _ => trivial, fun _ => trivial⟩
  | pqcOps => exact pqcOps_conducts

end Handlers

end Ucisdk.SkfConduct
