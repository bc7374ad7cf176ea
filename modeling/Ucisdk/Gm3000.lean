import Ucisdk.SkfSession

/-!
# The adapter of the hardware token

The seven handlers of the GM3000 token. Each reads its inputs, opens what it
needs, calls the vendor function and closes again. Bytes that come back are
shown in hex.
-/

set_option autoImplicit false

namespace Ucisdk.Gm3000

open Ucisdk.CString Ucisdk.Common Ucisdk.Protocol Ucisdk.Resource Ucisdk.Translator Ucisdk.Driver
open Ucisdk.SkfApi Ucisdk.SkfText Ucisdk.SkfSession
open Flow.Calls

abbrev gm3000MaxIo : ℕ := 2048

/-- The hex buffers whose size does not depend on what is shown. -/
abbrev gm3000ResultHex : ℕ := 512

/-- A hex buffer with room for every value of that many bytes. -/
abbrev hexRoom (size : ℕ) : ℕ := size * 2 + 1

def gm3000DefaultRights : Ulong := 0xffffffff

section Answers

/-- A text of the form `lead hex)`. -/
def hexAnswer (lead : Bytes) (out : Bytes) (outSz : ℕ) : Bytes :=
  lead ++ bytesToHex out outSz ++ lit ")"

/-- The answer to a call that returned only a status. -/
def answerStatus (name : String) (rv : Ulong) (text : Bytes) : Status Bytes :=
  if rv ≠ sarOk then failed (lit name) rv else .ok text

/-- The answer to a call with an output buffer. -/
def answerHex (name : String) (reply : Output) (lead : Bytes) (outSz : ℕ) : Status Bytes :=
  if reply.rv ≠ sarOk then failed (lit name) reply.rv else .ok (hexAnswer lead reply.out outSz)

/-- The answer to a call that fills a structure, which was cleared before. -/
def answerStruct (name : String) (reply : Output) (size : ℕ) (lead : Bytes) (outSz : ℕ) :
    Status Bytes :=
  answerHex name ⟨reply.rv, filled size reply.out⟩ lead outSz

def unsupported {α : Type} (what : String) (call : TranslatedCall) : Status α :=
  fail (lit "unsupported gm3000 " ++ lit what ++ lit " action=" ++ actionToString call.call.action)

end Answers

section Handlers

variable {σ : Type} (env : Env) (lib : Library σ)

/-- A call with arguments that may be refused before it is made. -/
def perform {α : Type} (args : Status α) (op : α → SkfCall)
    (answer : (a : α) → (op a).Reply → Status Bytes) : Run σ (Status Bytes) :=
  match args with
  | .error err => pure (.error err)
  | .ok a => do
    let reply ← call lib (op a)
    pure (answer a reply)

/-- A call of a function that the library may lack. -/
def attempt {α : Type} (rt : Runtime) (sym : SkfSymbol) (args : Status α) (op : α → SkfCall)
    (answer : (a : α) → (op a).Reply → Status Bytes) : Run σ (Status Bytes) :=
  if rt.found sym = false then pure (missingSymbol sym.name) else perform lib args op answer

def orFail {α : Type} (value : Option α) (text : Bytes) : Status α :=
  match value with
  | none => fail text
  | some a => .ok a

/-- The response with a result, or the failure. -/
def answered (device : DeviceResource) (call : TranslatedCall) (resp : Response) :
    Status Bytes → Outcome
  | .error err => .error err
  | .ok text => .ok { fillCommon device call resp with result := store maxResponseLen text }

section DeviceManage

def getDevInfo (sess : Session) : Run σ (Status Bytes) :=
  perform lib (.ok ()) (fun _ => .getDevInfo sess.dev) fun _ info =>
    answerStatus "SKF_GetDevInfo" info.rv
      (lit "gm3000-device(label=" ++ info.label.take 32 ++ lit ",serial=" ++
        info.serialNumber.take 32 ++ lit ",manufacturer=" ++ info.manufacturer.take 64 ++ lit ")")

def randomLen (call : TranslatedCall) : Status Ulong :=
  match parseUlong call.call.payload.bytes 16 with
  | none => fail (lit "invalid random length payload=" ++ call.call.payload.bytes)
  | some len =>
    if gm3000MaxIo < len.toNat then
      fail (lit "invalid random length payload=" ++ call.call.payload.bytes)
    else .ok len

def genRandom (sess : Session) (call : TranslatedCall) : Run σ (Status Bytes) :=
  perform lib (randomLen call) (fun len => .genRandom sess.dev len) fun len reply =>
    -- the buffer is not cleared, but a successful call has written all of its `len` bytes
    answerStruct "SKF_GenRandom" reply len.toNat
      (lit "gm3000-random(" ++ decimal len.toNat ++ lit ",") gm3000ResultHex

def deviceOp (sess : Session) (call : TranslatedCall) : Run σ (Status Bytes) :=
  match call.call.action with
  | .getDeviceInfo => getDevInfo lib sess
  | .generateRandom => genRandom lib sess call
  | _ => pure (unsupported "device" call)

def gm3000DeviceManage (call : TranslatedCall) : Run σ (Status Bytes) := do
  match ← openBase env lib with
  | .error err => pure (.error err)
  | .ok (rt, sess) =>
    let rc ← deviceOp lib sess call
    finalizeErrorOrSuccess lib rc rt sess

end DeviceManage

section KeyManage

def keyAccess (rt : Runtime) (sess : Session) : Run σ (Status Bytes) :=
  if rt.found .verifyPIN = false then pure (missingSymbol "SKF_VerifyPIN")
  else
    match getenv env "GM3000_SKF_PIN" with
    | none => pure (fail (lit "GM3000_SKF_PIN is required for get_private_key_access"))
    | some pin => do
      match ← verifyPin lib sess pin with
      | .error err => pure (.error err)
      | .ok retry =>
        pure (.ok (lit "gm3000-key-access-ok(retry=" ++ decimal retry.toNat ++ lit ")"))

def keyGeneratePair (rt : Runtime) (sess : Session) (call : TranslatedCall) :
    Run σ (Status Bytes) :=
  if call.call.algorithm.bytes = lit "sm2" then
    attempt lib rt .genECCKeyPair (.ok ()) (fun _ => .genECCKeyPair sess.container sgdSm21)
      fun _ reply =>
        answerStruct "SKF_GenECCKeyPair" reply eccPublicKeyBlobLen
          (lit "gm3000-keypair(sm2,pub=hex:") gm3000ResultHex
  else if call.call.algorithm.bytes = lit "rsa" then
    attempt lib rt .genRSAKeyPair (.ok ((parseUlong call.call.payload.bytes 2048).getD 2048))
      (fun bits => .genRSAKeyPair sess.container bits) fun _ reply =>
        answerStruct "SKF_GenRSAKeyPair" reply rsaPublicKeyBlobLen
          (lit "gm3000-keypair(rsa,pub=hex:") gm3000ResultHex
  else pure (missingSymbol "PQC key-pair function for requested algorithm")

def exportPublicKey (rt : Runtime) (sess : Session) : Run σ (Status Bytes) :=
  attempt lib rt .exportPublicKey (.ok ()) (fun _ => .exportPublicKey sess.container gm3000MaxIo)
    fun _ reply =>
      answerHex "SKF_ExportPublicKey" reply (lit "gm3000-export-public-key(hex:") gm3000ResultHex

def orSm4Cbc (alg : Ulong) : Ulong := if alg = 0 then sgdSm4Cbc else alg

def importKeyBytes (call : TranslatedCall) : Option Bytes :=
  match inputToBytes (if call.call.payload.bytes ≠ [] then call.call.payload.bytes
      else call.call.auxPayload.bytes) gm3000MaxIo with
  | none => none
  | some key => if key = [] then none else some key

/-- The key is set and, since nothing refers to it later, closed at once. -/
def importKey (rt : Runtime) (sess : Session) (call : TranslatedCall) : Run σ (Status Bytes) :=
  if rt.found .setSymmKey = false then pure (missingSymbol "SKF_SetSymmKey")
  else
    match importKeyBytes call with
    | none => pure (fail (lit "import_key requires key bytes in payload or aux_payload"))
    | some key => do
      let opened ← Flow.Calls.call lib
        (.setSymmKey sess.dev key (orSm4Cbc (algToSkfId call.call.algorithm.bytes)))
      if opened.rv ≠ sarOk then pure (failed (lit "SKF_SetSymmKey(import)") opened.rv)
      else
        closeIf lib opened.handle (rt.found .closeHandle) .closeHandle
        pure (.ok (lit "gm3000-import-key(transient," ++ decimal key.length ++ lit "-bytes)"))

def destroyKey (rt : Runtime) (sess : Session) (call : TranslatedCall) : Run σ (Status Bytes) :=
  attempt lib rt .deleteContainer (.ok (containerNameFromCall env call))
    (fun name => .deleteContainer sess.app name) fun name rv =>
      if rv ≠ sarOk then failed (lit "SKF_DeleteContainer(" ++ name ++ lit ")") rv
      else .ok (lit "gm3000-destroy-key(" ++ name ++ lit ")")

def keyOp (rt : Runtime) (sess : Session) (call : TranslatedCall) : Run σ (Status Bytes) :=
  match call.call.action with
  | .getPrivateKeyAccess => keyAccess env lib rt sess
  | .releasePrivateKeyAccess => pure (.ok (lit "gm3000-key-access-released"))
  | .generateKeyPair => keyGeneratePair lib rt sess call
  | .exportPublicKey => exportPublicKey lib rt sess
  | .importKey => importKey lib rt sess call
  | .destroyKey => destroyKey env lib rt sess call
  | _ => pure (unsupported "key" call)

/-- The actions of a key that need no container. -/
def onApp (action : ApiAction) : Bool :=
  action = .getPrivateKeyAccess || action = .releasePrivateKeyAccess || action = .destroyKey

def gm3000KeyManage (call : TranslatedCall) : Run σ (Status Bytes) := do
  if onApp call.call.action = true then
    match ← openBase env lib with
    | .error err => pure (.error err)
    | .ok (rt, sess) =>
      match ← openApp env lib rt sess with
      | (sess, .error err) => finalizeErrorOrSuccess lib (.error err) rt sess
      | (sess, .ok ()) =>
        let rc ← keyOp env lib rt sess call
        finalizeErrorOrSuccess lib rc rt sess
  else
    match ← openAppContainer env lib call with
    | .error err => pure (.error err)
    | .ok (rt, sess) =>
      let rc ← keyOp env lib rt sess call
      finalizeErrorOrSuccess lib rc rt sess

end KeyManage

section AsymCrypto

def signOp (rt : Runtime) (sess : Session) (call : TranslatedCall) (input : Bytes) :
    Run σ (Status Bytes) :=
  if call.call.algorithm.bytes = lit "sm2" then
    attempt lib rt .eccSignData (.ok ()) (fun _ => .eccSignData sess.container input)
      fun _ reply =>
        answerStruct "SKF_ECCSignData" reply eccSignatureBlobLen (lit "gm3000-sign(sm2,hex:")
          (hexRoom eccSignatureBlobLen)
  else
    attempt lib rt .rsaSignData (.ok ()) (fun _ => .rsaSignData sess.container input gm3000MaxIo)
      fun _ reply =>
        answerHex "SKF_RSASignData" reply (lit "gm3000-sign(rsa,hex:") gm3000ResultHex

/-- The two decoded halves of a key and a signature. -/
def pairFromHex (pub sig : Option Bytes) (text : Bytes) : Status (Bytes × Bytes) :=
  match pub, sig with
  | some pub, some sig => .ok (pub, sig)
  | _, _ => fail text

/-- Of an algorithm that is neither of the two nothing is said. -/
def verifyOp (rt : Runtime) (sess : Session) (call : TranslatedCall) (input : Bytes) :
    Run σ (Status Bytes) :=
  match splitPair call.call.auxPayload.bytes with
  | none => pure (fail (lit "verify requires aux_payload pubkey_hex|signature_hex"))
  | some (pubHex, sigHex) =>
    if call.call.algorithm.bytes = lit "sm2" then
      attempt lib rt .eccVerify
        (pairFromHex (structFromHex pubHex eccPublicKeyBlobLen)
          (structFromHex sigHex eccSignatureBlobLen)
          (lit "invalid SM2 public key or signature hex"))
        (fun args => .eccVerify sess.dev args.1 input args.2) fun _ rv =>
          answerStatus "SKF_ECCVerify" rv (lit "gm3000-verify-ok(sm2)")
    else if call.call.algorithm.bytes = lit "rsa" then
      attempt lib rt .rsaVerify
        (pairFromHex (structFromHex pubHex rsaPublicKeyBlobLen) (blobFromHex sigHex gm3000MaxIo)
          (lit "invalid RSA public key or signature hex"))
        (fun args => .rsaVerify sess.dev args.1 input args.2) fun _ rv =>
          answerStatus "SKF_RSAVerify" rv (lit "gm3000-verify-ok(rsa)")
    else pure (.error none)

def encryptOp (rt : Runtime) (sess : Session) (call : TranslatedCall) (input : Bytes) :
    Run σ (Status Bytes) :=
  if call.call.algorithm.bytes = lit "sm2" then
    attempt lib rt .extECCEncrypt
      (orFail (structFromHex call.call.auxPayload.bytes eccPublicKeyBlobLen)
        (lit "SM2 encrypt requires public key hex in aux_payload"))
      (fun pub => .extECCEncrypt sess.dev pub input) fun _ reply =>
        answerStruct "SKF_ExtECCEncrypt" reply eccCipherBlobLen (lit "gm3000-cipher(sm2,hex:")
          (hexRoom eccCipherBlobLen)
  else
    attempt lib rt .extRSAPubKeyOperation
      (orFail (structFromHex call.call.auxPayload.bytes rsaPublicKeyBlobLen)
        (lit "RSA encrypt requires public key hex in aux_payload"))
      (fun pub => .extRSAPubKeyOperation sess.dev pub input gm3000MaxIo) fun _ reply =>
        answerHex "SKF_ExtRSAPubKeyOperation" reply (lit "gm3000-cipher(rsa,hex:") gm3000ResultHex

def decryptOp (rt : Runtime) (sess : Session) (call : TranslatedCall) (input : Bytes) :
    Run σ (Status Bytes) :=
  if call.call.algorithm.bytes = lit "sm2" then
    attempt lib rt .eccDecrypt
      (orFail (structFromHex call.call.payload.bytes eccCipherBlobLen)
        (lit "SM2 decrypt requires cipher hex payload"))
      (fun cipher => .eccDecrypt sess.container sgdSm23 cipher gm3000MaxIo) fun _ reply =>
        answerHex "SKF_ECCDecrypt" reply (lit "gm3000-plain(sm2,hex:") gm3000ResultHex
  else
    attempt lib rt .rsaDecrypt (.ok ())
      (fun _ => .rsaDecrypt sess.container sgdRsaEnc input gm3000MaxIo) fun _ reply =>
        answerHex "SKF_RSADecrypt" reply (lit "gm3000-plain(rsa,hex:") gm3000ResultHex

/-- The algorithms of signing, encrypting and decrypting. -/
def sm2OrRsa (call : TranslatedCall) : Bool :=
  call.call.algorithm.bytes = lit "sm2" || call.call.algorithm.bytes = lit "rsa"

def asymOp (rt : Runtime) (sess : Session) (call : TranslatedCall) (input : Bytes) :
    Run σ (Status Bytes) :=
  if call.call.action = .verify then verifyOp lib rt sess call input
  else if call.call.action = .sign ∧ sm2OrRsa call = true then signOp lib rt sess call input
  else if call.call.action = .encrypt ∧ sm2OrRsa call = true then encryptOp lib rt sess call input
  else if call.call.action = .decrypt ∧ sm2OrRsa call = true then decryptOp lib rt sess call input
  else
    pure (fail (lit "unsupported gm3000 asym action=" ++ actionToString call.call.action ++
      lit " alg=" ++ call.call.algorithm.bytes))

/-- The actions that take their key from the request. -/
def onDevice (action : ApiAction) : Bool := action = .verify || action = .encrypt

def openForAsym (call : TranslatedCall) : Run σ (Status (Runtime × Session)) :=
  if onDevice call.call.action = true then openBase env lib else openAppContainer env lib call

def gm3000AsymCrypto (call : TranslatedCall) : Run σ (Status Bytes) :=
  match inputToBytes call.call.payload.bytes gm3000MaxIo with
  | none => pure (fail (lit "invalid asym input payload"))
  | some input => do
    match ← openForAsym env lib call with
    | .error err => pure (.error err)
    | .ok (rt, sess) =>
      let rc ← asymOp lib rt sess call input
      finalizeErrorOrSuccess lib rc rt sess

end AsymCrypto

section SymCrypto

def symKeyBytes (call : TranslatedCall) : Option Bytes :=
  if call.call.auxPayload.bytes ≠ [] then inputToBytes call.call.auxPayload.bytes gm3000MaxIo
  else
    match env (lit "GM3000_SKF_SYM_KEY") with
    | none => some []
    | some envKey => inputToBytes envKey gm3000MaxIo

/-- The key and the input of a symmetric operation. -/
def symInputs (call : TranslatedCall) : Status (Bytes × Bytes) :=
  match symKeyBytes env call with
  | none => fail (lit "sym operation requires key bytes in aux_payload or GM3000_SKF_SYM_KEY")
  | some key =>
    if key = [] then
      fail (lit "sym operation requires key bytes in aux_payload or GM3000_SKF_SYM_KEY")
    else
      match inputToBytes call.call.payload.bytes gm3000MaxIo with
      | none => fail (lit "invalid sym input payload")
      | some input => .ok (key, input)

/-- An operation in two calls, of which the first may already fail. -/
def initThen (init : Run σ Ulong) (op : Run σ Output) (name : String) (lead : Bytes)
    (outSz : ℕ) : Run σ (Status Bytes) := do
  let rv ← init
  if rv ≠ sarOk then pure (failed (lit name) rv)
  else
    let reply ← op
    pure (answerHex name reply lead outSz)

def symOp (rt : Runtime) (hkey : Ptr) (call : TranslatedCall) (input : Bytes) :
    Run σ (Status Bytes) :=
  match call.call.action with
  | .encrypt =>
    if rt.found .encryptInit = false ∨ rt.found .encrypt = false then
      pure (missingSymbol "SKF_EncryptInit/SKF_Encrypt")
    else
      initThen (Flow.Calls.call lib (.encryptInit hkey))
        (Flow.Calls.call lib (.encrypt hkey input gm3000MaxIo)) "SKF_Encrypt"
        (lit "gm3000-sym-enc(hex:") gm3000ResultHex
  | .decrypt =>
    if rt.found .decryptInit = false ∨ rt.found .decrypt = false then
      pure (missingSymbol "SKF_DecryptInit/SKF_Decrypt")
    else
      initThen (Flow.Calls.call lib (.decryptInit hkey))
        (Flow.Calls.call lib (.decrypt hkey input gm3000MaxIo)) "SKF_Decrypt"
        (lit "gm3000-sym-dec(hex:") gm3000ResultHex
  | .mac =>
    attempt lib rt .mac (.ok ()) (fun _ => .mac hkey input gm3000MaxIo) fun _ reply =>
      answerHex "SKF_Mac" reply (lit "gm3000-mac(hex:") gm3000ResultHex
  | _ => pure (unsupported "sym" call)

/-- What is done with a handle that may not have been opened, and its close. -/
def withHandle (rt : Runtime) (opened : Opened) (name : String)
    (op : Ptr → Run σ (Status Bytes)) : Run σ (Status Bytes) := do
  let rc ← (if opened.rv ≠ sarOk then pure (failed (lit name) opened.rv) else op opened.handle)
  closeIf lib opened.handle (rt.found .closeHandle) .closeHandle
  pure rc

def gm3000SymCrypto (call : TranslatedCall) : Run σ (Status Bytes) :=
  match symInputs env call with
  | .error err => pure (.error err)
  | .ok (key, input) => do
    match ← openBase env lib with
    | .error err => pure (.error err)
    | .ok (rt, sess) =>
      if rt.found .setSymmKey = false then
        finalizeErrorOrSuccess lib (missingSymbol "SKF_SetSymmKey") rt sess
      else
        let opened ← Flow.Calls.call lib
          (.setSymmKey sess.dev key (orSm4Cbc (algToSkfId call.call.algorithm.bytes)))
        let rc ← withHandle lib rt opened "SKF_SetSymmKey" fun hkey => symOp lib rt hkey call input
        finalizeErrorOrSuccess lib rc rt sess

end SymCrypto

section HashOps

abbrev digestLen : ℕ := 128

def orSm3 (alg : Ulong) : Ulong := if alg = 0 then sgdSm3 else alg

def gm3000HashOps (call : TranslatedCall) : Run σ (Status Bytes) :=
  match inputToBytes call.call.payload.bytes gm3000MaxIo with
  | none => pure (fail (lit "invalid hash input payload"))
  | some input => do
    match ← openBase env lib with
    | .error err => pure (.error err)
    | .ok (rt, sess) =>
      if rt.found .digestInit = false ∨ rt.found .digest = false then
        finalizeErrorOrSuccess lib (missingSymbol "SKF_DigestInit/SKF_Digest") rt sess
      else
        let opened ← Flow.Calls.call lib
          (.digestInit sess.dev (orSm3 (algToSkfId call.call.algorithm.bytes)))
        let rc ← withHandle lib rt opened "SKF_Digest" fun hhash => do
          let reply ← Flow.Calls.call lib (.digest hhash input digestLen)
          pure (answerHex "SKF_Digest" reply
            (lit "gm3000-hash(" ++ call.call.algorithm.bytes ++ lit ",hex:") (hexRoom digestLen))
        finalizeErrorOrSuccess lib rc rt sess

end HashOps

section FileOps

def fileName (call : TranslatedCall) : Bytes :=
  if call.call.keyRef.bytes ≠ [] then call.call.keyRef.bytes else call.call.payload.bytes

def createFile (rt : Runtime) (sess : Session) (call : TranslatedCall) : Run σ (Status Bytes) :=
  attempt lib rt .createFile
    (orFail (parseUlong call.call.payload.bytes 1024) (lit "create_file payload must be file size"))
    (fun size =>
      .createFile sess.app (fileName call) size gm3000DefaultRights gm3000DefaultRights)
    fun size rv =>
      answerStatus "SKF_CreateFile" rv
        (lit "gm3000-create-file(" ++ fileName call ++ lit "," ++ decimal size.toNat ++ lit ")")

def readLen (call : TranslatedCall) : Status Ulong :=
  match parseUlong call.call.payload.bytes 256 with
  | none => fail (lit "read_file payload must be length <= " ++ decimal gm3000MaxIo)
  | some want =>
    if gm3000MaxIo < want.toNat then
      fail (lit "read_file payload must be length <= " ++ decimal gm3000MaxIo)
    else .ok want

def readFile (rt : Runtime) (sess : Session) (call : TranslatedCall) : Run σ (Status Bytes) :=
  attempt lib rt .readFile (readLen call) (fun want => .readFile sess.app (fileName call) 0 want)
    fun _ reply =>
      answerHex "SKF_ReadFile" reply
        (lit "gm3000-read-file(len=" ++ decimal reply.out.length ++ lit ",hex:") gm3000ResultHex

def writeFile (rt : Runtime) (sess : Session) (call : TranslatedCall) : Run σ (Status Bytes) :=
  attempt lib rt .writeFile
    (orFail (inputToBytes call.call.payload.bytes gm3000MaxIo)
      (lit "write_file payload too large or invalid hex"))
    (fun data => .writeFile sess.app (fileName call) 0 data) fun data rv =>
      answerStatus "SKF_WriteFile" rv
        (lit "gm3000-write-file(" ++ fileName call ++ lit "," ++ decimal data.length ++
          lit "-bytes)")

def deleteFile (rt : Runtime) (sess : Session) (call : TranslatedCall) : Run σ (Status Bytes) :=
  attempt lib rt .deleteFile (.ok ()) (fun _ => .deleteFile sess.app (fileName call)) fun _ rv =>
    answerStatus "SKF_DeleteFile" rv (lit "gm3000-delete-file(" ++ fileName call ++ lit ")")

def fileOp (rt : Runtime) (sess : Session) (call : TranslatedCall) : Run σ (Status Bytes) :=
  match call.call.action with
  | .createFile => createFile lib rt sess call
  | .readFile => readFile lib rt sess call
  | .writeFile => writeFile lib rt sess call
  | .deleteFile => deleteFile lib rt sess call
  | _ => pure (unsupported "file" call)

def gm3000FileOps (call : TranslatedCall) : Run σ (Status Bytes) :=
  if fileName call = [] then pure (fail (lit "file operation requires key_ref as file name"))
  else do
    match ← openBase env lib with
    | .error err => pure (.error err)
    | .ok (rt, sess) =>
      match ← openApp env lib rt sess with
      | (sess, .error err) => finalizeErrorOrSuccess lib (.error err) rt sess
      | (sess, .ok ()) =>
        let rc ← fileOp lib rt sess call
        finalizeErrorOrSuccess lib rc rt sess

end FileOps

section PqcOps

abbrev sharedLen : ℕ := 128

def kemEncap (rt : Runtime) (sess : Session) (call : TranslatedCall) : Run σ (Status Bytes) :=
  attempt lib rt .encapKyber
    (orFail (structFromHex call.call.auxPayload.bytes kyberPublicKeyLen)
      (lit "KEM encap requires KyberPublicKey hex in aux_payload"))
    (fun pub => .encapKyber sess.dev pub gm3000MaxIo sharedLen) fun _ reply =>
      if reply.rv ≠ sarOk then failed (lit "SKF_Encap_Kyber") reply.rv
      else
        .ok (hexAnswer (lit "gm3000-kem-ct(hex:") reply.out gm3000ResultHex ++
          hexAnswer (lit "|ss(hex:") reply.shared (hexRoom sharedLen))

def kemDecap (rt : Runtime) (sess : Session) (call : TranslatedCall) (input : Bytes) :
    Run σ (Status Bytes) :=
  attempt lib rt .decapKyber
    (orFail (structFromHex call.call.auxPayload.bytes kyberPrivateKeyLen)
      (lit "KEM decap requires KyberPrivateKey hex in aux_payload"))
    (fun pri => .decapKyber sess.dev input pri gm3000MaxIo) fun _ reply =>
      answerHex "SKF_Decap_Kyber" reply (lit "gm3000-kem-ss(hex:") gm3000ResultHex

def pqcSign (rt : Runtime) (sess : Session) (call : TranslatedCall) (input : Bytes) :
    Run σ (Status Bytes) :=
  attempt lib rt .signDilithium
    (orFail (structFromHex call.call.auxPayload.bytes dilithiumPrivateKeyLen)
      (lit "Dilithium sign requires private key hex in aux_payload"))
    (fun pri => .signDilithium sess.dev input pri gm3000MaxIo) fun _ reply =>
      answerHex "SKF_Sign_Dilithium" reply (lit "gm3000-pqc-sign(hex:") gm3000ResultHex

def dilithiumPair (call : TranslatedCall) : Status (Bytes × Bytes) :=
  match splitPair call.call.auxPayload.bytes with
  | none => fail (lit "Dilithium verify requires aux_payload pubkey_hex|signature_hex")
  | some (pubHex, sigHex) =>
    pairFromHex (structFromHex pubHex dilithiumPublicKeyLen) (blobFromHex sigHex gm3000MaxIo)
      (lit "invalid Dilithium public key or signature hex")

def pqcVerify (rt : Runtime) (sess : Session) (call : TranslatedCall) (input : Bytes) :
    Run σ (Status Bytes) :=
  attempt lib rt .verifyDilithium (dilithiumPair call)
    (fun args => .verifyDilithium sess.dev args.1 input args.2) fun _ rv =>
      answerStatus "SKF_Verify_Dilithium" rv (lit "gm3000-pqc-verify-ok")

def pqcOp (rt : Runtime) (sess : Session) (call : TranslatedCall) (input : Bytes) :
    Run σ (Status Bytes) :=
  match call.call.action with
  | .kemEncap => kemEncap lib rt sess call
  | .kemDecap => kemDecap lib rt sess call input
  | .sign => pqcSign lib rt sess call input
  | .verify => pqcVerify lib rt sess call input
  | _ => pure (unsupported "pqc" call)

def gm3000PqcOps (call : TranslatedCall) : Run σ (Status Bytes) :=
  match inputToBytes call.call.payload.bytes gm3000MaxIo with
  | none => pure (fail (lit "invalid pqc input payload"))
  | some input => do
    match ← openBase env lib with
    | .error err => pure (.error err)
    | .ok (rt, sess) =>
      let rc ← pqcOp lib rt sess call input
      finalizeErrorOrSuccess lib rc rt sess

end PqcOps

inductive Gm3000Handler where
  | deviceManage
  | keyManage
  | asymCrypto
  | symCrypto
  | hashOps
  | fileOps
  | pqcOps
  deriving DecidableEq, Repr

def Gm3000Handler.run : Gm3000Handler → TranslatedCall → Run σ (Status Bytes)
  | .deviceManage => gm3000DeviceManage env lib
  | .keyManage => gm3000KeyManage env lib
  | .asymCrypto => gm3000AsymCrypto env lib
  | .symCrypto => gm3000SymCrypto env lib
  | .hashOps => gm3000HashOps env lib
  | .fileOps => gm3000FileOps env lib
  | .pqcOps => gm3000PqcOps env lib

def Gm3000Handler.handler (h : Gm3000Handler) : Handler σ := fun device call resp world =>
  let ran := h.run env lib call world
  (answered device call resp ran.value, ran.state)

/-- The adapter as the dispatch takes it. -/
def skfAdapter : SkfAdapter σ where
  gm3000DeviceManage := Gm3000Handler.deviceManage.handler env lib
  gm3000KeyManage := Gm3000Handler.keyManage.handler env lib
  gm3000AsymCrypto := Gm3000Handler.asymCrypto.handler env lib
  gm3000SymCrypto := Gm3000Handler.symCrypto.handler env lib
  gm3000HashOps := Gm3000Handler.hashOps.handler env lib
  gm3000FileOps := Gm3000Handler.fileOps.handler env lib
  gm3000PqcOps := Gm3000Handler.pqcOps.handler env lib

end Handlers

/-- A call with a payload and a key in `aux_payload`. -/
def sampleCall (domain : ApiDomain) (action : ApiAction) (algorithm payload auxPayload : String) :
    TranslatedCall where
  call := {
    domain := domain
    action := action
    algorithm := store maxFieldLen (lit algorithm)
    keyRef := empty
    payload := store maxPayloadLen (lit payload)
    auxPayload := store maxPayloadLen (lit auxPayload) }
  backendName := store maxFieldLen (lit "classic:gm3000-skf")
  backendCallName := store maxFieldLen (lit "SKF_Encrypt")

end Ucisdk.Gm3000
