import Ucisdk.Driver
import Ucisdk.SkfText

/-!
# Opening and closing the token

A handler loads the library, connects to the device and, where it has to,
opens an application and a container in it. Each step may fail; what was
opened before it is then closed by the function that called it.
-/

set_option autoImplicit false

namespace Ucisdk.SkfSession

open Ucisdk.CString Ucisdk.Common Ucisdk.Translator Ucisdk.Driver
open Ucisdk.SkfApi Ucisdk.SkfText
open Flow.Calls

/-- A result, or `-1` with the text left in errbuf, if one was written. -/
abbrev Status (α : Type) := Except (Option ErrText) α

def fail {α : Type} (text : Bytes) : Status α := .error (some (store errbufLen text))

def missingSymbol {α : Type} (name : String) : Status α :=
  fail (lit "GM3000 SKF library does not export required symbol " ++ lit name)

/-- The message of a function of the library that did not answer `SAR_OK`. -/
def failed {α : Type} (what : Bytes) (rv : Ulong) : Status α :=
  fail (what ++ lit " failed rv=0x" ++ hexUpper rv)

/-- The library and which of its symbols were found. -/
structure Runtime where
  lib : Ptr
  found : SkfSymbol → Bool

structure Session where
  dev : Ptr
  app : Ptr
  container : Ptr
  deriving DecidableEq

def requiredSymbols : List SkfSymbol := [.enumDev, .connectDev, .disConnectDev, .getDevInfo, .genRandom]

def optionalSymbols : List SkfSymbol :=
  [.openApplication, .closeApplication, .verifyPIN, .createContainer, .deleteContainer,
    .openContainer, .closeContainer, .genECCKeyPair, .genRSAKeyPair, .exportPublicKey,
    .eccSignData, .eccVerify, .rsaSignData, .rsaVerify, .extECCEncrypt, .eccDecrypt,
    .extRSAPubKeyOperation, .rsaDecrypt, .setSymmKey, .encryptInit, .encrypt, .decryptInit,
    .decrypt, .mac, .digestInit, .digest, .closeHandle, .createFile, .deleteFile, .readFile,
    .writeFile, .generateKeyPairKyber, .encapKyber, .decapKyber, .generateKeyPairDilithium,
    .signDilithium, .verifyDilithium]

/-- A variable of the environment that is set and not empty. -/
def getenv (env : Env) (name : String) : Option Bytes :=
  match env (lit name) with
  | none => none
  | some value => if value = [] then none else some value

def libPath (env : Env) : Bytes :=
  (getenv env "GM3000_SKF_LIB").getD (lit "./vendor/libgm3000.1.0.so")

def containerNameFromCall (env : Env) (call : TranslatedCall) : Bytes :=
  if call.call.keyRef.bytes ≠ [] then call.call.keyRef.bytes
  else (getenv env "GM3000_SKF_CONTAINER").getD (lit "default")

section Programs

variable {σ : Type} (env : Env) (lib : Library σ)

abbrev Run (σ α : Type) := Prog skf σ α

def lastDlError : Run σ Bytes := do
  let msg ← call lib .dlerror
  pure (msg.getD (lit "unknown dlerror"))

def loadSymbol (handle : Ptr) (sym : SkfSymbol) (required : Bool) : Run σ (Status Bool) := do
  let _ ← call lib .dlerror
  let ptr ← call lib (.dlsym handle sym)
  if ptr = 0 then
    if required then
      let msg ← lastDlError lib
      pure (fail (lit "missing SKF symbol " ++ lit sym.name ++ lit ": " ++ msg))
    else pure (.ok false)
  else pure (.ok true)

/-- The loads of `open_runtime`; one that fails leaves the function. -/
def loadSymbols (required : Bool) : List SkfSymbol → Runtime → Run σ (Status Runtime)
  | [], rt => pure (.ok rt)
  | sym :: rest, rt => do
    match ← loadSymbol lib rt.lib sym required with
    | .error err => pure (.error err)
    | .ok ptr => loadSymbols required rest { rt with found := Function.update rt.found sym ptr }

def openRuntime : Run σ (Status Runtime) := do
  let handle ← call lib (.dlopen (libPath env))
  if handle = 0 then
    let msg ← lastDlError lib
    pure (fail (lit "dlopen " ++ libPath env ++ lit " failed: " ++ msg))
  else
    match ← loadSymbols lib true requiredSymbols ⟨handle, fun _ => false⟩ with
    | .error err => pure (.error err)
    | .ok rt => loadSymbols lib false optionalSymbols rt

def closeRuntime (rt : Runtime) : Run σ Unit :=
  if rt.lib ≠ 0 then call lib (.dlclose rt.lib) else pure ()

/-- The name of the first device, for an array of 256 bytes. -/
def enumFirstDevice : Run σ (Status Bytes) := do
  let first ← call lib .enumDevLength
  if first.rv ≠ sarOk ∨ first.len = 0 then
    pure (fail (lit "SKF_EnumDev length failed rv=0x" ++ hexUpper first.rv ++ lit " len=" ++
      decimal first.len.toNat))
  else
    let buf ← call lib (.calloc (first.len.toNat + 1))
    if buf = 0 then pure (fail (lit "out of memory enumerating SKF devices"))
    else
      let second ← call lib (.enumDev first.len)
      call lib (.free buf)
      if second.rv ≠ sarOk ∨ second.out = [] then pure (failed (lit "SKF_EnumDev") second.rv)
      else pure (.ok (store 256 second.out).bytes)

def deviceName : Run σ (Status Bytes) :=
  match getenv env "GM3000_SKF_DEVICE" with
  | some name => pure (.ok name)
  | none => enumFirstDevice lib

/-- The session is what stands in the caller's variable, also after a failure. -/
def openDevice : Run σ (Session × Status Unit) := do
  match ← deviceName env lib with
  | .error err => pure (⟨0, 0, 0⟩, .error err)
  | .ok name =>
    let opened ← call lib (.connectDev name)
    let sess : Session := ⟨opened.handle, 0, 0⟩
    if opened.rv ≠ sarOk then
      pure (sess, failed (lit "SKF_ConnectDev(" ++ name ++ lit ")") opened.rv)
    else pure (sess, .ok ())

def openApp (rt : Runtime) (sess : Session) : Run σ (Session × Status Unit) :=
  if rt.found .openApplication = false then pure (sess, missingSymbol "SKF_OpenApplication")
  else
    match getenv env "GM3000_SKF_APP" with
    | none => pure (sess, fail (lit "GM3000_SKF_APP is required for this operation"))
    | some name => do
      let opened ← call lib (.openApplication sess.dev name)
      let sess : Session := { sess with app := opened.handle }
      if opened.rv ≠ sarOk then
        pure (sess, failed (lit "SKF_OpenApplication(" ++ name ++ lit ")") opened.rv)
      else pure (sess, .ok ())

def openContainer (rt : Runtime) (sess : Session) (call : TranslatedCall) :
    Run σ (Session × Status Unit) :=
  if rt.found .openContainer = false then pure (sess, missingSymbol "SKF_OpenContainer")
  else do
    let name := containerNameFromCall env call
    let opened ← Flow.Calls.call lib (.openContainer sess.app name)
    let sess : Session := { sess with container := opened.handle }
    if opened.rv ≠ sarOk then
      pure (sess, failed (lit "SKF_OpenContainer(" ++ name ++ lit ")") opened.rv)
    else pure (sess, .ok ())

/-- `SKF_VerifyPIN` with the answer in words. -/
def verifyPin (sess : Session) (pin : Bytes) : Run σ (Status Ulong) := do
  let verified ← call lib (.verifyPIN sess.app pin)
  if verified.rv ≠ sarOk then
    pure (fail (lit "SKF_VerifyPIN failed rv=0x" ++ hexUpper verified.rv ++ lit " retry=" ++
      decimal verified.retry.toNat))
  else pure (.ok verified.retry)

def verifyPinIfSet (rt : Runtime) (sess : Session) : Run σ (Status Unit) :=
  match getenv env "GM3000_SKF_PIN" with
  | none => pure (.ok ())
  | some pin =>
    if rt.found .verifyPIN = false then pure (missingSymbol "SKF_VerifyPIN")
    else do
      match ← verifyPin lib sess pin with
      | .error err => pure (.error err)
      | .ok _ => pure (.ok ())

/-- A close function is called if it was found and there is something to close. -/
def closeIf (handle : Ptr) (found : Bool) (op : Ptr → SkfCall) : Run σ Unit := do
  if handle ≠ 0 ∧ found = true then
    let _ ← call lib (op handle)
    pure ()
  else pure ()

def closeSession (rt : Runtime) (sess : Session) : Run σ Unit := do
  closeIf lib sess.container (rt.found .closeContainer) .closeContainer
  closeIf lib sess.app (rt.found .closeApplication) .closeApplication
  closeIf lib sess.dev true .disConnectDev

def openBase : Run σ (Status (Runtime × Session)) := do
  match ← openRuntime env lib with
  | .error err => pure (.error err)
  | .ok rt =>
    match ← openDevice env lib with
    | (_, .error err) =>
      closeRuntime lib rt
      pure (.error err)
    | (sess, .ok ()) => pure (.ok (rt, sess))

def finalizeErrorOrSuccess {α : Type} (rc : α) (rt : Runtime) (sess : Session) : Run σ α := do
  closeSession lib rt sess
  closeRuntime lib rt
  pure rc

/-- `open_app_container` with its flag `verify_pin` set, as every caller sets it. -/
def openAppContainer (call : TranslatedCall) : Run σ (Status (Runtime × Session)) := do
  match ← openBase env lib with
  | .error err => pure (.error err)
  | .ok (rt, sess) =>
    match ← openApp env lib rt sess with
    | (sess, .error err) => finalizeErrorOrSuccess lib (.error err) rt sess
    | (sess, .ok ()) =>
      match ← verifyPinIfSet env lib rt sess with
      | .error err => finalizeErrorOrSuccess lib (.error err) rt sess
      | .ok () =>
        match ← openContainer env lib rt sess call with
        | (sess, .error err) => finalizeErrorOrSuccess lib (.error err) rt sess
        | (sess, .ok ()) => pure (.ok (rt, sess))

end Programs

end Ucisdk.SkfSession
