import Ucisdk.Translator

/-!
# Adapters and dispatch

A handler runs over a world it may change. It answers with a response, or
fails with the text it left in errbuf, if it wrote one. The two mock adapters
are pure; the adapter of the hardware token is taken as it is.
-/

set_option autoImplicit false

namespace Ucisdk.Driver

open Ucisdk.CString Ucisdk.Common Ucisdk.Protocol Ucisdk.Resource Ucisdk.Translator

abbrev Outcome := Except (Option ErrText) Response

abbrev Handler (σ : Type) := DeviceResource → TranslatedCall → Response → σ → Outcome × σ

structure DriverOps (σ : Type) where
  deviceManage : Option (Handler σ)
  keyManage : Option (Handler σ)
  asymCrypto : Option (Handler σ)
  symCrypto : Option (Handler σ)
  hashOps : Option (Handler σ)
  fileOps : Option (Handler σ)
  pqcOps : Option (Handler σ)

/-- The seven handlers of `skf_adapter.c`. -/
structure SkfAdapter (σ : Type) where
  gm3000DeviceManage : Handler σ
  gm3000KeyManage : Handler σ
  gm3000AsymCrypto : Handler σ
  gm3000SymCrypto : Handler σ
  gm3000HashOps : Handler σ
  gm3000FileOps : Handler σ
  gm3000PqcOps : Handler σ

section Mock

abbrev Mock := DeviceResource → TranslatedCall → Response → Outcome

def notSupported (adapter : String) (call : TranslatedCall) : Outcome :=
  .error (some (store errbufLen (lit adapter ++ lit " adapter does not support domain=" ++
    domainToString call.call.domain ++ lit " action=" ++ actionToString call.call.action ++
    lit " alg=" ++ call.call.algorithm.bytes)))

def fillCommon (device : DeviceResource) (call : TranslatedCall) (resp : Response) : Response :=
  { resp with
    selectedDevice := store maxResponseLen device.deviceId.bytes
    backendName := store maxResponseLen call.backendName.bytes
    backendCall := store maxResponseLen call.backendCallName.bytes }

/-- The filled response with `name(first)` or `name(first,second)` as result. -/
def answer (device : DeviceResource) (call : TranslatedCall) (resp : Response) (name : String)
    (args : List Bytes) : Outcome :=
  .ok { fillCommon device call resp with
    result := store maxResponseLen (lit name ++ lit "(" ++ List.intercalate (lit ",") args ++
      lit ")") }

def randomLength (call : TranslatedCall) : Bytes :=
  if call.call.payload.bytes = [] then lit "16" else call.call.payload.bytes

def classicNotSupported : Mock := fun _ call _ => notSupported "classic" call

def classicDeviceManage : Mock := fun device call resp =>
  match call.call.action with
  | .getDeviceInfo => answer device call resp "classic-device-info" [device.deviceId.bytes]
  | .generateRandom => answer device call resp "classic-random" [randomLength call]
  | _ => notSupported "classic" call

def classicKeyManage : Mock := fun device call resp =>
  let keyRef := call.call.keyRef.bytes
  let algorithm := call.call.algorithm.bytes
  match call.call.action with
  | .getPrivateKeyAccess => answer device call resp "classic-key-access-ok" [keyRef]
  | .releasePrivateKeyAccess => answer device call resp "classic-key-access-released" [keyRef]
  | .generateKeyPair => answer device call resp "classic-keypair" [algorithm, keyRef]
  | .exportPublicKey => answer device call resp "classic-export-pub" [algorithm, keyRef]
  | .importKey => answer device call resp "classic-import-key" [keyRef]
  | .destroyKey => answer device call resp "classic-destroy-key" [keyRef]
  | _ => notSupported "classic" call

def classicAsym : Mock := fun device call resp =>
  let args := [call.call.algorithm.bytes, call.call.payload.bytes]
  match call.call.action with
  | .sign => answer device call resp "classic-signature" args
  | .verify => answer device call resp "classic-verify-ok" args
  | .encrypt => answer device call resp "classic-cipher" args
  | .decrypt => answer device call resp "classic-plain" args
  | _ => notSupported "classic" call

def classicSym : Mock := fun device call resp =>
  let args := [call.call.algorithm.bytes, call.call.payload.bytes]
  match call.call.action with
  | .encrypt => answer device call resp "classic-sym-enc" args
  | .decrypt => answer device call resp "classic-sym-dec" args
  | .mac => answer device call resp "classic-mac" args
  | _ => notSupported "classic" call

def classicHash : Mock := fun device call resp =>
  match call.call.action with
  | .hash =>
    answer device call resp "classic-hash" [call.call.algorithm.bytes, call.call.payload.bytes]
  | _ => notSupported "classic" call

def classicFile : Mock := fun device call resp =>
  match call.call.action with
  | .createFile => answer device call resp "classic-create-file" [call.call.keyRef.bytes]
  | .readFile => answer device call resp "classic-read-file" [call.call.keyRef.bytes]
  | .writeFile => answer device call resp "classic-write-file" [call.call.keyRef.bytes]
  | .deleteFile => answer device call resp "classic-delete-file" [call.call.keyRef.bytes]
  | _ => notSupported "classic" call

def pqcNotSupported : Mock := fun _ call _ => notSupported "pqc" call

def pqcDeviceManage : Mock := fun device call resp =>
  match call.call.action with
  | .getDeviceInfo => answer device call resp "pqc-device-info" [device.deviceId.bytes]
  | .generateRandom => answer device call resp "pqc-random" [randomLength call]
  | _ => notSupported "pqc" call

def pqcKeyManage : Mock := fun device call resp =>
  let keyRef := call.call.keyRef.bytes
  match call.call.action with
  | .getPrivateKeyAccess => answer device call resp "pqc-key-access-ok" [keyRef]
  | .releasePrivateKeyAccess => answer device call resp "pqc-key-access-released" [keyRef]
  | .generateKeyPair =>
    answer device call resp "pqc-keypair" [call.call.algorithm.bytes, keyRef]
  | _ => notSupported "pqc" call

def pqcHash : Mock := fun device call resp =>
  match call.call.action with
  | .hash => answer device call resp "pqc-hash" [call.call.algorithm.bytes, call.call.payload.bytes]
  | _ => notSupported "pqc" call

def pqcFile : Mock := fun device call resp =>
  match call.call.action with
  | .createFile => answer device call resp "pqc-create-file" [call.call.keyRef.bytes]
  | .readFile => answer device call resp "pqc-read-file" [call.call.keyRef.bytes]
  | .writeFile => answer device call resp "pqc-write-file" [call.call.keyRef.bytes]
  | .deleteFile => answer device call resp "pqc-delete-file" [call.call.keyRef.bytes]
  | _ => notSupported "pqc" call

def pqcOpsImpl : Mock := fun device call resp =>
  let args := [call.call.algorithm.bytes, call.call.payload.bytes]
  match call.call.action with
  | .sign => answer device call resp "pqc-signature" args
  | .verify => answer device call resp "pqc-verify-ok" args
  | .kemEncap => answer device call resp "pqc-kem-ct" args
  | .kemDecap => answer device call resp "pqc-kem-ss" args
  | _ => notSupported "pqc" call

end Mock

section Ops

variable {σ : Type}

def Mock.handler (mock : Mock) : Handler σ := fun device call resp world =>
  (mock device call resp, world)

def classicDriverOps : DriverOps σ where
  deviceManage := some classicDeviceManage.handler
  keyManage := some classicKeyManage.handler
  asymCrypto := some classicAsym.handler
  symCrypto := some classicSym.handler
  hashOps := some classicHash.handler
  fileOps := some classicFile.handler
  pqcOps := some classicNotSupported.handler

def pqcDriverOps : DriverOps σ where
  deviceManage := some pqcDeviceManage.handler
  keyManage := some pqcKeyManage.handler
  asymCrypto := some pqcNotSupported.handler
  symCrypto := some pqcNotSupported.handler
  hashOps := some pqcHash.handler
  fileOps := some pqcFile.handler
  pqcOps := some pqcOpsImpl.handler

def skfDriverOps (skf : SkfAdapter σ) : DriverOps σ where
  deviceManage := some skf.gm3000DeviceManage
  keyManage := some skf.gm3000KeyManage
  asymCrypto := some skf.gm3000AsymCrypto
  symCrypto := some skf.gm3000SymCrypto
  hashOps := some skf.gm3000HashOps
  fileOps := some skf.gm3000FileOps
  pqcOps := some skf.gm3000PqcOps

/-- A handler's invocation: the device and the call it was handed. -/
structure Invocation where
  device : DeviceResource
  call : TranslatedCall
  deriving DecidableEq

structure Dispatched (σ : Type) where
  outcome : Outcome
  world : σ
  invoked : Option Invocation

def driverDispatch (ops : DriverOps σ) (domain : ApiDomain) (device : DeviceResource)
    (call : TranslatedCall) (resp : Response) (world : σ) : Dispatched σ :=
  let fn : Except ErrText (Option (Handler σ)) :=
    match domain with
    | .device => .ok ops.deviceManage
    | .key => .ok ops.keyManage
    | .asym => .ok ops.asymCrypto
    | .sym => .ok ops.symCrypto
    | .hash => .ok ops.hashOps
    | .file => .ok ops.fileOps
    | .pqc => .ok ops.pqcOps
    | _ => .error (store errbufLen (lit "unsupported dispatch domain=" ++ domainToString domain))
  match fn with
  | .error errbuf => ⟨.error (some errbuf), world, none⟩
  | .ok none =>
    ⟨.error (some (store errbufLen (lit "adapter missing handler for domain=" ++
      domainToString domain))), world, none⟩
  | .ok (some handler) =>
    let run := handler device call resp world
    ⟨run.1, run.2, some ⟨device, call⟩⟩

end Ops

end Ucisdk.Driver
