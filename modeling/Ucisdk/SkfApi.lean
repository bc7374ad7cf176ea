import Ucisdk.Common
import Ucisdk.Flow.Calls

/-!
# The SKF library

The adapter of the hardware token calls the dynamic linker, the allocator and
a vendor library. What they answer is not known here; this module lists the
calls, their arguments and the shape of their replies.
-/

set_option autoImplicit false

namespace Ucisdk.SkfApi

open Ucisdk.CString Ucisdk.Common
open Flow.Calls

/-- `ULONG` of `skfapi.h` is an `unsigned int`. -/
abbrev Ulong := UInt32

/-- A pointer; `NULL` is 0. -/
abbrev Ptr := ℕ

def sarOk : Ulong := 0

section Constants

def sgdSm3 : Ulong := 0x00000001
def sgdSha256 : Ulong := 0x00000004
def sgdSm21 : Ulong := 0x00020100
def sgdSm23 : Ulong := 0x00020400
def sgdRsaSign : Ulong := 0x00010100
def sgdRsaEnc : Ulong := 0x00010200
def sgdSm4Ecb : Ulong := 0x00000401
def sgdSm4Cbc : Ulong := 0x00000402

abbrev rsaPublicKeyBlobLen : ℕ := 268
abbrev eccPublicKeyBlobLen : ℕ := 132
abbrev eccSignatureBlobLen : ℕ := 128
abbrev eccCipherBlobLen : ℕ := 420
abbrev kyberPublicKeyLen : ℕ := 2052
abbrev kyberPrivateKeyLen : ℕ := 4100
abbrev dilithiumPublicKeyLen : ℕ := 3076
abbrev dilithiumPrivateKeyLen : ℕ := 5124

end Constants

/-- The members of `skf_runtime_t` behind `lib`, in order. -/
inductive SkfSymbol where
  | enumDev
  | connectDev
  | disConnectDev
  | getDevInfo
  | genRandom
  | openApplication
  | closeApplication
  | verifyPIN
  | createContainer
  | deleteContainer
  | openContainer
  | closeContainer
  | genECCKeyPair
  | genRSAKeyPair
  | exportPublicKey
  | eccSignData
  | eccVerify
  | rsaSignData
  | rsaVerify
  | extECCEncrypt
  | eccDecrypt
  | extRSAPubKeyOperation
  | rsaDecrypt
  | setSymmKey
  | encryptInit
  | encrypt
  | decryptInit
  | decrypt
  | mac
  | digestInit
  | digest
  | closeHandle
  | createFile
  | deleteFile
  | readFile
  | writeFile
  | generateKeyPairKyber
  | encapKyber
  | decapKyber
  | generateKeyPairDilithium
  | signDilithium
  | verifyDilithium
  deriving DecidableEq, Repr

def SkfSymbol.name : SkfSymbol → String
  | .enumDev => "SKF_EnumDev"
  | .connectDev => "SKF_ConnectDev"
  | .disConnectDev => "SKF_DisConnectDev"
  | .getDevInfo => "SKF_GetDevInfo"
  | .genRandom => "SKF_GenRandom"
  | .openApplication => "SKF_OpenApplication"
  | .closeApplication => "SKF_CloseApplication"
  | .verifyPIN => "SKF_VerifyPIN"
  | .createContainer => "SKF_CreateContainer"
  | .deleteContainer => "SKF_DeleteContainer"
  | .openContainer => "SKF_OpenContainer"
  | .closeContainer => "SKF_CloseContainer"
  | .genECCKeyPair => "SKF_GenECCKeyPair"
  | .genRSAKeyPair => "SKF_GenRSAKeyPair"
  | .exportPublicKey => "SKF_ExportPublicKey"
  | .eccSignData => "SKF_ECCSignData"
  | .eccVerify => "SKF_ECCVerify"
  | .rsaSignData => "SKF_RSASignData"
  | .rsaVerify => "SKF_RSAVerify"
  | .extECCEncrypt => "SKF_ExtECCEncrypt"
  | .eccDecrypt => "SKF_ECCDecrypt"
  | .extRSAPubKeyOperation => "SKF_ExtRSAPubKeyOperation"
  | .rsaDecrypt => "SKF_RSADecrypt"
  | .setSymmKey => "SKF_SetSymmKey"
  | .encryptInit => "SKF_EncryptInit"
  | .encrypt => "SKF_Encrypt"
  | .decryptInit => "SKF_DecryptInit"
  | .decrypt => "SKF_Decrypt"
  | .mac => "SKF_Mac"
  | .digestInit => "SKF_DigestInit"
  | .digest => "SKF_Digest"
  | .closeHandle => "SKF_CloseHandle"
  | .createFile => "SKF_CreateFile"
  | .deleteFile => "SKF_DeleteFile"
  | .readFile => "SKF_ReadFile"
  | .writeFile => "SKF_WriteFile"
  | .generateKeyPairKyber => "SKF_GenerateKeyPairKyber"
  | .encapKyber => "SKF_Encap_Kyber"
  | .decapKyber => "SKF_Decap_Kyber"
  | .generateKeyPairDilithium => "SKF_GenerateKeyPair_Dilithium"
  | .signDilithium => "SKF_Sign_Dilithium"
  | .verifyDilithium => "SKF_Verify_Dilithium"

/-- The calls with the arguments that vary. A byte string stands for a pointer
and its length; `cap` is the length of an output buffer as it is passed in. -/
inductive SkfCall where
  | dlopen (path : Bytes)
  | dlerror
  | dlsym (lib : Ptr) (sym : SkfSymbol)
  | dlclose (lib : Ptr)
  | calloc (size : ℕ)
  | free (block : Ptr)
  | enumDevLength
  | enumDev (len : Ulong)
  | connectDev (name : Bytes)
  | disConnectDev (dev : Ptr)
  | getDevInfo (dev : Ptr)
  | genRandom (dev : Ptr) (len : Ulong)
  | openApplication (dev : Ptr) (name : Bytes)
  | closeApplication (app : Ptr)
  | verifyPIN (app : Ptr) (pin : Bytes)
  | deleteContainer (app : Ptr) (name : Bytes)
  | openContainer (app : Ptr) (name : Bytes)
  | closeContainer (container : Ptr)
  | genECCKeyPair (container : Ptr) (alg : Ulong)
  | genRSAKeyPair (container : Ptr) (bits : Ulong)
  | exportPublicKey (container : Ptr) (cap : ℕ)
  | eccSignData (container : Ptr) (input : Bytes)
  | eccVerify (dev : Ptr) (pub input sig : Bytes)
  | rsaSignData (container : Ptr) (input : Bytes) (cap : ℕ)
  | rsaVerify (dev : Ptr) (pub input sig : Bytes)
  | extECCEncrypt (dev : Ptr) (pub input : Bytes)
  | eccDecrypt (container : Ptr) (alg : Ulong) (cipher : Bytes) (cap : ℕ)
  | extRSAPubKeyOperation (dev : Ptr) (pub input : Bytes) (cap : ℕ)
  | rsaDecrypt (container : Ptr) (alg : Ulong) (input : Bytes) (cap : ℕ)
  | setSymmKey (dev : Ptr) (key : Bytes) (alg : Ulong)
  | encryptInit (hkey : Ptr)
  | encrypt (hkey : Ptr) (input : Bytes) (cap : ℕ)
  | decryptInit (hkey : Ptr)
  | decrypt (hkey : Ptr) (input : Bytes) (cap : ℕ)
  | mac (hkey : Ptr) (input : Bytes) (cap : ℕ)
  | digestInit (dev : Ptr) (alg : Ulong)
  | digest (hhash : Ptr) (input : Bytes) (cap : ℕ)
  | closeHandle (handle : Ptr)
  | createFile (app : Ptr) (name : Bytes) (size readRights writeRights : Ulong)
  | deleteFile (app : Ptr) (name : Bytes)
  | readFile (app : Ptr) (name : Bytes) (offset size : Ulong)
  | writeFile (app : Ptr) (name : Bytes) (offset : Ulong) (data : Bytes)
  | encapKyber (dev : Ptr) (pub : Bytes) (cap sharedCap : ℕ)
  | decapKyber (dev : Ptr) (input pri : Bytes) (cap : ℕ)
  | signDilithium (dev : Ptr) (input pri : Bytes) (cap : ℕ)
  | verifyDilithium (dev : Ptr) (pub input sig : Bytes)
  deriving DecidableEq

/-- A call that opens something: the handle is what stands in the caller's
variable after the call, which held `NULL` before. -/
structure Opened where
  rv : Ulong
  handle : Ptr

/-- A call with an output buffer: `out` is what the buffer holds up to the
length that was returned. -/
structure Output where
  rv : Ulong
  out : Bytes

structure Encapsulated where
  rv : Ulong
  out : Bytes
  shared : Bytes

structure Enumerated where
  rv : Ulong
  len : Ulong

structure Verified where
  rv : Ulong
  retry : Ulong

/-- The character arrays of `DEVINFO` that are read, up to a NUL. -/
structure DevInfo where
  rv : Ulong
  label : Bytes
  serialNumber : Bytes
  manufacturer : Bytes

@[reducible] def SkfCall.Reply : SkfCall → Type
  | .dlopen _ => Ptr
  | .dlerror => Option Bytes
  | .dlsym _ _ => Ptr
  | .dlclose _ => Unit
  | .calloc _ => Ptr
  | .free _ => Unit
  | .enumDevLength => Enumerated
  | .enumDev _ => Output
  | .connectDev _ => Opened
  | .disConnectDev _ => Ulong
  | .getDevInfo _ => DevInfo
  | .genRandom _ _ => Output
  | .openApplication _ _ => Opened
  | .closeApplication _ => Ulong
  | .verifyPIN _ _ => Verified
  | .deleteContainer _ _ => Ulong
  | .openContainer _ _ => Opened
  | .closeContainer _ => Ulong
  | .genECCKeyPair _ _ => Output
  | .genRSAKeyPair _ _ => Output
  | .exportPublicKey _ _ => Output
  | .eccSignData _ _ => Output
  | .eccVerify _ _ _ _ => Ulong
  | .rsaSignData _ _ _ => Output
  | .rsaVerify _ _ _ _ => Ulong
  | .extECCEncrypt _ _ _ => Output
  | .eccDecrypt _ _ _ _ => Output
  | .extRSAPubKeyOperation _ _ _ _ => Output
  | .rsaDecrypt _ _ _ _ => Output
  | .setSymmKey _ _ _ => Opened
  | .encryptInit _ => Ulong
  | .encrypt _ _ _ => Output
  | .decryptInit _ => Ulong
  | .decrypt _ _ _ => Output
  | .mac _ _ _ => Output
  | .digestInit _ _ => Opened
  | .digest _ _ _ => Output
  | .closeHandle _ => Ulong
  | .createFile _ _ _ _ _ => Ulong
  | .deleteFile _ _ => Ulong
  | .readFile _ _ _ _ => Output
  | .writeFile _ _ _ _ => Ulong
  | .encapKyber _ _ _ _ => Encapsulated
  | .decapKyber _ _ _ _ => Output
  | .signDilithium _ _ _ _ => Output
  | .verifyDilithium _ _ _ _ => Ulong

/-- The external functions; the adapter's programs are over these. -/
@[reducible] def skf : Signature where
  Op := SkfCall
  Reply := SkfCall.Reply

abbrev Library (σ : Type) := Interpreter skf σ

/-- `getenv`. -/
abbrev Env := Bytes → Option Bytes

/-- A library that exports some symbols, answers every call with `SAR_OK` and
returns the same bytes each time. -/
def obliging (exports : SkfSymbol → Bool) (out : Bytes) : Library Unit := fun op _ =>
  let reply : op.Reply :=
    match op with
    | .dlopen _ => (1 : ℕ)
    | .dlerror => none
    | .dlsym _ sym => if exports sym = true then (1 : ℕ) else (0 : ℕ)
    | .dlclose _ => ()
    | .calloc _ => (1 : ℕ)
    | .free _ => ()
    | .enumDevLength => ⟨sarOk, 16⟩
    | .enumDev _ => ⟨sarOk, lit "token"⟩
    | .connectDev _ => ⟨sarOk, 1⟩
    | .disConnectDev _ => sarOk
    | .getDevInfo _ => ⟨sarOk, lit "token", lit "1", lit "vendor"⟩
    | .genRandom _ _ => ⟨sarOk, out⟩
    | .openApplication _ _ => ⟨sarOk, 1⟩
    | .closeApplication _ => sarOk
    | .verifyPIN _ _ => ⟨sarOk, 10⟩
    | .deleteContainer _ _ => sarOk
    | .openContainer _ _ => ⟨sarOk, 1⟩
    | .closeContainer _ => sarOk
    | .genECCKeyPair _ _ => ⟨sarOk, out⟩
    | .genRSAKeyPair _ _ => ⟨sarOk, out⟩
    | .exportPublicKey _ _ => ⟨sarOk, out⟩
    | .eccSignData _ _ => ⟨sarOk, out⟩
    | .eccVerify _ _ _ _ => sarOk
    | .rsaSignData _ _ _ => ⟨sarOk, out⟩
    | .rsaVerify _ _ _ _ => sarOk
    | .extECCEncrypt _ _ _ => ⟨sarOk, out⟩
    | .eccDecrypt _ _ _ _ => ⟨sarOk, out⟩
    | .extRSAPubKeyOperation _ _ _ _ => ⟨sarOk, out⟩
    | .rsaDecrypt _ _ _ _ => ⟨sarOk, out⟩
    | .setSymmKey _ _ _ => ⟨sarOk, 1⟩
    | .encryptInit _ => sarOk
    | .encrypt _ _ _ => ⟨sarOk, out⟩
    | .decryptInit _ => sarOk
    | .decrypt _ _ _ => ⟨sarOk, out⟩
    | .mac _ _ _ => ⟨sarOk, out⟩
    | .digestInit _ _ => ⟨sarOk, 1⟩
    | .digest _ _ _ => ⟨sarOk, out⟩
    | .closeHandle _ => sarOk
    | .createFile _ _ _ _ _ => sarOk
    | .deleteFile _ _ => sarOk
    | .readFile _ _ _ _ => ⟨sarOk, out⟩
    | .writeFile _ _ _ _ => sarOk
    | .encapKyber _ _ _ _ => ⟨sarOk, out, out⟩
    | .decapKyber _ _ _ _ => ⟨sarOk, out⟩
    | .signDilithium _ _ _ _ => ⟨sarOk, out⟩
    | .verifyDilithium _ _ _ _ => sarOk
  (reply, ())

end Ucisdk.SkfApi
