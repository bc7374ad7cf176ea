import Ucisdk.Common

/-!
# The client's request builder

Every append writes what fits and reports whether all of it did. A chain of
appends stops at the first one that reports a failure, and leaves the text
that was written up to there.
-/

set_option autoImplicit false

namespace Ucisdk.Ccm

open Ucisdk.CString Ucisdk.Common

inductive CcmCode where
  | ok
  | invalidArgument
  | unsupportedAlgorithm
  | bufferTooSmall
  deriving DecidableEq, Repr

structure UnifKeyRef where
  uiAlgID : UInt32
  uiUsage : UInt32
  uiSource : UInt32
  uiKeyIndex : UInt32
  hKeyHandle : UInt64
  pExternalKey : UInt64
  szKeyId : CStr 64
  szDeviceId : CStr 64

structure UnifBuffer where
  pucData : UInt64
  uiDataLen : UInt32

structure UnifAlgParams where
  uiAlgID : UInt32
  uiMode : UInt32
  uiPadding : UInt32
  uiHashAlgID : UInt32
  uiSecurityLevel : UInt32
  pExParams : UInt64

structure CcmJsonOptions where
  requestId : CStr 64
  keyRef : CStr 512
  payload : CStr 1024
  auxPayload : CStr 1024
  deviceHint : CStr 256
  preference : CStr 256
  sequence : CStr 1024

/-- An append to a character array: its return code and the array it leaves. -/
abbrev Appender (cap : ℕ) := CStr cap → CcmCode × CStr cap

section Append

variable {cap : ℕ} [NeZero cap]

/-- `snprintf` behind the text that is there, and the check of its length. -/
def appendRaw (s : Bytes) : Appender cap := fun out =>
  (if s.length < cap - out.bytes.length then .ok else .bufferTooSmall, append out s)

def appendAll : List (Appender cap) → Appender cap
  | [], out => (.ok, out)
  | a :: as, out =>
    match a out with
    | (.ok, out) => appendAll as out
    | (rc, out) => (rc, out)

def separator (out : CStr cap) : Bytes := if out.bytes = [] then [] else lit ";"

def appendToken (name : String) (value : UInt32) : Appender cap := fun out =>
  appendRaw (separator out ++ lit name ++ lit "=" ++ decimal value.toNat) out

/-- The text of `%p`. -/
def pointer (ptr : UInt64) : Bytes :=
  if ptr = 0 then lit "(nil)" else lit "0x" ++ hexadecimal ptr.toNat

def appendPtr (name : String) (ptr : UInt64) : Appender cap := fun out =>
  appendRaw (separator out ++ lit name ++ lit "=" ++ pointer ptr) out

def appendAlgParams (p : UnifAlgParams) : Appender cap :=
  appendAll [appendToken "mode" p.uiMode, appendToken "padding" p.uiPadding,
    appendToken "hash_alg" p.uiHashAlgID, appendToken "security_level" p.uiSecurityLevel,
    appendPtr "ex_params" p.pExParams]

/-- An id behind its name, left out when it is empty. -/
def appendId (name : String) (id : CStr 64) : Appender cap := fun out =>
  if id.bytes = [] then (.ok, out)
  else appendAll [fun out => appendRaw (separator out ++ lit name ++ lit "=") out,
    appendRaw id.bytes] out

def appendKeyRef (key : UnifKeyRef) : Appender cap :=
  appendAll [appendToken "alg" key.uiAlgID, appendToken "usage" key.uiUsage,
    appendToken "source" key.uiSource, appendToken "key_index" key.uiKeyIndex,
    appendPtr "key_handle" key.hKeyHandle, appendPtr "external_key" key.pExternalKey,
    appendId "key_id" key.szKeyId, appendId "device_id" key.szDeviceId]

def appendBuffer (name : String) (buf : UnifBuffer) : Appender cap :=
  appendAll [appendPtr name buf.pucData, appendToken "len" buf.uiDataLen]

end Append

section Json

def hexDigit (n : UInt8) : UInt8 := if n < 10 then 48 + n else 87 + n

/-- The text `tmp` of one byte of a string. -/
def escapeByte (c : UInt8) : Bytes :=
  if c = 34 ∨ c = 92 then [92, c]
  else if c = 10 then lit "\\n"
  else if c = 13 then lit "\\r"
  else if c = 9 then lit "\\t"
  else if c < 32 then lit "\\u00" ++ [hexDigit (c / 16), hexDigit (c % 16)]
  else [c]

variable {cap : ℕ} [NeZero cap]

def appendJsonString (value : Bytes) : Appender cap :=
  appendAll (value.map fun c => appendRaw (escapeByte c))

def appendField (name : Bytes) (value : Bytes) (comma : Bool) : Appender cap :=
  appendAll [appendRaw (if comma then lit ",\"" else lit "\""), appendRaw name,
    appendRaw (lit "\":\""), appendJsonString value, appendRaw (lit "\"")]

/-- A member of the options, left out when it is empty. -/
def appendOption (name : String) (value : Bytes) : Appender cap := fun out =>
  if value = [] then (.ok, out) else appendField (lit name) value true out

end Json

def ccmAlgName (uiAlgID : UInt32) : Option Bytes :=
  match uiAlgID.toNat with
  | 0 => some (lit "auto")
  | 1 | 2 | 3 => some (lit "sm2")
  | 4 | 5 | 6 => some (lit "rsa")
  | 7 => some (lit "sm3")
  | 8 => some (lit "sha256")
  | 9 => some (lit "sm4-cbc")
  | 10 => some (lit "sm4-ecb")
  | 11 => some (lit "sm4-mac")
  | 12 => some (lit "aes-cbc")
  | 13 => some (lit "aes-ecb")
  | 14 => some (lit "kyber512")
  | 15 => some (lit "kyber768")
  | 16 => some (lit "kyber1024")
  | 17 => some (lit "mlkem768")
  | 18 => some (lit "dilithium2")
  | 19 => some (lit "dilithium3")
  | 20 => some (lit "dilithium5")
  | 21 => some (lit "sm9")
  | _ => none

def copyOut (value : Bytes) (cap : ℕ) [NeZero cap] : CcmCode × CStr cap :=
  (if value.length < cap then .ok else .bufferTooSmall, store cap value)

def ccmAlgorithmName (uiAlgID : UInt32) (cap : ℕ) [NeZero cap] : CcmCode × CStr cap :=
  match ccmAlgName uiAlgID with
  | none => (.unsupportedAlgorithm, empty)
  | some name => copyOut name cap

def buildJson (domain action : Bytes) (uiAlgID : UInt32) (opts : CcmJsonOptions) (cap : ℕ)
    [NeZero cap] : CcmCode × CStr cap :=
  if opts.requestId.bytes = [] then (.invalidArgument, empty)
  else
    match ccmAlgorithmName uiAlgID 64 with
    | (.ok, algorithm) =>
      appendAll [appendRaw (lit "\x7b"),
        appendField (lit "request_id") opts.requestId.bytes false,
        appendField (lit "domain") domain true, appendField (lit "action") action true,
        appendField (lit "algorithm") algorithm.bytes true,
        appendOption "key_ref" opts.keyRef.bytes, appendOption "payload" opts.payload.bytes,
        appendOption "aux_payload" opts.auxPayload.bytes,
        appendOption "device_hint" opts.deviceHint.bytes,
        appendOption "preference" opts.preference.bytes,
        appendOption "sequence" opts.sequence.bytes, appendRaw (lit "\x7d\n")] empty
    | (_, _) => (.unsupportedAlgorithm, empty)

def initOpts (requestId : String) : CcmJsonOptions where
  requestId := store 64 (lit requestId)
  keyRef := empty
  payload := empty
  auxPayload := empty
  deviceHint := empty
  preference := empty
  sequence := empty

def algOrAuto (p : UnifAlgParams) : UInt32 := if p.uiAlgID = 0 then 0 else p.uiAlgID

/-- The options of a hybrid call; the codes of the appends are not looked at. -/
def hybridOpts (requestId sequence : String) (alg : UnifAlgParams) (classicKey pqcKey : UnifKeyRef)
    (data signature : UnifBuffer) : CcmJsonOptions :=
  { initOpts requestId with
    payload := (appendBuffer "data" data (appendAlgParams alg empty).2).2
    keyRef := (appendKeyRef pqcKey (appendKeyRef classicKey empty).2).2
    auxPayload := (appendBuffer "signature" signature empty).2
    sequence := store 1024 (lit sequence) }

def ccmHybridSign (alg : UnifAlgParams) (classicKey pqcKey : UnifKeyRef)
    (data signature : UnifBuffer) : CcmCode × CStr 2048 :=
  buildJson (lit "asym") (lit "sign") (algOrAuto alg)
    (hybridOpts "ccm-hybrid-sign" "asym:sign:classic:sm2>pqc:sign:pqc:dilithium3" alg classicKey
      pqcKey data signature) 2048

def ccmHybridVerify (alg : UnifAlgParams) (classicKey pqcKey : UnifKeyRef)
    (data signature : UnifBuffer) : CcmCode × CStr 2048 :=
  buildJson (lit "asym") (lit "verify") (algOrAuto alg)
    (hybridOpts "ccm-hybrid-verify" "asym:verify:classic:sm2>pqc:verify:pqc:dilithium3" alg
      classicKey pqcKey data signature) 2048

section Routed

/-- What the pointers of a call point to. -/
structure Memory where
  algParamsAt : UInt64 → UnifAlgParams
  keyRefAt : UInt64 → UnifKeyRef
  bufferAt : UInt64 → UnifBuffer
  byteAt : UInt64 → UInt8

/-- What a pointer points to, unless it is NULL. -/
def load {α : Type} (at_ : UInt64 → α) (ptr : UInt64) : Option α :=
  if ptr = 0 then none else some (at_ ptr)

/-- An append that is passed over for NULL, whose failure ends the call. -/
def appendGiven {α : Type} {cap : ℕ} (append : α → Appender cap) (given : Option α)
    (out : CStr cap) : Except CcmCode (CStr cap) :=
  match given with
  | none => .ok out
  | some a =>
    match append a out with
    | (.ok, out) => .ok out
    | (_, _) => .error .bufferTooSmall

def bufferedOpts (requestId : String) (pAlgParams : Option UnifAlgParams)
    (pKey : Option UnifKeyRef) (pPrimary pAuxIn pOutput : Option UnifBuffer) :
    Except CcmCode CcmJsonOptions := do
  let o := initOpts requestId
  let payload ← appendGiven appendAlgParams pAlgParams o.payload
  let keyRef ← appendGiven appendKeyRef pKey o.keyRef
  let payload ← appendGiven (appendBuffer "data") pPrimary payload
  let auxPayload ← appendGiven (appendBuffer "aux") pAuxIn o.auxPayload
  let auxPayload ← appendGiven (appendBuffer "out") pOutput auxPayload
  .ok { o with
    payload := payload
    keyRef := keyRef
    auxPayload := auxPayload }

def algOrAutoGiven (pAlgParams : Option UnifAlgParams) : UInt32 :=
  match pAlgParams with
  | none => 0
  | some p => algOrAuto p

def routeBuffered (requestId domain action : String) (pAlgParams : Option UnifAlgParams)
    (pKey : Option UnifKeyRef) (pPrimary pAuxIn pOutput : Option UnifBuffer) :
    CcmCode × CStr 2048 :=
  match bufferedOpts requestId pAlgParams pKey pPrimary pAuxIn pOutput with
  | .error rc => (rc, empty)
  | .ok o => buildJson (lit domain) (lit action) (algOrAutoGiven pAlgParams) o 2048

/-- The local parameters of a call that is given none. -/
def plainParams (uiAlgID : UInt32) : UnifAlgParams where
  uiAlgID := uiAlgID
  uiMode := 0
  uiPadding := 0
  uiHashAlgID := 0
  uiSecurityLevel := 0
  pExParams := 0

def signDomain (pAlgParams : Option UnifAlgParams) : String :=
  if algOrAutoGiven pAlgParams = 18 ∨ algOrAutoGiven pAlgParams = 19 ∨
      algOrAutoGiven pAlgParams = 20 then "pqc"
  else "asym"

variable (m : Memory)

def ccmHash (pAlgParams pData pHash : UInt64) : CcmCode × CStr 2048 :=
  routeBuffered "ccm-hash" "hash" "hash" (load m.algParamsAt pAlgParams) none
    (load m.bufferAt pData) none (load m.bufferAt pHash)

def ccmHashInit (pAlgParams : UInt64) : CcmCode × CStr 2048 :=
  routeBuffered "ccm-hash-init" "hash" "hash" (load m.algParamsAt pAlgParams) none none none none

def ccmHashUpdate (pData : UInt64) : CcmCode × CStr 2048 :=
  routeBuffered "ccm-hash-update" "hash" "hash" (some (plainParams 0)) none (load m.bufferAt pData)
    none none

def ccmHashFinal (pHash : UInt64) : CcmCode × CStr 2048 :=
  routeBuffered "ccm-hash-final" "hash" "hash" (some (plainParams 0)) none none none
    (load m.bufferAt pHash)

def ccmMac (pAlgParams pKey pIV pData pMac : UInt64) : CcmCode × CStr 2048 :=
  routeBuffered "ccm-mac" "sym" "mac" (load m.algParamsAt pAlgParams) (load m.keyRefAt pKey)
    (load m.bufferAt pData) (load m.bufferAt pIV) (load m.bufferAt pMac)

def ccmSymEncrypt (pAlgParams pKey pIV pData pCipher : UInt64) : CcmCode × CStr 2048 :=
  routeBuffered "ccm-sym-enc" "sym" "encrypt" (load m.algParamsAt pAlgParams)
    (load m.keyRefAt pKey) (load m.bufferAt pData) (load m.bufferAt pIV) (load m.bufferAt pCipher)

def ccmSymDecrypt (pAlgParams pKey pIV pCipher pData : UInt64) : CcmCode × CStr 2048 :=
  routeBuffered "ccm-sym-dec" "sym" "decrypt" (load m.algParamsAt pAlgParams)
    (load m.keyRefAt pKey) (load m.bufferAt pCipher) (load m.bufferAt pIV) (load m.bufferAt pData)

def ccmAsymEncrypt (pAlgParams pPublicKey pData pCipher : UInt64) : CcmCode × CStr 2048 :=
  routeBuffered "ccm-asym-enc" "asym" "encrypt" (load m.algParamsAt pAlgParams)
    (load m.keyRefAt pPublicKey) (load m.bufferAt pData) none (load m.bufferAt pCipher)

def ccmAsymDecrypt (pAlgParams pPrivateKey pCipher pData : UInt64) : CcmCode × CStr 2048 :=
  routeBuffered "ccm-asym-dec" "asym" "decrypt" (load m.algParamsAt pAlgParams)
    (load m.keyRefAt pPrivateKey) (load m.bufferAt pCipher) none (load m.bufferAt pData)

def ccmImportKey (pAlgParams pKeyBlob pKey : UInt64) : CcmCode × CStr 2048 :=
  routeBuffered "ccm-import-key" "key" "import_key" (load m.algParamsAt pAlgParams)
    (load m.keyRefAt pKey) (load m.bufferAt pKeyBlob) none none

/-- The local parameters of a call that takes the algorithm from the key. -/
def keyParams (pKey : Option UnifKeyRef) : UnifAlgParams :=
  plainParams (match pKey with
    | none => 0
    | some key => key.uiAlgID)

def ccmExportPublicKey (pKey pPublicKeyBlob : UInt64) : CcmCode × CStr 2048 :=
  routeBuffered "ccm-export-pub" "key" "export_public_key"
    (some (keyParams (load m.keyRefAt pKey))) (load m.keyRefAt pKey) none none
    (load m.bufferAt pPublicKeyBlob)

def ccmDestroyKey (pKey : UInt64) : CcmCode × CStr 2048 :=
  routeBuffered "ccm-destroy-key" "key" "destroy_key" (some (keyParams (load m.keyRefAt pKey)))
    (load m.keyRefAt pKey) none none none

def ccmGetKeyInfo (pKey pKeyInfo : UInt64) : CcmCode × CStr 2048 :=
  routeBuffered "ccm-key-info" "key" "export_public_key" (some (keyParams (load m.keyRefAt pKey)))
    (load m.keyRefAt pKey) none none (load m.bufferAt pKeyInfo)

def ccmKemEncapsulate (pAlgParams pPublicKey pCipherText pSharedSecret : UInt64) :
    CcmCode × CStr 2048 :=
  routeBuffered "ccm-kem-encap" "pqc" "kem_encap" (load m.algParamsAt pAlgParams)
    (load m.keyRefAt pPublicKey) none (load m.bufferAt pCipherText)
    (load m.bufferAt pSharedSecret)

def ccmKemDecapsulate (pAlgParams pPrivateKey pCipherText pSharedSecret : UInt64) :
    CcmCode × CStr 2048 :=
  routeBuffered "ccm-kem-decap" "pqc" "kem_decap" (load m.algParamsAt pAlgParams)
    (load m.keyRefAt pPrivateKey) (load m.bufferAt pCipherText) none (load m.bufferAt pSharedSecret)

def ccmSign (pAlgParams pPrivateKey pData pSignature : UInt64) : CcmCode × CStr 2048 :=
  routeBuffered "ccm-sign" (signDomain (load m.algParamsAt pAlgParams)) "sign"
    (load m.algParamsAt pAlgParams) (load m.keyRefAt pPrivateKey) (load m.bufferAt pData) none
    (load m.bufferAt pSignature)

def ccmVerify (pAlgParams pPublicKey pData pSignature : UInt64) : CcmCode × CStr 2048 :=
  routeBuffered "ccm-verify" (signDomain (load m.algParamsAt pAlgParams)) "verify"
    (load m.algParamsAt pAlgParams) (load m.keyRefAt pPublicKey) (load m.bufferAt pData)
    (load m.bufferAt pSignature) none

def ccmSignDigest (pAlgParams pPrivateKey pDigest pSignature : UInt64) : CcmCode × CStr 2048 :=
  ccmSign m pAlgParams pPrivateKey pDigest pSignature

def ccmVerifyDigest (pAlgParams pPublicKey pDigest pSignature : UInt64) : CcmCode × CStr 2048 :=
  ccmVerify m pAlgParams pPublicKey pDigest pSignature

end Routed

section Unchecked

/-- Appends whose codes are not looked at. -/
def appendEach {cap : ℕ} (as : List (Appender cap)) (out : CStr cap) : CStr cap :=
  as.foldl (fun out a => (a out).2) out

/-- An append that is passed over for NULL. -/
def appendGivenEach {α : Type} {cap : ℕ} (append : α → Appender cap) (given : Option α) :
    List (Appender cap) :=
  (given.map append).toList

variable (m : Memory)

def ccmGetCapability (pCapabilityOut : UInt64) : CcmCode × CStr 2048 :=
  match load m.bufferAt pCapabilityOut with
  | some capability =>
    buildJson (lit "device") (lit "get_device_info") 0
      { initOpts "ccm-capability" with
        auxPayload := appendEach [appendBuffer "capability" capability] empty } 2048
  | none => (.invalidArgument, empty)

def ccmGenerateRandom (uiLength : UInt32) (pucRandom : UInt64) : CcmCode × CStr 2048 :=
  if pucRandom = 0 ∧ uiLength ≠ 0 then (.invalidArgument, empty)
  else
    buildJson (lit "device") (lit "generate_random") 0
      { initOpts "ccm-random" with
        payload := appendEach [appendToken "length" uiLength] empty
        auxPayload := appendEach [appendPtr "random" pucRandom] empty } 2048

def keyPairOpts (alg : UnifAlgParams) (uiKeyIndex : UInt32) (publicKey privateKey : UnifKeyRef) :
    CcmJsonOptions :=
  { initOpts "ccm-keypair" with
    payload := appendEach [appendAlgParams alg] empty
    keyRef := appendEach [appendToken "key_index" uiKeyIndex] empty
    auxPayload := appendEach [appendKeyRef publicKey, appendKeyRef privateKey] empty }

def ccmGenerateKeyPair (pAlgParams : UInt64) (uiKeyIndex : UInt32)
    (pPublicKey pPrivateKey : UInt64) : CcmCode × CStr 2048 :=
  match load m.algParamsAt pAlgParams, load m.keyRefAt pPublicKey, load m.keyRefAt pPrivateKey with
  | some alg, some publicKey, some privateKey =>
    buildJson (lit "key") (lit "generate_key_pair") (algOrAuto alg)
      (keyPairOpts alg uiKeyIndex publicKey privateKey) 2048
  | _, _, _ => (.invalidArgument, empty)

def symKeyOpts (alg : UnifAlgParams) (uiKeyIndex : UInt32) (key : UnifKeyRef) : CcmJsonOptions :=
  { initOpts "ccm-sym-key" with
    payload := appendEach [appendAlgParams alg] empty
    keyRef := appendEach [appendToken "key_index" uiKeyIndex] empty
    auxPayload := appendEach [appendKeyRef key] empty }

def ccmGenerateSymKey (pAlgParams : UInt64) (uiKeyIndex : UInt32) (pKey : UInt64) :
    CcmCode × CStr 2048 :=
  match load m.algParamsAt pAlgParams, load m.keyRefAt pKey with
  | some alg, some key =>
    buildJson (lit "key") (lit "import_key") (algOrAuto alg) (symKeyOpts alg uiKeyIndex key) 2048
  | _, _ => (.invalidArgument, empty)

/-- The options of either half of a key agreement. -/
def agreementOpts (requestId input output : String) (alg : UnifAlgParams) (key : UnifKeyRef)
    (inputData outputData : UnifBuffer) (made : UnifKeyRef) : CcmJsonOptions :=
  { initOpts requestId with
    payload := appendEach [appendAlgParams alg, appendBuffer input inputData] empty
    keyRef := appendEach [appendKeyRef key] empty
    auxPayload := appendEach [appendBuffer output outputData, appendKeyRef made] empty }

def ccmKeyAgreementInit (pAlgParams pSelfPrivateKey pSelfID pAgreementData pAgreementHandle : UInt64) :
    CcmCode × CStr 2048 :=
  match load m.algParamsAt pAlgParams, load m.keyRefAt pSelfPrivateKey, load m.bufferAt pSelfID,
    load m.bufferAt pAgreementData, load m.keyRefAt pAgreementHandle with
  | some alg, some key, some selfID, some agreementData, some handle =>
    buildJson (lit "key") (lit "generate_key_pair") (algOrAuto alg)
      (agreementOpts "ccm-agree-init" "self_id" "agreement_data" alg key selfID agreementData
        handle) 2048
  | _, _, _, _, _ => (.invalidArgument, empty)

def ccmKeyAgreementComplete
    (pAlgParams pAgreementOrPrivateKey pPeerData pSelfData pSessionKey : UInt64) :
    CcmCode × CStr 2048 :=
  match load m.algParamsAt pAlgParams, load m.keyRefAt pAgreementOrPrivateKey,
    load m.bufferAt pPeerData, load m.bufferAt pSelfData, load m.keyRefAt pSessionKey with
  | some alg, some key, some peerData, some selfData, some sessionKey =>
    buildJson (lit "key") (lit "import_key") (algOrAuto alg)
      (agreementOpts "ccm-agree-complete" "peer_data" "self_data" alg key peerData selfData
        sessionKey) 2048
  | _, _, _, _, _ => (.invalidArgument, empty)

def hybridAgreementOpts (alg : UnifAlgParams) (classicKey pqcKey : UnifKeyRef)
    (peerData transcript : Option UnifBuffer) (sessionKey : UnifKeyRef) : CcmJsonOptions :=
  { initOpts "ccm-hybrid-agree" with
    payload := appendEach ([appendAlgParams alg] ++ appendGivenEach (appendBuffer "peer") peerData)
      empty
    keyRef := appendEach [appendKeyRef classicKey, appendKeyRef pqcKey] empty
    auxPayload := appendEach (appendGivenEach (appendBuffer "transcript") transcript ++
      [appendKeyRef sessionKey]) empty }

def ccmHybridKeyAgreement
    (pAlgParams pClassicKey pPqcKey pPeerData pTranscript pSessionKey : UInt64) :
    CcmCode × CStr 2048 :=
  match load m.algParamsAt pAlgParams, load m.keyRefAt pClassicKey, load m.keyRefAt pPqcKey,
    load m.keyRefAt pSessionKey with
  | some alg, some classicKey, some pqcKey, some sessionKey =>
    buildJson (lit "pqc") (lit "kem_encap") (algOrAuto alg)
      (hybridAgreementOpts alg classicKey pqcKey (load m.bufferAt pPeerData)
        (load m.bufferAt pTranscript) sessionKey) 2048
  | _, _, _, _ => (.invalidArgument, empty)

/-- `CCM_HybridSign` and `CCM_HybridVerify` behind their checks for NULL. -/
def hybridGiven
    (call : UnifAlgParams → UnifKeyRef → UnifKeyRef → UnifBuffer → UnifBuffer → CcmCode × CStr 2048)
    (pAlgParams pClassicKey pPqcKey pData pSignature : UInt64) : CcmCode × CStr 2048 :=
  match load m.algParamsAt pAlgParams, load m.keyRefAt pClassicKey, load m.keyRefAt pPqcKey,
    load m.bufferAt pData, load m.bufferAt pSignature with
  | some alg, some classicKey, some pqcKey, some data, some signature =>
    call alg classicKey pqcKey data signature
  | _, _, _, _, _ => (.invalidArgument, empty)

end Unchecked

end Ucisdk.Ccm
