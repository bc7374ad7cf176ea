import Ucisdk.Protocol
import Ucisdk.Resource

/-!
# Translation of a step into a backend call

The first rule of the table that matches a device's profile and type decides
which vendor function a step becomes.
-/

set_option autoImplicit false

namespace Ucisdk.Translator

open Ucisdk.CString Ucisdk.Common Ucisdk.Protocol Ucisdk.Resource

structure TranslatedCall where
  call : BackendCall
  backendName : CStr maxFieldLen
  backendCallName : CStr maxFieldLen
  deriving DecidableEq

structure TranslationRule where
  backendProfile : Bytes
  type : DeviceType
  domain : ApiDomain
  action : ApiAction
  algorithm : Bytes
  backendCall : Bytes

def rule (backendProfile : String) (type : DeviceType) (domain : ApiDomain) (action : ApiAction)
    (algorithm backendCall : String) : TranslationRule where
  backendProfile := lit backendProfile
  type := type
  domain := domain
  action := action
  algorithm := lit algorithm
  backendCall := lit backendCall

def gRules : List TranslationRule :=
  [ rule "swsds-classic" .classic .device .getDeviceInfo "auto" "SDF_GetDeviceInfo",
    rule "swsds-classic" .classic .device .generateRandom "auto" "SDF_GenerateRandom",
    rule "swsds-classic" .classic .key .getPrivateKeyAccess "auto" "SDF_GetPrivateKeyAccessRight",
    rule "swsds-classic" .classic .key .releasePrivateKeyAccess "auto"
      "SDF_ReleasePrivateKeyAccessRight",
    rule "swsds-classic" .classic .key .generateKeyPair "rsa" "SDF_GenerateKeyPair_RSA",
    rule "swsds-classic" .classic .key .generateKeyPair "sm2" "SDF_GenerateKeyPair_ECC",
    rule "swsds-classic" .classic .key .exportPublicKey "rsa" "SDF_ExportSignPublicKey_RSA",
    rule "swsds-classic" .classic .key .exportPublicKey "sm2" "SDF_ExportSignPublicKey_ECC",
    rule "swsds-classic" .classic .key .importKey "auto" "SDF_ImportKey",
    rule "swsds-classic" .classic .key .destroyKey "auto" "SDF_DestroyKey",
    rule "softlib" .classic .asym .sign "sm2" "SoftLib_SM2Sign",
    rule "swsds-classic" .classic .asym .sign "sm2" "SDF_InternalSign_ECC_Ex",
    rule "swsds-classic" .classic .asym .verify "sm2" "SDF_InternalVerify_ECC_Ex",
    rule "swsds-classic" .classic .asym .encrypt "sm2" "SDF_InternalEncrypt_ECC",
    rule "swsds-classic" .classic .asym .decrypt "sm2" "SDF_InternalDecrypt_ECC",
    rule "swsds-classic" .classic .asym .sign "rsa" "SDF_InternalPrivateKeyOperation_RSA",
    rule "swsds-classic" .classic .asym .verify "rsa" "SDF_InternalPublicKeyOperation_RSA",
    rule "swsds-classic" .classic .sym .encrypt "sm4-cbc" "SDF_Encrypt",
    rule "swsds-classic" .classic .sym .decrypt "sm4-cbc" "SDF_Decrypt",
    rule "swsds-classic" .classic .sym .mac "sm4-mac" "SDF_CalculateMAC",
    rule "swsds-classic" .classic .hash .hash "sm3" "SDF_HashInit/SDF_HashUpdate/SDF_HashFinal",
    rule "swsds-classic" .classic .file .createFile "auto" "SDF_CreateFile",
    rule "swsds-classic" .classic .file .readFile "auto" "SDF_ReadFile",
    rule "swsds-classic" .classic .file .writeFile "auto" "SDF_WriteFile",
    rule "swsds-classic" .classic .file .deleteFile "auto" "SDF_DeleteFile",
    rule "gm3000-skf" .classic .device .getDeviceInfo "auto" "SKF_GetDevInfo",
    rule "gm3000-skf" .classic .device .generateRandom "auto" "SKF_GenRandom",
    rule "gm3000-skf" .classic .key .getPrivateKeyAccess "auto" "SKF_VerifyPIN",
    rule "gm3000-skf" .classic .key .releasePrivateKeyAccess "auto" "SKF_ClearSecureState",
    rule "gm3000-skf" .classic .key .generateKeyPair "sm2" "SKF_GenECCKeyPair",
    rule "gm3000-skf" .classic .key .generateKeyPair "rsa" "SKF_GenRSAKeyPair",
    rule "gm3000-skf" .classic .key .generateKeyPair "kyber768" "SKF_GenerateKeyPairKyber",
    rule "gm3000-skf" .classic .key .generateKeyPair "mlkem768" "SKF_GenerateKeyPairKyber",
    rule "gm3000-skf" .classic .key .generateKeyPair "dilithium3" "SKF_GenerateKeyPair_Dilithium",
    rule "gm3000-skf" .classic .key .exportPublicKey "sm2" "SKF_ExportPublicKey",
    rule "gm3000-skf" .classic .key .exportPublicKey "rsa" "SKF_ExportPublicKey",
    rule "gm3000-skf" .classic .key .importKey "auto" "SKF_SetSymmKey",
    rule "gm3000-skf" .classic .key .destroyKey "auto" "SKF_DeleteContainer",
    rule "gm3000-skf" .classic .asym .sign "sm2" "SKF_ECCSignData",
    rule "gm3000-skf" .classic .asym .verify "sm2" "SKF_ECCVerify",
    rule "gm3000-skf" .classic .asym .encrypt "sm2" "SKF_ExtECCEncrypt",
    rule "gm3000-skf" .classic .asym .decrypt "sm2" "SKF_ECCDecrypt",
    rule "gm3000-skf" .classic .asym .sign "rsa" "SKF_RSASignData",
    rule "gm3000-skf" .classic .asym .verify "rsa" "SKF_RSAVerify",
    rule "gm3000-skf" .classic .asym .encrypt "rsa" "SKF_ExtRSAPubKeyOperation",
    rule "gm3000-skf" .classic .asym .decrypt "rsa" "SKF_RSADecrypt",
    rule "gm3000-skf" .classic .sym .encrypt "sm4-cbc" "SKF_Encrypt",
    rule "gm3000-skf" .classic .sym .decrypt "sm4-cbc" "SKF_Decrypt",
    rule "gm3000-skf" .classic .sym .encrypt "sm4-ecb" "SKF_Encrypt",
    rule "gm3000-skf" .classic .sym .decrypt "sm4-ecb" "SKF_Decrypt",
    rule "gm3000-skf" .classic .sym .mac "sm4-mac" "SKF_Mac",
    rule "gm3000-skf" .classic .hash .hash "sm3" "SKF_Digest",
    rule "gm3000-skf" .classic .hash .hash "sha256" "SKF_Digest",
    rule "gm3000-skf" .classic .file .createFile "auto" "SKF_CreateFile",
    rule "gm3000-skf" .classic .file .readFile "auto" "SKF_ReadFile",
    rule "gm3000-skf" .classic .file .writeFile "auto" "SKF_WriteFile",
    rule "gm3000-skf" .classic .file .deleteFile "auto" "SKF_DeleteFile",
    rule "gm3000-skf" .classic .pqc .sign "dilithium3" "SKF_Sign_Dilithium",
    rule "gm3000-skf" .classic .pqc .verify "dilithium3" "SKF_Verify_Dilithium",
    rule "gm3000-skf" .classic .pqc .kemEncap "kyber768" "SKF_Encap_Kyber",
    rule "gm3000-skf" .classic .pqc .kemDecap "kyber768" "SKF_Decap_Kyber",
    rule "gm3000-skf" .classic .pqc .kemEncap "mlkem768" "SKF_Encap_Kyber",
    rule "gm3000-skf" .classic .pqc .kemDecap "mlkem768" "SKF_Decap_Kyber",
    rule "swsds-pqc" .pqc .device .getDeviceInfo "auto" "SDF_GetDeviceInfo",
    rule "swsds-pqc" .pqc .device .generateRandom "auto" "SDF_GenerateRandom",
    rule "swsds-pqc" .pqc .key .getPrivateKeyAccess "auto" "SDF_GetPrivateKeyAccessRight",
    rule "swsds-pqc" .pqc .key .releasePrivateKeyAccess "auto" "SDF_ReleasePrivateKeyAccessRight",
    rule "swsds-pqc" .pqc .key .generateKeyPair "dilithium3" "SDF_GenerateKeyPair_Dilithium",
    rule "swsds-pqc" .pqc .key .generateKeyPair "kyber768" "SDF_GenerateKeyPairKyber",
    rule "swsds-pqc" .pqc .key .generateKeyPair "mlkem768" "SDF_GenerateKeyPairKyber",
    rule "swsds-pqc" .pqc .pqc .sign "dilithium3" "SDF_Sign_Dilithium",
    rule "swsds-pqc" .pqc .pqc .verify "dilithium3" "SDF_Verify_Dilithium",
    rule "swsds-pqc" .pqc .pqc .kemEncap "kyber768" "SDF_Encap_Kyber",
    rule "swsds-pqc" .pqc .pqc .kemDecap "kyber768" "SDF_Decap_Kyber",
    rule "swsds-pqc" .pqc .pqc .kemEncap "mlkem768" "SDF_Encap_Kyber",
    rule "swsds-pqc" .pqc .pqc .kemDecap "mlkem768" "SDF_Decap_Kyber",
    rule "swsds-pqc" .pqc .hash .hash "sm3" "SDF_HashInit/SDF_HashUpdate/SDF_HashFinal",
    rule "swsds-pqc" .pqc .file .createFile "auto" "SDF_CreateFile",
    rule "swsds-pqc" .pqc .file .readFile "auto" "SDF_ReadFile",
    rule "swsds-pqc" .pqc .file .writeFile "auto" "SDF_WriteFile",
    rule "swsds-pqc" .pqc .file .deleteFile "auto" "SDF_DeleteFile" ]

def ruleMatches (device : DeviceResource) (domain : ApiDomain) (action : ApiAction)
    (algorithm : Bytes) (r : TranslationRule) : Bool :=
  r.type = device.type && r.backendProfile = device.backendProfile.bytes &&
    r.domain = domain && r.action = action &&
    (r.algorithm = algorithm || r.algorithm = lit "auto")

def findRule (device : DeviceResource) (domain : ApiDomain) (action : ApiAction)
    (algorithm : Bytes) : Option TranslationRule :=
  gRules.find? (ruleMatches device domain action algorithm)

def translateBackendCall (domain : ApiDomain) (action : ApiAction)
    (algorithm payload auxPayload keyRef : Bytes) (device : DeviceResource) :
    Except ErrText TranslatedCall :=
  match findRule device domain action algorithm with
  | none =>
    .error (store errbufLen (lit "no translation rule for profile=" ++ device.backendProfile.bytes ++
      lit " domain=" ++ domainToString domain ++ lit " action=" ++ actionToString action ++
      lit " alg=" ++ algorithm))
  | some r =>
    .ok {
      call := {
        domain := domain
        action := action
        algorithm := store maxFieldLen algorithm
        keyRef := store maxFieldLen keyRef
        payload := store maxPayloadLen payload
        auxPayload := store maxPayloadLen auxPayload }
      backendName := append (append (append empty (deviceTypeToString device.type)) (lit ":"))
        device.backendProfile.bytes
      backendCallName := store maxFieldLen r.backendCall }

end Ucisdk.Translator
