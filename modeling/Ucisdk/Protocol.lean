import Ucisdk.Common
import Ucisdk.Scan.Quoted

/-!
# The request protocol

Names and their enumerations, and the scanner of a request line. The scanner
looks a member up by a search for its quoted name; what each caller does with
a missing or an overlong member is decided member by member.
-/

set_option autoImplicit false

namespace Ucisdk.Protocol

open Ucisdk.CString Ucisdk.Common

def copyLowerTrim (text : Bytes) (outSz : ℕ) : Bytes :=
  (((text.dropWhile isspace).filter fun c => !isspace c).map tolower).take (outSz - 1)

def domainToString : ApiDomain → Bytes
  | .auth => lit "auth"
  | .device => lit "device"
  | .key => lit "key"
  | .asym => lit "asym"
  | .sym => lit "sym"
  | .hash => lit "hash"
  | .file => lit "file"
  | .pqc => lit "pqc"
  | .unknown => lit "unknown"

def actionToString : ApiAction → Bytes
  | .checkPin => lit "check_pin"
  | .getDeviceInfo => lit "get_device_info"
  | .generateRandom => lit "generate_random"
  | .getPrivateKeyAccess => lit "get_private_key_access"
  | .releasePrivateKeyAccess => lit "release_private_key_access"
  | .generateKeyPair => lit "generate_key_pair"
  | .exportPublicKey => lit "export_public_key"
  | .importKey => lit "import_key"
  | .destroyKey => lit "destroy_key"
  | .sign => lit "sign"
  | .verify => lit "verify"
  | .encrypt => lit "encrypt"
  | .decrypt => lit "decrypt"
  | .mac => lit "mac"
  | .hash => lit "hash"
  | .createFile => lit "create_file"
  | .readFile => lit "read_file"
  | .writeFile => lit "write_file"
  | .deleteFile => lit "delete_file"
  | .kemEncap => lit "kem_encap"
  | .kemDecap => lit "kem_decap"
  | .unknown => lit "unknown"

def deviceTypeToString : DeviceType → Bytes
  | .classic => lit "classic"
  | .pqc => lit "pqc"
  | .unknown => lit "unknown"

def parseDomain (s : Bytes) : ApiDomain :=
  let norm := copyLowerTrim s maxFieldLen
  if norm = lit "auth" then .auth
  else if norm = lit "device" then .device
  else if norm = lit "key" then .key
  else if norm = lit "asym" then .asym
  else if norm = lit "sym" then .sym
  else if norm = lit "hash" then .hash
  else if norm = lit "file" then .file
  else if norm = lit "pqc" then .pqc
  else .unknown

def parseAction (s : Bytes) : ApiAction :=
  let norm := copyLowerTrim s maxFieldLen
  if norm = lit "check_pin" then .checkPin
  else if norm = lit "get_device_info" then .getDeviceInfo
  else if norm = lit "generate_random" then .generateRandom
  else if norm = lit "get_private_key_access" then .getPrivateKeyAccess
  else if norm = lit "release_private_key_access" then .releasePrivateKeyAccess
  else if norm = lit "generate_key_pair" then .generateKeyPair
  else if norm = lit "export_public_key" then .exportPublicKey
  else if norm = lit "import_key" then .importKey
  else if norm = lit "destroy_key" then .destroyKey
  else if norm = lit "sign" then .sign
  else if norm = lit "verify" then .verify
  else if norm = lit "encrypt" then .encrypt
  else if norm = lit "decrypt" then .decrypt
  else if norm = lit "mac" then .mac
  else if norm = lit "hash" then .hash
  else if norm = lit "create_file" then .createFile
  else if norm = lit "read_file" then .readFile
  else if norm = lit "write_file" then .writeFile
  else if norm = lit "delete_file" then .deleteFile
  else if norm = lit "kem_encap" then .kemEncap
  else if norm = lit "kem_decap" then .kemDecap
  else .unknown

def parseDeviceType (s : Bytes) : DeviceType :=
  let norm := copyLowerTrim s maxFieldLen
  if norm = lit "classic" then .classic
  else if norm = lit "pqc" then .pqc
  else if norm = lit "auto" then .unknown
  else .unknown

def parsePreference (s : Bytes) : Preference :=
  if s = [] then .balanced
  else
    let norm := copyLowerTrim s maxFieldLen
    if norm = lit "secure" ∨ norm = lit "safest" then .secure
    else if norm = lit "efficient" ∨ norm = lit "fast" ∨ norm = lit "highest_efficiency" then
      .efficient
    else if norm = lit "classic_first" then .classicFirst
    else if norm = lit "pqc_first" then .pqcFirst
    else .balanced

def normalizeAlgorithmName (text : Bytes) (outSz : ℕ) [NeZero outSz] : Option (CStr outSz) :=
  if text = [] then some (store outSz (lit "auto"))
  else
    let out := copyLowerTrim text outSz
    let name :=
      if out = lit "auto" ∨ out = lit "none" then lit "auto"
      else if out = lit "kyber" ∨ out = lit "kyber-768" then lit "kyber768"
      else if out = lit "ml-kem-768" ∨ out = lit "mlkem" then lit "mlkem768"
      else if out = lit "dilithium" ∨ out = lit "dilithium-3" then lit "dilithium3"
      else out
    if (store outSz name).bytes = [] then none else some (store outSz name)

def quote : UInt8 := 34
def backslash : UInt8 := 92
def colon : UInt8 := 58

/-- The return codes `0`, `-1` and `-2` of `extract_json_string`. -/
inductive Lookup where
  | found (value : Bytes)
  | absent
  | tooLong
  deriving DecidableEq

def Lookup.text : Lookup → Option Bytes
  | .found value => some value
  | .absent => none
  | .tooLong => none

def Lookup.cons (c : UInt8) : Lookup → Lookup
  | .found value => .found (c :: value)
  | .absent => .absent
  | .tooLong => .tooLong

/-- The copy loop up to the closing quote; `room` is `out_sz - 1 - i`. -/
def copyString : ℕ → Bytes → Lookup
  | _, [] => .absent
  | room, c :: p =>
    if c = quote then .found []
    else
      match room with
      | 0 => .tooLong
      | room + 1 => (copyString room p).cons c

def needle (key : Bytes) : Bytes := (quote :: (key ++ [quote])).take 127

/-- What is read behind a name: the string after the next colon and blanks. -/
def copyValue (rest : Bytes) (outSz : ℕ) : Lookup :=
  match Scan.Quoted.after [colon] rest with
  | none => .absent
  | some p =>
    match p.dropWhile isspace with
    | [] => .absent
    | c :: value => if c = quote then copyString (outSz - 1) value else .absent

def extractJsonString (json key : Bytes) (outSz : ℕ) : Lookup :=
  match Scan.Quoted.after (needle key) json with
  | none => .absent
  | some rest => copyValue rest outSz

def defaultAlgorithmFor (_domain : ApiDomain) (action : ApiAction) : Bytes :=
  if action = .hash then lit "sm3" else lit "auto"

section Members

variable (look : Bytes → ℕ → Lookup)

/-- A member whose every failed lookup refuses the request. -/
def requiredMember (key : Bytes) (cap : ℕ) [NeZero cap] : Except ErrText (CStr cap) :=
  match look key cap with
  | .found value => .ok (store cap value)
  | _ => .error (store errbufLen (lit "missing or invalid " ++ key))

/-- A member whose every failed lookup leaves the field empty. -/
def optionalMember (key : Bytes) (cap : ℕ) [NeZero cap] : CStr cap :=
  match look key cap with
  | .found value => store cap value
  | _ => empty

def lookAlgorithm (domain action : Bytes) : Bytes :=
  match look (lit "algorithm") maxFieldLen with
  | .found value => value
  | _ => defaultAlgorithmFor (parseDomain domain) (parseAction action)

def lookPreference : Preference :=
  match look (lit "preference") maxFieldLen with
  | .found value => parsePreference value
  | _ => .balanced

/-- The body of `parse_request_json` over the lookup of a member by name. -/
def parseRequestWith : Except ErrText Request := do
  let requestId ← requiredMember look (lit "request_id") maxIdLen
  let domain ← requiredMember look (lit "domain") maxFieldLen
  let action ← requiredMember look (lit "action") maxFieldLen
  let algorithm := lookAlgorithm look domain.bytes action.bytes
  if parseDomain domain.bytes = .unknown then
    .error (store errbufLen (lit "unsupported domain: " ++ domain.bytes))
  else if parseAction action.bytes = .unknown then
    .error (store errbufLen (lit "unsupported action: " ++ action.bytes))
  else
    match normalizeAlgorithmName algorithm maxFieldLen with
    | none => .error (store errbufLen (lit "unsupported algorithm: " ++ algorithm))
    | some name =>
      .ok {
        requestId := requestId
        domain := parseDomain domain.bytes
        action := parseAction action.bytes
        algorithm := name
        keyRef := optionalMember look (lit "key_ref") maxFieldLen
        payload := optionalMember look (lit "payload") maxPayloadLen
        auxPayload := optionalMember look (lit "aux_payload") maxPayloadLen
        deviceHint := optionalMember look (lit "device_hint") maxFieldLen
        userPin := optionalMember look (lit "user_pin") maxFieldLen
        preference := lookPreference look
        sequence := optionalMember look (lit "sequence") maxPayloadLen }

end Members

def parseRequestJson (jsonLine : Bytes) : Except ErrText Request :=
  parseRequestWith (extractJsonString jsonLine)

end Ucisdk.Protocol
