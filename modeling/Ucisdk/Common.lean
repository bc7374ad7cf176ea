import Ucisdk.CString

/-!
# Requests, responses and calls

The shared types of the gateway. The type of each field states its capacity.
-/

set_option autoImplicit false

namespace Ucisdk.Common

open Ucisdk.CString

abbrev maxIdLen : ℕ := 64
abbrev maxFieldLen : ℕ := 256
abbrev maxPayloadLen : ℕ := 1024
abbrev maxCaps : ℕ := 48
abbrev maxDevices : ℕ := 32
abbrev maxResponseLen : ℕ := 2048
abbrev maxSequenceSteps : ℕ := 4

/-- `char errbuf[256]`, as every caller declares it. -/
abbrev errbufLen : ℕ := 256

abbrev ErrText := CStr errbufLen

inductive ApiDomain where
  | unknown
  | auth
  | device
  | key
  | asym
  | sym
  | hash
  | file
  | pqc
  deriving DecidableEq, Repr

inductive ApiAction where
  | unknown
  | checkPin
  | getDeviceInfo
  | generateRandom
  | getPrivateKeyAccess
  | releasePrivateKeyAccess
  | generateKeyPair
  | exportPublicKey
  | importKey
  | destroyKey
  | sign
  | verify
  | encrypt
  | decrypt
  | mac
  | hash
  | createFile
  | readFile
  | writeFile
  | deleteFile
  | kemEncap
  | kemDecap
  deriving DecidableEq, Repr

inductive DeviceType where
  | unknown
  | classic
  | pqc
  deriving DecidableEq, Repr

inductive Preference where
  | balanced
  | secure
  | efficient
  | classicFirst
  | pqcFirst
  deriving DecidableEq, Repr

inductive StatusCode where
  | ok
  | badRequest
  | unauthorized
  | notSupported
  | backendFail
  | noResource
  deriving DecidableEq, Repr

structure Request where
  requestId : CStr maxIdLen
  domain : ApiDomain
  action : ApiAction
  algorithm : CStr maxFieldLen
  keyRef : CStr maxFieldLen
  payload : CStr maxPayloadLen
  auxPayload : CStr maxPayloadLen
  deviceHint : CStr maxFieldLen
  userPin : CStr maxFieldLen
  preference : Preference
  sequence : CStr maxPayloadLen
  deriving DecidableEq

structure Response where
  requestId : CStr maxIdLen
  status : StatusCode
  selectedDevice : CStr maxResponseLen
  backendName : CStr maxResponseLen
  backendCall : CStr maxResponseLen
  trace : CStr maxResponseLen
  result : CStr maxResponseLen
  deriving DecidableEq

structure BackendCall where
  domain : ApiDomain
  action : ApiAction
  algorithm : CStr maxFieldLen
  keyRef : CStr maxFieldLen
  payload : CStr maxPayloadLen
  auxPayload : CStr maxPayloadLen
  deriving DecidableEq

structure GatewaySettings where
  gatewayPin : CStr maxFieldLen

/-- `memset(resp, 0, sizeof(*resp))`. -/
def Response.zero : Response where
  requestId := empty
  status := .ok
  selectedDevice := empty
  backendName := empty
  backendCall := empty
  trace := empty
  result := empty

end Ucisdk.Common
