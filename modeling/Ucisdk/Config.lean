import Ucisdk.Protocol
import Ucisdk.Resource
import Ucisdk.Scan.Lines
import Ucisdk.Scan.Tokens

/-!
# Loading the devices and the settings

The loader reads its file through a buffer of 1024 bytes and takes every read
for a line. The ninth field of a line, its list of capabilities, goes through
one more buffer, and each capability through another. The settings of the
gateway are read the same way, through a buffer of 256 bytes.
-/

set_option autoImplicit false

namespace Ucisdk.Config

open Ucisdk.CString Ucisdk.Common Ucisdk.Protocol Ucisdk.Resource
open Scan.Tokens Scan.Lines

def newline : UInt8 := 10
def hash : UInt8 := 35
def equals : UInt8 := 61

def isComma (c : UInt8) : Bool := c == 44
def isBar (c : UInt8) : Bool := c == 124
def isLineEnd (c : UInt8) : Bool := c == 13 || c == 10

def parseBool (s : Bytes) : Bool := s = lit "1"

def isdigit (c : UInt8) : Bool := 48 ≤ c && c ≤ 57

/-- `atoi`, without the overflow that C leaves undefined. -/
def atoi (s : Bytes) : ℤ :=
  let digits (s : Bytes) : ℤ := (s.takeWhile isdigit).foldl (fun n c => 10 * n + (c.toNat - 48)) 0
  match s.dropWhile isspace with
  | [] => 0
  | c :: s => if c = 45 then -digits s else if c = 43 then digits s else digits (c :: s)

def keySourceMaskFor (s : Bytes) : UInt32 :=
  if s = [] ∨ s = lit "any" then 0xffffffff
  else if s = lit "internal_index" ∨ s = lit "1" then (1 : UInt32) <<< 1
  else if s = lit "session_handle" ∨ s = lit "2" then (1 : UInt32) <<< 2
  else if s = lit "external_key" ∨ s = lit "3" then (1 : UInt32) <<< 3
  else if s = lit "managed_key" ∨ s = lit "4" then (1 : UInt32) <<< 4
  else 0

/-- The text in front of the first colon and the text behind it. -/
def cutAtColon (s : Bytes) : Bytes × Option Bytes :=
  (s.takeWhile fun c => c ≠ colon, Scan.Quoted.after [colon] s)

/-- The parts of a capability: domain, action, algorithm and, behind a third
colon, its key source. -/
structure CapabilityParts where
  domain : Bytes
  action : Bytes
  algorithm : Bytes
  keySource : Option Bytes

def capabilityParts (s : Bytes) : Option CapabilityParts :=
  match cutAtColon s with
  | (_, none) => none
  | (domain, some rest) =>
    match cutAtColon rest with
    | (_, none) => none
    | (action, some rest) =>
      some ⟨domain, action, (cutAtColon rest).1, (cutAtColon rest).2⟩

/-- The mask of a capability that may leave its key source out. -/
def keySourceMask (keySource : Option Bytes) : UInt32 :=
  match keySource with
  | none => 0xffffffff
  | some s => keySourceMaskFor s

def parseCapability (s : Bytes) : Option Capability :=
  match capabilityParts (store 160 s).bytes with
  | none => none
  | some parts =>
    if parseDomain parts.domain = .unknown ∨ parseAction parts.action = .unknown then none
    else
      match normalizeAlgorithmName parts.algorithm maxFieldLen with
      | none => none
      | some algorithm =>
        if keySourceMask parts.keySource = 0 then none
        else some ⟨parseDomain parts.domain, parseAction parts.action, algorithm,
          keySourceMask parts.keySource⟩

/-- The capability loop; the device's own list counts the capabilities. -/
def loadCapabilities : List Bytes → DeviceResource → Except ErrText DeviceResource
  | [], device => .ok device
  | token :: rest, device =>
    if h : device.caps.length < maxCaps then
      match parseCapability token with
      | none =>
        .error (store errbufLen (lit "invalid capability '" ++ token ++ lit "' on device " ++
          device.deviceId.bytes))
      | some cap =>
        loadCapabilities rest
          { device with
            caps := device.caps ++ [cap]
            capsFit := by
              rw [List.length_append, List.length_singleton]
              exact h }
    else
      .error (store errbufLen (lit "too many capabilities on device " ++ device.deviceId.bytes))

/-- The first nine fields of a line: a device without capabilities, and the
text of those. -/
def readFields (line : Bytes) : Option (DeviceResource × Bytes) :=
  match tokens isComma line with
  | deviceId :: type :: backendProfile :: priority :: enabled :: maxInflight :: securityScore ::
      efficiencyScore :: caps :: _ =>
    some ({
      deviceId := store maxFieldLen deviceId
      type := parseDeviceType type
      backendProfile := store maxFieldLen backendProfile
      priority := atoi priority
      enabled := parseBool enabled
      maxInflight := atoi maxInflight
      inflight := 0
      securityScore := atoi securityScore
      efficiencyScore := atoi efficiencyScore
      caps := []
      capsFit := by decide }, caps)
  | _ => none

/-- What the loop body makes of the buffer: comments, blank lines and lines
of too few fields are passed over. -/
def readLine (buffer : Bytes) : Option (DeviceResource × Bytes) :=
  let line := buffer.takeWhile fun c => c ≠ 0
  if line.head? = some hash ∨ line.head? = some newline then none
  else readFields (line.takeWhile fun c => !isLineEnd c)

def loadLine (registry : Registry) (buffer : Bytes) : Except ErrText Registry :=
  match readLine buffer with
  | none => .ok registry
  | some (device, caps) =>
    match loadCapabilities (tokens isBar (store 512 caps).bytes) device with
    | .error errbuf => .error errbuf
    | .ok device =>
      match registryAdd registry device with
      | none => .error (store errbufLen (lit "registry full"))
      | some registry => .ok registry

/-- The return code, as the text of its error, and the registry that is left. -/
structure Loaded where
  errbuf : Option ErrText
  registry : Registry

def loadLines (registry : Registry) : List Bytes → Loaded
  | [] => ⟨none, registry⟩
  | buffer :: rest =>
    match loadLine registry buffer with
    | .error errbuf => ⟨some errbuf, registry⟩
    | .ok registry => loadLines registry rest

/-- The loader; there is no file where `fopen` fails. -/
def loadResourcesFromFile (path : Bytes) (file : Option Bytes) (registry : Registry) : Loaded :=
  match file with
  | none => ⟨some (store errbufLen (lit "failed to open config: " ++ path)), registry⟩
  | some text => loadLines registry (reads newline 1023 text)

/-- The PIN that a read sets, if it is a `gateway_pin` line. -/
def readPin (buffer : Bytes) : Option Bytes :=
  let line := (buffer.takeWhile fun c => c ≠ 0).takeWhile fun c => !isLineEnd c
  if line.head? = some hash ∨ line = [] then none
  else
    match Scan.Quoted.after [equals] line with
    | none => none
    | some value =>
      if (line.takeWhile fun c => c ≠ equals) = lit "gateway_pin" then some value else none

def loadSettings : List Bytes → GatewaySettings → GatewaySettings
  | [], settings => settings
  | buffer :: rest, settings =>
    match readPin buffer with
    | none => loadSettings rest settings
    | some pin => loadSettings rest { settings with gatewayPin := store maxFieldLen pin }

def loadGatewaySettings (path : Bytes) (file : Option Bytes) : Except ErrText GatewaySettings :=
  match file with
  | none => .error (store errbufLen (lit "failed to open gateway config: " ++ path))
  | some text =>
    let settings := loadSettings (reads newline 255 text) ⟨empty⟩
    if settings.gatewayPin.bytes = [] then
      .error (store errbufLen (lit "gateway_pin missing in " ++ path))
    else .ok settings

end Ucisdk.Config
