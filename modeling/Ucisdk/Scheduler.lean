import Ucisdk.Driver
import Ucisdk.Scan.Tokens

/-!
# The scheduler

A step binds its key to a device, acquires a candidate, is translated and is
dispatched; the slot is released on each of the three exits behind the
acquisition. A request runs one step or the steps of its sequence. Every run
keeps the trace of its steps beside the response.
-/

set_option autoImplicit false

namespace Ucisdk.Scheduler

open Ucisdk.CString Ucisdk.Common Ucisdk.Protocol Ucisdk.Resource Ucisdk.Translator Ucisdk.Driver
open Scan.Tokens

structure SequenceStep where
  domain : ApiDomain
  action : ApiAction
  preferredType : DeviceType
  algorithm : CStr maxFieldLen
  deriving DecidableEq

/-- An errbuf that no callee wrote has no determinate text and counts as
empty here. -/
def buildErrorResponse (req : Request) (status : StatusCode) (msg : Option ErrText) : Response :=
  { Response.zero with
    requestId := store maxIdLen req.requestId.bytes
    status := status
    result := store maxResponseLen (msg.elim [] CStr.bytes) }

def errorText (text : String) : Option ErrText := some (store errbufLen (lit text))

def appendWithSep {cap : ℕ} [NeZero cap] (dst : CStr cap) (value : Bytes) (sep : String) :
    CStr cap :=
  if value = [] then dst
  else if dst.bytes ≠ [] then append (append dst (lit sep)) value
  else append dst value

/-- The return values `0`, `1` and `-1` of `validate_gateway_pin`. -/
inductive PinCheck where
  | proceed
  | answered (resp : Response)
  | refused (resp : Response)

def validateGatewayPin (settings : Option GatewaySettings) (req : Request) : PinCheck :=
  match settings with
  | none => .proceed
  | some settings =>
    if settings.gatewayPin.bytes = [] then .proceed
    else if req.action = .checkPin ∧ req.domain = .auth then
      if req.userPin = settings.gatewayPin then
        .answered { Response.zero with
          requestId := store maxIdLen req.requestId.bytes
          status := .ok
          backendName := store maxResponseLen (lit "gateway-auth")
          backendCall := store maxResponseLen (lit "check_pin")
          result := store maxResponseLen (lit "pin_ok") }
      else .refused (buildErrorResponse req .unauthorized (errorText "invalid gateway pin"))
    else if req.userPin ≠ settings.gatewayPin then
      .refused (buildErrorResponse req .unauthorized (errorText "gateway pin check failed"))
    else .proceed

def buildOrder (pref : Preference) (explicitType : DeviceType) : List DeviceType :=
  if explicitType ≠ .unknown then [explicitType]
  else
    match pref with
    | .pqcFirst | .secure => [.pqc, .classic]
    | .classicFirst | .efficient | .balanced => [.classic, .pqc]

def semicolon (c : UInt8) : Bool := c == 59
def gt (c : UInt8) : Bool := c == 62
def isColon (c : UInt8) : Bool := c == 58

/-- A token `name=...`. -/
def named (name token : Bytes) : Bool := (name ++ lit "=").isPrefixOf token

def keyRefGetToken (keyRef name : Bytes) (outSz : ℕ) [NeZero outSz] : Option (CStr outSz) :=
  if keyRef = [] ∨ name = [] then none
  else
    match (tokens semicolon (store maxFieldLen keyRef).bytes).find? (named name) with
    | none => none
    | some token =>
      let out := store outSz (token.drop (name.length + 1))
      if out.bytes = [] then none else some out

def keyRefIsInternalIndex (keyRef : Bytes) : Bool :=
  match keyRefGetToken keyRef (lit "source") maxFieldLen with
  | none => false
  | some source => source.bytes = lit "1" || source.bytes = lit "internal_index"

def keyRefSourceValue (keyRef : Bytes) : UInt32 :=
  match keyRefGetToken keyRef (lit "source") maxFieldLen with
  | none => 0
  | some source =>
    if source.bytes = lit "internal_index" then 1
    else if source.bytes = lit "session_handle" then 2
    else if source.bytes = lit "external_key" then 3
    else if source.bytes = lit "managed_key" then 4
    else if source.bytes = lit "1" then 1
    else if source.bytes = lit "2" then 2
    else if source.bytes = lit "3" then 3
    else if source.bytes = lit "4" then 4
    else 0

def resolveDeviceHintFromKeyRef (req : Request) (keyRef : Bytes) :
    Except ErrText (CStr maxFieldLen) :=
  let effectiveHint : CStr maxFieldLen := store maxFieldLen req.deviceHint.bytes
  if keyRefIsInternalIndex keyRef = false then .ok effectiveHint
  else
    match keyRefGetToken keyRef (lit "device_id") maxFieldLen with
    | some keyDeviceId =>
      if effectiveHint.bytes ≠ [] ∧ effectiveHint ≠ keyDeviceId then
        .error (store errbufLen (lit "internal_index key device_id conflicts with device_hint"))
      else .ok (store maxFieldLen keyDeviceId.bytes)
    | none =>
      if effectiveHint.bytes ≠ [] then .ok effectiveHint
      else .error (store errbufLen (lit "internal_index key requires device_id or device_hint"))

section Steps

variable {σ : Type}

/-- One call of `execute_single_step`: its outcome, the registry and the
world it leaves, and the handler it invoked. -/
structure StepRun (σ : Type) where
  outcome : Outcome
  registry : Registry
  world : σ
  invoked : Option Invocation

def driverOpsFor (skf : SkfAdapter σ) (device : DeviceResource) : DriverOps σ :=
  if device.backendProfile.bytes = lit "gm3000-skf" then skfDriverOps skf
  else if device.type = .classic then classicDriverOps
  else pqcDriverOps

def executeSingleStep (skf : SkfAdapter σ) (registry : Registry) (req : Request)
    (domain : ApiDomain) (action : ApiAction) (algorithm payload auxPayload keyRef : Bytes)
    (explicitType : DeviceType) (resp : Response) (world : σ) : StepRun σ :=
  match resolveDeviceHintFromKeyRef req keyRef with
  | .error errbuf => ⟨.error (some errbuf), registry, world, none⟩
  | .ok effectiveDeviceHint =>
    let deviceHint :=
      if effectiveDeviceHint.bytes ≠ [] then effectiveDeviceHint.bytes
      else if explicitType = .unknown then req.deviceHint.bytes
      else []
    match registryAcquireCandidate registry domain action algorithm deviceHint
        (keyRefSourceValue keyRef) req.preference (buildOrder req.preference explicitType) with
    | none =>
      ⟨.error (some (store errbufLen (lit "no available device matches domain=" ++
        domainToString domain ++ lit " action=" ++ actionToString action ++ lit " alg=" ++
        algorithm))), registry, world, none⟩
    | some acquired =>
      let device := acquired.device
      match translateBackendCall domain action algorithm payload auxPayload keyRef device with
      | .error errbuf =>
        ⟨.error (some errbuf), registryRelease acquired.registry device.deviceId.bytes, world, none⟩
      | .ok translated =>
        let ops := driverOpsFor skf device
        let run := driverDispatch ops domain device translated resp world
        match run.outcome with
        | .error errbuf =>
          ⟨.error errbuf, registryRelease acquired.registry device.deviceId.bytes, run.world,
            run.invoked⟩
        | .ok resp =>
          ⟨.ok resp, registryRelease acquired.registry device.deviceId.bytes, run.world,
            run.invoked⟩

/-- The four fields of one sequence token. -/
def parseStep (token : Bytes) : Except ErrText SequenceStep :=
  let refuse (text : String) : Except ErrText SequenceStep :=
    .error (store errbufLen (lit text ++ token))
  match tokens isColon (store maxFieldLen token).bytes with
  | [] => refuse "invalid sequence token: "
  | [_] => refuse "missing sequence action in "
  | [_, _] => refuse "missing sequence type in "
  | [_, _, _] => refuse "invalid sequence algorithm in "
  | domain :: action :: type :: algorithm :: _ =>
    match normalizeAlgorithmName algorithm maxFieldLen with
    | none => refuse "invalid sequence algorithm in "
    | some name =>
      if parseDomain domain = .unknown ∨ parseAction action = .unknown ∨
          parseDeviceType type = .unknown then
        refuse "invalid sequence token: "
      else .ok ⟨parseDomain domain, parseAction action, parseDeviceType type, name⟩

/-- The token loop; `room` is `MAX_SEQUENCE_STEPS - *step_count`. -/
def parseSteps : ℕ → List Bytes → Except ErrText (List SequenceStep)
  | _, [] => .ok []
  | 0, _ :: _ => .error (store errbufLen (lit "too many sequence steps"))
  | room + 1, token :: rest => do
    let step ← parseStep token
    let steps ← parseSteps room rest
    .ok (step :: steps)

def parseSequence (req : Request) : Except ErrText (List SequenceStep) :=
  if req.sequence.bytes = [] then .ok []
  else parseSteps maxSequenceSteps (tokens gt (store maxPayloadLen req.sequence.bytes).bytes)

/-- A step of a run: where it started, what it was given, how it ended. -/
structure StepRecord (σ : Type) where
  before : Registry
  worldBefore : σ
  step : SequenceStep
  payload : Bytes
  run : StepRun σ

structure Execution (σ : Type) where
  rc : ℤ
  resp : Response
  registry : Registry
  world : σ
  trace : List (StepRecord σ)

def sequenceStepRun (skf : SkfAdapter σ) (req : Request) (step : SequenceStep)
    (payload : CStr maxResponseLen) (registry : Registry) (world : σ) : StepRun σ :=
  executeSingleStep skf registry req step.domain step.action step.algorithm.bytes payload.bytes
    req.auxPayload.bytes req.keyRef.bytes step.preferredType Response.zero world

def joinStepResponse (resp stepResp : Response) : Response :=
  { resp with
    selectedDevice := appendWithSep resp.selectedDevice stepResp.selectedDevice.bytes ">"
    backendName := appendWithSep resp.backendName stepResp.backendName.bytes ">"
    backendCall := appendWithSep resp.backendCall stepResp.backendCall.bytes ">"
    trace := appendWithSep resp.trace stepResp.result.bytes " => " }

/-- The step loop of `execute_sequence` with `current_payload` and `resp`. -/
def runSteps (skf : SkfAdapter σ) (req : Request) : List SequenceStep → CStr maxResponseLen →
    Response → Registry → σ → Execution σ
  | [], currentPayload, resp, registry, world =>
    { rc := 0
      resp := { resp with
        result := store maxResponseLen currentPayload.bytes
        status := .ok }
      registry := registry
      world := world
      trace := [] }
  | step :: steps, currentPayload, resp, registry, world =>
    let run := sequenceStepRun skf req step currentPayload registry world
    let record : StepRecord σ := ⟨registry, world, step, currentPayload.bytes, run⟩
    match run.outcome with
    | .error errbuf =>
      { rc := -1
        resp := buildErrorResponse req .backendFail errbuf
        registry := run.registry
        world := run.world
        trace := [record] }
    | .ok stepResp =>
      let rest := runSteps skf req steps (store maxResponseLen stepResp.result.bytes)
        (joinStepResponse resp stepResp) run.registry run.world
      { rest with trace := record :: rest.trace }

def executeSequence (skf : SkfAdapter σ) (registry : Registry) (req : Request) (resp : Response)
    (world : σ) : Execution σ :=
  match parseSequence req with
  | .error errbuf => ⟨-1, buildErrorResponse req .badRequest (some errbuf), registry, world, []⟩
  | .ok [] => ⟨0, resp, registry, world, []⟩
  | .ok (step :: steps) =>
    runSteps skf req (step :: steps) (store maxResponseLen req.payload.bytes) resp registry world

def plainTrace (resp : Response) : CStr maxResponseLen :=
  appendWithSep (appendWithSep (appendWithSep empty resp.selectedDevice.bytes ":")
    resp.backendCall.bytes ":") resp.result.bytes ":"

/-- The request itself as a step. -/
def plainStep (req : Request) : SequenceStep := ⟨req.domain, req.action, .unknown, req.algorithm⟩

def executePlain (skf : SkfAdapter σ) (registry : Registry) (req : Request) (resp : Response)
    (world : σ) : Execution σ :=
  let run := executeSingleStep skf registry req req.domain req.action req.algorithm.bytes
    req.payload.bytes req.auxPayload.bytes req.keyRef.bytes .unknown resp world
  let record : StepRecord σ := ⟨registry, world, plainStep req, req.payload.bytes, run⟩
  match run.outcome with
  | .error errbuf =>
    ⟨-1, buildErrorResponse req .noResource errbuf, run.registry, run.world, [record]⟩
  | .ok resp =>
    ⟨0, { resp with trace := plainTrace resp, status := .ok }, run.registry, run.world, [record]⟩

def schedulerExecute (skf : SkfAdapter σ) (settings : Option GatewaySettings)
    (registry : Registry) (req : Request) (world : σ) : Execution σ :=
  let resp : Response := { Response.zero with requestId := store maxIdLen req.requestId.bytes }
  match validateGatewayPin settings req with
  | .answered resp => ⟨0, resp, registry, world, []⟩
  | .refused resp => ⟨-1, resp, registry, world, []⟩
  | .proceed =>
    if req.sequence.bytes ≠ [] then executeSequence skf registry req resp world
    else executePlain skf registry req resp world

end Steps

end Ucisdk.Scheduler
