import Ucisdk.CcmObject
import Ucisdk.SequenceRun

/-!
# The reply to a client

A response is written as one line of JSON from a buffer of fixed size. A
response that does not fit is not written at all, and the connection is
closed behind it like behind any other.
-/

set_option autoImplicit false

namespace Ucisdk.Reply

open Ucisdk.CString Ucisdk.Common Ucisdk.Protocol Ucisdk.Resource Ucisdk.Driver Ucisdk.Scheduler
open Ucisdk.Ccm Ucisdk.CcmObject Ucisdk.SequenceRun

section Writer

variable {cap : ℕ}

/-- `snprintf` behind the text that is there; a text that is cut is a failure. -/
def put (s : Bytes) (buf : CStr cap) : Option (CStr cap) :=
  if h : (buf.bytes ++ s).length < cap then some ⟨buf.bytes ++ s, h⟩ else none

/-- The six cases of a byte are those of the client's encoder. -/
def appendJsonEscaped (value : Bytes) (buf : CStr cap) : Option (CStr cap) :=
  value.foldlM (fun buf c => put (escapeByte c) buf) buf

def appendJsonField (name : String) (value : Bytes) (comma : Bool) (buf : CStr cap) :
    Option (CStr cap) := do
  let buf ← put ((if comma then lit "," else []) ++ lit "\"" ++ lit name ++ lit "\":\"") buf
  let buf ← appendJsonEscaped value buf
  put (lit "\"") buf

/-- The value of the enumerator. -/
def statusNumber : StatusCode → ℕ
  | .ok => 0
  | .badRequest => 400
  | .unauthorized => 401
  | .notSupported => 422
  | .backendFail => 502
  | .noResource => 503

def responseToJson (resp : Response) (cap : ℕ) : Option (CStr cap) :=
  if h : 0 < cap then do
    let buf ← put (lit "\x7b") (⟨[], h⟩ : CStr cap)
    let buf ← appendJsonField "request_id" resp.requestId.bytes false buf
    let buf ← put (lit ",\"status\":" ++ decimal (statusNumber resp.status)) buf
    let buf ← appendJsonField "selected_device" resp.selectedDevice.bytes true buf
    let buf ← appendJsonField "backend_name" resp.backendName.bytes true buf
    let buf ← appendJsonField "backend_call" resp.backendCall.bytes true buf
    let buf ← appendJsonField "trace" resp.trace.bytes true buf
    let buf ← appendJsonField "result" resp.result.bytes true buf
    put (lit "\x7d") buf
  else none

/-- What is written to the client in front of the close. -/
def writeResponseAndClose (resp : Response) : Bytes :=
  match responseToJson resp (maxResponseLen + 512) with
  | some json => json.bytes ++ lit "\n"
  | none => []

end Writer

section Text

variable {cap : ℕ}

def fieldText (name : String) (value : Bytes) (comma : Bool) : Bytes :=
  (if comma then lit "," else []) ++ lit "\"" ++ lit name ++ lit "\":\"" ++ escape value ++ lit "\""

/-- The response as a JSON object. -/
def responseText (resp : Response) : Bytes :=
  lit "\x7b" ++ fieldText "request_id" resp.requestId.bytes false ++
    (lit ",\"status\":" ++ decimal (statusNumber resp.status)) ++
    fieldText "selected_device" resp.selectedDevice.bytes true ++
    fieldText "backend_name" resp.backendName.bytes true ++
    fieldText "backend_call" resp.backendCall.bytes true ++
    fieldText "trace" resp.trace.bytes true ++ fieldText "result" resp.result.bytes true ++
    lit "\x7d"

theorem put_nil (buf : CStr cap) : put [] buf = some buf := by
  simp only [put, List.append_nil]
  rw [dif_pos buf.fits]

/-- A write behind a write is one write of both texts. -/
theorem put_bind {f : CStr cap → Option (CStr cap)} {t : Bytes} (hf : ∀ buf, f buf = put t buf)
    (s : Bytes) (buf : CStr cap) : (put s buf).bind f = put (s ++ t) buf := by
  by_cases hs : (buf.bytes ++ s).length < cap
  · rw [put, dif_pos hs, Option.bind_some, hf, put, put]
    simp only [List.append_assoc]
  · have hst : ¬(buf.bytes ++ (s ++ t)).length < cap := by
      simp only [List.length_append] at hs ⊢
      omega
    rw [put, dif_neg hs, Option.bind_none, put, dif_neg hst]

theorem appendJsonEscaped_eq (value : Bytes) (buf : CStr cap) :
    appendJsonEscaped value buf = put (escape value) buf := by
  induction value generalizing buf with
  | nil => exact (put_nil buf).symm
  | cons c value ih =>
    have hcons : escape (c :: value) = escapeByte c ++ escape value := List.flatMap_cons
    rw [hcons, ← put_bind ih]
    rfl

theorem appendJsonField_eq (name : String) (value : Bytes) (comma : Bool) (buf : CStr cap) :
    appendJsonField name value comma buf = put (fieldText name value comma) buf := by
  have hclose (buf : CStr cap) :
      (appendJsonEscaped value buf).bind (put (lit "\"")) = put (escape value ++ lit "\"") buf := by
    rw [appendJsonEscaped_eq]
    exact put_bind (fun _ => rfl) _ buf
  have hopen := put_bind hclose ((if comma then lit "," else []) ++ lit "\"" ++ lit name ++
    lit "\":\"") buf
  rw [fieldText, List.append_assoc _ (escape value)]
  exact hopen

theorem appendJsonField_bind {f : CStr cap → Option (CStr cap)} {t : Bytes}
    (hf : ∀ buf, f buf = put t buf) (name : String) (value : Bytes) (comma : Bool)
    (buf : CStr cap) :
    (appendJsonField name value comma buf).bind f = put (fieldText name value comma ++ t) buf := by
  rw [appendJsonField_eq]
  exact put_bind hf _ buf

/-- The writer writes the object of the response, or fails. -/
theorem responseToJson_eq (resp : Response) (h : 0 < cap) :
    responseToJson resp cap = put (responseText resp) ⟨[], h⟩ := by
  have hend (buf : CStr cap) : put (lit "\x7d") buf = put (lit "\x7d") buf := rfl
  have hresult := appendJsonField_bind hend "result" resp.result.bytes true
  have htrace := appendJsonField_bind hresult "trace" resp.trace.bytes true
  have hcall := appendJsonField_bind htrace "backend_call" resp.backendCall.bytes true
  have hname := appendJsonField_bind hcall "backend_name" resp.backendName.bytes true
  have hdevice := appendJsonField_bind hname "selected_device" resp.selectedDevice.bytes true
  have hstatus := put_bind hdevice (lit ",\"status\":" ++ decimal (statusNumber resp.status))
  have hid := appendJsonField_bind hstatus "request_id" resp.requestId.bytes false
  have hall := put_bind hid (lit "\x7b") (⟨[], h⟩ : CStr cap)
  rw [responseToJson, dif_pos h]
  simp only [responseText, List.append_assoc] at hall ⊢
  exact hall

theorem writeResponseAndClose_eq (resp : Response) :
    writeResponseAndClose resp =
      if (responseText resp).length < maxResponseLen + 512 then responseText resp ++ lit "\n"
      else [] := by
  rw [writeResponseAndClose, responseToJson_eq resp (by decide), put]
  by_cases h : (responseText resp).length < maxResponseLen + 512
  · simp [h]
  · simp [h]

/-- The bytes that the fields of a response take in its object. -/
def escapedLength (resp : Response) : ℕ :=
  (escape resp.requestId.bytes).length + (decimal (statusNumber resp.status)).length +
    (escape resp.selectedDevice.bytes).length + (escape resp.backendName.bytes).length +
    (escape resp.backendCall.bytes).length + (escape resp.trace.bytes).length +
    (escape resp.result.bytes).length

theorem responseText_length (resp : Response) :
    (responseText resp).length = escapedLength resp + 107 := by
  have hopen : (lit "\x7b").length = 1 := by decide
  have hquote : (lit "\"").length = 1 := by decide
  have hcomma : (lit ",").length = 1 := by decide
  have hcolon : (lit "\":\"").length = 3 := by decide
  have hclose : (lit "\x7d").length = 1 := by decide
  have hid : (lit "request_id").length = 10 := by decide
  have hstatus : (lit ",\"status\":").length = 10 := by decide
  have hdevice : (lit "selected_device").length = 15 := by decide
  have hname : (lit "backend_name").length = 12 := by decide
  have hcall : (lit "backend_call").length = 12 := by decide
  have htrace : (lit "trace").length = 5 := by decide
  have hresult : (lit "result").length = 6 := by decide
  simp only [responseText, fieldText, escapedLength, List.length_append, if_true,
    Bool.false_eq_true, if_false, List.length_nil]
  omega

end Text

section Answers

/-- The client reads the response as one complete line. -/
def Answered (resp : Response) : Prop :=
  writeResponseAndClose resp = responseText resp ++ lit "\n" ∧ ∀ c ∈ responseText resp, c ≠ 10

theorem fieldText_printable (name : String) (value : Bytes) (comma : Bool)
    (hname : ∀ c ∈ lit name, 32 ≤ c) : ∀ c ∈ fieldText name value comma, 32 ≤ c := by
  have hcomma : ∀ c ∈ lit ",", 32 ≤ c := by decide
  have hquote : ∀ c ∈ lit "\"", 32 ≤ c := by decide
  have hcolon : ∀ c ∈ lit "\":\"", 32 ≤ c := by decide
  have hvalue : ∀ c ∈ escape value, 32 ≤ c := by
    intro c hc
    have hp := List.all_eq_true.mp (escape_printable value) c hc
    rwa [decide_eq_true_eq] at hp
  intro c hc
  simp only [fieldText, List.mem_append] at hc
  rcases hc with ((((hc | hc) | hc) | hc) | hc) | hc
  · cases comma with
    | false => simp at hc
    | true => exact hcomma c hc
  · exact hquote c hc
  · exact hname c hc
  · exact hcolon c hc
  · exact hvalue c hc
  · exact hquote c hc

theorem responseText_printable (resp : Response) : ∀ c ∈ responseText resp, 32 ≤ c := by
  have hopen : ∀ c ∈ lit "\x7b", 32 ≤ c := by decide
  have hstatus : ∀ c ∈ lit ",\"status\":", 32 ≤ c := by decide
  have hnumber : ∀ c ∈ decimal (statusNumber resp.status), 32 ≤ c := by
    cases resp.status <;> decide
  have hclose : ∀ c ∈ lit "\x7d", 32 ≤ c := by decide
  intro c hc
  simp only [responseText, List.mem_append] at hc
  rcases hc with (((((((hc | hc) | hc | hc) | hc) | hc) | hc) | hc) | hc) | hc
  · exact hopen c hc
  · exact fieldText_printable _ _ _ (by decide) c hc
  · exact hstatus c hc
  · exact hnumber c hc
  · exact fieldText_printable _ _ _ (by decide) c hc
  · exact fieldText_printable _ _ _ (by decide) c hc
  · exact fieldText_printable _ _ _ (by decide) c hc
  · exact fieldText_printable _ _ _ (by decide) c hc
  · exact fieldText_printable _ _ _ (by decide) c hc
  · exact hclose c hc

theorem responseText_line (resp : Response) : ∀ c ∈ responseText resp, c ≠ 10 := by
  intro c hc
  have hprintable := responseText_printable resp c hc
  rintro rfl
  exact absurd hprintable (by decide)

theorem answered_iff (resp : Response) : Answered resp ↔ escapedLength resp ≤ 2452 := by
  have hlength := responseText_length resp
  rw [Answered, writeResponseAndClose_eq]
  constructor
  · rintro ⟨hwritten, _⟩
    split at hwritten
    · rename_i hfit
      rw [show maxResponseLen + 512 = 2560 from rfl] at hfit
      omega
    · have hempty := congrArg List.length hwritten
      rw [List.length_nil, List.length_append] at hempty
      omega
  · intro hfit
    refine ⟨?_, responseText_line resp⟩
    rw [if_pos]
    show (responseText resp).length < 2560
    omega

theorem escape_length_le (s : Bytes) : (escape s).length ≤ 6 * s.length := by
  induction s with
  | nil => simp [escape]
  | cons c s ih =>
    have hc := escapeByte_length c
    rw [escape] at ih
    rw [escape, List.flatMap_cons, List.length_append, List.length_cons]
    omega

/-- An error response fits, whatever bytes its id and its text consist of. -/
theorem error_answered (req : Request) (status : StatusCode) (msg : Option ErrText) :
    Answered (buildErrorResponse req status msg) := by
  rw [answered_iff]
  have hid := escape_length_le (buildErrorResponse req status msg).requestId.bytes
  have hresult := escape_length_le (buildErrorResponse req status msg).result.bytes
  have hidlen : (buildErrorResponse req status msg).requestId.bytes.length < 64 :=
    (buildErrorResponse req status msg).requestId.fits
  have hnumber : (decimal (statusNumber status)).length ≤ 3 := by
    cases status <;> decide
  have hempty : (escape (empty : CStr maxResponseLen).bytes).length = 0 := by
    rw [empty_bytes]
    rfl
  have hmsg : (buildErrorResponse req status msg).result.bytes.length ≤ 255 := by
    cases msg with
    | none => simp [buildErrorResponse]
    | some errbuf =>
      have hfits : errbuf.bytes.length < 256 := errbuf.fits
      simp only [buildErrorResponse, Option.elim_some, store_bytes, List.length_take]
      omega
  have hlength : escapedLength (buildErrorResponse req status msg) =
      (escape (buildErrorResponse req status msg).requestId.bytes).length +
        (decimal (statusNumber status)).length +
        (escape (buildErrorResponse req status msg).result.bytes).length := by
    simp only [escapedLength, buildErrorResponse, Response.zero, hempty]
    omega
  omega

variable {σ : Type}

theorem runSteps_failed {skf : SkfAdapter σ} {req : Request} {steps : List SequenceStep}
    {payload : CStr maxResponseLen} {resp : Response} {registry : Registry} {world : σ}
    (h : (runSteps skf req steps payload resp registry world).rc ≠ 0) :
    ∃ status msg, (runSteps skf req steps payload resp registry world).resp =
      buildErrorResponse req status msg := by
  induction steps generalizing payload resp registry world with
  | nil => exact absurd rfl h
  | cons step steps ih =>
    rw [runSteps] at h ⊢
    simp only at h ⊢
    split
    · exact ⟨_, _, rfl⟩
    · rename_i stepResp hout
      rw [hout] at h
      exact ih h

theorem executePlain_failed {skf : SkfAdapter σ} {registry : Registry} {req : Request}
    {resp : Response} {world : σ} (h : (executePlain skf registry req resp world).rc ≠ 0) :
    ∃ status msg, (executePlain skf registry req resp world).resp =
      buildErrorResponse req status msg := by
  rw [executePlain] at h ⊢
  split
  · exact ⟨_, _, rfl⟩
  · rename_i resp hout
    rw [hout] at h
    exact absurd rfl h

/-- A failed run leaves an error response. -/
theorem schedulerExecute_failed {skf : SkfAdapter σ} {settings : Option GatewaySettings}
    {registry : Registry} {req : Request} {world : σ}
    (h : (schedulerExecute skf settings registry req world).rc ≠ 0) :
    ∃ status msg, (schedulerExecute skf settings registry req world).resp =
      buildErrorResponse req status msg := by
  rw [schedulerExecute] at h ⊢
  cases hpin : validateGatewayPin settings req with
  | answered resp => simp [hpin] at h
  | refused resp =>
    obtain ⟨msg, _, hresp⟩ := validateGatewayPin_refused hpin
    exact ⟨_, _, hresp⟩
  | proceed =>
    simp only [hpin] at h ⊢
    split
    · rename_i hseq
      rw [if_pos hseq, executeSequence] at h
      rw [executeSequence]
      cases hparse : parseSequence req with
      | error errbuf => exact ⟨_, _, rfl⟩
      | ok steps =>
        cases steps with
        | nil => simp [hparse] at h
        | cons step steps =>
          rw [hparse] at h
          exact runSteps_failed h
    · rename_i hseq
      rw [if_neg hseq] at h
      exact executePlain_failed h

theorem every_run_answered_iff (skf : SkfAdapter σ) (settings : Option GatewaySettings)
    (registry : Registry) (req : Request) (world : σ) :
    (Answered (schedulerExecute skf settings registry req world).resp ↔
      escapedLength (schedulerExecute skf settings registry req world).resp ≤ 2452) ∧
    ((schedulerExecute skf settings registry req world).rc ≠ 0 →
      Answered (schedulerExecute skf settings registry req world).resp) := by
  constructor
  · exact answered_iff _
  · intro h
    obtain ⟨status, msg, hresp⟩ := schedulerExecute_failed h
    rw [hresp]
    exact error_answered req status msg

end Answers

section Samples

/-- A request to hash three times. -/
def hashThrice (payload : Bytes) : Request where
  requestId := store maxIdLen (lit "r11")
  domain := .hash
  action := .hash
  algorithm := store maxFieldLen (lit "sm3")
  keyRef := empty
  payload := store maxPayloadLen payload
  auxPayload := empty
  deviceHint := empty
  userPin := empty
  preference := .balanced
  sequence := store maxPayloadLen
    (lit "hash:hash:classic:sm3>hash:hash:classic:sm3>hash:hash:classic:sm3")

def hashThriceLine (payload : Bytes) : Bytes :=
  lit "\x7b\"request_id\":\"r11\",\"domain\":\"hash\",\"action\":\"hash\"," ++
    lit "\"algorithm\":\"sm3\",\"payload\":\"" ++ payload ++ lit "\",\"sequence\":" ++
    lit "\"hash:hash:classic:sm3>hash:hash:classic:sm3>hash:hash:classic:sm3\"\x7d"

/-- Three hashes of 600 bytes succeed, and their trace and result are more
than the buffer of the reply holds: the client reads nothing. -/
theorem three_hashes_unanswered :
    parseRequestJson (hashThriceLine (List.replicate 600 97)) =
        .ok (hashThrice (List.replicate 600 97)) ∧
      (schedulerExecute absentToken none sampleRegistry
        (hashThrice (List.replicate 600 97)) ()).rc = 0 ∧
      ¬Answered (schedulerExecute absentToken none sampleRegistry
        (hashThrice (List.replicate 600 97)) ()).resp := by
  refine ⟨by decide +kernel, by decide +kernel, ?_⟩
  rw [answered_iff]
  decide +kernel

end Samples

end Ucisdk.Reply
