import Ucisdk.EscapeLoops
import Ucisdk.Scan.Json

/-!
# What the encoders write can be read back

A decoder of flat objects recovers the fields of a response from what
`response_to_json` wrote, and the options of a request from what `build_json`
wrote: every byte of every string, and nothing else.
-/

set_option autoImplicit false

namespace Ucisdk.Encoders

open Ucisdk.CString Ucisdk.Common Ucisdk.Driver
open Ucisdk.Protocol hiding quote backslash colon
open Ucisdk.RequestFields Ucisdk.Ccm Ucisdk.CcmObject Ucisdk.Reply Ucisdk.EscapeLoops
open Scan.Json

section Parts

theorem escapeByte_undone : Undone escapeByte := by
  intro c rest
  by_cases hquote : c = 34 ∨ c = 92
  · have hletter : letter c = some c := by
      rcases hquote with rfl | rfl <;> decide
    rw [escapeByte, if_pos hquote]
    exact readString_letter hletter rest
  · by_cases hnewline : c = 10
    · subst hnewline
      exact readString_letter (show letter 110 = some 10 by decide) rest
    · by_cases hreturn : c = 13
      · subst hreturn
        exact readString_letter (show letter 114 = some 13 by decide) rest
      · by_cases htab : c = 9
        · subst htab
          exact readString_letter (show letter 116 = some 9 by decide) rest
        · by_cases hcontrol : c < 32
          · have hdigits : ∀ c : UInt8, c < 32 →
                unicode 48 48 (hexDigit (c / 16)) (hexDigit (c % 16)) = some [c] := by
              apply forall_byte
              decide +kernel
            have htext : escapeByte c =
                [backslash, 117, 48, 48, hexDigit (c / 16), hexDigit (c % 16)] := by
              rw [escapeByte, if_neg hquote, if_neg hnewline, if_neg hreturn, if_neg htab,
                if_pos hcontrol]
              rfl
            rw [htext]
            exact readString_unicode (hdigits c hcontrol) rest
          · rw [escapeByte, if_neg hquote, if_neg hnewline, if_neg hreturn, if_neg htab,
              if_neg hcontrol]
            rw [not_or] at hquote
            exact readString_plain hquote.1 hquote.2 hcontrol rest

theorem escape_spells (s : Bytes) : Spells (escape s) s := spells_encoded escapeByte_undone s

/-- A member with a string value. -/
def stringMember (name value : Bytes) : Bytes :=
  pairText name (quote :: escape value ++ [quote])

/-- A name needs no escape. -/
def Bare (name : Bytes) : Prop := ∀ c ∈ name, c ≠ quote ∧ c ≠ backslash ∧ ¬c < 32

instance (name : Bytes) : Decidable (Bare name) :=
  decidableBytes (fun c => c ≠ quote ∧ c ≠ backslash ∧ ¬c < 32) name

theorem stringMember_spelled {name : Bytes} (hname : Bare name) (value : Bytes) :
    SpellsMember (stringMember name value) (name, .string value) :=
  member_spelled (spells_plain hname) (value_string (escape_spells value))

theorem status_numeral (status : StatusCode) :
    Numeral (decimal (statusNumber status)) (statusNumber status) := by
  cases status <;> exact ⟨by decide, by decide, by decide, by decide⟩

end Parts

section Responses

/-- What the object of a response holds. -/
def responseMembers (resp : Response) : List (Bytes × Value) :=
  [(lit "request_id", .string resp.requestId.bytes),
    (lit "status", .number (statusNumber resp.status)),
    (lit "selected_device", .string resp.selectedDevice.bytes),
    (lit "backend_name", .string resp.backendName.bytes),
    (lit "backend_call", .string resp.backendCall.bytes),
    (lit "trace", .string resp.trace.bytes), (lit "result", .string resp.result.bytes)]

def responseParts (resp : Response) : List Bytes :=
  [stringMember (lit "request_id") resp.requestId.bytes,
    pairText (lit "status") (decimal (statusNumber resp.status)),
    stringMember (lit "selected_device") resp.selectedDevice.bytes,
    stringMember (lit "backend_name") resp.backendName.bytes,
    stringMember (lit "backend_call") resp.backendCall.bytes,
    stringMember (lit "trace") resp.trace.bytes, stringMember (lit "result") resp.result.bytes]

theorem responseParts_spelled (resp : Response) :
    List.Forall₂ SpellsMember (responseParts resp) (responseMembers resp) := by
  have hname : Bare (lit "status") := by decide
  have hstatus : SpellsMember (pairText (lit "status") (decimal (statusNumber resp.status)))
      (lit "status", .number (statusNumber resp.status)) :=
    member_spelled (spells_plain hname) (value_number (status_numeral resp.status))
  refine .cons (stringMember_spelled (by decide) _) (.cons hstatus ?_)
  refine .cons (stringMember_spelled (by decide) _) (.cons (stringMember_spelled (by decide) _) ?_)
  refine .cons (stringMember_spelled (by decide) _) (.cons (stringMember_spelled (by decide) _) ?_)
  exact .cons (stringMember_spelled (by decide) _) .nil

theorem fieldText_first (name : String) (value : Bytes) :
    fieldText name value false = stringMember (lit name) value := by
  simp [fieldText, stringMember, pairText, show lit "\"" = [quote] from rfl,
    show lit "\":\"" = [quote, colon, quote] from rfl]

theorem fieldText_later (name : String) (value : Bytes) :
    fieldText name value true = comma :: stringMember (lit name) value := by
  simp [fieldText, stringMember, pairText, show lit "\"" = [quote] from rfl,
    show lit "," = [comma] from rfl,
    show lit "\":\"" = [quote, colon, quote] from rfl]

theorem responseText_parts (resp : Response) :
    responseText resp = lbrace :: (joined (responseParts resp) ++ [rbrace]) := by
  have hstatus : lit ",\"status\":" ++ decimal (statusNumber resp.status) =
      comma :: pairText (lit "status") (decimal (statusNumber resp.status)) := rfl
  simp only [responseText, fieldText_first, fieldText_later, hstatus, responseParts, joined]
  simp [show lit "\x7b" = [lbrace] from rfl, show lit "\x7d" = [rbrace] from rfl]

theorem responseText_decoded (resp : Response) :
    decodeObject (responseText resp) = some (responseMembers resp) := by
  rw [responseText_parts]
  apply decodeObject_joined (responseParts_spelled resp)
  · simp [responseParts]
  · intro t ht
    simp only [responseParts, List.mem_cons, List.not_mem_nil, or_false] at ht
    rcases ht with rfl | rfl | rfl | rfl | rfl | rfl | rfl <;> simp [stringMember, pairText]
  · simp

/-- The length of the text is a value of `int`. -/
theorem responseText_short (resp : Response) : (responseText resp).length < 2 ^ 31 := by
  have hescaped {cap : ℕ} (s : CStr cap) : (escape s.bytes).length ≤ 6 * cap := by
    have hlength := escape_length_le s.bytes
    have hfits := s.fits
    omega
  have hid : (escape resp.requestId.bytes).length ≤ 384 := hescaped resp.requestId
  have hdevice : (escape resp.selectedDevice.bytes).length ≤ 12288 := hescaped resp.selectedDevice
  have hname : (escape resp.backendName.bytes).length ≤ 12288 := hescaped resp.backendName
  have hcall : (escape resp.backendCall.bytes).length ≤ 12288 := hescaped resp.backendCall
  have htrace : (escape resp.trace.bytes).length ≤ 12288 := hescaped resp.trace
  have hresult : (escape resp.result.bytes).length ≤ 12288 := hescaped resp.result
  have hnumber : (decimal (statusNumber resp.status)).length ≤ 3 := by
    cases resp.status <;> decide
  rw [responseText_length, escapedLength]
  omega

end Responses

section Requests

variable {cap : ℕ} [NeZero cap]

/-- The strings of a request, the options only where they are not empty. -/
def requestStrings (domain action algorithm : Bytes) (opts : CcmJsonOptions) :
    List (Bytes × Bytes) :=
  [(lit "request_id", opts.requestId.bytes), (lit "domain", domain), (lit "action", action),
    (lit "algorithm", algorithm)] ++
  [(lit "key_ref", opts.keyRef.bytes), (lit "payload", opts.payload.bytes),
    (lit "aux_payload", opts.auxPayload.bytes), (lit "device_hint", opts.deviceHint.bytes),
    (lit "preference", opts.preference.bytes),
    (lit "sequence", opts.sequence.bytes)].filter fun m => m.2 ≠ []

def requestMembers (domain action algorithm : Bytes) (opts : CcmJsonOptions) :
    List (Bytes × Value) :=
  (requestStrings domain action algorithm opts).map fun m => (m.1, .string m.2)

theorem requestStrings_eq (domain action algorithm : Bytes) (opts : CcmJsonOptions) :
    requestStrings domain action algorithm opts =
      (Field.requestId :: laterFields (requestTexts domain action algorithm opts)).map
        fun f => (f.key, requestTexts domain action algorithm opts f) := by
  have hoptions : [(lit "key_ref", opts.keyRef.bytes), (lit "payload", opts.payload.bytes),
      (lit "aux_payload", opts.auxPayload.bytes), (lit "device_hint", opts.deviceHint.bytes),
      (lit "preference", opts.preference.bytes), (lit "sequence", opts.sequence.bytes)] =
        optionFields.map fun f => (f.key, requestTexts domain action algorithm opts f) := rfl
  rw [requestStrings, hoptions, List.filter_map]
  rfl

theorem memberText_parts (name value : Bytes) :
    CcmObject.memberText name value = comma :: stringMember name value := by
  simp only [CcmObject.memberText, stringMember, pairText, List.cons_append]
  rfl

theorem builtObject_parts (t : Field → Bytes) :
    (builtObject t).text = lbrace ::
      (joined ((Field.requestId :: laterFields t).map fun f => stringMember f.key (t f)) ++
        rbrace :: lit "\n") := by
  have hlater : ((laterFields t).map fun f => stringMember f.key (t f)).flatMap
      (fun text => comma :: text) =
        ([.domain, .action, .algorithm].flatMap fun f => CcmObject.memberText f.key (t f)) ++
          optionFields.flatMap fun f => optionText f.key (t f) := by
    rw [List.flatMap_map, laterFields, List.flatMap_append, ← options_text]
    simp only [memberText_parts]
  have hfirst : Protocol.quote :: (Field.requestId.key ++ Protocol.quote :: Protocol.colon ::
      Protocol.quote :: (escape (t .requestId) ++ [Protocol.quote])) =
        stringMember Field.requestId.key (t .requestId) := by
    simp only [stringMember, pairText, List.cons_append]
    rfl
  rw [builtObject_text, List.map_cons, joined, hlater, ← hfirst]
  simp [show lit "\x7d\n" = rbrace :: lit "\n" from rfl, show JsonObject.lbrace = lbrace from rfl]

/-- What `build_json` built is decoded to the strings of the request. -/
theorem buildJson_decoded {domain action name : Bytes} {uiAlgID : UInt32} {opts : CcmJsonOptions}
    {json : CStr cap} (hname : ccmAlgName uiAlgID = some name)
    (h : buildJson domain action uiAlgID opts cap = (.ok, json)) :
    decodeObject json.bytes = some (requestMembers domain action name opts) := by
  have hspelled (t : Field → Bytes) (fs : List Field) :
      List.Forall₂ SpellsMember (fs.map fun f => stringMember f.key (t f))
        (fs.map fun f => (f.key, .string (t f))) := by
    rw [List.forall₂_map_left_iff, List.forall₂_map_right_iff, List.forall₂_same]
    intro f _
    apply stringMember_spelled
    cases f <;> decide
  rw [(buildJson_text hname h).2, builtObject_parts, requestMembers, requestStrings_eq,
    List.map_map]
  apply decodeObject_joined (hspelled _ _)
  · simp
  · intro t ht
    obtain ⟨f, _, rfl⟩ := List.mem_map.mp ht
    simp [stringMember, pairText]
  · decide

end Requests

section Faithful

/-- From what either encoder wrote a decoder recovers the fields, and the two
loops that escape the strings do the same to the same array. -/
theorem encoders_faithful :
    (∀ (resp : Response) (cap : ℕ), responseToJson resp cap = none ∨
      ∃ json : CStr cap, responseToJson resp cap = some json ∧ json.bytes.length < 2 ^ 31 ∧
        0 ∉ json.bytes ∧ decodeObject json.bytes = some (responseMembers resp)) ∧
    (∀ (domain action : Bytes) (uiAlgID : UInt32) (opts : CcmJsonOptions) (cap : ℕ) [NeZero cap]
      (json : CStr cap), buildJson domain action uiAlgID opts cap = (.ok, json) →
        ∃ algorithm, ccmAlgName uiAlgID = some algorithm ∧
          decodeObject json.bytes = some (requestMembers domain action algorithm opts)) ∧
    ∀ (size : UInt64) (value : Bytes) (cur : Cursor), cur.pos < size →
      SameEnd (EscapeLoops.appendJsonEscaped size value cur).1
          (EscapeLoops.appendJsonString size (some value) cur).1 ∧
        (EscapeLoops.appendJsonEscaped size value cur).2 =
          (EscapeLoops.appendJsonString size (some value) cur).2 ∧
        (EscapeLoops.appendJsonEscaped size value cur).2.pos < size := by
  refine ⟨?_, ?_, ?_⟩
  · intro resp cap
    by_cases hcap : 0 < cap
    · rw [responseToJson_eq resp hcap, put]
      split
      · right
        refine ⟨_, rfl, responseText_short resp, ?_, responseText_decoded resp⟩
        intro hzero
        exact absurd (responseText_printable resp 0 hzero) (by decide)
      · exact .inl rfl
    · left
      rw [responseToJson, dif_neg hcap]
  · intro domain action uiAlgID opts cap _ json h
    obtain ⟨name, hname⟩ := buildJson_name h
    exact ⟨name, hname, buildJson_decoded hname h⟩
  · intro size value cur hpos
    obtain ⟨hends, hsame⟩ := loops_agree size value cur
    exact ⟨hends, hsame, loop_inside value hpos⟩

end Faithful

end Ucisdk.Encoders
