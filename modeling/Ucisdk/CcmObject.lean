import Ucisdk.Ccm
import Ucisdk.JsonObject
import Ucisdk.RequestFields

/-!
# The object a built request is

An append is known by the text it stands for: it writes what fits of it and
reports whether all of it did. A request that was built to its end is then
the text of a flat object, with one member for each text that is not empty.
-/

set_option autoImplicit false

namespace Ucisdk.CcmObject

open Ucisdk.CString Ucisdk.Common Ucisdk.Protocol Ucisdk.JsonObject Ucisdk.RequestFields
open Ucisdk.Ccm
open Scan.Quoted

section Appends

variable {cap : ℕ} [NeZero cap]

/-- The append `a` on `out` stands for the text `s`. -/
def Appends (a : Appender cap) (out : CStr cap) (s : Bytes) : Prop :=
  a out = (if (out.bytes ++ s).length < cap then .ok else .bufferTooSmall, append out s)

theorem append_bytes (out : CStr cap) (s : Bytes) :
    (append out s).bytes = (out.bytes ++ s).take (cap - 1) := rfl

theorem append_nil (out : CStr cap) : append out [] = out := by
  rw [append, List.append_nil, store_bytes_self]

theorem append_fits {out : CStr cap} {s : Bytes} (h : (out.bytes ++ s).length < cap) :
    (append out s).bytes = out.bytes ++ s := store_fits h

theorem appends_raw (out : CStr cap) (s : Bytes) : Appends (appendRaw s) out s := by
  have hcode : s.length < cap - out.bytes.length ↔ (out.bytes ++ s).length < cap := by
    rw [List.length_append]
    omega
  rw [Appends, appendRaw]
  simp only [hcode]

theorem appends_nil (out : CStr cap) : Appends (appendAll []) out [] := by
  have hfit := out.fits
  rw [Appends, appendAll, append_nil, List.append_nil, if_pos hfit]

/-- A text that was cut leaves no room for what comes behind it. -/
theorem append_cut {out : CStr cap} {s : Bytes} (h : ¬(out.bytes ++ s).length < cap) (t : Bytes) :
    append out (s ++ t) = append out s := by
  apply CStr.ext
  rw [append_bytes, append_bytes, ← List.append_assoc, List.take_append_of_le_length]
  omega

theorem append_append (out : CStr cap) (s t : Bytes) :
    append (append out s) t = append out (s ++ t) := by
  by_cases h : (out.bytes ++ s).length < cap
  · apply CStr.ext
    rw [append_bytes (append out s) t, append_fits h, append_bytes out, List.append_assoc]
  · have hlen : (append out s).bytes.length = cap - 1 := by
      rw [append_bytes, List.length_take]
      omega
    rw [append_cut h]
    apply CStr.ext
    rw [append_bytes, List.take_append_of_le_length (by omega), List.take_of_length_le (by omega)]

/-- A chain stands for the texts of its appends one behind the other. -/
theorem appends_cons {a : Appender cap} {as : List (Appender cap)} {out : CStr cap} {s t : Bytes}
    (ha : Appends a out s) (has : Appends (appendAll as) (append out s) t) :
    Appends (appendAll (a :: as)) out (s ++ t) := by
  rw [Appends, appendAll, ha]
  by_cases hfit : (out.bytes ++ s).length < cap
  · rw [if_pos hfit]
    simp only
    rw [has, append_append, append_fits hfit, List.append_assoc]
  · have hover : ¬(out.bytes ++ (s ++ t)).length < cap := by
      rw [List.length_append] at hfit
      rw [List.length_append, List.length_append]
      omega
    rw [if_neg hfit, if_neg hover, append_cut hfit]

theorem appends_all (as : List (Appender cap × Bytes))
    (h : ∀ e ∈ as, ∀ out, Appends e.1 out e.2) (out : CStr cap) :
    Appends (appendAll (as.map Prod.fst)) out (as.flatMap Prod.snd) := by
  induction as generalizing out with
  | nil => exact appends_nil out
  | cons e as ih =>
    apply appends_cons (h e (by simp) out)
    exact ih (fun e' he' => h e' (by simp [he'])) _

end Appends

section Escape

/-- The bytes the encoder writes as they are. -/
def Plain (c : UInt8) : Prop := c ≠ quote ∧ c ≠ backslash ∧ 32 ≤ c

instance (c : UInt8) : Decidable (Plain c) := inferInstanceAs (Decidable (_ ∧ _))

def escape (s : Bytes) : Bytes := s.flatMap escapeByte

/-- The table of the encoder, one entry for each byte. -/
theorem escapeByte_table (c : UInt8) :
    Escaped quote backslash (escapeByte c) ∧ (escapeByte c).all (fun x => 32 ≤ x) = true ∧
      (c ≠ quote → ∀ x ∈ escapeByte c, x ≠ quote) ∧
      (1 ≤ (escapeByte c).length ∧ (escapeByte c).length ≤ 6) ∧
      (Plain c ↔ (escapeByte c).length ≤ 1) ∧ (Plain c → escapeByte c = [c]) := by
  apply forall_byte (p := fun c =>
    Escaped quote backslash (escapeByte c) ∧ (escapeByte c).all (fun x => 32 ≤ x) = true ∧
      (c ≠ quote → ∀ x ∈ escapeByte c, x ≠ quote) ∧
      (1 ≤ (escapeByte c).length ∧ (escapeByte c).length ≤ 6) ∧
      (Plain c ↔ (escapeByte c).length ≤ 1) ∧ (Plain c → escapeByte c = [c]))
  decide +kernel

theorem escapeByte_escaped (c : UInt8) : Escaped quote backslash (escapeByte c) := by
  obtain ⟨hescaped, _⟩ := escapeByte_table c
  exact hescaped

theorem escapeByte_printable (c : UInt8) : (escapeByte c).all (fun x => 32 ≤ x) = true := by
  obtain ⟨_, hprintable, _⟩ := escapeByte_table c
  exact hprintable

theorem escapeByte_quote (c : UInt8) (h : c ≠ quote) : ∀ x ∈ escapeByte c, x ≠ quote := by
  obtain ⟨_, _, hquote, _⟩ := escapeByte_table c
  exact hquote h

theorem escapeByte_pos (c : UInt8) : 1 ≤ (escapeByte c).length := by
  obtain ⟨_, _, _, ⟨hpos, _⟩, _⟩ := escapeByte_table c
  exact hpos

theorem escapeByte_length (c : UInt8) : (escapeByte c).length ≤ 6 := by
  obtain ⟨_, _, _, ⟨_, hlength⟩, _⟩ := escapeByte_table c
  exact hlength

theorem escapeByte_plain_iff (c : UInt8) : Plain c ↔ (escapeByte c).length ≤ 1 := by
  obtain ⟨_, _, _, _, hiff, _⟩ := escapeByte_table c
  exact hiff

theorem escapeByte_plain {c : UInt8} (h : Plain c) : escapeByte c = [c] := by
  obtain ⟨_, _, _, _, _, hplain⟩ := escapeByte_table c
  exact hplain h

theorem escape_escaped (s : Bytes) : Escaped quote backslash (escape s) := by
  induction s with
  | nil => exact .nil
  | cons c s ih => exact escaped_append (escapeByte_escaped c) ih

theorem escape_printable (s : Bytes) : (escape s).all (fun x => 32 ≤ x) = true := by
  rw [escape, List.all_flatMap, List.all_eq_true]
  exact fun c _ => escapeByte_printable c

theorem escape_plain {s : Bytes} (h : ∀ c ∈ s, Plain c) : escape s = s := by
  induction s with
  | nil => rfl
  | cons c s ih =>
    have hs := ih fun x hx => h x (by simp [hx])
    rw [escape] at hs
    rw [escape, List.flatMap_cons, escapeByte_plain (h c (by simp)), hs]
    rfl

theorem escape_length (s : Bytes) : s.length ≤ (escape s).length := by
  induction s with
  | nil => simp
  | cons c s ih =>
    have hc := escapeByte_pos c
    rw [escape] at ih
    rw [escape, List.flatMap_cons, List.length_append, List.length_cons]
    omega

theorem plain_of_escape_length {s : Bytes} (h : (escape s).length ≤ s.length) :
    ∀ c ∈ s, Plain c := by
  induction s with
  | nil => simp
  | cons c s ih =>
    have hc := escapeByte_pos c
    have hs := escape_length s
    rw [escape] at hs
    rw [escape, List.flatMap_cons, List.length_append, List.length_cons] at h
    intro x hx
    rcases List.mem_cons.mp hx with rfl | hx
    · rw [escapeByte_plain_iff]
      omega
    · refine ih ?_ x hx
      rw [escape]
      omega

theorem upToQuote_quote (s : Bytes) : ∀ c ∈ upToQuote s, c ≠ quote := by
  intro c hc
  have h := List.mem_takeWhile_imp hc
  simpa using h

/-- The reader gets a text back exactly if nothing of it had to be escaped. -/
theorem upToQuote_escape_iff (s : Bytes) : upToQuote (escape s) = s ↔ ∀ c ∈ s, Plain c := by
  constructor
  · intro h
    have hquote : ∀ c ∈ s, c ≠ quote := by
      rw [← h]
      exact upToQuote_quote (escape s)
    have hnone : ∀ c ∈ escape s, c ≠ quote := by
      intro c hc
      rw [escape, List.mem_flatMap] at hc
      obtain ⟨x, hx, hc⟩ := hc
      exact escapeByte_quote x (hquote x hx) c hc
    have hall : upToQuote (escape s) = escape s := by
      rw [upToQuote, List.takeWhile_eq_self_iff]
      intro c hc
      simpa using hnone c hc
    apply plain_of_escape_length
    rw [← hall, h]
  · intro h
    rw [escape_plain h, upToQuote, List.takeWhile_eq_self_iff]
    intro c hc
    simpa using (h c hc).1

def jsonString (s : Bytes) : JsonString := ⟨escape s, escape_escaped s, escape_printable s⟩

end Escape

section Built

variable {cap : ℕ} [NeZero cap]

theorem appends_string (value : Bytes) (out : CStr cap) :
    Appends (appendJsonString value) out (escape value) := by
  have h := appends_all (value.map fun c => (appendRaw (escapeByte c), escapeByte c))
    (by
      intro e he out
      obtain ⟨c, _, rfl⟩ := List.mem_map.mp he
      exact appends_raw out (escapeByte c)) out
  rw [List.map_map, List.flatMap_map] at h
  exact h

theorem appends_field (name value : Bytes) (comma : Bool) (out : CStr cap) :
    Appends (appendField name value comma) out
      ((if comma then lit ",\"" else lit "\"") ++ name ++ lit "\":\"" ++ escape value ++
        lit "\"") := by
  have h : Appends (appendField name value comma) out _ :=
    appends_all [(appendRaw (if comma then lit ",\"" else lit "\""),
      if comma then lit ",\"" else lit "\""), (appendRaw name, name),
      (appendRaw (lit "\":\""), lit "\":\""), (appendJsonString value, escape value),
      (appendRaw (lit "\""), lit "\"")]
    (by
      intro e he out
      simp only [List.mem_cons, List.not_mem_nil, or_false] at he
      rcases he with rfl | rfl | rfl | rfl | rfl
      · exact appends_raw out _
      · exact appends_raw out _
      · exact appends_raw out _
      · exact appends_string value out
      · exact appends_raw out _) out
  simpa [List.append_assoc] using h

/-- The text of a member behind the one in front of it. -/
def memberText (name value : Bytes) : Bytes :=
  comma :: quote :: (name ++ quote :: colon :: quote :: (escape value ++ [quote]))

theorem appends_member (name value : Bytes) (out : CStr cap) :
    Appends (appendField name value true) out (memberText name value) := by
  have h := appends_field name value true out
  have htext : lit ",\"" ++ name ++ lit "\":\"" ++ escape value ++ lit "\"" =
      memberText name value := by
    simp [memberText, show lit ",\"" = [comma, quote] from rfl,
      show lit "\":\"" = [quote, colon, quote] from rfl, show lit "\"" = [quote] from rfl]
  rw [if_pos rfl, htext] at h
  exact h

def optionText (name value : Bytes) : Bytes := if value = [] then [] else memberText name value

theorem appends_option (name : String) (value : Bytes) (out : CStr cap) :
    Appends (appendOption name value) out (optionText (lit name) value) := by
  by_cases h : value = []
  · have hnil := appends_nil out
    rw [Appends, appendOption, optionText, if_pos h, if_pos h]
    exact hnil
  · have hmember := appends_member (lit name) value out
    rw [Appends] at hmember
    rw [Appends, appendOption, optionText, if_neg h, if_neg h]
    exact hmember

/-- The members that are left out when they are empty. -/
def optionFields : List Field :=
  [.keyRef, .payload, .auxPayload, .deviceHint, .preference, .sequence]

def requestTexts (domain action algorithm : Bytes) (opts : CcmJsonOptions) : Field → Bytes
  | .requestId => opts.requestId.bytes
  | .domain => domain
  | .action => action
  | .algorithm => algorithm
  | .keyRef => opts.keyRef.bytes
  | .payload => opts.payload.bytes
  | .auxPayload => opts.auxPayload.bytes
  | .deviceHint => opts.deviceHint.bytes
  | .userPin => []
  | .preference => opts.preference.bytes
  | .sequence => opts.sequence.bytes

def fieldString (f : Field) : JsonString where
  raw := f.key
  escaped := by cases f <;> decide +kernel
  printable := by cases f <;> decide +kernel

def sentMember (t : Field → Bytes) (f : Field) : Member :=
  ⟨fieldString f, compact colon, jsonString (t f)⟩

/-- The fields whose members stand behind the first one. -/
def laterFields (t : Field → Bytes) : List Field :=
  [.domain, .action, .algorithm] ++ optionFields.filter fun f => t f ≠ []

theorem mem_laterFields (t : Field → Bytes) (f : Field) :
    f ∈ laterFields t ↔
      f ∈ [Field.domain, .action, .algorithm] ∨ f ∈ optionFields ∧ t f ≠ [] := by
  rw [laterFields, List.mem_append, List.mem_filter, decide_eq_true_iff]

/-- The object of a request: every text that is not empty is a member. -/
def builtObject (t : Field → Bytes) : FlatObject where
  opening := compact lbrace
  body := some (sentMember t .requestId, (laterFields t).map fun f => (compact comma, sentMember t f))
  closing := { compact rbrace with right := lit "\n", rightBlank := by decide }

theorem builtObject_members (t : Field → Bytes) :
    (builtObject t).members = (Field.requestId :: laterFields t).map (sentMember t) := by
  simp [builtObject, FlatObject.members, FlatObject.placed, Function.comp_def]

theorem later_text (t : Field → Bytes) (ending : Bytes) (fs : List Field) :
    Scan.Quoted.text quote ending
        (strings (fs.map fun f => ((compact comma).text, sentMember t f))) =
      (fs.flatMap fun f => memberText f.key (t f)) ++ ending := by
  induction fs with
  | nil => rfl
  | cons f fs ih =>
    have hcons : strings ((f :: fs).map fun f => ((compact comma).text, sentMember t f)) =
        ([comma], f.key) :: ([colon], escape (t f)) ::
          strings (fs.map fun f => ((compact comma).text, sentMember t f)) := rfl
    rw [hcons, Scan.Quoted.text, Scan.Quoted.text, ih, List.flatMap_cons, memberText]
    simp

theorem options_text (t : Field → Bytes) (fs : List Field) :
    ((fs.filter fun f => t f ≠ []).flatMap fun f => memberText f.key (t f)) =
      fs.flatMap fun f => optionText f.key (t f) := by
  induction fs with
  | nil => rfl
  | cons f fs ih =>
    by_cases h : t f = []
    · simpa [h, optionText] using ih
    · simpa [h, optionText] using ih

theorem builtObject_text (t : Field → Bytes) :
    (builtObject t).text =
      lbrace :: quote :: (Field.requestId.key ++ quote :: colon :: quote ::
        (escape (t .requestId) ++ quote ::
          (([.domain, .action, .algorithm].flatMap fun f => memberText f.key (t f)) ++
            (optionFields.flatMap fun f => optionText f.key (t f)) ++
              lit "\x7d\n"))) := by
  have hstrings : strings (builtObject t).placed =
      ([lbrace], Field.requestId.key) :: ([colon], escape (t .requestId)) ::
        strings ((laterFields t).map fun f => ((compact comma).text, sentMember t f)) := by
    simp [builtObject, FlatObject.placed, strings, sentMember, fieldString, jsonString, compact,
      Gap.text, List.flatMap_map, Function.comp_def]
  have hending : (builtObject t).ending = lit "\x7d\n" := rfl
  rw [FlatObject.text, hstrings, hending, Scan.Quoted.text, Scan.Quoted.text, later_text,
    laterFields, List.flatMap_append, options_text]
  simp

theorem buildJson_name {domain action : Bytes} {uiAlgID : UInt32} {opts : CcmJsonOptions}
    {json : CStr cap} (h : buildJson domain action uiAlgID opts cap = (.ok, json)) :
    ∃ name, ccmAlgName uiAlgID = some name := by
  cases hname : ccmAlgName uiAlgID with
  | none =>
    simp only [buildJson, ccmAlgorithmName, hname] at h
    split at h <;> simp at h
  | some name => exact ⟨name, rfl⟩

/-- A request is the text of its object, as much of it as fits. -/
theorem buildJson_eq {domain action name : Bytes} {uiAlgID : UInt32} {opts : CcmJsonOptions}
    (hname : ccmAlgName uiAlgID = some name) (hshort : name.length < 64)
    (hid : opts.requestId.bytes ≠ []) :
    buildJson domain action uiAlgID opts cap =
      (if (builtObject (requestTexts domain action name opts)).text.length < cap then .ok
        else .bufferTooSmall, store cap (builtObject (requestTexts domain action name opts)).text) := by
  have hchain := appends_cons (appends_raw (empty : CStr cap) (lit "\x7b")) <|
    appends_cons (appends_field (lit "request_id") opts.requestId.bytes false _) <|
    appends_cons (appends_member (lit "domain") domain _) <|
    appends_cons (appends_member (lit "action") action _) <|
    appends_cons (appends_member (lit "algorithm") name _) <|
    appends_cons (appends_option "key_ref" opts.keyRef.bytes _) <|
    appends_cons (appends_option "payload" opts.payload.bytes _) <|
    appends_cons (appends_option "aux_payload" opts.auxPayload.bytes _) <|
    appends_cons (appends_option "device_hint" opts.deviceHint.bytes _) <|
    appends_cons (appends_option "preference" opts.preference.bytes _) <|
    appends_cons (appends_option "sequence" opts.sequence.bytes _) <|
    appends_cons (appends_raw _ (lit "\x7d\n")) (appends_nil _)
  rw [Appends, append, empty_bytes, List.nil_append] at hchain
  simp only [buildJson, ccmAlgorithmName, hname, copyOut, hshort, hid, if_true, if_false,
    store_fits hshort]
  rw [hchain, builtObject_text]
  simp [optionFields, requestTexts, Field.key, show lit "\x7b" = [lbrace] from rfl,
    show lit "\":\"" = [quote, colon, quote] from rfl, show lit "\"" = [quote] from rfl]

/-- A request that was built to its end is the text of its object. -/
theorem buildJson_text {domain action name : Bytes} {uiAlgID : UInt32} {opts : CcmJsonOptions}
    {json : CStr cap} (hname : ccmAlgName uiAlgID = some name)
    (h : buildJson domain action uiAlgID opts cap = (.ok, json)) :
    opts.requestId.bytes ≠ [] ∧
      json.bytes = (builtObject (requestTexts domain action name opts)).text := by
  by_cases hid : opts.requestId.bytes = []
  · simp [buildJson, hid] at h
  · refine ⟨hid, ?_⟩
    by_cases hshort : name.length < 64
    · rw [buildJson_eq hname hshort hid] at h
      split at h
      · rename_i hfit
        rw [← (Prod.mk.inj h).2, store_fits hfit]
      · simp at h
    · simp [buildJson, ccmAlgorithmName, hname, copyOut, hshort, hid] at h

theorem buildJson_ok {domain action name : Bytes} {uiAlgID : UInt32} {opts : CcmJsonOptions}
    (hname : ccmAlgName uiAlgID = some name) (hshort : name.length < 64)
    (hid : opts.requestId.bytes ≠ [])
    (hfit : (builtObject (requestTexts domain action name opts)).text.length < cap) :
    buildJson domain action uiAlgID opts cap =
      (.ok, store cap (builtObject (requestTexts domain action name opts)).text) := by
  rw [buildJson_eq hname hshort hid, if_pos hfit]

end Built

end Ucisdk.CcmObject
