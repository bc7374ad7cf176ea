import Ucisdk.ClientRoundTrip
import Ucisdk.KeyText

/-!
# What the server reads of a hybrid call

Of all the texts of a hybrid call only the key reference is the caller's own.
The server reads it up to its first escaped quote, or not at all when it is
too long; the sequence is the call's, unless the key reference spells its name.
-/

set_option autoImplicit false

namespace Ucisdk.HybridRequest

open Ucisdk.CString Ucisdk.Common Ucisdk.Protocol Ucisdk.JsonObject Ucisdk.RequestFields
open Ucisdk.RequestLine Ucisdk.Ccm Ucisdk.CcmObject Ucisdk.KeyText Ucisdk.ClientRoundTrip
open Scan.Quoted

inductive HybridCall where
  | sign
  | verify
  deriving DecidableEq

namespace HybridCall

def action : HybridCall → ApiAction
  | .sign => .sign
  | .verify => .verify

def requestId : HybridCall → String
  | .sign => "ccm-hybrid-sign"
  | .verify => "ccm-hybrid-verify"

def sequence : HybridCall → String
  | .sign => "asym:sign:classic:sm2>pqc:sign:pqc:dilithium3"
  | .verify => "asym:verify:classic:sm2>pqc:verify:pqc:dilithium3"

/-- The function of the client that a hybrid call is. -/
def build (call : HybridCall) (alg : UnifAlgParams) (classicKey pqcKey : UnifKeyRef)
    (data signature : UnifBuffer) : CcmCode × CStr 2048 :=
  match call with
  | .sign => ccmHybridSign alg classicKey pqcKey data signature
  | .verify => ccmHybridVerify alg classicKey pqcKey data signature

theorem build_eq (call : HybridCall) (alg : UnifAlgParams) (classicKey pqcKey : UnifKeyRef)
    (data signature : UnifBuffer) :
    call.build alg classicKey pqcKey data signature =
      buildJson (domainToString .asym) (actionToString call.action) (algOrAuto alg)
        (hybridOpts call.requestId call.sequence alg classicKey pqcKey data signature) 2048 := by
  cases call <;> rfl

end HybridCall

section Quiet

/-- A byte that no reader of a request acts on outside of a token list. -/
def Quiet (c : UInt8) : Prop := Plain c ∧ c ≠ colon

instance (c : UInt8) : Decidable (Quiet c) := inferInstanceAs (Decidable (_ ∧ _))

variable {cap : ℕ} [NeZero cap]

/-- An append that only writes quiet bytes, behind the text that is there. -/
structure QuietAppend (a : Appender cap) : Prop where
  quiet : ∀ out, (∀ c ∈ out.bytes, Quiet c) → ∀ c ∈ (a out).2.bytes, Quiet c
  keeps : ∀ out, out.bytes <+: (a out).2.bytes

theorem prefix_append (out : CStr cap) (s : Bytes) : out.bytes <+: (append out s).bytes := by
  have hfit := out.fits
  rw [append_bytes, List.take_append]
  rw [List.take_of_length_le (by omega)]
  exact List.prefix_append _ _

theorem quiet_append {out : CStr cap} {s : Bytes} (hout : ∀ c ∈ out.bytes, Quiet c)
    (hs : ∀ c ∈ s, Quiet c) : ∀ c ∈ (append out s).bytes, Quiet c := by
  intro c hc
  rw [append_bytes] at hc
  rcases List.mem_append.mp (List.mem_of_mem_take hc) with hc | hc
  · exact hout c hc
  · exact hs c hc

omit [NeZero cap] in
theorem quiet_all {as : List (Appender cap)} (h : ∀ a ∈ as, QuietAppend a) :
    QuietAppend (appendAll as) := by
  induction as with
  | nil =>
    constructor
    · intro out hout
      exact hout
    · intro out
      exact List.prefix_rfl
  | cons a as ih =>
    have ha := h a (by simp)
    have has := ih fun b hb => h b (by simp [hb])
    constructor
    · intro out hout
      have hfirst := ha.quiet out hout
      rw [appendAll]
      split
      · rename_i next heq
        rw [heq] at hfirst
        exact has.quiet next hfirst
      · rename_i rc next _ heq
        rw [heq] at hfirst
        exact hfirst
    · intro out
      have hfirst := ha.keeps out
      rw [appendAll]
      split
      · rename_i next heq
        rw [heq] at hfirst
        exact hfirst.trans (has.keeps next)
      · rename_i rc next _ heq
        rw [heq] at hfirst
        exact hfirst

theorem quiet_of_inert {s : Bytes} (h : ∀ c ∈ s, Inert c) : ∀ c ∈ s, Quiet c :=
  fun c hc => ⟨(h c hc).1, (h c hc).2.1⟩

omit [NeZero cap] in
theorem separator_quiet (out : CStr cap) : ∀ c ∈ separator out, Quiet c := by
  rw [separator]
  split
  · simp
  · decide

/-- A token behind its separator. -/
theorem quiet_separated {name : String} {value : Bytes}
    (h : ∀ c ∈ lit name ++ lit "=" ++ value, Inert c) :
    QuietAppend (fun out => appendRaw (separator out ++ lit name ++ lit "=" ++ value) out :
      Appender cap) := by
  constructor
  · intro out hout
    apply quiet_append hout
    rw [List.append_assoc, List.append_assoc, ← List.append_assoc (lit name)]
    intro c hc
    rcases List.mem_append.mp hc with hc | hc
    · exact separator_quiet out c hc
    · exact quiet_of_inert h c hc
  · intro out
    exact prefix_append out _

theorem quiet_token {name : String} (h : ∀ c ∈ lit name, Inert c) (value : UInt32) :
    QuietAppend (appendToken name value : Appender cap) :=
  quiet_separated (numberToken_inert h value)

theorem quiet_pointer {name : String} (h : ∀ c ∈ lit name, Inert c) (ptr : UInt64) :
    QuietAppend (appendPtr name ptr : Appender cap) :=
  quiet_separated (pointerToken_inert h ptr)

theorem quiet_buffer {name : String} (h : ∀ c ∈ lit name, Inert c) (buf : UnifBuffer) :
    QuietAppend (appendBuffer name buf : Appender cap) := by
  apply quiet_all
  intro a ha
  simp only [List.mem_cons, List.not_mem_nil, or_false] at ha
  rcases ha with rfl | rfl
  · exact quiet_pointer h buf.pucData
  · exact quiet_token (by decide) buf.uiDataLen

theorem quiet_algParams (alg : UnifAlgParams) :
    QuietAppend (appendAlgParams alg : Appender cap) := by
  apply quiet_all
  intro a ha
  simp only [List.mem_cons, List.not_mem_nil, or_false] at ha
  rcases ha with rfl | rfl | rfl | rfl | rfl
  · exact quiet_token (by decide) alg.uiMode
  · exact quiet_token (by decide) alg.uiPadding
  · exact quiet_token (by decide) alg.uiHashAlgID
  · exact quiet_token (by decide) alg.uiSecurityLevel
  · exact quiet_pointer (by decide) alg.pExParams

omit [NeZero cap] in
theorem all_keeps_first (a : Appender cap) {as : List (Appender cap)}
    (h : ∀ b ∈ as, QuietAppend b) (out : CStr cap) :
    (a out).2.bytes <+: (appendAll (a :: as) out).2.bytes := by
  rw [appendAll]
  split
  · rename_i next heq
    rw [heq]
    exact (quiet_all h).keeps next
  · rename_i rc next _ heq
    rw [heq]

end Quiet

section Texts

variable (call : HybridCall) (alg : UnifAlgParams) (classicKey pqcKey : UnifKeyRef)
  (data signature : UnifBuffer)

def options : CcmJsonOptions :=
  hybridOpts call.requestId call.sequence alg classicKey pqcKey data signature

theorem payload_quiet :
    ∀ c ∈ (options call alg classicKey pqcKey data signature).payload.bytes, Quiet c :=
  (quiet_buffer (by decide) data).quiet _ ((quiet_algParams alg).quiet empty (by simp))

theorem auxPayload_quiet :
    ∀ c ∈ (options call alg classicKey pqcKey data signature).auxPayload.bytes, Quiet c :=
  (quiet_buffer (by decide) signature).quiet empty (by simp)

theorem payload_start :
    lit "m" <+: (options call alg classicKey pqcKey data signature).payload.bytes := by
  have hparams : (appendToken "mode" alg.uiMode (empty : CStr 1024)).2.bytes <+:
      (appendAlgParams alg (empty : CStr 1024)).2.bytes := by
    apply all_keeps_first
    intro b hb
    simp only [List.mem_cons, List.not_mem_nil, or_false] at hb
    rcases hb with rfl | rfl | rfl | rfl
    · exact quiet_token (by decide) alg.uiPadding
    · exact quiet_token (by decide) alg.uiHashAlgID
    · exact quiet_token (by decide) alg.uiSecurityLevel
    · exact quiet_pointer (by decide) alg.pExParams
  have hdata : QuietAppend (appendBuffer "data" data : Appender 1024) :=
    quiet_buffer (by decide) data
  have hbuffer := hdata.keeps (appendAlgParams alg empty).2
  have hfirst : lit "m" <+: (appendToken "mode" alg.uiMode (empty : CStr 1024)).2.bytes :=
    ⟨_, rfl⟩
  exact (hfirst.trans hparams).trans hbuffer

theorem auxPayload_start :
    lit "si" <+: (options call alg classicKey pqcKey data signature).auxPayload.bytes := by
  have hbuffer : (appendPtr "signature" signature.pucData (empty : CStr 1024)).2.bytes <+:
      (appendBuffer "signature" signature (empty : CStr 1024)).2.bytes := by
    apply all_keeps_first
    intro b hb
    rw [List.mem_singleton] at hb
    subst hb
    exact quiet_token (by decide) signature.uiDataLen
  have hfirst : lit "si" <+: (appendPtr "signature" signature.pucData (empty : CStr 1024)).2.bytes :=
    ⟨_, rfl⟩
  exact hfirst.trans hbuffer

/-- The key reference that a hybrid call sends. -/
def sentKeyRef : Bytes := (hybridText classicKey pqcKey).take 511

theorem keyRef_sent :
    (options call alg classicKey pqcKey data signature).keyRef.bytes =
      sentKeyRef classicKey pqcKey :=
  hybrid_keyRef classicKey pqcKey (by decide)

theorem keyRef_start : lit "a" <+: sentKeyRef classicKey pqcKey := ⟨_, rfl⟩

end Texts

section Walk

theorem key_plain (f : Field) : ∀ c ∈ f.key, Plain c := by
  cases f <;> decide

theorem spells_plain_text {s key : Bytes} (h : ∀ c ∈ s, Plain c) :
    Spells quote (escape s) key ↔ s = key := by
  rw [escape_plain h]
  exact spells_plain fun hq => (h quote hq).1 rfl

variable (t : Field → Bytes) {f g : Field} (fs : List Field)

/-- The walk passes a member whose name and value do not spell the key. -/
theorem scan_pass (hname : f ≠ g) (hvalue : ¬Spells quote (escape (t f)) g.key) :
    scan g.key ((f :: fs).map (sentMember t)) = scan g.key (fs.map (sentMember t)) := by
  have hkey : ¬Spells quote f.key g.key := by
    rw [spells_plain fun hq => (key_plain f quote hq).1 rfl]
    exact fun h => hname (key_injective h)
  rw [List.map_cons, scan]
  have hn : ¬Spells quote (sentMember t f).name.raw g.key := hkey
  have hv : ¬Spells quote (sentMember t f).value.raw g.key := hvalue
  rw [if_neg hn, if_neg hv]

theorem scan_pass_plain (hname : f ≠ g) (hplain : ∀ c ∈ t f, Plain c) (hne : t f ≠ g.key) :
    scan g.key ((f :: fs).map (sentMember t)) = scan g.key (fs.map (sentMember t)) :=
  scan_pass t fs hname fun h => hne ((spells_plain_text hplain).mp h)

theorem scan_found : scan f.key ((f :: fs).map (sentMember t)) = some (upToQuote (escape (t f))) := by
  rw [List.map_cons, scan]
  exact if_pos (Or.inl rfl)

/-- A value that spells the key makes the walk read the next value. -/
theorem scan_misread (hname : f ≠ g) (hvalue : Spells quote (escape (t f)) g.key)
    (next : Field) (hcolon : ∀ c ∈ next.key, c ≠ colon) :
    scan g.key ((f :: next :: fs).map (sentMember t)) = some (upToQuote (escape (t next))) := by
  have hkey : ¬Spells quote f.key g.key := by
    rw [spells_plain fun hq => (key_plain f quote hq).1 rfl]
    exact fun h => hname (key_injective h)
  have hn : ¬Spells quote (sentMember t f).name.raw g.key := hkey
  have hv : Spells quote (sentMember t f).value.raw g.key := hvalue
  have hafter : after [colon] (sentMember t next).name.raw = none :=
    after_none colon [] next.key hcolon
  rw [List.map_cons, scan, if_neg hn, if_pos hv]
  simp only [List.map_cons, List.head?_cons, Option.bind_some, readBehind, hafter]
  rfl

end Walk

section Request

variable {call : HybridCall} {alg : UnifAlgParams} {classicKey pqcKey : UnifKeyRef}
  {data signature : UnifBuffer} {algorithm : Bytes}

/-- The texts of a hybrid call. -/
def hybridTexts (call : HybridCall) (alg : UnifAlgParams) (classicKey pqcKey : UnifKeyRef)
    (data signature : UnifBuffer) (algorithm : Bytes) : Field → Bytes :=
  requestTexts (domainToString .asym) (actionToString call.action) algorithm
    (options call alg classicKey pqcKey data signature)

theorem ne_of_start {s u : Bytes} {c : UInt8} (head : Bytes) (h : head ++ [c] <+: s)
    (hu : ¬head ++ [c] <+: u) : s ≠ u := by
  intro he
  rw [he] at h
  exact hu h

theorem later_fields :
    laterFields (hybridTexts call alg classicKey pqcKey data signature algorithm) =
      [.domain, .action, .algorithm, .keyRef, .payload, .auxPayload, .sequence] := by
  have hkey : (options call alg classicKey pqcKey data signature).keyRef.bytes ≠ [] := by
    rw [keyRef_sent]
    exact ne_of_start [] (keyRef_start classicKey pqcKey) (by decide)
  have hpay : (options call alg classicKey pqcKey data signature).payload.bytes ≠ [] :=
    ne_of_start [] (payload_start call alg classicKey pqcKey data signature) (by decide)
  have haux : (options call alg classicKey pqcKey data signature).auxPayload.bytes ≠ [] :=
    ne_of_start [115] (auxPayload_start call alg classicKey pqcKey data signature)
      (by decide)
  have hhint : (options call alg classicKey pqcKey data signature).deviceHint.bytes = [] :=
    empty_bytes
  have hpref : (options call alg classicKey pqcKey data signature).preference.bytes = [] :=
    empty_bytes
  have hseq : (options call alg classicKey pqcKey data signature).sequence.bytes ≠ [] := by
    cases call <;> exact List.cons_ne_nil _ _
  simp [laterFields, optionFields, hybridTexts, requestTexts, hkey, hpay, haux, hhint, hpref, hseq]

theorem ccmAlgName_ne_key {uiAlgID : UInt32} (h : ccmAlgName uiAlgID = some algorithm) :
    ∀ f ∈ [Field.keyRef, .sequence], algorithm ≠ f.key := by
  rw [ccmAlgName] at h
  split at h
  all_goals first
    | (rw [Option.some.injEq] at h; subst h; decide)
    | simp at h

/-- The walk gets past the members in front of the key reference. -/
theorem scan_front {uiAlgID : UInt32} (hname : ccmAlgName uiAlgID = some algorithm) {g : Field}
    (hg : g ∈ [Field.keyRef, .sequence]) :
    scan g.key
        (builtObject (hybridTexts call alg classicKey pqcKey data signature algorithm)).members =
      scan g.key ([Field.keyRef, .payload, .auxPayload, .sequence].map
        (sentMember (hybridTexts call alg classicKey pqcKey data signature algorithm))) := by
  have hfront : ∀ f ∈ [Field.requestId, .domain, .action], f ≠ g := by
    intro f hf he
    subst he
    simp only [List.mem_cons, List.not_mem_nil, or_false] at hf hg
    rcases hf with rfl | rfl | rfl <;> simp at hg
  have htext : ∀ f ∈ [Field.requestId, .domain, .action],
      (∀ c ∈ hybridTexts call alg classicKey pqcKey data signature algorithm f, Plain c) ∧
        hybridTexts call alg classicKey pqcKey data signature algorithm f ≠ g.key := by
    have hclosed : ∀ call ∈ [HybridCall.sign, .verify], ∀ g ∈ [Field.keyRef, .sequence],
        ∀ s ∈ [(store 64 (lit call.requestId)).bytes, domainToString .asym,
          actionToString call.action], (∀ c ∈ s, Plain c) ∧ s ≠ g.key := by
      decide
    intro f hf
    apply hclosed call (by cases call <;> simp) g hg
    simp only [List.mem_cons, List.not_mem_nil, or_false] at hf
    rcases hf with rfl | rfl | rfl
    · exact .head _
    · exact .tail _ (.head _)
    · exact .tail _ (.tail _ (.head _))
  have hn := ccmAlgName_normal hname
  have halg : Field.algorithm ≠ g := by
    rintro rfl
    simp at hg
  rw [builtObject_members, later_fields,
    scan_pass_plain _ _ (hfront _ (by simp)) (htext _ (by simp)).1 (htext _ (by simp)).2,
    scan_pass_plain _ _ (hfront _ (by simp)) (htext _ (by simp)).1 (htext _ (by simp)).2,
    scan_pass_plain _ _ (hfront _ (by simp)) (htext _ (by simp)).1 (htext _ (by simp)).2,
    scan_pass_plain _ _ halg hn.2.2.2 (ccmAlgName_ne_key hname g hg)]

theorem scan_keyRef {uiAlgID : UInt32} (hname : ccmAlgName uiAlgID = some algorithm) :
    scan Field.keyRef.key
        (builtObject (hybridTexts call alg classicKey pqcKey data signature algorithm)).members =
      some (upToQuote (escape (sentKeyRef classicKey pqcKey))) := by
  rw [scan_front hname (by decide), scan_found]
  have htext : hybridTexts call alg classicKey pqcKey data signature algorithm .keyRef =
      sentKeyRef classicKey pqcKey := keyRef_sent call alg classicKey pqcKey data signature
  rw [htext]

/-- The sequence is the call's, or the payload where the key reference spells
its name. -/
theorem scan_sequence {uiAlgID : UInt32} (hname : ccmAlgName uiAlgID = some algorithm) :
    scan Field.sequence.key
        (builtObject (hybridTexts call alg classicKey pqcKey data signature algorithm)).members =
      some (if Spells quote (escape (sentKeyRef classicKey pqcKey)) Field.sequence.key then
        (options call alg classicKey pqcKey data signature).payload.bytes
        else lit call.sequence) := by
  have htext : hybridTexts call alg classicKey pqcKey data signature algorithm .keyRef =
      sentKeyRef classicKey pqcKey := keyRef_sent call alg classicKey pqcKey data signature
  have hpay := payload_quiet call alg classicKey pqcKey data signature
  rw [scan_front hname (by decide)]
  by_cases hspells : Spells quote (escape (sentKeyRef classicKey pqcKey)) Field.sequence.key
  · rw [if_pos hspells, scan_misread _ _ (by decide) (htext ▸ hspells) _ (by decide)]
    exact congrArg some ((upToQuote_escape_iff _).mpr fun c hc => (hpay c hc).1)
  · have haux := auxPayload_quiet call alg classicKey pqcKey data signature
    have hseq : upToQuote (escape (store 1024 (lit call.sequence)).bytes) = lit call.sequence := by
      cases call <;> decide
    rw [if_neg hspells, scan_pass _ _ (by decide) (htext ▸ hspells),
      scan_pass_plain _ _ (by decide) (fun c hc => (hpay c hc).1),
      scan_pass_plain _ _ (by decide) (fun c hc => (haux c hc).1), scan_found]
    · exact congrArg some hseq
    · exact ne_of_start [115]
        (auxPayload_start call alg classicKey pqcKey data signature) (by decide)
    · exact ne_of_start []
        (payload_start call alg classicKey pqcKey data signature) (by decide)

/-- What the server makes of a key reference: the text up to the first escaped
quote, or nothing when that does not fit. -/
def delivered (keyRef : Bytes) : Bytes :=
  if (upToQuote (escape keyRef)).length < maxFieldLen then upToQuote (escape keyRef) else []

variable {json : CStr 2048} {req : Request}

theorem build_object (hjson : call.build alg classicKey pqcKey data signature = (.ok, json)) :
    ∃ algorithm, ccmAlgName (algOrAuto alg) = some algorithm ∧ json.bytes =
      (builtObject (hybridTexts call alg classicKey pqcKey data signature algorithm)).text := by
  rw [HybridCall.build_eq] at hjson
  obtain ⟨algorithm, hname⟩ := buildJson_name hjson
  exact ⟨algorithm, hname, (buildJson_text hname hjson).2⟩

theorem hybrid_request (hjson : call.build alg classicKey pqcKey data signature = (.ok, json))
    (hreq : parseRequestJson json.bytes = .ok req) :
    req.keyRef.bytes = delivered (sentKeyRef classicKey pqcKey) ∧
      req.sequence.bytes =
        if Spells quote (escape (sentKeyRef classicKey pqcKey)) Field.sequence.key then
          (options call alg classicKey pqcKey data signature).payload.bytes
        else lit call.sequence := by
  obtain ⟨algorithm, hname, htext⟩ := build_object hjson
  rw [htext, parse_ok_iff] at hreq
  rw [hreq.2]
  constructor
  · simp only [assembled, taken, scan_keyRef hname, Option.filter, Field.cap, delivered]
    by_cases hfit : (upToQuote (escape (sentKeyRef classicKey pqcKey))).length < maxFieldLen
    · simp only [hfit, decide_true, if_true, Option.getD_some]
      exact store_fits hfit
    · simp [hfit]
  · have hfit : (if Spells quote (escape (sentKeyRef classicKey pqcKey)) Field.sequence.key then
        (options call alg classicKey pqcKey data signature).payload.bytes
        else lit call.sequence).length < maxPayloadLen := by
      split
      · exact (options call alg classicKey pqcKey data signature).payload.fits
      · cases call <;> decide
    simp only [assembled, taken, scan_sequence hname, Option.filter, Field.cap, hfit, decide_true,
      if_true, Option.getD_some]
    exact store_fits hfit

end Request

end Ucisdk.HybridRequest
