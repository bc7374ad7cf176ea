import Ucisdk.CcmObject
import Ucisdk.RequestLine

/-!
# What the server reads of a built request

The encoder escapes and the scanner does not undo it, so a text comes back
exactly if nothing of it was escaped. A text that spells the name of a later
member takes its place.
-/

set_option autoImplicit false

namespace Ucisdk.ClientRoundTrip

open Ucisdk.CString Ucisdk.Common Ucisdk.Protocol Ucisdk.JsonObject Ucisdk.RequestFields
open Ucisdk.RequestLine Ucisdk.Ccm Ucisdk.CcmObject
open Scan.Quoted

theorem key_injective {f g : Field} (h : f.key = g.key) : f = g := by
  revert h
  cases f <;> cases g <;> decide

theorem valueOf_sent (t : Field → Bytes) (f : Field) (fs : List Field) :
    valueOf f.key (fs.map (sentMember t)) = if f ∈ fs then some (escape (t f)) else none := by
  induction fs with
  | nil => rfl
  | cons g fs ih =>
    rw [valueOf] at ih
    rw [valueOf, List.map_cons]
    by_cases hg : g = f
    · subst hg
      simp [sentMember, fieldString, jsonString]
    · have hkey : ¬(sentMember t g).name.raw = f.key := fun h => hg (key_injective h)
      rw [List.find?_cons_of_neg (by simpa using hkey), ih]
      simp [Ne.symm hg]

section Built

variable (t : Field → Bytes)

/-- What the walk over a built object reads of a member nothing shadows. -/
def sentText (f : Field) : Option Bytes :=
  if f ∈ Field.requestId :: laterFields t then some (upToQuote (escape (t f))) else none

theorem taken_built (f : Field) (h : ¬Shadowed f.key (builtObject t).members) :
    taken (builtObject t).members f = (sentText t f).filter fun v => v.length < f.cap := by
  rw [taken, scan_unshadowed _ _ h, builtObject_members, valueOf_sent, sentText]
  split <;> rfl

end Built

/-- A text that is stored through the escape and back. -/
theorem stored_iff {cap : ℕ} [NeZero cap] {s : Bytes} (hfit : s.length < cap) :
    (store cap ((if s = [] then none else some (upToQuote (escape s))).filter
      (fun v => v.length < cap) |>.getD [])).bytes = s ↔ ∀ c ∈ s, Plain c := by
  rw [← upToQuote_escape_iff]
  by_cases hs : s = []
  · simp [hs, escape, upToQuote]
  · rw [if_neg hs]
    by_cases hread : (upToQuote (escape s)).length < cap
    · simp only [Option.filter, hread, decide_true, if_true, Option.getD_some]
      rw [store_fits hread]
    · simp only [Option.filter, hread, decide_false, Bool.false_eq_true, if_false,
        Option.getD_none]
      constructor
      · intro h
        simp [← h] at hs
      · intro h
        rw [h] at hread
        exact absurd hfit hread

/-- The members whose texts have to come back. -/
def comparedFields : List Field :=
  [.requestId, .domain, .action, .algorithm, .keyRef, .payload, .auxPayload, .deviceHint,
    .sequence]

/-- The request that the options, a domain, an action and an algorithm name. -/
structure Restored (domain : ApiDomain) (action : ApiAction) (algorithm : Bytes)
    (opts : CcmJsonOptions) (req : Request) : Prop where
  requestId : req.requestId.bytes = opts.requestId.bytes
  domain : req.domain = domain
  action : req.action = action
  algorithm : req.algorithm.bytes = algorithm
  keyRef : req.keyRef.bytes = opts.keyRef.bytes
  payload : req.payload.bytes = opts.payload.bytes
  auxPayload : req.auxPayload.bytes = opts.auxPayload.bytes
  deviceHint : req.deviceHint.bytes = opts.deviceHint.bytes
  sequence : req.sequence.bytes = opts.sequence.bytes

def RoundTrips (domain : ApiDomain) (action : ApiAction) (algorithm : Bytes)
    (opts : CcmJsonOptions) (json : Bytes) : Prop :=
  ∃ req, parseRequestJson json = .ok req ∧ Restored domain action algorithm opts req

section Restore

variable (domain : ApiDomain) (action : ApiAction) (algorithm : Bytes) (opts : CcmJsonOptions)

/-- The texts a request is built of when its domain and action are known. -/
def texts : Field → Bytes :=
  requestTexts (domainToString domain) (actionToString action) algorithm opts

def intended : Field → Part
  | .domain => .domain domain
  | .action => .action action
  | f => .text (texts domain action algorithm opts f)

theorem restored_iff (req : Request) :
    Restored domain action algorithm opts req ↔
      ∀ f ∈ comparedFields, part req f = intended domain action algorithm opts f := by
  constructor
  · intro h f hf
    cases f with
    | requestId => exact congrArg Part.text h.requestId
    | domain => exact congrArg Part.domain h.domain
    | action => exact congrArg Part.action h.action
    | algorithm => exact congrArg Part.text h.algorithm
    | keyRef => exact congrArg Part.text h.keyRef
    | payload => exact congrArg Part.text h.payload
    | auxPayload => exact congrArg Part.text h.auxPayload
    | deviceHint => exact congrArg Part.text h.deviceHint
    | sequence => exact congrArg Part.text h.sequence
    | _ => simp [comparedFields] at hf
  · intro h
    exact {
      requestId := Part.text.inj (h .requestId (by decide))
      domain := Part.domain.inj (h .domain (by decide))
      action := Part.action.inj (h .action (by decide))
      algorithm := Part.text.inj (h .algorithm (by decide))
      keyRef := Part.text.inj (h .keyRef (by decide))
      payload := Part.text.inj (h .payload (by decide))
      auxPayload := Part.text.inj (h .auxPayload (by decide))
      deviceHint := Part.text.inj (h .deviceHint (by decide))
      sequence := Part.text.inj (h .sequence (by decide)) }

variable {domain action algorithm opts}

theorem domainToString_known (h : domain ≠ .unknown) :
    parseDomain (domainToString domain) = domain ∧ domainToString domain ≠ [] ∧
      (domainToString domain).length < maxFieldLen ∧ ∀ c ∈ domainToString domain, Plain c := by
  revert h
  cases domain <;> decide

theorem actionToString_known (h : action ≠ .unknown) :
    parseAction (actionToString action) = action ∧ actionToString action ≠ [] ∧
      (actionToString action).length < maxFieldLen ∧ ∀ c ∈ actionToString action, Plain c := by
  revert h
  cases action <;> decide

/-- The names of algorithms are their own normal forms. -/
theorem ccmAlgName_normal {uiAlgID : UInt32} (h : ccmAlgName uiAlgID = some algorithm) :
    normalizeAlgorithmName algorithm maxFieldLen = some (store maxFieldLen algorithm) ∧
      algorithm ≠ [] ∧ algorithm.length < maxFieldLen ∧ ∀ c ∈ algorithm, Plain c := by
  rw [ccmAlgName] at h
  split at h
  all_goals first
    | (rw [Option.some.injEq] at h; subst h; decide)
    | simp at h

/-- What a client names to the builder: a known domain and action, the id of
an algorithm, a request id, and a key reference that the server can hold. -/
structure Sendable (domain : ApiDomain) (action : ApiAction) (uiAlgID : UInt32)
    (algorithm : Bytes) (opts : CcmJsonOptions) : Prop where
  domain : domain ≠ .unknown
  action : action ≠ .unknown
  algorithm : ccmAlgName uiAlgID = some algorithm
  requestId : opts.requestId.bytes ≠ []
  keyRef : opts.keyRef.bytes.length < maxFieldLen

variable {uiAlgID : UInt32} (hs : Sendable domain action uiAlgID algorithm opts)
include hs

theorem texts_fit {f : Field} (hf : f ∈ comparedFields) :
    (texts domain action algorithm opts f).length < f.cap := by
  cases f with
  | requestId => exact opts.requestId.fits
  | domain => exact (domainToString_known hs.domain).2.2.1
  | action => exact (actionToString_known hs.action).2.2.1
  | algorithm => exact (ccmAlgName_normal hs.algorithm).2.2.1
  | keyRef => exact hs.keyRef
  | payload => exact opts.payload.fits
  | auxPayload => exact opts.auxPayload.fits
  | deviceHint => exact opts.deviceHint.fits
  | sequence => exact opts.sequence.fits
  | _ => simp [comparedFields] at hf

theorem sent_iff {f : Field} (hf : f ∈ comparedFields) :
    f ∈ Field.requestId :: laterFields (texts domain action algorithm opts) ↔
      texts domain action algorithm opts f ≠ [] := by
  have hd := (domainToString_known hs.domain).2.1
  have ha := (actionToString_known hs.action).2.1
  have hn := (ccmAlgName_normal hs.algorithm).2.1
  have hid := hs.requestId
  rw [List.mem_cons, mem_laterFields]
  cases f <;> simp [comparedFields] at hf <;>
    simp [optionFields, texts, requestTexts, hd, ha, hn, hid]

theorem taken_unshadowed_built {f : Field} (hf : f ∈ comparedFields)
    (h : ¬Shadowed f.key (builtObject (texts domain action algorithm opts)).members) :
    taken (builtObject (texts domain action algorithm opts)).members f =
      (if texts domain action algorithm opts f = [] then none
        else some (upToQuote (escape (texts domain action algorithm opts f)))).filter
          fun v => v.length < f.cap := by
  rw [taken_built _ _ h, sentText]
  simp only [sent_iff hs hf, ne_eq, ite_not]

theorem taken_plain_built {f : Field} (hf : f ∈ comparedFields)
    (h : ¬Shadowed f.key (builtObject (texts domain action algorithm opts)).members)
    (hne : texts domain action algorithm opts f ≠ [])
    (hplain : ∀ c ∈ texts domain action algorithm opts f, Plain c) :
    taken (builtObject (texts domain action algorithm opts)).members f =
      some (texts domain action algorithm opts f) := by
  rw [taken_unshadowed_built hs hf h, if_neg hne, (upToQuote_escape_iff _).mpr hplain]
  simp [Option.filter, texts_fit hs hf]

/-- A member that nothing shadows is read as it was meant if it is plain. -/
theorem unshadowed_part_iff {f : Field} (hf : f ∈ comparedFields)
    (h : ¬Shadowed f.key (builtObject (texts domain action algorithm opts)).members) :
    part (assembled (taken (builtObject (texts domain action algorithm opts)).members)) f =
        intended domain action algorithm opts f ↔
      ∀ c ∈ texts domain action algorithm opts f, Plain c := by
  have htaken := taken_unshadowed_built hs hf h
  have hfit := texts_fit hs hf
  cases f with
  | domain =>
    have hd := domainToString_known hs.domain
    have hread := taken_plain_built hs hf h hd.2.1 hd.2.2.2
    refine iff_of_true ?_ hd.2.2.2
    simp only [part, assembled, hread, Option.getD_some]
    exact congrArg Part.domain hd.1
  | action =>
    have ha := actionToString_known hs.action
    have hread := taken_plain_built hs hf h ha.2.1 ha.2.2.2
    refine iff_of_true ?_ ha.2.2.2
    simp only [part, assembled, hread, Option.getD_some]
    exact congrArg Part.action ha.1
  | algorithm =>
    have hn := ccmAlgName_normal hs.algorithm
    have hread := taken_plain_built hs hf h hn.2.1 hn.2.2.2
    refine iff_of_true ?_ hn.2.2.2
    have htext : algorithmText (taken (builtObject (texts domain action algorithm opts)).members) =
        algorithm := by
      rw [algorithmText, hread]
      rfl
    simp only [part, assembled, htext, hn.1, Option.getD_some, store_fits hn.2.2.1]
    rfl
  | requestId =>
    simp only [part, assembled, htaken, intended, Part.text.injEq]
    exact stored_iff hfit
  | keyRef =>
    simp only [part, assembled, htaken, intended, Part.text.injEq]
    exact stored_iff hfit
  | payload =>
    simp only [part, assembled, htaken, intended, Part.text.injEq]
    exact stored_iff hfit
  | auxPayload =>
    simp only [part, assembled, htaken, intended, Part.text.injEq]
    exact stored_iff hfit
  | deviceHint =>
    simp only [part, assembled, htaken, intended, Part.text.injEq]
    exact stored_iff hfit
  | sequence =>
    simp only [part, assembled, htaken, intended, Part.text.injEq]
    exact stored_iff hfit
  | _ => simp [comparedFields] at hf

/-- Texts that make the intended parts make a request. -/
theorem accepts_of_parts {read : Texts}
    (h : ∀ f ∈ comparedFields, part (assembled read) f = intended domain action algorithm opts f) :
    Accepts read := by
  have hid : (store maxIdLen ((read .requestId).getD [])).bytes = opts.requestId.bytes :=
    Part.text.inj (h .requestId (by decide))
  have hd : parseDomain ((read .domain).getD []) = domain := Part.domain.inj (h .domain (by decide))
  have ha : parseAction ((read .action).getD []) = action := Part.action.inj (h .action (by decide))
  have hn : ((normalizeAlgorithmName (algorithmText read) maxFieldLen).getD empty).bytes =
      algorithm := Part.text.inj (h .algorithm (by decide))
  constructor
  · intro hnone
    rw [hnone] at hid
    exact hs.requestId hid.symm
  · constructor
    · intro hnone
      rw [hnone] at hd
      exact hs.domain hd.symm
    · rw [hd]
      exact hs.domain
  · constructor
    · intro hnone
      rw [hnone] at ha
      exact hs.action ha.symm
    · rw [ha]
      exact hs.action
  · intro hnone
    rw [hnone] at hn
    exact (ccmAlgName_normal hs.algorithm).2.1 hn.symm

theorem roundTrips_parts :
    RoundTrips domain action algorithm opts
        (builtObject (texts domain action algorithm opts)).text ↔
      ∀ f ∈ comparedFields,
        part (assembled (taken (builtObject (texts domain action algorithm opts)).members)) f =
          intended domain action algorithm opts f := by
  constructor
  · rintro ⟨req, hreq, hres⟩
    rw [parse_ok_iff] at hreq
    rw [← hreq.2, ← restored_iff]
    exact hres
  · intro h
    refine ⟨_, (parse_ok_iff _ _).mpr ⟨accepts_of_parts hs h, rfl⟩, ?_⟩
    exact (restored_iff domain action algorithm opts _).mpr h

end Restore

/-- The server reads back what the client built if and only if no member is
shadowed by one in front of it to another effect, and the others are plain. -/
theorem roundTrips_iff {domain : ApiDomain} {action : ApiAction} {uiAlgID : UInt32}
    {algorithm : Bytes} {opts : CcmJsonOptions} {cap : ℕ} [NeZero cap] {json : CStr cap}
    (hs : Sendable domain action uiAlgID algorithm opts)
    (hjson : buildJson (domainToString domain) (actionToString action) uiAlgID opts cap =
      (.ok, json)) :
    RoundTrips domain action algorithm opts json.bytes ↔
      ∀ f ∈ comparedFields,
        if Shadowed f.key (builtObject (texts domain action algorithm opts)).members then
          part (assembled (taken (builtObject (texts domain action algorithm opts)).members)) f =
            intended domain action algorithm opts f
        else ∀ c ∈ texts domain action algorithm opts f, Plain c := by
  have htext := (buildJson_text hs.algorithm hjson).2
  rw [htext, ← texts, roundTrips_parts hs]
  apply forall₂_congr
  intro f hf
  by_cases h : Shadowed f.key (builtObject (texts domain action algorithm opts)).members
  · rw [if_pos h]
  · rw [if_neg h]
    exact unshadowed_part_iff hs hf h

/-- A signature request for a payload. -/
def signOptions (payload : String) : CcmJsonOptions :=
  { initOpts "ccm-sign" with
    keyRef := store 512 (lit "source=1;device_id=classic-1")
    payload := store 1024 (lit payload) }

theorem signOptions_sendable (payload : String) :
    Sendable .asym .sign 2 (lit "sm2") (signOptions payload) := by
  constructor
  · decide
  · decide
  · decide
  · exact List.cons_ne_nil _ _
  · exact (by decide : (lit "source=1;device_id=classic-1").length < maxFieldLen)

theorem sign_built {payload : String}
    (hfit : (builtObject (texts .asym .sign (lit "sm2") (signOptions payload))).text.length < 2048) :
    buildJson (lit "asym") (lit "sign") 2 (signOptions payload) 2048 =
      (.ok, store 2048 (builtObject (texts .asym .sign (lit "sm2") (signOptions payload))).text) := by
  have hs := signOptions_sendable payload
  exact buildJson_ok hs.algorithm (by decide) hs.requestId hfit

theorem hello_round_trips :
    ∃ json : CStr 2048,
      buildJson (lit "asym") (lit "sign") 2 (signOptions "hello") 2048 = (.ok, json) ∧
        RoundTrips .asym .sign (lit "sm2") (signOptions "hello") json.bytes := by
  have hfit : (builtObject (texts .asym .sign (lit "sm2")
      (signOptions "hello"))).text.length < 2048 := by decide +kernel
  have hjson := sign_built hfit
  exact ⟨_, hjson, (roundTrips_iff (signOptions_sendable "hello") hjson).mpr (by decide)⟩

/-- The quote of a payload comes back as a backslash, and ends it. -/
theorem quoted_payload_cut :
    ∃ json : CStr 2048,
      buildJson (lit "asym") (lit "sign") 2 (signOptions "say \"hi\"") 2048 = (.ok, json) ∧
        (∃ req, parseRequestJson json.bytes = .ok req ∧ req.payload.bytes = lit "say \\") ∧
        ¬RoundTrips .asym .sign (lit "sm2") (signOptions "say \"hi\"") json.bytes := by
  have hs := signOptions_sendable "say \"hi\""
  have hfit : (builtObject (texts .asym .sign (lit "sm2")
      (signOptions "say \"hi\""))).text.length < 2048 := by decide +kernel
  refine ⟨_, sign_built hfit, ?_, ?_⟩
  · rw [store_fits hfit]
    exact ⟨_, (parse_ok_iff _ _).mpr ⟨by decide, rfl⟩, by decide⟩
  · intro h
    rw [store_fits hfit] at h
    have hparts := (roundTrips_parts hs).mp h .payload (by decide)
    revert hparts
    decide

end Ucisdk.ClientRoundTrip
