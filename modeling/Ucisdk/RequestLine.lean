import Ucisdk.RequestFields

/-!
# Parsing a request line

On a line that is a flat object the parser assembles what the walk over the
members reads. A member that does not fit is read as a missing one, and a
string that spells a looked-up name takes the place of the member.
-/

set_option autoImplicit false

namespace Ucisdk.RequestLine

open Ucisdk.CString Ucisdk.Common Ucisdk.Protocol Ucisdk.JsonObject Ucisdk.RequestFields
open Scan.Quoted

/-- The texts the scanner takes over, cut off where they do not fit. -/
def taken (ms : List Member) : Texts := fun f =>
  (scan f.key ms).filter fun v => v.length < f.cap

def valueOf (key : Bytes) (ms : List Member) : Option Bytes :=
  (ms.find? fun m => m.name.raw = key).map fun m => m.value.raw

/-- The texts of the members of that name. -/
def named (ms : List Member) : Texts := fun f => valueOf f.key ms

theorem foundTexts_text (obj : FlatObject) :
    foundTexts (extractJsonString obj.text) = taken obj.members := by
  funext f
  rw [foundTexts, obj.extract_text f.plainKey f.cap_pos, taken]
  cases scan f.key obj.members with
  | none => rfl
  | some v =>
    by_cases hv : v.length < f.cap
    · simp [ofRead, hv, Lookup.text, Option.filter]
    · simp [ofRead, hv, Lookup.text, Option.filter]

theorem parse_text (obj : FlatObject) :
    (parseRequestJson obj.text).toOption = requestOf (taken obj.members) := by
  rw [parse_line, foundTexts_text]

theorem parse_ok_iff (obj : FlatObject) (req : Request) :
    parseRequestJson obj.text = .ok req ↔
      Accepts (taken obj.members) ∧ req = assembled (taken obj.members) := by
  have h := parse_text obj
  rw [requestOf] at h
  cases hp : parseRequestJson obj.text with
  | error errbuf =>
    rw [hp] at h
    by_cases ha : Accepts (taken obj.members)
    · rw [if_pos ha] at h
      simp [Except.toOption] at h
    · simp [ha]
  | ok r =>
    rw [hp] at h
    by_cases ha : Accepts (taken obj.members)
    · rw [if_pos ha] at h
      have hr : r = assembled (taken obj.members) := Option.some.inj h
      simp [ha, hr, eq_comm]
    · rw [if_neg ha] at h
      simp [Except.toOption] at h

section Overlong

def optionalFields : List Field :=
  [.algorithm, .keyRef, .payload, .auxPayload, .deviceHint, .userPin, .sequence]

/-- No optional member is longer than its field holds. -/
def OptionalsFit (ms : List Member) : Prop :=
  ∀ f ∈ optionalFields, ∀ m ∈ ms, m.name.raw = f.key → m.value.raw.length < f.cap

/-- A line with an optional member that does not fit is refused. -/
def RefusesOverlong (obj : FlatObject) : Prop :=
  ¬OptionalsFit obj.members → ∀ req, parseRequestJson obj.text ≠ .ok req

/-- A mandatory member as the scanner reads it: there, and not too long. -/
def Held (f : Field) (ms : List Member) (v : Bytes) : Prop :=
  scan f.key ms = some v ∧ v.length < f.cap

/-- The line has a request id, a known domain and a known action, and its
algorithm, if one is read and fits, is not blank. -/
structure MandatoryRead (ms : List Member) : Prop where
  requestId : ∃ v, Held .requestId ms v
  domain : ∃ v, Held .domain ms v ∧ parseDomain v ≠ .unknown
  action : ∃ v, Held .action ms v ∧ parseAction v ≠ .unknown
  algorithm : ∀ v, Held .algorithm ms v → normalizeAlgorithmName v maxFieldLen ≠ none

theorem taken_eq_some {f : Field} {ms : List Member} {v : Bytes} :
    taken ms f = some v ↔ Held f ms v := by
  rw [taken, Option.filter_eq_some_iff, Held, decide_eq_true_iff]

theorem default_algorithm (domain : ApiDomain) (action : ApiAction) :
    normalizeAlgorithmName (defaultAlgorithmFor domain action) maxFieldLen ≠ none := by
  rw [defaultAlgorithmFor]
  split <;> decide

/-- Whether a line is accepted does not depend on its optional members. -/
theorem accepts_iff_mandatoryRead (ms : List Member) : Accepts (taken ms) ↔ MandatoryRead ms := by
  constructor
  · intro h
    obtain ⟨requestId, hid⟩ := Option.ne_none_iff_exists'.mp h.requestId
    obtain ⟨domain, hdomain⟩ := Option.ne_none_iff_exists'.mp h.domain.1
    obtain ⟨action, haction⟩ := Option.ne_none_iff_exists'.mp h.action.1
    have hd := h.domain.2
    have ha := h.action.2
    rw [hdomain] at hd
    rw [haction] at ha
    refine ⟨⟨requestId, taken_eq_some.mp hid⟩, ⟨domain, taken_eq_some.mp hdomain, hd⟩,
      ⟨action, taken_eq_some.mp haction, ha⟩, ?_⟩
    intro v hv
    have halg := h.algorithm
    rw [algorithmText, taken_eq_some.mpr hv] at halg
    exact halg
  · intro h
    obtain ⟨requestId, hid⟩ := h.requestId
    obtain ⟨domain, hdomain, hd⟩ := h.domain
    obtain ⟨action, haction, ha⟩ := h.action
    rw [← taken_eq_some] at hid hdomain haction
    refine ⟨by simp [hid], by simpa [hdomain] using hd, by simpa [haction] using ha, ?_⟩
    rw [algorithmText]
    cases halg : taken ms .algorithm with
    | none => exact default_algorithm (parseDomain ((taken ms .domain).getD [])) _
    | some v => exact h.algorithm v (taken_eq_some.mp halg)

theorem parse_refuses_iff (obj : FlatObject) :
    (∀ req, parseRequestJson obj.text ≠ .ok req) ↔ ¬MandatoryRead obj.members := by
  rw [← accepts_iff_mandatoryRead]
  constructor
  · intro h ha
    exact h _ ((parse_ok_iff obj _).mpr ⟨ha, rfl⟩)
  · intro ha req h
    exact ha ((parse_ok_iff obj req).mp h).1

/-- A key reference of 256 bytes. -/
def overlongKey : FlatObject :=
  compactObject (plainMember "request_id" (lit "r1"))
    [plainMember "domain" (lit "asym"), plainMember "action" (lit "sign"),
      plainMember "key_ref" (List.replicate 256 107)]

end Overlong

/-- A string in front of the key's own member spells the key. -/
def Shadowed (key : Bytes) (ms : List Member) : Prop :=
  ∃ m ∈ ms.takeWhile fun m => m.name.raw ≠ key,
    Spells quote m.name.raw key ∨ Spells quote m.value.raw key

instance (key : Bytes) (ms : List Member) : Decidable (Shadowed key ms) :=
  inferInstanceAs (Decidable (∃ m ∈ _, _))

theorem scan_unshadowed (key : Bytes) (ms : List Member) (h : ¬Shadowed key ms) :
    scan key ms = (valueOf key ms).map upToQuote := by
  induction ms with
  | nil => rfl
  | cons m ms ih =>
    rw [scan, valueOf]
    by_cases hm : m.name.raw = key
    · rw [if_pos (show Spells quote m.name.raw key from Or.inl hm)]
      simp [hm]
    · have hself : ¬(Spells quote m.name.raw key ∨ Spells quote m.value.raw key) := by
        intro hs
        exact h ⟨m, by simp [hm], hs⟩
      have hrest : ¬Shadowed key ms := by
        rintro ⟨m', hm', hs⟩
        refine h ⟨m', ?_, hs⟩
        rw [List.takeWhile_cons_of_pos (by simpa using hm)]
        exact List.mem_cons_of_mem m hm'
      rw [not_or] at hself
      rw [if_neg hself.1, if_neg hself.2, ih hrest, valueOf]
      simp [hm]

section ByName

/-- A flat object with distinct names whose values need no escapes and fit
their fields. -/
structure PlainObject (obj : FlatObject) : Prop where
  distinct : (obj.members.map fun m => m.name.raw).Nodup
  plain : ∀ m ∈ obj.members, ∀ c ∈ m.value.raw, c ≠ quote ∧ c ≠ backslash ∧ 32 ≤ c
  fits : ∀ f : Field, ∀ m ∈ obj.members, m.name.raw = f.key → m.value.raw.length < f.cap

/-- The line is parsed to the request its members describe by their names. -/
def ReadsByName (obj : FlatObject) : Prop :=
  (parseRequestJson obj.text).toOption = requestOf (named obj.members)

/-- The part of a request that comes from one member. -/
inductive Part where
  | text (value : Bytes)
  | domain (value : ApiDomain)
  | action (value : ApiAction)
  | preference (value : Preference)
  deriving DecidableEq

def part (req : Request) : Field → Part
  | .requestId => .text req.requestId.bytes
  | .domain => .domain req.domain
  | .action => .action req.action
  | .algorithm => .text req.algorithm.bytes
  | .keyRef => .text req.keyRef.bytes
  | .payload => .text req.payload.bytes
  | .auxPayload => .text req.auxPayload.bytes
  | .deviceHint => .text req.deviceHint.bytes
  | .userPin => .text req.userPin.bytes
  | .preference => .preference req.preference
  | .sequence => .text req.sequence.bytes

theorem eq_of_parts {r r' : Request} (h : ∀ f, part r f = part r' f) : r = r' := by
  have hid := h .requestId
  have hdom := h .domain
  have hact := h .action
  have halg := h .algorithm
  have hkey := h .keyRef
  have hpay := h .payload
  have haux := h .auxPayload
  have hhint := h .deviceHint
  have hpin := h .userPin
  have hpref := h .preference
  have hseq := h .sequence
  cases r
  cases r'
  simp only [part, Part.text.injEq, Part.domain.injEq, Part.action.injEq, Part.preference.injEq,
    ← CStr.ext_iff] at *
  simp [*]

/-- A text that is the same gives the same part, with the action deciding the
algorithm of a request that names none. -/
theorem part_congr {t t' : Texts} {f : Field} (hf : t f = t' f)
    (ha : part (assembled t) .action = part (assembled t') .action) :
    part (assembled t) f = part (assembled t') f := by
  cases f with
  | algorithm =>
    have hact : parseAction ((t .action).getD []) = parseAction ((t' .action).getD []) :=
      Part.action.inj ha
    have halg : algorithmText t = algorithmText t' := by
      rw [algorithmText, algorithmText, hf, defaultAlgorithmFor, defaultAlgorithmFor, hact]
    simp only [part, assembled, halg]
  | _ => simp only [part, assembled, hf]

theorem taken_unshadowed {obj : FlatObject} (hobj : PlainObject obj) (f : Field)
    (h : ¬Shadowed f.key obj.members) : taken obj.members f = named obj.members f := by
  rw [taken, scan_unshadowed f.key obj.members h, named, valueOf]
  cases hm : obj.members.find? fun m => m.name.raw = f.key with
  | none => rfl
  | some m =>
    have hmem := List.mem_of_find?_eq_some hm
    have hname : m.name.raw = f.key := by simpa using List.find?_some hm
    have hfit := hobj.fits f m hmem hname
    rw [Option.map_some, Option.map_some,
      upToQuote_plain fun c hc => (hobj.plain m hmem c hc).1]
    simp [Option.filter, hfit]

/-- In the place of each shadowed member the scanner reads a text that makes
the same part of the request. -/
def ShadowsHarmless (ms : List Member) : Prop :=
  ∀ f : Field, Shadowed f.key ms → part (assembled (taken ms)) f = part (assembled (named ms)) f

theorem assembled_eq_iff {obj : FlatObject} (hobj : PlainObject obj) :
    assembled (taken obj.members) = assembled (named obj.members) ↔
      ShadowsHarmless obj.members := by
  constructor
  · intro h f _
    rw [h]
  · intro h
    have haction : part (assembled (taken obj.members)) .action =
        part (assembled (named obj.members)) .action := by
      by_cases hs : Shadowed Field.action.key obj.members
      · exact h .action hs
      · simp only [part, assembled, taken_unshadowed hobj .action hs]
    apply eq_of_parts
    intro f
    by_cases hs : Shadowed f.key obj.members
    · exact h f hs
    · exact part_congr (taken_unshadowed hobj f hs) haction

theorem readsByName_iff (obj : FlatObject) (hobj : PlainObject obj) :
    ReadsByName obj ↔
      (¬Accepts (taken obj.members) ∧ ¬Accepts (named obj.members)) ∨
      (Accepts (taken obj.members) ∧ Accepts (named obj.members) ∧
        ShadowsHarmless obj.members) := by
  rw [ReadsByName, parse_text, ← assembled_eq_iff hobj, requestOf, requestOf]
  by_cases ht : Accepts (taken obj.members) <;> by_cases hn : Accepts (named obj.members) <;>
    simp [ht, hn]

/-- Without a string that spells a looked-up name every line is read by name. -/
theorem readsByName_of_unshadowed (obj : FlatObject) (hobj : PlainObject obj)
    (h : ∀ f : Field, ¬Shadowed f.key obj.members) : ReadsByName obj := by
  have ht : taken obj.members = named obj.members :=
    funext fun f => taken_unshadowed hobj f (h f)
  rw [ReadsByName, parse_text, ht]

def helloLine : FlatObject :=
  compactObject (plainMember "request_id" (lit "r2"))
    [plainMember "domain" (lit "asym"), plainMember "payload" (lit "hello"),
      plainMember "action" (lit "sign"), plainMember "user_pin" (lit "123456")]

theorem helloLine_plain : PlainObject helloLine := by
  refine ⟨by decide, by decide, ?_⟩
  intro f
  cases f <;> decide

theorem helloLine_by_name : ReadsByName helloLine := by
  apply (readsByName_iff helloLine helloLine_plain).mpr
  refine Or.inr ⟨by decide, by decide, ?_⟩
  intro f
  cases f <;> decide

/-- A second payload that is the name of the PIN. -/
def pinNamed : FlatObject :=
  compactObject (plainMember "request_id" (lit "r7"))
    [plainMember "domain" (lit "asym"), plainMember "action" (lit "sign"),
      plainMember "aux_payload" (lit "user_pin"), plainMember "payload" (lit "123456")]

/-- The payload is taken for the PIN. -/
theorem payload_read_as_pin :
    PlainObject pinNamed ∧ valueOf (lit "user_pin") pinNamed.members = none ∧
      (∃ req, parseRequestJson pinNamed.text = .ok req ∧ req.userPin.bytes = lit "123456") ∧
      ¬ReadsByName pinNamed := by
  have hplain : PlainObject pinNamed := by
    refine ⟨by decide, by decide, ?_⟩
    intro f
    cases f <;> decide
  refine ⟨hplain, by decide, ?_, ?_⟩
  · exact ⟨_, (parse_ok_iff pinNamed _).mpr ⟨by decide, rfl⟩, by decide⟩
  · rw [ReadsByName, parse_text]
    decide

end ByName

end Ucisdk.RequestLine
