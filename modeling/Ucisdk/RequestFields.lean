import Ucisdk.JsonObject

/-!
# The members of a request

A request is made of eleven texts, each of which may be missing. The parser
assembles the texts its scanner took; whether that is the request the object
describes is decided by which strings of the object spell a looked-up name.
-/

set_option autoImplicit false

namespace Ucisdk.RequestFields

open Ucisdk.CString Ucisdk.Common Ucisdk.Protocol Ucisdk.JsonObject
open Scan.Quoted

inductive Field where
  | requestId
  | domain
  | action
  | algorithm
  | keyRef
  | payload
  | auxPayload
  | deviceHint
  | userPin
  | preference
  | sequence
  deriving DecidableEq, Repr

def Field.key : Field → Bytes
  | .requestId => lit "request_id"
  | .domain => lit "domain"
  | .action => lit "action"
  | .algorithm => lit "algorithm"
  | .keyRef => lit "key_ref"
  | .payload => lit "payload"
  | .auxPayload => lit "aux_payload"
  | .deviceHint => lit "device_hint"
  | .userPin => lit "user_pin"
  | .preference => lit "preference"
  | .sequence => lit "sequence"

/-- The capacity of the array a member is copied to. -/
def Field.cap : Field → ℕ
  | .requestId => maxIdLen
  | .payload => maxPayloadLen
  | .auxPayload => maxPayloadLen
  | .sequence => maxPayloadLen
  | _ => maxFieldLen

theorem Field.plainKey (f : Field) : PlainKey f.key := by
  cases f <;> exact ⟨by decide, by decide⟩

theorem Field.cap_pos (f : Field) : 0 < f.cap := by
  cases f <;> decide

/-- The texts taken over for the members of a request. -/
abbrev Texts := Field → Option Bytes

def algorithmText (t : Texts) : Bytes :=
  (t .algorithm).getD (defaultAlgorithmFor (parseDomain ((t .domain).getD []))
    (parseAction ((t .action).getD [])))

/-- The texts that make a request: the three mandatory ones are there and
name a domain and an action, and the algorithm is not blank. -/
structure Accepts (t : Texts) : Prop where
  requestId : t .requestId ≠ none
  domain : t .domain ≠ none ∧ parseDomain ((t .domain).getD []) ≠ .unknown
  action : t .action ≠ none ∧ parseAction ((t .action).getD []) ≠ .unknown
  algorithm : normalizeAlgorithmName (algorithmText t) maxFieldLen ≠ none

def assembled (t : Texts) : Request where
  requestId := store maxIdLen ((t .requestId).getD [])
  domain := parseDomain ((t .domain).getD [])
  action := parseAction ((t .action).getD [])
  algorithm := (normalizeAlgorithmName (algorithmText t) maxFieldLen).getD empty
  keyRef := store maxFieldLen ((t .keyRef).getD [])
  payload := store maxPayloadLen ((t .payload).getD [])
  auxPayload := store maxPayloadLen ((t .auxPayload).getD [])
  deviceHint := store maxFieldLen ((t .deviceHint).getD [])
  userPin := store maxFieldLen ((t .userPin).getD [])
  preference := parsePreference ((t .preference).getD [])
  sequence := store maxPayloadLen ((t .sequence).getD [])

instance (t : Texts) : Decidable (Accepts t) :=
  decidable_of_iff (t .requestId ≠ none ∧
      (t .domain ≠ none ∧ parseDomain ((t .domain).getD []) ≠ .unknown) ∧
      (t .action ≠ none ∧ parseAction ((t .action).getD []) ≠ .unknown) ∧
      normalizeAlgorithmName (algorithmText t) maxFieldLen ≠ none)
    ⟨fun h => ⟨h.1, h.2.1, h.2.2.1, h.2.2.2⟩, fun h => ⟨h.1, h.2, h.3, h.4⟩⟩

def requestOf (t : Texts) : Option Request := if Accepts t then some (assembled t) else none

/-- What a lookup found of each member. -/
def foundTexts (look : Bytes → ℕ → Lookup) : Texts := fun f => (look f.key f.cap).text

section Parse

variable (look : Bytes → ℕ → Lookup)

theorem optionalMember_eq (key : Bytes) (cap : ℕ) [NeZero cap] :
    optionalMember look key cap = store cap ((look key cap).text.getD []) := by
  rw [optionalMember]
  cases look key cap <;> rfl

theorem lookPreference_eq :
    lookPreference look = parsePreference ((foundTexts look .preference).getD []) := by
  have hdef : foundTexts look .preference = (look (lit "preference") maxFieldLen).text := rfl
  rw [lookPreference, hdef]
  cases look (lit "preference") maxFieldLen <;> rfl

theorem lookAlgorithm_eq {domain action : Bytes} (hd : foundTexts look .domain = some domain)
    (ha : foundTexts look .action = some action) :
    lookAlgorithm look domain action = algorithmText (foundTexts look) := by
  have hdef : foundTexts look .algorithm = (look (lit "algorithm") maxFieldLen).text := rfl
  rw [lookAlgorithm, algorithmText, hd, ha, hdef]
  cases look (lit "algorithm") maxFieldLen <;> rfl

theorem requiredMember_eq (key : Bytes) (cap : ℕ) [NeZero cap] :
    requiredMember look key cap =
      match (look key cap).text with
      | some value => .ok (store cap value)
      | none => .error (store errbufLen (lit "missing or invalid " ++ key)) := by
  rw [requiredMember]
  cases look key cap <;> rfl

/-- The lookups never hand over more than fits. -/
def Bounded : Prop := ∀ f v, foundTexts look f = some v → v.length < f.cap

variable {look}

/-- The parser is the assembly of the texts its lookups found. -/
theorem parseRequestWith_eq (hb : Bounded look) :
    (parseRequestWith look).toOption = requestOf (foundTexts look) := by
  have hid : foundTexts look .requestId = (look (lit "request_id") maxIdLen).text := rfl
  have hdom : foundTexts look .domain = (look (lit "domain") maxFieldLen).text := rfl
  have hact : foundTexts look .action = (look (lit "action") maxFieldLen).text := rfl
  rw [parseRequestWith, requestOf, requiredMember_eq, requiredMember_eq, requiredMember_eq,
    ← hid, ← hdom, ← hact]
  cases hi : foundTexts look .requestId with
  | none =>
    rw [if_neg fun h => h.requestId hi]
    rfl
  | some requestId =>
    cases hd : foundTexts look .domain with
    | none =>
      rw [if_neg fun h => h.domain.1 hd]
      rfl
    | some domain =>
      cases ha : foundTexts look .action with
      | none =>
        rw [if_neg fun h => h.action.1 ha]
        rfl
      | some action =>
        have hds : (store maxFieldLen domain).bytes = domain := store_fits (hb _ _ hd)
        have has : (store maxFieldLen action).bytes = action := store_fits (hb _ _ ha)
        simp only [bind, Except.bind, hds, has, lookAlgorithm_eq look hd ha]
        by_cases hud : parseDomain domain = .unknown
        · rw [if_pos hud, if_neg fun h => h.domain.2 (by rw [hd]; exact hud)]
          rfl
        · by_cases hua : parseAction action = .unknown
          · rw [if_neg hud, if_pos hua, if_neg fun h => h.action.2 (by rw [ha]; exact hua)]
            rfl
          · rw [if_neg hud, if_neg hua]
            cases hn : normalizeAlgorithmName (algorithmText (foundTexts look)) maxFieldLen with
            | none =>
              rw [if_neg fun h => h.algorithm hn]
              rfl
            | some name =>
              have hacc : Accepts (foundTexts look) :=
                ⟨by simp [hi], by simpa [hd] using hud, by simpa [ha] using hua, by simp [hn]⟩
              rw [if_pos hacc]
              simp only [optionalMember_eq, lookPreference_eq, assembled, hi, hd, ha, hn]
              rfl

theorem text_eq_some {l : Lookup} {v : Bytes} (h : l.text = some v) : l = .found v := by
  cases l with
  | found value =>
    cases h
    rfl
  | absent => cases h
  | tooLong => cases h

theorem cons_eq_found {c : UInt8} {l : Lookup} {v : Bytes} (h : l.cons c = .found v) :
    ∃ w, l = .found w ∧ v = c :: w := by
  cases l with
  | found value =>
    cases h
    exact ⟨value, rfl, rfl⟩
  | absent => cases h
  | tooLong => cases h

theorem copyString_length {room : ℕ} {p v : Bytes} (h : copyString room p = .found v) :
    v.length ≤ room := by
  induction p generalizing room v with
  | nil =>
    rw [copyString] at h
    cases h
  | cons c p ih =>
    by_cases hc : c = quote
    · rw [hc, copyString_quote] at h
      cases h
      exact Nat.zero_le room
    · rw [copyString_cons room p hc] at h
      cases room with
      | zero => cases h
      | succ room =>
        obtain ⟨rest, hrest, rfl⟩ := cons_eq_found h
        exact Nat.succ_le_succ (ih hrest)

theorem copyValue_length {rest v : Bytes} {outSz : ℕ} (hpos : 0 < outSz)
    (h : copyValue rest outSz = .found v) : v.length < outSz := by
  rw [copyValue] at h
  split at h
  · cases h
  · split at h
    · cases h
    · split at h
      · have hlength := copyString_length h
        omega
      · cases h

theorem extract_bounded (json : Bytes) : Bounded (extractJsonString json) := by
  intro f v h
  have hfound : extractJsonString json f.key f.cap = .found v := text_eq_some h
  rw [extractJsonString] at hfound
  split at hfound
  · cases hfound
  · exact copyValue_length f.cap_pos hfound

/-- A line is parsed to the assembly of what is found in it. -/
theorem parse_line (json : Bytes) :
    (parseRequestJson json).toOption = requestOf (foundTexts (extractJsonString json)) :=
  parseRequestWith_eq (extract_bounded json)

end Parse

end Ucisdk.RequestFields
