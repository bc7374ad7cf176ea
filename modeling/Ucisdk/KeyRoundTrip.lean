import Ucisdk.KeyText
import Ucisdk.Routing

/-!
# Key references, written and read back

The client writes a reference as named tokens, and the scheduler looks each
of them up by its name. The numbers stand in front of the ids and are made of
digits, so they come back in any case; an id comes back if it does not spell
a separator.
-/

set_option autoImplicit false

namespace Ucisdk.KeyRoundTrip

open Ucisdk.CString Ucisdk.Common Ucisdk.Protocol Ucisdk.Scheduler Ucisdk.Routing
open Ucisdk.Ccm Ucisdk.CcmObject Ucisdk.KeyText
open Scan.Tokens

section Lookup

variable {key : UnifKeyRef}

theorem named_self (name value : Bytes) : named name (name ++ lit "=" ++ value) = true := by
  rw [named, List.isPrefixOf_iff_prefix]
  exact List.prefix_append _ _

theorem drop_self (name value : Bytes) :
    (name ++ lit "=" ++ value).drop (name.length + 1) = value := by
  apply List.drop_left'
  rw [List.length_append]
  rfl

/-- The tokens of a reference that are made of numbers and handles. -/
def numberTokens (key : UnifKeyRef) : List Bytes :=
  [numberToken "alg" key.uiAlgID, numberToken "usage" key.uiUsage,
    numberToken "source" key.uiSource, numberToken "key_index" key.uiKeyIndex,
    pointerToken "key_handle" key.hKeyHandle, pointerToken "external_key" key.pExternalKey]

def idTokens (key : UnifKeyRef) : List Bytes :=
  idToken "key_id" key.szKeyId ++ idToken "device_id" key.szDeviceId

theorem keyTokens_parts (key : UnifKeyRef) : keyTokens key = numberTokens key ++ idTokens key := rfl

theorem find_source (ts : List Bytes) :
    (numberTokens key ++ ts).find? (named (lit "source")) =
      some (numberToken "source" key.uiSource) := by
  have halg : named (lit "source") (numberToken "alg" key.uiAlgID) = false := rfl
  have husage : named (lit "source") (numberToken "usage" key.uiUsage) = false := rfl
  have hsource : named (lit "source") (numberToken "source" key.uiSource) = true :=
    named_self _ _
  simp [numberTokens, List.find?, halg, husage, hsource]

theorem find_index (ts : List Bytes) :
    (numberTokens key ++ ts).find? (named (lit "key_index")) =
      some (numberToken "key_index" key.uiKeyIndex) := by
  have halg : named (lit "key_index") (numberToken "alg" key.uiAlgID) = false := rfl
  have husage : named (lit "key_index") (numberToken "usage" key.uiUsage) = false := rfl
  have hsource : named (lit "key_index") (numberToken "source" key.uiSource) = false := rfl
  have hindex : named (lit "key_index") (numberToken "key_index" key.uiKeyIndex) = true :=
    named_self _ _
  simp [numberTokens, List.find?, halg, husage, hsource, hindex]

/-- No number is taken for an id. -/
theorem numbers_unnamed {name : String} (hname : name = "key_id" ∨ name = "device_id") :
    (numberTokens key).find? (named (lit name)) = none := by
  rw [List.find?_eq_none]
  intro t ht
  rw [Bool.not_eq_true]
  simp only [numberTokens, List.mem_cons, List.not_mem_nil, or_false] at ht
  rcases hname with rfl | rfl
  · rcases ht with rfl | rfl | rfl | rfl | rfl | rfl <;> rfl
  · rcases ht with rfl | rfl | rfl | rfl | rfl | rfl <;> rfl

theorem find_idToken (name : String) (id : CStr 64) :
    (idToken name id).find? (named (lit name)) =
      if id.bytes = [] then none else some (lit name ++ lit "=" ++ id.bytes) := by
  rw [idToken]
  split
  · rfl
  · simp only [List.find?, named_self]

theorem find_keyId :
    (keyTokens key).find? (named (lit "key_id")) =
      if key.szKeyId.bytes = [] then none
      else some (lit "key_id" ++ lit "=" ++ key.szKeyId.bytes) := by
  have hother : ∀ id, named (lit "key_id") (lit "device_id" ++ lit "=" ++ id) = false := fun _ => rfl
  have hdevice : (idToken "device_id" key.szDeviceId).find? (named (lit "key_id")) = none := by
    rw [idToken]
    split
    · rfl
    · simp only [List.find?, hother]
  rw [keyTokens_parts, List.find?_append, numbers_unnamed (Or.inl rfl), Option.none_or, idTokens,
    List.find?_append, hdevice, Option.or_none, find_idToken]

theorem find_device :
    (keyTokens key).find? (named (lit "device_id")) =
      if key.szDeviceId.bytes = [] then none
      else some (lit "device_id" ++ lit "=" ++ key.szDeviceId.bytes) := by
  have hother : ∀ id, named (lit "device_id") (lit "key_id" ++ lit "=" ++ id) = false := fun _ => rfl
  have hkeyId : (idToken "key_id" key.szKeyId).find? (named (lit "device_id")) = none := by
    rw [idToken]
    split
    · rfl
    · simp only [List.find?, hother]
  rw [keyTokens_parts, List.find?_append, numbers_unnamed (Or.inr rfl), Option.none_or, idTokens,
    List.find?_append, hkeyId, Option.none_or, find_idToken]

end Lookup

section Written

variable {cap : ℕ} [NeZero cap] {key : UnifKeyRef} {out : CStr cap}

/-- The text of a key reference in an empty array. -/
def keyText (key : UnifKeyRef) : Bytes :=
  numberToken "alg" key.uiAlgID ++ behind (laterTokens key)

/-- The first token alone does not fit an array of one byte. -/
theorem keyRef_room (h : appendKeyRef key (empty : CStr cap) = (.ok, out)) : 1 < cap := by
  by_contra hcap
  have hroom : ¬(numberToken "alg" key.uiAlgID).length < cap := by
    have hpos : 0 < (numberToken "alg" key.uiAlgID).length := by
      simp [numberToken, show lit "alg" = [97, 108, 103] from rfl]
    omega
  have hfirst := appends_raw (empty : CStr cap) (numberToken "alg" key.uiAlgID)
  rw [Appends, empty_bytes, List.nil_append, if_neg hroom] at hfirst
  have halg : appendToken "alg" key.uiAlgID (empty : CStr cap) =
      (.bufferTooSmall, append empty (numberToken "alg" key.uiAlgID)) := by
    rw [← hfirst]
    simp [appendToken, separator, numberToken]
  rw [appendKeyRef, appendAll, halg] at h
  simp at h

/-- A reference that was appended to its end is its whole text. -/
theorem keyRef_written (h : appendKeyRef key (empty : CStr cap) = (.ok, out)) :
    out.bytes = keyText key := by
  have hchain := keyRef_empty key (keyRef_room h)
  rw [Appends, h, empty_bytes, List.nil_append, Prod.mk.injEq] at hchain
  have hfit : (numberToken "alg" key.uiAlgID ++ behind (laterTokens key)).length < cap := by
    by_contra hcut
    rw [if_neg hcut] at hchain
    simp at hchain
  rw [hchain.2, append_fits (by simpa using hfit), empty_bytes, List.nil_append, keyText]

theorem numberTokens_tokens (key : UnifKeyRef) :
    tokens semicolon (numberToken "alg" key.uiAlgID ++ behind (numberTokens key).tail) =
      numberTokens key := by
  have hinert : ∀ t ∈ numberTokens key, ∀ c ∈ t, Inert c := by
    intro t ht
    simp only [numberTokens, List.mem_cons, List.not_mem_nil, or_false] at ht
    rcases ht with rfl | rfl | rfl | rfl | rfl | rfl
    · exact numberToken_inert (by decide) _
    · exact numberToken_inert (by decide) _
    · exact numberToken_inert (by decide) _
    · exact numberToken_inert (by decide) _
    · exact pointerToken_inert (by decide) _
    · exact pointerToken_inert (by decide) _
  have hne : ∀ t ∈ numberTokens key, t ≠ [] :=
    fun t ht => keyTokens_ne_nil key t (List.mem_append_left _ ht)
  exact tokens_joined semicolon rfl _ _ hne fun t ht c hc => by
    simpa [semicolon] using (hinert t ht c hc).2.2

/-- Whatever the ids are, the numbers are the first tokens. -/
theorem keyText_tokens (key : UnifKeyRef) :
    tokens semicolon (keyText key) =
      numberTokens key ++ tokens semicolon (behind (idTokens key)) := by
  have htext : keyText key = (numberToken "alg" key.uiAlgID ++ behind (numberTokens key).tail) ++
      behind (idTokens key) := by
    rw [List.append_assoc, ← behind_append]
    rfl
  rw [htext]
  cases hids : idTokens key with
  | nil =>
    rw [show behind [] = [] from rfl, List.append_nil, tokens_nil, List.append_nil,
      numberTokens_tokens]
  | cons t ts =>
    have hsep : behind (t :: ts) = 59 :: (t ++ behind ts) := rfl
    rw [hsep, tokens_append_cons semicolon _ _ rfl, tokens_cons_sep semicolon _ rfl,
      numberTokens_tokens]

theorem keyText_tokens_free (h : ∀ c ∈ key.szKeyId.bytes ++ key.szDeviceId.bytes, c ≠ 59) :
    tokens semicolon (keyText key) = keyTokens key := by
  have hfree := keyTokens_all (P := (· ≠ 59)) (fun c hc => hc.2.2) h
  exact tokens_joined semicolon rfl _ _ (keyTokens_ne_nil key) fun t ht c hc => by
    simpa [semicolon] using hfree t ht c hc

end Written

section ReadBack

variable {cap : ℕ} [NeZero cap] {key : UnifKeyRef} {out : CStr cap}

/-- What `key_ref_get_token` finds under a name. -/
def tokenText (text : Bytes) (name : String) : Option Bytes :=
  (keyRefGetToken text (lit name) maxFieldLen).map CStr.bytes

/-- An id, unless it is empty. -/
def givenId (id : CStr 64) : Option Bytes := if id.bytes = [] then none else some id.bytes

/-- Every part of a key reference is found under its name, unchanged. -/
structure ReadsBack (key : UnifKeyRef) (text : Bytes) : Prop where
  source : tokenText text "source" = some (decimal key.uiSource.toNat)
  keyIndex : tokenText text "key_index" = some (decimal key.uiKeyIndex.toNat)
  keyId : tokenText text "key_id" = givenId key.szKeyId
  deviceId : tokenText text "device_id" = givenId key.szDeviceId

theorem tokenText_eq {text : Bytes} (hfit : text.length < maxFieldLen) {name : String}
    (hn : lit name ≠ []) : tokenText text name = (firstToken text (lit name)).filter (· ≠ []) :=
  keyRefGetToken_eq ⟨text, hfit⟩ hn

/-- No value that is found holds a separator. -/
theorem tokenText_free {text v : Bytes} (hfit : text.length < maxFieldLen) {name : String}
    (hn : lit name ≠ []) (h : tokenText text name = some v) : ∀ c ∈ v, c ≠ 59 := by
  rw [tokenText_eq hfit hn, Option.filter_eq_some_iff, firstToken, Option.map_eq_some_iff] at h
  obtain ⟨⟨t, ht, rfl⟩, _⟩ := h
  have hfree := (mem_tokens semicolon (List.mem_of_find?_eq_some ht)).2.1
  intro c hc
  simpa [semicolon] using hfree c (List.mem_of_mem_drop hc)

theorem decimal_ne_nil (n : ℕ) : decimal n ≠ [] := by
  rw [decimal, ne_eq, List.map_eq_nil_iff]
  exact Nat.toDigits_ne_nil

theorem numberToken_value (name : String) (value : UInt32) :
    (numberToken name value).drop ((lit name).length + 1) = decimal value.toNat :=
  drop_self _ _

/-- The numbers of a reference come back whatever its ids are. -/
theorem numbers_read_back (hfit : (keyText key).length < maxFieldLen) :
    tokenText (keyText key) "source" = some (decimal key.uiSource.toNat) ∧
      tokenText (keyText key) "key_index" = some (decimal key.uiKeyIndex.toNat) := by
  constructor
  · rw [tokenText_eq hfit (by decide), firstToken, keyText_tokens, find_source, Option.map_some,
      numberToken_value, Option.filter_some]
    simp [decimal_ne_nil]
  · rw [tokenText_eq hfit (by decide), firstToken, keyText_tokens, find_index, Option.map_some,
      numberToken_value, Option.filter_some]
    simp [decimal_ne_nil]

theorem idToken_value (name : String) (id : CStr 64) :
    ((if id.bytes = [] then none else some (lit name ++ lit "=" ++ id.bytes)).map
      (List.drop ((lit name).length + 1))).filter (· ≠ []) = givenId id := by
  by_cases hid : id.bytes = []
  · simp [hid, givenId]
  · rw [if_neg hid, Option.map_some, drop_self, givenId, if_neg hid, Option.filter_some]
    simp [hid]

theorem ids_read_back (hfit : (keyText key).length < maxFieldLen)
    (h : ∀ c ∈ key.szKeyId.bytes ++ key.szDeviceId.bytes, c ≠ 59) :
    tokenText (keyText key) "key_id" = givenId key.szKeyId ∧
      tokenText (keyText key) "device_id" = givenId key.szDeviceId := by
  constructor
  · rw [tokenText_eq hfit (by decide), firstToken, keyText_tokens_free h, find_keyId]
    exact idToken_value "key_id" key.szKeyId
  · rw [tokenText_eq hfit (by decide), firstToken, keyText_tokens_free h, find_device]
    exact idToken_value "device_id" key.szDeviceId

theorem givenId_free {id : CStr 64} {text : Bytes} (hfit : text.length < maxFieldLen)
    {name : String} (hn : lit name ≠ []) (h : tokenText text name = givenId id) :
    ∀ c ∈ id.bytes, c ≠ 59 := by
  by_cases hid : id.bytes = []
  · simp [hid]
  · rw [givenId, if_neg hid] at h
    exact tokenText_free hfit hn h

/-- A reference that was written whole is read back exactly if neither of its
ids holds the separator. -/
theorem readsBack_iff (h : appendKeyRef key (empty : CStr cap) = (.ok, out))
    (hfit : out.bytes.length < maxFieldLen) :
    ReadsBack key out.bytes ↔ ∀ c ∈ key.szKeyId.bytes ++ key.szDeviceId.bytes, c ≠ 59 := by
  rw [keyRef_written h] at hfit ⊢
  constructor
  · intro hread c hc
    rcases List.mem_append.mp hc with hc | hc
    · exact givenId_free hfit (by decide) hread.keyId c hc
    · exact givenId_free hfit (by decide) hread.deviceId c hc
  · intro hfree
    have hnumbers := numbers_read_back hfit
    have hids := ids_read_back hfit hfree
    exact ⟨hnumbers.1, hnumbers.2, hids.1, hids.2⟩

/-- An internal key on `dev-a` under a given id. -/
def keyOnA (keyId : String) : UnifKeyRef where
  uiAlgID := 1
  uiUsage := 0
  uiSource := 1
  uiKeyIndex := 7
  hKeyHandle := 0
  pExternalKey := 0
  szKeyId := store 64 (lit keyId)
  szDeviceId := store 64 (lit "dev-a")

theorem key_one_reads_back :
    ∃ out : CStr 512, appendKeyRef (keyOnA "k1") empty = (.ok, out) ∧
      ReadsBack (keyOnA "k1") out.bytes := by
  have hwritten : appendKeyRef (keyOnA "k1") (empty : CStr 512) =
      (.ok, store 512 (keyText (keyOnA "k1"))) := by decide
  have hfit : (store 512 (keyText (keyOnA "k1"))).bytes.length < maxFieldLen := by decide
  exact ⟨_, hwritten, (readsBack_iff hwritten hfit).mpr (by decide)⟩

/-- An id that spells a device token stands in front of the real one. -/
def smugglingKey : UnifKeyRef := keyOnA "k;device_id=dev-b"

theorem smuggled_device :
    ∃ out : CStr 512, appendKeyRef smugglingKey empty = (.ok, out) ∧
      out.bytes.length < maxFieldLen ∧
      tokenText out.bytes "device_id" = some (lit "dev-b") ∧ ¬ReadsBack smugglingKey out.bytes := by
  have hwritten : appendKeyRef smugglingKey (empty : CStr 512) =
      (.ok, store 512 (keyText smugglingKey)) := by decide
  have hfit : (store 512 (keyText smugglingKey)).bytes.length < maxFieldLen := by decide
  refine ⟨_, hwritten, hfit, by decide, ?_⟩
  rw [readsBack_iff hwritten hfit]
  decide

end ReadBack

end Ucisdk.KeyRoundTrip
