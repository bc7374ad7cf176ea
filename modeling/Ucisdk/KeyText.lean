import Ucisdk.CcmObject
import Ucisdk.Scan.Tokens

/-!
# The text of a key reference

A key reference is written as tokens with separators between them. What
comes from numbers and handles is made of digits alone, so the tokens of a
reference are those that its ids do not split.
-/

set_option autoImplicit false

namespace Ucisdk.KeyText

open Ucisdk.CString Ucisdk.Common Ucisdk.Protocol Ucisdk.Ccm Ucisdk.CcmObject
open Scan.Tokens

section Digits

theorem mem_toDigits {b n : ℕ} {c : Char} (hb : 1 < b) (h : c ∈ Nat.toDigits b n) :
    ∃ d < b, c = Nat.digitChar d := by
  induction n using Nat.strong_induction_on with
  | _ n ih =>
    by_cases hn : n < b
    · rw [Nat.toDigits_of_lt_base hn, List.mem_singleton] at h
      exact ⟨n, hn, h⟩
    · rw [Nat.toDigits_of_base_le hb (by omega), List.mem_append, List.mem_singleton] at h
      rcases h with h | h
      · exact ih (n / b) (Nat.div_lt_self (by omega) hb) h
      · exact ⟨n % b, Nat.mod_lt n (by omega), h⟩

/-- A byte that neither the encoder nor the readers of a request act on. -/
def Inert (c : UInt8) : Prop := Plain c ∧ c ≠ colon ∧ c ≠ 59

instance (c : UInt8) : Decidable (Inert c) := inferInstanceAs (Decidable (_ ∧ _))

theorem digit_inert : ∀ d < 16, Inert (UInt8.ofNat (Nat.digitChar d).toNat) := by
  decide

theorem decimal_inert (n : ℕ) : ∀ c ∈ decimal n, Inert c := by
  intro c hc
  rw [decimal, List.mem_map] at hc
  obtain ⟨x, hx, rfl⟩ := hc
  obtain ⟨d, hd, rfl⟩ := mem_toDigits (by decide) hx
  exact digit_inert d (by omega)

theorem pointer_inert (ptr : UInt64) : ∀ c ∈ pointer ptr, Inert c := by
  rw [pointer]
  split
  · decide
  · intro c hc
    rw [List.mem_append, hexadecimal, List.mem_map] at hc
    rcases hc with hc | ⟨x, hx, rfl⟩
    · revert hc
      revert c
      decide
    · obtain ⟨d, hd, rfl⟩ := mem_toDigits (by decide) hx
      exact digit_inert d hd

end Digits

section Tokens

def numberToken (name : String) (value : UInt32) : Bytes :=
  lit name ++ lit "=" ++ decimal value.toNat

def pointerToken (name : String) (ptr : UInt64) : Bytes := lit name ++ lit "=" ++ pointer ptr

def idToken (name : String) (id : CStr 64) : List Bytes :=
  if id.bytes = [] then [] else [lit name ++ lit "=" ++ id.bytes]

/-- The tokens of a key reference behind the first one. -/
def laterTokens (key : UnifKeyRef) : List Bytes :=
  [numberToken "usage" key.uiUsage, numberToken "source" key.uiSource,
    numberToken "key_index" key.uiKeyIndex, pointerToken "key_handle" key.hKeyHandle,
    pointerToken "external_key" key.pExternalKey] ++
    (idToken "key_id" key.szKeyId ++ idToken "device_id" key.szDeviceId)

def keyTokens (key : UnifKeyRef) : List Bytes := numberToken "alg" key.uiAlgID :: laterTokens key

/-- The text of tokens behind other ones. -/
def behind (ts : List Bytes) : Bytes := ts.flatMap fun t => 59 :: t

theorem behind_append (ts us : List Bytes) : behind (ts ++ us) = behind ts ++ behind us :=
  List.flatMap_append

/-- The text of tokens with a separator between them. -/
def listText : List Bytes → Bytes
  | [] => []
  | t :: ts => t ++ behind ts

theorem listText_append {ts : List Bytes} (h : ts ≠ []) (us : List Bytes) :
    listText (ts ++ us) = listText ts ++ behind us := by
  cases ts with
  | nil => exact absurd rfl h
  | cons t ts => rw [List.cons_append, listText, listText, behind_append, List.append_assoc]

theorem behind_length (ts : List Bytes) (h : ts ≠ []) :
    (behind ts).length = (listText ts).length + 1 := by
  cases ts with
  | nil => exact absurd rfl h
  | cons t ts => simp [behind, listText]

theorem listText_le (ts : List Bytes) : (listText ts).length ≤ (behind ts).length := by
  cases ts with
  | nil => exact le_refl 0
  | cons t ts => simp [behind, listText]

variable {cap : ℕ} [NeZero cap]

theorem append_ne_nil {out : CStr cap} (h : out.bytes ≠ []) (s : Bytes) :
    (append out s).bytes ≠ [] := by
  have hfit := out.fits
  have hpos := List.length_pos_of_ne_nil h
  intro hnil
  have hlen : (append out s).bytes.length = 0 := by rw [hnil, List.length_nil]
  rw [append_bytes, List.length_take, List.length_append] at hlen
  omega

/-- An append that writes tokens, behind those that are there already. -/
structure Writes (a : Appender cap) (ts : List Bytes) : Prop where
  nonempty : ∀ t ∈ ts, t ≠ []
  appends : ∀ out, Appends a out (if out.bytes = [] then listText ts else behind ts)

theorem writes_nil : Writes (appendAll [] : Appender cap) [] := by
  refine ⟨by simp, ?_⟩
  intro out
  rw [show (if out.bytes = [] then listText [] else behind []) = [] from ite_self []]
  exact appends_nil out

theorem append_nil_iff (hcap : 1 < cap) (out : CStr cap) (s : Bytes) :
    (append out s).bytes = [] ↔ out.bytes = [] ∧ s = [] := by
  rw [append_bytes, List.take_eq_nil_iff, List.append_eq_nil_iff, or_iff_right (by omega)]

theorem listText_nil_iff {ts : List Bytes} (h : ∀ t ∈ ts, t ≠ []) : listText ts = [] ↔ ts = [] := by
  cases ts with
  | nil => simp [listText]
  | cons t ts => simp [listText, h t (by simp)]

/-- What the second of two appends stands for, behind the first. -/
theorem text_behind (hcap : 1 < cap) (out : CStr cap) {ts : List Bytes} (h : ∀ t ∈ ts, t ≠ [])
    (us : List Bytes) :
    (if out.bytes = [] then listText (ts ++ us) else behind (ts ++ us)) =
      (if out.bytes = [] then listText ts else behind ts) ++
        (if (append out (if out.bytes = [] then listText ts else behind ts)).bytes = [] then
          listText us else behind us) := by
  by_cases hout : out.bytes = []
  · simp only [hout, if_true, append_nil_iff hcap, true_and, listText_nil_iff h]
    by_cases hts : ts = []
    · simp [hts, listText]
    · rw [if_neg hts, listText_append hts]
  · have hne : (append out (behind ts)).bytes ≠ [] := append_ne_nil hout _
    rw [if_neg hout, if_neg hout, if_neg hne, behind_append]

theorem writes_cons (hcap : 1 < cap) {a : Appender cap} {as : List (Appender cap)}
    {ts us : List Bytes} (ha : Writes a ts) (has : Writes (appendAll as) us) :
    Writes (appendAll (a :: as)) (ts ++ us) := by
  constructor
  · intro t ht
    rcases List.mem_append.mp ht with ht | ht
    · exact ha.nonempty t ht
    · exact has.nonempty t ht
  · intro out
    have hchain := appends_cons (ha.appends out) (has.appends (append out _))
    rw [text_behind hcap out ha.nonempty]
    exact hchain

theorem named_ne_nil (name : String) (value : Bytes) :
    ∀ t ∈ [lit name ++ lit "=" ++ value], t ≠ [] := by
  simp [show lit "=" = [61] from rfl]

omit [NeZero cap] in
theorem separated (out : CStr cap) (t : Bytes) :
    separator out ++ t = if out.bytes = [] then listText [t] else behind [t] := by
  rw [separator]
  split <;> simp [listText, behind, show lit ";" = [59] from rfl]

theorem writes_number (name : String) (value : UInt32) :
    Writes (appendToken name value : Appender cap) [numberToken name value] := by
  refine ⟨named_ne_nil name _, ?_⟩
  intro out
  have hraw : appendToken name value out = appendRaw (separator out ++ numberToken name value) out := by
    rw [appendToken, numberToken, List.append_assoc, List.append_assoc, List.append_assoc]
  rw [← separated, Appends, hraw]
  exact appends_raw out _

theorem writes_pointer (name : String) (ptr : UInt64) :
    Writes (appendPtr name ptr : Appender cap) [pointerToken name ptr] := by
  refine ⟨named_ne_nil name _, ?_⟩
  intro out
  have hraw : appendPtr name ptr out = appendRaw (separator out ++ pointerToken name ptr) out := by
    rw [appendPtr, pointerToken, List.append_assoc, List.append_assoc, List.append_assoc]
  rw [← separated, Appends, hraw]
  exact appends_raw out _

theorem writes_id (name : String) (id : CStr 64) :
    Writes (appendId name id : Appender cap) (idToken name id) := by
  by_cases hid : id.bytes = []
  · rw [idToken, if_pos hid]
    refine ⟨by simp, ?_⟩
    intro out
    have hnil := appends_nil out
    rw [show (if out.bytes = [] then listText [] else behind []) = [] from ite_self [], Appends,
      appendId, if_pos hid]
    exact hnil
  · rw [idToken, if_neg hid]
    refine ⟨named_ne_nil name _, ?_⟩
    intro out
    have hname := appends_raw out (separator out ++ lit name ++ lit "=")
    have hchain := appends_cons (a := fun out => appendRaw (separator out ++ lit name ++ lit "=") out)
      hname (appends_cons (appends_raw _ id.bytes) (appends_nil _))
    rw [← separated, Appends, appendId, if_neg hid]
    simpa [Appends] using hchain

theorem writes_keyRef (hcap : 1 < cap) (key : UnifKeyRef) :
    Writes (appendKeyRef key : Appender cap) (keyTokens key) := by
  have htokens : keyTokens key = [numberToken "alg" key.uiAlgID] ++
      ([numberToken "usage" key.uiUsage] ++ ([numberToken "source" key.uiSource] ++
        ([numberToken "key_index" key.uiKeyIndex] ++
          ([pointerToken "key_handle" key.hKeyHandle] ++
            ([pointerToken "external_key" key.pExternalKey] ++
              (idToken "key_id" key.szKeyId ++ (idToken "device_id" key.szDeviceId ++ []))))))) := by
    simp [keyTokens, laterTokens]
  rw [htokens]
  exact writes_cons hcap (writes_number _ _) <| writes_cons hcap (writes_number _ _) <|
    writes_cons hcap (writes_number _ _) <| writes_cons hcap (writes_number _ _) <|
    writes_cons hcap (writes_pointer _ _) <| writes_cons hcap (writes_pointer _ _) <|
    writes_cons hcap (writes_id _ _) <| writes_cons hcap (writes_id _ _) writes_nil

theorem keyTokens_ne_nil (key : UnifKeyRef) : ∀ t ∈ keyTokens key, t ≠ [] := by
  have hroom : 1 < 512 := by decide
  exact (writes_keyRef hroom key).nonempty

/-- A key reference in an empty array starts without a separator. -/
theorem keyRef_empty (key : UnifKeyRef) (h : 1 < cap) :
    Appends (appendKeyRef key) (empty : CStr cap)
      (numberToken "alg" key.uiAlgID ++ behind (laterTokens key)) := by
  have hkey := (writes_keyRef h key).appends empty
  rw [if_pos empty_bytes] at hkey
  exact hkey

/-- The text of two key references, as a hybrid call means to write it. -/
def hybridText (classicKey pqcKey : UnifKeyRef) : Bytes :=
  numberToken "alg" classicKey.uiAlgID ++ behind (laterTokens classicKey ++ keyTokens pqcKey)

/-- What the two appends leave, whether or not they had room for it. -/
theorem hybrid_keyRef (classicKey pqcKey : UnifKeyRef) (h : 1 < cap) :
    (appendKeyRef pqcKey (appendKeyRef classicKey (empty : CStr cap)).2).2.bytes =
      (hybridText classicKey pqcKey).take (cap - 1) := by
  have hfirst := (writes_keyRef h classicKey).appends empty
  have hsecond := (writes_keyRef h pqcKey).appends (appendKeyRef classicKey empty).2
  have htext := text_behind h empty (keyTokens_ne_nil classicKey) (keyTokens pqcKey)
  rw [Appends] at hfirst hsecond
  rw [hsecond]
  simp only [hfirst]
  rw [append_append, ← htext, append_bytes, empty_bytes, List.nil_append, if_pos rfl]
  rfl

end Tokens

section Text

theorem numberToken_inert {name : String} (h : ∀ c ∈ lit name, Inert c) (value : UInt32) :
    ∀ c ∈ numberToken name value, Inert c := by
  intro c hc
  rw [numberToken, List.mem_append, List.mem_append] at hc
  rcases hc with (hc | hc) | hc
  · exact h c hc
  · revert hc
    revert c
    decide
  · exact decimal_inert _ c hc

theorem pointerToken_inert {name : String} (h : ∀ c ∈ lit name, Inert c) (ptr : UInt64) :
    ∀ c ∈ pointerToken name ptr, Inert c := by
  intro c hc
  rw [pointerToken, List.mem_append, List.mem_append] at hc
  rcases hc with (hc | hc) | hc
  · exact h c hc
  · revert hc
    revert c
    decide
  · exact pointer_inert ptr c hc

/-- Ids that neither the encoder nor the token search act on. -/
def OrdinaryKey (key : UnifKeyRef) : Prop :=
  ∀ c ∈ key.szKeyId.bytes ++ key.szDeviceId.bytes, Plain c ∧ c ≠ 59

instance (key : UnifKeyRef) : Decidable (OrdinaryKey key) :=
  inferInstanceAs (Decidable (∀ c ∈ _, _))

theorem idToken_all {P : UInt8 → Prop} (hinert : ∀ c, Inert c → P c) {name : String}
    (hname : ∀ c ∈ lit name, Inert c) {id : CStr 64} (h : ∀ c ∈ id.bytes, P c) :
    ∀ t ∈ idToken name id, ∀ c ∈ t, P c := by
  intro t ht c hc
  rw [idToken] at ht
  split at ht
  · simp at ht
  · rw [List.mem_singleton] at ht
    subst ht
    rw [List.mem_append, List.mem_append] at hc
    rcases hc with (hc | hc) | hc
    · exact hinert c (hname c hc)
    · apply hinert
      revert hc
      revert c
      decide
    · exact h c hc

/-- What holds of the inert bytes and of those of the ids holds of all tokens. -/
theorem keyTokens_all {P : UInt8 → Prop} (hinert : ∀ c, Inert c → P c) {key : UnifKeyRef}
    (h : ∀ c ∈ key.szKeyId.bytes ++ key.szDeviceId.bytes, P c) :
    ∀ t ∈ keyTokens key, ∀ c ∈ t, P c := by
  intro t ht
  simp only [keyTokens, laterTokens, List.mem_cons, List.mem_append, List.not_mem_nil,
    or_false] at ht
  rcases ht with rfl | (rfl | rfl | rfl | rfl | rfl) | ht | ht
  · exact fun c hc => hinert c (numberToken_inert (by decide) _ c hc)
  · exact fun c hc => hinert c (numberToken_inert (by decide) _ c hc)
  · exact fun c hc => hinert c (numberToken_inert (by decide) _ c hc)
  · exact fun c hc => hinert c (numberToken_inert (by decide) _ c hc)
  · exact fun c hc => hinert c (pointerToken_inert (by decide) _ c hc)
  · exact fun c hc => hinert c (pointerToken_inert (by decide) _ c hc)
  · exact idToken_all hinert (by decide) (fun c hc => h c (by simp [hc])) t ht
  · exact idToken_all hinert (by decide) (fun c hc => h c (by simp [hc])) t ht

theorem keyTokens_ordinary {key : UnifKeyRef} (h : OrdinaryKey key) :
    ∀ t ∈ keyTokens key, ∀ c ∈ t, Plain c ∧ c ≠ 59 :=
  keyTokens_all (fun _ hc => ⟨hc.1, hc.2.2⟩) h

theorem hybridText_plain {classicKey pqcKey : UnifKeyRef} (hc : OrdinaryKey classicKey)
    (hp : OrdinaryKey pqcKey) : ∀ c ∈ hybridText classicKey pqcKey, Plain c := by
  have hall : ∀ t ∈ keyTokens classicKey ++ keyTokens pqcKey, ∀ c ∈ t, Plain c ∧ c ≠ 59 := by
    intro t ht
    rcases List.mem_append.mp ht with ht | ht
    · exact keyTokens_ordinary hc t ht
    · exact keyTokens_ordinary hp t ht
  intro c h
  rw [hybridText, List.mem_append] at h
  rcases h with h | h
  · exact (hall _ (by simp [keyTokens]) c h).1
  · rw [behind, List.mem_flatMap] at h
    obtain ⟨t, ht, h⟩ := h
    rcases List.mem_cons.mp h with rfl | h
    · decide
    · refine (hall t ?_ c h).1
      rw [keyTokens, List.cons_append]
      exact List.mem_cons_of_mem _ ht

theorem hybridText_tokens {p : UInt8 → Bool} (hp59 : ∀ c, p c = true ↔ c = 59)
    {classicKey pqcKey : UnifKeyRef} (hc : OrdinaryKey classicKey) (hp : OrdinaryKey pqcKey) :
    tokens p (hybridText classicKey pqcKey) = keyTokens classicKey ++ keyTokens pqcKey := by
  have hmem : ∀ t ∈ numberToken "alg" classicKey.uiAlgID ::
      (laterTokens classicKey ++ keyTokens pqcKey),
      t ∈ keyTokens classicKey ∨ t ∈ keyTokens pqcKey := by
    intro t ht
    rw [← List.cons_append] at ht
    exact List.mem_append.mp ht
  rw [hybridText, behind, tokens_joined p ((hp59 59).mpr rfl)]
  · rfl
  · intro t ht
    rcases hmem t ht with ht | ht
    · exact keyTokens_ne_nil classicKey t ht
    · exact keyTokens_ne_nil pqcKey t ht
  · intro t ht x hx
    have hne : x ≠ 59 := by
      rcases hmem t ht with ht | ht
      · exact (keyTokens_ordinary hc t ht x hx).2
      · exact (keyTokens_ordinary hp t ht x hx).2
    rw [← Bool.not_eq_true, hp59]
    exact hne

end Text

end Ucisdk.KeyText
