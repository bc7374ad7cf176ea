import Mathlib.Data.List.TakeWhile
import Ucisdk.SkfConduct

/-!
# Numbers that a client writes

A length or a size is taken from the payload with `strtoul`, which skips blanks
and a sign, stops at the first other character and counts to 64 bits; what it
returns is cut to 32 bits. Which payloads come out as the number they spell is
decided by their digits alone.
-/

set_option autoImplicit false

namespace Ucisdk.Numerals

open Ucisdk.CString Ucisdk.Common Ucisdk.Translator Ucisdk.Driver
open Ucisdk.SkfApi Ucisdk.SkfText Ucisdk.SkfSession Ucisdk.Gm3000 Ucisdk.SkfConduct
open Flow.Calls

section Texts

/-- An unsigned decimal numeral; it denotes `natOfDigits`. -/
def IsNumeral (text : Bytes) : Prop := text ≠ [] ∧ ∀ c ∈ text, isdigit c = true

instance (text : Bytes) : Decidable (IsNumeral text) := inferInstanceAs (Decidable (_ ∧ _))

/-- What stands behind the blanks and the sign. -/
def unsignedPart (text : Bytes) : Bytes :=
  match text.dropWhile isspace with
  | [] => []
  | c :: rest => if c = 45 ∨ c = 43 then rest else c :: rest

/-- The digits that `strtoul` takes. -/
def leadingDigits (text : Bytes) : Bytes := (unsignedPart text).takeWhile isdigit

/-- No digits at all, or more than 64 bits hold. -/
def Unreadable (text : Bytes) : Prop :=
  leadingDigits text = [] ∨ 2 ^ 64 ≤ natOfDigits (leadingDigits text)

instance (text : Bytes) : Decidable (Unreadable text) := inferInstanceAs (Decidable (_ ∨ _))

theorem strtoulDigits_eq_none_iff (negative : Bool) (s : Bytes) :
    strtoulDigits negative s = none ↔
      s.takeWhile isdigit = [] ∨ 2 ^ 64 ≤ natOfDigits (s.takeWhile isdigit) := by
  rw [strtoulDigits]
  split
  · rename_i h
    exact iff_of_true rfl h
  · rename_i h
    cases negative <;> exact iff_of_false nofun h

theorem strtoul_eq_none_iff (text : Bytes) : strtoul text = none ↔ Unreadable text := by
  rw [strtoul.eq_def, Unreadable, leadingDigits, unsignedPart]
  cases text.dropWhile isspace with
  | nil => exact iff_of_true rfl (.inl rfl)
  | cons c rest =>
    simp only
    by_cases hminus : c = 45
    · rw [if_pos hminus, if_pos (.inl hminus), strtoulDigits_eq_none_iff]
    · by_cases hplus : c = 43
      · rw [if_neg hminus, if_pos hplus, if_pos (.inr hplus), strtoulDigits_eq_none_iff]
      · rw [if_neg hminus, if_neg hplus, if_neg (by simp [hminus, hplus]),
          strtoulDigits_eq_none_iff]

/-- A digit is neither a blank nor a sign. -/
theorem isdigit_first (c : UInt8) (h : isdigit c = true) :
    isspace c = false ∧ c ≠ 45 ∧ c ≠ 43 := by
  revert h
  apply forall_byte (p := fun c => isdigit c = true → isspace c = false ∧ c ≠ 45 ∧ c ≠ 43)
  decide +kernel

/-- A numeral is read from its first digit to its last. -/
theorem strtoul_numeral {text : Bytes} (h : IsNumeral text) :
    strtoul text = strtoulDigits false text ∧ text.takeWhile isdigit = text := by
  obtain ⟨hne, hdigits⟩ := h
  obtain ⟨c, rest, rfl⟩ := List.exists_cons_of_ne_nil hne
  obtain ⟨hspace, hminus, hplus⟩ := isdigit_first c (hdigits c List.mem_cons_self)
  have hblank : (c :: rest).dropWhile isspace = c :: rest :=
    List.dropWhile_cons_of_neg (by simp [hspace])
  refine ⟨?_, List.takeWhile_eq_self_iff.mpr hdigits⟩
  rw [strtoul.eq_def, hblank]
  simp only [if_neg hminus, if_neg hplus]

theorem parseUlong_numeral {text : Bytes} (h : IsNumeral text)
    (hbound : natOfDigits text < 2 ^ 32) (fallback : Ulong) :
    parseUlong text fallback = some (UInt64.ofNat (natOfDigits text)).toUInt32 := by
  obtain ⟨hread, htake⟩ := strtoul_numeral h
  have hfits : ¬(text = [] ∨ 2 ^ 64 ≤ natOfDigits text) := not_or.mpr ⟨h.1, by omega⟩
  rw [parseUlong, if_neg h.1, hread, strtoulDigits, htake]
  simp only [if_neg hfits, Bool.false_eq_true, if_false, Option.map_some]

theorem toUInt32_ofNat {n : ℕ} (h : n < 2 ^ 32) : (UInt64.ofNat n).toUInt32.toNat = n := by
  rw [UInt64.toNat_toUInt32, UInt64.toNat_ofNat']
  omega

/-- What is accepted is an unsigned numeral and is stored as what it denotes. -/
def Exact (text : Bytes) : Prop :=
  ∀ fallback v, parseUlong text fallback = some v → IsNumeral text ∧ v.toNat = natOfDigits text

theorem exact_iff {text : Bytes} (htext : text ≠ []) :
    Exact text ↔ IsNumeral text ∧ natOfDigits text < 2 ^ 32 ∨ Unreadable text := by
  constructor
  · intro h
    by_cases hread : Unreadable text
    · exact .inr hread
    · obtain ⟨value, hvalue⟩ := Option.ne_none_iff_exists'.mp (mt (strtoul_eq_none_iff text).mp hread)
      have hparse : parseUlong text 0 = some value.toUInt32 := by
        rw [parseUlong, if_neg htext, hvalue, Option.map_some]
      obtain ⟨hnumeral, hvalue⟩ := h 0 _ hparse
      refine .inl ⟨hnumeral, ?_⟩
      rw [← hvalue]
      exact value.toUInt32.toNat_lt
  · rintro (⟨hnumeral, hbound⟩ | hread) fallback v hv
    · rw [parseUlong_numeral hnumeral hbound] at hv
      obtain rfl := Option.some.inj hv
      exact ⟨hnumeral, toUInt32_ofNat hbound⟩
    · rw [parseUlong, if_neg htext, (strtoul_eq_none_iff text).mpr hread] at hv
      cases hv

end Texts

section Calls

/-- The length or the size that a call hands to the library. -/
def sizeOf : SkfCall → Option Ulong
  | .genRandom _ len => some len
  | .createFile _ _ size _ _ => some size
  | .readFile _ _ _ size => some size
  | _ => none

/-- What is handed over is the number that the text spells. -/
def Sized (text : Bytes) (op : SkfCall) : Prop :=
  ∀ size, sizeOf op = some size → IsNumeral text ∧ size.toNat = natOfDigits text

theorem sized_of_none {text : Bytes} {op : SkfCall} (h : sizeOf op = none) : Sized text op := by
  intro size hsize
  rw [h] at hsize
  cases hsize

theorem sized_of_parse {text : Bytes} (h : Exact text) {fallback size : Ulong} {op : SkfCall}
    (hparse : parseUlong text fallback = some size) (hop : sizeOf op = some size) :
    Sized text op := by
  intro size' hsize'
  rw [hop] at hsize'
  obtain rfl := Option.some.inj hsize'
  exact h fallback size hparse

instance (text : Bytes) : Admits (Sized text) where
  admits op h := by
    refine sized_of_none ?_
    cases op <;> first | rfl | cases h

variable {σ : Type} {env : Env} {lib : Library σ} {call : TranslatedCall}

/-- A length that passes its bound is the one that was parsed. -/
theorem bounded_eq_ok {parsed : Option Ulong} {text : Bytes} {len : Ulong}
    (h : (match parsed with
      | none => fail text
      | some n => if gm3000MaxIo < n.toNat then fail text else .ok n) = (.ok len : Status Ulong)) :
    parsed = some len := by
  split at h
  · cases h
  · split at h
    · cases h
    · cases h
      rfl

theorem randomLen_eq_ok {len : Ulong} (h : randomLen call = .ok len) :
    parseUlong call.call.payload.bytes 16 = some len := bounded_eq_ok h

theorem readLen_eq_ok {want : Ulong} (h : readLen call = .ok want) :
    parseUlong call.call.payload.bytes 256 = some want := bounded_eq_ok h

theorem deviceManage_sized (h : Exact call.call.payload.bytes) :
    Keeps (Sized call.call.payload.bytes) (Tells env call) (gm3000DeviceManage env lib call) :=
  deviceManage_conducts (fun _ => sized_of_none rfl)
    fun _ _ hlen => sized_of_parse h (randomLen_eq_ok hlen) rfl

theorem fileOps_sized (h : Exact call.call.payload.bytes) :
    Keeps (Sized call.call.payload.bytes) (Tells env call) (gm3000FileOps env lib call) :=
  fileOps_conducts
    { create := fun _ _ hsize => sized_of_parse h hsize rfl
      read := fun _ _ hwant => sized_of_parse h (readLen_eq_ok hwant) rfl
      write := fun _ _ => sized_of_none rfl
      delete := fun _ => sized_of_none rfl }

end Calls

section AsWritten

/-- The payload text, where it is accepted, is an unsigned numeral and counts
as the number it denotes, in the parser and in what reaches the library. -/
structure TakenAsWritten (text : Bytes) : Prop where
  exact : Exact text
  /-- More than 32 bits hold is refused. -/
  bounded : IsNumeral text → 2 ^ 32 ≤ natOfDigits text →
    ∀ fallback, parseUlong text fallback = none
  unsigned : 45 ∈ text → ∀ fallback, parseUlong text fallback = none
  whole : ∀ digits c rest, text = digits ++ c :: rest → IsNumeral digits → isdigit c = false →
    ∀ fallback, parseUlong text fallback = none
  random : ∀ {σ : Type} (env : Env) (lib : Library σ) (call : TranslatedCall) (s : σ),
    call.call.payload.bytes = text →
      ∀ made ∈ (gm3000DeviceManage env lib call s).calls, Sized text made.op
  file : ∀ {σ : Type} (env : Env) (lib : Library σ) (call : TranslatedCall) (s : σ),
    call.call.payload.bytes = text →
      ∀ made ∈ (gm3000FileOps env lib call s).calls, Sized text made.op

theorem refused_of_exact {text : Bytes} (h : Exact text)
    (hnot : ¬(IsNumeral text ∧ natOfDigits text < 2 ^ 32)) (fallback : Ulong) :
    parseUlong text fallback = none := by
  cases hv : parseUlong text fallback with
  | none => rfl
  | some v =>
    obtain ⟨hnumeral, hvalue⟩ := h fallback v hv
    refine absurd ⟨hnumeral, ?_⟩ hnot
    rw [← hvalue]
    exact v.toNat_lt

theorem takenAsWritten_of_exact {text : Bytes} (h : Exact text) : TakenAsWritten text where
  exact := h
  bounded _ hlarge := refused_of_exact h fun hsmall => absurd hsmall.2 (by omega)
  unsigned hminus := refused_of_exact h fun hnumeral =>
    absurd (hnumeral.1.2 45 hminus) (by decide)
  whole digits c rest htext _ hc := refused_of_exact h fun hnumeral => by
    have hmem : c ∈ text := by simp [htext]
    exact absurd (hnumeral.1.2 c hmem) (by simp [hc])
  random env lib call s htext made hmade := by
    subst htext
    exact (deviceManage_sized h s).2 made hmade
  file env lib call s htext made hmade := by
    subst htext
    exact (fileOps_sized h s).2 made hmade

/-- A text counts as written if and only if it is a numeral below 2^32, or
there is nothing in it that `strtoul` could read. -/
theorem takenAsWritten_iff {text : Bytes} (htext : text ≠ []) :
    TakenAsWritten text ↔
      IsNumeral text ∧ natOfDigits text < 2 ^ 32 ∨ Unreadable text := by
  rw [← exact_iff htext]
  exact ⟨fun h => h.exact, takenAsWritten_of_exact⟩

theorem largest_taken : TakenAsWritten (lit "4294967295") :=
  (takenAsWritten_iff (by decide)).mpr (.inl (by decide))

/-- 2^32 + 1 is accepted as one. -/
theorem wrapped_not_taken :
    (∀ fallback, parseUlong (lit "4294967297") fallback = some 1) ∧
      ¬TakenAsWritten (lit "4294967297") := by
  have hone (fallback : Ulong) : parseUlong (lit "4294967297") fallback = some 1 := by
    rw [parseUlong, if_neg (by decide)]
    decide
  refine ⟨hone, fun h => ?_⟩
  exact absurd (h.exact 0 1 (hone 0)).2 (by decide)

end AsWritten

end Ucisdk.Numerals
