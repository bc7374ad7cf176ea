import Mathlib.Algebra.Ring.Nat
import Mathlib.Data.List.Forall2
import Mathlib.Data.List.TakeWhile

/-!
# Decoding flat objects of JSON

The decoder reads an object whose values are strings and numbers, byte by
byte. A text spells a value when the decoder reads that value from it and
leaves what stands behind it; members, and the objects made of them, are
spelled part by part.
-/

set_option autoImplicit false

namespace Scan.Json

abbrev Text := List UInt8

inductive Value where
  | string (bytes : Text)
  | number (n : ℕ)
  deriving DecidableEq

section Decoder

def quote : UInt8 := 34
def comma : UInt8 := 44
def colon : UInt8 := 58
def backslash : UInt8 := 92
def lbrace : UInt8 := 123
def rbrace : UInt8 := 125

def blank (c : UInt8) : Bool := c == 32 || c == 9 || c == 10 || c == 13

def skip (t : Text) : Text := t.dropWhile blank

def hexValue (c : UInt8) : Option ℕ :=
  if 48 ≤ c ∧ c ≤ 57 then some (c.toNat - 48)
  else if 97 ≤ c ∧ c ≤ 102 then some (c.toNat - 87)
  else if 65 ≤ c ∧ c ≤ 70 then some (c.toNat - 55)
  else none

/-- The bytes of a code point in UTF-8. Half of a surrogate pair is none. -/
def utf8 (n : ℕ) : Option Text :=
  if n < 0x80 then some [UInt8.ofNat n]
  else if n < 0x800 then some [UInt8.ofNat (0xc0 + n / 64), UInt8.ofNat (0x80 + n % 64)]
  else if 0xd800 ≤ n ∧ n < 0xe000 then none
  else
    some [UInt8.ofNat (0xe0 + n / 4096), UInt8.ofNat (0x80 + n / 64 % 64),
      UInt8.ofNat (0x80 + n % 64)]

/-- The bytes of `\u` with four digits behind it. -/
def unicode (a b c d : UInt8) : Option Text := do
  utf8 (((← hexValue a) * 16 + (← hexValue b)) * 256 + (← hexValue c) * 16 + (← hexValue d))

/-- The byte of a backslash with one letter behind it. -/
def letter (c : UInt8) : Option UInt8 :=
  if c = quote ∨ c = backslash ∨ c = 47 then some c
  else if c = 98 then some 8
  else if c = 102 then some 12
  else if c = 110 then some 10
  else if c = 114 then some 13
  else if c = 116 then some 9
  else none

/-- A string up to its closing quote, and what stands behind the quote. -/
def readString : Text → Option (Text × Text)
  | [] => none
  | c :: t =>
    if c = quote then some ([], t)
    else if c = backslash then
      match t with
      | [] => none
      | e :: t =>
        if e = 117 then
          match t with
          | h₁ :: h₂ :: h₃ :: h₄ :: t => do
            let s ← unicode h₁ h₂ h₃ h₄
            (readString t).map fun r => (s ++ r.1, r.2)
          | _ => none
        else do
          let x ← letter e
          (readString t).map fun r => (x :: r.1, r.2)
    else if c < 32 then none
    else (readString t).map fun r => (c :: r.1, r.2)

def digit (c : UInt8) : Bool := 48 ≤ c && c ≤ 57

def numeralValue (t : Text) : ℕ := t.foldl (fun n c => 10 * n + (c.toNat - 48)) 0

/-- A number without a sign, a fraction or an exponent. -/
def readNumber (t : Text) : Option (ℕ × Text) :=
  let digits := t.takeWhile digit
  if digits = [] ∨ (digits.head? = some 48 ∧ digits ≠ [48]) then none
  else some (numeralValue digits, t.dropWhile digit)

def readValue : Text → Option (Value × Text)
  | [] => none
  | c :: t =>
    if c = quote then (readString t).map fun r => (.string r.1, r.2)
    else (readNumber (c :: t)).map fun r => (.number r.1, r.2)

/-- What is read behind a byte that has to come next. -/
def behind {β : Type} (x : UInt8) (read : Text → Option β) : Text → Option β
  | [] => none
  | c :: t => if c = x then read t else none

def readMember (t : Text) : Option ((Text × Value) × Text) := do
  let (name, t) ← behind quote readString (skip t)
  let (value, t) ← behind colon (fun t => readValue (skip t)) (skip t)
  some ((name, value), t)

/-- The members up to the closing brace. -/
def readMembers : ℕ → Text → Option (List (Text × Value) × Text)
  | 0, _ => none
  | fuel + 1, t => do
    let (m, t) ← readMember t
    match skip t with
    | [] => none
    | c :: t =>
      if c = comma then (readMembers fuel t).map fun r => (m :: r.1, r.2)
      else if c = rbrace then some ([m], t)
      else none

/-- The members of an object with at least one; behind it only blanks may stand. -/
def decodeObject (t : Text) : Option (List (Text × Value)) := do
  let (ms, rest) ← behind lbrace (fun body => readMembers body.length body) (skip t)
  if skip rest = [] then some ms else none

end Decoder

section Strings

/-- What stands between two quotes reads as `s`. -/
def Spells (raw s : Text) : Prop := ∀ rest, readString (raw ++ quote :: rest) = some (s, rest)

/-- An encoding of single bytes that the decoder undoes. -/
def Undone (enc : UInt8 → Text) : Prop :=
  ∀ c rest, readString (enc c ++ rest) = (readString rest).map fun r => (c :: r.1, r.2)

theorem readString_quote (rest : Text) : readString (quote :: rest) = some ([], rest) := by
  rw [readString.eq_def]
  simp

theorem readString_plain {c : UInt8} (hquote : c ≠ quote) (hback : c ≠ backslash) (hc : ¬c < 32)
    (rest : Text) :
    readString (c :: rest) = (readString rest).map fun r => (c :: r.1, r.2) := by
  rw [readString.eq_def]
  simp [hquote, hback, hc]

theorem readString_letter {e x : UInt8} (he : letter e = some x) (rest : Text) :
    readString (backslash :: e :: rest) = (readString rest).map fun r => (x :: r.1, r.2) := by
  have hu : e ≠ 117 := by
    rintro rfl
    rw [show letter 117 = none by decide] at he
    cases he
  rw [readString.eq_def]
  simp [hu, he, show backslash ≠ quote by decide]

theorem readString_unicode {a b c d : UInt8} {s : Text} (h : unicode a b c d = some s)
    (rest : Text) :
    readString (backslash :: 117 :: a :: b :: c :: d :: rest) =
      (readString rest).map fun r => (s ++ r.1, r.2) := by
  rw [readString.eq_def]
  simp [h, show backslash ≠ quote by decide]

theorem spells_encoded {enc : UInt8 → Text} (h : Undone enc) (s : Text) :
    Spells (s.flatMap enc) s := by
  intro rest
  induction s with
  | nil => exact readString_quote rest
  | cons c s ih =>
    rw [List.flatMap_cons, List.append_assoc, h, ih]
    rfl

theorem spells_plain {s : Text} (h : ∀ c ∈ s, c ≠ quote ∧ c ≠ backslash ∧ ¬c < 32) :
    Spells s s := by
  intro rest
  induction s with
  | nil => exact readString_quote rest
  | cons c s ih =>
    obtain ⟨hquote, hback, hc⟩ := h c (by simp)
    rw [List.cons_append, readString_plain hquote hback hc,
      ih fun x hx => h x (List.mem_cons_of_mem c hx)]
    rfl

end Strings

section Objects

/-- A byte that may stand behind a value: no digit, and not blank either. -/
def Ends (c : UInt8) : Prop := digit c = false ∧ blank c = false

def SpellsValue (t : Text) (v : Value) : Prop :=
  ∀ c rest, Ends c → readValue (skip (t ++ c :: rest)) = some (v, c :: rest)

def SpellsMember (t : Text) (m : Text × Value) : Prop :=
  ∀ c rest, Ends c → readMember (t ++ c :: rest) = some (m, c :: rest)

theorem skip_cons {c : UInt8} (h : blank c = false) (rest : Text) :
    skip (c :: rest) = c :: rest := by
  rw [skip, List.dropWhile_cons, h]
  rfl

theorem value_string {raw s : Text} (h : Spells raw s) :
    SpellsValue (quote :: raw ++ [quote]) (.string s) := by
  intro c rest _
  have htext : quote :: raw ++ [quote] ++ c :: rest = quote :: (raw ++ quote :: c :: rest) := by
    simp
  rw [htext, skip_cons (by decide), readValue, if_pos rfl, h]
  rfl

/-- A text of digits that is the number `n`. -/
structure Numeral (t : Text) (n : ℕ) : Prop where
  nonempty : t ≠ []
  digits : ∀ c ∈ t, digit c = true
  shortest : t.head? = some 48 → t = [48]
  value : numeralValue t = n

theorem blank_digit {c : UInt8} (h : digit c = true) : blank c = false := by
  simp only [digit, Bool.and_eq_true, decide_eq_true_eq, UInt8.le_iff_toNat_le] at h
  simp only [blank, Bool.or_eq_false_iff, beq_eq_false_iff_ne, ne_eq, ← UInt8.toNat_inj]
  refine ⟨⟨⟨?_, ?_⟩, ?_⟩, ?_⟩ <;>
    simp only [UInt8.toNat_ofNat] at * <;> omega

theorem value_number {t : Text} {n : ℕ} (h : Numeral t n) : SpellsValue t (.number n) := by
  intro c rest hc
  obtain ⟨d, t, rfl⟩ := List.exists_cons_of_ne_nil h.nonempty
  have hdigit := h.digits d (by simp)
  have hd : d ≠ quote := by
    rintro rfl
    exact absurd hdigit (by decide)
  have htake : (d :: t ++ c :: rest).takeWhile digit = d :: t := by
    rw [List.takeWhile_append_of_pos h.digits, List.takeWhile_cons, hc.1]
    simp
  have hdrop : (d :: t ++ c :: rest).dropWhile digit = c :: rest := by
    rw [List.dropWhile_append_of_pos h.digits, List.dropWhile_cons, hc.1]
    rfl
  have hnumber : readNumber (d :: t ++ c :: rest) = some (n, c :: rest) := by
    rw [readNumber, htake, hdrop, h.value, if_neg]
    rintro (hnil | ⟨hzero, hlong⟩)
    · exact h.nonempty hnil
    · exact hlong (h.shortest hzero)
  rw [List.cons_append] at hnumber ⊢
  rw [skip_cons (blank_digit hdigit), readValue, if_neg hd, hnumber]
  rfl

/-- A name in quotes, a colon and a value. -/
def pairText (raw value : Text) : Text := quote :: (raw ++ quote :: colon :: value)

theorem member_spelled {raw name t : Text} {v : Value} (hname : Spells raw name)
    (hvalue : SpellsValue t v) : SpellsMember (pairText raw t) (name, v) := by
  intro c rest hc
  have htext : pairText raw t ++ c :: rest =
      quote :: (raw ++ quote :: colon :: (t ++ c :: rest)) := by
    simp [pairText]
  rw [htext, readMember, skip_cons (by decide)]
  simp only [behind, if_true, hname _, skip_cons (show blank colon = false by decide),
    hvalue c rest hc, bind, Option.bind]

/-- Texts with commas between them. -/
def joined : List Text → Text
  | [] => []
  | t :: ts => t ++ ts.flatMap fun t => comma :: t

theorem joined_cons_cons (t u : Text) (ts : List Text) :
    joined (t :: u :: ts) = t ++ comma :: joined (u :: ts) := by
  simp [joined]

/-- Members that are spelled one by one are read up to the closing brace. -/
theorem readMembers_joined {ts : List Text} {ms : List (Text × Value)}
    (h : List.Forall₂ SpellsMember ts ms) (hne : ts ≠ []) {fuel : ℕ} (hfuel : ts.length ≤ fuel)
    (rest : Text) : readMembers fuel (joined ts ++ rbrace :: rest) = some (ms, rest) := by
  induction h generalizing fuel with
  | nil => exact absurd rfl hne
  | @cons t m ts ms ht hts ih =>
    obtain ⟨fuel, rfl⟩ : ∃ n, fuel = n + 1 := ⟨fuel - 1, by simp at hfuel; omega⟩
    cases hts with
    | nil =>
      have hread := ht rbrace rest ⟨by decide, by decide⟩
      simp only [joined, List.flatMap_nil, List.append_nil, readMembers, hread,
        skip_cons (show blank rbrace = false by decide), bind, Option.bind,
        show rbrace ≠ comma by decide, if_false, if_true]
    | @cons u m' us ms' hu hus =>
      have hread := ht comma (joined (u :: us) ++ rbrace :: rest) ⟨by decide, by decide⟩
      have hlater : (u :: us).length ≤ fuel := by simpa using hfuel
      have hrest := ih (by simp) hlater
      rw [joined_cons_cons, List.append_assoc, List.cons_append]
      simp only [readMembers, hread, skip_cons (show blank comma = false by decide), bind,
        Option.bind, if_true, hrest, Option.map_some]

theorem joined_length (ts : List Text) (h : ∀ t ∈ ts, t ≠ []) : ts.length ≤ (joined ts).length := by
  cases ts with
  | nil => simp
  | cons t ts =>
    have ht := List.length_pos_of_ne_nil (h t (by simp))
    have hts : ts.length ≤ (ts.flatMap fun t => comma :: t).length := by
      induction ts with
      | nil => simp
      | cons u us ih =>
        have hus := ih fun t ht => h t (by
          rcases List.mem_cons.mp ht with rfl | ht
          · simp
          · simp [ht])
        simp only [List.length_cons, List.flatMap_cons, List.length_append]
        omega
    simp only [joined, List.length_cons, List.length_append]
    omega

/-- An object whose members are spelled is decoded to those members. -/
theorem decodeObject_joined {ts : List Text} {ms : List (Text × Value)}
    (h : List.Forall₂ SpellsMember ts ms) (hne : ts ≠ []) (htexts : ∀ t ∈ ts, t ≠ [])
    {tail : Text} (htail : ∀ c ∈ tail, blank c = true) :
    decodeObject (lbrace :: (joined ts ++ rbrace :: tail)) = some ms := by
  have hfuel : ts.length ≤ (joined ts ++ rbrace :: tail).length := by
    have hlength := joined_length ts htexts
    rw [List.length_append]
    omega
  have hskip : skip tail = [] := List.dropWhile_eq_nil_iff.mpr htail
  rw [decodeObject, skip_cons (by decide)]
  simp only [behind, if_true, readMembers_joined h hne hfuel, bind, Option.bind, hskip]

end Objects

end Scan.Json
