import Ucisdk.HexText

/-!
# The scanner of hex texts

`decode_hex` walks over its text with a pointer and tests for the terminator
in three places. Here the pointer is the memory from where it points on, so
that a step over the end of the memory shows. What is accepted, and as which
bytes, is a grammar of digit pairs with separators around them.
-/

set_option autoImplicit false

namespace Ucisdk.HexScanner

open Ucisdk.CString Ucisdk.Common Ucisdk.SkfText Ucisdk.HexText

section Scanner

/-- `0` with the bytes that were written, `-1`, or a read behind the memory. -/
inductive Ended where
  | decoded (out : Bytes)
  | refused
  | overrun
  deriving DecidableEq

/-- The loop of `decode_hex`; the first list is what the pointer points to. -/
def decodeHexAt (outCap : ℕ) : Bytes → Bytes → Ended
  | [], _ => .overrun
  | c :: hex, out =>
    -- the outer loop and, behind separators, the `break`
    if c = 0 then .decoded out
    else if isSeparator c then decodeHexAt outCap hex out
    else
      match hex with
      | [] => .overrun
      | d :: rest =>
        if d = 0 then .refused
        else
          match hexDigit c, hexDigit d with
          | some hi, some lo =>
            if outCap ≤ out.length then .refused
            else decodeHexAt outCap rest (out ++ [hi <<< 4 ||| lo])
          | _, _ => .refused

theorem separator_ne_zero {c : UInt8} (h : isSeparator c = true) : c ≠ 0 := by
  rintro rfl
  exact absurd h (by decide)

section Steps

variable {outCap : ℕ} {hex rest out : Bytes} {c d : UInt8}

theorem decodeHexAt_end : decodeHexAt outCap (0 :: hex) out = .decoded out := by
  rw [decodeHexAt.eq_def]
  rfl

theorem decodeHexAt_separator (h : isSeparator c = true) :
    decodeHexAt outCap (c :: hex) out = decodeHexAt outCap hex out := by
  rw [decodeHexAt.eq_def]
  simp only [if_neg (separator_ne_zero h), h, if_true]

/-- The text ends in the middle of a pair. -/
theorem decodeHexAt_half (hc : c ≠ 0) (hsep : isSeparator c = false) :
    decodeHexAt outCap (c :: 0 :: hex) out = .refused := by
  rw [decodeHexAt.eq_def]
  simp only [if_neg hc, hsep, Bool.false_eq_true, if_false, if_true]

theorem decodeHexAt_pair (hc : c ≠ 0) (hsep : isSeparator c = false) (hd : d ≠ 0) :
    decodeHexAt outCap (c :: d :: rest) out =
      match hexDigit c, hexDigit d with
      | some hi, some lo =>
        if outCap ≤ out.length then .refused
        else decodeHexAt outCap rest (out ++ [hi <<< 4 ||| lo])
      | _, _ => .refused := by
  rw [decodeHexAt.eq_def]
  simp only [if_neg hc, hsep, Bool.false_eq_true, if_false, if_neg hd]

end Steps

/-- What `decodeHex` says of a text, behind bytes that are written. -/
def endedWith (out : Bytes) : Option Bytes → Ended
  | some bytes => .decoded (out ++ bytes)
  | none => .refused

theorem endedWith_append (out : Bytes) (b : UInt8) (bytes : Option Bytes) :
    endedWith (out ++ [b]) bytes = endedWith out (bytes.map (b :: ·)) := by
  cases bytes with
  | none => rfl
  | some bytes => simp [endedWith]

/-- In a text with its terminator the scanner does what `decodeHex` says, and
stops in front of what lies behind. -/
theorem decodeHexAt_eq (text beyond : Bytes) (outCap : ℕ) (out : Bytes) (htext : 0 ∉ text) :
    decodeHexAt outCap (text ++ 0 :: beyond) out =
      endedWith out (decodeHex text (outCap - out.length)) := by
  generalize hroom : outCap - out.length = room
  fun_induction decodeHex text room generalizing out with
  | case1 => simpa [endedWith] using decodeHexAt_end
  | case2 c room hsep =>
    show decodeHexAt outCap (c :: 0 :: beyond) out = _
    rw [decodeHexAt_separator hsep, decodeHexAt_end]
    simp [endedWith]
  | case3 c room hsep =>
    have hc : c ≠ 0 := by
      rintro rfl
      exact htext List.mem_cons_self
    exact decodeHexAt_half hc (by simpa using hsep)
  | case4 c d rest room hsep ih =>
    show decodeHexAt outCap (c :: (d :: rest ++ 0 :: beyond)) out = _
    rw [decodeHexAt_separator hsep]
    exact ih out (fun hmem => htext (List.mem_cons_of_mem c hmem)) hroom
  | case5 c d rest hsep hi lo room hlo hhi ih =>
    rw [List.mem_cons, List.mem_cons, not_or, not_or] at htext
    obtain ⟨hc, hd, hrest⟩ := htext
    have hnext : outCap - (out ++ [hi <<< 4 ||| lo]).length = room := by
      rw [List.length_append]
      show outCap - (out.length + 1) = room
      omega
    show decodeHexAt outCap (c :: d :: (rest ++ 0 :: beyond)) out = _
    rw [decodeHexAt_pair (Ne.symm hc) (by simpa using hsep) (Ne.symm hd), hhi, hlo]
    simp only [if_neg (show ¬outCap ≤ out.length by omega)]
    rw [ih _ hrest hnext, endedWith_append]
  | case6 c d rest room hsep hno =>
    rw [List.mem_cons, List.mem_cons, not_or, not_or] at htext
    obtain ⟨hc, hd, hrest⟩ := htext
    show decodeHexAt outCap (c :: d :: (rest ++ 0 :: beyond)) out = _
    rw [decodeHexAt_pair (Ne.symm hc) (by simpa using hsep) (Ne.symm hd)]
    split
    · rename_i hi lo hhi hlo
      cases room with
      | zero => rw [if_pos (by omega)]; rfl
      | succ room => exact absurd rfl (hno hi lo room hhi hlo)
    · rfl

end Scanner

section Grammar

/-- Pairs of hex digits with any number of separators before, between and
behind them, and the bytes they spell. -/
inductive DigitPairs : Bytes → Bytes → Prop where
  | done : DigitPairs [] []
  | separator {c : UInt8} {text bytes : Bytes} (hsep : isSeparator c = true)
      (htail : DigitPairs text bytes) : DigitPairs (c :: text) bytes
  | pair {c d hi lo : UInt8} {text bytes : Bytes} (hhi : hexDigit c = some hi)
      (hlo : hexDigit d = some lo) (htail : DigitPairs text bytes) :
      DigitPairs (c :: d :: text) ((16 * hi + lo) :: bytes)

/-- A digit is no separator and has its lower case as digit of its value. -/
theorem hexDigit_value (c : UInt8) :
    ∀ n ∈ hexDigit c, n < 16 ∧ isSeparator c = false ∧ hexChar n = tolower c := by
  -- one value for each byte: a bounded quantifier over `n` would try all of them
  have hall : (hexDigit c).all (fun n =>
      decide (n < 16 ∧ isSeparator c = false ∧ hexChar n = tolower c)) = true := by
    apply forall_byte (p := fun c => (hexDigit c).all (fun n =>
      decide (n < 16 ∧ isSeparator c = false ∧ hexChar n = tolower c)) = true)
    decide +kernel
  intro n hn
  rw [Option.mem_def.mp hn, Option.all_some] at hall
  exact of_decide_eq_true hall

/-- The two halves of a byte make it and come out of it. -/
theorem halves_of_byte {hi lo : UInt8} (hhi : hi < 16) (hlo : lo < 16) :
    hi <<< 4 ||| lo = 16 * hi + lo ∧ hexPair (16 * hi + lo) = [hexChar hi, hexChar lo] := by
  have hall : ∀ m n : Fin 16, UInt8.ofNat m <<< 4 ||| UInt8.ofNat n =
      16 * UInt8.ofNat m + UInt8.ofNat n ∧ hexPair (16 * UInt8.ofNat m + UInt8.ofNat n) =
        [hexChar (UInt8.ofNat m), hexChar (UInt8.ofNat n)] := by decide
  simpa using hall ⟨hi.toNat, hhi⟩ ⟨lo.toNat, hlo⟩

theorem decodeHex_separator {c : UInt8} (hsep : isSeparator c = true) (text : Bytes) (cap : ℕ) :
    decodeHex (c :: text) cap = decodeHex text cap := by
  cases text with
  | nil => simp [decodeHex, hsep]
  | cons d rest => simp [decodeHex, hsep]

theorem digitPairs_of_decodeHex {text bytes : Bytes} {cap : ℕ}
    (h : decodeHex text cap = some bytes) : DigitPairs text bytes ∧ bytes.length ≤ cap := by
  fun_induction decodeHex text cap generalizing bytes with
  | case1 =>
    obtain rfl := Option.some.inj h
    exact ⟨.done, Nat.zero_le _⟩
  | case2 c cap hsep =>
    obtain rfl := Option.some.inj h
    exact ⟨.separator hsep .done, Nat.zero_le _⟩
  | case3 => cases h
  | case4 c d rest cap hsep ih =>
    obtain ⟨hpairs, hlen⟩ := ih h
    exact ⟨.separator hsep hpairs, hlen⟩
  | case5 c d rest hsep hi lo cap hlo hhi ih =>
    obtain ⟨bytes, hrest, rfl⟩ := Option.map_eq_some_iff.mp h
    obtain ⟨hpairs, hlen⟩ := ih hrest
    have hbyte := (halves_of_byte (hexDigit_value c hi hhi).1 (hexDigit_value d lo hlo).1).1
    rw [hbyte]
    exact ⟨.pair hhi hlo hpairs, Nat.succ_le_succ hlen⟩
  | case6 => cases h

theorem decodeHex_of_digitPairs {text bytes : Bytes} (h : DigitPairs text bytes) {cap : ℕ}
    (hcap : bytes.length ≤ cap) : decodeHex text cap = some bytes := by
  induction h generalizing cap with
  | done => rfl
  | separator hsep htail ih => rw [decodeHex_separator hsep, ih hcap]
  | @pair c d hi lo text bytes hhi hlo htail ih =>
    obtain ⟨hc, hsep, _⟩ := hexDigit_value c hi hhi
    obtain ⟨n, rfl⟩ : ∃ n, cap = n + 1 := ⟨cap - 1, by rw [List.length_cons] at hcap; omega⟩
    rw [decodeHex_pair hsep hhi hlo, ih (Nat.le_of_succ_le_succ hcap), Option.map_some,
      (halves_of_byte hc (hexDigit_value d lo hlo).1).1]

/-- The digits of the bytes are those of the text, in lower case. -/
theorem hexOf_digitPairs {text bytes : Bytes} (h : DigitPairs text bytes) :
    hexOf bytes = (text.filter fun c => !isSeparator c).map tolower := by
  induction h with
  | done => rfl
  | separator hsep htail ih => rw [ih, List.filter_cons_of_neg (by simp [hsep])]
  | @pair c d hi lo text bytes hhi hlo htail ih =>
    obtain ⟨hhi16, hc, hcharc⟩ := hexDigit_value c hi hhi
    obtain ⟨hlo16, hd, hchard⟩ := hexDigit_value d lo hlo
    rw [List.filter_cons_of_pos (by simp [hc]), List.filter_cons_of_pos (by simp [hd])]
    show hexPair (16 * hi + lo) ++ hexOf bytes = _
    rw [(halves_of_byte hhi16 hlo16).2, ih, hcharc, hchard]
    rfl

end Grammar

section Codec

/-- A text with its terminator in memory, read as far as `outCap` bytes. -/
structure ScannedExactly (text : Bytes) (outCap : ℕ) : Prop where
  /-- No read behind the terminator, not even where it is the last byte there is. -/
  inside : ∀ beyond, decodeHexAt outCap (text ++ 0 :: beyond) [] ≠ .overrun
  accepted : ∀ beyond bytes, decodeHexAt outCap (text ++ 0 :: beyond) [] = .decoded bytes ↔
    DigitPairs text bytes ∧ bytes.length ≤ outCap
  /-- What was decoded is written as the text in lower case without separators. -/
  rewritten : ∀ beyond bytes outSz, decodeHexAt outCap (text ++ 0 :: beyond) [] = .decoded bytes →
    2 * bytes.length < outSz →
      bytesToHex bytes outSz = (text.filter fun c => !isSeparator c).map tolower

theorem bytesToHex_whole {bytes : Bytes} {outSz : ℕ} (h : 2 * bytes.length < outSz) :
    bytesToHex bytes outSz = hexOf bytes := by
  rw [bytesToHex_eq, List.take_of_length_le (by omega)]

theorem decodeHexAt_decoded_iff {text : Bytes} (htext : 0 ∉ text) (beyond : Bytes) (outCap : ℕ)
    (bytes : Bytes) :
    decodeHexAt outCap (text ++ 0 :: beyond) [] = .decoded bytes ↔
      DigitPairs text bytes ∧ bytes.length ≤ outCap := by
  rw [decodeHexAt_eq text beyond outCap [] htext]
  have hdecoded : endedWith [] (decodeHex text outCap) = .decoded bytes ↔
      decodeHex text outCap = some bytes := by
    cases decodeHex text outCap with
    | none => simp [endedWith]
    | some bytes' => simp [endedWith]
  exact hdecoded.trans
    ⟨digitPairs_of_decodeHex, fun h => decodeHex_of_digitPairs h.1 h.2⟩

theorem scannedExactly {text : Bytes} (htext : 0 ∉ text) (outCap : ℕ) :
    ScannedExactly text outCap where
  inside beyond := by
    rw [decodeHexAt_eq text beyond outCap [] htext]
    cases decodeHex text (outCap - 0) <;> nofun
  accepted beyond := decodeHexAt_decoded_iff htext beyond outCap
  rewritten beyond bytes outSz hdecoded hroom := by
    obtain ⟨hpairs, _⟩ := (decodeHexAt_decoded_iff htext beyond outCap bytes).mp hdecoded
    rw [bytesToHex_whole hroom, hexOf_digitPairs hpairs]

theorem hexPair_no_nul (b : UInt8) : ∀ c ∈ hexPair b, c ≠ 0 := by
  apply forall_byte (p := fun b => ∀ c ∈ hexPair b, c ≠ 0)
  decide +kernel

theorem hexOf_no_nul (bytes : Bytes) : 0 ∉ hexOf bytes := by
  intro hmem
  obtain ⟨b, _, hb⟩ := List.mem_flatMap.mp hmem
  exact hexPair_no_nul b 0 hb rfl

/-- What `bytes_to_hex` wrote in full is read back. -/
theorem decodeHexAt_bytesToHex (outCap : ℕ) (beyond bytes : Bytes) {outSz : ℕ}
    (hroom : 2 * bytes.length < outSz) (hcap : bytes.length ≤ outCap) :
    decodeHexAt outCap (bytesToHex bytes outSz ++ 0 :: beyond) [] = .decoded bytes := by
  rw [bytesToHex_whole hroom, decodeHexAt_eq _ beyond outCap [] (hexOf_no_nul bytes),
    List.length_nil, Nat.sub_zero, decodeHex_hexOf bytes hcap]
  rfl

/-- Reading and writing hex are inverse up to separators and case, over every
text and capacity. -/
theorem hexText_exact {text : Bytes} (htext : 0 ∉ text) (outCap : ℕ) :
    ScannedExactly text outCap ∧
      ∀ beyond bytes outSz, 2 * bytes.length < outSz → bytes.length ≤ outCap →
        decodeHexAt outCap (bytesToHex bytes outSz ++ 0 :: beyond) [] = .decoded bytes :=
  ⟨scannedExactly htext outCap, fun beyond bytes _ => decodeHexAt_bytesToHex outCap beyond bytes⟩

theorem fingerprint_exact :
    decodeHexAt 2 (lit "-0A: fF" ++ [0]) [] = .decoded [10, 255] ∧
      bytesToHex [10, 255] 5 = lit "0aff" := by
  obtain ⟨hscanned, _⟩ := hexText_exact (show (0 : UInt8) ∉ lit "-0A: fF" by decide) 2
  have h0 : hexDigit 48 = some 0 := by decide
  have hA : hexDigit 65 = some 10 := by decide
  have hf : hexDigit 102 = some 15 := by decide
  have hF : hexDigit 70 = some 15 := by decide
  have hpairs : DigitPairs (lit "-0A: fF") [10, 255] :=
    .separator (by decide) (.pair h0 hA
      (.separator (by decide) (.separator (by decide) (.pair hf hF .done))))
  have hdecoded := (hscanned.accepted [] [10, 255]).mpr ⟨hpairs, by decide⟩
  exact ⟨hdecoded, hscanned.rewritten [] _ 5 hdecoded (by decide)⟩

end Codec

end Ucisdk.HexScanner
