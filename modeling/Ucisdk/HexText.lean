import Ucisdk.SkfText

/-!
# Hex texts

What `bytes_to_hex` writes are the digits of as many bytes as the buffer
holds, and `decode_hex` reads these back. A text it reads has nothing in it
but digits and separators.
-/

set_option autoImplicit false

namespace Ucisdk.HexText

open Ucisdk.CString Ucisdk.Common Ucisdk.SkfText

/-- The two digits of a byte. -/
def hexPair (b : UInt8) : Bytes := [hexChar (b >>> 4 &&& 0x0f), hexChar (b &&& 0x0f)]

def hexOf (bytes : Bytes) : Bytes := bytes.flatMap hexPair

theorem hexPair_digits (b : UInt8) :
    isSeparator (hexChar (b >>> 4 &&& 0x0f)) = false ∧
      ∃ hi lo, hexDigit (hexChar (b >>> 4 &&& 0x0f)) = some hi ∧
        hexDigit (hexChar (b &&& 0x0f)) = some lo ∧ hi <<< 4 ||| lo = b := by
  revert b
  apply forall_byte
  intro n
  refine ⟨?_, UInt8.ofNat n >>> 4 &&& 0x0f, UInt8.ofNat n &&& 0x0f, ?_, ?_, ?_⟩
  all_goals
    revert n
    decide +kernel

theorem hexOf_length (bytes : Bytes) : (hexOf bytes).length = 2 * bytes.length := by
  induction bytes with
  | nil => rfl
  | cons b bytes ih =>
    show (hexPair b ++ hexOf bytes).length = _
    rw [List.length_append, ih, List.length_cons]
    show 2 + _ = _
    omega

/-- The buffer takes the digits of the bytes that fit in front of the NUL. -/
theorem hexFrom_eq (outSz : ℕ) (bytes : Bytes) (pos : ℕ) :
    hexFrom outSz bytes pos = hexOf (bytes.take ((outSz - pos - 1) / 2)) := by
  induction bytes generalizing pos with
  | nil => rw [List.take_nil]; rfl
  | cons b bytes ih =>
    rw [hexFrom]
    by_cases hroom : pos + 2 < outSz
    · have hsucc : (outSz - pos - 1) / 2 = (outSz - (pos + 2) - 1) / 2 + 1 := by omega
      rw [if_pos hroom, ih, hsucc, List.take_succ_cons]
      rfl
    · have hzero : (outSz - pos - 1) / 2 = 0 := by omega
      rw [if_neg hroom, hzero, List.take_zero]
      rfl

theorem bytesToHex_eq (bytes : Bytes) (outSz : ℕ) :
    bytesToHex bytes outSz = hexOf (bytes.take ((outSz - 1) / 2)) := hexFrom_eq outSz bytes 0

theorem decodeHex_pair {c d hi lo : UInt8} (hsep : isSeparator c = false) (hhi : hexDigit c = some hi)
    (hlo : hexDigit d = some lo) (rest : Bytes) (cap : ℕ) :
    decodeHex (c :: d :: rest) (cap + 1) =
      (decodeHex rest cap).map ((hi <<< 4 ||| lo) :: ·) := by
  simp [decodeHex, hsep, hhi, hlo]

theorem decodeHex_hexOf (bytes : Bytes) {cap : ℕ} (h : bytes.length ≤ cap) :
    decodeHex (hexOf bytes) cap = some bytes := by
  induction bytes generalizing cap with
  | nil => rfl
  | cons b bytes ih =>
    obtain ⟨hsep, hi, lo, hhi, hlo, hb⟩ := hexPair_digits b
    obtain ⟨n, rfl⟩ : ∃ n, cap = n + 1 := ⟨cap - 1, by rw [List.length_cons] at h; omega⟩
    have hrest := ih (Nat.le_of_succ_le_succ h)
    show decodeHex (_ :: _ :: hexOf bytes) (n + 1) = _
    rw [decodeHex_pair hsep hhi hlo, hrest, Option.map_some, hb]

/-- A text that is decoded consists of digits and separators. -/
theorem decodeHex_alphabet {text out : Bytes} {cap : ℕ} (h : decodeHex text cap = some out) :
    ∀ c ∈ text, isSeparator c = true ∨ hexDigit c ≠ none := by
  fun_induction decodeHex text cap generalizing out with
  | case1 => simp
  | case2 c cap hsep =>
    intro c' hc
    left
    rw [List.mem_singleton.mp hc]
    exact hsep
  | case3 => simp at h
  | case4 c d rest cap hsep ih =>
    intro c' hc
    cases List.mem_cons.mp hc with
    | inl hhead => exact .inl (hhead ▸ hsep)
    | inr hmem => exact ih h c' hmem
  | case5 c d rest hsep hi lo cap hlo hhi ih =>
    obtain ⟨out', hout, _⟩ := Option.map_eq_some_iff.mp h
    intro c' hc
    rw [List.mem_cons, List.mem_cons] at hc
    obtain hhead | hhead | hmem := hc
    · right
      rw [hhead, hhi]
      simp
    · right
      rw [hhead, hlo]
      simp
    · exact ih hout c' hmem
  | case6 => simp at h

theorem paren_not_mem {text out : Bytes} {cap : ℕ} (h : decodeHex text cap = some out) :
    (41 : UInt8) ∉ text := by
  intro hmem
  cases decodeHex_alphabet h 41 hmem with
  | inl hsep => exact absurd hsep (by decide)
  | inr hdigit => exact hdigit (by decide)

/-- Two texts that end in front of the first parenthesis are the same. -/
theorem until_paren {x y a b : Bytes} (hx : (41 : UInt8) ∉ x) (hy : (41 : UInt8) ∉ y)
    (h : x ++ 41 :: a = y ++ 41 :: b) : x = y ∧ a = b := by
  induction x generalizing y with
  | nil =>
    cases y with
    | nil => exact ⟨rfl, (List.cons.inj h).2⟩
    | cons d y => exact absurd (by rw [(List.cons.inj h).1]; simp) hy
  | cons c x ih =>
    cases y with
    | nil => exact absurd (by rw [← (List.cons.inj h).1]; simp) hx
    | cons d y =>
      obtain ⟨hhead, htail⟩ := List.cons.inj h
      have hrest := ih (fun hmem => hx (List.mem_cons_of_mem _ hmem))
        (fun hmem => hy (List.mem_cons_of_mem _ hmem)) htail
      exact ⟨by rw [hhead, hrest.1], hrest.2⟩

/-- What a hex buffer holds decodes to the whole value only where it fits. -/
theorem decodeHex_bytesToHex_iff (bytes : Bytes) (outSz : ℕ) :
    decodeHex (bytesToHex bytes outSz) bytes.length = some bytes ↔
      bytes.length ≤ (outSz - 1) / 2 := by
  rw [bytesToHex_eq, decodeHex_hexOf _ (List.length_take_le' _ _), Option.some.injEq]
  constructor
  · intro h
    rw [← h]
    exact List.length_take_le _ _
  · exact List.take_of_length_le

end Ucisdk.HexText
