import Mathlib.Algebra.Ring.Nat
import Mathlib.Data.List.Basic

/-!
# C strings

A C string is the list of its bytes in front of the terminating NUL. A
character array carries the bound of its capacity, so a value that does not
fit cannot be built; every write through snprintf or strncat cuts its text.
-/

set_option autoImplicit false

namespace Ucisdk.CString

abbrev Bytes := List UInt8

/-- The bytes of a literal. -/
def lit (s : String) : Bytes := s.toByteArray.data.toList

theorem lit_eq_nil_iff (s : String) : lit s = [] ↔ s = "" := by
  rw [← String.utf8ByteSize_eq_zero_iff, ← String.size_toByteArray, lit, Array.toList_eq_nil_iff,
    ← Array.size_eq_zero_iff]
  rfl

/-- A property of all bytes of a text is decided byte by byte. -/
instance (priority := high) decidableBytes (p : UInt8 → Prop) [DecidablePred p] (s : Bytes) :
    Decidable (∀ c ∈ s, p c) :=
  List.decidableBAll p s

/-- A property of every byte is checked on the 256 of them. -/
theorem forall_byte {p : UInt8 → Prop} (h : ∀ n : Fin 256, p (UInt8.ofNat n)) (c : UInt8) : p c := by
  have hc := h ⟨c.toNat, c.toNat_lt⟩
  simpa using hc

section Capacities

instance (priority := high) neZero64 : NeZero 64 := ⟨by decide⟩
instance (priority := high) neZero160 : NeZero 160 := ⟨by decide⟩
instance (priority := high) neZero256 : NeZero 256 := ⟨by decide⟩
instance (priority := high) neZero512 : NeZero 512 := ⟨by decide⟩
instance (priority := high) neZero1024 : NeZero 1024 := ⟨by decide⟩
instance (priority := high) neZero2048 : NeZero 2048 := ⟨by decide⟩

end Capacities

structure CStr (cap : ℕ) where
  bytes : Bytes
  fits : bytes.length < cap
  deriving DecidableEq

@[ext]
theorem CStr.ext {cap : ℕ} {s t : CStr cap} (h : s.bytes = t.bytes) : s = t := by
  cases s
  cases t
  subst h
  rfl

section Array

variable {cap : ℕ} [NeZero cap]

/-- `snprintf(out, cap, "%s", text)`. -/
def store (cap : ℕ) [NeZero cap] (text : Bytes) : CStr cap where
  bytes := text.take (cap - 1)
  fits := by
    have hcap := Nat.pos_of_neZero cap
    rw [List.length_take]
    omega

def empty : CStr cap := store cap []

/-- `strncat(dst, text, cap - strlen(dst) - 1)`. -/
def append (dst : CStr cap) (text : Bytes) : CStr cap := store cap (dst.bytes ++ text)

@[simp] theorem store_bytes (text : Bytes) : (store cap text).bytes = text.take (cap - 1) := rfl

@[simp] theorem empty_bytes : (empty : CStr cap).bytes = [] := by
  simp [empty]

theorem store_fits {text : Bytes} (h : text.length < cap) : (store cap text).bytes = text := by
  rw [store_bytes, List.take_of_length_le]
  omega

theorem store_ne_nil (hcap : 1 < cap) {text : Bytes} (h : text ≠ []) :
    (store cap text).bytes ≠ [] := by
  rw [store_bytes, ne_eq, List.take_eq_nil_iff, not_or]
  constructor
  · omega
  · exact h

theorem store_bytes_eq_iff (text : Bytes) : (store cap text).bytes = text ↔ text.length < cap := by
  refine ⟨fun h => ?_, store_fits⟩
  rw [← h]
  exact (store cap text).fits

@[simp] theorem store_self (s : CStr cap) : (store cap s.bytes).bytes = s.bytes := store_fits s.fits

@[simp] theorem store_bytes_self (s : CStr cap) : store cap s.bytes = s :=
  CStr.ext (store_self s)

end Array

/-- The white space of the C locale. -/
def isspace (c : UInt8) : Bool := c == 32 || (9 ≤ c && c ≤ 13)

def tolower (c : UInt8) : UInt8 := if 65 ≤ c && c ≤ 90 then c + 32 else c

/-- The text of `%lu`. -/
def decimal (n : ℕ) : Bytes := (Nat.toDigits 10 n).map fun c => UInt8.ofNat c.toNat

/-- The text of `%lx`. -/
def hexadecimal (n : ℕ) : Bytes := (Nat.toDigits 16 n).map fun c => UInt8.ofNat c.toNat

theorem decimal_length {n k : ℕ} (hk : 0 < k) (h : n < 10 ^ k) : (decimal n).length ≤ k := by
  rw [decimal, List.length_map]
  exact (Nat.length_toDigits_le_iff (by omega) hk).mpr h

theorem hexadecimal_length {n k : ℕ} (hk : 0 < k) (h : n < 16 ^ k) :
    (hexadecimal n).length ≤ k := by
  rw [hexadecimal, List.length_map]
  exact (Nat.length_toDigits_le_iff (by omega) hk).mpr h

end Ucisdk.CString
