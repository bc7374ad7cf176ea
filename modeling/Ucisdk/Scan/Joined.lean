import Mathlib.Data.List.Basic

/-!
# Joining under a bound

Texts are put behind each other with a separator between two that are not
empty, and what grows beyond the bound is cut. Cutting early and cutting late
come to the same, so the join is associative.
-/

set_option autoImplicit false

namespace Scan.Joined

variable {α : Type*}

section Cuts

theorem take_append_left (n : ℕ) (x y : List α) : (x.take n ++ y).take n = (x ++ y).take n := by
  rw [List.take_append, List.take_append, List.take_take, Nat.min_self, List.length_take]
  congr 2
  omega

theorem take_append_right (n : ℕ) (x y : List α) : (x ++ y.take n).take n = (x ++ y).take n := by
  rw [List.take_append, List.take_append, List.take_take, Nat.min_eq_left]
  exact Nat.sub_le n x.length

theorem take_ne_nil {n : ℕ} (hn : 0 < n) {x : List α} (hx : x ≠ []) : x.take n ≠ [] := by
  intro h
  rcases List.take_eq_nil_iff.mp h with h | h
  · omega
  · exact hx h

end Cuts

def joined (n : ℕ) (sep a b : List α) : List α :=
  if b = [] then a
  else if a = [] then b.take n
  else (a ++ (sep ++ b)).take n

variable {n : ℕ} {sep : List α}

@[simp] theorem joined_nil (a : List α) : joined n sep a [] = a := by
  rw [joined, if_pos rfl]

theorem joined_ne_nil (hn : 0 < n) {a b : List α} (h : a ≠ [] ∨ b ≠ []) :
    joined n sep a b ≠ [] := by
  rw [joined]
  split
  · rename_i hb
    rcases h with h | h
    · exact h
    · exact absurd hb h
  · rename_i hb
    split
    · exact take_ne_nil hn hb
    · apply take_ne_nil hn
      simp [hb]

theorem joined_assoc (hn : 0 < n) (a b c : List α) :
    joined n sep (joined n sep a b) c = joined n sep a (joined n sep b c) := by
  by_cases hc : c = []
  · rw [hc, joined_nil, joined_nil]
  by_cases hb : b = []
  · rw [hb, joined_nil]
    by_cases ha : a = []
    · have hleft : joined n sep a c = c.take n := by rw [joined, if_neg hc, if_pos ha]
      have hright : joined n sep [] c = c.take n := by rw [joined, if_neg hc, if_pos rfl]
      rw [hleft, hright, joined, if_neg (take_ne_nil hn hc), if_pos ha, List.take_take, Nat.min_self]
    · have hright : joined n sep [] c = c.take n := by rw [joined, if_neg hc, if_pos rfl]
      rw [hright, joined, if_neg hc, if_neg ha, joined, if_neg (take_ne_nil hn hc), if_neg ha,
        ← List.append_assoc, ← List.append_assoc, take_append_right]
  have hbc : joined n sep b c = (b ++ (sep ++ c)).take n := by
    rw [joined, if_neg hc, if_neg hb]
  have hbcne : joined n sep b c ≠ [] := joined_ne_nil hn (Or.inl hb)
  have habne : joined n sep a b ≠ [] := joined_ne_nil hn (Or.inr hb)
  have hleft : joined n sep (joined n sep a b) c =
      (joined n sep a b ++ (sep ++ c)).take n := by
    rw [joined, if_neg hc, if_neg habne]
  by_cases ha : a = []
  · have hab : joined n sep a b = b.take n := by rw [joined, if_neg hb, if_pos ha]
    rw [hleft, hab, take_append_left, joined, if_neg hbcne, if_pos ha, hbc, List.take_take, Nat.min_self]
  · have hab : joined n sep a b = (a ++ (sep ++ b)).take n := by
      rw [joined, if_neg hb, if_neg ha]
    calc joined n sep (joined n sep a b) c
        = ((a ++ (sep ++ b)).take n ++ (sep ++ c)).take n := by rw [hleft, hab]
      _ = ((a ++ (sep ++ b)) ++ (sep ++ c)).take n := take_append_left n _ _
      _ = ((a ++ sep) ++ (b ++ (sep ++ c))).take n := by simp only [List.append_assoc]
      _ = ((a ++ sep) ++ (b ++ (sep ++ c)).take n).take n := (take_append_right n _ _).symm
      _ = joined n sep a (joined n sep b c) := by
        rw [joined, if_neg hbcne, if_neg ha, hbc, List.append_assoc]

end Scan.Joined
