import Mathlib.Data.List.Basic

/-!
# Aliases

Some values are spellings of one another and stand in one class. A function
that picks a member of each class and leaves every other value alone brings
two values together exactly when they are equal or stand in one class.
-/

set_option autoImplicit false

namespace Scan.Aliases

variable {α : Type*} {classes : List (List α)} {pick : α → α}

/-- Two spellings of the same. -/
def Alike (classes : List (List α)) (x y : α) : Prop :=
  x = y ∨ ∃ cls ∈ classes, x ∈ cls ∧ y ∈ cls

structure Picks (classes : List (List α)) (pick : α → α) : Prop where
  inside : ∀ cls ∈ classes, ∀ x ∈ cls, pick x ∈ cls
  constant : ∀ cls ∈ classes, ∀ x ∈ cls, ∀ y ∈ cls, pick x = pick y
  outside : ∀ x, (∀ cls ∈ classes, x ∉ cls) → pick x = x
  disjoint : ∀ cls ∈ classes, ∀ cls' ∈ classes, ∀ x ∈ cls, x ∈ cls' → cls = cls'

namespace Picks

theorem fixed_or_mem (h : Picks classes pick) (x : α) :
    pick x = x ∨ ∃ cls ∈ classes, x ∈ cls ∧ pick x ∈ cls := by
  by_cases hx : ∀ cls ∈ classes, x ∉ cls
  · exact .inl (h.outside x hx)
  · push Not at hx
    obtain ⟨cls, hcls, hmem⟩ := hx
    exact .inr ⟨cls, hcls, hmem, h.inside cls hcls x hmem⟩

theorem idempotent (h : Picks classes pick) (x : α) : pick (pick x) = pick x := by
  obtain hx | ⟨cls, hcls, hmem, hpick⟩ := h.fixed_or_mem x
  · rw [hx, hx]
  · exact h.constant cls hcls _ hpick x hmem

theorem eq_iff (h : Picks classes pick) (x y : α) : pick x = pick y ↔ Alike classes x y := by
  constructor
  · intro heq
    obtain hx | ⟨cls, hcls, hmem, hpick⟩ := h.fixed_or_mem x
    · obtain hy | ⟨cls', hcls', hmem', hpick'⟩ := h.fixed_or_mem y
      · exact .inl (hx.symm.trans (heq.trans hy))
      · rw [← heq, hx] at hpick'
        exact .inr ⟨cls', hcls', hpick', hmem'⟩
    · obtain hy | ⟨cls', hcls', hmem', hpick'⟩ := h.fixed_or_mem y
      · rw [heq, hy] at hpick
        exact .inr ⟨cls, hcls, hmem, hpick⟩
      · rw [← heq] at hpick'
        have hsame := h.disjoint cls hcls cls' hcls' _ hpick hpick'
        exact .inr ⟨cls, hcls, hmem, hsame ▸ hmem'⟩
  · rintro (rfl | ⟨cls, hcls, hx, hy⟩)
    · rfl
    · exact h.constant cls hcls x hx y hy

end Picks

end Scan.Aliases
