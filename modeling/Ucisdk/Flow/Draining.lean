import Mathlib.Algebra.BigOperators.Group.Finset.Basic
import Mathlib.Logic.Relation
import Mathlib.Order.WellFounded

/-!
# Work that is drained

A system whose steps take from a finite amount of work, or change nothing,
moves only so often. Where some step moves as long as the work is not over,
every run that does not rest for ever comes to the end of it.
-/

set_option autoImplicit false

namespace Flow.Draining

open Relation

variable {S : Type*} {step : S → S → Prop} {Inv Final : S → Prop} {work : S → ℕ}

/-- A run that moves the state so many times; steps that change nothing do
not count. -/
inductive Moves (step : S → S → Prop) : ℕ → S → S → Prop
  | refl (s : S) : Moves step 0 s s
  | move {n : ℕ} {s t u : S} (h : Moves step n s t) (hstep : step t u) (hne : u ≠ t) :
      Moves step (n + 1) s u

structure Drains (step : S → S → Prop) (Inv Final : S → Prop) (work : S → ℕ) : Prop where
  kept : ∀ s t, Inv s → step s t → Inv t
  falls : ∀ s t, Inv s → step s t → t = s ∨ work t < work s
  goes : ∀ s, Inv s → ¬Final s → ∃ t, step s t ∧ work t < work s

theorem moves_bounded (h : Drains step Inv Final work) {n : ℕ} {s t : S} (hs : Inv s)
    (hmoves : Moves step n s t) : Inv t ∧ n + work t ≤ work s := by
  induction hmoves with
  | refl s => exact ⟨hs, by omega⟩
  | move _ hstep hne ih =>
    obtain ⟨ht, hle⟩ := ih hs
    refine ⟨h.kept _ _ ht hstep, ?_⟩
    have hlt := (h.falls _ _ ht hstep).resolve_left hne
    omega

/-- From every state some run comes to the end. -/
theorem drains_final (h : Drains step Inv Final work) {s : S} (hs : Inv s) :
    ∃ t, ReflTransGen step s t ∧ Inv t ∧ Final t := by
  induction hn : work s using Nat.strong_induction_on generalizing s with
  | _ n ih =>
    by_cases hfinal : Final s
    · exact ⟨s, .refl, hs, hfinal⟩
    · obtain ⟨t, hstep, hlt⟩ := h.goes s hs hfinal
      obtain ⟨u, hrun, hu⟩ := ih (work t) (hn ▸ hlt) (h.kept _ _ hs hstep) rfl
      exact ⟨u, .head hstep hrun, hu⟩

section Infinite

variable {run : ℕ → S}

theorem run_kept (h : Drains step Inv Final work) (hstart : Inv (run 0))
    (hrun : ∀ n, step (run n) (run (n + 1))) (n : ℕ) : Inv (run n) := by
  induction n with
  | zero => exact hstart
  | succ n ih => exact h.kept _ _ ih (hrun n)

/-- A run comes to a state that it does not leave any more. -/
theorem run_rests (h : Drains step Inv Final work) (hstart : Inv (run 0))
    (hrun : ∀ n, step (run n) (run (n + 1))) : ∃ n, ∀ m, n ≤ m → run m = run n := by
  obtain ⟨_, ⟨n, rfl⟩, hleast⟩ :=
    wellFounded_lt.has_min (Set.range fun n => work (run n)) ⟨_, 0, rfl⟩
  refine ⟨n, fun m hm => ?_⟩
  induction m, hm using Nat.le_induction with
  | base => rfl
  | succ m hm ih =>
    rcases h.falls _ _ (run_kept h hstart hrun m) (hrun m) with hsame | hlt
    · exact hsame.trans ih
    · rw [ih] at hlt
      exact absurd hlt (hleast _ ⟨m + 1, rfl⟩)

/-- A run that moves again whenever some step can comes to the end and stays. -/
theorem fair_run_final (h : Drains step Inv Final work) (hstart : Inv (run 0))
    (hrun : ∀ n, step (run n) (run (n + 1)))
    (hfair : ∀ n, (∃ t, step (run n) t ∧ t ≠ run n) → ∃ m, n ≤ m ∧ run (m + 1) ≠ run m) :
    ∃ n, Inv (run n) ∧ Final (run n) ∧ ∀ m, n ≤ m → run m = run n := by
  obtain ⟨n, hrests⟩ := run_rests h hstart hrun
  have hinv := run_kept h hstart hrun n
  refine ⟨n, hinv, ?_, hrests⟩
  by_contra hfinal
  obtain ⟨t, hstep, hlt⟩ := h.goes _ hinv hfinal
  have hne : t ≠ run n := by
    rintro rfl
    exact absurd hlt (lt_irrefl _)
  obtain ⟨m, hm, hmoves⟩ := hfair n ⟨t, hstep, hne⟩
  apply hmoves
  rw [hrests m hm, hrests (m + 1) (by omega)]

end Infinite

section Sums

variable {κ : Type*} [Fintype κ] [DecidableEq κ]

/-- One party's share of the work changes. -/
theorem sum_moved (before after : κ → ℕ) {k : κ} (h : ∀ k', k' ≠ k → after k' = before k') :
    (∑ k, after k) + before k = (∑ k, before k) + after k := by
  have hrest : ∑ k' ∈ Finset.univ.erase k, after k' = ∑ k' ∈ Finset.univ.erase k, before k' :=
    Finset.sum_congr rfl fun k' hk' => h k' (Finset.ne_of_mem_erase hk')
  have hafter := Finset.add_sum_erase Finset.univ after (Finset.mem_univ k)
  have hbefore := Finset.add_sum_erase Finset.univ before (Finset.mem_univ k)
  omega

end Sums

end Flow.Draining
