import Mathlib.Logic.Relation
import Mathlib.Order.WellFounded

/-!
# Progress by a helper

An endless run of parties that take turns or rest. What holds until a goal is
reached leads to the goal, if one party can always go on by it, no step takes
the rank up, and each step of that party takes it down.
-/

set_option autoImplicit false

namespace Flow.Progress

open Relation

variable {S : Type*} {step moved : S → S → Prop} {Holds Goal : S → Prop} {rank : S → ℕ}
  {run : ℕ → S}

/-- Each state of the run is the one before, or a step away from it. -/
def Goes (step : S → S → Prop) (run : ℕ → S) : Prop :=
  ∀ n, run (n + 1) = run n ∨ step (run n) (run (n + 1))

/-- The party can go on. -/
def Able (step moved : S → S → Prop) (s : S) : Prop := ∃ t, step s t ∧ moved s t

/-- A party that can go on from some point of the run for ever does so. -/
def Fair (step moved : S → S → Prop) (run : ℕ → S) : Prop :=
  ∀ n, (∀ m, n ≤ m → Able step moved (run m)) → ∃ m, n ≤ m ∧ moved (run m) (run (m + 1))

/-- What holds, the party that helps by its moves and the rank it takes down. -/
structure Leads (step moved : S → S → Prop) (Holds Goal : S → Prop) (rank : S → ℕ) : Prop where
  able : ∀ s, Holds s → Able step moved s
  kept : ∀ s t, Holds s → step s t →
    Goal t ∨ (Holds t ∧ rank t ≤ rank s ∧ (moved s t → rank t < rank s))
  moves : ∀ s, ¬moved s s

theorem goes_run (h : Goes step run) (n : ℕ) : ReflTransGen step (run 0) (run n) := by
  induction n with
  | zero => exact .refl
  | succ n ih =>
    rcases h n with hsame | hstep
    · rw [hsame]
      exact ih
    · exact ih.tail hstep

/-- Until the goal is reached what holds is kept, and the rank does not grow. -/
theorem leads_kept (h : Leads step moved Holds Goal rank) (hgoes : Goes step run) {n : ℕ}
    (hholds : Holds (run n)) (hgoal : ∀ m, n ≤ m → ¬Goal (run m)) {m : ℕ} (hm : n ≤ m) :
    Holds (run m) ∧ rank (run m) ≤ rank (run n) := by
  induction m, hm using Nat.le_induction with
  | base => exact ⟨hholds, le_rfl⟩
  | succ m hm ih =>
    rcases hgoes m with hsame | hstep
    · rw [hsame]
      exact ih
    · have hkept := (h.kept _ _ ih.1 hstep).resolve_left (hgoal (m + 1) (by omega))
      exact ⟨hkept.1, hkept.2.1.trans ih.2⟩

theorem leads_goal (h : Leads step moved Holds Goal rank) (hgoes : Goes step run)
    (hfair : Fair step moved run) {n : ℕ} (hholds : Holds (run n)) :
    ∃ m, n ≤ m ∧ Goal (run m) := by
  induction hrank : rank (run n) using Nat.strong_induction_on generalizing n with
  | _ r ih =>
    by_contra hnever
    have hgoal : ∀ m, n ≤ m → ¬Goal (run m) := fun m hm hg => hnever ⟨m, hm, hg⟩
    have hkept {m : ℕ} (hm : n ≤ m) := leads_kept h hgoes hholds hgoal hm
    obtain ⟨m, hm, hmoved⟩ := hfair n fun m hm => h.able _ (hkept hm).1
    obtain ⟨hthere, hle⟩ := hkept hm
    have hstep : step (run m) (run (m + 1)) := by
      rcases hgoes m with hsame | hstep
      · rw [hsame] at hmoved
        exact absurd hmoved (h.moves _)
      · exact hstep
    have hnext := (h.kept _ _ hthere hstep).resolve_left (hgoal (m + 1) (by omega))
    have hlt : rank (run (m + 1)) < r := by
      have hfalls := hnext.2.2 hmoved
      omega
    obtain ⟨m', hm', hg⟩ := ih _ hlt hnext.1 rfl
    exact hgoal m' (by omega) hg

/-- What a step keeps is kept from some point of the run on. -/
theorem kept_on {P : S → Prop} (hkept : ∀ s t, P s → step s t → P t) (hgoes : Goes step run)
    {n : ℕ} (h : P (run n)) {m : ℕ} (hm : n ≤ m) : P (run m) := by
  induction m, hm using Nat.le_induction with
  | base => exact h
  | succ m hm ih =>
    rcases hgoes m with hsame | hstep
    · rw [hsame]
      exact ih
    · exact hkept _ _ ih hstep

/-- A finite run may go on for ever by resting. -/
theorem rests_run {s t : S} (h : ReflTransGen step s t) :
    ∃ run : ℕ → S, run 0 = s ∧ Goes step run ∧ ∃ n, ∀ m, n ≤ m → run m = t := by
  induction h using ReflTransGen.head_induction_on with
  | refl => exact ⟨fun _ => t, rfl, fun _ => .inl rfl, 0, fun _ _ => rfl⟩
  | @head s u hstep _ ih =>
    obtain ⟨run, hstart, hgoes, n, hrests⟩ := ih
    refine ⟨fun i => Nat.casesOn i s run, rfl, ?_, n + 1, ?_⟩
    · intro i
      cases i with
      | zero =>
        subst hstart
        exact .inr hstep
      | succ i => exact hgoes i
    · intro m hm
      obtain ⟨m, rfl⟩ : ∃ m', m = m' + 1 := ⟨m - 1, by omega⟩
      exact hrests m (by omega)

end Flow.Progress
