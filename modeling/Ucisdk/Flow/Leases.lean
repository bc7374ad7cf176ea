import Mathlib.Data.Finset.Card
import Mathlib.Data.Fintype.Defs
import Mathlib.Logic.Relation

/-!
# Leases on slots

Finitely many callers hold at most one slot each. The number of holders of a
slot moves by one with each lease and each return, whatever the order in
which the callers take turns.
-/

set_option autoImplicit false

namespace Flow.Leases

variable {κ ι : Type*} [Fintype κ] [DecidableEq ι]

def holders (held : κ → Option ι) (i : ι) : ℕ :=
  (Finset.univ.filter fun k => held k = some i).card

theorem holders_idle (held : κ → Option ι) (h : ∀ k, held k = none) (i : ι) :
    holders held i = 0 := by
  simp [holders, h]

theorem holders_pos {held : κ → Option ι} {k : κ} {i : ι} (h : held k = some i) :
    0 < holders held i := by
  rw [holders, Finset.card_pos]
  exact ⟨k, by simp [h]⟩

variable [DecidableEq κ]

/-- A lease adds one holder to its slot and to no other. -/
theorem holders_take {held : κ → Option ι} {k : κ} (h : held k = none) (i j : ι) :
    holders (Function.update held k (some i)) j = holders held j + if j = i then 1 else 0 := by
  by_cases hj : j = i
  · subst hj
    have hset : (Finset.univ.filter fun k' => Function.update held k (some j) k' = some j) =
        insert k (Finset.univ.filter fun k' => held k' = some j) := by
      ext k'
      by_cases hk : k' = k
      · simp [hk]
      · simp [hk]
    rw [holders, hset, Finset.card_insert_of_notMem (by simp [h]), holders, if_pos rfl]
  · have hset : (Finset.univ.filter fun k' => Function.update held k (some i) k' = some j) =
        Finset.univ.filter fun k' => held k' = some j := by
      ext k'
      by_cases hk : k' = k
      · subst hk
        simp [h, Ne.symm hj]
      · simp [hk]
    rw [holders, hset, holders, if_neg hj, Nat.add_zero]

/-- A return takes one holder from its slot and from no other. -/
theorem holders_give {held : κ → Option ι} {k : κ} {i : ι} (h : held k = some i) (j : ι) :
    holders held j = holders (Function.update held k none) j + if j = i then 1 else 0 := by
  have hback : Function.update (Function.update held k none) k (some i) = held := by
    rw [Function.update_idem, ← h, Function.update_eq_self]
  have htake := holders_take (Function.update_self k none held) i j
  rw [hback] at htake
  exact htake

/-- An invariant of every step is an invariant of every run. -/
theorem run_invariant {S : Type*} {step : S → S → Prop} {Inv : S → Prop}
    (hstep : ∀ s t, Inv s → step s t → Inv t) {s t : S} (hs : Inv s)
    (hrun : Relation.ReflTransGen step s t) : Inv t := by
  induction hrun with
  | refl => exact hs
  | tail _ hlast ih => exact hstep _ _ ih hlast

end Flow.Leases
