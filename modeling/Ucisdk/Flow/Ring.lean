import Mathlib.Algebra.Ring.Nat
import Mathlib.Data.Fin.Basic
import Mathlib.Data.List.Basic

/-!
# Ring buffers

A ring of `n` places keeps the place of its oldest item, the place behind its
newest and their number. What it holds is the list read off from the oldest
on; the other places keep stale items.
-/

set_option autoImplicit false

namespace Flow

structure Ring (n : ℕ) (α : Type) where
  items : Fin n → α
  head : ℕ
  tail : ℕ
  count : ℕ

variable {n : ℕ} {α : Type}

structure Ring.Valid (r : Ring n α) : Prop where
  head : r.head < n
  tail : r.tail = (r.head + r.count) % n
  count : r.count ≤ n

/-- The item in a place; places repeat with the size. -/
def Ring.item [NeZero n] (r : Ring n α) (i : ℕ) : α := r.items (Fin.ofNat n i)

def Ring.contents [NeZero n] (r : Ring n α) : List α :=
  (List.range r.count).map fun i => r.item (r.head + i)

variable [NeZero n]

def Ring.push (r : Ring n α) (a : α) : Ring n α where
  items := Function.update r.items (Fin.ofNat n r.tail) a
  head := r.head
  tail := (r.tail + 1) % n
  count := r.count + 1

def Ring.pop (r : Ring n α) : α × Ring n α :=
  (r.item r.head,
    { items := r.items
      head := (r.head + 1) % n
      tail := r.tail
      count := r.count - 1 })

theorem Ring.item_mod (r : Ring n α) (i : ℕ) : r.item (i % n) = r.item i := by
  simp [Ring.item, Fin.ofNat]

theorem Ring.contents_length (r : Ring n α) : r.contents.length = r.count := by
  simp [Ring.contents]

variable {r : Ring n α}

theorem Ring.contents_empty (h : r.count = 0) : r.contents = [] := by
  apply List.eq_nil_of_length_eq_zero
  rw [contents_length, h]

theorem Ring.push_valid (h : r.Valid) (hroom : r.count < n) (a : α) : (r.push a).Valid := by
  constructor
  · exact h.head
  · show (r.tail + 1) % n = (r.head + (r.count + 1)) % n
    rw [h.tail, Nat.mod_add_mod, Nat.add_assoc]
  · exact hroom

theorem Ring.pop_valid (h : r.Valid) (hsome : 0 < r.count) : r.pop.2.Valid := by
  have hle := h.count
  constructor
  · exact Nat.mod_lt _ (Nat.pos_of_neZero n)
  · show r.tail = ((r.head + 1) % n + (r.count - 1)) % n
    rw [h.tail, Nat.mod_add_mod]
    congr 1
    omega
  · show r.count - 1 ≤ n
    omega

/-- A push overwrites a stale place: two offsets below the size name two places. -/
theorem Ring.push_item (h : r.Valid) (hroom : r.count < n) (a : α) {i : ℕ} (hi : i < r.count) :
    (r.push a).item (r.head + i) = r.item (r.head + i) := by
  have hne : Fin.ofNat n (r.head + i) ≠ Fin.ofNat n r.tail := by
    intro heq
    have hval := congrArg Fin.val heq
    simp only [Fin.val_ofNat, h.tail, Nat.mod_mod] at hval
    have hmod : (r.head + i) % n = (r.head + r.count) % n := hval
    have hdvd := Nat.dvd_of_mod_eq_zero (Nat.sub_mod_eq_zero_of_mod_eq hmod.symm)
    have hbig := Nat.le_of_dvd (by omega) hdvd
    omega
  show Function.update r.items (Fin.ofNat n r.tail) a (Fin.ofNat n (r.head + i)) = _
  rw [Function.update_of_ne hne]
  rfl

/-- A push adds its item behind the others. -/
theorem Ring.push_contents (h : r.Valid) (hroom : r.count < n) (a : α) :
    (r.push a).contents = r.contents ++ [a] := by
  have hlast : (r.push a).item (r.head + r.count) = a := by
    rw [← item_mod, ← h.tail]
    show Function.update r.items (Fin.ofNat n r.tail) a (Fin.ofNat n r.tail) = a
    rw [Function.update_self]
  show (List.range (r.count + 1)).map (fun i => (r.push a).item (r.head + i)) = _
  rw [List.range_succ, List.map_append, List.map_singleton, hlast, Ring.contents]
  congr 1
  apply List.map_congr_left
  intro i hi
  exact push_item h hroom a (List.mem_range.mp hi)

/-- A pop takes the oldest item and leaves the others in order. -/
theorem Ring.pop_contents (hsome : 0 < r.count) : r.contents = r.pop.1 :: r.pop.2.contents := by
  obtain ⟨k, hk⟩ : ∃ k, r.count = k + 1 := ⟨r.count - 1, by omega⟩
  have hrest : r.pop.2.contents = (List.range k).map fun i => r.item (r.head + 1 + i) := by
    show (List.range (r.count - 1)).map (fun i => r.item ((r.head + 1) % n + i)) = _
    rw [hk, Nat.add_sub_cancel]
    apply List.map_congr_left
    intro i _
    rw [← item_mod, Nat.mod_add_mod, item_mod]
  rw [hrest, Ring.contents, hk, List.range_succ_eq_map, List.map_cons, List.map_map]
  show r.item (r.head + 0) :: _ = r.item r.head :: _
  rw [Nat.add_zero]
  congr 1
  apply List.map_congr_left
  intro i _
  show r.item (r.head + (i + 1)) = r.item (r.head + 1 + i)
  congr 1
  omega

section Alike

variable {R : α → α → Prop} {r' : Ring n α}

/-- Two rings that stand alike, with related items in every place. -/
structure Ring.Alike (R : α → α → Prop) (r r' : Ring n α) : Prop where
  items : ∀ i, R (r.items i) (r'.items i)
  head : r'.head = r.head
  tail : r'.tail = r.tail
  count : r'.count = r.count

theorem Ring.push_alike (h : Ring.Alike R r r') {a a' : α} (ha : R a a') :
    Ring.Alike R (r.push a) (r'.push a') := by
  constructor
  · intro i
    show R (Function.update r.items (Fin.ofNat n r.tail) a i)
      (Function.update r'.items (Fin.ofNat n r'.tail) a' i)
    rw [h.tail]
    by_cases hi : i = Fin.ofNat n r.tail
    · rw [hi, Function.update_self, Function.update_self]
      exact ha
    · rw [Function.update_of_ne hi, Function.update_of_ne hi]
      exact h.items i
  · exact h.head
  · show (r'.tail + 1) % n = (r.tail + 1) % n
    rw [h.tail]
  · show r'.count + 1 = r.count + 1
    rw [h.count]

theorem Ring.pop_alike (h : Ring.Alike R r r') :
    R r.pop.1 r'.pop.1 ∧ Ring.Alike R r.pop.2 r'.pop.2 := by
  constructor
  · show R (r.items (Fin.ofNat n r.head)) (r'.items (Fin.ofNat n r'.head))
    rw [h.head]
    exact h.items _
  · constructor
    · exact h.items
    · show (r'.head + 1) % n = (r.head + 1) % n
      rw [h.head]
    · exact h.tail
    · show r'.count - 1 = r.count - 1
      rw [h.count]

end Alike

end Flow
