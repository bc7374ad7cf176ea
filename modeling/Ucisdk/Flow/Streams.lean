import Mathlib.Data.List.Basic
import Mathlib.Data.List.Infix
import Mathlib.Algebra.Ring.Nat

/-!
# Streams written and read in pieces

A stream keeps all that was written to it and how far it was read. A writer
has lists to write one after the other, each in pieces of any size; a reader
takes pieces of any size. Whatever the pieces, what was read is the first
part of what was to be written.
-/

set_option autoImplicit false

namespace Flow.Streams

variable {α : Type}

structure Stream (α : Type) where
  written : List α
  pos : ℕ
  within : pos ≤ written.length

namespace Stream

def fresh : Stream α := ⟨[], 0, Nat.le_refl 0⟩

def consumed (s : Stream α) : List α := s.written.take s.pos

def unread (s : Stream α) : List α := s.written.drop s.pos

def put (s : Stream α) (chunk : List α) : Stream α where
  written := s.written ++ chunk
  pos := s.pos
  within := by
    rw [List.length_append]
    exact Nat.le_add_right_of_le s.within

/-- The next `n` items are read, or as many as there are. -/
def advance (s : Stream α) (n : ℕ) : Stream α where
  written := s.written
  pos := min (s.pos + n) s.written.length
  within := Nat.min_le_right _ _

/-- How often an item was moved, into the stream or out of it. -/
def moved (s : Stream α) : ℕ := s.written.length + s.pos

variable (s : Stream α)

@[simp] theorem put_written (chunk : List α) : (s.put chunk).written = s.written ++ chunk := rfl

theorem consumed_unread : s.consumed ++ s.unread = s.written := List.take_append_drop _ _

@[simp] theorem put_consumed (chunk : List α) : (s.put chunk).consumed = s.consumed :=
  List.take_append_of_le_length s.within

theorem advance_consumed (n : ℕ) : (s.advance n).consumed = s.consumed ++ s.unread.take n := by
  have hmin : s.written.take (min (s.pos + n) s.written.length) = s.written.take (s.pos + n) := by
    rw [← List.take_take, List.take_length]
  show s.written.take (min (s.pos + n) s.written.length) = _
  rw [hmin, List.take_add]
  rfl

theorem consumed_starts : s.consumed <+: s.written := List.take_prefix _ _

theorem consumed_of_unread (h : s.unread = []) : s.consumed = s.written := by
  rw [← s.consumed_unread, h, List.append_nil]

theorem moved_put (chunk : List α) : (s.put chunk).moved = s.moved + chunk.length := by
  rw [moved, moved, put_written, List.length_append]
  show _ + s.pos = _
  omega

theorem moved_advance {n : ℕ} (h : n ≤ s.unread.length) : (s.advance n).moved = s.moved + n := by
  have hwithin := s.within
  rw [unread, List.length_drop] at h
  show s.written.length + min (s.pos + n) s.written.length = s.written.length + s.pos + n
  rw [Nat.min_eq_left (by omega)]
  omega

/-- Every item is moved at most twice. -/
theorem moved_le {whole : List α} (h : s.written <+: whole) : s.moved ≤ 2 * whole.length := by
  have hlen := h.length_le
  have hwithin := s.within
  rw [moved]
  omega

end Stream

section Writer

/-- A piece of `n` items off the list in front; the writer goes on to the next
list when it has come to the end of one. -/
def writeSome (n : ℕ) : List (List α) → Option (List α × List (List α))
  | [] => none
  | list :: lists =>
    if 0 < n ∧ n ≤ list.length then
      some (list.take n, if n < list.length then list.drop n :: lists else lists)
    else none

theorem writeSome_spec {n : ℕ} {lists rest : List (List α)} {chunk : List α}
    (h : writeSome n lists = some (chunk, rest)) :
    chunk ++ rest.flatten = lists.flatten ∧ chunk.length = n ∧ 0 < n := by
  cases lists with
  | nil => cases h
  | cons list lists =>
    rw [writeSome] at h
    split at h
    · rename_i hn
      obtain ⟨hpos, hle⟩ := hn
      obtain ⟨rfl, rfl⟩ := Prod.mk.inj (Option.some.inj h)
      refine ⟨?_, List.length_take_of_le hle, hpos⟩
      by_cases hlt : n < list.length
      · rw [if_pos hlt, List.flatten_cons, List.flatten_cons, ← List.append_assoc,
          List.take_append_drop]
      · rw [if_neg hlt, List.take_of_length_le (Nat.le_of_not_lt hlt), List.flatten_cons]
    · cases h

theorem writeSome_nonempty {n : ℕ} {lists rest : List (List α)} {chunk : List α}
    (h : writeSome n lists = some (chunk, rest)) (hne : ∀ l ∈ lists, l ≠ []) :
    ∀ l ∈ rest, l ≠ [] := by
  cases lists with
  | nil => cases h
  | cons list lists =>
    rw [writeSome] at h
    split at h
    · obtain ⟨_, rfl⟩ := Prod.mk.inj (Option.some.inj h)
      intro l hl
      by_cases hlt : n < list.length
      · rw [if_pos hlt] at hl
        obtain rfl | hmem := List.mem_cons.mp hl
        · simpa using hlt
        · exact hne l (List.mem_cons_of_mem _ hmem)
      · rw [if_neg hlt] at hl
        exact hne l (List.mem_cons_of_mem _ hl)
    · cases h

/-- A writer that is not done can write. -/
theorem writeSome_one {lists : List (List α)} (h : lists ≠ []) (hne : ∀ l ∈ lists, l ≠ []) :
    (writeSome 1 lists).isSome = true := by
  obtain ⟨list, lists, rfl⟩ := List.exists_cons_of_ne_nil h
  have hlist := List.length_pos_iff.mpr (hne list List.mem_cons_self)
  rw [writeSome, if_pos ⟨Nat.one_pos, hlist⟩]
  rfl

end Writer

section Delimiter

variable {d : α} {body start : List α}

/-- A first part of a line that holds its delimiter is the whole line. -/
theorem prefix_delimited (hd : d ∉ body) (h : start <+: body ++ [d]) (hmem : d ∈ start) :
    start = body ++ [d] := by
  obtain heq | hstarts := List.prefix_concat_iff.mp h
  · exact heq
  · exact absurd (hstarts.subset hmem) hd

theorem prefix_undelimited (h : start <+: body ++ [d]) (hmem : d ∉ start) : start <+: body := by
  obtain heq | hstarts := List.prefix_concat_iff.mp h
  · rw [heq] at hmem
    exact absurd (List.mem_append_right _ List.mem_cons_self) hmem
  · exact hstarts

end Delimiter

end Flow.Streams
