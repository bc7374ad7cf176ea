import Mathlib.Data.List.Basic

/-!
# Reading lines through a buffer

A reader with a buffer of `size` places takes a line in pieces: a piece ends
behind the newline or when the buffer is full, whichever comes first. The
pieces of a text are those of its lines, one line behind the other.
-/

set_option autoImplicit false

namespace Scan.Lines

variable {α : Type*}

section Pieces

/-- The pieces of one line when `room` places are left in the first of them. -/
def piecesFrom (size : ℕ) : ℕ → List α → List (List α)
  | _, [] => []
  | room, c :: l =>
    if room ≤ 1 then [c] :: piecesFrom size size l
    else
      match piecesFrom size (room - 1) l with
      | [] => [[c]]
      | piece :: rest => (c :: piece) :: rest

def pieces (size : ℕ) (line : List α) : List (List α) := piecesFrom size size line

theorem piecesFrom_ne_nil (size room : ℕ) {line : List α} (h : line ≠ []) :
    piecesFrom size room line ≠ [] := by
  cases line with
  | nil => exact absurd rfl h
  | cons c l =>
    rw [piecesFrom]
    split
    · simp
    · split <;> simp

theorem piecesFrom_short (size room : ℕ) (line : List α) (hne : line ≠ [])
    (h : line.length ≤ room) : piecesFrom size room line = [line] := by
  induction line generalizing room with
  | nil => exact absurd rfl hne
  | cons c l ih =>
    rw [piecesFrom]
    by_cases hl : l = []
    · subst hl
      split <;> rfl
    · have hpos := List.length_pos_of_ne_nil hl
      rw [List.length_cons] at h
      have hroom : ¬room ≤ 1 := by omega
      rw [if_neg hroom, ih (room - 1) hl (by omega)]

/-- A line that fits the buffer is read at once. -/
theorem pieces_short (size : ℕ) (line : List α) (hne : line ≠ []) (h : line.length ≤ size) :
    pieces size line = [line] := piecesFrom_short size size line hne h

end Pieces

variable [DecidableEq α] (newline : α)

/-- The lines of a text, each with its newline. -/
def lines : List α → List (List α)
  | [] => []
  | c :: l =>
    if c = newline then [c] :: lines l
    else
      match lines l with
      | [] => [[c]]
      | line :: rest => (c :: line) :: rest

/-- What successive reads return when `room` places are left in the first. -/
def readsFrom (size : ℕ) : ℕ → List α → List (List α)
  | _, [] => []
  | room, c :: l =>
    if c = newline ∨ room ≤ 1 then [c] :: readsFrom size size l
    else
      match readsFrom size (room - 1) l with
      | [] => [[c]]
      | piece :: rest => (c :: piece) :: rest

def reads (size : ℕ) (text : List α) : List (List α) := readsFrom newline size size text

theorem lines_ne_nil (l : List α) : ∀ line ∈ lines newline l, line ≠ [] := by
  induction l with
  | nil => simp [lines]
  | cons c l ih =>
    intro line hm
    rw [lines] at hm
    split at hm
    · rcases List.mem_cons.mp hm with rfl | hm
      · simp
      · exact ih line hm
    · split at hm
      · rw [List.mem_singleton] at hm
        simp [hm]
      · rename_i first rest heq
        rcases List.mem_cons.mp hm with rfl | hm
        · simp
        · exact ih line (by simp [heq, hm])

theorem readsFrom_eq (size room : ℕ) (text : List α) :
    readsFrom newline size room text =
      match lines newline text with
      | [] => []
      | line :: rest => piecesFrom size room line ++ rest.flatMap (pieces size) := by
  induction text generalizing room with
  | nil => rfl
  | cons c l ih =>
    have hstart : readsFrom newline size size l = (lines newline l).flatMap (pieces size) := by
      rw [ih size]
      cases lines newline l with
      | nil => rfl
      | cons line rest => rw [List.flatMap_cons, pieces]
    rw [readsFrom, lines]
    by_cases hc : c = newline
    · rw [if_pos (Or.inl hc), if_pos hc, hstart]
      have hpiece : piecesFrom size room [c] = [[c]] := by
        rw [piecesFrom]
        split <;> rfl
      show _ = piecesFrom size room [c] ++ _
      rw [hpiece]
      rfl
    · rw [if_neg hc]
      by_cases hroom : room ≤ 1
      · rw [if_pos (Or.inr hroom), hstart]
        cases lines newline l with
        | nil =>
          simp only [piecesFrom, if_pos hroom]
          rfl
        | cons line rest =>
          simp only [piecesFrom, if_pos hroom, List.flatMap_cons, pieces]
          rfl
      · rw [if_neg (not_or.mpr ⟨hc, hroom⟩), ih (room - 1)]
        cases hlines : lines newline l with
        | nil => simp [piecesFrom, hroom]
        | cons line rest =>
          have hne : line ≠ [] := lines_ne_nil newline l line (by simp [hlines])
          obtain ⟨piece, more, hmore⟩ :=
            List.exists_cons_of_ne_nil (piecesFrom_ne_nil size (room - 1) hne)
          simp only [piecesFrom, if_neg hroom, hmore]
          rfl

/-- The reads of a text are the pieces of its lines. -/
theorem reads_eq (size : ℕ) (text : List α) :
    reads newline size text = (lines newline text).flatMap (pieces size) := by
  rw [reads, readsFrom_eq]
  cases lines newline text with
  | nil => rfl
  | cons line rest => rw [List.flatMap_cons, pieces]

end Scan.Lines
