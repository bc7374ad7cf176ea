import Mathlib.Data.List.Basic
import Mathlib.Data.List.Infix

/-!
# Tokens between separators

The maximal separator-free pieces of a list, in order. A run of separators
counts as one and separators at either end produce nothing, so a token is
never empty.
-/

set_option autoImplicit false

namespace Scan.Tokens

variable {α : Type*} (p : α → Bool)

def tokens (l : List α) : List (List α) := (l.splitOnP p).filter (fun t => !t.isEmpty)

@[simp] theorem tokens_nil : tokens p [] = [] := by simp [tokens]

theorem tokens_append_cons (a b : List α) {s : α} (hs : p s) :
    tokens p (a ++ s :: b) = tokens p a ++ tokens p b := by
  rw [tokens, List.splitOnP_append_cons a b hs, List.filter_append]
  rfl

theorem tokens_cons_sep (l : List α) {s : α} (hs : p s) : tokens p (s :: l) = tokens p l := by
  simpa using tokens_append_cons p [] l hs

theorem tokens_piece (l : List α) (hne : l ≠ []) (h : ∀ x ∈ l, p x = false) :
    tokens p l = [l] := by
  simp [tokens, List.splitOnP_eq_singleton h, hne]

/-- Every list is a separator-free piece, alone or in front of a separator. -/
theorem exists_piece (l : List α) : ∃ a, (∀ x ∈ a, p x = false) ∧
    (l = a ∨ ∃ s b, p s = true ∧ l = a ++ s :: b) := by
  induction l with
  | nil => exact ⟨[], by simp, Or.inl rfl⟩
  | cons x l ih =>
    cases hx : p x with
    | true => exact ⟨[], by simp, Or.inr ⟨x, l, hx, rfl⟩⟩
    | false =>
      obtain ⟨a, ha, h⟩ := ih
      refine ⟨x :: a, by simpa [hx] using ha, ?_⟩
      rcases h with rfl | ⟨s, b, hs, rfl⟩
      · exact Or.inl rfl
      · exact Or.inr ⟨s, b, hs, rfl⟩

theorem tokens_piece_append (a b : List α) (ha : ∀ x ∈ a, p x = false) {s : α} (hs : p s) :
    tokens p (a ++ s :: b) = if a = [] then tokens p b else a :: tokens p b := by
  rw [tokens_append_cons p a b hs]
  by_cases h : a = []
  · simp [h]
  · simp [h, tokens_piece p a h ha]

/-- Pieces with a separator between them are read back. -/
theorem tokens_joined {s : α} (hs : p s) (t : List α) (ts : List (List α))
    (hne : ∀ u ∈ t :: ts, u ≠ []) (hfree : ∀ u ∈ t :: ts, ∀ x ∈ u, p x = false) :
    tokens p (t ++ ts.flatMap fun u => s :: u) = t :: ts := by
  induction ts generalizing t with
  | nil =>
    rw [List.flatMap_nil, List.append_nil]
    exact tokens_piece p t (hne t (by simp)) (hfree t (by simp))
  | cons u ts ih =>
    have hrest := ih u (fun v hv => hne v (by simp [hv])) fun v hv => hfree v (by simp [hv])
    rw [List.flatMap_cons, List.cons_append, tokens_piece_append p t _ (hfree t (by simp)) hs,
      if_neg (hne t (by simp)), hrest]

/-- A piece that has a separator or nothing on either side is a token. -/
theorem tokens_between {l piece r : List α} (hl : ∀ x ∈ l.getLast?, p x = true)
    (hr : ∀ x ∈ r.head?, p x = true) (hne : piece ≠ []) (hfree : ∀ x ∈ piece, p x = false) :
    tokens p (l ++ (piece ++ r)) = tokens p l ++ piece :: tokens p r := by
  have hright : tokens p (piece ++ r) = piece :: tokens p r := by
    cases r with
    | nil => rw [List.append_nil, tokens_piece p piece hne hfree, tokens_nil]
    | cons s r =>
      have hs : p s = true := hr s rfl
      rw [tokens_piece_append p piece r hfree hs, if_neg hne, tokens_cons_sep p r hs]
  obtain rfl | ⟨a, s, rfl⟩ := l.eq_nil_or_concat'
  · rw [List.nil_append, hright, tokens_nil, List.nil_append]
  · have hs : p s = true := hl s (by simp)
    rw [List.append_assoc, List.singleton_append, tokens_append_cons p a _ hs, hright,
      tokens_append_cons p a [] hs, tokens_nil, List.append_nil]

/-- Induction along the pieces of a list: the last piece, or a piece, its
separator and the rest. -/
theorem piece_induction {motive : List α → Prop}
    (last : ∀ a, (∀ x ∈ a, p x = false) → motive a)
    (piece : ∀ a s b, (∀ x ∈ a, p x = false) → p s = true → motive b → motive (a ++ s :: b))
    (l : List α) : motive l := by
  induction hn : l.length using Nat.strong_induction_on generalizing l with
  | _ n ih =>
    obtain ⟨a, ha, rfl | ⟨s, b, hs, rfl⟩⟩ := exists_piece p l
    · exact last _ ha
    · refine piece a s b ha hs (ih b.length ?_ b rfl)
      simp at hn
      omega

theorem mem_tokens {t l : List α} (ht : t ∈ tokens p l) :
    t ≠ [] ∧ (∀ x ∈ t, p x = false) ∧ t <:+: l := by
  induction l using piece_induction p with
  | last a ha =>
    by_cases hne : a = []
    · simp [hne] at ht
    · rw [tokens_piece p a hne ha, List.mem_singleton] at ht
      subst ht
      exact ⟨hne, ha, List.infix_rfl⟩
  | piece a s b ha hs ih =>
    rw [tokens_piece_append p a b ha hs] at ht
    have hb : t ∈ tokens p b → t ≠ [] ∧ (∀ x ∈ t, p x = false) ∧ t <:+: a ++ s :: b := by
      intro h
      obtain ⟨h1, h2, h3⟩ := ih h
      exact ⟨h1, h2, h3.trans (List.IsSuffix.isInfix ⟨a ++ [s], by simp⟩)⟩
    split at ht
    · exact hb ht
    · rcases List.mem_cons.mp ht with rfl | h
      · exact ⟨by assumption, ha, (List.prefix_append _ _).isInfix⟩
      · exact hb h

theorem tokens_eq_nil_iff (l : List α) : tokens p l = [] ↔ ∀ x ∈ l, p x = true := by
  induction l using piece_induction p with
  | last a ha =>
    by_cases hne : a = []
    · simp [hne]
    · obtain ⟨x, hx⟩ := List.exists_mem_of_ne_nil a hne
      rw [tokens_piece p a hne ha]
      simp only [List.cons_ne_nil, false_iff, not_forall]
      exact ⟨x, hx, by simp [ha x hx]⟩
  | piece a s b ha hs ih =>
    rw [tokens_piece_append p a b ha hs]
    by_cases hne : a = []
    · simp [hne, ih, hs]
    · obtain ⟨x, hx⟩ := List.exists_mem_of_ne_nil a hne
      simp only [hne, if_false, List.cons_ne_nil, false_iff, not_forall]
      exact ⟨x, by simp [hx], by simp [ha x hx]⟩

end Scan.Tokens
