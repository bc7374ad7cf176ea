import Mathlib.Data.List.Basic
import Mathlib.Data.List.Infix

/-!
# Searching a text of quoted strings

A text alternates between gaps and strings in quotes; inside a string a
quote only stands after the escape symbol. A plain search for a quoted name
then succeeds at the first string that is the name, or that ends in an
escaped quote followed by the name, and nowhere else.
-/

set_option autoImplicit false

namespace Scan.Quoted

variable {α : Type*}

/-- The inside of a string: a quote or an escape symbol only after an escape
symbol. -/
inductive Escaped (q e : α) : List α → Prop
  | nil : Escaped q e []
  | plain {x : α} {l : List α} (hq : x ≠ q) (he : x ≠ e) (h : Escaped q e l) : Escaped q e (x :: l)
  | escape {x : α} {l : List α} (h : Escaped q e l) : Escaped q e (e :: x :: l)

theorem escaped_of_plain (q e : α) (l : List α) (h : ∀ x ∈ l, x ≠ q ∧ x ≠ e) : Escaped q e l := by
  induction l with
  | nil => exact .nil
  | cons x l ih =>
    exact .plain (h x (by simp)).1 (h x (by simp)).2 (ih fun y hy => h y (by simp [hy]))

theorem escaped_append {q e : α} {a b : List α} (ha : Escaped q e a) (hb : Escaped q e b) :
    Escaped q e (a ++ b) := by
  induction ha with
  | nil => exact hb
  | plain hq he _ ih => exact .plain hq he ih
  | escape _ ih => exact .escape ih

/-- Inside a string a quote stands behind an escape symbol. -/
theorem escape_before_quote {q e : α} (hqe : q ≠ e) {l : List α} (h : Escaped q e l) :
    ∀ (a b : List α), l = a ++ q :: b → ∃ c, a = c ++ [e] := by
  induction h with
  | nil =>
    intro a b hl
    simp at hl
  | @plain x l hxq _ _ ih =>
    intro a b hl
    cases a with
    | nil => exact absurd (List.cons.inj hl).1 hxq
    | cons y a =>
      obtain ⟨c, rfl⟩ := ih a b (List.cons.inj hl).2
      exact ⟨y :: c, rfl⟩
  | @escape x l _ ih =>
    intro a b hl
    cases a with
    | nil => exact absurd (List.cons.inj hl).1 hqe.symm
    | cons y a =>
      have hhead : e = y := (List.cons.inj hl).1
      have htail : x :: l = a ++ q :: b := (List.cons.inj hl).2
      subst hhead
      cases a with
      | nil => exact ⟨[], rfl⟩
      | cons z a =>
        obtain ⟨c, rfl⟩ := ih a b (List.cons.inj htail).2
        exact ⟨e :: z :: c, rfl⟩

/-- A string body met by a search for the quoted name: the name itself, or a
body with the name behind an escaped quote at its end. -/
def Spells (q : α) (raw name : List α) : Prop := raw = name ∨ (q :: name) <:+ raw

theorem spells_plain {q : α} {raw name : List α} (h : q ∉ raw) : Spells q raw name ↔ raw = name := by
  refine ⟨fun hs => ?_, Or.inl⟩
  rcases hs with hs | hs
  · exact hs
  · exact absurd (hs.subset (by simp)) h

theorem name_prefix_iff {q e : α} {name : List α} (hqe : q ≠ e) (hq : q ∉ name) (he : e ∉ name)
    {s : List α} (hs : Escaped q e s) (rest : List α) :
    name ++ [q] <+: s ++ q :: rest ↔ s = name := by
  induction hs generalizing name with
  | nil =>
    cases name with
    | nil => simp
    | cons a name =>
      have ha : a ≠ q := fun h => hq (by simp [h])
      simp [ha]
  | @plain x l hxq hxe _ ih =>
    cases name with
    | nil => simp [hxq.symm]
    | cons a name =>
      have h : name ++ [q] <+: l ++ q :: rest ↔ l = name :=
        ih (fun h => hq (by simp [h])) (fun h => he (by simp [h]))
      simp only [List.cons_append, List.cons_prefix_cons, h, List.cons.injEq]
      exact and_congr_left fun _ => eq_comm
  | @escape x l _ _ =>
    cases name with
    | nil => simp [hqe]
    | cons a name =>
      have ha : a ≠ e := fun h => he (by simp [h])
      simp [ha, ha.symm]

/-- A name up to its quote ends at the first quote. -/
theorem name_in_front {q : α} {name s rest : List α} (hq : q ∉ name)
    (h : name ++ [q] <+: s ++ q :: rest) : name ++ [q] <+: s ++ [q] := by
  induction name generalizing s with
  | nil =>
    cases s with
    | nil => simp
    | cons x s =>
      rw [List.nil_append, List.cons_append, List.cons_prefix_cons] at h
      simp [h.1]
  | cons a name ih =>
    rw [List.mem_cons, not_or] at hq
    cases s with
    | nil => exact absurd (List.cons_prefix_cons.mp h).1.symm hq.1
    | cons x s =>
      obtain ⟨rfl, htail⟩ := List.cons_prefix_cons.mp h
      exact List.cons_prefix_cons.mpr ⟨rfl, ih hq.2 htail⟩

variable [DecidableEq α]

/-- What follows the first occurrence of `needle`. -/
def after (needle : List α) : List α → Option (List α)
  | [] => if needle = [] then some [] else none
  | x :: l => if needle <+: x :: l then some ((x :: l).drop needle.length) else after needle l

theorem after_skip (n x : α) (ns l : List α) (h : x ≠ n) :
    after (n :: ns) (x :: l) = after (n :: ns) l := by
  rw [after, if_neg]
  intro hp
  exact h (List.cons_prefix_cons.mp hp).1.symm

theorem after_skips (n : α) (ns g l : List α) (h : ∀ x ∈ g, x ≠ n) :
    after (n :: ns) (g ++ l) = after (n :: ns) l := by
  induction g with
  | nil => rfl
  | cons x g ih =>
    rw [List.cons_append, after_skip n x ns _ (h x (by simp))]
    exact ih (fun y hy => h y (by simp [hy]))

theorem after_suffix {needle l r : List α} (h : after needle l = some r) : r <:+ l := by
  induction l with
  | nil =>
    rw [after] at h
    split at h
    · rw [← Option.some.inj h]
    · simp at h
  | cons x l ih =>
    rw [after] at h
    split at h
    · rw [← Option.some.inj h]
      exact List.drop_suffix _ _
    · exact (ih h).trans (List.suffix_cons x l)

theorem after_single (n : α) (a r : List α) (h : ∀ x ∈ a, x ≠ n) :
    after [n] (a ++ n :: r) = some r := by
  rw [after_skips n [] a _ h]
  simp [after]

theorem after_none (n : α) (ns l : List α) (h : ∀ x ∈ l, x ≠ n) : after (n :: ns) l = none := by
  have h' := after_skips n ns l [] h
  simpa [after] using h'

theorem after_occurs (needle l : List α) : ∃ r, after needle (l ++ needle) = some r := by
  induction l with
  | nil =>
    cases needle with
    | nil => exact ⟨[], rfl⟩
    | cons n needle =>
      rw [List.nil_append, after, if_pos List.prefix_rfl]
      exact ⟨_, rfl⟩
  | cons x l ih =>
    rw [List.cons_append, after]
    split
    · exact ⟨_, rfl⟩
    · exact ih

theorem after_length {needle l r : List α} (h : after needle l = some r) :
    needle.length ≤ l.length := by
  induction l with
  | nil =>
    rw [after] at h
    split at h
    · rename_i hempty
      rw [hempty]
    · cases h
  | cons x l ih =>
    rw [after] at h
    split at h
    · rename_i hprefix
      exact hprefix.length_le
    · exact Nat.le_succ_of_le (ih h)

/-- What was found is found in a longer text. -/
theorem after_append {needle l r : List α} (h : after needle l = some r) (m : List α) :
    after needle (l ++ m) = some (r ++ m) := by
  induction l with
  | nil =>
    rw [after] at h
    split at h
    · rename_i hempty
      rw [← Option.some.inj h, hempty]
      cases m with
      | nil => rfl
      | cons x m => simp [after]
    · cases h
  | cons x l ih =>
    have hlength := after_length h
    rw [after] at h
    rw [List.cons_append, after]
    split at h
    · rename_i hhere
      have hwhole : needle <+: x :: (l ++ m) := hhere.trans (List.prefix_append (x :: l) m)
      have hdrop : (x :: (l ++ m)).drop needle.length = (x :: l).drop needle.length ++ m :=
        List.drop_append_of_le_length hlength
      rw [if_pos hwhole, hdrop, Option.some.inj h]
    · rename_i hnot
      rw [if_neg, ih h]
      intro hhere
      exact hnot (List.prefix_of_prefix_length_le hhere (List.prefix_append (x :: l) m) hlength)

def escapedB (q e : α) : List α → Bool
  | [] => true
  | x :: l =>
    if x = e then
      match l with
      | [] => false
      | _ :: l' => escapedB q e l'
    else decide (x ≠ q) && escapedB q e l

theorem escapedB_iff (q e : α) (l : List α) : escapedB q e l = true ↔ Escaped q e l := by
  induction hn : l.length using Nat.strong_induction_on generalizing l with
  | _ n ih =>
    subst hn
    cases l with
    | nil => exact ⟨fun _ => .nil, fun _ => rfl⟩
    | cons x l =>
      unfold escapedB
      by_cases hx : x = e
      · subst hx
        cases l with
        | nil => simpa using fun h => by cases h; contradiction
        | cons y l =>
          simp only [if_true]
          rw [ih l.length (by simp only [List.length_cons]; omega) l rfl]
          refine ⟨.escape, fun h => ?_⟩
          cases h with
          | plain _ he _ => contradiction
          | escape h => exact h
      · simp only [hx, if_false, Bool.and_eq_true, decide_eq_true_eq]
        rw [ih l.length (by simp) l rfl]
        refine ⟨fun ⟨hq, h⟩ => .plain hq hx h, fun h => ?_⟩
        cases h with
        | plain hq _ h => exact ⟨hq, h⟩
        | escape h => contradiction

instance (q e : α) (l : List α) : Decidable (Escaped q e l) :=
  decidable_of_iff _ (escapedB_iff q e l)

instance (q : α) (raw name : List α) : Decidable (Spells q raw name) :=
  inferInstanceAs (Decidable (_ ∨ _))

section Delimited

variable {q : α} {name : List α} (hq : q ∉ name)
include hq

/-- A search that fails up to a quote goes on from that quote. -/
theorem after_quote {s : List α} (h : after (q :: (name ++ [q])) (s ++ [q]) = none)
    (rest : List α) :
    after (q :: (name ++ [q])) (s ++ q :: rest) = after (q :: (name ++ [q])) (q :: rest) := by
  induction s with
  | nil => rfl
  | cons x s ih =>
    rw [List.cons_append, after] at h
    rw [List.cons_append, after]
    split at h
    · cases h
    · rename_i hnot
      rw [if_neg, ih h]
      intro hhere
      obtain ⟨hx, htail⟩ := List.cons_prefix_cons.mp hhere
      exact hnot (List.cons_prefix_cons.mpr ⟨hx, name_in_front hq htail⟩)

/-- A string without quotes is met by the search exactly if it is the name. -/
theorem after_plain {s : List α} (hs : q ∉ s) (rest : List α) :
    after (q :: (name ++ [q])) (q :: (s ++ q :: rest)) =
      if s = name then some rest else after (q :: (name ++ [q])) (q :: rest) := by
  by_cases hsn : s = name
  · rw [if_pos hsn, hsn, after, if_pos]
    · simp
    · exact List.cons_prefix_cons.mpr ⟨rfl, by simp⟩
  · rw [if_neg hsn, after, if_neg]
    · exact after_skips q _ s _ fun x hx he => hs (he ▸ hx)
    · intro hhere
      have hfront := name_in_front hq (List.cons_prefix_cons.mp hhere).2
      obtain heq | hstart := List.prefix_concat_iff.mp hfront
      · exact hsn (List.append_cancel_right heq).symm
      · exact hs (hstart.subset (by simp))

end Delimited

section Search

variable {q e : α} {name : List α} (hqe : q ≠ e) (hq : q ∉ name) (he : e ∉ name)
include hqe hq he

/-- Inside a string a search meets the name only at its end. -/
theorem after_inside {s : List α} (hs : Escaped q e s) (rest : List α) :
    after (q :: (name ++ [q])) (s ++ q :: rest) =
      if (q :: name) <:+ s then some rest else after (q :: (name ++ [q])) (q :: rest) := by
  induction hs with
  | nil => simp
  | @plain x l hxq hxe _ ih =>
    rw [List.cons_append, after_skip q x _ _ hxq, ih]
    simp [List.suffix_cons_iff, hxq.symm]
  | @escape x l hl ih =>
    rw [List.cons_append, List.cons_append, after_skip q e _ _ hqe.symm]
    by_cases hx : x = q
    · subst hx
      have hp := name_prefix_iff hqe hq he hl rest
      by_cases hln : l = name
      · rw [after, if_pos (by simpa using hp.mpr hln), if_pos]
        · simp [hln]
        · exact ⟨[e], by simp [hln]⟩
      · rw [after, if_neg (by simpa using fun h => hln (hp.mp h)), ih]
        simp [List.suffix_cons_iff, hqe, Ne.symm hln]
    · rw [after_skip q x _ _ hx, ih]
      simp [List.suffix_cons_iff, hqe, Ne.symm hx]

theorem after_string {s : List α} (hs : Escaped q e s) (rest : List α) :
    after (q :: (name ++ [q])) (q :: (s ++ q :: rest)) =
      if Spells q s name then some rest else after (q :: (name ++ [q])) (q :: rest) := by
  have hp := name_prefix_iff hqe hq he hs rest
  by_cases hsn : s = name
  · rw [after, if_pos (by simpa using hp.mpr hsn), if_pos (show Spells q s name from Or.inl hsn)]
    simp [hsn]
  · rw [after, if_neg (by simpa using fun h => hsn (hp.mp h)), after_inside hqe hq he hs rest]
    simp [Spells, hsn]

theorem after_gap (g rest : List α) (hg : ∀ x ∈ g, x ≠ q ∧ x ≠ e) (hgn : g ≠ name) :
    after (q :: (name ++ [q])) (q :: (g ++ q :: rest)) =
      after (q :: (name ++ [q])) (q :: rest) := by
  have hp := name_prefix_iff hqe hq he (escaped_of_plain q e g hg) rest
  rw [after, if_neg (by simpa using fun h => hgn (hp.mp h))]
  exact after_skips q _ g _ fun x hx => (hg x hx).1

end Search

/-- The text of gaps and strings: `(gap, string)` pairs and a last gap. -/
def text (q : α) (ending : List α) : List (List α × List α) → List α
  | [] => ending
  | (g, s) :: ps => g ++ q :: (s ++ q :: text q ending ps)

/-- The pairs behind the first string that spells the name. -/
def seek (q : α) (name : List α) : List (List α × List α) → Option (List (List α × List α))
  | [] => none
  | (_, s) :: ps => if Spells q s name then some ps else seek q name ps

theorem after_quote_text {q e : α} {name ending : List α} (hqe : q ≠ e) (hq : q ∉ name)
    (he : e ∉ name) (ps : List (List α × List α))
    (hg : ∀ p ∈ ps, (∀ x ∈ p.1, x ≠ q ∧ x ≠ e) ∧ p.1 ≠ name) (hs : ∀ p ∈ ps, Escaped q e p.2)
    (hend : ∀ x ∈ ending, x ≠ q) :
    after (q :: (name ++ [q])) (q :: text q ending ps) =
      (seek q name ps).map (text q ending) := by
  induction ps with
  | nil =>
    rw [text, after, if_neg]
    · exact after_none q _ _ hend
    · intro h
      have hmem : q ∈ ending := (List.cons_prefix_cons.mp h).2.subset (by simp)
      exact hend q hmem rfl
  | cons p ps ih =>
    obtain ⟨g, s⟩ := p
    have hp := hg (g, s) (by simp)
    rw [text, after_gap hqe hq he g _ hp.1 hp.2, after_string hqe hq he (hs (g, s) (by simp)), seek,
      ih (fun p h => hg p (by simp [h])) (fun p h => hs p (by simp [h]))]
    split <;> rfl

/-- The search over a whole text. -/
theorem after_text {q e : α} {name ending : List α} (hqe : q ≠ e) (hq : q ∉ name)
    (he : e ∉ name) (ps : List (List α × List α))
    (hg : ∀ p ∈ ps, (∀ x ∈ p.1, x ≠ q ∧ x ≠ e) ∧ p.1 ≠ name) (hs : ∀ p ∈ ps, Escaped q e p.2)
    (hend : ∀ x ∈ ending, x ≠ q) :
    after (q :: (name ++ [q])) (text q ending ps) = (seek q name ps).map (text q ending) := by
  cases ps with
  | nil => exact after_none q _ _ hend
  | cons p ps =>
    obtain ⟨g, s⟩ := p
    have hp := hg (g, s) (by simp)
    rw [text, after_skips q _ g _ fun x hx => (hp.1 x hx).1,
      after_string hqe hq he (hs (g, s) (by simp)), seek,
      after_quote_text hqe hq he ps (fun p h => hg p (by simp [h]))
        (fun p h => hs p (by simp [h])) hend]
    split <;> rfl

end Scan.Quoted
