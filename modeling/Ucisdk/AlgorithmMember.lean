import Ucisdk.RequestFields

/-!
# The algorithm member of a line

Around the value of an algorithm member a line may hold anything. A lookup in
it searches the text in front of the member, then the value, then the text
behind it, so that the value matters to the lookup of another name in two ways
only: it is that name, or it is what the search for the name leads to.
-/

set_option autoImplicit false

namespace Ucisdk.AlgorithmMember

open Ucisdk.CString Ucisdk.Common Ucisdk.Protocol Ucisdk.JsonObject Ucisdk.RequestFields
open Scan.Quoted

section Values

/-- With a colon on the way the value behind a gap does not matter. -/
theorem copyValue_inner {rest : Bytes} (hcolon : colon ∈ rest) (gap : Gap colon) (tail : Bytes)
    (outSz : ℕ) :
    copyValue (rest ++ (gap.text ++ quote :: tail)) outSz =
      copyValue (rest ++ (gap.text ++ [quote])) outSz := by
  obtain ⟨a, p, hrest, ha⟩ := List.eq_append_cons_of_mem hcolon
  have hne : ∀ c ∈ a, c ≠ colon := fun c hc he => ha (he ▸ hc)
  have hafter (m : Bytes) : after [colon] (rest ++ m) = some (p ++ m) := by
    rw [hrest, List.append_assoc, List.cons_append, after_single colon a _ hne]
  have hleft : ∀ c ∈ gap.left, isspace c = true := fun c hc =>
    jsonBlank_isspace (List.all_eq_true.mp gap.leftBlank c hc)
  rw [copyValue, copyValue, hafter, hafter]
  dsimp only
  cases hp : p.dropWhile isspace with
  | nil =>
    -- the blanks go on into the gap and end at its colon
    have hblank : ∀ c ∈ p, isspace c = true := List.dropWhile_eq_nil_iff.mp hp
    have hstop (m : Bytes) : (p ++ (gap.text ++ m)).dropWhile isspace = colon :: (gap.right ++ m) := by
      rw [List.dropWhile_append_of_pos hblank, Gap.text, List.append_assoc,
        List.dropWhile_append_of_pos hleft, List.cons_append]
      exact List.dropWhile_cons_of_neg (by decide)
    rw [hstop, hstop]
    rfl
  | cons c v =>
    have hstop (m : Bytes) : (p ++ m).dropWhile isspace = c :: (v ++ m) := by
      rw [List.dropWhile_append, hp]
      rfl
    rw [hstop, hstop]
    dsimp only
    by_cases hc : c = quote
    · rw [if_pos hc, if_pos hc, ← List.append_assoc, ← List.append_assoc, copyString_append,
        copyString_append]
    · rw [if_neg hc, if_neg hc]

/-- Without a colon on the way the search leads to the value behind the gap. -/
theorem copyValue_own {rest : Bytes} (hcolon : colon ∉ rest) (gap : Gap colon) {text : Bytes}
    (htext : quote ∉ text) (tail : Bytes) {outSz : ℕ} (hpos : 0 < outSz) :
    copyValue (rest ++ (gap.text ++ quote :: (text ++ quote :: tail))) outSz =
      ofRead outSz (some text) := by
  have hfront : ∀ c ∈ rest ++ gap.left, c ≠ colon := by
    intro c hc he
    subst he
    rw [List.mem_append] at hc
    obtain hc | hc := hc
    · exact hcolon hc
    · exact absurd (List.all_eq_true.mp gap.leftBlank _ hc) (by decide)
  have hright : ∀ c ∈ gap.right, isspace c = true := fun c hc =>
    jsonBlank_isspace (List.all_eq_true.mp gap.rightBlank c hc)
  rw [Gap.text, List.append_assoc, List.cons_append, ← List.append_assoc,
    copyValue_eq outSz _ _ _ hfront hright, copyString_ofRead outSz hpos,
    upToQuote_plain fun c hc he => htext (he ▸ hc)]

end Values

section Lookups

/-- A line around the value of its algorithm member. -/
structure Place where
  before : Bytes
  gap : Gap colon
  after : Bytes

namespace Place

/-- The line as far as the member's name goes. -/
def opening (p : Place) : Bytes := p.before ++ needle Field.algorithm.key

def line (p : Place) (text : Bytes) : Bytes :=
  p.opening ++ (p.gap.text ++ quote :: (text ++ quote :: p.after))

end Place

theorem needle_eq (f : Field) : needle f.key = quote :: (f.key ++ [quote]) := by
  cases f <;> decide

/-- The name stands in front of the value, with no colon behind it but the
member's own. -/
def Leads (p : Place) (f : Field) : Prop := ∃ rest ∈ after (needle f.key) p.opening, colon ∉ rest

/-- The name does not stand in front of the value, which is the name. -/
def Named (p : Place) (text : Bytes) (f : Field) : Prop :=
  after (needle f.key) p.opening = none ∧ text = f.key

instance (p : Place) (f : Field) : Decidable (Leads p f) :=
  inferInstanceAs (Decidable (∃ rest ∈ _, _))

instance (p : Place) (text : Bytes) (f : Field) : Decidable (Named p text f) :=
  inferInstanceAs (Decidable (_ ∧ _))

variable {p : Place} {text : Bytes}

theorem lookup_leads (htext : quote ∉ text) {f : Field} (h : Leads p f) :
    extractJsonString (p.line text) f.key f.cap = ofRead f.cap (some text) := by
  obtain ⟨rest, hrest, hcolon⟩ := h
  rw [extractJsonString, Place.line, after_append hrest]
  exact copyValue_own hcolon p.gap htext p.after f.cap_pos

/-- A name that does not stand in front of the value is the value or stands
behind it. -/
theorem after_opening (htext : quote ∉ text) {f : Field}
    (h : after (needle f.key) p.opening = none) :
    after (needle f.key) (p.line text) =
      if text = f.key then some p.after else after (needle f.key) (quote :: p.after) := by
  have hkey : quote ∉ f.key := fun hmem => (f.plainKey.plain quote hmem).1 rfl
  have hgap : quote ∉ p.gap.text := fun hmem => p.gap.mem_ne (by decide) (by decide) hmem rfl
  have hname : p.gap.text ≠ f.key := by
    intro he
    exact (f.plainKey.plain colon (he ▸ p.gap.sep_mem)).2.2.1 rfl
  have hopening : p.opening = (p.before ++ quote :: Field.algorithm.key) ++ [quote] := by
    rw [Place.opening, needle_eq, List.append_assoc]
    rfl
  rw [hopening, needle_eq] at h
  rw [Place.line, hopening, needle_eq, List.append_assoc, List.singleton_append,
    after_quote hkey h, after_plain hkey hgap, if_neg hname, after_plain hkey htext]

/-- Where the search does not lead to the value and the value is not the name,
the spelling does not matter. -/
theorem lookup_elsewhere {s t : Bytes} (hs : quote ∉ s) (ht : quote ∉ t) {f : Field}
    (hleads : ¬Leads p f) (hnots : ¬Named p s f) (hnott : ¬Named p t f) :
    extractJsonString (p.line s) f.key f.cap = extractJsonString (p.line t) f.key f.cap := by
  rw [extractJsonString, extractJsonString]
  cases hfind : after (needle f.key) p.opening with
  | none =>
    have hs' : s ≠ f.key := fun he => hnots ⟨hfind, he⟩
    have ht' : t ≠ f.key := fun he => hnott ⟨hfind, he⟩
    rw [after_opening hs hfind, after_opening ht hfind, if_neg hs', if_neg ht']
  | some rest =>
    have hcolon : colon ∈ rest := by
      by_contra hno
      exact hleads ⟨rest, hfind, hno⟩
    rw [Place.line, Place.line, after_append hfind, after_append hfind]
    dsimp only
    rw [copyValue_inner hcolon p.gap (s ++ _), copyValue_inner hcolon p.gap (t ++ _)]

/-- The algorithm is the value, or comes from the text in front of it. -/
theorem lookup_algorithm {s t : Bytes} (hs : quote ∉ s) (ht : quote ∉ t) :
    extractJsonString (p.line s) Field.algorithm.key Field.algorithm.cap =
        extractJsonString (p.line t) Field.algorithm.key Field.algorithm.cap ∨
      Leads p .algorithm := by
  by_cases hleads : Leads p .algorithm
  · exact .inr hleads
  · obtain ⟨rest, hrest⟩ := after_occurs (needle Field.algorithm.key) p.before
    have hnamed (text : Bytes) : ¬Named p text .algorithm := by
      rintro ⟨hnone, _⟩
      rw [Place.opening, hrest] at hnone
      cases hnone
    exact .inl (lookup_elsewhere hs ht hleads (hnamed s) (hnamed t))

end Lookups

end Ucisdk.AlgorithmMember
