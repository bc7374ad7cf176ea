import Mathlib.Data.List.TakeWhile
import Ucisdk.Protocol

/-!
# Flat JSON objects

A flat object is a list of string members with blanks where JSON allows
them. The scanner reads its text as if it walked over the members: a lookup
stops at the first name or value that spells the key, and reads on from there.
-/

set_option autoImplicit false

namespace Ucisdk.JsonObject

open Ucisdk.CString Ucisdk.Common Ucisdk.Protocol
open Scan.Quoted

def jsonBlank (c : UInt8) : Bool := c == 32 || c == 9 || c == 10 || c == 13

def comma : UInt8 := 44
def lbrace : UInt8 := 123
def rbrace : UInt8 := 125

/-- A structural byte with blanks around it. -/
structure Gap (sep : UInt8) where
  left : Bytes
  right : Bytes
  leftBlank : left.all jsonBlank = true
  rightBlank : right.all jsonBlank = true

def Gap.text {sep : UInt8} (g : Gap sep) : Bytes := g.left ++ sep :: g.right

/-- The text between the quotes of a JSON string. -/
structure JsonString where
  raw : Bytes
  escaped : Escaped quote backslash raw
  printable : raw.all (fun c => 32 ≤ c) = true

structure Member where
  name : JsonString
  colonGap : Gap colon
  value : JsonString

structure FlatObject where
  opening : Gap lbrace
  body : Option (Member × List (Gap comma × Member))
  closing : Gap rbrace

namespace FlatObject

variable (obj : FlatObject)

/-- The members in order, each with the text in front of its name. -/
def placed : List (Bytes × Member) :=
  match obj.body with
  | none => []
  | some (first, rest) => (obj.opening.text, first) :: rest.map fun e => (e.1.text, e.2)

def members : List Member := obj.placed.map Prod.snd

def ending : Bytes :=
  match obj.body with
  | none => obj.opening.text ++ obj.closing.text
  | some _ => obj.closing.text

end FlatObject

/-- The strings of the members, each with the text in front of it. -/
def strings (placed : List (Bytes × Member)) : List (Bytes × Bytes) :=
  placed.flatMap fun e => [(e.1, e.2.name.raw), (e.2.colonGap.text, e.2.value.raw)]

def FlatObject.text (obj : FlatObject) : Bytes :=
  Scan.Quoted.text quote obj.ending (strings obj.placed)

/-- What the copy loop takes of a string: everything up to the first quote. -/
def upToQuote (raw : Bytes) : Bytes := raw.takeWhile fun c => c ≠ quote

/-- What is read behind a value that spells the key: the next value, unless
the next name holds a colon itself. -/
def readBehind (m : Member) : Option Bytes :=
  match after [colon] m.name.raw with
  | none => some (upToQuote m.value.raw)
  | some r => if r.all isspace then some m.colonGap.text else none

/-- The lookup of a key, member by member. -/
def scan (key : Bytes) : List Member → Option Bytes
  | [] => none
  | m :: ms =>
    if Spells quote m.name.raw key then some (upToQuote m.value.raw)
    else if Spells quote m.value.raw key then ms.head?.bind readBehind
    else scan key ms

/-- A text that was read, against the capacity it has to fit. -/
def ofRead (outSz : ℕ) : Option Bytes → Lookup
  | none => .absent
  | some v => if v.length < outSz then .found v else .tooLong

/-- A key without structural bytes that fits the needle buffer. -/
structure PlainKey (key : Bytes) : Prop where
  short : key.length ≤ 125
  plain : ∀ c ∈ key, c ≠ quote ∧ c ≠ backslash ∧ c ≠ colon ∧ c ≠ comma ∧ c ≠ lbrace

theorem jsonBlank_isspace {c : UInt8} (h : jsonBlank c = true) : isspace c = true := by
  simp only [jsonBlank, Bool.or_eq_true, beq_iff_eq] at h
  rcases h with ((rfl | rfl) | rfl) | rfl <;> decide

theorem Gap.mem_text {sep : UInt8} (g : Gap sep) {c : UInt8} (h : c ∈ g.text) :
    c = sep ∨ jsonBlank c = true := by
  rw [Gap.text, List.mem_append, List.mem_cons] at h
  rcases h with h | h | h
  · exact Or.inr (List.all_eq_true.mp g.leftBlank c h)
  · exact Or.inl h
  · exact Or.inr (List.all_eq_true.mp g.rightBlank c h)

theorem Gap.mem_ne {sep x : UInt8} (g : Gap sep) (hs : sep ≠ x) (hx : jsonBlank x = false)
    {c : UInt8} (h : c ∈ g.text) : c ≠ x := by
  intro he
  subst he
  rcases g.mem_text h with rfl | hb
  · exact hs rfl
  · rw [hb] at hx
    simp at hx

theorem Gap.sep_mem {sep : UInt8} (g : Gap sep) : sep ∈ g.text := by simp [Gap.text]

theorem upToQuote_plain {v : Bytes} (h : ∀ c ∈ v, c ≠ quote) : upToQuote v = v := by
  rw [upToQuote, List.takeWhile_eq_self_iff]
  intro c hc
  simpa using h c hc

theorem copyString_quote (room : ℕ) (p : Bytes) : copyString room (quote :: p) = .found [] := by
  unfold copyString
  rw [if_pos rfl]

theorem copyString_cons (room : ℕ) {c : UInt8} (p : Bytes) (hc : c ≠ quote) :
    copyString room (c :: p) =
      match room with
      | 0 => .tooLong
      | room + 1 => (copyString room p).cons c := by
  cases room with
  | zero =>
    unfold copyString
    rw [if_neg hc]
  | succ room =>
    conv_lhs => unfold copyString
    rw [if_neg hc]

theorem copyString_append (room : ℕ) (s rest : Bytes) :
    copyString room (s ++ quote :: rest) =
      if (upToQuote s).length ≤ room then .found (upToQuote s) else .tooLong := by
  induction s generalizing room with
  | nil =>
    rw [List.nil_append, copyString_quote]
    simp [upToQuote]
  | cons c s ih =>
    by_cases hc : c = quote
    · subst hc
      rw [List.cons_append, copyString_quote]
      simp [upToQuote]
    · have hup : upToQuote (c :: s) = c :: upToQuote s := by simp [upToQuote, hc]
      rw [hup, List.cons_append, copyString_cons room _ hc]
      cases room with
      | zero => simp
      | succ room =>
        simp only [ih, List.length_cons, Nat.add_le_add_iff_right]
        split <;> rfl

theorem copyString_ofRead (outSz : ℕ) (hpos : 0 < outSz) (s rest : Bytes) :
    copyString (outSz - 1) (s ++ quote :: rest) = ofRead outSz (some (upToQuote s)) := by
  rw [copyString_append, ofRead]
  congr 1
  rw [eq_iff_iff]
  omega

theorem copyValue_eq (outSz : ℕ) (l r tail : Bytes) (hl : ∀ c ∈ l, c ≠ colon)
    (hr : ∀ c ∈ r, isspace c = true) :
    copyValue (l ++ colon :: (r ++ quote :: tail)) outSz = copyString (outSz - 1) tail := by
  have hdrop : (r ++ quote :: tail).dropWhile isspace = quote :: tail := by
    rw [List.dropWhile_append_of_pos hr]
    exact List.dropWhile_cons_of_neg (by decide)
  rw [copyValue, after_single colon l _ hl]
  simp only [hdrop, if_true]

/-- Behind a name the scanner reads the member's value. -/
theorem copyValue_name (outSz : ℕ) (hpos : 0 < outSz) (m : Member) (tail : Bytes) :
    copyValue (m.colonGap.text ++ quote :: (m.value.raw ++ quote :: tail)) outSz =
      ofRead outSz (some (upToQuote m.value.raw)) := by
  have hl : ∀ c ∈ m.colonGap.left, c ≠ colon := by
    intro c hc he
    have hb := List.all_eq_true.mp m.colonGap.leftBlank c hc
    rw [he] at hb
    exact absurd hb (by decide)
  have hr : ∀ c ∈ m.colonGap.right, isspace c = true := fun c hc =>
    jsonBlank_isspace (List.all_eq_true.mp m.colonGap.rightBlank c hc)
  rw [Gap.text, List.append_assoc, List.cons_append, copyValue_eq outSz _ _ _ hl hr,
    copyString_ofRead outSz hpos]

/-- Behind a colon inside a name nothing but blanks leads to a quote. -/
theorem copyValue_colon (outSz : ℕ) (hpos : 0 < outSz) (name l a r tail : Bytes)
    (hname : Escaped quote backslash name) (hsplit : name = a ++ colon :: r)
    (hl : ∀ c ∈ l ++ a, c ≠ colon) (gap value : Bytes) (hgap : ∀ c ∈ gap, c ≠ quote)
    (htail : tail = gap ++ quote :: value) :
    copyValue (l ++ (name ++ quote :: tail)) outSz =
      ofRead outSz (if r.all isspace then some gap else none) := by
  have htext : l ++ (name ++ quote :: tail) = (l ++ a) ++ colon :: (r ++ quote :: tail) := by
    rw [hsplit]
    simp
  rw [htext]
  by_cases hr : r.all isspace = true
  · rw [if_pos hr, copyValue_eq outSz _ r tail hl (List.all_eq_true.mp hr), htail,
      copyString_ofRead outSz hpos, upToQuote_plain hgap]
  · rw [if_neg hr, copyValue, after_single colon _ _ hl]
    obtain ⟨c, s, hdrop⟩ : ∃ c s, r.dropWhile isspace = c :: s := by
      apply List.exists_cons_of_ne_nil
      intro hnil
      rw [List.dropWhile_eq_nil_iff] at hnil
      exact hr (List.all_eq_true.mpr hnil)
    have happ : (r ++ quote :: tail).dropWhile isspace = c :: (s ++ quote :: tail) := by
      rw [List.dropWhile_append, hdrop]
      simp
    have hc : c ≠ quote := by
      intro he
      subst he
      have hsp : r = r.takeWhile isspace ++ quote :: s := by
        rw [← hdrop, List.takeWhile_append_dropWhile]
      have hall : name = (a ++ colon :: r.takeWhile isspace) ++ quote :: s := by
        rw [hsplit, List.append_assoc, List.cons_append, ← hsp]
      obtain ⟨d, hd⟩ := escape_before_quote (by decide) hname _ _ hall
      have hlast : (colon :: r.takeWhile isspace).getLast? = some backslash := by
        have h := congrArg List.getLast? hd
        simpa using h
      have hmem := List.mem_of_getLast? hlast
      rcases List.mem_cons.mp hmem with hb | hb
      · exact absurd hb (by decide)
      · exact absurd (List.mem_takeWhile_imp hb) (by decide)
    simp only [happ, if_neg hc]
    rfl

/-- Behind a value the scanner reads on in the next member. -/
theorem copyValue_behind (outSz : ℕ) (hpos : 0 < outSz) (gap : Bytes) (m : Member) (tail : Bytes)
    (hgap : ∀ c ∈ gap, c ≠ colon) :
    copyValue (gap ++ quote :: (m.name.raw ++ quote ::
      (m.colonGap.text ++ quote :: (m.value.raw ++ quote :: tail)))) outSz =
      ofRead outSz (readBehind m) := by
  rw [readBehind]
  by_cases hcol : colon ∈ m.name.raw
  · obtain ⟨a, r, hsplit, ha⟩ := List.eq_append_cons_of_mem hcol
    have ha' : ∀ c ∈ a, c ≠ colon := fun c hc he => ha (he ▸ hc)
    have hafter : after [colon] m.name.raw = some r := by
      rw [hsplit, after_single colon a r ha']
    have hmid : ∀ c ∈ m.colonGap.text, c ≠ quote := fun c hc =>
      m.colonGap.mem_ne (by decide) (by decide) hc
    have hl : ∀ c ∈ (gap ++ [quote]) ++ a, c ≠ colon := by
      intro c hc
      rw [List.mem_append, List.mem_append, List.mem_singleton] at hc
      rcases hc with (hc | rfl) | hc
      · exact hgap c hc
      · decide
      · exact ha' c hc
    have h := copyValue_colon outSz hpos m.name.raw (gap ++ [quote]) a r _ m.name.escaped hsplit hl
      m.colonGap.text (m.value.raw ++ quote :: tail) hmid rfl
    rw [hafter]
    rw [← h]
    congr 1
    simp
  · have hafter : after [colon] m.name.raw = none :=
      after_none colon [] _ fun c hc he => hcol (he ▸ hc)
    have hl : ∀ c ∈ gap ++ quote :: (m.name.raw ++ quote :: m.colonGap.left), c ≠ colon := by
      intro c hc
      simp only [List.mem_append, List.mem_cons] at hc
      rcases hc with hc | rfl | hc | rfl | hc
      · exact hgap c hc
      · decide
      · exact fun he => hcol (he ▸ hc)
      · decide
      · intro he
        have hb := List.all_eq_true.mp m.colonGap.leftBlank c hc
        rw [he] at hb
        exact absurd hb (by decide)
    have hr : ∀ c ∈ m.colonGap.right, isspace c = true := fun c hc =>
      jsonBlank_isspace (List.all_eq_true.mp m.colonGap.rightBlank c hc)
    rw [hafter]
    have htext : gap ++ quote :: (m.name.raw ++ quote ::
        (m.colonGap.text ++ quote :: (m.value.raw ++ quote :: tail))) =
        (gap ++ quote :: (m.name.raw ++ quote :: m.colonGap.left)) ++ colon ::
          (m.colonGap.right ++ quote :: (m.value.raw ++ quote :: tail)) := by
      simp [Gap.text]
    rw [htext, copyValue_eq outSz _ _ _ hl hr, copyString_ofRead outSz hpos]

/-- The walk over placed members, as the search over their strings makes it. -/
theorem seek_scan (key ending : Bytes) (outSz : ℕ) (hpos : 0 < outSz)
    (hend : ∀ c ∈ ending, c ≠ colon) (placed : List (Bytes × Member))
    (hgaps : ∀ e ∈ placed, ∀ c ∈ e.1, c ≠ colon) :
    (match seek quote key (strings placed) with
      | none => .absent
      | some ps => copyValue (Scan.Quoted.text quote ending ps) outSz) =
      ofRead outSz (scan key (placed.map Prod.snd)) := by
  induction placed with
  | nil => rfl
  | cons e placed ih =>
    obtain ⟨gap, m⟩ := e
    have hcons : strings ((gap, m) :: placed) =
        (gap, m.name.raw) :: (m.colonGap.text, m.value.raw) :: strings placed := rfl
    rw [hcons, List.map_cons, scan, seek]
    by_cases hn : Spells quote m.name.raw key
    · simp only [if_pos hn, Scan.Quoted.text]
      exact copyValue_name outSz hpos m _
    · rw [if_neg hn, if_neg hn, seek]
      by_cases hv : Spells quote m.value.raw key
      · simp only [if_pos hv]
        cases placed with
        | nil =>
          simp only [strings, List.flatMap_nil, Scan.Quoted.text, List.map_nil]
          rw [copyValue, after_none colon [] ending hend]
          rfl
        | cons e' placed =>
          obtain ⟨gap', m'⟩ := e'
          have hgap' := hgaps (gap', m') (by simp)
          exact copyValue_behind outSz hpos gap' m' _ hgap'
      · rw [if_neg hv, if_neg hv]
        exact ih fun e he => hgaps e (by simp [he])

namespace FlatObject

variable (obj : FlatObject)

theorem placed_gap {e : Bytes × Member} (he : e ∈ obj.placed) {c : UInt8} (hc : c ∈ e.1) :
    c = lbrace ∨ c = comma ∨ jsonBlank c = true := by
  rw [placed] at he
  split at he
  · simp at he
  · rcases List.mem_cons.mp he with rfl | he
    · rcases obj.opening.mem_text hc with h | h
      · exact Or.inl h
      · exact Or.inr (Or.inr h)
    · obtain ⟨g, _, rfl⟩ := List.mem_map.mp he
      exact Or.inr (g.1.mem_text hc)

theorem placed_gap_sep {e : Bytes × Member} (he : e ∈ obj.placed) :
    lbrace ∈ e.1 ∨ comma ∈ e.1 := by
  rw [placed] at he
  split at he
  · simp at he
  · rcases List.mem_cons.mp he with rfl | he
    · exact Or.inl obj.opening.sep_mem
    · obtain ⟨g, _, rfl⟩ := List.mem_map.mp he
      exact Or.inr g.1.sep_mem

theorem mem_ending {c : UInt8} (hc : c ∈ obj.ending) :
    c = lbrace ∨ c = rbrace ∨ jsonBlank c = true := by
  rw [ending] at hc
  split at hc
  · rcases List.mem_append.mp hc with hc | hc
    · rcases obj.opening.mem_text hc with h | h
      · exact Or.inl h
      · exact Or.inr (Or.inr h)
    · exact Or.inr (obj.closing.mem_text hc)
  · exact Or.inr (obj.closing.mem_text hc)

/-- The scanner on the text of an object is the walk over its members. -/
theorem extract_text {key : Bytes} (hkey : PlainKey key) {outSz : ℕ} (hpos : 0 < outSz) :
    extractJsonString obj.text key outSz = ofRead outSz (scan key obj.members) := by
  have hq : quote ∉ key := fun h => (hkey.plain quote h).1 rfl
  have hb : backslash ∉ key := fun h => (hkey.plain backslash h).2.1 rfl
  have hneedle : needle key = quote :: (key ++ [quote]) := by
    apply List.take_of_length_le
    have hs := hkey.short
    simp only [List.length_cons, List.length_append, List.length_nil]
    omega
  have hgapchar : ∀ e ∈ obj.placed, ∀ c ∈ e.1, c ≠ quote ∧ c ≠ backslash ∧ c ≠ colon := by
    intro e he c hc
    rcases obj.placed_gap he hc with rfl | rfl | hblank
    · decide
    · decide
    · refine ⟨?_, ?_, ?_⟩ <;>
      · rintro rfl
        exact absurd hblank (by decide)
  have hgapkey : ∀ e ∈ obj.placed, e.1 ≠ key := by
    rintro e he rfl
    rcases obj.placed_gap_sep he with h | h
    · exact (hkey.plain _ h).2.2.2.2 rfl
    · exact (hkey.plain _ h).2.2.2.1 rfl
  have hpairs : ∀ p ∈ strings obj.placed,
      ((∀ x ∈ p.1, x ≠ quote ∧ x ≠ backslash) ∧ p.1 ≠ key) ∧ Escaped quote backslash p.2 := by
    intro p hp
    rw [strings, List.mem_flatMap] at hp
    obtain ⟨e, he, hp⟩ := hp
    rcases List.mem_cons.mp hp with rfl | hp
    · exact ⟨⟨fun x hx => ⟨(hgapchar e he x hx).1, (hgapchar e he x hx).2.1⟩, hgapkey e he⟩,
        e.2.name.escaped⟩
    · rw [List.mem_singleton] at hp
      subst hp
      refine ⟨⟨?_, ?_⟩, e.2.value.escaped⟩
      · exact fun x hx => ⟨e.2.colonGap.mem_ne (by decide) (by decide) hx,
          e.2.colonGap.mem_ne (by decide) (by decide) hx⟩
      · intro hk
        have hc := e.2.colonGap.sep_mem
        rw [show e.2.colonGap.text = key from hk] at hc
        exact (hkey.plain _ hc).2.2.1 rfl
  have hendchar : ∀ c ∈ obj.ending, c ≠ quote ∧ c ≠ colon := by
    intro c hc
    rcases obj.mem_ending hc with rfl | rfl | hblank
    · decide
    · decide
    · constructor <;>
      · rintro rfl
        exact absurd hblank (by decide)
  rw [extractJsonString, hneedle, text, after_text (by decide) hq hb _ (fun p hp => (hpairs p hp).1)
    (fun p hp => (hpairs p hp).2) fun c hc => (hendchar c hc).1]
  rw [members, ← seek_scan key obj.ending outSz hpos (fun c hc => (hendchar c hc).2) obj.placed
    fun e he c hc => (hgapchar e he c hc).2.2]
  cases seek quote key (strings obj.placed) <;> rfl

end FlatObject

section Compact

def compact (sep : UInt8) : Gap sep := ⟨[], [], rfl, rfl⟩

/-- The printable bytes of a text that need no escape. -/
def plainString (text : Bytes) : JsonString where
  raw := text.filter fun c => c ≠ quote && c ≠ backslash && 32 ≤ c
  escaped := by
    apply escaped_of_plain
    intro c hc
    simp only [List.mem_filter, Bool.and_eq_true, decide_eq_true_eq] at hc
    exact hc.2.1
  printable := by
    rw [List.all_eq_true]
    intro c hc
    simp only [List.mem_filter, Bool.and_eq_true] at hc
    exact hc.2.2

def plainMember (name : String) (value : Bytes) : Member :=
  ⟨plainString (lit name), compact colon, plainString value⟩

def compactObject (first : Member) (rest : List Member) : FlatObject :=
  ⟨compact lbrace, some (first, rest.map fun m => (compact comma, m)), compact rbrace⟩

theorem compactObject_members (first : Member) (rest : List Member) :
    (compactObject first rest).members = first :: rest := by
  simp [compactObject, FlatObject.members, FlatObject.placed, Function.comp_def]

end Compact

end Ucisdk.JsonObject
