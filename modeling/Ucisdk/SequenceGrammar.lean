import Ucisdk.ConfigExact
import Ucisdk.SequenceRun

/-!
# The grammar of a sequence

Steps stand between `>` and the fields of a step between `:`; separators that
repeat, lead or trail separate nothing, and fields behind the fourth are not
looked at. Within the length of the step buffer the parser accepts exactly
these sequences, and the steps hold what their fields say.
-/

set_option autoImplicit false

namespace Ucisdk.SequenceGrammar

open Ucisdk.CString Ucisdk.Common Ucisdk.Protocol Ucisdk.Scheduler Ucisdk.SequenceRun
open Ucisdk.ConfigExact
open Scan.Tokens

section Grammar

/-- Four fields and the step that holds their values: a known domain, action
and type, and the normal name of an algorithm that is not blank. -/
structure Holds (domain action type algorithm : Bytes) (step : SequenceStep) : Prop where
  domain_eq : step.domain = parseDomain domain
  action_eq : step.action = parseAction action
  type_eq : step.preferredType = parseDeviceType type
  algorithm_eq : step.algorithm.bytes = normalName algorithm
  domainKnown : parseDomain domain ≠ .unknown
  actionKnown : parseAction action ≠ .unknown
  typeKnown : parseDeviceType type ≠ .unknown
  algorithmGiven : normalName algorithm ≠ []

/-- The text between two `>` spells a step with its first four fields. -/
def SpellsStep (piece : Bytes) (step : SequenceStep) : Prop :=
  ∃ domain action type algorithm more,
    tokens isColon piece = domain :: action :: type :: algorithm :: more ∧
      Holds domain action type algorithm step

/-- A sequence of as many steps as there is room for. -/
def SpellsSequence (sequence : Bytes) (steps : List SequenceStep) : Prop :=
  steps.length ≤ maxSequenceSteps ∧ List.Forall₂ SpellsStep (tokens gt sequence) steps

end Grammar

section Steps

variable {piece : Bytes} {step : SequenceStep}

/-- A field of a step is no longer than the step. -/
theorem field_short {field : Bytes} (h : field ∈ tokens isColon piece)
    (hshort : piece.length < maxFieldLen) : field.length < maxFieldLen :=
  Nat.lt_of_le_of_lt (mem_tokens isColon h).2.2.length_le hshort

theorem parseStep_few (hstore : (store maxFieldLen piece).bytes = piece)
    (hfew : (tokens isColon piece).length < 4) : parseStep piece ≠ .ok step := by
  simp only [parseStep, hstore]
  split
  · simp
  · simp
  · simp
  · simp
  · rename_i hfields
    simp only [hfields, List.length_cons] at hfew
    omega

theorem parseStep_fields (hstore : (store maxFieldLen piece).bytes = piece)
    {domain action type algorithm : Bytes} {more : List Bytes}
    (hfields : tokens isColon piece = domain :: action :: type :: algorithm :: more)
    (halgorithm : algorithm.length < maxFieldLen) :
    parseStep piece = .ok step ↔ Holds domain action type algorithm step := by
  simp only [parseStep, hstore, hfields, normalizeAlgorithmName_short halgorithm]
  by_cases hblank : normalName algorithm = []
  · rw [if_pos hblank]
    constructor
    · simp
    · intro h
      exact absurd hblank h.algorithmGiven
  · rw [if_neg hblank]
    by_cases hunknown : parseDomain domain = .unknown ∨ parseAction action = .unknown ∨
        parseDeviceType type = .unknown
    · simp only [if_pos hunknown]
      constructor
      · simp
      · intro h
        rcases hunknown with hdomain | haction | htype
        · exact absurd hdomain h.domainKnown
        · exact absurd haction h.actionKnown
        · exact absurd htype h.typeKnown
    · simp only [if_neg hunknown, Except.ok.injEq]
      rw [not_or, not_or] at hunknown
      obtain ⟨hdomain, haction, htype⟩ := hunknown
      have hname := store_fits (normalName_length halgorithm)
      constructor
      · rintro rfl
        exact ⟨rfl, rfl, rfl, hname, hdomain, haction, htype, hblank⟩
      · intro h
        obtain ⟨d, a, t, name⟩ := step
        have hd : d = parseDomain domain := h.domain_eq
        have ha : a = parseAction action := h.action_eq
        have ht : t = parseDeviceType type := h.type_eq
        have hn : name.bytes = normalName algorithm := h.algorithm_eq
        rw [hd, ha, ht, CStr.ext (hname.trans hn.symm)]

/-- A step within the length of its buffer is accepted for what it spells. -/
theorem parseStep_ok_iff (hshort : piece.length < maxFieldLen) :
    parseStep piece = .ok step ↔ SpellsStep piece step := by
  have hstore : (store maxFieldLen piece).bytes = piece := store_fits hshort
  by_cases hfew : (tokens isColon piece).length < 4
  · constructor
    · intro h
      exact absurd h (parseStep_few hstore hfew)
    · rintro ⟨domain, action, type, algorithm, more, hfields, _⟩
      simp only [hfields, List.length_cons] at hfew
      omega
  · obtain ⟨domain, action, type, algorithm, more, hfields⟩ :
        ∃ domain action type algorithm more,
          tokens isColon piece = domain :: action :: type :: algorithm :: more := by
      rcases hfour : tokens isColon piece with _ | ⟨d, _ | ⟨a, _ | ⟨t, _ | ⟨n, more⟩⟩⟩⟩
      · simp [hfour] at hfew
      · simp [hfour] at hfew
      · simp [hfour] at hfew
      · simp [hfour] at hfew
      · exact ⟨d, a, t, n, more, rfl⟩
    have halgorithm : algorithm.length < maxFieldLen :=
      field_short (by rw [hfields]; simp) hshort
    rw [parseStep_fields hstore hfields halgorithm]
    constructor
    · intro h
      exact ⟨domain, action, type, algorithm, more, hfields, h⟩
    · rintro ⟨domain', action', type', algorithm', more', hfields', h⟩
      rw [hfields] at hfields'
      injection hfields' with hd hrest
      injection hrest with ha hrest
      injection hrest with ht hrest
      injection hrest with hn _
      rw [hd, ha, ht, hn]
      exact h

end Steps

section Sequences

theorem parseSteps_ok {room : ℕ} {ts : List Bytes} {steps : List SequenceStep}
    (hroom : ts.length ≤ room)
    (h : List.Forall₂ (fun token step => parseStep token = .ok step) ts steps) :
    parseSteps room ts = .ok steps := by
  induction h generalizing room with
  | nil => cases room <;> rfl
  | cons hstep _ ih =>
    cases room with
    | zero => simp at hroom
    | succ room =>
      rw [parseSteps, hstep, ih (by simpa using hroom)]
      rfl

theorem parseSteps_room {room : ℕ} {ts : List Bytes} {steps : List SequenceStep}
    (h : parseSteps room ts = .ok steps) : steps.length ≤ room := by
  induction ts generalizing room steps with
  | nil =>
    have hnil := parseSteps_forall₂ h
    rw [List.forall₂_nil_left_iff] at hnil
    simp [hnil]
  | cons token ts ih =>
    cases room with
    | zero => simp [parseSteps] at h
    | succ room =>
      rw [parseSteps] at h
      cases hstep : parseStep token with
      | error e => simp [hstep, bind, Except.bind] at h
      | ok step =>
        cases hrest : parseSteps room ts with
        | error e => simp [hstep, hrest, bind, Except.bind] at h
        | ok rest =>
          simp only [hstep, hrest, bind, Except.bind, Except.ok.injEq] at h
          rw [← h, List.length_cons]
          exact Nat.succ_le_succ (ih hrest)

theorem parseSteps_ok_iff {room : ℕ} {ts : List Bytes} {steps : List SequenceStep} :
    parseSteps room ts = .ok steps ↔
      steps.length ≤ room ∧
        List.Forall₂ (fun token step => parseStep token = .ok step) ts steps := by
  constructor
  · intro h
    exact ⟨parseSteps_room h, parseSteps_forall₂ h⟩
  · rintro ⟨hroom, h⟩
    exact parseSteps_ok (h.length_eq ▸ hroom) h

/-- Steps that are all within the length of their buffer. -/
def StepsFit (sequence : Bytes) : Prop :=
  ∀ piece ∈ tokens gt sequence, piece.length < maxFieldLen

theorem forall₂_congr {α β : Type} {r q : α → β → Prop} {ts : List α}
    (h : ∀ t ∈ ts, ∀ x, r t x ↔ q t x) (xs : List β) :
    List.Forall₂ r ts xs ↔ List.Forall₂ q ts xs := by
  induction ts generalizing xs with
  | nil => simp
  | cons t ts ih =>
    have hrest := ih fun u hu => h u (List.mem_cons_of_mem t hu)
    simp only [List.forall₂_cons_left_iff, h t (by simp), hrest]

theorem parseSequence_spelled {req : Request} (hfit : StepsFit req.sequence.bytes)
    {steps : List SequenceStep} (hsteps : steps ≠ []) :
    parseSequence req = .ok steps ↔ SpellsSequence req.sequence.bytes steps := by
  by_cases hne : req.sequence.bytes = []
  · rw [parseSequence, if_pos hne, SpellsSequence, hne, tokens_nil, List.forall₂_nil_left_iff]
    simp [hsteps, hsteps.symm]
  · rw [parseSequence, if_neg hne, store_self, parseSteps_ok_iff, SpellsSequence]
    exact and_congr_right fun _ => forall₂_congr (fun t ht _ => parseStep_ok_iff (hfit t ht)) steps

/-- Steps are read from the sequences that spell them and from no others, and
what has a step in it and spells none is rejected. -/
theorem parseSequence_grammar (req : Request) (hfit : StepsFit req.sequence.bytes) :
    (∀ steps, steps ≠ [] →
      (parseSequence req = .ok steps ↔ SpellsSequence req.sequence.bytes steps)) ∧
    ((∃ c ∈ req.sequence.bytes, gt c = false) →
      (∀ steps, ¬SpellsSequence req.sequence.bytes steps) →
        ∃ errbuf, parseSequence req = .error errbuf) := by
  constructor
  · intro steps hsteps
    exact parseSequence_spelled hfit hsteps
  · rintro ⟨c, hc, hgt⟩ hnone
    cases hparse : parseSequence req with
    | error errbuf => exact ⟨errbuf, rfl⟩
    | ok steps =>
      have hsteps : steps ≠ [] := by
        rintro rfl
        have hall := (parseSequence_nil_iff (List.ne_nil_of_mem hc)).mp hparse
        rw [hall c hc] at hgt
        cases hgt
      exact absurd ((parseSequence_spelled hfit hsteps).mp hparse) (hnone steps)

end Sequences

section Strict

/-- One to four steps with a single `>` between two, each of four fields that
are not empty, with a single `:` between two. -/
def WellSeparated (sequence : Bytes) : Prop :=
  ∀ piece ∈ sequence.splitOnP gt, (piece.splitOnP isColon).length = 4 ∧
    ∀ field ∈ piece.splitOnP isColon, field ≠ []

instance (sequence : Bytes) : Decidable (WellSeparated sequence) :=
  inferInstanceAs (Decidable (∀ piece ∈ sequence.splitOnP gt, _ ∧ ∀ field ∈ _, field ≠ []))

theorem tokens_separated {p : UInt8 → Bool} {l : Bytes} (h : ∀ t ∈ l.splitOnP p, t ≠ []) :
    tokens p l = l.splitOnP p := by
  rw [tokens, List.filter_eq_self]
  intro t ht
  simpa using h t ht

/-- A well-separated sequence is read field by field. -/
theorem parseSequence_wellSeparated {req : Request} (hfit : StepsFit req.sequence.bytes)
    (hsep : WellSeparated req.sequence.bytes) {steps : List SequenceStep} (hsteps : steps ≠ []) :
    parseSequence req = .ok steps ↔ steps.length ≤ maxSequenceSteps ∧
      List.Forall₂ (fun piece step => ∃ domain action type algorithm,
          piece.splitOnP isColon = [domain, action, type, algorithm] ∧
            Holds domain action type algorithm step)
        (req.sequence.bytes.splitOnP gt) steps := by
  have hpieces : tokens gt req.sequence.bytes = req.sequence.bytes.splitOnP gt := by
    apply tokens_separated
    rintro piece hpiece rfl
    have hfour := (hsep [] hpiece).1
    simp at hfour
  rw [parseSequence_spelled hfit hsteps, SpellsSequence, hpieces]
  refine and_congr_right fun _ => forall₂_congr ?_ steps
  intro piece hpiece step
  obtain ⟨hfour, hfields⟩ := hsep piece hpiece
  rw [SpellsStep, tokens_separated hfields]
  constructor
  · rintro ⟨domain, action, type, algorithm, more, hsplit, hholds⟩
    have hmore : more = [] := by
      rw [hsplit] at hfour
      simpa using hfour
    exact ⟨domain, action, type, algorithm, hmore ▸ hsplit, hholds⟩
  · rintro ⟨domain, action, type, algorithm, hsplit, hholds⟩
    exact ⟨domain, action, type, algorithm, [], hsplit, hholds⟩

end Strict

section Samples

def withSequence (sequence : String) : Request where
  requestId := store maxIdLen (lit "r23")
  domain := .hash
  action := .hash
  algorithm := store maxFieldLen (lit "sm3")
  keyRef := empty
  payload := store maxPayloadLen (lit "abc")
  auxPayload := empty
  deviceHint := empty
  userPin := empty
  preference := .balanced
  sequence := store maxPayloadLen (lit sequence)

def classicHash : SequenceStep := ⟨.hash, .hash, .classic, store maxFieldLen (lit "sm3")⟩

/-- Separators that lead and trail and a fifth field are all accepted. -/
theorem loose_sequence_accepted :
    parseSequence (withSequence ">>hash::hash:classic:SM3:external_key>") = .ok [classicHash] ∧
      ¬WellSeparated (withSequence ">>hash::hash:classic:SM3:external_key>").sequence.bytes := by
  constructor
  · decide
  · decide

theorem two_steps_spelled :
    SpellsSequence (withSequence "hash:hash:classic:sm3>hash:hash:classic:sm3").sequence.bytes
      [classicHash, classicHash] := by
  have hfit : StepsFit
      (withSequence "hash:hash:classic:sm3>hash:hash:classic:sm3").sequence.bytes := by
    show ∀ piece ∈ tokens gt _, piece.length < maxFieldLen
    decide
  have hgrammar := (parseSequence_grammar _ hfit).1 [classicHash, classicHash] (by simp)
  exact hgrammar.mp (by decide)

end Samples

end Ucisdk.SequenceGrammar
