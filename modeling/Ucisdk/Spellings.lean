import Ucisdk.AlgorithmMember
import Ucisdk.AlgorithmNames

/-!
# Spellings in a request

What a request asks of the devices and of the translation table is a domain,
an action, a name and a key source for itself or for each of its steps. Two
lines that spell an algorithm differently ask the same, unless a spelling is
read as the name or as the value of another member.
-/

set_option autoImplicit false

namespace Ucisdk.Spellings

open Ucisdk.CString Ucisdk.Common Ucisdk.Protocol Ucisdk.Resource Ucisdk.Translator
open Ucisdk.Config Ucisdk.Scheduler Ucisdk.JsonObject Ucisdk.RequestFields
open Ucisdk.AlgorithmMember Ucisdk.AlgorithmNames

section Questions

/-- The arguments of `device_supports` and `find_rule` besides the device. -/
structure Question where
  domain : ApiDomain
  action : ApiAction
  algorithm : CStr maxFieldLen
  keySource : UInt32

/-- What the two functions return, device by device. -/
abbrev Answers := DeviceResource → Bool × Option TranslationRule

def Question.answers (q : Question) : Answers := fun device =>
  (deviceSupports device q.domain q.action q.algorithm.bytes q.keySource,
    findRule device q.domain q.action q.algorithm.bytes)

/-- What a request without a sequence asks, and what steps ask. -/
structure Asked (α : Type) where
  own : Option α
  steps : List α
  deriving DecidableEq

def Asked.map {α β : Type} (f : α → β) (asked : Asked α) : Asked β :=
  ⟨asked.own.map f, asked.steps.map f⟩

/-- The steps of a sequence that parses. -/
def stepsOf (req : Request) : List SequenceStep := (parseSequence req).toOption.getD []

def stepQuestion (source : UInt32) (step : SequenceStep) : Question :=
  ⟨step.domain, step.action, step.algorithm, source⟩

def questions (req : Request) : Asked Question :=
  if req.sequence.bytes = [] then
    ⟨some ⟨req.domain, req.action, req.algorithm, keyRefSourceValue req.keyRef.bytes⟩, []⟩
  else ⟨none, (stepsOf req).map (stepQuestion (keyRefSourceValue req.keyRef.bytes))⟩

/-- The answers to a request line, unless it is refused. -/
def answered (line : Bytes) : Option (Asked Answers) :=
  (parseRequestJson line).toOption.map fun req => (questions req).map Question.answers

/-- A device with one capability. -/
def specialist (cap : Capability) : DeviceResource where
  deviceId := store maxFieldLen []
  type := .classic
  backendProfile := store maxFieldLen []
  priority := 0
  enabled := true
  maxInflight := 1
  inflight := 0
  securityScore := 0
  efficiencyScore := 0
  caps := [cap]
  capsFit := by
    show 1 ≤ maxCaps
    decide

/-- The key sources of a request are the four there are, or none. -/
theorem keyRefSourceValue_lt (keyRef : Bytes) : keyRefSourceValue keyRef < 5 := by
  rw [keyRefSourceValue]
  split
  · decide
  · split_ifs <;> decide

/-- The mask that admits one source, and none for no source. -/
def sourceMask (source : UInt32) : UInt32 := if source = 0 then 0 else 1 <<< source

/-- The source is none, or the mask admits it. -/
def Admitted (mask source : UInt32) : Prop := source = 0 ∨ mask &&& (1 <<< source) ≠ 0

instance (mask source : UInt32) : Decidable (Admitted mask source) :=
  inferInstanceAs (Decidable (_ ∨ _))

/-- The masks of two sources admit one another only where these are the same. -/
theorem sourceMask_admits {a b : UInt32} (ha : a < 5) (hb : b < 5) :
    Admitted (sourceMask a) a ∧ (Admitted (sourceMask a) b → Admitted (sourceMask b) a → a = b) := by
  have hall : ∀ m n : Fin 5, Admitted (sourceMask (UInt32.ofNat m)) (UInt32.ofNat m) ∧
      (Admitted (sourceMask (UInt32.ofNat m)) (UInt32.ofNat n) →
        Admitted (sourceMask (UInt32.ofNat n)) (UInt32.ofNat m) →
          UInt32.ofNat m = UInt32.ofNat n) := by decide
  have hab := hall ⟨a.toNat, ha⟩ ⟨b.toNat, hb⟩
  simpa only [UInt32.ofNat_toNat] using hab

/-- The capability that a question asks for. -/
def Question.capability (q : Question) : Capability :=
  ⟨q.domain, q.action, q.algorithm, sourceMask q.keySource⟩

theorem supports_specialist (q q' : Question) :
    (q'.answers (specialist q.capability)).1 = true ↔
      q.domain = q'.domain ∧ q.action = q'.action ∧
        (q.algorithm.bytes = q'.algorithm.bytes ∨ q.algorithm.bytes = lit "auto") ∧
        Admitted (sourceMask q.keySource) q'.keySource := by
  simp [Question.answers, deviceSupports, specialist, Question.capability, Admitted, and_assoc]

/-- The answers of all devices tell what was asked. -/
theorem answers_injective {q q' : Question} (hq : q.keySource < 5) (hq' : q'.keySource < 5)
    (h : q.answers = q'.answers) : q = q' := by
  have hself (r : Question) (hr : r.keySource < 5) :
      (r.answers (specialist r.capability)).1 = true :=
    (supports_specialist r r).mpr ⟨rfl, rfl, .inl rfl, (sourceMask_admits hr hr).1⟩
  have hfirst := hself q hq
  have hsecond := hself q' hq'
  rw [h, supports_specialist] at hfirst
  rw [← h, supports_specialist] at hsecond
  obtain ⟨hdomain, haction, halgorithm, hsource⟩ := hfirst
  obtain ⟨_, _, halgorithm', hsource'⟩ := hsecond
  have hname : q.algorithm.bytes = q'.algorithm.bytes := by
    obtain heq | hauto := halgorithm
    · exact heq
    · obtain heq | hauto' := halgorithm'
      · exact heq.symm
      · exact hauto.trans hauto'.symm
  have hkey : q.keySource = q'.keySource :=
    (sourceMask_admits hq hq').2 hsource hsource'
  cases q
  cases q'
  simp only [Question.mk.injEq]
  exact ⟨hdomain, haction, CStr.ext hname, hkey⟩

end Questions

section Parts

/-- What a member of a request has to do with what is asked. -/
inductive AskedPart where
  | unused
  | domain (value : ApiDomain)
  | action (value : ApiAction)
  | algorithm (value : CStr maxFieldLen)
  | source (value : UInt32)
  | plain
  | steps (value : List (ApiDomain × ApiAction × CStr maxFieldLen))
  deriving DecidableEq

/-- The part of a step that does not come from the key reference. -/
def stepPart (step : SequenceStep) : ApiDomain × ApiAction × CStr maxFieldLen :=
  (step.domain, step.action, step.algorithm)

def ownPart (req : Request) : Field → AskedPart
  | .domain => .domain req.domain
  | .action => .action req.action
  | .algorithm => .algorithm req.algorithm
  | .keyRef => .source (keyRefSourceValue req.keyRef.bytes)
  | .sequence => .plain
  | _ => .unused

/-- Beside a sequence the domain, the action and the algorithm go unused, and
the key source where the sequence has no step. -/
def stepsPart (req : Request) : Field → AskedPart
  | .keyRef => if stepsOf req = [] then .unused else .source (keyRefSourceValue req.keyRef.bytes)
  | .sequence => .steps ((stepsOf req).map stepPart)
  | _ => .unused

def askedPart (req : Request) (f : Field) : AskedPart :=
  if req.sequence.bytes = [] then ownPart req f else stepsPart req f

theorem stepQuestions_eq_iff (steps steps' : List SequenceStep) (source source' : UInt32) :
    steps.map (stepQuestion source) = steps'.map (stepQuestion source') ↔
      steps.map stepPart = steps'.map stepPart ∧ (steps = [] ∨ source = source') := by
  constructor
  · intro h
    have hparts := congrArg (List.map fun q : Question => (q.domain, q.action, q.algorithm)) h
    rw [List.map_map, List.map_map] at hparts
    refine ⟨hparts, ?_⟩
    cases steps with
    | nil => exact .inl rfl
    | cons step steps =>
      cases steps' with
      | nil => cases h
      | cons step' steps' =>
        exact .inr (congrArg Question.keySource (List.cons.inj h).1)
  · rintro ⟨hparts, rfl | rfl⟩
    · rw [List.map_nil, eq_comm, List.map_eq_nil_iff] at hparts
      rw [hparts]
      rfl
    · have hmake := congrArg (List.map fun part => (⟨part.1, part.2.1, part.2.2, source⟩ : Question))
        hparts
      rw [List.map_map, List.map_map] at hmake
      exact hmake

theorem map_answers_injective {qs qs' : List Question} (hqs : ∀ q ∈ qs, q.keySource < 5)
    (hqs' : ∀ q ∈ qs', q.keySource < 5) (h : qs.map Question.answers = qs'.map Question.answers) :
    qs = qs' := by
  induction qs generalizing qs' with
  | nil => rw [List.map_nil, eq_comm, List.map_eq_nil_iff] at h; exact h.symm
  | cons q qs ih =>
    cases qs' with
    | nil => cases h
    | cons q' qs' =>
      obtain ⟨hhead, htail⟩ := List.cons.inj h
      rw [answers_injective (hqs q List.mem_cons_self) (hqs' q' List.mem_cons_self) hhead,
        ih (fun r hr => hqs r (List.mem_cons_of_mem q hr))
          (fun r hr => hqs' r (List.mem_cons_of_mem q' hr)) htail]

theorem stepQuestion_source (req : Request) :
    ∀ q ∈ (stepsOf req).map (stepQuestion (keyRefSourceValue req.keyRef.bytes)),
      q.keySource < 5 := by
  intro q hq
  obtain ⟨step, _, rfl⟩ := List.mem_map.mp hq
  exact keyRefSourceValue_lt _

theorem plain_answers_iff {r r' : Request} (hr : r.sequence.bytes = [])
    (hr' : r'.sequence.bytes = []) :
    (questions r).map Question.answers = (questions r').map Question.answers ↔
      ∀ f, askedPart r f = askedPart r' f := by
  simp only [questions, askedPart, if_pos hr, if_pos hr', Asked.map, Option.map_some,
    Asked.mk.injEq, and_true, Option.some.injEq, List.map_nil]
  constructor
  · intro h f
    have hq := answers_injective (keyRefSourceValue_lt _) (keyRefSourceValue_lt _) h
    rw [Question.mk.injEq] at hq
    obtain ⟨hdomain, haction, halgorithm, hsource⟩ := hq
    cases f with
    | domain => exact congrArg AskedPart.domain hdomain
    | action => exact congrArg AskedPart.action haction
    | algorithm => exact congrArg AskedPart.algorithm halgorithm
    | keyRef => exact congrArg AskedPart.source hsource
    | _ => rfl
  · intro h
    rw [AskedPart.domain.inj (h .domain), AskedPart.action.inj (h .action),
      AskedPart.algorithm.inj (h .algorithm), AskedPart.source.inj (h .keyRef)]

theorem step_answers_iff {r r' : Request} (hr : r.sequence.bytes ≠ [])
    (hr' : r'.sequence.bytes ≠ []) :
    (questions r).map Question.answers = (questions r').map Question.answers ↔
      ∀ f, askedPart r f = askedPart r' f := by
  have hlists : (questions r).map Question.answers = (questions r').map Question.answers ↔
      (stepsOf r).map stepPart = (stepsOf r').map stepPart ∧
        (stepsOf r = [] ∨ keyRefSourceValue r.keyRef.bytes = keyRefSourceValue r'.keyRef.bytes) := by
    simp only [questions, if_neg hr, if_neg hr', Asked.map, Option.map_none, Asked.mk.injEq,
      true_and]
    rw [← stepQuestions_eq_iff]
    exact ⟨map_answers_injective (stepQuestion_source r) (stepQuestion_source r'),
      congrArg (List.map Question.answers)⟩
  rw [hlists]
  simp only [askedPart, if_neg hr, if_neg hr']
  constructor
  · rintro ⟨hparts, hsource⟩ f
    have hnil : stepsOf r = [] ↔ stepsOf r' = [] := by
      rw [← List.map_eq_nil_iff, hparts, List.map_eq_nil_iff]
    cases f with
    | keyRef =>
      by_cases hsteps : stepsOf r = []
      · rw [stepsPart, stepsPart, if_pos hsteps, if_pos (hnil.mp hsteps)]
      · rw [stepsPart, stepsPart, if_neg hsteps, if_neg (mt hnil.mpr hsteps),
          hsource.resolve_left hsteps]
    | sequence => exact congrArg AskedPart.steps hparts
    | _ => rfl
  · intro h
    have hparts := AskedPart.steps.inj (h .sequence)
    refine ⟨hparts, ?_⟩
    by_cases hsteps : stepsOf r = []
    · exact .inl hsteps
    · have hsteps' : stepsOf r' ≠ [] := by
        intro hnil
        rw [hnil, List.map_nil, List.map_eq_nil_iff] at hparts
        exact hsteps hparts
      have hkey := h .keyRef
      rw [stepsPart, stepsPart, if_neg hsteps, if_neg hsteps'] at hkey
      exact .inr (AskedPart.source.inj hkey)

/-- Two requests get the same answers from all devices exactly when their
members agree in all that is asked. -/
theorem answers_eq_iff (r r' : Request) :
    (questions r).map Question.answers = (questions r').map Question.answers ↔
      ∀ f, askedPart r f = askedPart r' f := by
  by_cases hr : r.sequence.bytes = []
  · by_cases hr' : r'.sequence.bytes = []
    · exact plain_answers_iff hr hr'
    · refine iff_of_false (fun h => ?_) fun h => ?_
      · have hown := congrArg Asked.own h
        simp [questions, hr, hr', Asked.map] at hown
      · have hsequence := h .sequence
        simp [askedPart, ownPart, stepsPart, hr, hr'] at hsequence
  · by_cases hr' : r'.sequence.bytes = []
    · refine iff_of_false (fun h => ?_) fun h => ?_
      · have hown := congrArg Asked.own h
        simp [questions, hr, hr', Asked.map] at hown
      · have hsequence := h .sequence
        simp [askedPart, ownPart, stepsPart, hr, hr'] at hsequence
    · exact step_answers_iff hr hr'

end Parts

section Lines

/-- Two requests with the same sequence ask the same of their steps. -/
theorem sequence_part {r r' : Request} (h : r.sequence = r'.sequence) :
    askedPart r .sequence = askedPart r' .sequence := by
  have hsteps : stepsOf r = stepsOf r' := by
    rw [stepsOf, stepsOf, parseSequence, parseSequence, h]
  rw [askedPart, askedPart, h, stepsPart, stepsPart, hsteps]
  rfl

theorem stepsOf_empty {r : Request} (h : r.sequence.bytes = []) : stepsOf r = [] := by
  rw [stepsOf, parseSequence, if_pos h]
  rfl

/-- Where the steps agree, so do the questions whether there are any. -/
theorem sequence_alike {r r' : Request} (h : askedPart r .sequence = askedPart r' .sequence) :
    (r.sequence.bytes = [] ↔ r'.sequence.bytes = []) ∧ (stepsOf r = [] ↔ stepsOf r' = []) := by
  rw [askedPart, askedPart] at h
  by_cases hr : r.sequence.bytes = []
  · by_cases hr' : r'.sequence.bytes = []
    · exact ⟨iff_of_true hr hr', iff_of_true (stepsOf_empty hr) (stepsOf_empty hr')⟩
    · rw [if_pos hr, if_neg hr'] at h
      cases h
  · by_cases hr' : r'.sequence.bytes = []
    · rw [if_neg hr, if_pos hr'] at h
      cases h
    · rw [if_neg hr, if_neg hr'] at h
      have hparts := AskedPart.steps.inj h
      refine ⟨iff_of_false hr hr', ?_⟩
      rw [← List.map_eq_nil_iff, hparts, List.map_eq_nil_iff]

section Texts

variable {t t' : Texts}

/-- A text that is the same has the same part in what is asked. -/
theorem askedPart_congr {f : Field} (hf : f ≠ .algorithm) (htext : t f = t' f)
    (hsequence : askedPart (assembled t) .sequence = askedPart (assembled t') .sequence) :
    askedPart (assembled t) f = askedPart (assembled t') f := by
  obtain ⟨hempty, hsteps⟩ := sequence_alike hsequence
  rw [askedPart, askedPart]
  by_cases hr : (assembled t).sequence.bytes = []
  · rw [if_pos hr, if_pos (hempty.mp hr)]
    cases f with
    | algorithm => exact absurd rfl hf
    | domain | action | keyRef => simp only [ownPart, assembled, htext]
    | _ => rfl
  · rw [if_neg hr, if_neg (mt hempty.mpr hr)]
    cases f with
    | keyRef =>
      have hkey : (assembled t).keyRef = (assembled t').keyRef := by
        rw [assembled, assembled, htext]
      rw [stepsPart, stepsPart, hkey]
      by_cases hnone : stepsOf (assembled t) = []
      · rw [if_pos hnone, if_pos (hsteps.mp hnone)]
      · rw [if_neg hnone, if_neg (mt hsteps.mpr hnone)]
    | sequence =>
      rw [askedPart, askedPart, if_neg hr, if_neg (mt hempty.mpr hr)] at hsequence
      exact hsequence
    | _ => rfl

theorem assembled_algorithm {s s' : Spelling} (hname : s.name = s'.name)
    (haction : (assembled t).action = (assembled t').action)
    (h : t .algorithm = t' .algorithm ∨ t .algorithm = some s.text ∧ t' .algorithm = some s'.text) :
    (assembled t).algorithm = (assembled t').algorithm := by
  have hact : parseAction ((t .action).getD []) = parseAction ((t' .action).getD []) := haction
  rw [assembled, assembled, algorithmText, algorithmText]
  obtain h | ⟨hs, hs'⟩ := h
  · rw [h, defaultAlgorithmFor, defaultAlgorithmFor, hact]
  · rw [hs, hs', Option.getD_some, Option.getD_some, s.normalize_eq, s'.normalize_eq]
    exact hname

/-- Texts that differ at most in the spelling of the algorithm and in some
other members ask the same where these members do. -/
theorem asked_iff {s s' : Spelling} (hname : s.name = s'.name) {exposed : Field → Prop}
    (hsame : ∀ f, f ≠ .algorithm → ¬exposed f → t f = t' f)
    (halgorithm : t .algorithm = t' .algorithm ∨
      t .algorithm = some s.text ∧ t' .algorithm = some s'.text) :
    (∀ f, askedPart (assembled t) f = askedPart (assembled t') f) ↔
      ∀ f, f ≠ .algorithm → exposed f →
        askedPart (assembled t) f = askedPart (assembled t') f := by
  refine ⟨fun h f _ _ => h f, fun h => ?_⟩
  have hsequence : askedPart (assembled t) .sequence = askedPart (assembled t') .sequence := by
    by_cases hexp : exposed .sequence
    · exact h .sequence (by decide) hexp
    · apply sequence_part
      rw [assembled, assembled, hsame .sequence (by decide) hexp]
  have hother (f : Field) (hf : f ≠ .algorithm) :
      askedPart (assembled t) f = askedPart (assembled t') f := by
    by_cases hexp : exposed f
    · exact h f hf hexp
    · exact askedPart_congr hf (hsame f hf hexp) hsequence
  intro f
  by_cases hf : f = .algorithm
  · subst hf
    have haction := hother .action (by decide)
    obtain ⟨hempty, _⟩ := sequence_alike hsequence
    rw [askedPart, askedPart] at haction ⊢
    by_cases hr : (assembled t).sequence.bytes = []
    · rw [if_pos hr, if_pos (hempty.mp hr)] at haction ⊢
      exact congrArg AskedPart.algorithm
        (assembled_algorithm hname (AskedPart.action.inj haction) halgorithm)
    · rw [if_neg hr, if_neg (mt hempty.mpr hr)]
      rfl
  · exact hother f hf

/-- A spelling is accepted where another one is. -/
theorem accepts_respelled {s s' : Spelling} (hsame : ∀ f, f ≠ .algorithm → t f = t' f)
    (halgorithm : t .algorithm = t' .algorithm ∨
      t .algorithm = some s.text ∧ t' .algorithm = some s'.text) :
    Accepts t ↔ Accepts t' := by
  have hid := hsame .requestId (by decide)
  have hdomain := hsame .domain (by decide)
  have haction := hsame .action (by decide)
  have hnames : normalizeAlgorithmName (algorithmText t) maxFieldLen ≠ none ↔
      normalizeAlgorithmName (algorithmText t') maxFieldLen ≠ none := by
    rw [algorithmText, algorithmText, hdomain, haction]
    obtain h | ⟨h, h'⟩ := halgorithm
    · rw [h]
    · rw [h, h']
      exact iff_of_true s.accepted s'.accepted
  constructor
  · intro h
    exact ⟨hid ▸ h.requestId, hdomain ▸ h.domain, haction ▸ h.action, hnames.mp h.algorithm⟩
  · intro h
    exact ⟨hid ▸ h.requestId, hdomain ▸ h.domain, haction ▸ h.action, hnames.mpr h.algorithm⟩

end Texts

section Places

variable {p : Place} {s t : Spelling}

/-- What is found in a line with that spelling. -/
def found (p : Place) (s : Spelling) : Texts := foundTexts (extractJsonString (p.line s.text))

/-- The spelling is read in the place of a member of that name, or is read as
the name itself. -/
def Exposed (p : Place) (s t : Spelling) (f : Field) : Prop :=
  Leads p f ∨ Named p s.text f ∨ Named p t.text f

/-- Both lines are refused, or both are accepted and what is read in the place
of each exposed name is the same part of what is asked. -/
def ReadAlike (p : Place) (s t : Spelling) : Prop :=
  (¬Accepts (found p s) ∧ ¬Accepts (found p t)) ∨
    (Accepts (found p s) ∧ Accepts (found p t) ∧
      ∀ f, f ≠ .algorithm → Exposed p s t f →
        askedPart (assembled (found p s)) f = askedPart (assembled (found p t)) f)

theorem found_unexposed (hs : quote ∉ s.text) (ht : quote ∉ t.text) {f : Field}
    (h : ¬Exposed p s t f) : found p s f = found p t f := by
  rw [Exposed, not_or, not_or] at h
  rw [found, found, foundTexts, foundTexts, lookup_elsewhere hs ht h.1 h.2.1 h.2.2]

theorem found_algorithm (hs : quote ∉ s.text) (ht : quote ∉ t.text) :
    found p s .algorithm = found p t .algorithm ∨
      found p s .algorithm = some s.text ∧ found p t .algorithm = some t.text := by
  have hown (u : Spelling) (hu : quote ∉ u.text) (h : Leads p .algorithm) :
      found p u .algorithm = some u.text := by
    have hfit : u.text.length < Field.algorithm.cap := u.short
    rw [found, foundTexts, lookup_leads hu h, ofRead, if_pos hfit, Lookup.text]
  obtain h | h := @lookup_algorithm p s.text t.text hs ht
  · exact .inl (congrArg Lookup.text h)
  · exact .inr ⟨hown s hs h, hown t ht h⟩

theorem answered_found (p : Place) (s : Spelling) :
    answered (p.line s.text) = (requestOf (found p s)).map fun req =>
      (questions req).map Question.answers := by
  rw [answered, parse_line, found]

/-- Two spellings of one name in a line are answered alike where the line is
read alike, and nowhere else. -/
theorem answered_iff (hname : s.name = t.name) (hs : quote ∉ s.text) (ht : quote ∉ t.text) :
    answered (p.line s.text) = answered (p.line t.text) ↔ ReadAlike p s t := by
  have hasked := asked_iff hname (fun f _ hexp => @found_unexposed p s t hs ht f hexp)
    (found_algorithm hs ht)
  rw [answered_found, answered_found, requestOf, requestOf, ReadAlike, ← hasked, ← answers_eq_iff]
  by_cases hold : Accepts (found p s)
  · by_cases hnew : Accepts (found p t)
    · simp [hold, hnew]
    · simp [hold, hnew]
  · by_cases hnew : Accepts (found p t)
    · simp [hold, hnew]
    · simp [hold, hnew]

/-- Spellings that no lookup meets are read alike. -/
theorem readAlike_unexposed (hs : quote ∉ s.text) (ht : quote ∉ t.text)
    (h : ∀ f, f ≠ .algorithm → ¬Exposed p s t f) : ReadAlike p s t := by
  have hsame (f : Field) (hf : f ≠ .algorithm) : found p s f = found p t f :=
    found_unexposed hs ht (h f hf)
  have haccepts : Accepts (found p s) ↔ Accepts (found p t) :=
    accepts_respelled hsame (found_algorithm hs ht)
  by_cases hold : Accepts (found p s)
  · exact .inr ⟨hold, haccepts.mp hold, fun f hf hexp => absurd hexp (h f hf)⟩
  · exact .inl ⟨hold, mt haccepts.mpr hold⟩

end Places

end Lines

section Interchange

/-- Names are canonical, and the spellings of one name may stand for each other
in a capability token, in a step and in the algorithm member of a line. -/
structure Interchangeable (s t : Spelling) (p : Place) : Prop where
  idempotent : normalizeAlgorithmName s.text maxFieldLen = some s.name ∧
    normalizeAlgorithmName s.name.bytes maxFieldLen = some s.name
  identified : s.name = t.name ↔ SameAlgorithm s.text t.text
  /-- The device that is loaded is the same, with all its capabilities. -/
  capability : SameAlgorithm s.text t.text → ∀ domain action keySource,
    colon ∉ domain → colon ∉ action → colon ∉ s.text →
    (capabilityToken domain action s.text keySource).length < 160 →
    (capabilityToken domain action t.text keySource).length < 160 →
    ∀ before after device,
      (loadCapabilities (before ++ capabilityToken domain action s.text keySource :: after)
          device).toOption =
        (loadCapabilities (before ++ capabilityToken domain action t.text keySource :: after)
          device).toOption
  /-- The steps are the same, with all that is asked for them. -/
  step : SameAlgorithm s.text t.text → ∀ front back, FourthField front back →
    (∀ c ∈ s.text, c ≠ colon ∧ c ≠ 62) →
    (front ++ (s.text ++ back)).length < maxFieldLen →
    (front ++ (t.text ++ back)).length < maxFieldLen →
    ∀ left right, Between gt left right → ∀ req req' : Request,
      req.sequence.bytes = left ++ ((front ++ (s.text ++ back)) ++ right) →
      req'.sequence.bytes = left ++ ((front ++ (t.text ++ back)) ++ right) →
        (parseSequence req).toOption = (parseSequence req').toOption
  request : SameAlgorithm s.text t.text → quote ∉ s.text →
    answered (p.line s.text) = answered (p.line t.text)

theorem capability_interchange {s t : Spelling} (h : SameAlgorithm s.text t.text)
    {domain action : Bytes} (keySource : Option Bytes) (hdomain : colon ∉ domain)
    (haction : colon ∉ action) (hs : colon ∉ s.text)
    (hsfit : (capabilityToken domain action s.text keySource).length < 160)
    (htfit : (capabilityToken domain action t.text keySource).length < 160) :
    parseCapability (capabilityToken domain action s.text keySource) =
      parseCapability (capabilityToken domain action t.text keySource) := by
  have ht : colon ∉ t.text :=
    not_mem_of_sameAlgorithm delimits_colon (by decide) h hs
  rw [parseCapability_token s hdomain haction hs keySource hsfit,
    parseCapability_token t hdomain haction ht keySource htfit, (s.name_eq_iff t).mpr h]

/-- Free of the delimiters of a sequence. -/
theorem step_free {s t : Bytes} (h : SameAlgorithm s t) (hs : ∀ c ∈ s, c ≠ colon ∧ c ≠ 62) :
    ∀ c ∈ t, c ≠ colon ∧ c ≠ 62 := by
  have hcolon : colon ∉ t := not_mem_of_sameAlgorithm delimits_colon (by decide) h
    fun hmem => (hs colon hmem).1 rfl
  have hgt : 62 ∉ t := not_mem_of_sameAlgorithm delimits_gt (by decide) h
    fun hmem => (hs 62 hmem).2 rfl
  exact fun c hc => ⟨fun he => hcolon (he ▸ hc), fun he => hgt (he ▸ hc)⟩

theorem quote_free {s t : Bytes} (h : SameAlgorithm s t) (hs : quote ∉ s) : quote ∉ t :=
  not_mem_of_sameAlgorithm delimits_quote (by decide) h hs

/-- Spellings of one name are interchangeable unless they stand in a line that
reads them as the name or as the value of another member. -/
theorem interchangeable_iff (s t : Spelling) (p : Place) :
    Interchangeable s t p ↔ (SameAlgorithm s.text t.text → quote ∉ s.text → ReadAlike p s t) := by
  constructor
  · intro h hsame hs
    exact (answered_iff ((s.name_eq_iff t).mpr hsame) hs (quote_free hsame hs)).mp
      (h.request hsame hs)
  · intro h
    refine ⟨⟨s.normalize_eq, s.normalize_name⟩, s.name_eq_iff t, ?_, ?_, ?_⟩
    · intro hsame domain action keySource hdomain haction hs hsfit htfit before after device
      exact loadCapabilities_congr
        (capability_interchange hsame keySource hdomain haction hs hsfit htfit) before after device
    · intro hsame front back hplace hs hsfit htfit left right hbetween req req' hreq hreq'
      exact parseSequence_congr hplace ((s.name_eq_iff t).mpr hsame) hs (step_free hsame hs)
        hsfit htfit hbetween hreq hreq'
    · intro hsame hs
      exact (answered_iff ((s.name_eq_iff t).mpr hsame) hs (quote_free hsame hs)).mpr (h hsame hs)

def shouted : Spelling := ⟨lit "KEY_REF", by decide, by decide, by decide +kernel⟩
def plain : Spelling := ⟨lit "key_ref", by decide, by decide, by decide +kernel⟩

/-- A request with its algorithm in front of its payload. -/
def keyPlace : Place where
  before := lit "\x7b\"request_id\":\"r1\",\"domain\":\"asym\",\"action\":\"sign\","
  gap := compact colon
  after := lit ",\"payload\":\"source=external_key\"\x7d"

/-- A capability for signing with keys that the device holds. -/
def internalSign : Capability := ⟨.asym, .sign, store maxFieldLen (lit "auto"), 2⟩

/-- Whether the device with that capability supports what a line asks. -/
def supported (line : Bytes) : Option (Option Bool) :=
  (answered line).map fun asked => asked.own.map fun answers => (answers (specialist internalSign)).1

/-- In the lower case the algorithm is taken for the key reference. -/
theorem spelling_read_as_key :
    SameAlgorithm shouted.text plain.text ∧
      supported (keyPlace.line shouted.text) = some (some true) ∧
      supported (keyPlace.line plain.text) = some (some false) ∧
      ¬Interchangeable shouted plain keyPlace := by
  have hsame : SameAlgorithm shouted.text plain.text := .inl (by decide)
  have hold : supported (keyPlace.line shouted.text) = some (some true) := by decide
  have hnew : supported (keyPlace.line plain.text) = some (some false) := by decide
  refine ⟨hsame, hold, hnew, fun h => ?_⟩
  rw [supported, h.request hsame (by decide)] at hold
  rw [supported, hold] at hnew
  exact absurd hnew (by decide)

end Interchange

end Ucisdk.Spellings
