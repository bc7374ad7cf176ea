import Ucisdk.Scan.Aliases
import Ucisdk.SequenceGrammar

/-!
# Names of algorithms

An algorithm may be spelled in either case, with blanks anywhere and, for
some, in several ways. The configuration, a request and a sequence bring the
spelling to one name before anything is compared, so a capability token or a
step is read alike for every spelling of its algorithm.
-/

set_option autoImplicit false

namespace Ucisdk.AlgorithmNames

open Ucisdk.CString Ucisdk.Common Ucisdk.Protocol Ucisdk.Resource Ucisdk.Config
open Ucisdk.ConfigExact Ucisdk.Scheduler Ucisdk.SequenceGrammar
open Scan.Aliases Scan.Tokens

section Names

/-- A spelling in lower case and without blanks. -/
def plainForm (text : Bytes) : Bytes := (text.filter fun c => !isspace c).map tolower

def aliasClasses : List (List Bytes) :=
  [[lit "auto", lit "none"],
    [lit "kyber", lit "kyber-768", lit "kyber768"],
    [lit "mlkem", lit "ml-kem-768", lit "mlkem768"],
    [lit "dilithium", lit "dilithium-3", lit "dilithium3"]]

/-- Two texts that spell the same algorithm. -/
def SameAlgorithm (s t : Bytes) : Prop := Alike aliasClasses (plainForm s) (plainForm t)

/-- A text that `normalize_algorithm_name` accepts, short enough to be kept whole. -/
structure Spelling where
  text : Bytes
  given : text ≠ []
  short : text.length < maxFieldLen
  accepted : normalizeAlgorithmName text maxFieldLen ≠ none

theorem resolveAlias_picks : Picks aliasClasses resolveAlias where
  inside := by decide
  constant := by decide
  outside x hx := by
    simp only [aliasClasses, List.mem_cons, List.not_mem_nil, or_false, forall_eq_or_imp,
      forall_eq, not_or] at hx
    obtain ⟨⟨h1, h2⟩, ⟨h3, h4, _⟩, ⟨h5, h6, _⟩, ⟨h7, h8, _⟩⟩ := hx
    simp [resolveAlias, h1, h2, h3, h4, h5, h6, h7, h8]
  disjoint := by decide

theorem lowerTrim_eq (text : Bytes) : lowerTrim text = plainForm text := by
  rw [lowerTrim, plainForm]
  congr 1
  induction text with
  | nil => rfl
  | cons c text ih =>
    by_cases hc : isspace c = true
    · rw [List.dropWhile_cons_of_pos hc, List.filter_cons_of_neg (by simp [hc]), ih]
    · rw [List.dropWhile_cons_of_neg hc]

theorem normalName_eq {text : Bytes} (h : text ≠ []) :
    normalName text = resolveAlias (plainForm text) := by
  rw [normalName, if_neg h, lowerTrim_eq]

theorem tolower_facts (c : UInt8) :
    isspace (tolower c) = isspace c ∧ tolower (tolower c) = tolower c := by
  apply forall_byte (p := fun c => isspace (tolower c) = isspace c ∧
    tolower (tolower c) = tolower c)
  decide +kernel

theorem plainForm_idempotent (text : Bytes) : plainForm (plainForm text) = plainForm text := by
  have hspace : ∀ c ∈ plainForm text, (!isspace c) = true := by
    intro c hc
    obtain ⟨d, hd, rfl⟩ := List.mem_map.mp hc
    rw [(tolower_facts d).1]
    exact (List.mem_filter.mp hd).2
  have hlower : ∀ c ∈ plainForm text, tolower c = c := by
    intro c hc
    obtain ⟨d, _, rfl⟩ := List.mem_map.mp hc
    exact (tolower_facts d).2
  rw [plainForm, List.filter_eq_self.mpr hspace, List.map_congr_left hlower, List.map_id']

theorem plainForm_alias : ∀ cls ∈ aliasClasses, ∀ name ∈ cls, plainForm name = name := by
  decide

/-- A name is written the way its plain form is. -/
theorem plainForm_resolveAlias (text : Bytes) :
    plainForm (resolveAlias (plainForm text)) = resolveAlias (plainForm text) := by
  obtain h | ⟨cls, hcls, _, hname⟩ := resolveAlias_picks.fixed_or_mem (plainForm text)
  · rw [h, plainForm_idempotent]
  · exact plainForm_alias cls hcls _ hname

namespace Spelling

variable (s t : Spelling)

theorem name_ne_nil : normalName s.text ≠ [] := by
  intro h
  exact s.accepted (by rw [normalizeAlgorithmName_short s.short, if_pos h])

theorem normalize_eq :
    normalizeAlgorithmName s.text maxFieldLen = some (store maxFieldLen (normalName s.text)) := by
  rw [normalizeAlgorithmName_short s.short, if_neg s.name_ne_nil]

/-- The name that is kept of a spelling. -/
def name : CStr maxFieldLen := store maxFieldLen (normalName s.text)

theorem name_bytes : s.name.bytes = resolveAlias (plainForm s.text) := by
  rw [name, store_fits (normalName_length s.short), normalName_eq s.given]

theorem name_eq_iff : s.name = t.name ↔ SameAlgorithm s.text t.text := by
  rw [CStr.ext_iff, name_bytes, name_bytes, resolveAlias_picks.eq_iff, SameAlgorithm]

/-- A name is its own name. -/
theorem normalize_name : normalizeAlgorithmName s.name.bytes maxFieldLen = some s.name := by
  have hne : s.name.bytes ≠ [] := by
    rw [name, store_fits (normalName_length s.short)]
    exact s.name_ne_nil
  have hname : normalName s.name.bytes = s.name.bytes := by
    rw [normalName_eq hne, name_bytes, plainForm_resolveAlias, resolveAlias_picks.idempotent]
  rw [normalizeAlgorithmName_short s.name.fits, hname, if_neg hne, store_bytes_self]

end Spelling

end Names

section Delimiters

/-- A byte that is no blank and has no other case. -/
def Delimits (d : UInt8) : Prop := isspace d = false ∧ ∀ c : UInt8, tolower c = d ↔ c = d

/-- Only letters change, and they change to letters. -/
theorem tolower_letter {c : UInt8} (h : tolower c ≠ c) :
    (65 ≤ c ∧ c ≤ 90) ∧ 97 ≤ tolower c ∧ tolower c ≤ 122 := by
  have hupper : (65 ≤ c && c ≤ 90) = true := by
    by_contra hc
    exact h (if_neg hc)
  have hlower : tolower c = c + 32 := if_pos hupper
  rw [Bool.and_eq_true, decide_eq_true_eq, decide_eq_true_eq] at hupper
  refine ⟨hupper, ?_⟩
  rw [hlower, UInt8.le_iff_toNat_le, UInt8.le_iff_toNat_le, UInt8.toNat_add]
  rw [UInt8.le_iff_toNat_le, UInt8.le_iff_toNat_le] at hupper
  simp only [UInt8.reduceToNat] at hupper ⊢
  omega

theorem delimits_of_no_letter {d : UInt8} (hblank : isspace d = false) (hupper : ¬(65 ≤ d ∧ d ≤ 90))
    (hlower : ¬(97 ≤ d ∧ d ≤ 122)) : Delimits d := by
  refine ⟨hblank, fun c => ?_⟩
  by_cases hc : tolower c = c
  · rw [hc]
  · obtain ⟨hup, hlow⟩ := tolower_letter hc
    constructor
    · rintro rfl
      exact absurd hlow hlower
    · rintro rfl
      exact absurd hup hupper

theorem delimits_colon : Delimits colon := delimits_of_no_letter (by decide) (by decide) (by decide)

theorem delimits_gt : Delimits 62 := delimits_of_no_letter (by decide) (by decide) (by decide)

theorem delimits_quote : Delimits quote := delimits_of_no_letter (by decide) (by decide) (by decide)

theorem mem_plainForm_iff {d : UInt8} (hd : Delimits d) (text : Bytes) :
    d ∈ plainForm text ↔ d ∈ text := by
  constructor
  · intro h
    obtain ⟨c, hc, hlower⟩ := List.mem_map.mp h
    rw [(hd.2 c).mp hlower] at hc
    exact (List.mem_filter.mp hc).1
  · intro h
    refine List.mem_map.mpr ⟨d, List.mem_filter.mpr ⟨h, ?_⟩, (hd.2 d).mpr rfl⟩
    simp [hd.1]

/-- The spellings of one algorithm hold the same delimiters. -/
theorem not_mem_of_sameAlgorithm {d : UInt8} (hd : Delimits d)
    (hclasses : ∀ cls ∈ aliasClasses, ∀ name ∈ cls, d ∉ name) {s t : Bytes}
    (h : SameAlgorithm s t) (hs : d ∉ s) : d ∉ t := by
  rw [← mem_plainForm_iff hd] at hs ⊢
  obtain heq | ⟨cls, hcls, _, hmem⟩ := h
  · rwa [← heq]
  · exact hclasses cls hcls _ hmem

end Delimiters

section Capabilities

/-- A capability token with the algorithm as its third field. -/
def capabilityToken (domain action algorithm : Bytes) (keySource : Option Bytes) : Bytes :=
  domain ++ colon :: (action ++ colon :: (algorithm ++
    match keySource with
    | none => []
    | some source => colon :: source))

theorem cutAtColon_field {field : Bytes} (h : colon ∉ field) (rest : Bytes) :
    cutAtColon (field ++ colon :: rest) = (field, some rest) := by
  have hne : ∀ c ∈ field, c ≠ colon := fun c hc he => h (he ▸ hc)
  rw [cutAtColon, Scan.Quoted.after_single colon field rest hne,
    List.takeWhile_append_of_pos (by simpa using hne)]
  simp

theorem cutAtColon_last {field : Bytes} (h : colon ∉ field) : cutAtColon field = (field, none) := by
  have hne : ∀ c ∈ field, c ≠ colon := fun c hc he => h (he ▸ hc)
  rw [cutAtColon, Scan.Quoted.after_none colon [] field hne,
    List.takeWhile_eq_self_iff.mpr (by simpa using hne)]

theorem capabilityParts_token {domain action algorithm : Bytes} (hdomain : colon ∉ domain)
    (haction : colon ∉ action) (halgorithm : colon ∉ algorithm) (keySource : Option Bytes) :
    capabilityParts (capabilityToken domain action algorithm keySource) =
      some ⟨domain, action, algorithm, keySource⟩ := by
  rw [capabilityParts, capabilityToken.eq_def, cutAtColon_field hdomain]
  simp only [cutAtColon_field haction]
  cases keySource with
  | none => simp only [List.append_nil, cutAtColon_last halgorithm]
  | some source => simp only [cutAtColon_field halgorithm]

theorem parseCapability_token {domain action : Bytes} (s : Spelling) (hdomain : colon ∉ domain)
    (haction : colon ∉ action) (halgorithm : colon ∉ s.text) (keySource : Option Bytes)
    (hshort : (capabilityToken domain action s.text keySource).length < 160) :
    parseCapability (capabilityToken domain action s.text keySource) =
      if parseDomain domain = .unknown ∨ parseAction action = .unknown then none
      else if keySourceMask keySource = 0 then none
      else some ⟨parseDomain domain, parseAction action, s.name, keySourceMask keySource⟩ := by
  rw [parseCapability, store_fits hshort,
    capabilityParts_token hdomain haction halgorithm keySource]
  simp only [s.normalize_eq]
  rfl

/-- Lists of tokens that read alike load alike. -/
theorem loadCapabilities_congr {token token' : Bytes}
    (h : parseCapability token = parseCapability token') (before after : List Bytes)
    (device : DeviceResource) :
    (loadCapabilities (before ++ token :: after) device).toOption =
      (loadCapabilities (before ++ token' :: after) device).toOption := by
  induction before generalizing device with
  | nil =>
    rw [List.nil_append, List.nil_append, loadCapabilities, loadCapabilities, h]
    split
    · cases parseCapability token' with
      | none => rfl
      | some cap => rfl
    · rfl
  | cons first before ih =>
    rw [List.cons_append, List.cons_append, loadCapabilities, loadCapabilities]
    split
    · cases parseCapability first with
      | none => rfl
      | some cap => exact ih _
    · rfl

end Capabilities

section Steps

/-- A place in a text with a separator or nothing on either side. -/
structure Between (p : UInt8 → Bool) (left right : Bytes) : Prop where
  left : ∀ x ∈ left.getLast?, p x = true
  right : ∀ x ∈ right.head?, p x = true

/-- The place of the algorithm in a step: behind three fields. -/
structure FourthField (front back : Bytes) : Prop where
  fields : (tokens isColon front).length = 3
  between : Between isColon front back
  noStep : ∀ c ∈ front ++ back, gt c = false

theorem isColon_false {text : Bytes} (h : colon ∉ text) : ∀ c ∈ text, isColon c = false := by
  intro c hc
  have hne : c ≠ colon := fun he => h (he ▸ hc)
  simpa [isColon, colon] using hne

theorem gt_false {text : Bytes} (h : 62 ∉ text) : ∀ c ∈ text, gt c = false := by
  intro c hc
  have hne : c ≠ 62 := fun he => h (he ▸ hc)
  simpa [gt] using hne

variable {front back : Bytes}

theorem tokens_step (hplace : FourthField front back) (s : Spelling) (hs : colon ∉ s.text) :
    ∃ domain action type, ∃ more, tokens isColon front = [domain, action, type] ∧
      tokens isColon (front ++ (s.text ++ back)) =
        domain :: action :: type :: s.text :: more := by
  obtain ⟨domain, action, type, hfront⟩ := List.length_eq_three.mp hplace.fields
  refine ⟨domain, action, type, tokens isColon back, hfront, ?_⟩
  rw [tokens_between isColon hplace.between.left hplace.between.right s.given (isColon_false hs),
    hfront]
  rfl

/-- A step is read alike for two spellings of one name. -/
theorem parseStep_congr (hplace : FourthField front back) {s t : Spelling} (hname : s.name = t.name)
    (hs : colon ∉ s.text) (ht : colon ∉ t.text)
    (hsfit : (front ++ (s.text ++ back)).length < maxFieldLen)
    (htfit : (front ++ (t.text ++ back)).length < maxFieldLen) (step : SequenceStep) :
    parseStep (front ++ (s.text ++ back)) = .ok step ↔
      parseStep (front ++ (t.text ++ back)) = .ok step := by
  obtain ⟨domain, action, type, more, hfront, hfields⟩ := tokens_step hplace s hs
  obtain ⟨domain', action', type', more', hfront', hfields'⟩ := tokens_step hplace t ht
  rw [hfront, List.cons.injEq, List.cons.injEq, List.cons.injEq] at hfront'
  obtain ⟨rfl, rfl, rfl, _⟩ := hfront'
  have hnormal : normalName s.text = normalName t.text := by
    rw [normalName_eq s.given, normalName_eq t.given, ← s.name_bytes, ← t.name_bytes, hname]
  rw [parseStep_fields (store_fits hsfit) hfields s.short,
    parseStep_fields (store_fits htfit) hfields' t.short]
  constructor
  · intro h
    exact ⟨h.domain_eq, h.action_eq, h.type_eq, hnormal ▸ h.algorithm_eq, h.domainKnown,
      h.actionKnown, h.typeKnown, hnormal ▸ h.algorithmGiven⟩
  · intro h
    exact ⟨h.domain_eq, h.action_eq, h.type_eq, hnormal ▸ h.algorithm_eq, h.domainKnown,
      h.actionKnown, h.typeKnown, hnormal ▸ h.algorithmGiven⟩

theorem parseSteps_toOption (room : ℕ) (token : Bytes) (rest : List Bytes) :
    (parseSteps (room + 1) (token :: rest)).toOption =
      (parseStep token).toOption.bind fun step =>
        (parseSteps room rest).toOption.map (step :: ·) := by
  rw [parseSteps]
  cases parseStep token with
  | error err => rfl
  | ok step =>
    cases parseSteps room rest with
    | error err => rfl
    | ok steps => rfl

/-- Lists of steps that read alike one by one read alike. -/
theorem parseSteps_congr {token token' : Bytes}
    (h : ∀ step, parseStep token = .ok step ↔ parseStep token' = .ok step)
    (before after : List Bytes) (room : ℕ) :
    (parseSteps room (before ++ token :: after)).toOption =
      (parseSteps room (before ++ token' :: after)).toOption := by
  have hsame : (parseStep token).toOption = (parseStep token').toOption := by
    cases hstep : parseStep token with
    | ok step => rw [(h step).mp hstep]
    | error err =>
      cases hstep' : parseStep token' with
      | ok step =>
        rw [(h step).mpr hstep'] at hstep
        cases hstep
      | error err' => rfl
  induction before generalizing room with
  | nil =>
    cases room with
    | zero => rfl
    | succ room =>
      rw [List.nil_append, List.nil_append, parseSteps_toOption, hsame, parseSteps_toOption]
  | cons first before ih =>
    cases room with
    | zero => rfl
    | succ room =>
      rw [List.cons_append, List.cons_append, parseSteps_toOption, ih room, parseSteps_toOption]

/-- Two sequences that differ in the spelling of one algorithm. -/
theorem parseSequence_congr (hplace : FourthField front back) {s t : Spelling}
    (hname : s.name = t.name) (hs : ∀ c ∈ s.text, c ≠ colon ∧ c ≠ 62)
    (ht : ∀ c ∈ t.text, c ≠ colon ∧ c ≠ 62)
    (hsfit : (front ++ (s.text ++ back)).length < maxFieldLen)
    (htfit : (front ++ (t.text ++ back)).length < maxFieldLen) {left right : Bytes}
    (hbetween : Between gt left right) {req req' : Request}
    (hreq : req.sequence.bytes = left ++ ((front ++ (s.text ++ back)) ++ right))
    (hreq' : req'.sequence.bytes = left ++ ((front ++ (t.text ++ back)) ++ right)) :
    (parseSequence req).toOption = (parseSequence req').toOption := by
  have hpiece (u : Spelling) (hu : ∀ c ∈ u.text, c ≠ colon ∧ c ≠ 62) {r : Request}
      (hr : r.sequence.bytes = left ++ ((front ++ (u.text ++ back)) ++ right)) :
      parseSequence r = parseSteps maxSequenceSteps
        (tokens gt left ++ (front ++ (u.text ++ back)) :: tokens gt right) := by
    have hfree : ∀ c ∈ front ++ (u.text ++ back), gt c = false := by
      intro c hc
      rw [List.mem_append, List.mem_append] at hc
      obtain hc | hc | hc := hc
      · exact hplace.noStep c (List.mem_append_left _ hc)
      · exact gt_false (fun hmem => (hu 62 hmem).2 rfl) c hc
      · exact hplace.noStep c (List.mem_append_right _ hc)
    have hne : front ++ (u.text ++ back) ≠ [] := by simp [u.given]
    have hsequence : r.sequence.bytes ≠ [] := by
      rw [hr]
      simp [u.given]
    rw [parseSequence, if_neg hsequence, store_self, hr,
      tokens_between gt hbetween.left hbetween.right hne hfree]
  rw [hpiece s hs hreq, hpiece t ht hreq']
  refine parseSteps_congr (parseStep_congr hplace hname ?_ ?_ hsfit htfit) _ _ _
  · exact fun hmem => (hs colon hmem).1 rfl
  · exact fun hmem => (ht colon hmem).1 rfl

end Steps

end Ucisdk.AlgorithmNames
