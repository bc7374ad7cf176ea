import Mathlib.Data.List.Lex
import Mathlib.Data.List.MinMax
import Mathlib.Data.List.Nodup
import Mathlib.Data.Prod.Lex
import Ucisdk.SequenceRun

/-!
# Which device an acquisition takes

The comparison of two candidates is the order of their ranks, so the inner
scan of the selection takes a minimum and the outer one the first type that
has any. With distinct ids the minimum is unique and does not depend on the
order of the slots.
-/

set_option autoImplicit false

namespace Ucisdk.Ranking

open Ucisdk.CString Ucisdk.Common Ucisdk.Resource Ucisdk.SequenceRun

section Order

def score (preference : Preference) (d : DeviceResource) : ℤ :=
  match preference with
  | .secure => d.securityScore
  | .efficient => d.efficiencyScore
  | _ => 0

def Rank : Type := ℤ ×ₗ ℤ ×ₗ ℤ ×ₗ List ℕ

instance rankOrder : LinearOrder Rank := inferInstanceAs (LinearOrder (ℤ ×ₗ ℤ ×ₗ ℤ ×ₗ List ℕ))

/-- A better score ranks first, then a lower priority, a lower inflight and an
id that `strcmp` puts in front. -/
def rank (preference : Preference) (d : DeviceResource) : Rank :=
  toLex (-score preference d,
    toLex (d.priority, toLex (d.inflight, d.deviceId.bytes.map UInt8.toNat)))

theorem strcmp_lt_iff (s t : Bytes) : s < t ↔ s.map UInt8.toNat < t.map UInt8.toNat := by
  induction s generalizing t with
  | nil => cases t <;> simp
  | cons c s ih =>
    cases t with
    | nil => simp
    | cons c' t =>
      rw [List.map_cons, List.map_cons, List.cons_lt_cons_iff, List.cons_lt_cons_iff, ← ih t,
        UInt8.lt_iff_toNat_lt, UInt8.toNat_inj]

theorem rank_lt_iff (preference : Preference) (d e : DeviceResource) :
    rank preference d < rank preference e ↔
      score preference e < score preference d ∨
        score preference d = score preference e ∧
          (d.priority < e.priority ∨ d.priority = e.priority ∧
            (d.inflight < e.inflight ∨ d.inflight = e.inflight ∧
              d.deviceId.bytes < e.deviceId.bytes)) := by
  have hlt : -score preference d < -score preference e ↔
      score preference e < score preference d := by omega
  have heq : -score preference d = -score preference e ↔
      score preference d = score preference e := by omega
  have hlex : rank preference d < rank preference e ↔
      -score preference d < -score preference e ∨
        -score preference d = -score preference e ∧
          toLex (d.priority, toLex (d.inflight, d.deviceId.bytes.map UInt8.toNat)) <
            toLex (e.priority, toLex (e.inflight, e.deviceId.bytes.map UInt8.toNat)) :=
    Prod.Lex.toLex_lt_toLex
  rw [hlex, hlt, heq, Prod.Lex.toLex_lt_toLex, Prod.Lex.toLex_lt_toLex, strcmp_lt_iff]

theorem rank_id {preference : Preference} {d e : DeviceResource}
    (h : rank preference d = rank preference e) : d.deviceId = e.deviceId := by
  have hid := congrArg (fun r => (ofLex (ofLex (ofLex r).2).2).2) h
  apply CStr.ext
  exact List.map_injective_iff.mpr (fun _ _ => UInt8.toNat_inj.mp) hid

/-- The cascade of comparisons is the order of the ranks. -/
theorem betterCandidate_iff (preference : Preference) (best cand : DeviceResource) :
    betterCandidate (some best) cand preference = true ↔
      rank preference cand < rank preference best := by
  have htail : (if cand.priority ≠ best.priority then decide (cand.priority < best.priority)
      else if cand.inflight ≠ best.inflight then decide (cand.inflight < best.inflight)
      else decide (cand.deviceId.bytes < best.deviceId.bytes)) = true ↔
        (cand.priority < best.priority ∨ cand.priority = best.priority ∧
          (cand.inflight < best.inflight ∨ cand.inflight = best.inflight ∧
            cand.deviceId.bytes < best.deviceId.bytes)) := by
    split_ifs with hp hi
    · simp [hp]
    · rw [not_not] at hp
      simp [hp, hi]
    · rw [not_not] at hp hi
      simp [hp, hi]
  rw [rank_lt_iff, ← htail]
  cases preference with
  | secure =>
    by_cases hs : cand.securityScore = best.securityScore
    · simp [betterCandidate, score, hs]
    · simp [betterCandidate, score, hs]
  | efficient =>
    by_cases hs : cand.efficiencyScore = best.efficiencyScore
    · simp [betterCandidate, score, hs]
    · simp [betterCandidate, score, hs]
  | balanced => simp [betterCandidate, score]
  | classicFirst => simp [betterCandidate, score]
  | pqcFirst => simp [betterCandidate, score]

end Order

section Scan

variable {preference : Preference} {eligible : DeviceResource → Bool}

/-- The inner scan takes the first minimum of the eligible slots. -/
theorem bestCandidate_argmin (entries : List (DeviceResource × ℕ)) :
    bestCandidate preference eligible entries none =
      (entries.filter fun e => eligible e.1).argmin fun e => rank preference e.1 := by
  have hfold (start : Option (DeviceResource × ℕ)) :
      bestCandidate preference eligible entries start =
        (entries.filter fun e => eligible e.1).foldl
          (List.argAux fun b c => rank preference b.1 < rank preference c.1) start := by
    induction entries generalizing start with
    | nil => rfl
    | cons entry rest ih =>
      rw [bestCandidate]
      by_cases he : eligible entry.1 = true
      · have hstep : List.argAux (fun b c : DeviceResource × ℕ =>
            rank preference b.1 < rank preference c.1) start entry =
              if betterCandidate (start.map Prod.fst) entry.1 preference = true then some entry
              else start := by
          cases start with
          | none => rfl
          | some best =>
            simp only [Option.map_some, betterCandidate_iff]
            rfl
        rw [List.filter_cons, if_pos he, List.foldl_cons, hstep, he, Bool.true_and, ih, ih]
        split
        · rfl
        · rfl
      · rw [List.filter_cons, if_neg he]
        rw [Bool.not_eq_true] at he
        simp only [he, Bool.false_and, Bool.false_eq_true, if_false]
        exact ih start
  exact hfold none

theorem bestCandidate_none_iff (entries : List (DeviceResource × ℕ)) :
    bestCandidate preference eligible entries none = none ↔
      ∀ entry ∈ entries, eligible entry.1 = false := by
  rw [bestCandidate_argmin, List.argmin_eq_none, List.filter_eq_nil_iff]
  simp

theorem bestCandidate_least {entries : List (DeviceResource × ℕ)} {best : DeviceResource × ℕ}
    (h : bestCandidate preference eligible entries none = some best) :
    best ∈ entries ∧ eligible best.1 = true ∧
      ∀ entry ∈ entries, eligible entry.1 = true →
        rank preference best.1 ≤ rank preference entry.1 := by
  rw [bestCandidate_argmin] at h
  have hmem := List.mem_filter.mp (List.argmin_mem h)
  refine ⟨hmem.1, hmem.2, ?_⟩
  intro entry hentry he
  exact List.le_of_mem_argmin (f := fun e : DeviceResource × ℕ => rank preference e.1)
    (List.mem_filter.mpr ⟨hentry, he⟩) h

end Scan

section Selection

variable (domain : ApiDomain) (action : ApiAction) (algorithm : Bytes) (keySource : UInt32)

/-- An enabled device below its limit that supports the call. -/
def Serves (d : DeviceResource) : Prop :=
  d.enabled = true ∧ d.inflight < d.maxInflight ∧
    deviceSupports d domain action algorithm keySource = true

instance (d : DeviceResource) : Decidable (Serves domain action algorithm keySource d) :=
  inferInstanceAs (Decidable (_ ∧ _))

/-- `DEV_UNKNOWN` in the order stands for every type. -/
def OfType (type : DeviceType) (d : DeviceResource) : Prop := type = .unknown ∨ d.type = type

instance (type : DeviceType) (d : DeviceResource) : Decidable (OfType type d) :=
  inferInstanceAs (Decidable (_ ∨ _))

/-- A device ranked below every other one that meets the condition. -/
structure Best (preference : Preference) (p : DeviceResource → Prop)
    (devices : List DeviceResource) (d : DeviceResource) : Prop where
  mem : d ∈ devices
  meets : p d
  least : ∀ e ∈ devices, p e → e ≠ d → rank preference d < rank preference e

/-- The best device of the first type in the order that has one. -/
def Chosen (preference : Preference) (order : List DeviceType) (devices : List DeviceResource)
    (d : DeviceResource) : Prop :=
  ∃ before type after, order = before ++ type :: after ∧
    (∀ t ∈ before, ∀ e ∈ devices, ¬(Serves domain action algorithm keySource e ∧ OfType t e)) ∧
    Best preference (fun e => Serves domain action algorithm keySource e ∧ OfType type e) devices d

variable {domain action algorithm keySource}

theorem candidate_iff (type : DeviceType) (d : DeviceResource) :
    candidate type domain action algorithm keySource d = true ↔
      Serves domain action algorithm keySource d ∧ OfType type d := by
  simp only [candidate, Serves, OfType, Bool.and_eq_true, Bool.or_eq_true, decide_eq_true_eq]
  tauto

theorem hinted_iff (hint : Bytes) (d : DeviceResource) :
    hinted hint domain action algorithm keySource d = true ↔
      d.deviceId.bytes = hint ∧ Serves domain action algorithm keySource d := by
  simp only [hinted, Serves, Bool.and_eq_true, decide_eq_true_eq]
  tauto

theorem mem_zipIdx_fst {devices : List DeviceResource} {d : DeviceResource} (h : d ∈ devices) :
    ∃ i, (d, i) ∈ devices.zipIdx := by
  obtain ⟨i, hi⟩ := List.mem_iff_getElem?.mp h
  exact ⟨i, List.mem_zipIdx_iff_getElem?.mpr hi⟩

theorem id_injective {devices : List DeviceResource}
    (hids : (devices.map fun d => d.deviceId).Nodup) {d e : DeviceResource} (hd : d ∈ devices)
    (he : e ∈ devices) (h : d.deviceId = e.deviceId) : d = e :=
  List.inj_on_of_nodup_map hids hd he h

variable {registry : Registry} {preference : Preference} {acquired : Acquired}

/-- One type of the order: its best device, if it has any. -/
theorem bestCandidate_best (hids : (registry.devices.map fun d => d.deviceId).Nodup)
    (type : DeviceType) {best : DeviceResource × ℕ}
    (h : bestCandidate preference (candidate type domain action algorithm keySource)
      registry.devices.zipIdx none = some best) :
    registry.devices[best.2]? = some best.1 ∧
      Best preference (fun e => Serves domain action algorithm keySource e ∧ OfType type e)
        registry.devices best.1 := by
  obtain ⟨hmem, helig, hleast⟩ := bestCandidate_least h
  have hslot := List.mem_zipIdx_iff_getElem?.mp hmem
  have hdev := List.mem_of_getElem? hslot
  refine ⟨hslot, hdev, (candidate_iff type best.1).mp helig, ?_⟩
  intro e he hp hne
  obtain ⟨i, hi⟩ := mem_zipIdx_fst he
  have hle := hleast (e, i) hi ((candidate_iff type e).mpr hp)
  apply lt_of_le_of_ne hle
  intro hrank
  exact hne (id_injective hids he hdev (rank_id hrank).symm)

theorem bestCandidate_nothing (type : DeviceType) :
    bestCandidate preference (candidate type domain action algorithm keySource)
        registry.devices.zipIdx none = none ↔
      ∀ e ∈ registry.devices, ¬(Serves domain action algorithm keySource e ∧ OfType type e) := by
  rw [bestCandidate_none_iff]
  constructor
  · intro h e he hp
    obtain ⟨i, hi⟩ := mem_zipIdx_fst he
    have hno := h (e, i) hi
    rw [(candidate_iff type e).mpr hp] at hno
    simp at hno
  · intro h entry hentry
    have hdev := List.mem_of_getElem? (List.mem_zipIdx_iff_getElem?.mp hentry)
    rw [← Bool.not_eq_true, candidate_iff]
    exact h entry.1 hdev

variable (domain action algorithm keySource preference) in
/-- The outer loop, from any type of the order on. -/
theorem acquireInOrder_chosen (hids : (registry.devices.map fun d => d.deviceId).Nodup)
    (order : List DeviceType) :
    match acquireInOrder registry domain action algorithm keySource preference order with
    | none => ∀ t ∈ order, ∀ e ∈ registry.devices,
        ¬(Serves domain action algorithm keySource e ∧ OfType t e)
    | some acquired => ∃ entry : DeviceResource × ℕ, acquired = acquireSlot registry entry ∧
        registry.devices[entry.2]? = some entry.1 ∧
          Chosen domain action algorithm keySource preference order registry.devices entry.1 := by
  induction order with
  | nil => simp [acquireInOrder]
  | cons type order ih =>
    rw [acquireInOrder]
    cases hbest : bestCandidate preference (candidate type domain action algorithm keySource)
        registry.devices.zipIdx none with
    | some best =>
      obtain ⟨hslot, hb⟩ := bestCandidate_best hids type hbest
      exact ⟨best, rfl, hslot, [], type, order, rfl, by simp, hb⟩
    | none =>
      have hnone := (bestCandidate_nothing type).mp hbest
      cases hrest : acquireInOrder registry domain action algorithm keySource preference order with
      | none =>
        rw [hrest] at ih
        intro t ht
        rcases List.mem_cons.mp ht with rfl | ht
        · exact hnone
        · exact ih t ht
      | some acquired =>
        rw [hrest] at ih
        obtain ⟨entry, hacq, hslot, before, t, after, horder, hbefore, hb⟩ := ih
        refine ⟨entry, hacq, hslot, type :: before, t, after, by simp [horder], ?_, hb⟩
        intro t' ht'
        rcases List.mem_cons.mp ht' with rfl | ht'
        · exact hnone
        · exact hbefore t' ht'

/-- There is at most one device to choose. -/
theorem chosen_unique {order : List DeviceType} {devices : List DeviceResource}
    {d e : DeviceResource}
    (hd : Chosen domain action algorithm keySource preference order devices d)
    (he : Chosen domain action algorithm keySource preference order devices e) : d = e := by
  obtain ⟨before, type, after, horder, hbefore, hd⟩ := hd
  obtain ⟨before', type', after', horder', hbefore', he⟩ := he
  have hsplit := List.append_eq_append_iff.mp (horder.symm.trans horder')
  have htype : type = type' := by
    rcases hsplit with ⟨more, hmore, htail⟩ | ⟨more, hmore, htail⟩
    · cases more with
      | nil => simpa using (List.cons.inj htail).1
      | cons t more =>
        have ht : t = type := (List.cons.inj htail).1.symm
        exact absurd hd.meets (hbefore' t (by simp [hmore]) d hd.mem ∘ by
          subst ht
          exact id)
    · cases more with
      | nil => simpa using (List.cons.inj htail).1.symm
      | cons t more =>
        have ht : t = type' := (List.cons.inj htail).1.symm
        exact absurd he.meets (hbefore t (by simp [hmore]) e he.mem ∘ by
          subst ht
          exact id)
  subst htype
  by_contra hne
  have h1 := hd.least e he.mem he.meets fun h => hne h.symm
  have h2 := he.least d hd.mem hd.meets hne
  exact lt_asymm h1 h2

theorem Chosen.perm {order : List DeviceType} {devices devices' : List DeviceResource}
    (hp : devices'.Perm devices) {d : DeviceResource}
    (h : Chosen domain action algorithm keySource preference order devices d) :
    Chosen domain action algorithm keySource preference order devices' d := by
  obtain ⟨before, type, after, horder, hbefore, hb⟩ := h
  exact ⟨before, type, after, horder, fun t ht e he => hbefore t ht e (hp.subset he),
    hp.symm.subset hb.mem, hb.meets, fun e he => hb.least e (hp.subset he)⟩

variable (domain action algorithm keySource preference) in
/-- The device an acquisition takes, with or without a hint. -/
def Takes (hint : Bytes) (order : List DeviceType) (devices : List DeviceResource)
    (d : DeviceResource) : Prop :=
  if hint = [] then Chosen domain action algorithm keySource preference order devices d
  else d ∈ devices ∧ d.deviceId.bytes = hint ∧ Serves domain action algorithm keySource d

theorem Takes.perm {hint : Bytes} {order : List DeviceType} {devices devices' : List DeviceResource}
    (hp : devices'.Perm devices) {d : DeviceResource}
    (h : Takes domain action algorithm keySource preference hint order devices d) :
    Takes domain action algorithm keySource preference hint order devices' d := by
  unfold Takes at h ⊢
  split at h
  · rename_i hempty
    rw [if_pos hempty]
    exact h.perm hp
  · rename_i hne
    rw [if_neg hne]
    exact ⟨hp.symm.subset h.1, h.2⟩

theorem takes_unique {hint : Bytes} {order : List DeviceType} {devices : List DeviceResource}
    (hids : (devices.map fun d => d.deviceId).Nodup) {d e : DeviceResource}
    (hd : Takes domain action algorithm keySource preference hint order devices d)
    (he : Takes domain action algorithm keySource preference hint order devices e) : d = e := by
  unfold Takes at hd he
  split at hd
  · rename_i hempty
    rw [if_pos hempty] at he
    exact chosen_unique hd he
  · rename_i hne
    rw [if_neg hne] at he
    apply id_injective hids hd.1 he.1
    apply CStr.ext
    rw [hd.2.1, he.2.1]

variable (domain action algorithm keySource preference) in
/-- The call takes the one device it may take, and fails when there is none. -/
theorem acquire_takes (hids : (registry.devices.map fun d => d.deviceId).Nodup) (hint : Bytes)
    (order : List DeviceType) :
    match registryAcquireCandidate registry domain action algorithm hint keySource preference
        order with
    | none => ∀ d, ¬Takes domain action algorithm keySource preference hint order registry.devices d
    | some acquired => ∃ entry : DeviceResource × ℕ, acquired = acquireSlot registry entry ∧
        registry.devices[entry.2]? = some entry.1 ∧
          Takes domain action algorithm keySource preference hint order registry.devices
            entry.1 := by
  by_cases hempty : hint = []
  · simp only [registryAcquireCandidate, hempty, ne_eq, not_true_eq_false, if_false, Takes, if_true]
    have hloop := acquireInOrder_chosen domain action algorithm keySource preference hids order
    cases hrun : acquireInOrder registry domain action algorithm keySource preference order with
    | none =>
      rw [hrun] at hloop
      rintro d ⟨before, type, after, rfl, _, hb⟩
      exact hloop type (by simp) d hb.mem hb.meets
    | some acquired =>
      rw [hrun] at hloop
      exact hloop
  · simp only [registryAcquireCandidate, hempty, ne_eq, not_false_eq_true, if_true, Takes, if_false]
    cases hfind : registry.devices.zipIdx.find? fun entry =>
        hinted hint domain action algorithm keySource entry.1 with
    | none =>
      rintro d ⟨hd, hp⟩
      obtain ⟨i, hi⟩ := mem_zipIdx_fst hd
      exact List.find?_eq_none.mp hfind (d, i) hi ((hinted_iff hint d).mpr hp)
    | some entry =>
      have hslot := List.mem_zipIdx_iff_getElem?.mp (List.mem_of_find?_eq_some hfind)
      have hmeets : hinted hint domain action algorithm keySource entry.1 = true := by
        have hfound := List.find?_some hfind
        exact hfound
      exact ⟨entry, rfl, hslot, List.mem_of_getElem? hslot, (hinted_iff hint entry.1).mp hmeets⟩

/-- Some device may be taken unless no device of a type in the order serves. -/
theorem takes_none_iff (hids : (registry.devices.map fun d => d.deviceId).Nodup)
    (order : List DeviceType) :
    registryAcquireCandidate registry domain action algorithm [] keySource preference order = none ↔
      ∀ d ∈ registry.devices, Serves domain action algorithm keySource d →
        ∀ type ∈ order, ¬OfType type d := by
  have hloop := acquireInOrder_chosen domain action algorithm keySource preference hids order
  rw [registryAcquireCandidate, if_neg (not_not.mpr rfl)]
  constructor
  · intro hnone d hd hs type ht hof
    rw [hnone] at hloop
    exact hloop type ht d hd ⟨hs, hof⟩
  · intro h
    cases hrun : acquireInOrder registry domain action algorithm keySource preference order with
    | none => rfl
    | some acquired =>
      rw [hrun] at hloop
      obtain ⟨entry, _, _, before, type, after, rfl, _, hb⟩ := hloop
      exact absurd hb.meets.2 (h entry.1 hb.mem hb.meets.1 type (by simp))

end Selection

section Exact

variable (registry : Registry) (domain : ApiDomain) (action : ApiAction) (algorithm hint : Bytes)
  (keySource : UInt32) (preference : Preference) (order : List DeviceType)

/-- What `registry_acquire_candidate` answers, read off the registry alone. A
failed call leaves the registry it was given. -/
structure AcquiresBest (result : Option Acquired) : Prop where
  fails : hint = [] → (result = none ↔
    ∀ d ∈ registry.devices, Serves domain action algorithm keySource d →
      ∀ type ∈ order, ¬OfType type d)
  best : hint = [] → ∀ acquired, result = some acquired →
    ∃ d, registry.devices[acquired.slot]? = some d ∧
      Chosen domain action algorithm keySource preference order registry.devices d
  settled : ∀ registry' : Registry, registry'.devices.Perm registry.devices →
    (registryAcquireCandidate registry' domain action algorithm hint keySource preference
      order).map (fun acquired => acquired.device.deviceId) =
        result.map fun acquired => acquired.device.deviceId
  hinted : hint ≠ [] → (result.isSome = true ↔
    ∃ d ∈ registry.devices, d.deviceId.bytes = hint ∧ Serves domain action algorithm keySource d)
  bound : hint ≠ [] → ∀ acquired, result = some acquired →
    ∃ d, registry.devices[acquired.slot]? = some d ∧ d.deviceId.bytes = hint ∧
      Serves domain action algorithm keySource d
  frame : ∀ acquired, result = some acquired → ∃ d, registry.devices[acquired.slot]? = some d ∧
    acquired.device = { d with inflight := d.inflight + 1 } ∧
      acquired.registry.devices = registry.devices.set acquired.slot acquired.device

theorem acquired_settled (hids : (registry.devices.map fun d => d.deviceId).Nodup)
    {registry' : Registry} (hp : registry'.devices.Perm registry.devices) :
    (registryAcquireCandidate registry' domain action algorithm hint keySource preference
      order).map (fun acquired => acquired.device.deviceId) =
        (registryAcquireCandidate registry domain action algorithm hint keySource preference
          order).map fun acquired => acquired.device.deviceId := by
  have hids' : (registry'.devices.map fun d => d.deviceId).Nodup := (hp.map _).nodup_iff.mpr hids
  have htakes := acquire_takes domain action algorithm keySource preference hids hint order
  have htakes' := acquire_takes domain action algorithm keySource preference hids' hint order
  cases hrun : registryAcquireCandidate registry domain action algorithm hint keySource preference
      order with
  | none =>
    rw [hrun] at htakes
    cases hrun' : registryAcquireCandidate registry' domain action algorithm hint keySource
        preference order with
    | none => rfl
    | some acquired' =>
      rw [hrun'] at htakes'
      obtain ⟨entry', _, _, ht'⟩ := htakes'
      exact absurd (ht'.perm hp.symm) (htakes entry'.1)
  | some acquired =>
    rw [hrun] at htakes
    obtain ⟨entry, rfl, _, ht⟩ := htakes
    cases hrun' : registryAcquireCandidate registry' domain action algorithm hint keySource
        preference order with
    | none =>
      rw [hrun'] at htakes'
      exact absurd (ht.perm hp) (htakes' entry.1)
    | some acquired' =>
      rw [hrun'] at htakes'
      obtain ⟨entry', rfl, _, ht'⟩ := htakes'
      have hsame : entry'.1 = entry.1 := takes_unique hids (ht'.perm hp.symm) ht
      show some entry'.1.deviceId = some entry.1.deviceId
      rw [hsame]

theorem registryAcquireCandidate_best
    (hids : (registry.devices.map fun d => d.deviceId).Nodup) :
    AcquiresBest registry domain action algorithm hint keySource preference order
      (registryAcquireCandidate registry domain action algorithm hint keySource preference
        order) := by
  have htakes := acquire_takes domain action algorithm keySource preference hids hint order
  constructor
  · intro hempty
    rw [hempty]
    exact takes_none_iff hids order
  · intro hempty acquired hrun
    rw [hrun] at htakes
    obtain ⟨entry, rfl, hslot, ht⟩ := htakes
    rw [Takes, if_pos hempty] at ht
    exact ⟨entry.1, hslot, ht⟩
  · intro registry' hp
    exact acquired_settled registry domain action algorithm hint keySource preference order hids hp
  · intro hne
    constructor
    · intro hsome
      obtain ⟨acquired, hrun⟩ := Option.isSome_iff_exists.mp hsome
      rw [hrun] at htakes
      obtain ⟨entry, _, _, ht⟩ := htakes
      rw [Takes, if_neg hne] at ht
      exact ⟨entry.1, ht⟩
    · rintro ⟨d, hd, hp⟩
      cases hrun : registryAcquireCandidate registry domain action algorithm hint keySource
          preference order with
      | none =>
        rw [hrun] at htakes
        have hno := htakes d
        rw [Takes, if_neg hne] at hno
        exact absurd ⟨hd, hp⟩ hno
      | some acquired => rfl
  · intro hne acquired hrun
    rw [hrun] at htakes
    obtain ⟨entry, rfl, hslot, ht⟩ := htakes
    rw [Takes, if_neg hne] at ht
    exact ⟨entry.1, hslot, ht.2⟩
  · intro acquired hrun
    rw [hrun] at htakes
    obtain ⟨entry, rfl, hslot, _⟩ := htakes
    exact ⟨entry.1, hslot, rfl, rfl⟩

end Exact

theorem sample_hash_best :
    (sampleRegistry.devices.map fun d => d.deviceId).Nodup ∧
      AcquiresBest sampleRegistry .hash .hash (lit "sm3") [] 0 .secure [.classic, .pqc]
        (registryAcquireCandidate sampleRegistry .hash .hash (lit "sm3") [] 0 .secure
          [.classic, .pqc]) :=
  ⟨by decide, registryAcquireCandidate_best sampleRegistry .hash .hash (lit "sm3") [] 0 .secure
    [.classic, .pqc] (by decide)⟩

/-- An order of `DEV_UNKNOWN` alone names the type of no device and still
finds one. -/
theorem unknown_type_serves :
    (sampleRegistry.devices.map fun d => d.deviceId).Nodup ∧
      (∀ d ∈ sampleRegistry.devices, d.type ∉ [DeviceType.unknown]) ∧
      (registryAcquireCandidate sampleRegistry .hash .hash (lit "sm3") [] 0 .balanced
        [.unknown]).isSome = true := by
  refine ⟨by decide, by decide, ?_⟩
  decide

end Ucisdk.Ranking
