import Mathlib.Data.ENat.Basic
import Mathlib.Data.Finset.Card
import Mathlib.Data.Fintype.Defs
import Ucisdk.Flow.Leases

/-!
# A mutex with condition variables

Threads call operations on shared data. An operation takes the mutex, waits on
its condition variable while its test says so, and is then performed, which
may signal variables; what it does while it has the mutex is not interrupted.
A signal wakes one sleeper or more, a broadcast all, and a sleeper may wake
without either. The calls are those of atomic operations, and where the
signals make up for what an operation adds, nobody sleeps who could go on
unless a thread that waits for the same is awake.
-/

set_option autoImplicit false

namespace Flow.Conditions

open Relation

inductive Wake where
  | nobody
  | one
  | everybody
  deriving DecidableEq, Repr

/-- The operations on data `D`: the variable they wait on, the test of their
loop, what they do behind it and whom they then wake. -/
structure Operations (D Op Reply C : Type*) where
  cond : Op → Option C
  waits : Op → D → Bool
  perform : Op → D → D × Reply
  wakes : Op → D → C → Wake

/-- Where a thread stands: at the lock, behind it, in the wait, at the lock
again, or back with a reply. -/
inductive Place (Op Reply : Type*) where
  | outside
  | calling (op : Op)
  | inside (op : Op)
  | asleep (op : Op)
  | woken (op : Op)
  | returned (op : Op) (reply : Reply)

section Machine

variable {κ D Op Reply C : Type*}

structure Threads (κ D Op Reply : Type*) where
  data : D
  owner : Option κ
  place : κ → Place Op Reply

def begin (κ Op Reply : Type*) {D : Type*} (data : D) : Threads κ D Op Reply :=
  ⟨data, none, fun _ => .outside⟩

/-- The thread sleeps on a variable. -/
def Sleeps (ops : Operations D Op Reply C) (c : C) : Place Op Reply → Prop
  | .asleep op => ops.cond op = some c
  | _ => False

/-- The thread is in a call that waits on a variable, and awake. -/
def Awake (ops : Operations D Op Reply C) (c : C) : Place Op Reply → Prop
  | .calling op => ops.cond op = some c
  | .inside op => ops.cond op = some c
  | .woken op => ops.cond op = some c
  | _ => False

def Place.wake : Place Op Reply → Place Op Reply
  | .asleep op => .woken op
  | place => place

/-- The threads that a performed operation wakes. -/
structure Woken (ops : Operations D Op Reply C) (wakes : C → Wake) (place : κ → Place Op Reply)
    (woken : κ → Bool) : Prop where
  one : ∀ c, wakes c = .one → (∃ k, Sleeps ops c (place k)) →
    ∃ k, Sleeps ops c (place k) ∧ woken k = true
  everybody : ∀ c, wakes c = .everybody → ∀ k, Sleeps ops c (place k) → woken k = true

/-- The places behind the wake-up. -/
def awaken (woken : κ → Bool) (place : κ → Place Op Reply) : κ → Place Op Reply :=
  fun k => if woken k = true then (place k).wake else place k

variable [DecidableEq κ] (ops : Operations D Op Reply C)

inductive Step : Threads κ D Op Reply → Threads κ D Op Reply → Prop
  | call {s : Threads κ D Op Reply} (k : κ) (op : Op) (h : s.place k = .outside) :
      Step s { s with place := Function.update s.place k (.calling op) }
  | lock {s : Threads κ D Op Reply} (k : κ) (op : Op)
      (h : s.place k = .calling op ∨ s.place k = .woken op) (hfree : s.owner = none) :
      Step s ⟨s.data, some k, Function.update s.place k (.inside op)⟩
  | wait {s : Threads κ D Op Reply} (k : κ) (op : Op) (h : s.place k = .inside op)
      (hwaits : ops.waits op s.data = true) :
      Step s ⟨s.data, none, Function.update s.place k (.asleep op)⟩
  | perform {s : Threads κ D Op Reply} (k : κ) (op : Op) (woken : κ → Bool)
      (h : s.place k = .inside op) (hwaits : ops.waits op s.data = false)
      (hwoken : Woken ops (ops.wakes op s.data) s.place woken) :
      Step s ⟨(ops.perform op s.data).1, none,
        Function.update (awaken woken s.place) k (.returned op (ops.perform op s.data).2)⟩
  | spurious {s : Threads κ D Op Reply} (k : κ) (op : Op) (h : s.place k = .asleep op) :
      Step s { s with place := Function.update s.place k (.woken op) }
  | resume {s : Threads κ D Op Reply} (k : κ) (op : Op) (reply : Reply)
      (h : s.place k = .returned op reply) :
      Step s { s with place := Function.update s.place k .outside }

def Reachable (data : D) (s : Threads κ D Op Reply) : Prop :=
  ReflTransGen (Step ops) (begin κ Op Reply data) s

end Machine

section Atomic

variable {κ D Op Reply C : Type*} [DecidableEq κ] (ops : Operations D Op Reply C)

/-- A call as its caller sees it. -/
inductive Call (Op Reply : Type*) where
  | outside
  | pending (op : Op)
  | returned (op : Op) (reply : Reply)

structure Calls (κ D Op Reply : Type*) where
  data : D
  call : κ → Call Op Reply

/-- The calls of operations that are performed at once, somewhere between the
call and its return, when their test lets them. -/
inductive AtomicStep : Calls κ D Op Reply → Calls κ D Op Reply → Prop
  | call {s : Calls κ D Op Reply} (k : κ) (op : Op) (h : s.call k = .outside) :
      AtomicStep s { s with call := Function.update s.call k (.pending op) }
  | perform {s : Calls κ D Op Reply} (k : κ) (op : Op) (h : s.call k = .pending op)
      (hwaits : ops.waits op s.data = false) :
      AtomicStep s ⟨(ops.perform op s.data).1,
        Function.update s.call k (.returned op (ops.perform op s.data).2)⟩
  | resume {s : Calls κ D Op Reply} (k : κ) (op : Op) (reply : Reply)
      (h : s.call k = .returned op reply) :
      AtomicStep s { s with call := Function.update s.call k .outside }

def Place.call : Place Op Reply → Call Op Reply
  | .outside => .outside
  | .calling op => .pending op
  | .inside op => .pending op
  | .asleep op => .pending op
  | .woken op => .pending op
  | .returned op reply => .returned op reply

def Threads.calls (s : Threads κ D Op Reply) : Calls κ D Op Reply :=
  ⟨s.data, fun k => (s.place k).call⟩

theorem calls_update (data : D) (owner : Option κ) (place : κ → Place Op Reply) (k : κ)
    (p : Place Op Reply) :
    (Threads.mk data owner (Function.update place k p)).calls =
      ⟨data, Function.update (fun k' => (place k').call) k p.call⟩ := by
  rw [Threads.calls, Calls.mk.injEq]
  refine ⟨rfl, ?_⟩
  funext k'
  show (Function.update place k p k').call = _
  by_cases hk : k' = k
  · rw [hk, Function.update_self, Function.update_self]
  · rw [Function.update_of_ne hk, Function.update_of_ne hk]

theorem calls_same (data : D) (owner : Option κ) {place : κ → Place Op Reply} {k : κ}
    {p : Place Op Reply} (h : p.call = (place k).call) :
    (Threads.mk data owner (Function.update place k p)).calls =
      ⟨data, fun k' => (place k').call⟩ := by
  have hsame : Function.update (fun k' => (place k').call) k (place k).call =
      fun k' => (place k').call := Function.update_eq_self k _
  rw [calls_update, h, hsame]

omit [DecidableEq κ] in
theorem wake_call (p : Place Op Reply) : p.wake.call = p.call := by
  cases p with
  | asleep op => rfl
  | _ => rfl

omit [DecidableEq κ] in
theorem awaken_call (woken : κ → Bool) (place : κ → Place Op Reply) :
    (fun k => (awaken woken place k).call) = fun k => (place k).call := by
  funext k
  rw [awaken]
  split
  · exact wake_call _
  · rfl

variable {ops} {s t : Threads κ D Op Reply}

/-- A step of a thread is a step of its call, or its caller does not see it. -/
theorem step_calls (h : Step ops s t) : t.calls = s.calls ∨ AtomicStep ops s.calls t.calls := by
  cases h with
  | call k op h =>
    right
    have hcall : s.calls.call k = .outside := congrArg Place.call h
    rw [calls_update]
    exact .call k op hcall
  | lock k op h hfree =>
    left
    have hcall : (s.place k).call = .pending op := by
      rcases h with h | h
      · rw [h]
        rfl
      · rw [h]
        rfl
    exact calls_same _ _ hcall.symm
  | wait k op h hwaits =>
    left
    exact calls_same _ _ (congrArg Place.call h).symm
  | perform k op woken h hwaits hwoken =>
    right
    have hcall : s.calls.call k = .pending op := congrArg Place.call h
    rw [calls_update, awaken_call]
    exact .perform k op hcall hwaits
  | spurious k op h =>
    left
    exact calls_same _ _ (congrArg Place.call h).symm
  | resume k op reply h =>
    right
    have hcall : s.calls.call k = .returned op reply := congrArg Place.call h
    rw [calls_update]
    exact .resume k op reply hcall

/-- A run of the threads is a run of atomic calls. -/
theorem run_calls (h : ReflTransGen (Step ops) s t) :
    ReflTransGen (AtomicStep ops) s.calls t.calls := by
  induction h with
  | refl => exact .refl
  | tail _ hstep ih =>
    rcases step_calls hstep with hsame | hatomic
    · rw [hsame]
      exact ih
    · exact ih.tail hatomic

end Atomic

section Exclusion

variable {κ D Op Reply C : Type*} [DecidableEq κ] {ops : Operations D Op Reply C}
  {s t : Threads κ D Op Reply}

def Place.Inside (p : Place Op Reply) : Prop := ∃ op, p = .inside op

/-- The thread behind the lock is its owner. -/
def Exclusive (s : Threads κ D Op Reply) : Prop := ∀ k, (s.place k).Inside ↔ s.owner = some k

theorem exclusive_stays (h : Exclusive s) {k : κ} {p : Place Op Reply} (hp : ¬p.Inside)
    (hk : ¬(s.place k).Inside) :
    Exclusive { s with place := Function.update s.place k p } := by
  intro k'
  by_cases hkk : k' = k
  · subst hkk
    show (Function.update s.place k' p k').Inside ↔ s.owner = some k'
    rw [Function.update_self, ← h k']
    exact iff_of_false hp hk
  · show (Function.update s.place k p k').Inside ↔ s.owner = some k'
    rw [Function.update_of_ne hkk]
    exact h k'

omit [DecidableEq κ] in
theorem awaken_inside (woken : κ → Bool) (place : κ → Place Op Reply) (k : κ) :
    (awaken woken place k).Inside ↔ (place k).Inside := by
  rw [awaken]
  split
  · cases hp : place k with
    | asleep op => simp [Place.wake, Place.Inside]
    | _ => rfl
  · rfl

/-- The owner leaves the lock. -/
theorem exclusive_leaves (h : Exclusive s) {k : κ} {op : Op} (hk : s.place k = .inside op)
    (data : D) (woken : κ → Bool) {p : Place Op Reply} (hp : ¬p.Inside) :
    Exclusive ⟨data, none, Function.update (awaken woken s.place) k p⟩ := by
  have howner := (h k).mp ⟨op, hk⟩
  intro k'
  show (Function.update (awaken woken s.place) k p k').Inside ↔ none = some k'
  by_cases hkk : k' = k
  · rw [hkk, Function.update_self]
    exact iff_of_false hp (by simp)
  · rw [Function.update_of_ne hkk, awaken_inside, h k', howner]
    simp [Ne.symm hkk]

omit [DecidableEq κ] in
theorem awaken_nobody (place : κ → Place Op Reply) : awaken (fun _ => false) place = place := by
  funext k
  rw [awaken, if_neg (by simp)]

theorem exclusive_step (h : Exclusive s) (hstep : Step ops s t) : Exclusive t := by
  cases hstep with
  | call k op hk => exact exclusive_stays h (by simp [Place.Inside]) (by simp [Place.Inside, hk])
  | lock k op hk hfree =>
    intro k'
    show (Function.update s.place k (.inside op) k').Inside ↔ some k = some k'
    by_cases hkk : k' = k
    · rw [hkk, Function.update_self]
      exact iff_of_true ⟨op, rfl⟩ rfl
    · rw [Function.update_of_ne hkk, h k', hfree]
      simp [Ne.symm hkk]
  | wait k op hk hwaits =>
    have hleaves := exclusive_leaves h hk s.data (fun _ => false) (p := .asleep op)
      (by simp [Place.Inside])
    rw [awaken_nobody] at hleaves
    exact hleaves
  | perform k op woken hk hwaits hwoken =>
    exact exclusive_leaves h hk _ woken (by simp [Place.Inside])
  | spurious k op hk =>
    exact exclusive_stays h (by simp [Place.Inside]) (by simp [Place.Inside, hk])
  | resume k op reply hk =>
    exact exclusive_stays h (by simp [Place.Inside]) (by simp [Place.Inside, hk])

omit [DecidableEq κ] in
theorem exclusive_begin (data : D) : Exclusive (begin κ Op Reply data) := by
  intro k
  simp [begin, Place.Inside]

theorem reachable_exclusive {data : D} (h : Reachable ops data s) : Exclusive s := by
  induction h with
  | refl => exact exclusive_begin data
  | tail _ hstep ih => exact exclusive_step ih hstep

end Exclusion

section WakeUps

variable {κ D Op Reply C : Type*}

/-- The room that operations on a variable find: none exactly where they wait.
What an operation adds to the room of a variable, its signals make up for. -/
structure Signalled [DecidableEq C] (ops : Operations D Op Reply C) (good : D → Prop)
    (room : C → D → ℕ∞) : Prop where
  kept : ∀ op d, good d → ops.waits op d = false → good (ops.perform op d).1
  waits : ∀ op d c, good d → ops.cond op = some c → (ops.waits op d = true ↔ room c d = 0)
  signals : ∀ op d c, good d → ops.waits op d = false → ops.wakes op d c ≠ .everybody →
    room c (ops.perform op d).1 + (if ops.cond op = some c then 1 else 0) ≤
      room c d + (if ops.wakes op d c = .one then 1 else 0)

section Counting

variable [Fintype κ] (ops : Operations D Op Reply C) (place : κ → Place Op Reply) (c : C)

open Classical in
/-- The threads that are awake in a call that waits on a variable. -/
noncomputable def awake : Finset κ := Finset.univ.filter fun k => Awake ops c (place k)

/-- Nobody sleeps on the variable, or those who are awake are enough for it. -/
def Answered (room : ℕ∞) : Prop :=
  (∀ k, ¬Sleeps ops c (place k)) ∨ room ≤ ((awake ops place c).card : ℕ∞)

end Counting

variable [Fintype κ] {ops : Operations D Op Reply C} {place place' : κ → Place Op Reply} {c : C}

theorem mem_awake (k : κ) : k ∈ awake ops place c ↔ Awake ops c (place k) := by
  simp [awake]

/-- More may be awake. -/
theorem answered_mono {room : ℕ∞} (h : Answered ops place c room)
    (hsleep : ∀ k, Sleeps ops c (place' k) → Sleeps ops c (place k))
    (hawake : ∀ k, Awake ops c (place k) → Awake ops c (place' k)) :
    Answered ops place' c room := by
  rcases h with hnone | hroom
  · exact .inl fun k hk => hnone k (hsleep k hk)
  · right
    have hsub : awake ops place c ⊆ awake ops place' c := by
      intro k hk
      rw [mem_awake] at hk ⊢
      exact hawake k hk
    exact hroom.trans (Nat.cast_le.mpr (Finset.card_le_card hsub))

variable [DecidableEq κ]

/-- A thread's new place wakes nobody up and puts nobody to sleep. -/
theorem answered_update {room : ℕ∞} (h : Answered ops place c room) {k : κ} {p : Place Op Reply}
    (hsleep : Sleeps ops c p → Sleeps ops c (place k))
    (hawake : Awake ops c (place k) → Awake ops c p) :
    Answered ops (Function.update place k p) c room := by
  apply answered_mono h
  · intro k' hk
    by_cases hkk : k' = k
    · rw [hkk, Function.update_self] at hk
      exact hkk ▸ hsleep hk
    · rw [Function.update_of_ne hkk] at hk
      exact hk
  · intro k' hk
    by_cases hkk : k' = k
    · rw [hkk, Function.update_self]
      exact hawake (hkk ▸ hk)
    · rw [Function.update_of_ne hkk]
      exact hk

theorem answered_passing {room : ℕ∞} (h : Answered ops place c room) {k : κ} {p : Place Op Reply}
    (hsleep : ¬Sleeps ops c p) (hawake : ¬Awake ops c (place k)) :
    Answered ops (Function.update place k p) c room :=
  answered_update h (fun hp => absurd hp hsleep) fun hk => absurd hk hawake

omit [Fintype κ] [DecidableEq κ] in
theorem awaken_sleeps {woken : κ → Bool} {k : κ} (h : Sleeps ops c (awaken woken place k)) :
    Sleeps ops c (place k) ∧ woken k = false := by
  rw [awaken] at h
  split at h
  · cases hp : place k with
    | asleep op => simp [hp, Place.wake, Sleeps] at h
    | _ => simp [hp, Place.wake, Sleeps] at h
  · rename_i hk
    exact ⟨h, by simpa using hk⟩

omit [Fintype κ] [DecidableEq κ] in
theorem awaken_awake {woken : κ → Bool} {k : κ} (h : Awake ops c (place k)) :
    Awake ops c (awaken woken place k) := by
  rw [awaken]
  split
  · cases hp : place k with
    | asleep op => simp [hp, Awake] at h
    | _ => rwa [hp] at h
  · exact h

omit [Fintype κ] [DecidableEq κ] in
theorem awaken_woken {woken : κ → Bool} {k : κ} (h : Sleeps ops c (place k))
    (hk : woken k = true) : Awake ops c (awaken woken place k) := by
  rw [awaken, if_pos hk]
  cases hp : place k with
  | asleep op =>
    rw [hp] at h
    exact h
  | _ => simp [hp, Sleeps] at h

omit [Fintype κ] [DecidableEq κ] in
theorem not_awake_asleep {p : Place Op Reply} (h : Sleeps ops c p) : ¬Awake ops c p := by
  cases p with
  | asleep op => simp [Awake]
  | _ => simp [Sleeps] at h

omit [Fintype κ] in
/-- A set loses at most the member `k`, and that only under `P`. -/
theorem card_without {before after : Finset κ} {k : κ} {P : Prop} [Decidable P]
    (hstays : ∀ k' ∈ before, k' ≠ k → k' ∈ after) (hk : k ∈ before → P) :
    before.card ≤ after.card + if P then 1 else 0 := by
  by_cases hmem : k ∈ before
  · have hsub : before ⊆ insert k after := by
      intro k' hk'
      by_cases hkk : k' = k
      · exact hkk ▸ Finset.mem_insert_self _ _
      · exact Finset.mem_insert_of_mem (hstays k' hk' hkk)
    rw [if_pos (hk hmem)]
    exact (Finset.card_le_card hsub).trans (Finset.card_insert_le _ _)
  · have hsub : before ⊆ after := by
      intro k' hk'
      exact hstays k' hk' fun hkk => hmem (hkk ▸ hk')
    exact (Finset.card_le_card hsub).trans (Nat.le_add_right _ _)

variable {woken : κ → Bool} {k k₁ : κ} {op : Op} {reply : Reply}

theorem awake_stays {k' : κ} (h : Awake ops c (awaken woken place k')) (hne : k' ≠ k) :
    k' ∈ awake ops (Function.update (awaken woken place) k (.returned op reply)) c := by
  rw [mem_awake, Function.update_of_ne hne]
  exact h

omit [Fintype κ] in
theorem sleeps_performed {k' : κ}
    (h : Sleeps ops c (Function.update (awaken woken place) k (.returned op reply) k')) :
    Sleeps ops c (place k') ∧ woken k' = false := by
  by_cases hkk : k' = k
  · rw [hkk, Function.update_self] at h
    exact absurd h id
  · rw [Function.update_of_ne hkk] at h
    exact awaken_sleeps h

variable [DecidableEq C]

/-- Of those who were awake only the thread that performed its operation is
not any more. -/
theorem awake_performed (reply : Reply) (hk : place k = .inside op) :
    (awake ops place c).card ≤
      (awake ops (Function.update (awaken woken place) k (.returned op reply)) c).card +
        if ops.cond op = some c then 1 else 0 := by
  apply card_without
  · intro k' hk' hne
    exact awake_stays (awaken_awake ((mem_awake k').mp hk')) hne
  · intro hk'
    rwa [mem_awake, hk] at hk'

/-- A signal that reaches a sleeper adds one who is awake. -/
theorem awake_signalled (reply : Reply) (hk : place k = .inside op)
    (hsleep : Sleeps ops c (place k₁)) (hwoken : woken k₁ = true) :
    (awake ops place c).card + 1 ≤
      (awake ops (Function.update (awaken woken place) k (.returned op reply)) c).card +
        if ops.cond op = some c then 1 else 0 := by
  have hnew : k₁ ∉ awake ops place c := by
    rw [mem_awake]
    exact not_awake_asleep hsleep
  rw [← Finset.card_insert_of_notMem hnew]
  apply card_without (k := k)
  · intro k' hk' hne
    rcases Finset.mem_insert.mp hk' with rfl | hk'
    · exact awake_stays (awaken_woken hsleep hwoken) hne
    · exact awake_stays (awaken_awake ((mem_awake k').mp hk')) hne
  · intro hk'
    rcases Finset.mem_insert.mp hk' with rfl | hk'
    · rw [hk] at hsleep
      exact absurd hsleep id
    · rwa [mem_awake, hk] at hk'

/-- A performed operation answers the sleepers it made room for. -/
theorem answered_performed {good : D → Prop} {room : C → D → ℕ∞} {d : D}
    (hops : Signalled ops good room) (hgood : good d) (h : Answered ops place c (room c d))
    (hk : place k = .inside op) (hwaits : ops.waits op d = false)
    (hwoken : Woken ops (ops.wakes op d) place woken) (reply : Reply) :
    Answered ops (Function.update (awaken woken place) k (.returned op reply)) c
      (room c (ops.perform op d).1) := by
  have hcancel {a b : ℕ∞} {i : ℕ} (hab : a + i ≤ b + i) : a ≤ b :=
    (ENat.add_le_add_iff_right (ENat.natCast_ne_top i)).mp hab
  rcases h with hnone | hroom
  · exact .inl fun k' hk' => hnone k' (sleeps_performed hk').1
  by_cases hsome : ∃ k', Sleeps ops c (place k')
  · cases hw : ops.wakes op d c with
    | nobody =>
      right
      apply hcancel (i := if ops.cond op = some c then 1 else 0)
      have hlaw := hops.signals op d c hgood hwaits (by simp [hw])
      have hcount : (awake ops place c).card ≤ (awake ops (Function.update
          (awaken woken place) k (.returned op reply)) c).card + _ := awake_performed reply hk
      rw [hw, if_neg (by simp : Wake.nobody ≠ .one), add_zero] at hlaw
      push_cast
      exact hlaw.trans (hroom.trans (by exact_mod_cast hcount))
    | one =>
      right
      obtain ⟨k₁, hsleep, hk₁⟩ := hwoken.one c hw hsome
      apply hcancel (i := if ops.cond op = some c then 1 else 0)
      have hlaw := hops.signals op d c hgood hwaits (by simp [hw])
      have hcount : (awake ops place c).card + 1 ≤ (awake ops (Function.update
          (awaken woken place) k (.returned op reply)) c).card + _ :=
        awake_signalled reply hk hsleep hk₁
      rw [hw, if_pos rfl] at hlaw
      push_cast
      exact hlaw.trans ((add_le_add_left hroom 1).trans (by exact_mod_cast hcount))
    | everybody =>
      left
      intro k' hk'
      obtain ⟨hsleep, hasleep⟩ := sleeps_performed hk'
      rw [hwoken.everybody c hw k' hsleep] at hasleep
      exact absurd hasleep (by simp)
  · exact .inl fun k' hk' => hsome ⟨k', (sleeps_performed hk').1⟩

/-- The data are good, and who could go on is answered for. -/
structure Wakeful (ops : Operations D Op Reply C) (good : D → Prop) (room : C → D → ℕ∞)
    (s : Threads κ D Op Reply) : Prop where
  good : good s.data
  answered : ∀ c, Answered ops s.place c (room c s.data)

variable {good : D → Prop} {room : C → D → ℕ∞} {s t : Threads κ D Op Reply}

theorem wakeful_step (hops : Signalled ops good room) (h : Wakeful ops good room s)
    (hstep : Step ops s t) : Wakeful ops good room t := by
  cases hstep with
  | call k op hk =>
    refine ⟨h.good, fun c => answered_passing (h.answered c) id ?_⟩
    rw [hk]
    exact id
  | lock k op hk hfree =>
    refine ⟨h.good, fun c => answered_update (h.answered c) ?_ ?_⟩
    · intro hsleep
      exact absurd hsleep id
    · intro hawake
      rcases hk with hk | hk
      · rw [hk] at hawake
        exact hawake
      · rw [hk] at hawake
        exact hawake
  | wait k op hk hwaits =>
    refine ⟨h.good, fun c => ?_⟩
    by_cases hcond : ops.cond op = some c
    · right
      -- the test says that there is no room at all
      have hzero := (hops.waits op s.data c h.good hcond).mp hwaits
      show room c s.data ≤ _
      rw [hzero]
      exact bot_le
    · refine answered_passing (p := .asleep op) (h.answered c) hcond ?_
      rw [hk]
      exact hcond
  | perform k op woken hk hwaits hwoken =>
    refine ⟨hops.kept op s.data h.good hwaits, fun c => ?_⟩
    exact answered_performed hops h.good (h.answered c) hk hwaits hwoken _
  | spurious k op hk =>
    refine ⟨h.good, fun c => answered_passing (h.answered c) id ?_⟩
    rw [hk]
    exact id
  | resume k op reply hk =>
    refine ⟨h.good, fun c => answered_passing (h.answered c) id ?_⟩
    rw [hk]
    exact id

theorem reachable_wakeful {data : D} (hops : Signalled ops good room) (hgood : good data)
    (h : Reachable ops data s) : Wakeful ops good room s := by
  induction h with
  | refl => exact ⟨hgood, fun c => .inl fun k => id⟩
  | tail _ hstep ih => exact wakeful_step hops ih hstep

omit [DecidableEq κ] in
/-- A sleeper that could go on is not the only one to know: another thread in
a call that waits for the same is awake. -/
theorem wakeful_sleeper (hops : Signalled ops good room) (h : Wakeful ops good room s) {k : κ}
    {op : Op} (hk : s.place k = .asleep op) {c : C} (hcond : ops.cond op = some c)
    (hwaits : ops.waits op s.data = false) : ∃ k', Awake ops c (s.place k') := by
  rcases h.answered c with hnone | hroom
  · refine absurd ?_ (hnone k)
    rw [hk]
    exact hcond
  · have hpos : room c s.data ≠ 0 := by
      intro hzero
      rw [(hops.waits op s.data c h.good hcond).mpr hzero] at hwaits
      exact absurd hwaits (by simp)
    have hcard : (awake ops s.place c).card ≠ 0 := by
      intro hzero
      rw [hzero] at hroom
      exact hpos (nonpos_iff_eq_zero.mp hroom)
    obtain ⟨k', hk'⟩ := Finset.card_ne_zero.mp hcard
    exact ⟨k', (mem_awake k').mp hk'⟩

omit [Fintype κ] [DecidableEq C] in
/-- While a thread is awake in a call, the mutex can be taken or is left: only
the steps at the lock, in the wait and of the operation itself move it. -/
theorem awake_moves (h : Exclusive s) {k : κ} {c : C} (hk : Awake ops c (s.place k)) :
    ∃ t, Step ops s t ∧ t.owner ≠ s.owner := by
  cases howner : s.owner with
  | none =>
    obtain ⟨op, hop⟩ : ∃ op, s.place k = .calling op ∨ s.place k = .woken op := by
      cases hp : s.place k with
      | calling op => exact ⟨op, .inl rfl⟩
      | woken op => exact ⟨op, .inr rfl⟩
      | inside op =>
        rw [(h k).mp ⟨op, hp⟩] at howner
        cases howner
      | _ => simp [hp, Awake] at hk
    exact ⟨_, .lock k op hop howner, by simp⟩
  | some k' =>
    obtain ⟨op, hop⟩ := (h k').mpr howner
    cases hwaits : ops.waits op s.data with
    | true => exact ⟨_, .wait k' op hop hwaits, by simp⟩
    | false =>
      -- every sleeper may be woken
      have hwoken : Woken ops (ops.wakes op s.data) s.place fun _ => true :=
        ⟨fun c _ ⟨k, hsleep⟩ => ⟨k, hsleep, rfl⟩, fun _ _ _ _ => rfl⟩
      exact ⟨_, .perform k' op _ hop hwaits hwoken, by simp⟩

end WakeUps

end Flow.Conditions
