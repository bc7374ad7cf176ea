import Mathlib.Data.List.Basic

/-!
# Programs over external calls

A program calls functions that are not its own and answers from their
replies. The interpreter of the calls may keep a state and reply as it likes;
a run lists the calls that were made with the replies they got.
-/

set_option autoImplicit false

namespace Flow.Calls

structure Signature where
  Op : Type
  Reply : Op → Type

structure Call (S : Signature) where
  op : S.Op
  reply : S.Reply op

abbrev Interpreter (S : Signature) (σ : Type) := (op : S.Op) → σ → S.Reply op × σ

structure Ran (S : Signature) (σ α : Type) where
  value : α
  calls : List (Call S)
  state : σ

def Prog (S : Signature) (σ α : Type) := σ → Ran S σ α

variable {S : Signature} {σ α β : Type}

instance : Monad (Prog S σ) where
  pure a := fun s => ⟨a, [], s⟩
  bind act next := fun s =>
    let first := act s
    let rest := next first.value first.state
    ⟨rest.value, first.calls ++ rest.calls, rest.state⟩

def call (lib : Interpreter S σ) (op : S.Op) : Prog S σ (S.Reply op) := fun s =>
  ⟨(lib op s).1, [⟨op, (lib op s).1⟩], (lib op s).2⟩

@[simp] theorem pure_run (a : α) (s : σ) : (pure a : Prog S σ α) s = ⟨a, [], s⟩ := rfl

theorem bind_run (act : Prog S σ α) (next : α → Prog S σ β) (s : σ) :
    (act >>= next) s =
      ⟨(next (act s).value (act s).state).value,
        (act s).calls ++ (next (act s).value (act s).state).calls,
        (next (act s).value (act s).state).state⟩ := rfl

/-- The value and the calls of every run meet `post`. -/
def Runs (act : Prog S σ α) (post : α → List (Call S) → Prop) : Prop :=
  ∀ s, post (act s).value (act s).calls

section Runs

variable {act : Prog S σ α} {next : α → Prog S σ β}
variable {post mid : α → List (Call S) → Prop} {last : β → List (Call S) → Prop}

theorem runs_pure {a : α} (h : post a []) : Runs (pure a : Prog S σ α) post := fun _ => h

theorem runs_call {lib : Interpreter S σ} {op : S.Op} {post : S.Reply op → List (Call S) → Prop}
    (h : ∀ reply, post reply [⟨op, reply⟩]) : Runs (call lib op) post := fun _ => h _

theorem runs_bind (hact : Runs act mid)
    (hnext : ∀ a first, mid a first → Runs (next a) fun b rest => last b (first ++ rest)) :
    Runs (act >>= next) last :=
  fun s => hnext _ _ (hact s) _

theorem runs_imp (h : Runs act mid) (himp : ∀ a calls, mid a calls → post a calls) :
    Runs act post :=
  fun s => himp _ _ (h s)

end Runs

/-- Every value meets `w`, and every call that is made was allowed. -/
def Keeps (allowed : S.Op → Prop) (w : α → Prop) (act : Prog S σ α) : Prop :=
  Runs act fun a calls => w a ∧ ∀ c ∈ calls, allowed c.op

section Keeps

variable {allowed : S.Op → Prop} {act : Prog S σ α} {next : α → Prog S σ β}
variable {w mid : α → Prop} {last : β → Prop}

theorem keeps_pure {a : α} (h : w a) : Keeps allowed w (pure a : Prog S σ α) :=
  runs_pure ⟨h, by simp⟩

theorem keeps_call {lib : Interpreter S σ} {op : S.Op} {w : S.Reply op → Prop} (h : allowed op)
    (hw : ∀ reply, w reply) : Keeps allowed w (call lib op) := by
  apply runs_call
  intro reply
  refine ⟨hw reply, fun c hc => ?_⟩
  rw [List.mem_singleton.mp hc]
  exact h

theorem keeps_bind (hact : Keeps allowed mid act)
    (hnext : ∀ a, mid a → Keeps allowed last (next a)) : Keeps allowed last (act >>= next) := by
  refine runs_bind hact fun a first ⟨hmid, hfirst⟩ => ?_
  refine runs_imp (hnext a hmid) fun b rest ⟨hlast, hrest⟩ => ⟨hlast, fun c hc => ?_⟩
  rcases List.mem_append.mp hc with hc | hc
  · exact hfirst c hc
  · exact hrest c hc

end Keeps

/-- The value of every run meets `w`. -/
def Yields (w : α → Prop) (act : Prog S σ α) : Prop := ∀ s, w (act s).value

section Yields

variable {act : Prog S σ α} {next : α → Prog S σ β} {w mid : α → Prop} {last : β → Prop}

theorem yields_pure {a : α} (h : w a) : Yields w (pure a : Prog S σ α) := fun _ => h

theorem yields_any (act : Prog S σ α) : Yields (fun _ => True) act := fun _ => trivial

theorem yields_bind (hact : Yields mid act) (hnext : ∀ a, mid a → Yields last (next a)) :
    Yields last (act >>= next) :=
  fun s => hnext _ (hact s) _

end Yields

/-- Every run makes a call that meets `p`. -/
def Makes (p : Call S → Prop) (act : Prog S σ α) : Prop := ∀ s, ∃ c ∈ (act s).calls, p c

section Makes

variable {p : Call S → Prop} {act : Prog S σ α} {next : α → Prog S σ β} {mid : α → Prop}

theorem makes_call {lib : Interpreter S σ} {op : S.Op} (h : ∀ reply, p ⟨op, reply⟩) :
    Makes p (call lib op) := fun _ => ⟨_, List.mem_singleton_self _, h _⟩

theorem makes_first (hact : Makes p act) : Makes p (act >>= next) := by
  intro s
  obtain ⟨c, hc, hp⟩ := hact s
  exact ⟨c, List.mem_append_left _ hc, hp⟩

theorem makes_after (hact : Yields mid act) (hnext : ∀ a, mid a → Makes p (next a)) :
    Makes p (act >>= next) := by
  intro s
  obtain ⟨c, hc, hp⟩ := hnext _ (hact s) (act s).state
  exact ⟨c, List.mem_append_right _ hc, hp⟩

end Makes

theorem keeps_yields {allowed : S.Op → Prop} {act : Prog S σ α} {w w' : α → Prop}
    (h : Keeps allowed w act) (h' : Yields w' act) : Keeps allowed (fun a => w a ∧ w' a) act :=
  fun s => ⟨⟨(h s).1, h' s⟩, (h s).2⟩

/-- What a call does to the resources that are held. -/
inductive Move (ι : Type) where
  | none
  | acquire (i : ι)
  | release (i : ι)

section Held

variable {ι : Type} [DecidableEq ι]

/-- Only the resource that was acquired last may be released. -/
def Move.apply : Move ι → List ι → Option (List ι)
  | .none, held => some held
  | .acquire i, held => some (i :: held)
  | .release _, [] => Option.none
  | .release i, j :: held => if i = j then some held else Option.none

def replay (moves : Call S → Move ι) : List (Call S) → List ι → Option (List ι)
  | [], held => some held
  | c :: rest, held => ((moves c).apply held).bind (replay moves rest)

variable {moves : Call S → Move ι}

theorem replay_append (first rest : List (Call S)) (held : List ι) :
    replay moves (first ++ rest) held = (replay moves first held).bind (replay moves rest) := by
  induction first generalizing held with
  | nil => rfl
  | cons c first ih =>
    rw [List.cons_append, replay, replay]
    cases (moves c).apply held with
    | none => rfl
    | some held => exact ih held

theorem replay_one (c : Call S) (held : List ι) :
    replay moves [c] held = (moves c).apply held := by
  rw [replay]
  cases (moves c).apply held with
  | none => rfl
  | some held => rfl

/-- From a state and the resources held there, a run releases in the reverse
order of acquisition, and its value and what is held then meet `post`. -/
def HoldsAt (moves : Call S → Move ι) (s : σ) (held : List ι) (act : Prog S σ α)
    (post : α → List ι → Prop) : Prop :=
  ∃ held', replay moves (act s).calls held = some held' ∧ post (act s).value held'

def Holds (moves : Call S → Move ι) (held : List ι) (act : Prog S σ α)
    (post : α → List ι → Prop) : Prop :=
  ∀ s, HoldsAt moves s held act post

variable {s : σ} {held : List ι} {act : Prog S σ α} {next : α → Prog S σ β}
variable {post mid : α → List ι → Prop} {last : β → List ι → Prop}

theorem holdsAt_pure {a : α} (h : post a held) : HoldsAt moves s held (pure a) post :=
  ⟨held, rfl, h⟩

theorem holdsAt_then {held' : List ι} (hact : replay moves (act s).calls held = some held')
    (hnext : HoldsAt moves (act s).state held' (next (act s).value) last) :
    HoldsAt moves s held (act >>= next) last := by
  obtain ⟨held'', hrest, hlast⟩ := hnext
  have hall : replay moves ((act s).calls ++ (next (act s).value (act s).state).calls) held =
      some held'' := by
    rw [replay_append, hact]
    exact hrest
  exact ⟨held'', hall, hlast⟩

theorem holdsAt_bind (hact : HoldsAt moves s held act mid)
    (hnext : ∀ a held', mid a held' → Holds moves held' (next a) last) :
    HoldsAt moves s held (act >>= next) last := by
  obtain ⟨held', hreplay, hmid⟩ := hact
  exact holdsAt_then hreplay (hnext _ _ hmid _)

theorem holdsAt_imp (h : HoldsAt moves s held act mid) (himp : ∀ a held', mid a held' → post a held') :
    HoldsAt moves s held act post := by
  obtain ⟨held', hreplay, hmid⟩ := h
  exact ⟨held', hreplay, himp _ _ hmid⟩

theorem holds_pure {a : α} (h : post a held) : Holds moves held (pure a : Prog S σ α) post :=
  fun _ => holdsAt_pure h

theorem holds_bind (hact : Holds moves held act mid)
    (hnext : ∀ a held', mid a held' → Holds moves held' (next a) last) :
    Holds moves held (act >>= next) last :=
  fun s => holdsAt_bind (hact s) hnext

theorem holds_imp (h : Holds moves held act mid) (himp : ∀ a held', mid a held' → post a held') :
    Holds moves held act post :=
  fun s => holdsAt_imp (h s) himp

theorem holds_call {lib : Interpreter S σ} {op : S.Op} {post : S.Reply op → List ι → Prop}
    (h : ∀ s, ∃ held', (moves ⟨op, (lib op s).1⟩).apply held = some held' ∧
      post (lib op s).1 held') :
    Holds moves held (call lib op) post := by
  intro s
  obtain ⟨held', happly, hpost⟩ := h s
  exact ⟨held', (replay_one _ held).trans happly, hpost⟩

/-- A call that moves nothing leaves the resources as they are. -/
theorem holds_idle {lib : Interpreter S σ} {op : S.Op} (h : ∀ reply, moves ⟨op, reply⟩ = .none) :
    Holds moves held (call lib op) (fun _ held' => held' = held) := by
  apply holds_call
  intro s
  rw [h]
  exact ⟨held, rfl, rfl⟩

end Held

end Flow.Calls
