import Ucisdk.Flow.Calls

/-!
# Programs under a monitor

A monitor watches the calls that a program makes: its state says which call is
permitted next, and changes with the call and the reply to it. A triple says
that from a state of the monitor every call of a program is permitted, and
what holds of its value and of the monitor afterwards.
-/

set_option autoImplicit false

namespace Flow.Monitors

open Flow.Calls

structure Monitor (S : Signature) (ρ : Type) where
  permits : S.Op → ρ → Prop
  after : Call S → ρ → ρ

section Traces

variable {S : Signature} {ρ : Type} (m : Monitor S ρ)

def final : List (Call S) → ρ → ρ
  | [], r => r
  | c :: rest, r => final rest (m.after c r)

def Conforms : List (Call S) → ρ → Prop
  | [], _ => True
  | c :: rest, r => m.permits c.op r ∧ Conforms rest (m.after c r)

variable {m}

theorem final_append (first rest : List (Call S)) (r : ρ) :
    final m (first ++ rest) r = final m rest (final m first r) := by
  induction first generalizing r with
  | nil => rfl
  | cons c first ih => exact ih (m.after c r)

theorem conforms_append (first rest : List (Call S)) (r : ρ) :
    Conforms m (first ++ rest) r ↔ Conforms m first r ∧ Conforms m rest (final m first r) := by
  induction first generalizing r with
  | nil => simp [Conforms, final]
  | cons c first ih =>
    rw [List.cons_append, Conforms, Conforms, final, ih (m.after c r), and_assoc]

/-- Every call was permitted in the state that the calls in front of it left. -/
theorem conforms_split {first rest : List (Call S)} {c : Call S} {r : ρ}
    (h : Conforms m (first ++ c :: rest) r) : m.permits c.op (final m first r) :=
  ((conforms_append first (c :: rest) r).mp h).2.1

end Traces

section Triples

variable {S : Signature} {ρ σ α β : Type} {m : Monitor S ρ}

def Triple (m : Monitor S ρ) (pre : ρ → Prop) (act : Prog S σ α) (post : α → ρ → Prop) : Prop :=
  ∀ s r, pre r → Conforms m (act s).calls r ∧ post (act s).value (final m (act s).calls r)

variable {pre pre' : ρ → Prop} {act : Prog S σ α} {next : α → Prog S σ β}
variable {post mid : α → ρ → Prop} {last : β → ρ → Prop}

theorem triple_pure {a : α} (h : ∀ r, pre r → post a r) : Triple m pre (pure a : Prog S σ α) post :=
  fun _ r hr => ⟨trivial, h r hr⟩

theorem triple_call {lib : Interpreter S σ} {op : S.Op} {post : S.Reply op → ρ → Prop}
    (hpermits : ∀ r, pre r → m.permits op r)
    (hpost : ∀ s r, pre r → post (lib op s).1 (m.after ⟨op, (lib op s).1⟩ r)) :
    Triple m pre (call lib op) post :=
  fun s r hr => ⟨⟨hpermits r hr, trivial⟩, hpost s r hr⟩

theorem triple_bind (hact : Triple m pre act mid)
    (hnext : ∀ a, Triple m (mid a) (next a) last) : Triple m pre (act >>= next) last := by
  intro s r hr
  obtain ⟨hfirst, hmid⟩ := hact s r hr
  obtain ⟨hrest, hlast⟩ := hnext (act s).value (act s).state _ hmid
  constructor
  · exact (conforms_append _ _ r).mpr ⟨hfirst, hrest⟩
  · have hfinal : final m ((act >>= next) s).calls r =
        final m (next (act s).value (act s).state).calls (final m (act s).calls r) :=
      final_append _ _ r
    rw [hfinal]
    exact hlast

theorem triple_imp (h : Triple m pre act mid) (hpre : ∀ r, pre' r → pre r)
    (hpost : ∀ a r, mid a r → post a r) : Triple m pre' act post := by
  intro s r hr
  obtain ⟨hconforms, hmid⟩ := h s r (hpre r hr)
  exact ⟨hconforms, hpost _ _ hmid⟩

theorem triple_post (h : Triple m pre act mid) (hpost : ∀ a r, mid a r → post a r) :
    Triple m pre act post :=
  triple_imp h (fun _ hr => hr) hpost

/-- A fact that holds in front of a program, whatever the state. -/
theorem triple_given {p : Prop} (hpre : ∀ r, pre' r → p ∧ pre r) (h : p → Triple m pre act post) :
    Triple m pre' act post :=
  fun s r hr => h (hpre r hr).1 s r (hpre r hr).2

/-- A program that is permitted in these states and leaves them. -/
def Steady (m : Monitor S ρ) (pre : ρ → Prop) (act : Prog S σ α) : Prop :=
  Triple m pre act fun _ r => pre r

theorem steady_pure (a : α) : Steady m pre (pure a : Prog S σ α) := triple_pure fun _ hr => hr

theorem steady_call {lib : Interpreter S σ} {op : S.Op} (hpermits : ∀ r, pre r → m.permits op r)
    (hafter : ∀ reply r, pre r → pre (m.after ⟨op, reply⟩ r)) : Steady m pre (call lib op) :=
  triple_call hpermits fun _ r hr => hafter _ r hr

theorem steady_bind (hact : Steady m pre act) (hnext : ∀ a, Steady m pre (next a)) :
    Steady m pre (act >>= next) :=
  triple_bind hact hnext

end Triples

end Flow.Monitors
