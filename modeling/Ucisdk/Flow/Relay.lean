import Mathlib.Data.List.Basic
import Mathlib.Data.List.Infix

/-!
# Relays

Stages take turns on a value: each stage is handed what the stage before it
passed on, and a stage that passes nothing on ends the relay. `hand` says
what is known of a stage, the value it was handed and the record it left;
`out` reads the passed value off the record.
-/

set_option autoImplicit false

namespace Flow.Relay

variable {S V R : Type*}

inductive Relayed (hand : S → V → R → Prop) (out : R → Option V) :
    V → List S → List R → Option V → Prop
  | finish (v : V) : Relayed hand out v [] [] (some v)
  | halt {v : V} {s : S} {ss : List S} {r : R} (h : hand s v r) (hr : out r = none) :
      Relayed hand out v (s :: ss) [r] none
  | pass {v w : V} {s : S} {ss : List S} {r : R} {rs : List R} {final : Option V}
      (h : hand s v r) (hr : out r = some w) (next : Relayed hand out w ss rs final) :
      Relayed hand out v (s :: ss) (r :: rs) final

variable {hand hand' : S → V → R → Prop} {out : R → Option V} {v : V} {ss : List S} {rs : List R}
  {final final' : Option V}

theorem relay_mono (h : Relayed hand out v ss rs final)
    (hh : ∀ s v r, r ∈ rs → hand s v r → hand' s v r) : Relayed hand' out v ss rs final := by
  induction h with
  | finish v => exact .finish v
  | halt h hr => exact .halt (hh _ _ _ (by simp) h) hr
  | pass h hr _ ih =>
    apply Relayed.pass (hh _ _ _ (by simp) h) hr
    apply ih
    intro s v r hm
    exact hh s v r (by simp [hm])

/-- Two accounts of one relay agree on the values it hands over. -/
theorem relay_and (h : Relayed hand out v ss rs final) (h' : Relayed hand' out v ss rs final') :
    Relayed (fun s v r => hand s v r ∧ hand' s v r) out v ss rs final := by
  induction h with
  | finish v => exact .finish v
  | halt h hr =>
    cases h' with
    | halt h' _ => exact .halt ⟨h, h'⟩ hr
    | pass _ hr' _ => simp [hr] at hr'
  | pass h hr _ ih =>
    cases h' with
    | halt _ hr' => simp [hr] at hr'
    | pass h' hr' next' =>
      rw [hr, Option.some.injEq] at hr'
      subst hr'
      exact .pass ⟨h, h'⟩ hr (ih next')

theorem relay_mem (h : Relayed hand out v ss rs final) : ∀ r ∈ rs, ∃ s ∈ ss, ∃ v, hand s v r := by
  induction h with
  | finish v => simp
  | halt h hr =>
    intro r hm
    rw [List.mem_singleton] at hm
    subst hm
    exact ⟨_, by simp, _, h⟩
  | pass h hr _ ih =>
    intro r hm
    rcases List.mem_cons.mp hm with rfl | hm
    · exact ⟨_, by simp, _, h⟩
    · obtain ⟨s, hs, hv⟩ := ih r hm
      exact ⟨s, by simp [hs], hv⟩

theorem relay_complete (name : R → S) (hname : ∀ s v r, hand s v r → name r = s)
    (h : Relayed hand out v ss rs final) (hf : final ≠ none) :
    rs.map name = ss ∧ ∀ r ∈ rs, out r ≠ none := by
  induction h with
  | finish v => simp
  | halt h hr => exact absurd rfl hf
  | pass h hr _ ih =>
    obtain ⟨hm, ho⟩ := ih hf
    constructor
    · rw [List.map_cons, hname _ _ _ h, hm]
    · intro r hr'
      rcases List.mem_cons.mp hr' with rfl | hr'
      · simp [hr]
      · exact ho r hr'

end Flow.Relay
