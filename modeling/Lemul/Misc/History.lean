import Lemul.Misc.Pool

/-!
# Histories

`System.noting` keeps notes beside the state: what the threads did so far, as far as a
statement about runs needs it. No operation reads the notes, so they restrict nothing.
-/

namespace Lemul

/-- A state with notes about how it came about. -/
structure Noted (S H : Type) where
  state : S
  notes : H

namespace System

variable {Op : Type} {Res : Op → Type} {S H Env Req α : Type}

/-- The system `M` with notes, taken by `note` at every operation. -/
def noting (M : System Op Res S Env Req α)
    (note : Nat → (o : Op) → Res o → S → H → H) : System Op Res (Noted S H) Env Req α where
  exec tid o r x := (M.exec tid o r x.state).map fun s => ⟨s, note tid o r x.state x.notes⟩
  env e x := (M.env e x.state).map fun s => ⟨s, x.notes⟩
  spawn q x := M.spawn q x.state

section Noting

variable {M : System Op Res S Env Req α} {note : Nat → (o : Op) → Res o → S → H → H}

theorem noting_exec {tid : Nat} {o : Op} {r : Res o} {x x' : Noted S H} :
    (M.noting note).exec tid o r x = some x' ↔
      M.exec tid o r x.state = some x'.state ∧ x'.notes = note tid o r x.state x.notes := by
  refine Option.map_eq_some_iff.trans ⟨?_, ?_⟩
  · rintro ⟨s, hexec, rfl⟩
    exact ⟨hexec, rfl⟩
  · rintro ⟨hexec, hnotes⟩
    exact ⟨x'.state, hexec, by rw [← hnotes]⟩

theorem noting_env {e : Env} {x x' : Noted S H} :
    (M.noting note).env e x = some x' ↔ M.env e x.state = some x'.state ∧ x'.notes = x.notes := by
  refine Option.map_eq_some_iff.trans ⟨?_, ?_⟩
  · rintro ⟨s, henv, rfl⟩
    exact ⟨henv, rfl⟩
  · rintro ⟨henv, hnotes⟩
    exact ⟨x'.state, henv, by rw [← hnotes]⟩

/-- The rule for performing one operation of a system with notes. -/
theorem Outline.safe_noted {cond : Noted S H → Label Op Res Env Req → Prop}
    {O : Outline (M.noting note) cond} {β : Type} {tid : Nat} {o : Op} {f : Res o → Prog Op Res β}
    {Q : β → Noted S H → Prop} {x : Noted S H}
    (h : ∀ x₁, O.rely tid x x₁ → O.inv x₁ → O.pre tid o x₁ ∧
      ∀ r x₂, M.exec tid o r x₁.state = some x₂.state →
        x₂.notes = note tid o r x₁.state x₁.notes → cond x₁ (.thread tid o r) → O.inv x₂ →
        O.Safe tid (f r) Q x₂) : O.Safe tid (Prog.perform o >>= f) Q x := by
  refine Outline.safe_perform_bind fun x₁ hrely hinv => ?_
  obtain ⟨hpre, hnext⟩ := h x₁ hrely hinv
  refine ⟨hpre, fun r x₂ hexec => ?_⟩
  obtain ⟨hstate, hnotes⟩ := noting_exec.mp hexec
  exact hnext r x₂ hstate hnotes

end Noting

end System

end Lemul
