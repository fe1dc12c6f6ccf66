import Lemul.MgmtApi.Footprint

/-!
# A placement, stage by stage

`ensureLocked` (`api.go:304-422`) performs its operations in a fixed order, with a few exits.
`Stage` names the places in between, and `Follows` is the rule for every proof outline of the
Management API: what a thread knows at a stage has to allow the operation that is next and to
give what it knows at the stage after it.
-/

namespace Lemul.MgmtApi

open Store Lemul.System

/-- What a placement does next. A wait carries the reference the dispatch came back with, if
there has been one. -/
inductive Stage where
  | picking
  | waiting (ref : Option GoString)
  | receiving (ref : Option GoString) (ch : Nat)
  | choosing
  | counting (runner : Tunnel)
  | marking (runner : Tunnel) (gen : Nat)
  | sending (runner : Tunnel) (gen : Nat)
  | hearing (sid : Nat)
  | recording (ref : GoString)
  | activating (ref : GoString) (t : Tunnel)
  | failing (ref cause : GoString)
  | ended (got : Except GoString Tunnel)

namespace Stage

/-- After a wait for a tunnel. -/
def waited (ws : Workspace) : Option GoString → Except GoString Tunnel → Stage
  | none, .ok t => .ended (.ok t)
  | none, .error _ => .choosing
  | some ref, .ok t => .activating ref t
  | some ref, .error e =>
      .failing ref ("workspace " ++ ws.name ++ " did not dial in: " ++ e)

/-- After the answer to the dispatch. -/
def heard : Except GoString Reply → Stage
  | .error e => .failing [] ("dispatch: " ++ e)
  | .ok (.error message) => .failing [] ("runner refused: " ++ message)
  | .ok reply => .recording reply.decodeRef

/-- The next operation, and where each answer leads. -/
def next (cfg : Config) (sc : Scope) (ws : Workspace) :
    Stage → Option ((o : Op) × (Res o → Stage))
  | .picking => some ⟨.pickWorkspace (wsKey sc ws), fun
      | some t => .ended (.ok t)
      | none => if mayReconnect ws then .waiting none else .choosing⟩
  | .waiting ref => some ⟨.waitWorkspace (wsKey sc ws), fun
      | .inl t => waited ws ref (.ok t)
      | .inr ch => .receiving ref ch⟩
  | .receiving ref ch => some ⟨.receive (wsKey sc ws) ch, waited ws ref⟩
  | .choosing => some ⟨.pickRunner sc.tenantID, fun
      | none => .failing [] ("no runner connected for organization " ++ sc.orgSlug)
      | some runner => .counting runner⟩
  | .counting runner => some ⟨.nextGeneration sc.tenantID ws.id, fun
      | .error e => .failing [] e
      | .ok gen => .marking runner gen⟩
  | .marking runner gen =>
      some ⟨.setWorkspaceStatus sc.tenantID ws.id .starting [], fun _ => .sending runner gen⟩
  | .sending runner gen => some ⟨.send runner (.startWorkspace (startCommand cfg sc ws gen)), fun
      | .error e => heard (.error e)
      | .ok sid => .hearing sid⟩
  | .hearing sid => some ⟨.recv sid, heard⟩
  | .recording ref =>
      some ⟨.setWorkspaceStatus sc.tenantID ws.id .starting ref, fun _ => .waiting (some ref)⟩
  | .activating ref t =>
      some ⟨.setWorkspaceStatus sc.tenantID ws.id .active ref, fun _ => .ended (.ok t)⟩
  | .failing ref cause => some ⟨.failWorkspacePlacement sc.tenantID ws.id (failureStatus ws ref).1
      (failureStatus ws ref).2 cause, fun _ => .ended (.error cause)⟩
  | .ended _ => none

/-- The reference a placement works with at a stage. -/
def ref : Stage → GoString
  | .waiting ref => ref.getD []
  | .receiving ref _ => ref.getD []
  | .recording ref => ref
  | .activating ref _ => ref
  | .failing ref _ => ref
  | _ => []

end Stage

section Rule

variable {S Env : Type} {M : System Op Res S Env Req Outcome}
  {cond : S → Label Op Res Env Req → Prop} {O : Outline M cond} {cfg : Config}
  {sc : Scope} {ws : Workspace} {tid : Nat} {A : Stage → S → Prop} {x : S}

/-- What thread `tid` knows at each stage carries it through a placement. -/
structure Follows (O : Outline M cond) (cfg : Config) (sc : Scope) (ws : Workspace)
    (tid : Nat) (A : Stage → S → Prop) : Prop where
  answered : ∀ {o r x x'}, M.exec tid o r x = some x' → Answered o r
  step : ∀ {st : Stage} {o f x x₁}, st.next cfg sc ws = some ⟨o, f⟩ → PlacementOp cfg sc ws o →
    A st x → O.rely tid x x₁ → O.inv x₁ → O.pre tid o x₁ ∧
      ∀ r x₂, M.exec tid o r x₁ = some x₂ → cond x₁ (.thread tid o r) → O.inv x₂ → A (f r) x₂

/-- One operation. -/
theorem Follows.perform (hA : Follows O cfg sc ws tid A) {st : Stage} {o : Op} {f : Res o → Stage}
    {β : Type} {k : Res o → Api β} {Q : β → S → Prop} (hnext : st.next cfg sc ws = some ⟨o, f⟩)
    (ho : PlacementOp cfg sc ws o) (h : A st x)
    (hk : ∀ r x₂, Answered o r → A (f r) x₂ → O.Safe tid (k r) Q x₂) :
    O.Safe tid (call o >>= k) Q x := by
  refine Outline.safe_perform_bind fun x₁ hrely hinv => ?_
  obtain ⟨hpre, hstep⟩ := hA.step hnext ho h hrely hinv
  exact ⟨hpre, fun r x₂ hexec hcond hinv₂ =>
    hk r x₂ (hA.answered hexec) (hstep r x₂ hexec hcond hinv₂)⟩

theorem waitWorkspace_follows {ref : Option GoString} (hA : Follows O cfg sc ws tid A)
    (h : A (.waiting ref) x) :
    O.Safe tid (waitWorkspace (wsKey sc ws)) (fun got => A (.waited ws ref got)) x := by
  refine hA.perform rfl rfl h fun got x₂ _ h₂ => ?_
  cases got with
  | inl t => exact h₂
  | inr ch => exact hA.perform (k := .ret) rfl rfl h₂ fun _ _ _ h₄ => h₄

theorem placementFailed_follows {ref cause : GoString} (hA : Follows O cfg sc ws tid A)
    (h : A (.failing ref cause) x) :
    O.Safe tid (placementFailed sc ws ref cause) (fun got => A (.ended got)) x := by
  rw [placementFailed_eq]
  exact hA.perform rfl ⟨rfl, rfl⟩ h fun _ _ _ h₂ => h₂

theorem awaitTask_follows {ref : GoString} (hA : Follows O cfg sc ws tid A)
    (h : A (.recording ref) x) :
    O.Safe tid (awaitTask sc ws ref) (fun got => A (.ended got)) x := by
  refine hA.perform rfl ⟨rfl, rfl⟩ h fun _ x₂ _ h₂ => ?_
  refine .bind ((waitWorkspace_follows hA h₂).mono fun got x₃ h₃ => ?_)
  cases got with
  | error e => exact placementFailed_follows hA h₃
  | ok t => exact hA.perform rfl ⟨rfl, rfl⟩ h₃ fun _ _ _ h₄ => h₄

theorem dispatch_follows {runner : Tunnel} {gen : Nat} (hA : Follows O cfg sc ws tid A)
    (hgen : gen < 2 ^ 63) (h : A (.sending runner gen) x) :
    O.Safe tid (dispatch cfg sc ws runner gen) (fun got => A (.ended got)) x := by
  refine hA.perform rfl ⟨gen, hgen, rfl⟩ h fun sent x₂ _ h₂ => ?_
  cases sent with
  | error e => exact placementFailed_follows hA h₂
  | ok sid =>
    refine hA.perform rfl trivial h₂ fun reply x₄ _ h₄ => ?_
    cases reply with
    | error e => exact placementFailed_follows hA h₄
    | ok reply =>
      cases reply with
      | error message => exact placementFailed_follows hA h₄
      | _ => exact awaitTask_follows hA h₄

theorem placeTask_follows (hA : Follows O cfg sc ws tid A) (h : A .choosing x) :
    O.Safe tid (placeTask cfg sc ws) (fun got => A (.ended got)) x := by
  refine hA.perform rfl rfl h fun runner x₂ _ h₂ => ?_
  cases runner with
  | none => exact placementFailed_follows hA h₂
  | some runner =>
    refine hA.perform rfl ⟨rfl, rfl⟩ h₂ fun gen x₄ hgen h₄ => ?_
    cases gen with
    | error e => exact placementFailed_follows hA h₄
    | ok gen =>
      exact hA.perform rfl ⟨rfl, rfl⟩ h₄ fun _ x₆ _ h₆ => dispatch_follows hA hgen h₆

/-- The whole of it. -/
theorem ensureLocked_follows (hA : Follows O cfg sc ws tid A) (h : A .picking x) :
    O.Safe tid (ensureLocked cfg sc ws) (fun got => A (.ended got)) x := by
  refine hA.perform rfl rfl h fun picked x₂ _ h₂ => ?_
  cases picked with
  | some t => exact h₂
  | none =>
    dsimp only at h₂ ⊢
    split
    · rename_i hmay
      rw [if_pos hmay] at h₂
      refine .bind ((waitWorkspace_follows hA h₂).mono fun got x₃ h₃ => ?_)
      cases got with
      | ok t => exact h₃
      | error e => exact placeTask_follows hA h₃
    · rename_i hmay
      rw [if_neg hmay] at h₂
      exact placeTask_follows hA h₂

end Rule

end Lemul.MgmtApi
