import Lemul.MgmtApi.Calls

/-!
# Handlers that read or insert a row

What the handlers of workspaces have in common, for every proof outline of the Management
API: a row is resolved by its name, or inserted (`workspacecrud.go:83-178`), and the thread
goes on from that copy.
-/

namespace Lemul.MgmtApi

open Store Lemul.System

section Admission

variable {S : Type} {M : System Op Res S EnvMove Req Outcome}
  {cond : S → Label Op Res EnvMove Req → Prop} {O : Outline M cond} {tid : Nat} {sc : Scope}
  {N : GoString → Prop} {K : S → Prop} {C : Workspace → S → Prop} {x : S}

/-- A thread of which `K` holds may read a row, or insert one under a name of which `N` holds, and
then `C` holds of its copy. -/
structure Admission (O : Outline M cond) (tid : Nat) (sc : Scope) (N : GoString → Prop)
    (K : S → Prop) (C : Workspace → S → Prop) : Prop where
  rely : ∀ {x x'}, O.rely tid x x' → K x → K x'
  reads : ∀ {name x}, K x → O.pre tid (.getWorkspaceByName sc.tenantID name) x
  creates : ∀ {name owner access x}, N name → K x →
    O.pre tid (.createWorkspace sc.tenantID name owner access) x
  own : ∀ {o r x x'}, o.reads = true → M.exec tid o r x = some x' → K x → K x'
  found : ∀ {name ws x x'}, O.inv x →
    M.exec tid (.getWorkspaceByName sc.tenantID name) (.ok ws) x = some x' → K x → C ws x'
  created : ∀ {name owner access ws x x'},
    M.exec tid (.createWorkspace sc.tenantID name owner access) (.ok ws) x = some x' →
    K x → C ws x'

variable {cfg : Config} {name : GoString} {access : AccessScope} {generate : Nat → GoString}
  {Q : Outcome → S → Prop}

/-- An insert: the thread works from the new row, or goes on as it was. -/
theorem createWorkspace_admitted {β : Type} {owner : GoString}
    {f : Except StoreError Workspace → Api β} {Q : β → S → Prop} (hA : Admission O tid sc N K C)
    (hname : N name) (h : K x) (hok : ∀ ws x', C ws x' → O.Safe tid (f (.ok ws)) Q x')
    (herr : ∀ e x', K x' → O.Safe tid (f (.error e)) Q x') :
    O.Safe tid (call (.createWorkspace sc.tenantID name owner access) >>= f) Q x := by
  refine Outline.safe_perform_bind fun x₁ hrely _ => ?_
  have h₁ := hA.rely hrely h
  refine ⟨hA.creates hname h₁, fun row x₂ hexec _ _ => ?_⟩
  cases row with
  | error e => exact herr e x₂ (hA.own rfl hexec h₁)
  | ok ws => exact hok ws x₂ (hA.created hexec h₁)

theorem createGenerated_admitted {n : Nat} (hA : Admission O tid sc N K C)
    (hnames : ∀ i < n, N (generate i)) (h : K x) :
    O.Safe tid (createGenerated sc access generate n)
      (fun row x' => match row with | .ok ws => C ws x' | .error _ => K x') x := by
  induction n generalizing x with
  | zero => exact h
  | succ n ih =>
    refine createWorkspace_admitted hA (hnames n n.lt_succ_self) h (fun ws x' h' => h')
      fun e x' h' => ?_
    cases e with
    | uniqueViolation => exact ih (fun i hi => hnames i (Nat.lt_succ_of_lt hi)) h'
    | other e => exact h'

theorem handleCreateWorkspace_admitted {access : GoString} {name : NameField}
    (hA : Admission O tid sc N K C) (hvalid : ∀ n, validWorkspaceName n = none → N n)
    (hgenerate : ∀ i < nameAttempts, N (generate i)) (h : K x)
    (hrefused : ∀ status message x', K x' → Q (.refused status message) x')
    (hplace : ∀ ws x', C ws x' → O.Safe tid (created cfg sc ws) Q x') :
    O.Safe tid (handleCreateWorkspace cfg sc access name generate) Q x := by
  unfold handleCreateWorkspace
  split
  · exact hrefused _ _ x h
  · cases name with
    | absent => exact hrefused _ _ x h
    | null =>
      refine .bind ((createGenerated_admitted hA hgenerate h).mono fun row x' h' => ?_)
      cases row with
      | error e => exact hrefused _ _ x' h'
      | ok ws => exact hplace ws x' h'
    | value n =>
      dsimp only
      split
      · exact hrefused _ _ x h
      · rename_i hname
        refine createWorkspace_admitted hA (hvalid n hname) h hplace fun e x' h' => ?_
        cases e <;> exact hrefused _ _ x' h'

theorem withWorkspace_admitted {k : Workspace → Api Outcome} (hA : Admission O tid sc N K C)
    (h : K x) (hrefused : ∀ status message x', K x' → Q (.refused status message) x')
    (hk : ∀ ws x', C ws x' → O.Safe tid (k ws) Q x') :
    O.Safe tid (withWorkspace sc name k) Q x := by
  refine Outline.safe_perform_bind fun x₁ hrely hinv => ?_
  have h₁ := hA.rely hrely h
  refine ⟨hA.reads h₁, fun row x₂ hexec _ _ => ?_⟩
  cases row with
  | error e =>
    have h₂ := hA.own rfl hexec h₁
    dsimp only
    split <;> exact hrefused _ _ x₂ h₂
  | ok ws => exact hk ws x₂ (hA.found hinv hexec h₁)

end Admission

end Lemul.MgmtApi
