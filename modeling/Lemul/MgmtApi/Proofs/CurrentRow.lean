import Lemul.MgmtApi.Calls
import Lemul.MgmtApi.PlacementRule

/-!
# Placements and the current row

The lock of `ensureWorkspace` lets the calls on a workspace through one at a time, but each
goes on deciding on the record its caller read before it waited (`api.go:289-423`). A call
that read the row before another one dispatched a task finds "no task" on its copy when it
gets the lock: it does not wait out the grace period for the task that is on its way, and if
it fails it writes the row back to what it was (`placement.go:107-114`).

Whenever the copy has the status and the reference the row has when the lock is taken, a
call acts on the current row.
-/

namespace Lemul.MgmtApi

open Store Calls Workspaces Function Lemul.System Option

/-- Concurrent `ensureWorkspace` calls, and the tasks that dial in for them. -/
def ensureRequest : Req → Bool
  | .ensure _ _ => true
  | .dial _ _ _ _ => true
  | _ => false

/-- Every interleaving of such requests. -/
def placementsOnly : CallState → Label Op Res CallMove Req → Prop
  | _, .spawn q => ensureRequest q = true
  | _, _ => True

instance (x : CallState) (l : Label Op Res CallMove Req) : Decidable (placementsOnly x l) := by
  induction l using Label.casesOn <;> dsimp only [placementsOnly] <;> infer_instance

/-- The interleavings in which a call takes the lock only while its copy is current. -/
def copiesCurrent : CallState → Label Op Res CallMove Req → Prop
  | _, .spawn q => ensureRequest q = true
  | x, .thread tid (.lock _) _ => CopyCurrent tid x
  | _, _ => True

instance (x : CallState) (l : Label Op Res CallMove Req) : Decidable (copiesCurrent x l) := by
  induction l using Label.casesOn with
  | thread tid o r =>
    induction o using Op.casesOn <;> dsimp only [copiesCurrent] <;> infer_instance
  | _ => dsimp only [copiesCurrent]; infer_instance

/-- The call has waited out the grace period for a tunnel. -/
def WaitedOut (grace tid : Nat) (x : CallState) : Prop :=
  ∃ c d, x.notes tid = some c ∧ c.waited = some d ∧ grace ≤ d

/-- The workspace whose next generation an operation has taken. -/
def Op.counted : (o : Op) → Res o → Option GoString
  | .nextGeneration _ id, .ok _ => some id
  | _, _ => none

/-- A failure before any dispatch writes back what other calls recorded last. -/
def WritesBack (tid : Nat) (o : Op) (x : CallState) : Prop :=
  ∀ tenantID id status ref cause, o = .failWorkspacePlacement tenantID id status ref cause →
    ∃ c, x.notes tid = some c ∧ (c.ref = [] → (status, ref) = failureStatus c.current [])

/-- What acting on the current row means for an operation of a call. -/
structure OnCurrentRow (grace tid : Nat) (o : Op) (r : Res o) (x : CallState) : Prop where
  writesBack : WritesBack tid o x
  /-- A generation is taken beside a task that is recorded as starting only after that task has
  been waited for as long as the grace period. -/
  waits : ∀ id, o.counted r = some id →
    ∀ w ∈ x.state.cell.rows, w.id = id → w.status = .starting → derefOr w.taskRef ≠ [] →
      WaitedOut grace tid x

/-! ## The outline -/

/-- Every copy is one of a row that is still there, under the same name. -/
def CopiesKnown (x : CallState) : Prop :=
  ∀ tid c, x.notes tid = some c → ∃ w ∈ x.state.cell.rows,
    w.id = c.copy.id ∧ w.tenantID = c.copy.tenantID ∧ w.name = c.copy.name

/-- The row says what other calls recorded last. -/
def Agrees (c : Call) (s : World) : Prop :=
  ∀ w ∈ s.cell.rows, w.id = c.copy.id → w.status = c.latest.1 ∧ w.taskRef = c.latest.2

/-- The call has waited out the grace period, or its context is done. -/
def WaitedOrDone (grace tid : Nat) (x : CallState) : Prop :=
  WaitedOut grace tid x ∨ x.done tid = true

structure RowPre (grace tid : Nat) (o : Op) (x : CallState) : Prop where
  creates : o.creates = false
  renames : o.renames = false
  keeps : ∀ tenantID id, o ≠ .deleteWorkspace tenantID id
  tenant : ∀ tenantID id, o.target = some (tenantID, id) →
    ∀ w ∈ x.state.cell.rows, w.id = id → w.tenantID = tenantID
  orderly : WritesOrderly tid o x.state
  writesBack : WritesBack tid o x
  waits : ∀ tenantID id, o = .nextGeneration tenantID id →
    ∀ w ∈ x.state.cell.rows, w.id = id → w.status = .starting → derefOr w.taskRef ≠ [] →
      WaitedOrDone grace tid x

/-- What a thread relies on about its own call. -/
def CallRely (tid : Nat) (x x' : CallState) : Prop :=
  ∀ c, x.notes tid = some c → ∃ latest, x'.notes tid = some { c with latest := latest } ∧
    (Agrees c x.state → Agrees { c with latest := latest } x'.state) ∧
    (x.state.held (lockOf c.copy) = some tid → latest = c.latest)

structure CurrentRely (tid : Nat) (x x' : CallState) : Prop where
  rows : RowRely tid x.state x'.state
  call : CallRely tid x x'
  done : x.done tid = true → x'.done tid = true

theorem CurrentRely.refl (tid : Nat) (x : CallState) : CurrentRely tid x x :=
  ⟨.refl tid x.state, fun c hc => ⟨c.latest, hc, fun h => h, fun _ => rfl⟩, id⟩

theorem CurrentRely.trans {tid : Nat} {x y z : CallState} (h₁ : CurrentRely tid x y)
    (h₂ : CurrentRely tid y z) : CurrentRely tid x z := by
  refine ⟨h₁.rows.trans h₂.rows, fun c hc => ?_, fun h => h₂.done (h₁.done h)⟩
  obtain ⟨l₁, hc₁, hagrees₁, hheld₁⟩ := h₁.call c hc
  obtain ⟨l₂, hc₂, hagrees₂, hheld₂⟩ := h₂.call _ hc₁
  refine ⟨l₂, hc₂, fun h => hagrees₂ (hagrees₁ h), fun h => ?_⟩
  exact (hheld₂ ((h₁.rows.held _).mpr h)).trans (hheld₁ h)

section Step

variable {grace tid other : Nat} {o : Op} {r : Res o} {x x' : CallState}

theorem CopiesKnown.op (hinv : CopiesKnown x) (hpre : RowPre grace tid o x)
    (hop : Performed grace tid o r x x') : CopiesKnown x' := by
  intro i c hc
  rw [hop.notes] at hc
  rcases note_copy hop.exec hc with ⟨c₀, hc₀, hsame⟩ | ⟨-, -, hrow⟩
  · obtain ⟨w, hw, hid, htenant, hname⟩ := hinv i c₀ hc₀
    obtain ⟨w', hw', hfrom⟩ := exec_row_kept hop.exec hpre.keeps hw
    refine ⟨w', hw', ?_, ?_, ?_⟩
    · rw [hfrom.id, hid, hsame.id]
    · rw [hfrom.tenantID, htenant, hsame.tenantID]
    · rw [hfrom.name hpre.renames, hname, hsame.name]
  · exact ⟨c.copy, hrow, rfl, rfl, rfl⟩

/-- What a call knows of the row it still knows after an operation of another thread. -/
theorem Agrees.overtaken {c : Call} (hagrees : Agrees c x.state) (hpre : RowPre grace tid o x)
    (h : exec tid o r x.state = some x'.state) : Agrees (c.overtaken (o.verdict r)) x'.state := by
  intro w' hw' hid
  rw [Call.overtaken_copy] at hid
  cases hv : o.verdict r with
  | none =>
    obtain ⟨w, hw, hwid, hsame⟩ := exec_no_verdict h hv hpre.creates hw'
    rw [hsame.status, hsame.taskRef]
    exact hagrees w hw (hwid.trans hid)
  | some v =>
    rw [exec_verdict h hv] at hw'
    obtain ⟨w, hw, rfl⟩ := List.mem_map.mp hw'
    have htenant := hpre.tenant _ _ (Op.target_of_verdict hv) w hw
    by_cases hrow : w.isRow v.tenantID v.id = true
    · rw [rewrite_of_isRow hrow] at hid ⊢
      have hvid : v.id = c.copy.id := (Workspace.isRow_iff.mp hrow).1.symm.trans hid
      rw [Call.overtaken, if_pos hvid]
      exact ⟨rfl, rfl⟩
    · rw [rewrite, if_neg hrow] at hid ⊢
      have hvid : v.id ≠ c.copy.id := fun hvid =>
        hrow (Workspace.isRow_iff.mpr ⟨hid.trans hvid.symm, htenant (hid.trans hvid.symm)⟩)
      rw [Call.overtaken, if_neg hvid]
      exact hagrees w hw hid

/-- Nothing is recorded on the row of a call that holds its lock. -/
theorem overtaken_of_held {c : Call} (hinv : CopiesKnown x) (hpre : RowPre grace tid o x)
    (hne : other ≠ tid) (hc : x.notes other = some c)
    (hheld : x.state.held (lockOf c.copy) = some other) : c.overtaken (o.verdict r) = c := by
  cases hv : o.verdict r with
  | none => rfl
  | some v =>
    refine if_neg fun hvid => hne ?_
    obtain ⟨w, hw, hid, htenant, hname⟩ := hinv other c hc
    have hwid : w.id = v.id := hid.trans hvid.symm
    have htarget := Op.target_of_verdict hv
    refine hpre.orderly w hw ⟨_, _, htarget, Workspace.isRow_iff.mpr
      ⟨hwid, hpre.tenant _ _ htarget w hw hwid⟩⟩ other ?_
    rw [lockOf, htenant, hname]
    exact hheld

theorem CurrentRely.of_op (hinv : CopiesKnown x) (hpre : RowPre grace tid o x) (hne : other ≠ tid)
    (hop : Performed grace tid o r x x') : CurrentRely other x x' := by
  refine ⟨.of_op hpre.orderly hne hop.exec, fun c hc => ?_, fun h => by rwa [hop.done]⟩
  refine ⟨(c.overtaken (o.verdict r)).latest, ?_, ?_, ?_⟩
  · rw [hop.notes, note_other hne, hc, ← Call.overtaken_eq]
    rfl
  · intro hagrees
    rw [← Call.overtaken_eq]
    exact hagrees.overtaken hpre hop.exec
  · intro hheld
    rw [overtaken_of_held hinv hpre hne hc hheld]

/-- The environment moves, time passes, or a context is done. -/
theorem CurrentRely.of_env {cfg : Config} {option : Int} {e : CallMove}
    (h : (calls cfg option).env e x = some x') : CurrentRely tid x x' := by
  cases e with
  | world e =>
    obtain ⟨s, henv, rfl⟩ := map_eq_some_iff.mp h
    refine ⟨.of_env henv, fun c hc => ⟨c.latest, hc, fun hagrees => ?_, fun _ => rfl⟩, id⟩
    unfold Agrees
    rw [(envStep_untouched henv).cell]
    exact hagrees
  | pass ns =>
    cases h
    exact ⟨.refl tid _, fun c hc => ⟨c.latest, hc, id, fun _ => rfl⟩, id⟩
  | done other =>
    cases h
    refine ⟨.refl tid _, fun c hc => ⟨c.latest, hc, id, fun _ => rfl⟩, fun hdone => ?_⟩
    by_cases heq : tid = other
    · rw [heq]
      exact update_self _ _ _
    · exact (update_of_ne heq _ _).trans hdone

theorem CopiesKnown.env {cfg : Config} {option : Int} {e : CallMove} (hinv : CopiesKnown x)
    (h : (calls cfg option).env e x = some x') : CopiesKnown x' := by
  cases e with
  | world e =>
    obtain ⟨s, henv, rfl⟩ := map_eq_some_iff.mp h
    unfold CopiesKnown
    rw [(envStep_untouched henv).cell]
    exact hinv
  | pass | done =>
    cases h
    exact hinv

end Step

def currentOutline (cfg : Config) (option : Int) :
    Outline (calls cfg option) copiesCurrent where
  inv := CopiesKnown
  rely := CurrentRely
  pre := RowPre (reconnectGrace option)
  post _ _ _ := True
  rely_refl := CurrentRely.refl
  rely_trans _ _ _ _ := CurrentRely.trans
  op_ok := by
    intro tid o r x x' hinv hpre _ h
    have hop := Performed.of_exec h
    exact ⟨hinv.op hpre hop, fun _ hne => .of_op hinv hpre hne hop⟩
  env_ok := by
    intro e x x' hinv _ h
    exact ⟨hinv.env h, fun _ => .of_env h⟩

/-! ## A call under its lock -/

section Handlers

variable {cfg : Config} {option : Int} {sc : Scope} {ws : Workspace} {grace tid : Nat} {o : Op}
  {r : Res o} {x x' : CallState}

/-- How a call's next operation is proved safe. -/
theorem current_call {β : Type} {o : Op} {f : Res o → Api β} {Q : β → CallState → Prop}
    (h : ∀ x₁, CurrentRely tid x x₁ → CopiesKnown x₁ → RowPre (reconnectGrace option) tid o x₁ ∧
      ∀ r x₂, Performed (reconnectGrace option) tid o r x₁ x₂ →
        copiesCurrent x₁ (.thread tid o r) → (currentOutline cfg option).Safe tid (f r) Q x₂) :
    (currentOutline cfg option).Safe tid (call o >>= f) Q x := by
  refine Outline.safe_perform_bind fun x₁ hrely hinv => ?_
  obtain ⟨hpre, hnext⟩ := h x₁ hrely hinv
  exact ⟨hpre, fun r x₂ hexec hcond _ => hnext r x₂ (.of_exec hexec) hcond⟩

/-- An operation that names no row, inserts none and takes no generation. -/
theorem rowPre_of_target (htarget : o.target = none) (hcreates : o.creates = false) :
    RowPre grace tid o x where
  creates := hcreates
  renames := by cases o <;> first | rfl | cases htarget
  keeps := by
    rintro tenantID id rfl
    cases htarget
  tenant := by
    intro tenantID id hsome
    cases htarget.symm.trans hsome
  orderly := by
    rintro w hw ⟨tenantID, id, hsome, -⟩
    cases htarget.symm.trans hsome
  writesBack := by
    rintro tenantID id status ref cause rfl
    cases htarget
  waits := by
    rintro tenantID id rfl
    cases htarget

/-- The call works from `ws` and holds the lock of its row; nothing was recorded on the row
before it got the lock that is not on its copy. -/
structure Working (tid : Nat) (sc : Scope) (ws : Workspace) (ref : GoString) (x : CallState) :
    Prop where
  row : ∃ w, HoldsRow tid w x.state ∧ w.id = ws.id ∧ w.tenantID = sc.tenantID ∧ w.name = ws.name
  tenant : ws.tenantID = sc.tenantID
  call : ∃ c, x.notes tid = some c ∧ c.copy = ws ∧ c.latest = (ws.status, ws.taskRef) ∧
    c.ref = ref

variable {ref : GoString}

theorem Working.held (h : Working tid sc ws ref x) :
    x.state.held (lockOf ws) = some tid := by
  obtain ⟨⟨w, hholds, -, htenant, hname⟩, hws, -⟩ := h
  have hlock := hholds.held
  rwa [lockOf, htenant, hname, ← hws] at hlock

theorem Working.of_rely (h : Working tid sc ws ref x)
    (hrely : CurrentRely tid x x') : Working tid sc ws ref x' := by
  have hlock := h.held
  obtain ⟨⟨w, hholds, hrow⟩, hws, c, hc, rfl, hlatest, href⟩ := h
  obtain ⟨latest, hc', -, hheld⟩ := hrely.call c hc
  exact ⟨⟨w, hholds.of_rely hrely.rows, hrow⟩, hws, _, hc', rfl, (hheld hlock).trans hlatest, href⟩

/-- The notes on a call after an operation of its own. -/
theorem Working.notes_own (h : Working tid sc ws ref x) (hreads : o.reads = false)
    (hnotes : x'.notes = Calls.note tid x.clock o r x.state x.notes) :
    ∃ c, x.notes tid = some c ∧ x'.notes tid = some (c.after true x.clock o r) ∧
      c.copy = ws ∧ c.latest = (ws.status, ws.taskRef) ∧ c.ref = ref := by
  obtain ⟨c, hc, hcopy, hrest⟩ := h.call
  refine ⟨c, hc, ?_, hcopy, hrest⟩
  rw [hnotes, note_self, noteOwn_none (Op.handed_of_reads hreads), hc, map_some,
    hcopy, h.held]
  simp

/-- The operations of a placement leave a call at work. -/
theorem Working.own (h : Working tid sc ws ref x) (ho : PlacementOp cfg sc ws o)
    (hop : Performed grace tid o r x x') :
    ∃ c : Call, c.ref = ref ∧ Working tid sc ws (c.after true x.clock o r).ref x' := by
  obtain ⟨c, -, hafter, hcopy, hlatest, href⟩ := h.notes_own ho.reads hop.notes
  obtain ⟨⟨w, hholds, hid, htenant, hname⟩, hws, -⟩ := h
  obtain ⟨w', hholds', hfrom⟩ :=
    hholds.own_kept hop.exec (fun _ _ heq => by rw [heq] at ho; exact ho) ho.renames ho.locks
  refine ⟨c, href, ⟨w', hholds', hfrom.id.trans hid, hfrom.tenantID.trans htenant,
    (hfrom.name ho.renames).trans hname⟩, hws, _, hafter, ?_, ?_, rfl⟩
  · rw [(Call.after_locked c).1, hcopy]
  · rw [(Call.after_locked c).2, hlatest]

/-- All but the answer to its command leave its reference as it was. -/
theorem Working.step (h : Working tid sc ws ref x) (ho : PlacementOp cfg sc ws o)
    (hrecv : ∀ sid, o ≠ .recv sid) (hop : Performed grace tid o r x x') :
    Working tid sc ws ref x' := by
  obtain ⟨c, href, hown⟩ := h.own ho hop
  rwa [Call.after_ref hrecv, href] at hown

theorem Working.rowPre (h : Working tid sc ws ref x)
    (htarget : o.target = some (sc.tenantID, ws.id)) (hcreates : o.creates = false)
    (hrenames : o.renames = false) (hkeeps : ∀ tenantID id, o ≠ .deleteWorkspace tenantID id)
    (hback : WritesBack tid o x)
    (hwaits : ∀ tenantID id, o = .nextGeneration tenantID id →
      ∀ w ∈ x.state.cell.rows, w.id = id → w.status = .starting → derefOr w.taskRef ≠ [] →
        WaitedOrDone grace tid x) : RowPre grace tid o x := by
  obtain ⟨w, hholds, hid, htenant, -⟩ := h.row
  refine ⟨hcreates, hrenames, hkeeps, ?_, ?_, hback, hwaits⟩
  · intro tenantID id hsome v hv hvid
    cases htarget.symm.trans hsome
    rw [eq_of_id hv hholds.row (hvid.trans hid.symm)]
    exact htenant
  · refine hholds.orderly fun tenantID id hsome => ?_
    cases htarget.symm.trans hsome
    exact hid.symm

variable {status : WorkspaceStatus} {runner : Tunnel}

theorem Working.setWorkspaceStatus {ref' : GoString} (h : Working tid sc ws ref x) :
    RowPre grace tid (.setWorkspaceStatus sc.tenantID ws.id status ref') x :=
  h.rowPre rfl rfl rfl (fun _ _ => by simp) nofun nofun

/-- The failure of a placement, with the reference the call was given. -/
theorem Working.failWorkspacePlacement {cause : GoString} (h : Working tid sc ws ref x) :
    RowPre grace tid (.failWorkspacePlacement sc.tenantID ws.id (failureStatus ws ref).1
      (failureStatus ws ref).2 cause) x := by
  refine h.rowPre rfl rfl rfl (fun _ _ => by simp) ?_ nofun
  intro tenantID id status ref' cause' heq
  injection heq with _ _ hstatus href' _
  obtain ⟨-, -, c, hc, rfl, hlatest, href⟩ := h
  refine ⟨c, hc, fun hnone => ?_⟩
  rw [← hstatus, ← href', Call.current, hlatest, ← href, hnone]

/-- The call has not written to the row yet, which says what its copy says. -/
structure Entered (tid : Nat) (sc : Scope) (ws : Workspace) (x : CallState) : Prop
    extends Working tid sc ws [] x where
  current : ∀ w ∈ x.state.cell.rows, w.id = ws.id → w.status = ws.status ∧ w.taskRef = ws.taskRef

theorem Entered.of_rely (h : Entered tid sc ws x) (hrely : CurrentRely tid x x') :
    Entered tid sc ws x' := by
  refine ⟨h.toWorking.of_rely hrely, fun w' hw' hid' => ?_⟩
  obtain ⟨w, hholds, hid, -⟩ := h.row
  have hw := (hholds.of_rely hrely.rows).row
  rw [eq_of_id hw' hw (hid'.trans hid.symm)]
  exact h.current w hholds.row hid

theorem Entered.own (h : Entered tid sc ws x) (ho : PlacementOp cfg sc ws o)
    (hwrites : o.writes = false) (hrecv : ∀ sid, o ≠ .recv sid)
    (hop : Performed grace tid o r x x') : Entered tid sc ws x' := by
  refine ⟨h.toWorking.step ho hrecv hop, ?_⟩
  rw [hop.frame.cell hwrites]
  exact h.current

theorem WaitedOrDone.of_rely (h : WaitedOrDone grace tid x) (hrely : CurrentRely tid x x') :
    WaitedOrDone grace tid x' := by
  rcases h with ⟨c, d, hc, hwaited, hd⟩ | hdone
  · obtain ⟨latest, hc', -⟩ := hrely.call c hc
    exact .inl ⟨_, d, hc', hwaited, hd⟩
  · exact .inr (hrely.done hdone)

/-- A wait that has ended without a tunnel was long enough, or the context is done. -/
theorem Performed.waited {k : WsKey} {ch : Nat} {e : GoString}
    (hworking : Working tid sc ws ref x)
    (hop : Performed grace tid (.receive k ch) (.error e) x x') : WaitedOrDone grace tid x' := by
  obtain ⟨c, hc, hafter, -⟩ := hworking.notes_own rfl hop.notes
  rcases Bool.or_eq_true_iff.mp hop.inTime with hdone | hexpired
  · exact .inr (by rwa [hop.done])
  · rw [hc, any_some, Call.expired, Bool.and_eq_true] at hexpired
    cases hbegan : c.began with
    | none => simp [hbegan] at hexpired
    | some began =>
      refine .inl ⟨_, x.clock - began, hafter, by simp [Call.after, hbegan], ?_⟩
      have hlong : began + grace ≤ x.clock := by simpa [hbegan] using hexpired.2
      omega

/-- Looking for a runner changes nothing about that. -/
theorem WaitedOrDone.pickRunner {tenantID : GoString} {t : Option Tunnel}
    (h : WaitedOrDone grace tid x) (hworking : Working tid sc ws ref x)
    (hop : Performed grace tid (.pickRunner tenantID) t x x') : WaitedOrDone grace tid x' := by
  obtain ⟨c, hc, hafter, -⟩ := hworking.notes_own rfl hop.notes
  rcases h with ⟨c₁, d, hc₁, hwaited, hd⟩ | hdone
  · cases hc.symm.trans hc₁
    exact .inl ⟨c, d, hafter, hwaited, hd⟩
  · exact .inr (by rwa [hop.done])

/-- The row is on the copy, so a call that takes a generation beside a task that is recorded as
starting has been through the wait. -/
theorem Entered.nextGeneration (h : Entered tid sc ws x)
    (hwaited : mayReconnect ws = true → WaitedOrDone grace tid x) :
    RowPre grace tid (.nextGeneration sc.tenantID ws.id) x := by
  refine h.toWorking.rowPre rfl rfl rfl (fun _ _ => by simp) nofun ?_
  rintro tenantID id ⟨⟩ w hw hid hstatus href
  obtain ⟨hsame, hsameRef⟩ := h.current w hw hid
  refine hwaited ?_
  rw [mayReconnect, ← hsame, ← hsameRef, hstatus]
  simpa using href

/-- The answer to its command is the reference the call goes on with. -/
theorem Working.heard {sid : Nat} {got : Except GoString Reply} (h : Working tid sc ws [] x)
    (ho : PlacementOp cfg sc ws (.recv sid)) (hop : Performed grace tid (.recv sid) got x x') :
    Working tid sc ws (Stage.heard got).ref x' := by
  obtain ⟨c, href, hown⟩ := h.own ho hop
  rcases got with e | reply
  · have hnone : (c.after true x.clock (.recv sid) (.error e)).ref = [] := href
    rw [hnone] at hown
    exact hown
  · cases reply <;> exact hown

/-- What the call knows at each stage: it has entered, has been through the wait if there is one,
and works with the reference it was given. -/
def CurrentAt (grace tid : Nat) (sc : Scope) (ws : Workspace) : Stage → CallState → Prop
  | .picking, x => Entered tid sc ws x
  | .waiting none, x => Entered tid sc ws x
  | .receiving none _, x => Entered tid sc ws x
  | .choosing, x => Entered tid sc ws x ∧ (mayReconnect ws = true → WaitedOrDone grace tid x)
  | .counting _, x => Entered tid sc ws x ∧ (mayReconnect ws = true → WaitedOrDone grace tid x)
  | .ended _, _ => True
  | st, x => Working tid sc ws st.ref x

theorem ensureLocked_current :
    Follows (currentOutline cfg option) cfg sc ws tid
      (CurrentAt (reconnectGrace option) tid sc ws) where
  answered h := exec_answered tid _ _ _ _ (Performed.of_exec h).exec
  step {st o f x x₁} hnext ho h hrely hinv := by
    have hworking : ∀ {ref r x₂}, Working tid sc ws ref x → (∀ sid, o ≠ .recv sid) →
        (calls cfg option).exec tid o r x₁ = some x₂ → Working tid sc ws ref x₂ :=
      fun h hrecv hexec => (h.of_rely hrely).step ho hrecv (Performed.of_exec hexec)
    have hentered : ∀ {r x₂}, Entered tid sc ws x → o.writes = false → (∀ sid, o ≠ .recv sid) →
        (calls cfg option).exec tid o r x₁ = some x₂ → Entered tid sc ws x₂ :=
      fun h hwrites hrecv hexec => (h.of_rely hrely).own ho hwrites hrecv (Performed.of_exec hexec)
    cases st <;> cases hnext
    case picking =>
      refine ⟨rowPre_of_target rfl rfl, fun picked x₂ hexec _ _ => ?_⟩
      have h₂ := hentered h rfl (fun _ => by simp) hexec
      cases picked with
      | some t => trivial
      | none =>
        dsimp only
        split
        · exact h₂
        · rename_i hmay
          exact ⟨h₂, fun hmay' => absurd hmay' hmay⟩
    case waiting ref =>
      refine ⟨rowPre_of_target rfl rfl, fun got x₂ hexec _ _ => ?_⟩
      cases ref with
      | none =>
        cases got with
        | inl t => trivial
        | inr ch => exact hentered h rfl (fun _ => by simp) hexec
      | some ref =>
        have h₂ := hworking h (fun _ => by simp) hexec
        cases got <;> exact h₂
    case receiving ref ch =>
      refine ⟨rowPre_of_target rfl rfl, fun got x₂ hexec _ _ => ?_⟩
      cases ref with
      | none =>
        cases got with
        | ok t => trivial
        | error e =>
          refine ⟨hentered h rfl (fun _ => by simp) hexec, fun _ => ?_⟩
          exact Performed.waited (h.of_rely hrely).toWorking (.of_exec hexec)
      | some ref =>
        have h₂ := hworking h (fun _ => by simp) hexec
        cases got <;> exact h₂
    case choosing =>
      refine ⟨rowPre_of_target rfl rfl, fun runner x₂ hexec _ _ => ?_⟩
      have h₂ := hentered h.1 rfl (fun _ => by simp) hexec
      cases runner with
      | none => exact h₂.toWorking
      | some runner =>
        exact ⟨h₂, fun hmay => ((h.2 hmay).of_rely hrely).pickRunner
          (h.1.of_rely hrely).toWorking (.of_exec hexec)⟩
    case counting =>
      refine ⟨(h.1.of_rely hrely).nextGeneration fun hmay => (h.2 hmay).of_rely hrely,
        fun gen x₂ hexec _ _ => ?_⟩
      have h₂ := hworking h.1.toWorking (fun _ => by simp) hexec
      cases gen <;> exact h₂
    case sending =>
      refine ⟨rowPre_of_target rfl rfl, fun sent x₂ hexec _ _ => ?_⟩
      have h₂ := hworking h (fun _ => by simp) hexec
      cases sent <;> exact h₂
    case hearing =>
      refine ⟨rowPre_of_target rfl rfl, fun got x₂ hexec _ _ => ?_⟩
      have h₂ := (h.of_rely hrely).heard ho (Performed.of_exec hexec)
      rcases got with e | reply
      · exact h₂
      · cases reply <;> exact h₂
    case activating => exact ⟨(h.of_rely hrely).setWorkspaceStatus, fun _ _ _ _ _ => trivial⟩
    case failing => exact ⟨(h.of_rely hrely).failWorkspacePlacement, fun _ _ _ _ _ => trivial⟩
    -- the two writes of `starting`
    all_goals
      exact ⟨(h.of_rely hrely).setWorkspaceStatus,
        fun _ _ hexec _ _ => hworking h (fun _ => by simp) hexec⟩

/-- The call has read the row and waits for the lock. -/
structure Ready (tid : Nat) (sc : Scope) (ws : Workspace) (x : CallState) : Prop where
  tenant : ws.tenantID = sc.tenantID
  call : ∃ latest, x.notes tid = some { Call.ofCopy ws with latest := latest } ∧
    Agrees { Call.ofCopy ws with latest := latest } x.state

theorem Ready.of_rely (h : Ready tid sc ws x) (hrely : CurrentRely tid x x') :
    Ready tid sc ws x' := by
  obtain ⟨latest, hc, hagrees⟩ := h.call
  obtain ⟨latest', hc', hagrees', -⟩ := hrely.call _ hc
  exact ⟨h.tenant, latest', hc', hagrees' hagrees⟩

theorem ready_of_read {name : GoString}
    (hop : Performed grace tid (.getWorkspaceByName sc.tenantID name) (.ok ws) x x') :
    Ready tid sc ws x' := by
  obtain ⟨hmem, -, htenant⟩ :=
    getWorkspaceByName_eq_some.mp (exec_getWorkspaceByName hop.exec)
  refine ⟨htenant, (ws.status, ws.taskRef), ?_, ?_⟩
  · rw [hop.notes, note_self]
    rfl
  · intro w hw hid
    rw [hop.frame.cell rfl] at hw
    rw [eq_of_id hw hmem hid]
    exact ⟨rfl, rfl⟩

/-- Taking the lock with a current copy. -/
theorem Ready.enters (h : Ready tid sc ws x) (hinv : CopiesKnown x)
    (hcond : copiesCurrent x (.thread tid (.lock (lockKey sc ws)) ()))
    (hop : Performed grace tid (.lock (lockKey sc ws)) () x x') :
    Entered tid sc ws x' := by
  obtain ⟨latest, hc, hagrees⟩ := h.call
  obtain ⟨w, hw, hid, htenant, hname⟩ := hinv tid _ hc
  have hcell : x'.state.cell = x.state.cell := hop.frame.cell rfl
  obtain ⟨hstatus, href⟩ := hcond _ hc w hw hid
  have hlatest : latest = (ws.status, ws.taskRef) := by
    obtain ⟨h₁, h₂⟩ := hagrees w hw hid
    exact Prod.ext (h₁.symm.trans hstatus) (h₂.symm.trans href)
  have hheld : x'.state.held (lockKey sc ws) = some tid := by
    rw [(exec_lock hop.exec).2]
    exact update_self _ _ _
  have htenant' : w.tenantID = sc.tenantID := htenant.trans h.tenant
  refine ⟨⟨⟨w, ⟨hcell ▸ hw, ?_⟩, hid, htenant', hname⟩, h.tenant,
    { Call.ofCopy ws with latest := latest }, ?_, rfl, hlatest, rfl⟩, ?_⟩
  · rw [lockOf, htenant', hname]
    exact hheld
  · rw [hop.notes, note_self, noteOwn_none rfl, hc]
    rfl
  · rw [hcell]
    intro v hv hvid
    exact hcond _ hc v hv hvid

theorem ensureWorkspace_current (h : Ready tid sc ws x) :
    (currentOutline cfg option).Safe tid (ensureWorkspace cfg sc ws) (fun _ _ => True) x := by
  refine current_call fun x₁ hrely hinv =>
    ⟨rowPre_of_target rfl rfl, fun _ x₂ hop hcond => ?_⟩
  have h₂ := (h.of_rely hrely).enters hinv hcond hop
  have hpicking : CurrentAt (reconnectGrace option) tid sc ws .picking x₂ := h₂
  refine .bind ((ensureLocked_follows ensureLocked_current hpicking).mono fun r x₃ _ => ?_)
  exact current_call fun _ _ _ => ⟨rowPre_of_target rfl rfl, fun _ _ _ _ => trivial⟩

theorem DialOp.rowPre (ho : DialOp o) : RowPre grace tid o x := by
  refine rowPre_of_target ?_ ?_ <;> cases o <;> first | rfl | exact ho.elim

theorem spawn_current {q : Req} {p : Api Outcome} (hcond : copiesCurrent x (.spawn q))
    (h : (calls cfg option).spawn q x = some p) :
    (currentOutline cfg option).Safe tid p (fun _ _ => True) x := by
  have hspawn : spawn cfg q x.state = some p := h
  cases q <;> try cases hcond
  case ensure sc name =>
    cases hspawn
    refine current_call fun x₁ _ _ =>
      ⟨rowPre_of_target rfl rfl, fun row x₂ hop _ => ?_⟩
    cases row with
    | error e =>
      dsimp only
      split <;> trivial
    | ok ws => exact .bind ((ensureWorkspace_current (ready_of_read hop)).mono
        fun _ _ _ => trivial)
  case dial task tenant workspace version =>
    obtain ⟨t, -, rfl⟩ := spawn_dial hspawn
    refine .mono (fun _ _ _ => trivial) <|
      Outline.safe_of_performs (K := fun _ => True)
        (handleWorkspaceTunnel_performs _ _) (fun _ _ _ _ => trivial) ?_
        (fun o x ho _ _ => ho.rowPre) (fun _ _ _ _ _ _ _ => trivial) trivial
    exact fun o r x x' h => exec_answered tid o r _ _ (Performed.of_exec h).exec

end Handlers

/-! ## Every run -/

/-- In every run of concurrent `ensureWorkspace` calls and dials, on any table, in which a
call takes the lock only while its copy has the status and the reference of the row: a call
that fails before it has dispatched anything writes back what other calls recorded last, and
a call takes a generation beside a task that is recorded as starting only after it has
waited for that task for at least `reconnectGrace`. -/
theorem placements_on_current_row (cfg : Config) (option : Int) (cell : Workspaces)
    {tr : CallSchedule} {pool next : CallPool} {tid : Nat} {o : Op} {r : Res o}
    (hrun : Path (calls cfg option) copiesCurrent (bootCalls cell) tr pool)
    (hstep : Step (calls cfg option) pool (.thread tid o r) next) :
    OnCurrentRow (reconnectGrace option) tid o r pool.shared := by
  have hstart : (currentOutline cfg option).Holds (bootCalls cell) :=
    ⟨nofun, nofun⟩
  have hholds := (currentOutline cfg option).sound
    (fun _ _ _ _ _ hq h => spawn_current hq h) hstart hrun
  have hpre := Outline.pre_of_step hholds hstep
  refine ⟨hpre.writesBack, fun id hcounted w hw hid hstatus href => ?_⟩
  cases hstep with
  | thread _ hexec =>
    cases o <;> try cases hcounted
    case nextGeneration tenantID id' =>
      cases r with
      | error => cases hcounted
      | ok gen =>
        cases hcounted
        -- a statement under a context that is done fails
        have hin := (Performed.of_exec hexec).inTime
        refine (hpre.waits _ _ rfl w hw hid hstatus href).resolve_right fun hdone => ?_
        simp [CallState.inTime, hdone] at hin

/-! ## A call with an old copy -/

/-- Thread 0 takes the lock on a row without a task and dispatches task 1; its caller goes
away before the task dials in. -/
def abandonedDispatch : CallSchedule :=
  [.thread 0 (.lock (lockKey demoScope demoRow)) (),
    .thread 0 (.pickWorkspace demoKey) none] ++
  demoDispatch 0 demoRow 1 0 ++
  ([.env (.world (.handle 0 (.placed "task-1"))),
     .thread 0 (.recv 0) (.ok (.ref "task-1")),
     .thread 0 (.setWorkspaceStatus "acme" "w1" .starting "task-1") (.ok ()),
     .thread 0 (.waitWorkspace demoKey) (.inr 0),
     .env (.done 0),
     .thread 0 (.receive demoKey 0) (.error "context canceled"),
     .thread 0 (.failWorkspacePlacement "acme" "w1" .starting "task-1"
       "workspace api did not dial in: context canceled") (.ok ()),
     .thread 0 (.unlock (lockKey demoScope demoRow)) ()] : CallSchedule)

/-- A request: a runner is connected, and thread `tid` reads the row. -/
def readRow (tid : Nat) (row : Workspace) : CallSchedule :=
  [.spawn (.ensure demoScope "api"),
    .thread tid (.getWorkspaceByName "acme" "api") (.ok row)]

/-- Thread 1 read the row before that, gets the lock after it, and finds no tunnel. -/
def oldCopy : CallSchedule :=
  .env (.world (.runnerUp "acme" "runner")) :: readRow 0 demoRow ++
  readRow 1 demoRow ++ abandonedDispatch ++
  ([.thread 1 (.lock (lockKey demoScope demoRow)) (),
     .thread 1 (.pickWorkspace demoKey) none,
     .thread 1 (.pickRunner "acme") (some demoRunner)] : CallSchedule)

/-- It goes on to take a generation, and its own dispatch fails. -/
def oldCopyFails : CallSchedule :=
  [.thread 1 (.nextGeneration "acme" "w1") (.ok 2),
    .thread 1 (.setWorkspaceStatus "acme" "w1" .starting []) (.ok ()),
    .thread 1 (.send demoRunner (.startWorkspace (startCommand demoConfig demoScope demoRow 2)))
      (.error "closed")]

def impatient : CallPool :=
  final (calls demoConfig 0) placementsOnly (bootCalls demoCell) oldCopy

def forgetful : CallPool :=
  final (calls demoConfig 0) placementsOnly (bootCalls demoCell) (oldCopy ++ oldCopyFails)

/-- The call takes generation 2 at once, while task 1 is on its way and nobody has waited for
it; and when its own dispatch fails, it writes the row back to stopped, without a task. -/
theorem old_copy_overrules_row :
    ∃ (tr tr' : CallSchedule) (pool next pool' next' : CallPool),
      (Path (calls demoConfig 0) placementsOnly (bootCalls demoCell) tr pool ∧
        Step (calls demoConfig 0) pool (.thread 1 (.nextGeneration "acme" "w1") (.ok 2)) next ∧
        ¬OnCurrentRow (reconnectGrace 0) 1 (.nextGeneration "acme" "w1") (.ok 2) pool.shared) ∧
      Path (calls demoConfig 0) placementsOnly (bootCalls demoCell) tr' pool' ∧
        Step (calls demoConfig 0) pool'
          (.thread 1 (.failWorkspacePlacement "acme" "w1" .stopped []
            "dispatch: closed") (.ok ())) next' ∧
        ¬OnCurrentRow (reconnectGrace 0) 1 (.failWorkspacePlacement "acme" "w1" .stopped
          [] "dispatch: closed") (.ok ()) pool'.shared := by
  have hrun : Path (calls demoConfig 0) placementsOnly (bootCalls demoCell) _ impatient :=
    final_path (by decide +kernel)
  have hrun' : Path (calls demoConfig 0) placementsOnly (bootCalls demoCell) _ forgetful :=
    final_path (by decide +kernel)
  obtain ⟨next, hnext⟩ : ∃ next, Step (calls demoConfig 0) impatient
      (.thread 1 (.nextGeneration "acme" "w1") (.ok 2)) next :=
    exists_step (by decide +kernel)
  obtain ⟨next', hnext'⟩ : ∃ next, Step (calls demoConfig 0) forgetful
      (.thread 1 (.failWorkspacePlacement "acme" "w1" .stopped []
        "dispatch: closed") (.ok ())) next :=
    exists_step (by decide +kernel)
  refine ⟨_, _, impatient, next, forgetful, next', ⟨hrun, hnext, fun h => ?_⟩, hrun', hnext',
    fun h => ?_⟩
  · have hrow : ∃ w ∈ impatient.shared.state.cell.rows, w.id = "w1" ∧
        w.status = .starting ∧ derefOr w.taskRef ≠ [] := by decide +kernel
    have hnot : (impatient.shared.notes 1).map (·.waited) = some none := by decide +kernel
    obtain ⟨w, hw, hid, hstatus, href⟩ := hrow
    obtain ⟨c, d, hc, hwaited, -⟩ := h.waits _ rfl w hw hid hstatus href
    rw [hc, map_some, hwaited] at hnot
    cases hnot
  · have hnot : (forgetful.shared.notes 1).map (fun c => (c.ref, failureStatus c.current [])) =
        some ([], .starting, str "task-1") := by decide +kernel
    obtain ⟨c, hc, hback⟩ := h.writesBack _ _ _ _ _ rfl
    rw [hc, map_some] at hnot
    obtain ⟨href, hstatus⟩ := Prod.mk.inj (Option.some.inj hnot)
    rw [hstatus] at hback
    exact absurd (hback href) (by decide)

/-- The same two requests, the second of which reads the row after the first has failed. -/
def newCopy : CallSchedule :=
  .env (.world (.runnerUp "acme" "runner")) :: readRow 0 demoRow ++
  abandonedDispatch ++
  readRow 1 { demoRowAt 1 .starting (some "task-1") none none with
    lastError := some "workspace api did not dial in: context canceled" } ++
  ([.thread 1 (.lock (lockKey demoScope demoRow)) (),
     .thread 1 (.pickWorkspace demoKey) none,
     .thread 1 (.waitWorkspace demoKey) (.inr 1),
     .env (.pass 10000000000),
     .thread 1 (.receive demoKey 1) (.error "context deadline exceeded"),
     .thread 1 (.pickRunner "acme") (some demoRunner)] : CallSchedule)

def patient : CallPool :=
  final (calls demoConfig 0) copiesCurrent (bootCalls demoCell) newCopy

/-- It waits for task 1 for ten seconds before it takes a generation. -/
theorem placements_on_current_row_patient :
    (∃ w ∈ patient.shared.state.cell.rows, w.status = .starting ∧
      w.taskRef = some (str "task-1")) ∧
      OnCurrentRow (reconnectGrace 0) 1 (.nextGeneration "acme" "w1") (.ok 2) patient.shared := by
  have hrun : Path (calls demoConfig 0) copiesCurrent (bootCalls demoCell) _ patient :=
    final_path (by decide +kernel)
  obtain ⟨next, hnext⟩ : ∃ next, Step (calls demoConfig 0) patient
      (.thread 1 (.nextGeneration "acme" "w1") (.ok 2)) next :=
    exists_step (by decide +kernel)
  exact ⟨by decide +kernel, placements_on_current_row demoConfig 0 demoCell hrun hnext⟩

end Lemul.MgmtApi
