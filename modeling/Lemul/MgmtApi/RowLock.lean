import Lemul.MgmtApi.Footprint

/-!
# A row under its lock

`ensureWorkspace` holds the lock of a workspace while it places its task, but nothing
enforces that the row is written under that lock only, and some handlers do not take it.
Here is what a thread that holds the lock may rely on as long as they all respect it: the
row stays exactly as it is.
-/

namespace Lemul.MgmtApi

open Store List Workspaces

/-- The row an operation may change or remove. -/
def Op.target : Op → Option (GoString × GoString)
  | .setWorkspaceStatus tenantID id _ _ => some (tenantID, id)
  | .failWorkspacePlacement tenantID id _ _ _ => some (tenantID, id)
  | .nextGeneration tenantID id => some (tenantID, id)
  | .setWarmHold tenantID id _ => some (tenantID, id)
  | .setWorkspaceSnapshot tenantID id _ => some (tenantID, id)
  | .renameWorkspace tenantID id _ => some (tenantID, id)
  | .deleteWorkspace tenantID id => some (tenantID, id)
  | _ => none

/-- `o` names the row `w`. -/
def Op.Names (o : Op) (w : Workspace) : Prop :=
  ∃ tenantID id, o.target = some (tenantID, id) ∧ w.isRow tenantID id = true

/-- No other thread holds the lock of the row that `o`, performed by `tid`, names. -/
def WritesOrderly (tid : Nat) (o : Op) (s : World) : Prop :=
  ∀ w ∈ s.cell.rows, o.Names w → ∀ other, s.held (lockOf w) = some other → other = tid

variable {tid : Nat} {o : Op} {r : Res o} {s s' s'' : World} {w w' : Workspace}

theorem Op.target_of_edit {e : Edit} (h : o.edit r = some e) :
    o.target = some (e.tenantID, e.id) := by
  cases o <;> try cases h
  all_goals
    cases r <;> cases h
    rfl

/-- An operation leaves every row but the one it names as it is. -/
theorem exec_row_unnamed (h : exec tid o r s = some s') (hw : w ∈ s.cell.rows)
    (hnot : ¬o.Names w) : w ∈ s'.cell.rows := by
  cases exec_tabled h with
  | same hcell => rwa [hcell]
  | edited he hrows =>
    rw [hrows]
    exact mem_map.mpr ⟨w, hw, if_neg fun hrow => hnot ⟨_, _, Op.target_of_edit he, hrow⟩⟩
  | created _ _ hcell =>
    rw [createWorkspace_rows hcell]
    exact mem_append_left _ hw
  | deleted hrows =>
    rw [hrows]
    refine mem_filter.mpr ⟨hw, ?_⟩
    rw [Bool.of_not_eq_true fun hrow => hnot ⟨_, _, rfl, hrow⟩]
    rfl

/-- Apart from a delete, every row before an operation is there after it. -/
theorem exec_row_kept (h : exec tid o r s = some s')
    (ho : ∀ tenantID id, o ≠ .deleteWorkspace tenantID id) (hw : w ∈ s.cell.rows) :
    ∃ w' ∈ s'.cell.rows, RowFrom o w w' := by
  cases exec_tabled h with
  | same hcell => exact ⟨w, hcell ▸ hw, .refl o w⟩
  | edited he hrows =>
    exact ⟨_, hrows ▸ mem_map_of_mem hw, rewrite_rel (.refl o w) fun _ => .of_edit he w⟩
  | created _ _ hcell =>
    exact ⟨w, createWorkspace_rows hcell ▸ mem_append_left _ hw, .refl _ w⟩
  | deleted => exact absurd rfl (ho _ _)

/-! ## Verdicts -/

/-- What an operation records about a placement: the columns that `SetWorkspaceStatus` and
`FailWorkspacePlacement` set, on the row they name. -/
structure Verdict where
  tenantID : GoString
  id : GoString
  status : WorkspaceStatus
  taskRef : GoString
  lastError : Option GoString
  deriving DecidableEq, Repr

def Verdict.apply (v : Verdict) (w : Workspace) : Workspace :=
  { w with status := v.status, taskRef := nullable v.taskRef, lastError := v.lastError }

/-- The verdict of an operation, if it was written. -/
def Op.verdict : (o : Op) → Res o → Option Verdict
  | .setWorkspaceStatus tenantID id status ref, .ok _ => some ⟨tenantID, id, status, ref, none⟩
  | .failWorkspacePlacement tenantID id status ref reason, .ok _ =>
      some ⟨tenantID, id, status, ref, some reason⟩
  | _, _ => none

variable {v : Verdict}

theorem Op.target_of_verdict (h : o.verdict r = some v) :
    o.target = some (v.tenantID, v.id) := by
  cases o <;> try cases h
  all_goals
    cases r with
    | error e => cases h
    | ok u =>
      cases h
      rfl

/-- The same verdict stands on both rows. -/
structure SameVerdict (w w' : Workspace) : Prop where
  status : w'.status = w.status
  taskRef : w'.taskRef = w.taskRef
  lastError : w'.lastError = w.lastError

theorem SameVerdict.refl (w : Workspace) : SameVerdict w w := ⟨rfl, rfl, rfl⟩

/-- A verdict is written to the row it names, and to nothing else. -/
theorem exec_verdict (h : exec tid o r s = some s') (hv : o.verdict r = some v) :
    s'.cell.rows = s.cell.rows.map (Workspaces.rewrite v.tenantID v.id v.apply) := by
  cases o <;> try cases hv
  all_goals
    cases r with
    | error e => cases hv
    | ok u =>
      cases hv
      cases h
      rfl

/-- Without one, every row says what it said. -/
theorem exec_no_verdict (h : exec tid o r s = some s') (hv : o.verdict r = none)
    (hcreates : o.creates = false) (hw' : w' ∈ s'.cell.rows) :
    ∃ w ∈ s.cell.rows, w.id = w'.id ∧ SameVerdict w w' := by
  cases exec_tabled h with
  | same hcell => exact ⟨w', hcell ▸ hw', rfl, .refl w'⟩
  | edited he hrows =>
    obtain ⟨w, hw, rfl⟩ := mem_map.mp (hrows ▸ hw')
    refine ⟨w, hw, rewrite_rel (R := fun w w' => w.id = w'.id ∧ SameVerdict w w')
      ⟨rfl, .refl w⟩ fun _ => ?_⟩
    cases o <;> try cases he
    all_goals cases r <;> cases he
    all_goals first
      | exact ⟨rfl, rfl, rfl, rfl⟩
      | cases hv
  | created => cases hcreates
  | deleted hrows => exact ⟨w', mem_of_mem_filter (hrows ▸ hw'), rfl, .refl w'⟩

/-! ## Holding the lock -/

/-- What a thread relies on: its locks are its own, and a row whose lock it holds stays as
it is. -/
structure RowRely (tid : Nat) (s s' : World) : Prop where
  held : ∀ k, s'.held k = some tid ↔ s.held k = some tid
  locked : ∀ w ∈ s.cell.rows, s.held (lockOf w) = some tid → w ∈ s'.cell.rows

theorem RowRely.refl (tid : Nat) (s : World) : RowRely tid s s :=
  ⟨fun _ => Iff.rfl, fun _ hw _ => hw⟩

theorem RowRely.trans (h₁ : RowRely tid s s') (h₂ : RowRely tid s' s'') : RowRely tid s s'' :=
  ⟨fun k => (h₂.held k).trans (h₁.held k),
    fun w hw hheld => h₂.locked w (h₁.locked w hw hheld) ((h₁.held _).mpr hheld)⟩

theorem RowRely.of_op {other : Nat} (horderly : WritesOrderly tid o s) (hne : other ≠ tid)
    (h : exec tid o r s = some s') : RowRely other s s' := by
  refine ⟨fun k => exec_held_iff h hne, fun w hw hheld => exec_row_unnamed h hw ?_⟩
  intro hnames
  exact hne (horderly w hw hnames other hheld)

theorem RowRely.of_env {d : Driver} {e : EnvMove} (h : envStep d e s = some s') :
    RowRely tid s s' := by
  have hframe := envStep_untouched h
  refine ⟨fun k => by rw [hframe.held], fun w hw _ => ?_⟩
  rw [hframe.cell]
  exact hw

/-- Thread `tid` holds the lock of the row `w`. -/
structure HoldsRow (tid : Nat) (w : Workspace) (s : World) : Prop where
  row : w ∈ s.cell.rows
  held : s.held (lockOf w) = some tid

theorem HoldsRow.of_rely (h : HoldsRow tid w s) (hrely : RowRely tid s s') : HoldsRow tid w s' :=
  ⟨hrely.locked w h.row h.held, (hrely.held _).mpr h.held⟩

/-- It may write that row. -/
theorem HoldsRow.orderly (h : HoldsRow tid w s)
    (ho : ∀ tenantID id, o.target = some (tenantID, id) → id = w.id) : WritesOrderly tid o s := by
  rintro v hv ⟨tenantID, id, htarget, hrow⟩ other hheld
  have hid : v.id = w.id := (Workspace.isRow_iff.mp hrow).1.trans (ho tenantID id htarget)
  rw [eq_of_id hv h.row hid, h.held] at hheld
  exact (Option.some.inj hheld).symm

/-- The holder's operations on the row leave it under the same name. -/
theorem HoldsRow.own_kept (h : HoldsRow tid w s) (hexec : exec tid o r s = some s')
    (ho : ∀ tenantID id, o ≠ .deleteWorkspace tenantID id) (hrenames : o.renames = false)
    (hlocks : o.locks = false) : ∃ w', HoldsRow tid w' s' ∧ RowFrom o w w' := by
  obtain ⟨w', hw', hfrom⟩ := exec_row_kept hexec ho h.row
  refine ⟨w', ⟨hw', ?_⟩, hfrom⟩
  rw [(exec_frame hexec).held hlocks, lockOf, hfrom.tenantID, hfrom.name hrenames]
  exact h.held

end Lemul.MgmtApi
