import Lemul.MgmtApi.SweepOutline

/-!
# Whose report a workspace is judged by

A report is filed under a name (`activity.go:37-41`), and a row's name outlives its task. The
reports in the store and in the copy of a running sweep are of the task the row names as long
as a task is recorded only when no earlier report is left, and a report is filed only while the
row names the task that made it. `Reported` is what follows for the reports held and for every
evaluation made.
-/

namespace Lemul.MgmtApi.Reaper

open Store List Option Workspaces

/-! ## What operations do to rows -/

/-- The record an operation gives a task, and the task. -/
def givesRef : Op → Option (GoString × GoString × GoString)
  | .setWorkspaceStatus tenantID id _ taskRef =>
      if taskRef = [] then none else some (tenantID, id, taskRef)
  | .failWorkspacePlacement tenantID id _ taskRef _ =>
      if taskRef = [] then none else some (tenantID, id, taskRef)
  | _ => none

/-- The operation that writes `warm_hold_until`. -/
def setsHold : Op → Bool
  | .setWarmHold _ _ _ => true
  | _ => false

/-- Operations that neither rename nor delete a row. -/
def keepsRows : Op → Bool
  | .renameWorkspace _ _ _ => false
  | .deleteWorkspace _ _ => false
  | _ => true

/-- What `o` may have made of a row. -/
structure RowMoved (o : Op) (w w' : Workspace) : Prop where
  id : w'.id = w.id
  tenantID : w'.tenantID = w.tenantID
  name : w'.name = w.name
  taskRef : w'.taskRef = w.taskRef ∨ w'.taskRef = none ∨
    ∃ ref, givesRef o = some (w.tenantID, w.id, ref) ∧ w'.taskRef = some ref
  hold : setsHold o = false → w'.warmHoldUntil = w.warmHoldUntil

theorem RowMoved.refl (o : Op) (w : Workspace) : RowMoved o w w :=
  ⟨rfl, rfl, rfl, .inl rfl, fun _ => rfl⟩

/-- The rows of `c'` are those of `c` after `o`, and new ones. -/
structure RowsMoved (o : Op) (c c' : Workspaces) : Prop where
  forward : ∀ w ∈ c.rows, ∃ w' ∈ c'.rows, RowMoved o w w'
  back : ∀ w' ∈ c'.rows, (∃ w ∈ c.rows, RowMoved o w w') ∨
    (w'.taskRef = none ∧ w'.warmHoldUntil = none ∧ ∀ w ∈ c.rows, w.id ≠ w'.id)

theorem RowsMoved.refl (o : Op) (c : Workspaces) : RowsMoved o c c :=
  ⟨fun w hw => ⟨w, hw, .refl o w⟩, fun w hw => .inl ⟨w, hw, .refl o w⟩⟩

variable {o : Op} {s' s : State} {interval tid : Nat} {sw : Sweeping}

theorem rowsMoved_update {c c' : Workspaces} {tenantID id : GoString} {f : Workspace → Workspace}
    (hrows : c'.rows = c.rows.map (Workspaces.rewrite tenantID id f))
    (hmoved : ∀ w, w.id = id → w.tenantID = tenantID → RowMoved o w (f w)) :
    RowsMoved o c c' := by
  have hrow : ∀ w, RowMoved o w (rewrite tenantID id f w) := fun w =>
    rewrite_rel (.refl o w) fun h => (Workspace.isRow_iff.mp h).elim (hmoved w)
  refine ⟨fun w hw => ⟨_, hrows ▸ mem_map_of_mem hw, hrow w⟩, fun w' hw' => .inl ?_⟩
  obtain ⟨w, hw, rfl⟩ := mem_map.mp (hrows ▸ hw')
  exact ⟨w, hw, hrow w⟩

theorem nullable_given {ref : GoString} {x : GoString × GoString} :
    nullable ref = none ∨ ∃ r, (if ref = [] then none else some (x.1, x.2, ref)) =
      some (x.1, x.2, r) ∧ nullable ref = some r := by
  by_cases h : ref = []
  · exact .inl (if_pos h)
  · exact .inr ⟨ref, if_neg h, if_neg h⟩

theorem exec_rowsMoved {r : Res o} {s s' : World} (h : MgmtApi.exec tid o r s = some s')
    (hkeeps : keepsRows o = true) : RowsMoved o s.cell s'.cell := by
  cases exec_tabled h with
  | same hcell =>
    rw [hcell]
    exact .refl o _
  | edited he hrows =>
    refine rowsMoved_update hrows fun w hid htenant => ?_
    cases o <;> try cases he
    all_goals cases r <;> cases he
    all_goals first
      | exact ⟨rfl, rfl, rfl, .inl rfl, fun _ => rfl⟩
      | exact ⟨rfl, rfl, rfl, .inl rfl, nofun⟩
      | (refine ⟨rfl, rfl, rfl, .inr ?_, fun _ => rfl⟩
         rw [hid, htenant]
         exact nullable_given (x := (_, _)))
      | cases hkeeps
  | created hnew _ hcell =>
    have hrows := createWorkspace_rows hcell
    refine ⟨fun v hv => ⟨v, hrows ▸ mem_append_left _ hv, .refl _ v⟩, fun v hv => ?_⟩
    rcases mem_concat.mp (hrows ▸ hv) with hold | rfl
    · exact .inl ⟨v, hold, .refl _ v⟩
    · refine .inr ⟨by rw [hnew]; rfl, by rw [hnew]; rfl, fun x hx hid => ?_⟩
      have hdistinct := (pairwise_append.mp (hrows ▸ s'.cell.unique)).2.2 x hx v
        (mem_singleton_self v)
      exact hdistinct.1 hid
  | deleted => cases hkeeps

theorem placementOp_keepsRows (h : placementOp o = true) : keepsRows o = true := by
  cases o <;> first | rfl | cases h

theorem placementOp_setsHold (h : placementOp o = true) : setsHold o = false := by
  cases o <;> first | rfl | cases h

theorem SharedPre.keepsRows (h : SharedPre interval tid sw s o) : keepsRows o = true := by
  cases o <;> first | rfl | exact h.elim

theorem SharedPre.givesRef (h : SharedPre interval tid sw s o) : givesRef o = none := by
  cases o with
  | setWorkspaceStatus tenantID id status taskRef => exact if_pos h.2
  | failWorkspacePlacement tenantID id status taskRef reason => exact h.elim
  | _ => rfl

/-! ## Reports -/

/-- The copy a running sweep works from. -/
def State.copied (s : State) : List (WsKey × Report) :=
  match s.sweeping with
  | none => []
  | some sw => sw.reports

/-- The reports a row may still be judged by. -/
def State.held (s : State) : List (WsKey × Report) := s.activity ++ s.copied

/-- The record a running sweep is at. -/
def State.judging (s : State) : Option GoString := s.sweeping.bind (·.judging)

/-- No report of `w` is left, and it is not being judged. -/
def State.Unreported (s : State) (w : Workspace) : Prop :=
  (∀ x ∈ s.held, x.1 ≠ ⟨w.tenantID, w.name⟩) ∧ s.judging ≠ some w.id

instance (s : State) (w : Workspace) : Decidable (s.Unreported w) := by
  unfold State.Unreported
  infer_instance

/-- A task is recorded only for a row of which no report is left, and a report is filed only
for the row that names its task. -/
def reportsOwn (s : State) : Label SweepOp SweepRes Move Nat → Prop
  | .env (.acts _ o _) =>
      match givesRef o with
      | none => True
      | some (tenantID, id, ref) =>
          match s.world.cell.getWorkspace tenantID id with
          | none => True
          | some w => w.taskRef = some ref ∨ s.Unreported w
  | .env (.receive i k) =>
      match s.transit[i]?, s.world.cell.getWorkspaceByName k.tenantID k.name with
      | some rep, some w => w.taskRef = some rep.task
      | _, _ => True
  | _ => True

/-- The reports held, and those that were used, are of the task the row names. -/
structure Reported (s : State) : Prop where
  own : ∀ x ∈ s.held, ∀ w ∈ s.world.cell.rows, x.1 = ⟨w.tenantID, w.name⟩ →
    w.taskRef = none ∨ w.taskRef = some x.2.task
  used : ∀ e ∈ s.evaluated, e.row.taskRef = none ∨ e.row.taskRef = some e.report.task

/-- Rows that moved and reports that were not added to. -/
theorem Reported.moved (h : Reported s) (hrows : RowsMoved o s.world.cell s'.world.cell)
    (hheld : ∀ x ∈ s'.held, x ∈ s.held)
    (hlog : s'.evaluated = s.evaluated)
    (hgives : ∀ tenantID id ref, givesRef o = some (tenantID, id, ref) → ∀ w ∈ s.world.cell.rows,
      w.tenantID = tenantID → w.id = id → w.taskRef = some ref ∨ s.Unreported w) :
    Reported s' where
  own x hx w' hw' hkey := by
    rcases hrows.back w' hw' with ⟨w, hw, hmoved⟩ | hnew
    · rw [hmoved.tenantID, hmoved.name] at hkey
      have hown := h.own x (hheld x hx) w hw hkey
      rcases hmoved.taskRef with hsame | hnone | ⟨ref, hgave, href⟩
      · rwa [hsame]
      · exact .inl hnone
      · rcases hgives _ _ _ hgave w hw rfl rfl with hsame | hfree
        · rwa [href, ← hsame]
        · exact absurd hkey (hfree.1 x (hheld x hx))
    · exact .inl hnew.1
  used := by
    rw [hlog]
    exact h.used

/-- A step that leaves the table and the log alone. -/
theorem Reported.still (h : Reported s) (hcell : s'.world.cell = s.world.cell)
    (hheld : ∀ x ∈ s'.held, x ∈ s.held) (hlog : s'.evaluated = s.evaluated) : Reported s' := by
  refine h.moved (o := .pickRunner []) ?_ hheld hlog nofun
  rw [hcell]
  exact .refl _ _

theorem held_forget {k : WsKey} : ∀ x ∈ { s with activity := forget s.activity k }.held,
    x ∈ s.held := by
  intro x hx
  rcases mem_append.mp hx with hx | hx
  · exact mem_append_left _ (mem_of_mem_filter hx)
  · exact mem_append_right _ hx

theorem Making.copied (h : Making tid sw s) : s.copied = sw.reports := by
  simp only [State.copied, h.sweeping]

/-- A sweep's operation adds no report. -/
theorem exec_held {o : SweepOp} {r : SweepRes o} (h : exec tid o r s = some s') :
    ∀ x ∈ s'.held, x ∈ s.held := by
  intro x hx
  cases exec_rule h with
  | all hfree hperm =>
    rcases mem_append.mp hx with hx | hx
    · exact mem_append_left _ hx
    · exact mem_append_left _ (hperm.mem_iff.mp hx)
  | done =>
    rcases mem_append.mp hx with hx | hx
    · exact mem_append_left _ hx
    · cases hx
  | unread hmaking | reads hmaking => rwa [State.held, hmaking.copied]
  | forget => exact held_forget x hx
  | @api o =>
    rcases mem_append.mp hx with hx | hx
    · exact mem_append_left _ hx
    · refine mem_append_right _ ?_
      unfold State.copied at hx ⊢
      cases hsweeping : s.sweeping with
      | none => simp only [hsweeping, map_none] at hx; exact hx
      | some sw =>
        simp only [hsweeping, map_some] at hx
        cases o <;> exact hx
  | _ => exact hx

/-- The sweep's own operations record no task. -/
theorem Reported.exec {o : SweepOp} {r : SweepRes o} (h : Reported s)
    (hpre : SweepPre interval tid o s) (hexec : exec tid o r s = some s') :
    Reported s' := by
  have hheld := exec_held hexec
  cases exec_rule hexec with
  | reads hmaking' hrow =>
    obtain ⟨sw, hmaking, -, -, hmem, -⟩ := hpre
    obtain rfl := hmaking.unique hmaking'
    obtain ⟨hmemrow, hname, htenant⟩ := getWorkspaceByName_eq_some.mp hrow
    refine ⟨fun x hx => h.own x (hheld x hx), fun e he => ?_⟩
    rcases mem_concat.mp he with hold | rfl
    · exact h.used e hold
    · refine h.own (_, _) (mem_append_right _ (hmaking.copied ▸ hmem)) _ hmemrow ?_
      rw [hname, htenant]
  | api hw =>
    obtain ⟨sw, hmaking, hshared⟩ := hpre
    refine h.moved (exec_rowsMoved hw hshared.keepsRows) hheld rfl ?_
    intro _ _ _ hgave
    cases hshared.givesRef.symm.trans hgave
  | _ => exact h.still rfl hheld rfl

theorem Reported.env {d : Driver} {e : Move} (h : Reported s) (hcond : reportsOwn s (.env e))
    (henv : env d e s = some s') : Reported s' := by
  cases e with
  | world e =>
    obtain ⟨w, hw, rfl⟩ := map_eq_some_iff.mp henv
    exact h.still (envStep_untouched hw).cell (fun _ hx => hx) rfl
  | acts tid o r =>
    simp only [Reaper.env] at henv
    split at henv
    · rename_i hop
      obtain ⟨w, hw, rfl⟩ := map_eq_some_iff.mp henv
      refine h.moved (exec_rowsMoved hw (placementOp_keepsRows hop)) (fun _ hx => hx) rfl ?_
      intro tenantID id ref hgave v hv htenant hid
      have hrow := getWorkspace_eq_some.mpr ⟨hv, hid, htenant⟩
      simp only [reportsOwn, hgave, hrow] at hcond
      exact hcond
    · cases henv
  | receive i k =>
    simp only [Reaper.env] at henv
    split at henv <;> cases henv
    rename_i rep hrep
    refine ⟨fun x hx w hw hkey => ?_, h.used⟩
    rcases mem_append.mp hx with hx | hx
    · rcases mem_concat.mp hx with hold | rfl
      · exact h.own x (mem_append_left _ (mem_of_mem_filter hold)) w hw hkey
      · dsimp only at hkey
        have hrow : s.world.cell.getWorkspaceByName k.tenantID k.name = some w := by
          rw [hkey]
          exact getWorkspaceByName_eq_some.mpr ⟨hw, rfl, rfl⟩
        simp only [reportsOwn, hrep, hrow] at hcond
        exact .inr hcond
    · exact h.own x (mem_append_right _ hx) w hw hkey
  | forget k =>
    cases henv
    exact h.still rfl held_forget rfl
  | exit i =>
    simp only [Reaper.env] at henv
    split at henv <;> cases henv
    exact h.still rfl (fun _ hx => hx) rfl
  | policy tenantID id idle secs =>
    cases henv
    refine h.moved (o := .pickRunner []) ?_ (fun _ hx => hx) rfl fun _ _ _ h => by cases h
    exact rowsMoved_update rfl fun _ _ _ =>
      ⟨rfl, rfl, rfl, .inl rfl, fun _ => rfl⟩
  | _ =>
    cases henv
    exact h.still rfl (fun _ hx => hx) rfl

theorem reported_boot (cell : Workspaces) (idle : GoString → IdleColumns)
    (sessions : List SessionRow) : Reported (boot cell idle sessions).shared where
  own := nofun
  used := nofun

end Lemul.MgmtApi.Reaper
