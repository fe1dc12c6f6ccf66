import Lemul.Misc.GoString

/-!
# The `workspace` table

Rows and statements of `internal/store/schema.sql:59-201` and
`internal/store/queries.sql:83-220`. Each statement is one function on the table;
`id` is the primary key and every statement carries the `tenant_id` predicate.
Columns that no modelled statement reads or writes (the lifecycle policy apart from
the warm hold, the idle-pinned mark, `created_at`) are left out.
-/

namespace Lemul.Store

open List

/-- `status`, with the values its CHECK admits (`schema.sql:105-106`). -/
inductive WorkspaceStatus where
  | stopped
  | starting
  | active
  deriving DecidableEq, Repr

/-- `access_scope` (`schema.sql:81-83`, `mgmtapi/principal.go:71-75`). -/
inductive AccessScope where
  | owner
  | members
  | org
  deriving DecidableEq, Repr

/-- One row of `workspace`. -/
structure Workspace where
  id : GoString
  tenantID : GoString
  name : GoString
  ownerUserID : GoString
  accessScope : AccessScope
  nextUID : Nat
  generation : Nat
  taskRef : Option GoString
  status : WorkspaceStatus
  lastError : Option GoString
  warmHoldSecs : Nat
  warmHoldUntil : Option Nat
  snapshotID : Option GoString
  deriving DecidableEq, Repr

/-- Two rows that the primary key and `UNIQUE (tenant_id, name)` admit side by side
(`schema.sql:60`, `:200`). -/
def Workspace.Distinct (a b : Workspace) : Prop :=
  a.id ≠ b.id ∧ ¬(a.tenantID = b.tenantID ∧ a.name = b.name)

instance : Std.Symm Workspace.Distinct where
  symm _ _ h := ⟨fun hid => h.1 hid.symm, fun hkey => h.2 ⟨hkey.1.symm, hkey.2.symm⟩⟩

/-- The table: rows that respect its two unique constraints. -/
structure Workspaces where
  rows : List Workspace
  unique : rows.Pairwise Workspace.Distinct

/-- The predicate `id = $1 AND tenant_id = $2`. -/
def Workspace.isRow (tenant id : GoString) (w : Workspace) : Bool :=
  w.id = id && w.tenantID = tenant

variable {tenant id : GoString} {w : Workspace}

theorem Workspace.isRow_iff :
    w.isRow tenant id = true ↔ w.id = id ∧ w.tenantID = tenant := by
  simp [Workspace.isRow]

/-- A rewriting of a row that leaves the columns of the unique constraints alone. -/
def KeepsKey (f : Workspace → Workspace) : Prop :=
  ∀ w, (f w).id = w.id ∧ (f w).tenantID = w.tenantID ∧ (f w).name = w.name

namespace Workspaces

/-- The table before the first insert. -/
def empty : Workspaces := ⟨[], .nil⟩

/-- `GetWorkspace` (`queries.sql:88-89`). -/
def getWorkspace (c : Workspaces) (tenant id : GoString) : Option Workspace :=
  c.rows.find? (Workspace.isRow tenant id)

/-- `GetWorkspaceByName` (`queries.sql:91-92`). -/
def getWorkspaceByName (c : Workspaces) (tenant name : GoString) : Option Workspace :=
  c.rows.find? (fun w => w.name = name && w.tenantID = tenant)

/-- `UPDATE workspace SET ... WHERE id = $1 AND tenant_id = $2`, row by row. -/
def rewrite (tenant id : GoString) (f : Workspace → Workspace) (w : Workspace) : Workspace :=
  if w.isRow tenant id then f w else w

variable {f : Workspace → Workspace} {c : Workspaces} {hf : KeepsKey f}

/-- A row is related to what becomes of it, if it is to itself and to its new values. -/
theorem rewrite_rel {R : Workspace → Workspace → Prop} (hrefl : R w w)
    (hf : w.isRow tenant id = true → R w (f w)) : R w (rewrite tenant id f w) := by
  unfold rewrite
  split
  · exact hf ‹_›
  · exact hrefl

theorem rewrite_keepsKey (tenant id : GoString) (hf : KeepsKey f) :
    KeepsKey (rewrite tenant id f) :=
  fun w => rewrite_rel (R := fun v w => w.id = v.id ∧ w.tenantID = v.tenantID ∧ w.name = v.name)
    ⟨rfl, rfl, rfl⟩ fun _ => hf w

/-- An update of columns outside the unique constraints. -/
def update (c : Workspaces) (tenant id : GoString) (f : Workspace → Workspace)
    (hf : KeepsKey f) : Workspaces where
  rows := c.rows.map (rewrite tenant id f)
  unique := by
    refine pairwise_map.mpr (c.unique.imp ?_)
    intro a b hab
    obtain ⟨ha, hta, hna⟩ := rewrite_keepsKey tenant id hf a
    obtain ⟨hb, htb, hnb⟩ := rewrite_keepsKey tenant id hf b
    unfold Workspace.Distinct
    rw [ha, hb, hta, htb, hna, hnb]
    exact hab

/-- The row `CreateWorkspace` inserts, with the column defaults of the schema
(`queries.sql:83-86`). -/
def newWorkspace (id tenant name owner : GoString) (access : AccessScope) : Workspace where
  id := id
  tenantID := tenant
  name := name
  ownerUserID := owner
  accessScope := access
  nextUID := 2000
  generation := 0
  taskRef := none
  status := .stopped
  lastError := none
  warmHoldSecs := 3600
  warmHoldUntil := none
  snapshotID := none

/-- The insert, refused by the primary key or `UNIQUE (tenant_id, name)`. -/
def createWorkspace (c : Workspaces) (w : Workspace) : Option Workspaces :=
  if h : ∃ v ∈ c.rows, v.id = w.id ∨ v.tenantID = w.tenantID ∧ v.name = w.name then none
  else some {
    rows := c.rows ++ [w]
    unique := by
      refine pairwise_append.mpr ⟨c.unique, pairwise_singleton _ _, ?_⟩
      intro v hv x hx
      rw [mem_singleton.mp hx]
      exact ⟨fun hid => h ⟨v, hv, .inl hid⟩, fun hkey => h ⟨v, hv, .inr hkey⟩⟩ }

/-- `RenameWorkspace` (`queries.sql:123-125`), refused by `UNIQUE (tenant_id, name)`. -/
def renameWorkspace (c : Workspaces) (tenant id name : GoString) : Option Workspaces :=
  if h : ∃ v ∈ c.rows, v.id ≠ id ∧ v.tenantID = tenant ∧ v.name = name then none
  else some {
    rows := c.rows.map (rewrite tenant id (fun w => { w with name := name }))
    unique := by
      have hrow : ∀ w : Workspace, w.isRow tenant id = true → w.id = id ∧ w.tenantID = tenant :=
        fun w hw => Workspace.isRow_iff.mp hw
      have hnot : ∀ v ∈ c.rows, v.id ≠ id → ¬(v.tenantID = tenant ∧ v.name = name) :=
        fun v hv hid hkey => h ⟨v, hv, hid, hkey⟩
      refine pairwise_map.mpr (c.unique.imp_of_mem ?_)
      intro a b ha hb hab
      unfold rewrite Workspace.Distinct
      split
      · rename_i hra
        obtain ⟨haid, hat⟩ := hrow a hra
        split
        · rename_i hrb
          exact absurd (haid.trans (hrow b hrb).1.symm) hab.1
        · refine ⟨hab.1, fun hkey => ?_⟩
          have hbid : b.id ≠ id := fun hbid => hab.1 (haid.trans hbid.symm)
          exact hnot b hb hbid ⟨hkey.1.symm.trans hat, hkey.2.symm⟩
      · split
        · rename_i hrb
          obtain ⟨hbid, hbt⟩ := hrow b hrb
          refine ⟨hab.1, fun hkey => ?_⟩
          have haid : a.id ≠ id := fun haid => hab.1 (haid.trans hbid.symm)
          exact hnot a ha haid ⟨hkey.1.trans hbt, hkey.2⟩
        · exact hab }

/-- `SetWorkspaceStatus` (`queries.sql:142-144`): a status write clears `last_error`. -/
def setWorkspaceStatus (c : Workspaces) (tenant id : GoString) (status : WorkspaceStatus)
    (taskRef : GoString) : Workspaces :=
  c.update tenant id
    (fun w => { w with status := status, taskRef := nullable taskRef, lastError := none })
    (fun _ => ⟨rfl, rfl, rfl⟩)

/-- `FailWorkspacePlacement` (`queries.sql:156-158`). -/
def failWorkspacePlacement (c : Workspaces) (tenant id : GoString)
    (status : WorkspaceStatus) (taskRef reason : GoString) : Workspaces :=
  c.update tenant id
    (fun w => { w with status := status, taskRef := nullable taskRef, lastError := some reason })
    (fun _ => ⟨rfl, rfl, rfl⟩)

/-- `NextGeneration` (`queries.sql:214-217`). -/
def nextGeneration (c : Workspaces) (tenant id : GoString) : Workspaces :=
  c.update tenant id (fun w => { w with generation := w.generation + 1 })
    (fun _ => ⟨rfl, rfl, rfl⟩)

/-- `SetWarmHold` (`queries.sql:180-181`). -/
def setWarmHold (c : Workspaces) (tenant id : GoString) (till : Option Nat) : Workspaces :=
  c.update tenant id (fun w => { w with warmHoldUntil := till }) (fun _ => ⟨rfl, rfl, rfl⟩)

/-- `SetWorkspaceSnapshot` (`queries.sql:201-203`). -/
def setWorkspaceSnapshot (c : Workspaces) (tenant id : GoString)
    (snapshot : Option GoString) : Workspaces :=
  c.update tenant id (fun w => { w with snapshotID := snapshot }) (fun _ => ⟨rfl, rfl, rfl⟩)

/-- `DeleteWorkspace` (`queries.sql:219-220`). -/
def deleteWorkspace (c : Workspaces) (tenant id : GoString) : Workspaces where
  rows := c.rows.filter (fun w => !w.isRow tenant id)
  unique := c.unique.filter _

/-! ## Looking rows up -/

variable {a b : Workspace} {c' : Workspaces} {name : GoString}

theorem eq_of_id (ha : a ∈ c.rows) (hb : b ∈ c.rows) (hid : a.id = b.id) : a = b := by
  by_contra hne
  exact (c.unique.forall ha hb hne).1 hid

theorem eq_of_name (ha : a ∈ c.rows) (hb : b ∈ c.rows) (htenant : a.tenantID = b.tenantID)
    (hname : a.name = b.name) : a = b := by
  by_contra hne
  exact (c.unique.forall ha hb hne).2 ⟨htenant, hname⟩

theorem getWorkspace_eq_some :
    c.getWorkspace tenant id = some w ↔ w ∈ c.rows ∧ w.id = id ∧ w.tenantID = tenant := by
  constructor
  · intro h
    exact ⟨mem_of_find?_eq_some h, Workspace.isRow_iff.mp (find?_some h)⟩
  · rintro ⟨hmem, hid, htenant⟩
    cases hfind : c.getWorkspace tenant id with
    | none =>
      have hno := find?_eq_none.mp hfind w hmem
      exact absurd (Workspace.isRow_iff.mpr ⟨hid, htenant⟩) hno
    | some v =>
      have hv := Workspace.isRow_iff.mp (find?_some hfind)
      rw [eq_of_id (mem_of_find?_eq_some hfind) hmem (hv.1.trans hid.symm)]

theorem getWorkspaceByName_eq_some :
    c.getWorkspaceByName tenant name = some w ↔
      w ∈ c.rows ∧ w.name = name ∧ w.tenantID = tenant := by
  constructor
  · intro h
    refine ⟨mem_of_find?_eq_some h, ?_⟩
    simpa using find?_some h
  · rintro ⟨hmem, hname, htenant⟩
    cases hfind : c.getWorkspaceByName tenant name with
    | none =>
      have hno := find?_eq_none.mp hfind w hmem
      simp [hname, htenant] at hno
    | some v =>
      have hv : v.name = name ∧ v.tenantID = tenant := by simpa using find?_some hfind
      rw [eq_of_name (mem_of_find?_eq_some hfind) hmem (hv.2.trans htenant.symm)
        (hv.1.trans hname.symm)]

/-! ## What an update does -/

theorem mem_update :
    w ∈ (c.update tenant id f hf).rows ↔ ∃ v ∈ c.rows, rewrite tenant id f v = w := by
  simp only [update, mem_map]

theorem rewrite_of_isRow (h : w.isRow tenant id = true) : rewrite tenant id f w = f w := if_pos h

theorem renameWorkspace_rows (h : c.renameWorkspace tenant id name = some c') :
    c'.rows = c.rows.map (rewrite tenant id (fun w => { w with name := name })) := by
  unfold renameWorkspace at h
  split at h <;> cases h
  rfl

theorem createWorkspace_rows (h : c.createWorkspace w = some c') : c'.rows = c.rows ++ [w] := by
  unfold createWorkspace at h
  split at h <;> cases h
  rfl

/-- A key lookup finds the row the update left under that key. -/
theorem getWorkspace_update {t i : GoString} :
    (c.update tenant id f hf).getWorkspace t i =
      (c.getWorkspace t i).map (rewrite tenant id f) := by
  have hpred : (Workspace.isRow t i ∘ rewrite tenant id f) = Workspace.isRow t i := by
    funext w
    obtain ⟨hid, htenant, -⟩ := rewrite_keepsKey tenant id hf w
    simp only [Function.comp_apply, Workspace.isRow, hid, htenant]
  simp only [getWorkspace, update, find?_map, hpred]

/-- The row an update names, after it. -/
theorem getWorkspace_update_self :
    (c.update tenant id f hf).getWorkspace tenant id = (c.getWorkspace tenant id).map f := by
  rw [getWorkspace_update]
  cases hrow : c.getWorkspace tenant id with
  | none => rfl
  | some w =>
    have hw := Workspace.isRow_iff.mpr (getWorkspace_eq_some.mp hrow).2
    rw [Option.map_some, Option.map_some, rewrite_of_isRow hw]

section Self

variable {c : Workspaces} {tenant id : GoString}

variable {status : WorkspaceStatus} {taskRef : GoString}

@[simp] theorem getWorkspace_setWorkspaceStatus :
    (c.setWorkspaceStatus tenant id status taskRef).getWorkspace tenant id =
      (c.getWorkspace tenant id).map
        (fun w => { w with status := status, taskRef := nullable taskRef, lastError := none }) :=
  getWorkspace_update_self

@[simp] theorem getWorkspace_failWorkspacePlacement {reason : GoString} :
    (c.failWorkspacePlacement tenant id status taskRef reason).getWorkspace tenant id =
      (c.getWorkspace tenant id).map
        (fun w => { w with
          status := status, taskRef := nullable taskRef, lastError := some reason }) :=
  getWorkspace_update_self

@[simp] theorem getWorkspace_setWarmHold {till : Option Nat} :
    (c.setWarmHold tenant id till).getWorkspace tenant id =
      (c.getWorkspace tenant id).map (fun w => { w with warmHoldUntil := till }) :=
  getWorkspace_update_self

@[simp] theorem getWorkspace_setWorkspaceSnapshot {snapshot : Option GoString} :
    (c.setWorkspaceSnapshot tenant id snapshot).getWorkspace tenant id =
      (c.getWorkspace tenant id).map (fun w => { w with snapshotID := snapshot }) :=
  getWorkspace_update_self

end Self

end Workspaces

end Lemul.Store
