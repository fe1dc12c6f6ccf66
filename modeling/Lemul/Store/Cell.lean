import Lemul.Store.Member

/-!
# The cell and its transactions

The tables of one cell with the foreign keys between them (`schema.sql:207`, `:242`), and
the statements as steps of a transaction. A transaction (`store.InTenant`,
`store.go:142-164`) either commits as a whole or leaves the cell as it was; transactions
take effect one after the other.
-/

namespace Lemul.Store

/-- The tables that access to a workspace depends on. -/
structure Cell where
  workspaces : Workspaces
  orgMembers : OrgMembers
  members : Members
  sessions : Sessions
  member_workspace : ∀ m ∈ members.rows, ∃ w ∈ workspaces.rows, w.id = m.workspaceID
  session_workspace : ∀ s ∈ sessions.rows, ∃ w ∈ workspaces.rows, w.id = s.workspaceID

namespace Cell

/-- A cell in which people are in organizations and nothing else has happened. -/
def init (orgMembers : OrgMembers) : Cell where
  workspaces := .empty
  orgMembers := orgMembers
  members := ⟨[], .nil, nofun⟩
  sessions := ⟨[], .nil⟩
  member_workspace := nofun
  session_workspace := nofun

/-- The cell with another `workspace` table, in which no id got lost. -/
def withWorkspaces (c : Cell) (t : Workspaces)
    (h : ∀ w ∈ c.workspaces.rows, ∃ v ∈ t.rows, v.id = w.id) : Cell :=
  { c with
    workspaces := t
    member_workspace := by
      intro m hm
      obtain ⟨w, hw, hid⟩ := c.member_workspace m hm
      obtain ⟨v, hv, hvid⟩ := h w hw
      exact ⟨v, hv, hvid.trans hid⟩
    session_workspace := by
      intro s hs
      obtain ⟨w, hw, hid⟩ := c.session_workspace s hs
      obtain ⟨v, hv, hvid⟩ := h w hw
      exact ⟨v, hv, hvid.trans hid⟩ }

/-- A workspace of this id exists: what a foreign key on it asks for. -/
def hasWorkspace (c : Cell) (id : GoString) : Prop := ∃ w ∈ c.workspaces.rows, w.id = id

instance (c : Cell) (id : GoString) : Decidable (c.hasWorkspace id) :=
  inferInstanceAs (Decidable (∃ w ∈ c.workspaces.rows, w.id = id))

/-- The cell with another `workspace_member` table, whose rows are about workspaces that
exist. -/
def withMembers (c : Cell) (t : Members) (h : ∀ m ∈ t.rows, c.hasWorkspace m.workspaceID) :
    Cell :=
  { c with members := t, member_workspace := h }

/-- The cell with another `session` table. -/
def withSessions (c : Cell) (t : Sessions) (h : ∀ s ∈ t.rows, c.hasWorkspace s.workspaceID) :
    Cell :=
  { c with sessions := t, session_workspace := h }

/-- `ListOrgSessionsVisible` (`queries.sql:273-284`). -/
def listOrgSessionsVisible (c : Cell) (tenantID userID : GoString) : List Session :=
  c.sessions.rows.filter (fun s => s.tenantID = tenantID && (s.userID = userID ||
    c.members.rows.any (fun m => m.hasKey s.workspaceID userID && m.tenantID = tenantID &&
      m.role = .owner)))

/-- `ListWorkspaces` (`queries.sql:95-96`); the order is left out. -/
def listWorkspaces (c : Cell) (tenantID : GoString) : List Workspace :=
  c.workspaces.rows.filter (fun w => w.tenantID = tenantID)

/-- `ListWorkspacesForUser` (`queries.sql:108-117`). The query asks for no tenant of the
membership rows; the policy of their table (`schema.sql:443-448`) shows it those of the
transaction's. -/
def listWorkspacesForUser (c : Cell) (tenantID userID : GoString) : List Workspace :=
  let visible := c.members.rows.filter (fun m => m.tenantID = tenantID)
  c.workspaces.rows.filter (fun w => w.tenantID = tenantID &&
    (w.accessScope = .org || visible.any (fun m => m.hasKey w.id userID)))

end Cell

/-- Why a transaction failed: `store.ErrNotFound`, a unique violation, or anything else. -/
inductive TxError where
  | notFound
  | uniqueViolation
  | other (message : GoString)
  deriving DecidableEq, Repr

/-- A transaction, or a part of one. -/
abbrev Tx (α : Type) := StateT Cell (Except TxError) α

namespace Tx

variable {α β : Type}

/-- What a sequence of statements did is what its parts did, one after the other. -/
theorem bind_ok {x : Tx α} {f : α → Tx β} {c c' : Cell} {b : β}
    (h : (x >>= f) c = .ok (b, c')) : ∃ a c₁, x c = .ok (a, c₁) ∧ f a c₁ = .ok (b, c') := by
  change (x c).bind (fun y => f y.1 y.2) = .ok (b, c') at h
  cases hx : x c with
  | error e =>
    rw [hx] at h
    cases h
  | ok y =>
    rw [hx] at h
    exact ⟨y.1, y.2, rfl, h⟩

/-- `:one` queries answer `ErrNotFound` when no row matches. -/
def one (row : Cell → Option α) : Tx α := fun c =>
  match row c with
  | none => .error .notFound
  | some a => .ok (a, c)

theorem one_ok {row : Cell → Option α} {c c' : Cell} {a : α}
    (h : one row c = .ok (a, c')) : row c = some a ∧ c' = c := by
  unfold one at h
  split at h <;> cases h
  rename_i hrow
  exact ⟨hrow, rfl⟩

/-- `:many` queries answer the rows there are. -/
def many (rows : Cell → List α) : Tx (List α) := fun c => .ok (rows c, c)

def getOrgMembership (tenantID userID : GoString) : Tx OrgMember :=
  one (fun c => c.orgMembers.getOrgMembership tenantID userID)

def getWorkspace (tenantID id : GoString) : Tx Workspace :=
  one (fun c => c.workspaces.getWorkspace tenantID id)

def getWorkspaceByName (tenantID name : GoString) : Tx Workspace :=
  one (fun c => c.workspaces.getWorkspaceByName tenantID name)

def getMembership (workspaceID userID tenantID : GoString) : Tx WorkspaceMember :=
  one (fun c => c.members.getMembership workspaceID userID tenantID)

def getSession (tenantID id : GoString) : Tx Session :=
  one (fun c => c.sessions.getSession tenantID id)

/-- `CreateWorkspace` (`queries.sql:83-86`). -/
def createWorkspace (w : Workspace) : Tx Workspace := fun c =>
  match h : c.workspaces.createWorkspace w with
  | none => .error .uniqueViolation
  | some t => .ok (w, c.withWorkspaces t (by
      intro v hv
      rw [Workspaces.createWorkspace_rows h]
      exact ⟨v, List.mem_append_left _ hv, rfl⟩))

/-- `UPDATE workspace SET ... RETURNING *`. -/
def updateWorkspace (tenantID id : GoString) (f : Workspace → Workspace) (hf : KeepsKey f) :
    Tx Workspace := fun c =>
  match c.workspaces.getWorkspace tenantID id with
  | none => .error .notFound
  | some w => .ok (f w, c.withWorkspaces (c.workspaces.update tenantID id f hf) (by
      intro v hv
      exact ⟨_, Workspaces.mem_update.mpr ⟨v, hv, rfl⟩,
        (Workspaces.rewrite_keepsKey tenantID id hf v).1⟩))

/-- `SetWorkspaceAccessScope` (`queries.sql:131-133`). -/
def setWorkspaceAccessScope (tenantID id : GoString) (access : AccessScope) : Tx Workspace :=
  updateWorkspace tenantID id (fun w => { w with accessScope := access })
    (fun _ => ⟨rfl, rfl, rfl⟩)

/-- `NextWorkspaceUID` (`queries.sql:309-312`): the counter's value before the increment.
The column is an `integer`. -/
def nextWorkspaceUID (tenantID id : GoString) : Tx Nat := do
  let w ← updateWorkspace tenantID id (fun w => { w with nextUID := w.nextUID + 1 })
    (fun _ => ⟨rfl, rfl, rfl⟩)
  if w.nextUID < 2 ^ 31 then pure (w.nextUID - 1)
  else throw (.other "integer out of range")

/-- `RenameWorkspace` (`queries.sql:123-125`). -/
def renameWorkspace (tenantID id name : GoString) : Tx Workspace := fun c =>
  match c.workspaces.getWorkspace tenantID id,
    h : c.workspaces.renameWorkspace tenantID id name with
  | none, _ => .error .notFound
  | some _, none => .error .uniqueViolation
  | some w, some t => .ok ({ w with name := name }, c.withWorkspaces t (by
      intro v hv
      rw [Workspaces.renameWorkspace_rows h]
      refine ⟨_, List.mem_map.mpr ⟨v, hv, rfl⟩, ?_⟩
      unfold Workspaces.rewrite
      split <;> rfl))

/-- `AddMember` (`queries.sql:222-226`). -/
def addMember (workspaceID userID tenantID : GoString) (role : Role) : Tx Unit := fun c =>
  if h : c.hasWorkspace workspaceID then
    .ok ((), c.withMembers (c.members.addMember workspaceID userID tenantID role) (by
      intro m hm
      rcases Members.role_of_mem_addMember hm with hold | ⟨hnew, -⟩
      · exact c.member_workspace m hold
      · rw [hnew]
        exact h))
  else .error (.other "violates foreign key constraint")

/-- `EnsureMember` (`queries.sql:296-299`). -/
def ensureMember (workspaceID userID tenantID : GoString) (role : Role) : Tx Unit := fun c =>
  if h : c.hasWorkspace workspaceID then
    .ok ((), c.withMembers (c.members.ensureMember workspaceID userID tenantID role) (by
      intro m hm
      rcases Members.mem_ensureMember hm with hold | rfl
      · exact c.member_workspace m hold
      · exact h))
  else .error (.other "violates foreign key constraint")

/-- `RemoveMember` (`queries.sql:228-229`). -/
def removeMember (workspaceID userID tenantID : GoString) : Tx Unit := fun c =>
  .ok ((), c.withMembers (c.members.removeMember workspaceID userID tenantID)
    (fun m hm => c.member_workspace m (Members.mem_removeMember.mp hm).1))

/-- `SetMemberUID` (`queries.sql:319-322`). -/
def setMemberUID (workspaceID userID tenantID : GoString) (uid : Nat) :
    Tx (Option WorkspaceMember) := fun c =>
  match c.members.rows.find? (Members.awaitsUID workspaceID userID tenantID) with
  | none => .ok (none, c)
  | some m =>
      if h : c.members.uidFree workspaceID uid then
        .ok (some { m with uid := some uid },
          c.withMembers (c.members.setMemberUID workspaceID userID tenantID uid h) (by
            intro v hv
            obtain ⟨old, hold, hsame⟩ := Members.mem_setMemberUID hv
            rw [← hsame.1]
            exact c.member_workspace old hold))
      else .error .uniqueViolation

/-- `CreateSession` (`queries.sql:244-247`). -/
def createSession (s : Session) : Tx Session := fun c =>
  match h : c.sessions.createSession s with
  | none => .error .uniqueViolation
  | some t =>
      if hfk : c.hasWorkspace s.workspaceID then
        .ok (s, c.withSessions t (by
          intro v hv
          rw [Sessions.createSession_rows h] at hv
          rcases mem_concat.mp hv with hold | rfl
          · exact c.session_workspace v hold
          · exact hfk))
      else .error (.other "violates foreign key constraint")

end Tx

end Lemul.Store
