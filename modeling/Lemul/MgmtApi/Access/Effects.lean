import Lemul.MgmtApi.Access.Machine

/-!
# What a transaction changes

One lemma per statement and per transaction of `Lemul.MgmtApi.Access.Machine`: which rows
there are afterwards, in terms of those before.
-/

namespace Lemul.MgmtApi.Access

open Store

section Statements

variable {c c' : Cell} {workspaceID userID tenantID id : GoString}

variable {w : Workspace}

theorem updateWorkspace_ok {f : Workspace → Workspace} {hf : KeepsKey f}
    (h : Tx.updateWorkspace tenantID id f hf c = .ok (w, c')) :
    c'.workspaces = c.workspaces.update tenantID id f hf ∧ c'.members = c.members := by
  unfold Tx.updateWorkspace at h
  split at h <;> cases h
  exact ⟨rfl, rfl⟩

theorem nextWorkspaceUID_ok {n : Nat}
    (h : Tx.nextWorkspaceUID tenantID id c = .ok (n, c')) :
    c'.workspaces = c.workspaces.update tenantID id (fun w => { w with nextUID := w.nextUID + 1 })
      (fun _ => ⟨rfl, rfl, rfl⟩) ∧ c'.members = c.members := by
  obtain ⟨w, c₁, hupdate, hrest⟩ := Tx.bind_ok h
  have hcell := updateWorkspace_ok hupdate
  split at hrest <;> cases hrest
  exact hcell

theorem createWorkspace_ok {w' : Workspace} (h : Tx.createWorkspace w c = .ok (w', c')) :
    c.workspaces.createWorkspace w = some c'.workspaces ∧ c'.members = c.members ∧ w' = w := by
  unfold Tx.createWorkspace at h
  split at h <;> cases h
  rename_i t ht
  exact ⟨ht, rfl, rfl⟩

theorem renameWorkspace_ok {name : GoString}
    (h : Tx.renameWorkspace tenantID id name c = .ok (w, c')) :
    c.workspaces.renameWorkspace tenantID id name = some c'.workspaces ∧
      c'.members = c.members := by
  unfold Tx.renameWorkspace at h
  split at h <;> cases h
  rename_i t _ ht
  exact ⟨ht, rfl⟩

theorem addMember_ok {role : Role} {x : Unit}
    (h : Tx.addMember workspaceID userID tenantID role c = .ok (x, c')) :
    c'.members = c.members.addMember workspaceID userID tenantID role ∧
      c'.workspaces = c.workspaces := by
  unfold Tx.addMember at h
  split at h <;> cases h
  exact ⟨rfl, rfl⟩

theorem ensureMember_ok {role : Role} {x : Unit}
    (h : Tx.ensureMember workspaceID userID tenantID role c = .ok (x, c')) :
    c'.members = c.members.ensureMember workspaceID userID tenantID role ∧
      c'.workspaces = c.workspaces := by
  unfold Tx.ensureMember at h
  split at h <;> cases h
  exact ⟨rfl, rfl⟩

theorem setMemberUID_ok {uid : Nat} {x : Option WorkspaceMember}
    (h : Tx.setMemberUID workspaceID userID tenantID uid c = .ok (x, c')) :
    (c'.members = c.members ∨
      ∃ hfree, c'.members = c.members.setMemberUID workspaceID userID tenantID uid hfree) ∧
      c'.workspaces = c.workspaces := by
  unfold Tx.setMemberUID at h
  split at h
  · cases h
    exact ⟨.inl rfl, rfl⟩
  · split at h <;> cases h
    rename_i hfree
    exact ⟨.inr ⟨hfree, rfl⟩, rfl⟩

theorem createSession_ok {x y : Session} (h : Tx.createSession x c = .ok (y, c')) :
    c.sessions.createSession x = some c'.sessions ∧ c'.members = c.members ∧
      c'.workspaces = c.workspaces ∧ y = x := by
  unfold Tx.createSession at h
  split at h
  · cases h
  · rename_i t ht
    split at h <;> cases h
    exact ⟨ht, rfl, rfl, rfl⟩

end Statements

section Transactions

variable {c c' : Cell} {workspaceID userID tenantID : GoString}

theorem createWorkspaceTx_ok {w w' : Workspace} (h : createWorkspaceTx w c = .ok (w', c')) :
    c.workspaces.createWorkspace w = some c'.workspaces ∧
      c'.members = c.members.addMember w.id w.ownerUserID w.tenantID .owner := by
  obtain ⟨v, c₁, hcreate, hrest⟩ := Tx.bind_ok h
  obtain ⟨hrow, hmembers, rfl⟩ := createWorkspace_ok hcreate
  obtain ⟨x, c₂, hadd, hend⟩ := Tx.bind_ok hrest
  obtain ⟨hadded, hworkspaces⟩ := addMember_ok hadd
  cases hend
  rw [hadded, hmembers, hworkspaces]
  exact ⟨hrow, rfl⟩

theorem putMemberTx_ok {role : Role} {x : Unit}
    (h : putMemberTx tenantID workspaceID userID role c = .ok (x, c')) :
    c'.members = c.members.addMember workspaceID userID tenantID role ∧
      c'.workspaces = c.workspaces := by
  obtain ⟨m, c₁, hread, hadd⟩ := Tx.bind_ok h
  obtain ⟨-, rfl⟩ := Tx.one_ok hread
  exact addMember_ok hadd

/-- The columns that no modelled statement changes once the row is there. -/
def SameRecord (v w : Workspace) : Prop :=
  v.id = w.id ∧ v.tenantID = w.tenantID ∧ v.ownerUserID = w.ownerUserID

/-- Two workspace rows that `accessTo` does not tell apart. -/
def SameScope (v w : Workspace) : Prop := v.id = w.id ∧ v.accessScope = w.accessScope

/-- Rows of `t'` are those of `t`, one by one, with other values in columns that `R` does not
look at. -/
structure RowsKept (R : Workspace → Workspace → Prop) (t t' : Workspaces) : Prop where
  back : ∀ w ∈ t'.rows, ∃ v ∈ t.rows, R v w
  forth : ∀ v ∈ t.rows, ∃ w ∈ t'.rows, R v w

variable {R : Workspace → Workspace → Prop}

theorem RowsKept.refl (hR : ∀ w, R w w) (t : Workspaces) :
    RowsKept R t t := ⟨fun w hw => ⟨w, hw, hR w⟩, fun w hw => ⟨w, hw, hR w⟩⟩

theorem rowsKept_rewrite {t t' : Workspaces} {id : GoString} {f : Workspace → Workspace}
    (h : t'.rows = t.rows.map (Workspaces.rewrite tenantID id f))
    (hR : ∀ w, R w w) (hf : ∀ w, R w (f w)) : RowsKept R t t' := by
  have hrow : ∀ w, R w (Workspaces.rewrite tenantID id f w) :=
    fun w => Workspaces.rewrite_rel (hR w) fun _ => hf w
  constructor
  · intro w hw
    rw [h] at hw
    obtain ⟨v, hv, rfl⟩ := List.mem_map.mp hw
    exact ⟨v, hv, hrow v⟩
  · intro v hv
    rw [h]
    exact ⟨_, List.mem_map_of_mem hv, hrow v⟩

/-- Allocating a uid makes the row exist, and otherwise touches the uid and the counter. -/
theorem resolveIdentityTx_ok {m : WorkspaceMember}
    (h : resolveIdentityTx tenantID workspaceID userID c = .ok (m, c')) :
    (c'.members = c.members.ensureMember workspaceID userID tenantID .user ∨
      ∃ uid hfree, c'.members = (c.members.ensureMember workspaceID userID tenantID
        .user).setMemberUID workspaceID userID tenantID uid hfree) ∧
    RowsKept SameRecord c.workspaces c'.workspaces ∧
    RowsKept SameScope c.workspaces c'.workspaces := by
  obtain ⟨x, c₁, hensure, hread⟩ := Tx.bind_ok h
  obtain ⟨hmembers, hworkspaces⟩ := ensureMember_ok hensure
  obtain ⟨row, c₂, hrow, hrest⟩ := Tx.bind_ok hread
  obtain ⟨-, rfl⟩ := Tx.one_ok hrow
  split at hrest
  · cases hrest
    rw [hmembers, hworkspaces]
    exact ⟨.inl rfl, .refl (fun _ => ⟨rfl, rfl, rfl⟩) _, .refl (fun _ => ⟨rfl, rfl⟩) _⟩
  · obtain ⟨next, c₃, hnext, hclaim⟩ := Tx.bind_ok hrest
    obtain ⟨hcounter, hsame⟩ := nextWorkspaceUID_ok hnext
    obtain ⟨claimed, c₄, hset, hend⟩ := Tx.bind_ok hclaim
    obtain ⟨hclaimed, hkept⟩ := setMemberUID_ok hset
    have hfinal : c' = c₄ := by
      cases claimed with
      | none => exact (Tx.one_ok hend).2
      | some m =>
        cases hend
        rfl
    have hrows : c'.workspaces.rows = c.workspaces.rows.map (Workspaces.rewrite tenantID
        workspaceID fun w => { w with nextUID := w.nextUID + 1 }) := by
      rw [hfinal, hkept, hcounter, hworkspaces]
      rfl
    rw [hsame, hmembers] at hclaimed
    refine ⟨?_, ?_, ?_⟩
    · rw [hfinal]
      exact hclaimed.imp id fun ⟨hfree, hrow⟩ => ⟨next, hfree, hrow⟩
    · exact rowsKept_rewrite hrows (fun _ => ⟨rfl, rfl, rfl⟩) fun _ => ⟨rfl, rfl, rfl⟩
    · exact rowsKept_rewrite hrows (fun _ => ⟨rfl, rfl⟩) fun _ => ⟨rfl, rfl⟩

end Transactions

/-! ## What an answered operation did -/

section Commit

variable {α : Type} [DecidableEq α] {tx : Tx α} {r : Except TxError α}

/-- A transaction either left the cell alone, or was answered with what it computed. -/
theorem commit_cases {c c' : Cell} (h : commit tx r c = some c') :
    (r.isOk = false ∧ c' = c) ∨ ∃ a, r = .ok a ∧ tx c = .ok (a, c') := by
  unfold commit at h
  split at h
  · cases h
    exact .inl ⟨rfl, rfl⟩
  · split at h
    · split at h <;> cases h
      exact .inl ⟨rfl, rfl⟩
    · cases h
  · split at h
    · cases h
    · rename_i b c₁ htx
      split at h <;> cases h
      rename_i hab
      exact .inr ⟨_, rfl, by rw [htx, hab]⟩

variable {s s' : State}

theorem run_cases (h : s.run tx r = some s') :
    s' = s ∨ ∃ a c, r = .ok a ∧ tx s.cell = .ok (a, c) ∧ s' = { s with cell := c } := by
  obtain ⟨c, hcommit, rfl⟩ := Option.map_eq_some_iff.mp h
  rcases commit_cases hcommit with ⟨-, rfl⟩ | ⟨a, hr, htx⟩
  · exact .inl rfl
  · exact .inr ⟨a, c, hr, htx, rfl⟩

theorem runAct_cases {act : Act} (h : s.runAct tx r act = some s') :
    s' = s ∨ ∃ a c, r = .ok a ∧ tx s.cell = .ok (a, c) ∧ s' = ⟨c, act :: s.acts, s.minted⟩ := by
  obtain ⟨c, hcommit, rfl⟩ := Option.map_eq_some_iff.mp h
  rcases commit_cases hcommit with ⟨hr, rfl⟩ | ⟨a, rfl, htx⟩
  · rw [hr]
    exact .inl rfl
  · exact .inr ⟨a, c, rfl, htx, rfl⟩

/-- A transaction that is answered with a value computed it. -/
theorem run_ok {a : α} (h : s.run tx (.ok a) = some s') :
    ∃ c, tx s.cell = .ok (a, c) ∧ s' = { s with cell := c } := by
  obtain ⟨c, hcommit, rfl⟩ := Option.map_eq_some_iff.mp h
  rcases commit_cases hcommit with ⟨hr, -⟩ | ⟨b, hb, htx⟩
  · cases hr
  · cases hb
    exact ⟨c, htx, rfl⟩

/-- A query changes nothing. -/
theorem run_one {β : Type} [DecidableEq β] {row : Cell → Option β} {r : Except TxError β}
    (h : s.run (Tx.one row) r = some s') : s' = s := by
  rcases run_cases h with rfl | ⟨a, c, -, htx, rfl⟩
  · rfl
  · rw [(Tx.one_ok htx).2]

end Commit

/-- Everything an operation can do to the workspaces and their members, and the act it is. -/
inductive Change (s s' : State) : Op → Prop where
  | none {o : Op} (hworkspaces : s'.cell.workspaces = s.cell.workspaces)
      (hmembers : s'.cell.members = s.cell.members) (hacts : s'.acts = s.acts) : Change s s' o
  | created {w : Workspace} {access : AccessScope}
      (hcreate : s.cell.workspaces.createWorkspace w = some s'.cell.workspaces)
      (hmembers : s'.cell.members =
        s.cell.members.addMember w.id w.ownerUserID w.tenantID .owner)
      (hacts : s'.acts = ⟨w.tenantID, w.id, w.ownerUserID, true⟩ :: s.acts) :
      Change s s' (.createWorkspace w.tenantID w.name w.ownerUserID access)
  | rescoped {tenantID id : GoString} {access : AccessScope}
      (hrows : s'.cell.workspaces.rows = s.cell.workspaces.rows.map (Workspaces.rewrite
        tenantID id fun w => { w with accessScope := access }))
      (hmembers : s'.cell.members = s.cell.members) (hacts : s'.acts = s.acts) :
      Change s s' (.setAccessScope tenantID id access)
  | renamed {tenantID id name : GoString}
      (hrows : s'.cell.workspaces.rows = s.cell.workspaces.rows.map (Workspaces.rewrite
        tenantID id fun w => { w with name := name }))
      (hmembers : s'.cell.members = s.cell.members) (hacts : s'.acts = s.acts) :
      Change s s' (.renameWorkspace tenantID id name)
  | put {tenantID workspaceID userID : GoString} {role : Role}
      (hmembers : s'.cell.members = s.cell.members.addMember workspaceID userID tenantID role)
      (hworkspaces : s'.cell.workspaces = s.cell.workspaces)
      (hacts : s'.acts = ⟨tenantID, workspaceID, userID, true⟩ :: s.acts) :
      Change s s' (.putMember tenantID workspaceID userID role)
  | removed {tenantID workspaceID userID : GoString}
      (hmembers : s'.cell.members = s.cell.members.removeMember workspaceID userID tenantID)
      (hworkspaces : s'.cell.workspaces = s.cell.workspaces)
      (hacts : s'.acts = ⟨tenantID, workspaceID, userID, false⟩ :: s.acts) :
      Change s s' (.removeMember tenantID workspaceID userID)
  | resolved {tenantID workspaceID userID : GoString} {m : WorkspaceMember}
      (htx : resolveIdentityTx tenantID workspaceID userID s.cell = .ok (m, s'.cell))
      (hacts : s'.acts = s.acts) : Change s s' (.resolveIdentity tenantID workspaceID userID)

theorem Change.same {s : State} {o : Op} : Change s s o := .none rfl rfl rfl

theorem exec_change (tid : Nat) {o : Op} {r : Res o} {s s' : State}
    (h : exec tid o r s = some s') : Change s s' o := by
  cases o with
  | getOrgMembership tenantID userID | getWorkspaceByName tenantID name
  | getWorkspace tenantID id | getMembership workspaceID userID tenantID
  | getSession tenantID id =>
    rw [run_one h]
    exact .same
  | createWorkspace tenantID name owner access =>
    cases r with
    | error e =>
      cases h
      exact .same
    | ok w =>
      simp only [exec] at h
      split at h
      · rename_i hw
        rcases runAct_cases h with rfl | ⟨w', c, -, htx, rfl⟩
        · exact .same
        · obtain ⟨hcreate, hmembers⟩ := createWorkspaceTx_ok htx
          have htenant : w.tenantID = tenantID := by rw [hw]; rfl
          have hname : w.name = name := by rw [hw]; rfl
          have howner : w.ownerUserID = owner := by rw [hw]; rfl
          subst htenant hname howner
          exact .created hcreate hmembers rfl
      · cases h
  | setAccessScope tenantID id access =>
    rcases run_cases h with rfl | ⟨w, c, -, htx, rfl⟩
    · exact .same
    · obtain ⟨hworkspaces, hmembers⟩ := updateWorkspace_ok htx
      exact .rescoped (congrArg Workspaces.rows hworkspaces) hmembers rfl
  | renameWorkspace tenantID id name =>
    rcases run_cases h with rfl | ⟨w, c, -, htx, rfl⟩
    · exact .same
    · obtain ⟨hrename, hmembers⟩ := renameWorkspace_ok htx
      exact .renamed (Workspaces.renameWorkspace_rows hrename) hmembers rfl
  | putMember tenantID workspaceID userID role =>
    rcases runAct_cases h with rfl | ⟨x, c, -, htx, rfl⟩
    · exact .same
    · obtain ⟨hmembers, hworkspaces⟩ := putMemberTx_ok htx
      exact .put hmembers hworkspaces rfl
  | removeMember tenantID workspaceID userID =>
    rcases runAct_cases h with rfl | ⟨x, c, -, htx, rfl⟩
    · exact .same
    · cases htx
      exact .removed rfl rfl rfl
  | createSession tenantID workspaceID userID =>
    cases r with
    | error e =>
      cases h
      exact .same
    | ok x =>
      simp only [exec] at h
      split at h
      · rcases run_cases h with rfl | ⟨y, c, -, htx, rfl⟩
        · exact .same
        · obtain ⟨-, hmembers, hworkspaces, -⟩ := createSession_ok htx
          exact .none hworkspaces hmembers rfl
      · cases h
  | resolveIdentity tenantID workspaceID userID =>
    rcases run_cases h with rfl | ⟨m, c, -, htx, rfl⟩
    · exact .same
    · exact .resolved htx rfl
  | readOrgSettings tenantID | outside a | startSession sessionID =>
    cases h
    exact .same
  | attachToken userID sessionID tenantID workspaceName orgSlug mode =>
    cases r with
    | error e | ok x =>
      cases h
      exact .none rfl rfl rfl

/-- Joining an organization leaves the workspaces and their members alone. -/
theorem env_tables {e : EnvMove} {s s' : State} (h : envStep e s = some s') :
    s'.cell.workspaces = s.cell.workspaces ∧ s'.cell.members = s.cell.members := by
  cases e with
  | joinOrg tenantID userID role =>
    cases h
    exact ⟨rfl, rfl⟩

end Lemul.MgmtApi.Access
