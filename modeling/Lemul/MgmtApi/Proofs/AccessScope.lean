import Lemul.MgmtApi.Access.Effects
import Lemul.MgmtApi.Access.Handlers

/-!
# Access scopes and removals

`accessTo` lets a membership row win over the access scope, and `resolveIdentity` writes
such a row to have somewhere to put a uid. So a row can admit somebody whom no owner
added, or whom one removed: the rows, not the scope, say who may use a workspace.

In the runs whose steps meet `grantsOnlyExplicitly` the rows are what the owners said and
agree with the scope (`RowsHonoured`), and `accessTo` gives the answer the scope promises.
-/

namespace Lemul.MgmtApi.Access

open Store List Prog Workspaces Lemul.System

/-- No step makes a row say more than an owner said, or than the scope admits: a uid is
allocated only to a user who has a row, a plain member is added only while the scope is
not `owner`, and the scope becomes `owner` only where every row has that role. -/
def grantsOnlyExplicitly (s : State) : Label Op Res EnvMove Request → Prop
  | .thread _ (.resolveIdentity tenantID workspaceID userID) _ =>
      (s.cell.members.getMembership workspaceID userID tenantID).isSome = true
  | .thread _ (.putMember _ workspaceID _ .user) _ =>
      ∀ w ∈ s.cell.workspaces.rows, w.id = workspaceID → w.accessScope ≠ .owner
  | .thread _ (.setAccessScope _ workspaceID .owner) _ =>
      ∀ m ∈ s.cell.members.rows, m.workspaceID = workspaceID → m.role = .owner
  | _ => True

instance (s : State) (l : Label Op Res EnvMove Request) :
    Decidable (grantsOnlyExplicitly s l) := by
  unfold grantsOnlyExplicitly
  split <;> infer_instance

/-- Every row was last added by an owner, and a workspace of scope `owner` has no others'
rows. -/
structure RowsHonoured (s : State) : Prop where
  owner_scope : ∀ w ∈ s.cell.workspaces.rows, w.accessScope = .owner →
    ∀ m ∈ s.cell.members.rows, m.workspaceID = w.id → m.role = .owner
  explicit : ∀ m ∈ s.cell.members.rows,
    ∃ a, s.lastAct m.tenantID m.workspaceID m.userID = some a ∧ a.added = true

theorem rowsHonoured_init (orgMembers : OrgMembers) : RowsHonoured (.init orgMembers) where
  owner_scope := nofun
  explicit := nofun

/-! ## The last act -/

section Step

variable {s s' : State} {act : Act} {tenantID workspaceID userID : GoString}

theorem lastAct_cons_self (hacts : s'.acts = act :: s.acts) :
    s'.lastAct act.tenantID act.workspaceID act.userID = some act := by
  simp [State.lastAct, hacts]

theorem lastAct_cons_of_ne (hacts : s'.acts = act :: s.acts)
    (h : ¬(act.tenantID = tenantID ∧ act.workspaceID = workspaceID ∧ act.userID = userID)) :
    s'.lastAct tenantID workspaceID userID = s.lastAct tenantID workspaceID userID := by
  simp only [State.lastAct, hacts]
  rw [find?_cons_of_neg]
  simp only [Bool.and_eq_true, decide_eq_true_eq]
  exact fun hact => h ⟨hact.1.1, hact.1.2, hact.2⟩

/-- Recording an act that adds keeps what was added. -/
theorem added_cons (hacts : s'.acts = act :: s.acts) (hadd : act.added = true)
    (h : ∃ a, s.lastAct tenantID workspaceID userID = some a ∧ a.added = true) :
    ∃ a, s'.lastAct tenantID workspaceID userID = some a ∧ a.added = true := by
  by_cases hact : act.tenantID = tenantID ∧ act.workspaceID = workspaceID ∧ act.userID = userID
  · obtain ⟨rfl, rfl, rfl⟩ := hact
    exact ⟨act, lastAct_cons_self hacts, hadd⟩
  · rw [lastAct_cons_of_ne hacts hact]
    exact h

/-! ## One step -/

/-- A change to columns that neither `accessTo` nor the roles depend on. -/
theorem RowsHonoured.of_same (h : RowsHonoured s)
    (hw : ∀ w ∈ s'.cell.workspaces.rows, ∃ v ∈ s.cell.workspaces.rows, SameScope v w)
    (hm : ∀ m ∈ s'.cell.members.rows, ∃ v ∈ s.cell.members.rows, v.SameGrant m)
    (hacts : s'.acts = s.acts) : RowsHonoured s' := by
  constructor
  · intro w hmem hscope m hrow hid
    obtain ⟨v, hv, hvid, hvscope⟩ := hw w hmem
    obtain ⟨u, hu, huw, -, -, hrole⟩ := hm m hrow
    rw [← hrole]
    exact h.owner_scope v hv (hvscope.trans hscope) u hu (huw.trans (hid.trans hvid.symm))
  · intro m hrow
    obtain ⟨u, hu, huw, huu, hut, -⟩ := hm m hrow
    rw [← huw, ← huu, ← hut, State.lastAct, hacts]
    exact h.explicit u hu

variable {m : WorkspaceMember} {w : Workspace} {role : Role}

/-- After an explicit add the rows are still the owners' doing. -/
theorem added_addMember (h : RowsHonoured s)
    (hmembers : s'.cell.members = s.cell.members.addMember workspaceID userID tenantID role)
    (hacts : s'.acts = ⟨tenantID, workspaceID, userID, true⟩ :: s.acts)
    (hm : m ∈ s'.cell.members.rows) :
    ∃ a, s'.lastAct m.tenantID m.workspaceID m.userID = some a ∧ a.added = true := by
  rw [hmembers] at hm
  rcases Members.mem_addMember hm with ⟨hold, -⟩ | ⟨v, hv, -, rfl⟩ | rfl
  · exact added_cons hacts rfl (h.explicit m hold)
  · exact added_cons hacts rfl (h.explicit v hv)
  · exact ⟨_, lastAct_cons_self hacts, rfl⟩

/-- A workspace that is created has no row but its owner's: the foreign key of the rows
there are says that they are about other workspaces. -/
theorem rowsHonoured_created (h : RowsHonoured s)
    (hcreate : s.cell.workspaces.createWorkspace w = some s'.cell.workspaces)
    (hmembers : s'.cell.members = s.cell.members.addMember w.id w.ownerUserID w.tenantID .owner)
    (hacts : s'.acts = ⟨w.tenantID, w.id, w.ownerUserID, true⟩ :: s.acts) :
    RowsHonoured s' := by
  have hfresh : ∀ m ∈ s.cell.members.rows, m.workspaceID ≠ w.id := by
    intro m hm hid
    obtain ⟨v, hv, hvid⟩ := s.cell.member_workspace m hm
    unfold createWorkspace at hcreate
    split at hcreate
    · cases hcreate
    · rename_i hnone
      exact hnone ⟨v, hv, .inl (hvid.trans hid)⟩
  refine ⟨fun x hx hscope m hm hid => ?_, fun m => added_addMember h hmembers hacts⟩
  rw [createWorkspace_rows hcreate] at hx
  rw [hmembers] at hm
  rcases Members.role_of_mem_addMember hm with hold | ⟨-, hrole⟩
  · rcases mem_concat.mp hx with hxold | rfl
    · exact h.owner_scope x hxold hscope m hold hid
    · exact absurd hid (hfresh m hold)
  · exact hrole

theorem rowsHonoured_rescoped (h : RowsHonoured s) {id : GoString} {access : AccessScope}
    (hcond : access = .owner → ∀ m ∈ s.cell.members.rows, m.workspaceID = id → m.role = .owner)
    (hrows : s'.cell.workspaces.rows = s.cell.workspaces.rows.map
      (rewrite tenantID id fun w => { w with accessScope := access }))
    (hmembers : s'.cell.members = s.cell.members) (hacts : s'.acts = s.acts) :
    RowsHonoured s' := by
  constructor
  · intro x hx hscope m hm hid
    rw [hrows] at hx
    rw [hmembers] at hm
    obtain ⟨v, hv, rfl⟩ := mem_map.mp hx
    unfold rewrite at hscope hid
    split at hscope
    · rename_i hrow
      rw [if_pos hrow] at hid
      exact hcond hscope m hm (hid.trans (Workspace.isRow_iff.mp hrow).1)
    · rename_i hrow
      rw [if_neg hrow] at hid
      exact h.owner_scope v hv hscope m hm hid
  · rw [hmembers]
    unfold State.lastAct
    rw [hacts]
    exact h.explicit

theorem rowsHonoured_put (h : RowsHonoured s) (hcond : role = .user →
      ∀ w ∈ s.cell.workspaces.rows, w.id = workspaceID → w.accessScope ≠ .owner)
    (hmembers : s'.cell.members = s.cell.members.addMember workspaceID userID tenantID role)
    (hworkspaces : s'.cell.workspaces = s.cell.workspaces)
    (hacts : s'.acts = ⟨tenantID, workspaceID, userID, true⟩ :: s.acts) : RowsHonoured s' := by
  refine ⟨fun w hw hscope m hm hid => ?_, fun m => added_addMember h hmembers hacts⟩
  rw [hworkspaces] at hw
  rw [hmembers] at hm
  rcases Members.role_of_mem_addMember hm with hold | ⟨hworkspace, hrole⟩
  · exact h.owner_scope w hw hscope m hold hid
  · cases role with
    | owner => exact hrole
    | user => exact absurd hscope (hcond rfl w hw (hid.symm.trans hworkspace))

/-- A removal takes away exactly the rows that its act is about. -/
theorem rowsHonoured_removed (h : RowsHonoured s)
    (hmembers : s'.cell.members = s.cell.members.removeMember workspaceID userID tenantID)
    (hworkspaces : s'.cell.workspaces = s.cell.workspaces)
    (hacts : s'.acts = ⟨tenantID, workspaceID, userID, false⟩ :: s.acts) : RowsHonoured s' := by
  constructor <;> rw [hmembers]
  · rw [hworkspaces]
    intro w hw hscope m hm hid
    exact h.owner_scope w hw hscope m (Members.mem_removeMember.mp hm).1 hid
  · intro m hm
    obtain ⟨hold, hother⟩ := Members.mem_removeMember.mp hm
    rw [lastAct_cons_of_ne hacts]
    · exact h.explicit m hold
    · rintro ⟨htenant, hworkspace, huser⟩
      exact hother ⟨WorkspaceMember.hasKey_iff.mpr ⟨hworkspace.symm, huser.symm⟩, htenant.symm⟩

/-- Allocating a uid to somebody who has a row writes no other. -/
theorem rowsHonoured_resolved (h : RowsHonoured s)
    (hcond : (s.cell.members.getMembership workspaceID userID tenantID).isSome = true)
    (htx : resolveIdentityTx tenantID workspaceID userID s.cell = .ok (m, s'.cell))
    (hacts : s'.acts = s.acts) : RowsHonoured s' := by
  obtain ⟨hmembers, -, hworkspaces⟩ := resolveIdentityTx_ok htx
  obtain ⟨v, hv⟩ := Option.isSome_iff_exists.mp hcond
  obtain ⟨hmem, hw, hu, -⟩ := Members.getMembership_eq_some hv
  have hexists : ∃ m ∈ s.cell.members.rows, m.hasKey workspaceID userID = true :=
    ⟨v, hmem, WorkspaceMember.hasKey_iff.mpr ⟨hw, hu⟩⟩
  refine h.of_same hworkspaces.back (fun m hm => ?_) hacts
  rcases hmembers with hrows | ⟨uid, hfree, hrows⟩
  · rw [hrows, Members.ensureMember_of_exists hexists] at hm
    exact ⟨m, hm, .refl m⟩
  · rw [hrows] at hm
    obtain ⟨u, hu, hsame⟩ := Members.mem_setMemberUID hm
    rw [Members.ensureMember_of_exists hexists] at hu
    exact ⟨u, hu, hsame⟩

end Step

/-- One operation keeps the rows honoured, under the condition. -/
theorem rowsHonoured_exec (tid : Nat) (o : Op) (r : Res o) (s s' : State) (h : RowsHonoured s)
    (hcond : grantsOnlyExplicitly s (.thread tid o r)) (hexec : exec tid o r s = some s') :
    RowsHonoured s' := by
  cases exec_change tid hexec with
  | none hworkspaces hmembers hacts =>
    refine h.of_same ?_ ?_ hacts
    · exact fun w hw => ⟨w, hworkspaces ▸ hw, rfl, rfl⟩
    · exact fun m hm => ⟨m, hmembers ▸ hm, .refl m⟩
  | created hcreate hmembers hacts => exact rowsHonoured_created h hcreate hmembers hacts
  | rescoped hrows hmembers hacts =>
    refine rowsHonoured_rescoped h ?_ hrows hmembers hacts
    rintro rfl
    exact hcond
  | renamed hrows hmembers hacts =>
    refine h.of_same ?_ (fun m hm => ⟨m, hmembers ▸ hm, .refl m⟩) hacts
    exact (rowsKept_rewrite hrows (fun _ => ⟨rfl, rfl⟩) fun _ => ⟨rfl, rfl⟩).back
  | put hmembers hworkspaces hacts =>
    refine rowsHonoured_put h ?_ hmembers hworkspaces hacts
    rintro rfl
    exact hcond
  | removed hmembers hworkspaces hacts =>
    exact rowsHonoured_removed h hmembers hworkspaces hacts
  | resolved htx hacts => exact rowsHonoured_resolved h hcond htx hacts

/-- So does somebody joining an organization. -/
theorem rowsHonoured_env (e : EnvMove) (s s' : State) (h : RowsHonoured s)
    (hmove : envStep e s = some s') : RowsHonoured s' := by
  cases e with
  | joinOrg tenantID userID role =>
    cases hmove
    exact ⟨h.owner_scope, h.explicit⟩

/-- In every run whose steps meet the condition the rows are honoured in every state. -/
theorem rowsHonoured_path {cfg : Config} {orgMembers : OrgMembers}
    {tr : Schedule} {pool : Pool Op Res State Answer}
    (h : Path (system cfg) grantsOnlyExplicitly ⟨.init orgMembers, []⟩ tr pool) :
    RowsHonoured pool.shared :=
  h.invariant rowsHonoured_exec (fun e s s' hs _ hmove => rowsHonoured_env e s s' hs hmove)
    (rowsHonoured_init orgMembers)

/-! ## What `accessTo` answers -/

variable {sc : OrgScope} {ws : Workspace}

/-- Somebody who does not own the organization is admitted by a membership row, with its
role, or by the scope `org`, as a plain user. -/
theorem accessTo_admits {tid : Nat} {s s' : State} {tr : Trace Op Res} {a : WsScope}
    (hsc : sc.role ≠ .owner)
    (h : Prog.Runs machine tid (accessTo sc ws) s tr (.ok a) s') :
    (∃ m ∈ s.cell.members.rows, m.workspaceID = ws.id ∧ m.userID = sc.userID ∧
      m.tenantID = sc.tenantID ∧ a.role = m.role) ∨
    ws.accessScope = .org ∧ a.role = .user := by
  have howner : ¬(sc.isOwner = true) := by simp [OrgScope.isOwner, hsc]
  rw [accessTo, if_neg howner] at h
  have henv : ∀ e s₁ s₂, machine.env e s₁ = some s₂ → s₁.cell.members = s.cell.members →
      s₂.cell.members = s.cell.members := by
    intro e s₁ s₂ hmove hsame
    cases e
    cases hmove
    exact hsame
  obtain ⟨r, s₁, s₂, tr', hsame, hexec, -, hrest⟩ := runs_perform_bind henv h rfl
  cases r with
  | ok m =>
    have ha := (emits_ret hrest.emits).2
    cases ha
    obtain ⟨c, htx, -⟩ := run_ok hexec
    obtain ⟨hmem, hw, hu, ht⟩ := Members.getMembership_eq_some (Tx.one_ok htx).1
    rw [hsame] at hmem
    exact .inl ⟨m, hmem, hw, hu, ht, rfl⟩
  | error e =>
    cases e with
    | notFound =>
      dsimp only at hrest
      split at hrest
      · rename_i horg
        have ha := (emits_ret hrest.emits).2
        cases ha
        exact .inr ⟨horg, rfl⟩
      · cases (emits_ret hrest.emits).2
    | uniqueViolation | other message => cases (emits_ret hrest.emits).2

/-- A row admits whatever the scope says, with the row's role. -/
theorem accessTo_row {s : State} {m : WorkspaceMember} (hsc : sc.role ≠ .owner)
    (hm : s.cell.members.getMembership ws.id sc.userID sc.tenantID = some m) :
    Prog.Runs machine 0 (accessTo sc ws) s [⟨.getMembership ws.id sc.userID sc.tenantID, .ok m⟩]
      (.ok ⟨sc, ws, m.role⟩) s := by
  have howner : ¬(sc.isOwner = true) := by simp [OrgScope.isOwner, hsc]
  rw [accessTo, if_neg howner]
  refine .op ?_ (.ret _ _)
  simp [machine, exec, State.run, commit, Tx.getMembership, Tx.one, hm]

/-- In every run whose steps meet the condition, in every state reached: somebody who does
not own the organization is admitted to a workspace of scope `owner` only with the owner
role, and to one of scope `members` only if the last explicit act about them was an add;
and there is no membership row that no owner's act is behind. -/
theorem access_scope_honoured (cfg : Config) (orgMembers : OrgMembers)
    {tr : Schedule} {pool : Pool Op Res State Answer}
    (hrun : Path (system cfg) grantsOnlyExplicitly ⟨.init orgMembers, []⟩ tr pool)
    {sc : OrgScope} (hsc : sc.role ≠ .owner) {ws : Workspace}
    (hws : ws ∈ pool.shared.cell.workspaces.rows) {tid : Nat} {tr' : Trace Op Res} {a : WsScope}
    {s' : State} (haccess : Prog.Runs machine tid (accessTo sc ws) pool.shared tr' (.ok a) s') :
    (ws.accessScope = .owner → a.role = .owner) ∧
    (ws.accessScope = .members →
      ∃ act, pool.shared.lastAct sc.tenantID ws.id sc.userID = some act ∧ act.added = true) ∧
    ∀ m ∈ pool.shared.cell.members.rows,
      ∃ act, pool.shared.lastAct m.tenantID m.workspaceID m.userID = some act ∧
        act.added = true := by
  have hrows := rowsHonoured_path hrun
  refine ⟨?_, ?_, hrows.explicit⟩
  · intro hscope
    rcases accessTo_admits hsc haccess with ⟨m, hm, hid, -, -, hrole⟩ | ⟨horg, -⟩
    · rw [hrole]
      exact hrows.owner_scope ws hws hscope m hm hid
    · cases hscope.symm.trans horg
  · intro hscope
    rcases accessTo_admits hsc haccess with ⟨m, hm, hid, huser, htenant, -⟩ | ⟨horg, -⟩
    · rw [← hid, ← huser, ← htenant]
      exact hrows.explicit m hm
    · cases hscope.symm.trans horg

/-! ## A removal that is undone -/

def ana : Scope := ⟨"acme", "acme-corp", "ana"⟩
def ben : Scope := ⟨"acme", "acme-corp", "ben"⟩

/-- Ana owns the organization, Ben is in it. -/
def colleagues : OrgMembers where
  rows := [⟨"acme", "ana", .owner⟩, ⟨"acme", "ben", .user⟩]
  unique := by decide

def team : Workspace :=
  Workspaces.newWorkspace "w1" "acme" "team" "ana" .members

def benRow (uid : Option Nat) : WorkspaceMember :=
  ⟨"w1", "ben", "acme", .user, uid⟩

def benSession : Session := ⟨"s1", "w1", "acme", "ben"⟩

/-- Ana creates a workspace for members and adds Ben, who starts a session. -/
def sharing : Schedule :=
  [.spawn (.createWorkspace ana "members" (.value "team") (fun _ => "blue-fox")),
    .thread 0 (.getOrgMembership "acme" "ana") (.ok ⟨"acme", "ana", .owner⟩),
    .thread 0 (.createWorkspace "acme" "team" "ana" .members) (.ok team),
    .thread 0 (.outside .startPlacement) (.ok ()),
    .spawn (.putMember ana "team" "ben" (some "user")),
    .thread 1 (.getOrgMembership "acme" "ana") (.ok ⟨"acme", "ana", .owner⟩),
    .thread 1 (.getWorkspaceByName "acme" "team") (.ok team),
    .thread 1 (.putMember "acme" "w1" "ben" .user) (.ok ()),
    .spawn (.createSession ben "team"),
    .thread 2 (.getOrgMembership "acme" "ben") (.ok ⟨"acme", "ben", .user⟩),
    .thread 2 (.getWorkspaceByName "acme" "team") (.ok team),
    .thread 2 (.getMembership "w1" "ben" "acme") (.ok (benRow none)),
    .thread 2 (.outside .admitSession) (.ok ()),
    .thread 2 (.outside .ensureWorkspace) (.ok ()),
    .thread 2 (.outside .checkPreflight) (.ok ()),
    .thread 2 (.createSession "acme" "w1" "ben") (.ok benSession)]

/-- Ana removes Ben, and then watches the session that is left behind. -/
def removal : Schedule :=
  [.spawn (.deleteMember ana "team" "ben"),
    .thread 3 (.getOrgMembership "acme" "ana") (.ok ⟨"acme", "ana", .owner⟩),
    .thread 3 (.getWorkspaceByName "acme" "team") (.ok team),
    .thread 3 (.removeMember "acme" "w1" "ben") (.ok ()),
    .spawn (.endpoint ana "s1" modeViewer "localhost"),
    .thread 4 (.getOrgMembership "acme" "ana") (.ok ⟨"acme", "ana", .owner⟩),
    .thread 4 (.getSession "acme" "s1") (.ok benSession),
    .thread 4 (.getWorkspace "acme" "w1") (.ok team),
    .thread 4 (.outside .ensureWorkspace) (.ok ()),
    .thread 4 (.outside .checkPreflight) (.ok ()),
    .thread 4 (.resolveIdentity "acme" "w1" "ben") (.ok (benRow (some 2000))),
    .thread 4 (.outside .announceIdentity) (.ok ()),
    .thread 4 (.attachToken "ana" "s1" "acme" "team" "acme-corp" modeViewer) (.ok ("nonce", 0))]

/-- Ana closes the workspace to everybody but its owner. -/
def closing : Schedule :=
  [.spawn (.patchWorkspace ana "team" [] "owner"),
    .thread 5 (.getOrgMembership "acme" "ana") (.ok ⟨"acme", "ana", .owner⟩),
    .thread 5 (.getWorkspaceByName "acme" "team") (.ok { team with nextUID := 2001 }),
    .thread 5 (.setAccessScope "acme" "w1" .owner)
      (.ok { team with nextUID := 2001, accessScope := .owner })]

def reachedBy (tr : Schedule) : Pool Op Res State Answer :=
  final (system demoConfig) anyStep ⟨.init colleagues, []⟩ tr

/-- Ben was removed, and `accessTo` admits Ben: watching the session wrote the row anew.
Closing the workspace to everybody but its owner does not help either. -/
theorem removed_member_readmitted :
    ∃ (tr tr' : Schedule) (pool pool' : Pool Op Res State Answer)
      (sc : OrgScope) (ws ws' : Workspace) (a a' : WsScope),
      sc.role = .user ∧
      Path (system demoConfig) anyStep ⟨.init colleagues, []⟩ tr pool ∧
      ws ∈ pool.shared.cell.workspaces.rows ∧ ws.accessScope = .members ∧
      (∃ steps, Prog.Runs machine 0 (accessTo sc ws) pool.shared steps (.ok a) pool.shared) ∧
      pool.shared.lastAct sc.tenantID ws.id sc.userID =
        some ⟨sc.tenantID, ws.id, sc.userID, false⟩ ∧
      Path (system demoConfig) anyStep ⟨.init colleagues, []⟩ (tr ++ tr') pool' ∧
      ws' ∈ pool'.shared.cell.workspaces.rows ∧ ws'.accessScope = .owner ∧
      (∃ steps, Prog.Runs machine 0 (accessTo sc ws') pool'.shared steps (.ok a') pool'.shared) ∧
      a'.role = .user := by
  have hremoved : Path (system demoConfig) anyStep ⟨.init colleagues, []⟩ _
      (reachedBy (sharing ++ removal)) := final_path (by decide +kernel)
  have hclosed : Path (system demoConfig) anyStep ⟨.init colleagues, []⟩ _
      (reachedBy (sharing ++ removal ++ closing)) := final_path (by decide +kernel)
  have hrow : (reachedBy (sharing ++ removal)).shared.cell.members.getMembership "w1"
      "ben" "acme" = some (benRow (some 2000)) := by decide +kernel
  have hrow' : (reachedBy (sharing ++ removal ++ closing)).shared.cell.members.getMembership
      "w1" "ben" "acme" = some (benRow (some 2000)) := by decide +kernel
  refine ⟨_, _, _, _, ⟨ben, .user⟩, { team with nextUID := 2001 },
    { team with nextUID := 2001, accessScope := .owner }, _, _, rfl, hremoved, ?_, rfl,
    ⟨_, accessTo_row (by decide) hrow⟩, ?_, hclosed, ?_, rfl,
    ⟨_, accessTo_row (by decide) hrow'⟩, rfl⟩
  · decide +kernel
  · decide +kernel
  · decide +kernel

/-- Until Ben is removed every step meets the condition. -/
def shared : Pool Op Res State Answer :=
  final (system demoConfig) grantsOnlyExplicitly ⟨.init colleagues, []⟩ sharing

/-- Ben is then admitted, and Ana's add is the last act about Ben. -/
theorem access_scope_honoured_shared :
    ∃ act, shared.shared.lastAct "acme" "w1" "ben" = some act ∧
      act.added = true := by
  have hrun : Path (system demoConfig) grantsOnlyExplicitly ⟨.init colleagues, []⟩ sharing
      shared := final_path (by decide +kernel)
  have hrow : shared.shared.cell.members.getMembership team.id ben.userID ben.tenantID =
      some (benRow none) := by decide +kernel
  have hteam : team ∈ shared.shared.cell.workspaces.rows := by decide +kernel
  have hsc : (⟨ben, .user⟩ : OrgScope).role ≠ .owner := by decide
  exact (access_scope_honoured demoConfig colleagues hrun hsc hteam
    (accessTo_row hsc hrow)).2.1 rfl

end Lemul.MgmtApi.Access
