import Lemul.MgmtApi.Access.Footprint

/-!
# Listing sessions

The two listings of sessions (`state.go:333-430`, with `ListSessions`, `ListSessionsForUser`,
`ListOrgSessions` and `ListOrgSessionsVisible`) beside `requireSession`
(`workspaces.go:191-223`), all in one state of the cell. Rows are listed in any order.

The organization-wide listing asks who started a session; `requireSession` asks first whether
the caller has standing in its workspace. They part where somebody has sessions in a workspace
that no longer admits them.
-/

namespace Lemul.MgmtApi.Access

open Store

/-! ## The listings -/

/-- `listOrgSessions` (`state.go:340-354`). -/
def listOrgSessions (sc : OrgScope) : Tx (List Session) :=
  if sc.isOwner then Tx.many fun c => c.sessions.listOrgSessions sc.tenantID
  else Tx.many fun c => c.listOrgSessionsVisible sc.tenantID sc.userID

/-- `ownsWorkspace` (`state.go:417-430`): having no row is an answer. -/
def ownsWorkspace (sc : OrgScope) (workspaceID : GoString) : Tx Bool := fun c =>
  if sc.isOwner then .ok (true, c)
  else
    match Tx.getMembership workspaceID sc.userID sc.tenantID c with
    | .error .notFound => .ok (false, c)
    | .error e => .error e
    | .ok (m, c) => .ok (decide (m.role = .owner), c)

/-- `listSessions` (`state.go:385-404`). -/
def listSessions (sc : OrgScope) (workspaceID : GoString) : Tx (List Session) := do
  if ← ownsWorkspace sc workspaceID then
    Tx.many fun c => c.sessions.listSessions workspaceID sc.tenantID
  else
    Tx.many fun c => c.sessions.listSessionsForUser workspaceID sc.tenantID sc.userID

/-- `listWorkspaces` (`state.go:292-306`). -/
def listWorkspaces (sc : OrgScope) : Tx (List Workspace) :=
  if sc.isOwner then Tx.many fun c => c.listWorkspaces sc.tenantID
  else Tx.many fun c => c.listWorkspacesForUser sc.tenantID sc.userID

/-- The session is in the listing, in the cell `c`. -/
def Listed (listing : Tx (List Session)) (c : Cell) (x : Session) : Prop :=
  ∃ rows, listing c = .ok (rows, c) ∧ x ∈ rows

/-! ## The checks in one state -/

/-- The answer of a `:one` query. -/
def found {α : Type} : Option α → Except TxError α
  | none => .error .notFound
  | some a => .ok a

/-- What reads are answered in the cell `c` if no transaction fails. The checks ask for nothing
else. -/
def answers (c : Cell) : (o : Op) → Res o
  | .getOrgMembership tenantID userID => found (c.orgMembers.getOrgMembership tenantID userID)
  | .getWorkspaceByName tenantID name => found (c.workspaces.getWorkspaceByName tenantID name)
  | .getWorkspace tenantID id => found (c.workspaces.getWorkspace tenantID id)
  | .getMembership workspaceID userID tenantID =>
      found (c.members.getMembership workspaceID userID tenantID)
  | .getSession tenantID id => found (c.sessions.getSession tenantID id)
  | .createWorkspace _ _ _ _ => .error (.other [])
  | .setAccessScope _ _ _ => .error (.other [])
  | .renameWorkspace _ _ _ => .error (.other [])
  | .putMember _ _ _ _ => .error (.other [])
  | .removeMember _ _ _ => .error (.other [])
  | .createSession _ _ _ => .error (.other [])
  | .resolveIdentity _ _ _ => .error (.other [])
  | .readOrgSettings _ => .error (.other [])
  | .outside _ => .error []
  | .startSession _ => .error []
  | .attachToken _ _ _ _ _ _ => .error []

/-- What a check returns in the cell `c`. -/
def check {α : Type} (c : Cell) (p : Api α) : α := p.interp (answers c)

theorem commit_one {α : Type} [DecidableEq α] (row : Cell → Option α) (c : Cell) :
    commit (Tx.one row) (found (row c)) c = some c := by
  unfold commit Tx.one
  cases row c with
  | none | some a => simp [found]

/-- The machine can answer so, and nothing changes. -/
theorem check_runs {α : Type} {p : Api α} (hp : LooksOnly p) (tid : Nat) (s : State) :
    ∃ tr, Prog.Runs machine tid p s tr (check s.cell p) s := by
  refine Prog.runs_interp hp (fun _ _ => trivial) fun o ho => ?_
  have hrun : ∀ {β : Type} [DecidableEq β] (row : Cell → Option β),
      s.run (Tx.one row) (found (row s.cell)) = some s := fun row => by
    unfold State.run
    rw [commit_one]
    rfl
  cases o with
  | getOrgMembership tenantID userID | getWorkspaceByName tenantID name
  | getWorkspace tenantID id | getMembership workspaceID userID tenantID
  | getSession tenantID id => exact hrun _
  | readOrgSettings tenantID => rfl
  | _ => exact ho.elim

/-- A check after another. -/
theorem check_bind {α β : Type} (c : Cell) (p : Api α) (f : α → Api β) :
    check c (p >>= f) = check c (f (check c p)) := Prog.interp_bind _ p f

theorem check_call {α : Type} (c : Cell) (o : Op) (f : Res o → Api α) :
    check c (call o >>= f) = check c (f (answers c o)) := rfl

/-- What the caller is to a workspace. -/
def standing (c : Cell) (sc : OrgScope) (ws : Workspace) : Option Role :=
  if sc.isOwner then some .owner
  else
    match c.members.getMembership ws.id sc.userID sc.tenantID with
    | some m => some m.role
    | none => if ws.accessScope = .org then some .user else none

section Checks

variable {c : Cell} {sc : OrgScope} {ws : Workspace}

/-- The standing as `accessTo` answers it. -/
def standingIn (c : Cell) (sc : OrgScope) (ws : Workspace) : Except AccessError WsScope :=
  match standing c sc ws with
  | some role => .ok ⟨sc, ws, role⟩
  | none => .error .noWorkspace

theorem check_accessTo : check c (accessTo sc ws) = standingIn c sc ws := by
  unfold accessTo standingIn standing
  split
  · rfl
  · rw [check_call]
    dsimp only [answers]
    cases c.members.getMembership ws.id sc.userID sc.tenantID with
    | some m => rfl
    | none =>
      dsimp only [found]
      split <;> rfl

theorem check_workspaceScopeByID (id : GoString) : check c (workspaceScopeByID sc id) =
    match c.workspaces.getWorkspace sc.tenantID id with
    | none => .error .noWorkspace
    | some ws => standingIn c sc ws := by
  unfold workspaceScopeByID
  rw [check_call]
  dsimp only [answers]
  cases c.workspaces.getWorkspace sc.tenantID id with
  | none => rfl
  | some ws => exact check_accessTo

theorem check_workspaceScope (name : GoString) : check c (workspaceScope sc name) =
    match c.workspaces.getWorkspaceByName sc.tenantID name with
    | none => .error .noWorkspace
    | some ws => standingIn c sc ws := by
  unfold workspaceScope
  rw [check_call]
  dsimp only [answers]
  cases c.workspaces.getWorkspaceByName sc.tenantID name with
  | none => rfl
  | some ws => exact check_accessTo

theorem check_requireOrg {sc : Scope} {m : OrgMember}
    (hm : c.orgMembers.getOrgMembership sc.tenantID sc.userID = some m) :
    check c (requireOrg sc) = .ok ⟨sc, m.role⟩ := by
  unfold requireOrg
  rw [check_call]
  dsimp only [answers]
  rw [hm]
  rfl

variable {caller : Scope} {m : OrgMember}

/-- A member of the organization is let into a workspace in which they have standing. -/
theorem check_requireWorkspace
    (hm : c.orgMembers.getOrgMembership caller.tenantID caller.userID = some m) {wid : GoString}
    {a : WsScope} (h : check c (requireWorkspace caller wid) = .ok a) :
    a.scope = ⟨caller, m.role⟩ ∧ a.ws ∈ c.workspaces.rows ∧
      standing c ⟨caller, m.role⟩ a.ws = some a.role := by
  unfold requireWorkspace at h
  rw [check_bind, check_requireOrg hm] at h
  dsimp only at h
  rw [check_bind, check_workspaceScope] at h
  cases hrow : c.workspaces.getWorkspaceByName caller.tenantID wid with
  | none =>
    rw [hrow] at h
    cases h
  | some ws =>
    rw [hrow] at h
    dsimp only [standingIn] at h
    cases hrole : standing c ⟨caller, m.role⟩ ws with
    | none =>
      rw [hrole] at h
      cases h
    | some role =>
      rw [hrole] at h
      cases h
      exact ⟨rfl, (Workspaces.getWorkspaceByName_eq_some.mp hrow).1, hrole⟩

/-- A session a member of the organization is let through to. -/
theorem check_requireSession
    (hm : c.orgMembers.getOrgMembership caller.tenantID caller.userID = some m) (sid : GoString)
    (a : SessScope) : check c (requireSession caller sid) = .ok a ↔
      c.sessions.getSession caller.tenantID sid = some a.sess ∧
      c.workspaces.getWorkspace caller.tenantID a.sess.workspaceID = some a.wsScope.ws ∧
      a.wsScope.scope = ⟨caller, m.role⟩ ∧
      standing c ⟨caller, m.role⟩ a.wsScope.ws = some a.wsScope.role ∧ a.isVisible = true := by
  unfold requireSession
  rw [check_bind, check_requireOrg hm]
  dsimp only
  rw [check_call]
  dsimp only [answers]
  cases hsess : c.sessions.getSession caller.tenantID sid with
  | none => exact ⟨fun h => (by cases h), fun h => by cases h.1⟩
  | some sess =>
    dsimp only [found]
    rw [check_bind, check_workspaceScopeByID]
    cases hrow : c.workspaces.getWorkspace caller.tenantID sess.workspaceID with
    | none =>
      refine ⟨nofun, fun ⟨heq, hws, _⟩ => ?_⟩
      rw [← Option.some.inj heq, hrow] at hws
      cases hws
    | some ws =>
      dsimp only [standingIn]
      constructor
      · intro h
        cases hrole : standing c ⟨caller, m.role⟩ ws with
        | none =>
          rw [hrole] at h
          cases h
        | some role =>
          rw [hrole] at h
          dsimp only at h
          split at h <;> cases h
          rename_i hvisible
          exact ⟨rfl, hrow, rfl, hrole, hvisible⟩
      · rintro ⟨heq, hws, hscope, hrole, hvisible⟩
        obtain ⟨⟨scope, ws', role⟩, sess'⟩ := a
        cases heq
        cases hrow.symm.trans hws
        cases hscope
        rw [hrole]
        dsimp only
        rw [if_pos hvisible]
        rfl

end Checks

end Lemul.MgmtApi.Access
