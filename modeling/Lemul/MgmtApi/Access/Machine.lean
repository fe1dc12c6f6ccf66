import Lemul.Creds.Attach
import Lemul.Misc.Pool
import Lemul.Store.Cell

/-!
# The machine the authorising handlers run on

What the handlers of `internal/mgmtapi` that decide who may use a workspace read and write:
the cell. An operation is one transaction, and its answer is part of the step; a
transaction may always fail with an error of its own, and then has no effect. Placement,
admission, the preflight and the commands to a task have a model of their own
(`Lemul.MgmtApi.Placement`); here they are actions that succeed or fail as they like.

The fields `acts` and `minted` record what happened. No operation reads them.
-/

namespace Lemul.MgmtApi.Access

open Store

/-- What an owner said about a user's membership of a workspace. -/
structure Act where
  tenantID : GoString
  workspaceID : GoString
  userID : GoString
  added : Bool
  deriving DecidableEq, Repr

/-- An attach credential that endpoint negotiation minted, and for whom. -/
structure Minted where
  claims : Creds.AttachClaims
  userID : GoString
  deriving DecidableEq, Repr

structure State where
  cell : Cell
  /-- Every creation, PUT and DELETE of a membership, newest first. -/
  acts : List Act
  /-- Every attach credential handed out. -/
  minted : List Minted

namespace State

/-- A control plane over a cell in which nothing but joining organizations happened. -/
def init (orgMembers : OrgMembers) : State := ⟨.init orgMembers, [], []⟩

/-- The last explicit act about a user's membership of a workspace. -/
def lastAct (s : State) (tenantID workspaceID userID : GoString) : Option Act :=
  s.acts.find? (fun a =>
    a.tenantID = tenantID && a.workspaceID = workspaceID && a.userID = userID)

end State

/-! ## The transactions -/

/-- `createWorkspace` (`state.go:70-98`): the row, and its owner's membership. -/
def createWorkspaceTx (w : Workspace) : Tx Workspace := do
  let w ← Tx.createWorkspace w
  Tx.addMember w.id w.ownerUserID w.tenantID .owner
  pure w

/-- The transaction of `handlePutWorkspaceMember` (`members.go:139-149`): only somebody in
the organization can be added. -/
def putMemberTx (tenantID workspaceID userID : GoString) (role : Role) : Tx Unit := do
  let _ ← Tx.getOrgMembership tenantID userID
  Tx.addMember workspaceID userID tenantID role

/-- The transaction of `resolveIdentity` (`sessionidentity.go:70-113`). -/
def resolveIdentityTx (tenantID workspaceID userID : GoString) : Tx WorkspaceMember := do
  Tx.ensureMember workspaceID userID tenantID .user
  let m ← Tx.getMembership workspaceID userID tenantID
  if m.uid.isSome then pure m
  else do
    let next ← Tx.nextWorkspaceUID tenantID workspaceID
    match ← Tx.setMemberUID workspaceID userID tenantID next with
    | some m => pure m
    -- somebody else claimed one between the read and the write; theirs stands
    | none => Tx.getMembership workspaceID userID tenantID

/-! ## Operations -/

/-- What a handler does outside the cell. -/
inductive Action where
  | startPlacement
  | admitSession
  | ensureWorkspace
  | checkPreflight
  | pickWorkspace
  | announceIdentity
  deriving DecidableEq, Repr

/-- The operations of the handlers. `attachToken` carries, as history, who asked. -/
inductive Op where
  | getOrgMembership (tenantID userID : GoString)
  | getWorkspaceByName (tenantID name : GoString)
  | getWorkspace (tenantID id : GoString)
  | getMembership (workspaceID userID tenantID : GoString)
  | createWorkspace (tenantID name owner : GoString) (access : AccessScope)
  | setAccessScope (tenantID id : GoString) (access : AccessScope)
  | renameWorkspace (tenantID id name : GoString)
  | putMember (tenantID workspaceID userID : GoString) (role : Role)
  | removeMember (tenantID workspaceID userID : GoString)
  | createSession (tenantID workspaceID userID : GoString)
  | getSession (tenantID id : GoString)
  | resolveIdentity (tenantID workspaceID userID : GoString)
  | readOrgSettings (tenantID : GoString)
  | outside (a : Action)
  | startSession (sessionID : GoString)
  | attachToken (userID sessionID tenantID workspaceName orgSlug mode : GoString)
  deriving DecidableEq

/-- What an operation is answered with: `readOrgSettings` with whether members may create
workspaces, `startSession` with a failure of the command or the task's reply, `attachToken`
with the random bytes it drew and the time it read. -/
abbrev Res : Op → Type
  | .getOrgMembership _ _ => Except TxError OrgMember
  | .getWorkspaceByName _ _ => Except TxError Workspace
  | .getWorkspace _ _ => Except TxError Workspace
  | .getMembership _ _ _ => Except TxError WorkspaceMember
  | .createWorkspace _ _ _ _ => Except TxError Workspace
  | .setAccessScope _ _ _ => Except TxError Workspace
  | .renameWorkspace _ _ _ => Except TxError Workspace
  | .putMember _ _ _ _ => Except TxError Unit
  | .removeMember _ _ _ => Except TxError Unit
  | .createSession _ _ _ => Except TxError Session
  | .getSession _ _ => Except TxError Session
  | .resolveIdentity _ _ _ => Except TxError WorkspaceMember
  | .readOrgSettings _ => Except TxError Bool
  | .outside _ => Except GoString Unit
  | .startSession _ => Except GoString (Except GoString Unit)
  | .attachToken _ _ _ _ _ _ => Except GoString (GoString × Int)

instance (o : Op) : DecidableEq (Res o) := by cases o <;> infer_instance

/-- The cell after transaction `tx`, if it can be answered `r`. -/
def commit {α : Type} [DecidableEq α] (tx : Tx α) (r : Except TxError α) (c : Cell) :
    Option Cell :=
  match r with
  | .error (.other _) => some c
  | .error e =>
      match tx c with
      | .error e' => if e = e' then some c else none
      | .ok _ => none
  | .ok a =>
      match tx c with
      | .error _ => none
      | .ok (b, c') => if a = b then some c' else none

namespace State

/-- A transaction that leaves the history alone. -/
def run {α : Type} [DecidableEq α] (s : State) (tx : Tx α) (r : Except TxError α) :
    Option State :=
  (commit tx r s.cell).map (fun c => { s with cell := c })

/-- A transaction that is an explicit act where it succeeds. -/
def runAct {α : Type} [DecidableEq α] (s : State) (tx : Tx α) (r : Except TxError α)
    (act : Act) : Option State :=
  (commit tx r s.cell).map (fun c => ⟨c, if r.isOk then act :: s.acts else s.acts, s.minted⟩)

end State

/-- What performing an operation does, for each answer it can get. -/
def exec (_ : Nat) : (o : Op) → Res o → State → Option State
  | .getOrgMembership tenantID userID, r, s => s.run (Tx.getOrgMembership tenantID userID) r
  | .getWorkspaceByName tenantID name, r, s => s.run (Tx.getWorkspaceByName tenantID name) r
  | .getWorkspace tenantID id, r, s => s.run (Tx.getWorkspace tenantID id) r
  | .getMembership workspaceID userID tenantID, r, s =>
      s.run (Tx.getMembership workspaceID userID tenantID) r
  | .createWorkspace tenantID name owner access, r, s =>
      match r with
      | .error _ => some s
      | .ok w =>
          if w = Workspaces.newWorkspace w.id tenantID name owner access then
            s.runAct (createWorkspaceTx w) r ⟨tenantID, w.id, owner, true⟩
          else none
  | .setAccessScope tenantID id access, r, s =>
      s.run (Tx.setWorkspaceAccessScope tenantID id access) r
  | .renameWorkspace tenantID id name, r, s => s.run (Tx.renameWorkspace tenantID id name) r
  | .putMember tenantID workspaceID userID role, r, s =>
      s.runAct (putMemberTx tenantID workspaceID userID role) r
        ⟨tenantID, workspaceID, userID, true⟩
  | .removeMember tenantID workspaceID userID, r, s =>
      s.runAct (Tx.removeMember workspaceID userID tenantID) r
        ⟨tenantID, workspaceID, userID, false⟩
  | .createSession tenantID workspaceID userID, r, s =>
      match r with
      | .error _ => some s
      | .ok x =>
          if x = ⟨x.id, workspaceID, tenantID, userID⟩ then s.run (Tx.createSession x) r
          else none
  | .getSession tenantID id, r, s => s.run (Tx.getSession tenantID id) r
  | .resolveIdentity tenantID workspaceID userID, r, s =>
      s.run (resolveIdentityTx tenantID workspaceID userID) r
  | .readOrgSettings _, _, s => some s
  | .outside _, _, s => some s
  | .startSession _, _, s => some s
  | .attachToken userID sessionID tenantID workspaceName orgSlug mode, r, s =>
      match r with
      | .error _ => some s
      | .ok (random, now) =>
          some { s with
            minted := ⟨Creds.newClaims sessionID tenantID workspaceName orgSlug mode
              Creds.attachTTL random now, userID⟩ :: s.minted }

/-- What happens without these handlers: somebody redeems an invitation. -/
inductive EnvMove where
  | joinOrg (tenantID userID : GoString) (role : Role)

def envStep : EnvMove → State → Option State
  | .joinOrg tenantID userID role, s =>
      some { s with
        cell := { s.cell with orgMembers := s.cell.orgMembers.joinOrg tenantID userID role } }

/-- The machine. -/
def machine : Machine Op Res State EnvMove := ⟨exec, envStep⟩

/-- A program of the authorising handlers. -/
abbrev Api := Prog Op Res

/-- Performing one operation. -/
abbrev call (o : Op) : Api (Res o) := Prog.perform o

end Lemul.MgmtApi.Access
