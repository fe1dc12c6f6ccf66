import Lemul.MgmtApi.Lifecycle

/-!
# Creating, renaming and deleting workspaces

The handlers of `workspacecrud.go` after the caller has been admitted. A request's name
is the one `strings.TrimSpace` left. Of `handleRenameWorkspace` this is the branch of a
PATCH that changes the name; the access scope and the policy have columns of their own.
-/

namespace Lemul.MgmtApi

open Store

/-- What a request came to. -/
inductive Outcome where
  /-- A workspace was looked up or created, and `ensureWorkspace` was called on it. -/
  | ensured (ws : Workspace) (result : Except GoString Tunnel)
  /-- An HTTP error. -/
  | refused (code : Nat) (body : GoString)
  /-- Done, with nothing that the model reports. -/
  | done
  deriving DecidableEq

/-- `validWorkspaceName` (`workspacecrud.go:182-211`): what is wrong with a name. -/
def validWorkspaceName (name : GoString) : Option GoString :=
  if name = [] then some "a workspace name cannot be empty"
  else if name.length > 64 then some "a workspace name is at most 64 characters"
  else if name.head? = some 45 then
    some (str
      "a workspace name cannot begin with -; it would read as a flag on the command line")
  else if name.all (fun b => (97 ≤ b && b ≤ 122) || (48 ≤ b && b ≤ 57) || b == 45 || b == 95) then
    none
  else some "a workspace name may hold lowercase letters, digits, - and _ only"

/-- An accepted name is short. -/
theorem validWorkspaceName_length {name : GoString} (h : validWorkspaceName name = none) :
    name.length ≤ 64 := by
  unfold validWorkspaceName at h
  split at h
  · cases h
  · split at h
    · cases h
    · omega

/-- `validAccessScopes` (`principal.go:80-82`). -/
def parseAccessScope (access : GoString) : Option AccessScope :=
  if access = "owner" then some .owner
  else if access = "members" then some .members
  else if access = "org" then some .org
  else none

/-- The `name` property of a create request: left out, `null`, or a string. -/
inductive NameField where
  | absent
  | null
  | value (name : GoString)
  deriving DecidableEq, Repr

/-- `nameAttempts` (`workspacecrud.go:156`). -/
def nameAttempts : Nat := 8

/-- The loop of `createGeneratedWorkspace` (`workspacecrud.go:160-178`): `generate n` is
the name drawn when `n` attempts are left after it. -/
def createGenerated (sc : Scope) (access : AccessScope) (generate : Nat → GoString) :
    Nat → Api (Except StoreError Workspace)
  | 0 => pure (.error .uniqueViolation)
  | n + 1 => do
      match ← call (.createWorkspace sc.tenantID (generate n) sc.userID access) with
      | .ok ws => pure (.ok ws)
      | .error (.other e) => pure (.error (.other e))
      | .error .uniqueViolation => createGenerated sc access generate n

/-- The end of a create: place the task and answer 202. -/
def created (cfg : Config) (sc : Scope) (ws : Workspace) : Api Outcome := do
  let (ws, r) ← startPlacement cfg sc ws
  pure (.ensured ws r)

/-- `handleCreateWorkspace` (`workspacecrud.go:83-149`). -/
def handleCreateWorkspace (cfg : Config) (sc : Scope) (access : GoString) (name : NameField)
    (generate : Nat → GoString) : Api Outcome :=
  match parseAccessScope (if access = [] then "owner" else access) with
  | none =>
      pure (.refused 400 "\"access_scope\" must be one of: owner, members, org")
  | some scope =>
      match name with
      | .absent =>
          pure (.refused 400 "\"name\" is required; send null to have one generated")
      | .null => do
          match ← createGenerated sc scope generate nameAttempts with
          | .error _ => pure (.refused 500 "could not create the workspace")
          | .ok ws => created cfg sc ws
      | .value n =>
          match validWorkspaceName n with
          | some e => pure (.refused 400 e)
          | none => do
              match ← call (.createWorkspace sc.tenantID n sc.userID scope) with
              | .error .uniqueViolation =>
                  pure (.refused 409 ("a workspace called " ++ n ++ " already exists here"))
              | .error (.other _) => pure (.refused 500 "could not create the workspace")
              | .ok ws => created cfg sc ws

/-- The status as it is spelt in an error. -/
def statusText : WorkspaceStatus → GoString
  | .stopped => "stopped"
  | .starting => "starting"
  | .active => "active"

/-- `handleRenameWorkspace` (`workspacecrud.go:279-369`) for a PATCH that sends `name`. -/
def handleRenameWorkspace (sc : Scope) (ws : Workspace) (name : GoString) : Api Outcome :=
  if name = [] then
    pure (.refused 400 "send \"name\", \"access_scope\", \"policy\", or any combination")
  else
    match validWorkspaceName name with
    | some e => pure (.refused 400 e)
    | none =>
        if name = ws.name then pure .done
        else do
          match ← call (.pickWorkspace (wsKey sc ws)) with
          | some _ =>
              pure (.refused 409 (str ("this workspace has a running task, and everything " ++
                "outside the database addresses it by name; stop its sessions and let the " ++
                "task go before renaming")))
          | none =>
              if ws.status ≠ .stopped then
                pure (.refused 409 ("this workspace is " ++ statusText ws.status ++
                  "; renaming is only safe while it is stopped"))
              else do
                match ← call (.renameWorkspace sc.tenantID ws.id name) with
                | .error .uniqueViolation =>
                    pure (.refused 409 ("a workspace called " ++ name ++ " already exists here"))
                | .error (.other _) =>
                    pure (.refused 500 "could not rename the workspace")
                | .ok _ => pure .done

/-- `stopWorkspaceTask` (`workspacecrud.go:417-435`). -/
def stopWorkspaceTask (sc : Scope) (ws : Workspace) : Api Unit := do
  stopTask sc.tenantID ws.name (derefOr ws.taskRef) .dropDisk
  if derefOr ws.snapshotID = [] then pure ()
  else dropSnapshot sc.tenantID (derefOr ws.snapshotID)

/-- `handleDeleteWorkspace` (`workspacecrud.go:378-402`). -/
def handleDeleteWorkspace (sc : Scope) (ws : Workspace) (force : Bool) : Api Outcome := do
  match ← call (.listSessions sc.tenantID ws.id) with
  | .error e => pure (.refused 500 e)
  | .ok sessions =>
      if 0 < sessions ∧ !force then
        pure (.refused 409 ("this workspace holds " ++ decimal sessions ++
          str (" session(s), and deleting it drops their conversations; " ++
            "delete them first, or pass ?force=1")))
      else do
        stopWorkspaceTask sc ws
        match ← call (.deleteWorkspace sc.tenantID ws.id) with
        | .error _ => pure (.refused 500 "could not delete the workspace")
        | .ok _ => pure .done

end Lemul.MgmtApi
