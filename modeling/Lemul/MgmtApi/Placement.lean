import Lemul.MgmtApi.World

/-!
# Placing a workspace's task

`command` (`tunnels.go:278-290`), `ensureWorkspace` (`api.go:289-423`) and
`notePlacementFailure`, `startPlacement` (`placement.go:49-127`), operation by operation.
Log lines are left out. Deadlines are the errors `receive` and `recv` may be answered
with at any time.
-/

namespace Lemul.MgmtApi

open Store

/-- `scope`: who is asking, in which organization. -/
structure Scope where
  tenantID : GoString
  orgSlug : GoString
  userID : GoString
  deriving DecidableEq, Repr

/-- `command` (`tunnels.go:278-290`): open a stream, send one message, read one reply. -/
def command (runner : Tunnel) (c : Command) : Api (Except GoString Reply) := do
  match ← call (.send runner c) with
  | .error e => pure (.error e)
  | .ok sid => call (.recv sid)

/-- `WaitWorkspace` (`registry.go:198-222`). -/
def waitWorkspace (k : WsKey) : Api (Except GoString Tunnel) := do
  match ← call (.waitWorkspace k) with
  | .inl t => pure (.ok t)
  | .inr ch => call (.receive k ch)

/-- What a failed placement leaves on the row (`placement.go:108-114`): status and
reference, from the record the call worked with and the reference it was given back. -/
def failureStatus (ws : Workspace) (dispatched : GoString) : WorkspaceStatus × GoString :=
  if dispatched ≠ [] then (.starting, dispatched)
  else if derefOr ws.taskRef ≠ [] then (ws.status, derefOr ws.taskRef)
  else (.stopped, [])

/-- `notePlacementFailure` (`placement.go:107-127`). -/
def notePlacementFailure (sc : Scope) (ws : Workspace) (dispatched cause : GoString) :
    Api Unit := do
  let (status, ref) := failureStatus ws dispatched
  let _ ← call (.failWorkspacePlacement sc.tenantID ws.id status ref cause)
  pure ()

/-- An error exit of `ensureWorkspace`: note it on the record, then return it. -/
def placementFailed (sc : Scope) (ws : Workspace) (dispatched cause : GoString) :
    Api (Except GoString Tunnel) := do
  notePlacementFailure sc ws dispatched cause
  pure (.error cause)

/-- The key a workspace is registered under. -/
def wsKey (sc : Scope) (ws : Workspace) : WsKey := ⟨sc.tenantID, ws.name⟩

/-- The name of its lock (`api.go:300`). -/
def lockKey (sc : Scope) (ws : Workspace) : GoString := sc.tenantID ++ "/" ++ ws.name

/-- The name of the lock of a row. -/
def lockOf (w : Workspace) : GoString := w.tenantID ++ "/" ++ w.name

/-- The command a placement sends (`api.go:365-382`). -/
def startCommand (cfg : Config) (sc : Scope) (ws : Workspace) (gen : Nat) : StartWorkspace where
  tenantID := sc.tenantID
  workspaceID := ws.name
  generation := gen
  credential := cfg.signer.workspaceToken sc.tenantID ws.name gen
  controlPlane := cfg.agentURL
  relay := cfg.relayURL
  image := cfg.image
  cpu := 0
  memoryMB := 0
  env := cfg.workspaceEnv
  snapshotID := derefOr ws.snapshotID

/-- The end of a placement (`api.go:397-422`): the runner answered with something other
than an error, and the task is waited for. -/
def awaitTask (sc : Scope) (ws : Workspace) (ref : GoString) : Api (Except GoString Tunnel) := do
  let _ ← call (.setWorkspaceStatus sc.tenantID ws.id .starting ref)
  match ← waitWorkspace (wsKey sc ws) with
  | .error e =>
      placementFailed sc ws ref ("workspace " ++ ws.name ++ " did not dial in: " ++ e)
  | .ok t =>
      let _ ← call (.setWorkspaceStatus sc.tenantID ws.id .active ref)
      pure (.ok t)

/-- The dispatch (`api.go:365-396`). -/
def dispatch (cfg : Config) (sc : Scope) (ws : Workspace) (runner : Tunnel) (gen : Nat) :
    Api (Except GoString Tunnel) := do
  match ← command runner (.startWorkspace (startCommand cfg sc ws gen)) with
  | .error e => placementFailed sc ws [] ("dispatch: " ++ e)
  | .ok (.error message) => placementFailed sc ws [] ("runner refused: " ++ message)
  | .ok reply => awaitTask sc ws reply.decodeRef

/-- A real placement (`api.go:336-363`): a runner, a new generation, the dispatch. -/
def placeTask (cfg : Config) (sc : Scope) (ws : Workspace) : Api (Except GoString Tunnel) := do
  match ← call (.pickRunner sc.tenantID) with
  | none => placementFailed sc ws [] ("no runner connected for organization " ++ sc.orgSlug)
  | some runner =>
      match ← call (.nextGeneration sc.tenantID ws.id) with
      | .error e => placementFailed sc ws [] e
      | .ok gen =>
          let _ ← call (.setWorkspaceStatus sc.tenantID ws.id .starting [])
          dispatch cfg sc ws runner gen

/-- Whether the record describes a task that may be on its way back (`api.go:322-323`). -/
def mayReconnect (ws : Workspace) : Bool :=
  derefOr ws.taskRef ≠ [] && (ws.status = .active || ws.status = .starting)

/-- `ensureWorkspace` between its lock and the deferred unlock (`api.go:304-422`). -/
def ensureLocked (cfg : Config) (sc : Scope) (ws : Workspace) :
    Api (Except GoString Tunnel) := do
  match ← call (.pickWorkspace (wsKey sc ws)) with
  | some t => pure (.ok t)
  | none =>
      if mayReconnect ws then
        match ← waitWorkspace (wsKey sc ws) with
        | .ok t => pure (.ok t)
        | .error _ => placeTask cfg sc ws
      else placeTask cfg sc ws

/-- `ensureWorkspace` (`api.go:289-423`). The unlock is the moment it returns. -/
def ensureWorkspace (cfg : Config) (sc : Scope) (ws : Workspace) :
    Api (Except GoString Tunnel) := do
  call (.lock (lockKey sc ws))
  let r ← ensureLocked cfg sc ws
  call (.unlock (lockKey sc ws))
  pure r

/-- `startPlacement` (`placement.go:49-88`), with the goroutine it starts: what is left
of the handler after this is writing the 202. -/
def startPlacement (cfg : Config) (sc : Scope) (ws : Workspace) :
    Api (Workspace × Except GoString Tunnel) := do
  let marked ← call (.setWorkspaceStatus sc.tenantID ws.id .starting (derefOr ws.taskRef))
  let ws : Workspace := match marked with
    | .error _ => ws
    | .ok _ => { ws with status := .starting, lastError := none }
  let r ← ensureWorkspace cfg sc ws
  pure (ws, r)

end Lemul.MgmtApi
