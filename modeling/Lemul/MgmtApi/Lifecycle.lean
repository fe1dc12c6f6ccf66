import Lemul.MgmtApi.Placement

/-!
# Stopping a workspace's task

`stopTask`, `preserveDisk` (`workspacecrud.go:447-529`), `setWorkspaceSnapshot`
(`state.go:239-267`) and the compute axis of the auto-stop cascade, `advanceWarmHold`
(`reaper.go:240-288`). The session axis of a sweep (`stopIdleSessions`, `notePinned`)
touches neither the task nor any column read here.
-/

namespace Lemul.MgmtApi

open Store

/-- `preserveDisk` (`workspacecrud.go:479-491`): `keepDisk` names the row to record a
snapshot on, `dropDisk` preserves nothing. -/
inductive PreserveDisk where
  | keepDisk (tenantID id : GoString)
  | dropDisk
  deriving DecidableEq, Repr

/-- `wanted` (`workspacecrud.go:493`). -/
def PreserveDisk.wanted : PreserveDisk → Bool
  | .keepDisk _ _ => true
  | .dropDisk => false

/-- `setWorkspaceSnapshot` (`state.go:239-267`): read and write in one transaction, and
the snapshot that was displaced. -/
def setWorkspaceSnapshot (tenantID id snapshot : GoString) : Api (Except GoString GoString) := do
  match ← call (.getWorkspace tenantID id) with
  | .error e => pure (.error e)
  | .ok before =>
      match ← call (.setWorkspaceSnapshot tenantID id snapshot) with
      | .error e => pure (.error e)
      | .ok _ =>
          if derefOr before.snapshotID = snapshot then pure (.ok [])
          else pure (.ok (derefOr before.snapshotID))

/-- Asking a runner of the organization to collect a snapshot. -/
def dropSnapshot (tenantID previous : GoString) : Api Unit := do
  match ← call (.pickRunner tenantID) with
  | none => pure ()
  | some runner =>
      let _ ← command runner (.dropSnapshot previous)
      pure ()

/-- `record` (`workspacecrud.go:501-529`): the row names the new snapshot before anything
touches the old one. -/
def PreserveDisk.record (p : PreserveDisk) (tenantID snapshot : GoString) : Api Unit :=
  match p with
  | .dropDisk => pure ()
  | .keepDisk tenant id =>
      if snapshot = [] then pure ()
      else do
        match ← MgmtApi.setWorkspaceSnapshot tenant id snapshot with
        | .error _ => pure ()
        | .ok previous => if previous = [] then pure () else dropSnapshot tenantID previous

/-- `stopTask` (`workspacecrud.go:447-470`). -/
def stopTask (tenantID name ref : GoString) (preserve : PreserveDisk) : Api Unit :=
  if ref = [] then pure ()
  else do
    match ← call (.pickRunner tenantID) with
    | none => pure ()
    | some runner =>
        match ← command runner (.stopWorkspace ⟨name, ref, preserve.wanted⟩) with
        | .error _ => pure ()
        | .ok (.error _) => pure ()
        | .ok reply => preserve.record tenantID reply.decodeStopped

/-- The stop at the end of a warm hold (`reaper.go:271-287`). -/
def stopIdle (tenantID : GoString) (ws : Workspace) : Api Unit := do
  stopTask tenantID ws.name (derefOr ws.taskRef) (.keepDisk tenantID ws.id)
  let _ ← call (.setWorkspaceStatus tenantID ws.id .stopped [])
  let _ ← call (.setWarmHold tenantID ws.id none)
  pure ()

/-- `advanceWarmHold` (`reaper.go:240-288`); `sessions` is the report's own count. -/
def advanceWarmHold (tenantID : GoString) (ws : Workspace) (sessions now : Nat) : Api Unit :=
  if 0 < sessions then
    match ws.warmHoldUntil with
    | none => pure ()
    | some _ => do
        let _ ← call (.setWarmHold tenantID ws.id none)
        pure ()
  else
    match ws.warmHoldUntil with
    | none => do
        let _ ← call (.setWarmHold tenantID ws.id (some (now + ws.warmHoldSecs)))
        pure ()
    | some till => if now < till then pure () else stopIdle tenantID ws

/-- `sweepWorkspace` (`reaper.go:72-90`). -/
def sweepWorkspace (tenantID name : GoString) (sessions now : Nat) : Api Unit := do
  match ← call (.getWorkspaceByName tenantID name) with
  | .error _ => pure ()
  | .ok ws => advanceWarmHold tenantID ws sessions now

end Lemul.MgmtApi
