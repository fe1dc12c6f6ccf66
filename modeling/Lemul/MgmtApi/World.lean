import Lemul.Creds.Signer
import Lemul.Driver.Ecs
import Lemul.Misc.Pool
import Lemul.Registry
import Lemul.Store.Workspace

/-!
# The machine the Management API runs on

Everything a handler of `internal/mgmtapi` reaches while it places, stops, finds or
deletes a workspace's task, as one state: the cell's `workspace` table, the tunnel
registry, the per-workspace locks, the command streams to runners, and, behind them,
the tasks and snapshots the runners' driver made.

An operation is one atomic step: one SQL statement with its commit, one section under
the registry's mutex, one lock or unlock, one write or read of a command stream. Its
answer is part of the step. A database operation may always be answered with an error
and then has no effect; a read of a command stream may always be answered with an
error, which is a reply that is lost, late or malformed. Runners and tasks move on
their own, in `envStep`.

The fields from `reading` on record what happened. No operation reads them.
-/

namespace Lemul.MgmtApi

open Store Function

/-- What a handler was given when it read a row: the row's id, and how many snapshots
had been recorded on it by then. -/
structure Reading where
  id : GoString
  version : Nat
  deriving DecidableEq, Repr

/-- A task a driver placed, with the command it was placed by and, as history, the row
copy that the placing call worked from. -/
structure Task where
  ref : GoString
  spec : StartWorkspace
  running : Bool
  origin : Option Reading
  deriving DecidableEq, Repr

/-- A snapshot of the volume of task number `task`. -/
structure Snapshot where
  id : GoString
  task : Nat
  deleted : Bool
  deriving DecidableEq, Repr

/-- How a runner's driver dealt with one command. -/
inductive Handling where
  | startFailed (err : GoString)
  /-- `Start` found task number `task` already running for this placement. -/
  | adopted (task : Nat)
  | placed (ref : GoString)
  | stopFailed (err : GoString)
  /-- `Stop` succeeded; then what `volumeOf` and `CreateSnapshot` answered. -/
  | stopped (volumeOf createSnapshot : Except GoString GoString)
  | dropFailed (err : GoString)
  | dropped
  deriving DecidableEq

/-- A command stream: the command, how it was handled and what was written back. -/
structure Stream where
  command : Command
  origin : Option Reading
  handling : Option Handling
  reply : Option Reply
  deriving DecidableEq

/-- Who is at the far end of a yamux session. -/
inductive Peer where
  | runner
  | task (i : Nat)
  deriving DecidableEq, Repr

/-- One derivation of a workspace credential: the record it was for and the command it
went into. -/
structure Placement where
  id : GoString
  tenantID : GoString
  name : GoString
  generation : Nat
  credential : GoString
  deriving DecidableEq, Repr

structure World where
  cell : Workspaces
  reg : Registry
  /-- The mutexes of `lockWorkspace` (`api.go:18-21`) and who holds them. -/
  held : GoString → Option Nat
  /-- The waiters' channels made so far, each with the key it waits for. -/
  channels : List WsKey
  /-- What they carry. -/
  delivered : Nat → Option Tunnel
  sessions : List Peer
  closed : Nat → Bool
  streams : List Stream
  tasks : List Task
  snapshots : List Snapshot
  /-- The uuids handed out so far. -/
  usedIDs : List GoString
  /-- The row copy each thread works from. -/
  reading : Nat → Option Reading
  /-- The snapshots recorded on each row, oldest first. -/
  recorded : GoString → List GoString
  /-- Every placement attempted. -/
  placements : List Placement
  /-- Every name a record has had, oldest first. -/
  named : List (GoString × WsKey)

namespace World

/-- A control plane that has just been started on the table `cell`. -/
def init (cell : Workspaces) : World where
  cell := cell
  reg := .new
  held := fun _ => none
  channels := []
  delivered := fun _ => none
  sessions := []
  closed := fun _ => false
  streams := []
  tasks := []
  snapshots := []
  usedIDs := cell.rows.map (·.id)
  reading := fun _ => none
  recorded := fun _ => []
  placements := []
  named := cell.rows.map (fun w => (w.id, ⟨w.tenantID, w.name⟩))

end World

/-- Why an insert or a rename was refused: `directory.IsUniqueViolation`, or anything
else. -/
inductive StoreError where
  | uniqueViolation
  | other (message : GoString)
  deriving DecidableEq, Repr

/-- The operations of the handlers. -/
inductive Op where
  | lock (key : GoString)
  | unlock (key : GoString)
  | getWorkspaceByName (tenantID name : GoString)
  | getWorkspace (tenantID id : GoString)
  | setWorkspaceStatus (tenantID id : GoString) (status : WorkspaceStatus) (taskRef : GoString)
  | failWorkspacePlacement (tenantID id : GoString) (status : WorkspaceStatus)
      (taskRef reason : GoString)
  | nextGeneration (tenantID id : GoString)
  | setWarmHold (tenantID id : GoString) (till : Option Nat)
  | setWorkspaceSnapshot (tenantID id snapshot : GoString)
  | createWorkspace (tenantID name owner : GoString) (access : AccessScope)
  | renameWorkspace (tenantID id name : GoString)
  | deleteWorkspace (tenantID id : GoString)
  | listSessions (tenantID id : GoString)
  | pickWorkspace (k : WsKey)
  | waitWorkspace (k : WsKey)
  | receive (k : WsKey) (ch : Nat)
  | pickRunner (tenantID : GoString)
  | upgrade (peer : Peer)
  | addWorkspace (t : Tunnel)
  | notify (ch : Nat) (t : Tunnel)
  | drainEvents (t : Tunnel)
  | removeWorkspace (t : Tunnel)
  | send (runner : Tunnel) (c : Command)
  | recv (sid : Nat)
  deriving DecidableEq

/-- What an operation is answered with. -/
abbrev Res : Op → Type
  | .lock _ => Unit
  | .unlock _ => Unit
  | .getWorkspaceByName _ _ => Except GoString Workspace
  | .getWorkspace _ _ => Except GoString Workspace
  | .setWorkspaceStatus _ _ _ _ => Except GoString Unit
  | .failWorkspacePlacement _ _ _ _ _ => Except GoString Unit
  | .nextGeneration _ _ => Except GoString Nat
  | .setWarmHold _ _ _ => Except GoString Unit
  | .setWorkspaceSnapshot _ _ _ => Except GoString Unit
  | .createWorkspace _ _ _ _ => Except StoreError Workspace
  | .renameWorkspace _ _ _ => Except StoreError Unit
  | .deleteWorkspace _ _ => Except GoString Unit
  | .listSessions _ _ => Except GoString Nat
  | .pickWorkspace _ => Option Tunnel
  | .waitWorkspace _ => Tunnel ⊕ Nat
  | .receive _ _ => Except GoString Tunnel
  | .pickRunner _ => Option Tunnel
  | .upgrade _ => Option Nat
  | .addWorkspace _ => List Nat
  | .notify _ _ => Unit
  | .drainEvents _ => Unit
  | .removeWorkspace _ => Unit
  | .send _ _ => Except GoString Nat
  | .recv _ => Except GoString Reply

instance (o : Op) : DecidableEq (Res o) := by cases o <;> infer_instance

namespace World

/-- A statement of the cell: an error leaves everything as it was. -/
def statement (s : World) (r : Except GoString Unit) (cell : Workspaces) : Option World :=
  match r with
  | .error _ => some s
  | .ok _ => some { s with cell := cell }

/-- The history of a `StartWorkspace`: thread `tid` derived a credential and used it. -/
def noted (s : World) (tid : Nat) : Command → List Placement
  | .startWorkspace m =>
      s.placements ++ [⟨((s.reading tid).map (·.id)).getD [], m.tenantID, m.workspaceID,
        m.generation, m.credential⟩]
  | _ => s.placements

end World

/-- What thread `tid` performing an operation does, for each answer it can get. -/
def exec (tid : Nat) : (o : Op) → Res o → World → Option World
  | .lock k, _, s =>
      if s.held k = none then some { s with held := update s.held k (some tid) }
      else none
  | .unlock k, _, s =>
      if s.held k = some tid then some { s with held := update s.held k none }
      else none
  | .getWorkspaceByName tenantID name, r, s =>
      match r with
      | .error _ => some s
      | .ok w =>
          if s.cell.getWorkspaceByName tenantID name = some w then
            some { s with
              reading := update s.reading tid
                (some ⟨w.id, (s.recorded w.id).length⟩) }
          else none
  | .getWorkspace tenantID id, r, s =>
      match r with
      | .error _ => some s
      | .ok w => if s.cell.getWorkspace tenantID id = some w then some s else none
  | .setWorkspaceStatus tenantID id status taskRef, r, s =>
      s.statement r (s.cell.setWorkspaceStatus tenantID id status taskRef)
  | .failWorkspacePlacement tenantID id status taskRef reason, r, s =>
      s.statement r (s.cell.failWorkspacePlacement tenantID id status taskRef reason)
  | .nextGeneration tenantID id, r, s =>
      match r with
      | .error _ => some s
      | .ok g =>
          match s.cell.getWorkspace tenantID id with
          | none => none
          | some w =>
              -- bigint: the increment is refused where it would not fit
              if g = w.generation + 1 ∧ g < 2 ^ 63 then
                some { s with cell := s.cell.nextGeneration tenantID id }
              else none
  | .setWarmHold tenantID id till, r, s =>
      s.statement r (s.cell.setWarmHold tenantID id till)
  | .setWorkspaceSnapshot tenantID id snapshot, r, s =>
      match r with
      | .error _ => some s
      | .ok _ =>
          match s.cell.getWorkspace tenantID id with
          | none => none
          | some _ =>
              some { s with
                cell := s.cell.setWorkspaceSnapshot tenantID id (nullable snapshot)
                recorded := update s.recorded id (s.recorded id ++ [snapshot]) }
  | .createWorkspace tenantID name owner access, r, s =>
      match r with
      | .error _ => some s
      | .ok w =>
          if w = Workspaces.newWorkspace w.id tenantID name owner access ∧ w.id ∉ s.usedIDs then
            match s.cell.createWorkspace w with
            | none => none
            | some cell =>
                some { s with
                  cell := cell
                  usedIDs := s.usedIDs ++ [w.id]
                  reading := update s.reading tid
                    (some ⟨w.id, (s.recorded w.id).length⟩)
                  named := s.named ++ [(w.id, ⟨tenantID, name⟩)] }
          else none
  | .renameWorkspace tenantID id name, r, s =>
      match r with
      | .error _ => some s
      | .ok _ =>
          match s.cell.getWorkspace tenantID id, s.cell.renameWorkspace tenantID id name with
          | some _, some cell =>
              some { s with cell := cell, named := s.named ++ [(id, ⟨tenantID, name⟩)] }
          | _, _ => none
  | .deleteWorkspace tenantID id, r, s =>
      s.statement r (s.cell.deleteWorkspace tenantID id)
  | .listSessions _ _, _, s => some s
  | .pickWorkspace k, r, s => if s.reg.pickWorkspace k = r then some s else none
  | .waitWorkspace k, r, s =>
      match r with
      | .inl t => if s.reg.pickWorkspace k = some t then some s else none
      | .inr ch =>
          if s.reg.pickWorkspace k = none ∧ ch = s.channels.length then
            some { s with reg := s.reg.addWaiter k ch, channels := s.channels ++ [k] }
          else none
  | .receive k ch, r, s =>
      match r with
      | .ok t => if s.delivered ch = some t then some s else none
      | .error _ => some { s with reg := s.reg.removeWaiter k ch }
  | .pickRunner tenantID, r, s =>
      if (s.reg.pickRunner tenantID).1 = r then
        some { s with reg := (s.reg.pickRunner tenantID).2 }
      else none
  | .upgrade peer, r, s =>
      match r with
      | none => some s
      | some n =>
          if n = s.sessions.length then some { s with sessions := s.sessions ++ [peer] } else none
  | .addWorkspace t, r, s =>
      if (s.reg.addWorkspace t).1 = r then some { s with reg := (s.reg.addWorkspace t).2 }
      else none
  | .notify ch t, _, s =>
      some { s with delivered := update s.delivered ch (some t) }
  -- returns at the first read error, be it the end of the session or a frame it cannot read
  | .drainEvents _, _, s => some s
  | .removeWorkspace t, _, s => some { s with reg := s.reg.removeWorkspace t }
  | .send _ c, r, s =>
      match r with
      | .error _ => some { s with placements := s.noted tid c }
      | .ok sid =>
          if sid = s.streams.length then
            some { s with
              placements := s.noted tid c
              streams := s.streams ++ [⟨c, s.reading tid, none, none⟩] }
          else none
  | .recv sid, r, s =>
      match r with
      | .error _ => some s
      | .ok reply => if (s.streams[sid]?).bind (·.reply) = some reply then some s else none

/-- What happens without the control plane doing anything. -/
inductive EnvMove where
  | runnerUp (tenantID id : GoString)
  | runnerDown (t : Tunnel)
  /-- A tunnel's session ends: the peer went away, or the network did. -/
  | tunnelDown (sess : Nat)
  | handle (sid : Nat) (h : Handling)

namespace World

/-- The runner at the other end of stream `sid` writes `reply` back. -/
def answer (s : World) (sid : Nat) (st : Stream) (h : Handling) (reply : Reply) : World :=
  { s with streams := s.streams.set sid { st with handling := some h, reply := some reply } }

/-- A task can start from nothing, or from a snapshot that exists. -/
def restorable (s : World) (id : GoString) : Bool :=
  id = [] || s.snapshots.any (fun x => x.id = id && !x.deleted)

/-- `Driver.Stop` went through: no task of that reference runs any more. -/
def stopped (s : World) (ref : GoString) : World :=
  { s with
    tasks := s.tasks.map (fun t => if t.ref = ref then { t with running := false } else t) }

end World

/-- The key a driver adopts a running task by: `IdempotencyKey` for the local and docker
drivers, `startedBy` for ECS. -/
def adoptionKey (d : Driver) (m : StartWorkspace) : GoString :=
  match d with
  | .plain => Driver.idempotencyKey m.workspaceID m.generation
  | .ecs _ => Driver.startedBy m.workspaceID m.generation

/-- `OnStream` of the runner (`runner.go:63-168`) on one command, with what its driver
did. -/
def handle (d : Driver) (sid : Nat) (h : Handling) (st : Stream) (s : World) : Option World :=
  match st.command, h with
  | .startWorkspace _, .startFailed err => some (s.answer sid st h (.error err))
  | .startWorkspace m, .adopted i =>
      match s.tasks[i]? with
      | none => none
      | some t =>
          if t.running ∧ adoptionKey d t.spec = adoptionKey d m then
            some (s.answer sid st h (.ref t.ref))
          else none
  | .startWorkspace m, .placed ref =>
      if ref ≠ [] ∧ (∀ t ∈ s.tasks, t.ref ≠ ref) ∧ s.restorable m.snapshotID then
        some { s.answer sid st h (.ref ref) with
          tasks := s.tasks ++ [⟨ref, m, true, st.origin⟩] }
      else none
  | .stopWorkspace _, .stopFailed err => some (s.answer sid st h (.error err))
  | .stopWorkspace m, .stopped volumeOf createSnapshot =>
      let snapshot := d.preserved m.ref m.snapshot volumeOf createSnapshot
      if snapshot = [] then some ((s.stopped m.ref).answer sid st h (.stopped []))
      else
        match s.tasks.findIdx? (fun t => t.ref = m.ref) with
        | none => none
        | some i =>
            if ∀ x ∈ s.snapshots, x.id ≠ snapshot then
              some { (s.stopped m.ref).answer sid st h (.stopped snapshot) with
                snapshots := s.snapshots ++ [⟨snapshot, i, false⟩] }
            else none
  | .dropSnapshot _, .dropFailed err => some (s.answer sid st h (.error err))
  | .dropSnapshot id, .dropped =>
      some { s.answer sid st h .other with
        snapshots := s.snapshots.map
          (fun x => if x.id = id then { x with deleted := true } else x) }
  | _, _ => none

/-- One move of the environment. -/
def envStep (d : Driver) : EnvMove → World → Option World
  | .runnerUp tenantID id, s =>
      some { s with
        reg := s.reg.addRunner ⟨id, tenantID, [], s.sessions.length⟩
        sessions := s.sessions ++ [.runner] }
  | .runnerDown t, s => some { s with reg := s.reg.removeRunner t }
  | .tunnelDown sess, s => some { s with closed := update s.closed sess true }
  | .handle sid h, s =>
      match s.streams[sid]? with
      | none => none
      | some st => if st.reply = none then handle d sid h st s else none

/-- A program of the Management API. -/
abbrev Api := Prog Op Res

/-- Performing one operation. -/
abbrev call (o : Op) : Api (Res o) := Prog.perform o

/-- How the server was configured (`Options`), with the driver its runners use. -/
structure Config where
  signer : Creds.Signer
  driver : Driver
  agentURL : GoString
  relayURL : GoString
  image : GoString
  workspaceEnv : List (GoString × GoString)

/-- A configuration to evaluate runs with: ECS tasks with a volume, and in place of
HMAC-SHA256 a function that tells different messages apart as it does. -/
def demoConfig : Config where
  signer := ⟨"an example key of thirty-two bytes", fun key m => 109 :: (key ++ m),
    by decide, fun _ _ => List.cons_ne_nil _ _⟩
  driver := .ecs ⟨true, "workspace"⟩
  agentURL := "ws://mgmt"
  relayURL := "ws://relay"
  image := "sandbox"
  workspaceEnv := []

/-- The machine. -/
def machine (cfg : Config) : Machine Op Res World EnvMove where
  exec := exec
  env := envStep cfg.driver

end Lemul.MgmtApi
