import Lemul.MgmtApi.Admission
import Lemul.MgmtApi.Footprint
import Lemul.MgmtApi.RowLock

/-!
# The auto-stop cascade

`sweep`, `sweepWorkspace`, `stopIdleSessions`, `notePinned` and `advanceWarmHold`
(`reaper.go:59-288`), with the activity store (`activity.go:23-68`) and `idleTimeout`
(`admission.go:133-146`). Sweeps are made one after the other by one goroutine,
each from a copy of the store and at the time of the tick that started it. In between its
operations, which include commands that block until they are answered or time out, everything
else goes on: time passes, tasks measure and reports arrive, session processes start and
exit, and other handlers place tasks.

Times are in seconds of one clock. A report carries along which task measured it and when;
no operation reads either, nor the account a sweep keeps of itself.
-/

namespace Lemul.MgmtApi.Reaper

open Store

/-! ## What is read -/

/-- The columns of `workspace` that only the session axis of a sweep reads. -/
structure IdleColumns where
  idleTimeoutSecs : Int
  idlePinnedSince : Option Nat
  deriving DecidableEq, Repr

/-- What a sweep reads of a row of `session`. -/
structure SessionRow where
  id : GoString
  tenantID : GoString
  workspaceID : GoString
  idleTimeoutSecs : Option Int
  deriving DecidableEq, Repr

/-- A report, with the task that measured it and the moment it did. -/
structure Report extends ActivityReport where
  task : GoString
  measured : Nat
  deriving DecidableEq, Repr

/-- `idleTimeout` (`admission.go:137-146`), in seconds. -/
def idleTimeout (columns : IdleColumns) (override : Option Int) : Option Int :=
  let secs := override.getD columns.idleTimeoutSecs
  if secs ≤ 0 then none else some secs

/-- `sessionState` (`reaper.go:192-206`). -/
inductive SessionState where
  | sessionBusy
  | sessionPinned
  | sessionIdle
  deriving DecidableEq, Repr

/-- `classify` (`reaper.go:218-227`). -/
def classify (a : SessionActivity) (secs : Int) : SessionState :=
  if a.attachers > 0 ∨ a.outputIdleSecs < secs ∨ a.modelIdleSecs < secs then .sessionBusy
  else if a.toolIdleSecs < secs then .sessionPinned
  else .sessionIdle

/-! ## The sweep -/

/-- The operations of a sweep. `api` are those it shares with the other handlers. -/
inductive SweepOp where
  /-- `activity.all` for the tick of `now`. -/
  | all (now : Nat)
  /-- The sweep returns, and the next tick is waited for. -/
  | done
  /-- The row of `k` is read to judge it by `rep`. -/
  | getWorkspaceByName (k : WsKey) (rep : Report) (now : Nat)
  | forget (k : WsKey)
  | listWorkspaceSessions (tenantID id : GoString)
  /-- `StopSession`; what it is answered is only logged. -/
  | stopSession (t : Tunnel) (sessionID : GoString)
  | setIdlePinned (tenantID id : GoString) (since : Option Nat)
  | api (o : Op)
  deriving DecidableEq

abbrev SweepRes : SweepOp → Type
  | .all _ => List (WsKey × Report)
  | .done => Unit
  | .getWorkspaceByName _ _ _ => Except GoString (Workspace × IdleColumns)
  | .forget _ => Unit
  | .listWorkspaceSessions _ _ => Except GoString (List SessionRow)
  | .stopSession _ _ => Except GoString Unit
  | .setIdlePinned _ _ _ => Except GoString Unit
  | .api o => Res o

instance (o : SweepOp) : DecidableEq (SweepRes o) := by cases o <;> infer_instance

abbrev Sweep := Prog SweepOp SweepRes

/-- Performing one operation. -/
abbrev call (o : SweepOp) : Sweep (SweepRes o) := Prog.perform o

/-- What the reaper calls of the other handlers' code. -/
def shared {α : Type} (p : Api α) : Sweep α := p.embed .api fun _ r => r

/-- The loop of `stopIdleSessions` (`reaper.go:117-154`), with `anyBusy` and `anyPinned` so
far. -/
def stopSessions (t : Tunnel) (columns : IdleColumns) (sessions : List SessionRow) :
    List SessionActivity → Bool → Bool → Sweep (Bool × Bool)
  | [], anyBusy, anyPinned => pure (anyBusy, anyPinned)
  | a :: rest, anyBusy, anyPinned =>
      match sessions.find? (fun x => x.id = a.sessionID) with
      | none => stopSessions t columns sessions rest anyBusy anyPinned
      | some row =>
          match idleTimeout columns row.idleTimeoutSecs with
          | none => stopSessions t columns sessions rest true anyPinned
          | some secs =>
              match classify a secs with
              | .sessionBusy => stopSessions t columns sessions rest true anyPinned
              | .sessionPinned => stopSessions t columns sessions rest anyBusy true
              | .sessionIdle => do
                  let _ ← call (.stopSession t a.sessionID)
                  stopSessions t columns sessions rest anyBusy anyPinned

/-- `stopIdleSessions` (`reaper.go:94-159`). -/
def stopIdleSessions (tenantID : GoString) (ws : Workspace) (columns : IdleColumns)
    (rep : Report) : Sweep Bool :=
  if rep.headroom.activity = [] then pure false
  else do
    match ← call (.listWorkspaceSessions tenantID ws.id) with
    | .error _ => pure false
    | .ok sessions =>
        match ← call (.api (.pickWorkspace ⟨tenantID, ws.name⟩)) with
        | none => pure false
        | some t =>
            let (anyBusy, anyPinned) ←
              stopSessions t columns sessions rep.headroom.activity false false
            pure (anyPinned && !anyBusy)

/-- `notePinned` (`reaper.go:173-190`). -/
def notePinned (tenantID : GoString) (ws : Workspace) (columns : IdleColumns) (pinned : Bool)
    (now : Nat) : Sweep Unit :=
  if pinned = true ∧ columns.idlePinnedSince = none then do
    let _ ← call (.setIdlePinned tenantID ws.id (some now))
    pure ()
  else if pinned = false ∧ columns.idlePinnedSince ≠ none then do
    let _ ← call (.setIdlePinned tenantID ws.id none)
    pure ()
  else pure ()

/-- The warm hold of `ws` has run out on a report of no sessions (`reaper.go:246-267`). -/
def holdExpired (ws : Workspace) (sessions now : Nat) : Bool :=
  sessions = 0 && match ws.warmHoldUntil with
    | none => false
    | some till => till ≤ now

/-- `sweepWorkspace` (`reaper.go:72-90`). The report of a workspace that is stopped is
forgotten at the end of `advanceWarmHold` (`reaper.go:286`). -/
def sweepWorkspace (k : WsKey) (rep : Report) (now : Nat) : Sweep Unit := do
  match ← call (.getWorkspaceByName k rep now) with
  | .error _ => call (.forget k)
  | .ok (ws, columns) => do
      let pinned ← stopIdleSessions k.tenantID ws columns rep
      notePinned k.tenantID ws columns pinned now
      shared (advanceWarmHold k.tenantID ws rep.headroom.sessions.toNat now)
      if holdExpired ws rep.headroom.sessions.toNat now then call (.forget k)
      else pure ()

/-- The loop of `sweep` (`reaper.go:60-69`) over the copy of the store. -/
def sweepAll (interval now : Nat) : List (WsKey × Report) → Sweep Unit
  | [] => pure ()
  | (k, rep) :: rest =>
      if fresh rep.toActivityReport now interval then do
        sweepWorkspace k rep now
        sweepAll interval now rest
      else sweepAll interval now rest

/-- `sweep` (`reaper.go:59-70`). -/
def sweep (interval now : Nat) : Sweep Unit := do
  let reports ← call (.all now)
  sweepAll interval now reports
  call .done

/-! ## The machine -/

/-- A session process: the task it runs in and the moment it started. -/
structure Process where
  task : GoString
  session : GoString
  started : Nat
  running : Bool
  deriving DecidableEq, Repr

/-- A row that was judged: the copy, the report and the time of the sweep. -/
structure Evaluation where
  row : Workspace
  report : Report
  now : Nat
  deriving DecidableEq, Repr

/-- A sweep in progress: the thread, its tick, its copy of the store, the record it is at and
the write of `warm_hold_until` it has made for it. -/
structure Sweeping where
  owner : Nat
  now : Nat
  reports : List (WsKey × Report)
  judging : Option GoString
  wrote : Option (Option Nat)
  deriving DecidableEq, Repr

/-- What `o` adds to the account of a sweep. -/
def Sweeping.note (sw : Sweeping) : Op → Sweeping
  | .setWarmHold _ _ till => { sw with wrote := some till }
  | _ => sw

structure State where
  world : World
  clock : Nat
  /-- Orders measurements and starts of processes, however little time is between them. -/
  moment : Nat
  activity : List (WsKey × Report)
  /-- Measured and not yet received. -/
  transit : List Report
  idle : GoString → IdleColumns
  sessions : List SessionRow
  /-- Every process started so far. -/
  processes : List Process
  sweeping : Option Sweeping
  /-- Every row judged so far, oldest first. -/
  evaluated : List Evaluation

/-- `put` (`activity.go:37-41`). -/
def put (activity : List (WsKey × Report)) (k : WsKey) (rep : Report) : List (WsKey × Report) :=
  activity.filter (fun x => x.1 ≠ k) ++ [(k, rep)]

/-- `forget` (`activity.go:53-57`). -/
def forget (activity : List (WsKey × Report)) (k : WsKey) : List (WsKey × Report) :=
  activity.filter (fun x => x.1 ≠ k)

/-- An update of the idle columns of the row `id` of organization `tenantID`. -/
def State.setIdle (s : State) (tenantID id : GoString) (f : IdleColumns → IdleColumns) :
    GoString → IdleColumns :=
  if (s.world.cell.getWorkspace tenantID id).isSome then
    Function.update s.idle id (f (s.idle id))
  else s.idle

/-- What a sweep's operation does. -/
def exec (tid : Nat) : (o : SweepOp) → SweepRes o → State → Option State
  | .all now, reports, s =>
      -- a map is walked in any order
      if s.sweeping = none ∧ reports.isPerm s.activity = true then
        some { s with sweeping := some ⟨tid, now, reports, none, none⟩ }
      else none
  | .done, _, s =>
      match s.sweeping with
      | none => none
      | some sw => if sw.owner = tid then some { s with sweeping := none } else none
  | .getWorkspaceByName k rep now, r, s =>
      match s.sweeping with
      | none => none
      | some sw =>
          if sw.owner = tid then
            match r with
            | .error _ =>
                some { s with sweeping := some { sw with judging := none, wrote := none } }
            | .ok (ws, columns) =>
                if s.world.cell.getWorkspaceByName k.tenantID k.name = some ws ∧
                    s.idle ws.id = columns then
                  some { s with
                    sweeping := some { sw with judging := some ws.id, wrote := none }
                    evaluated := s.evaluated ++ [⟨ws, rep, now⟩] }
                else none
          else none
  | .forget k, _, s => some { s with activity := forget s.activity k }
  | .listWorkspaceSessions tenantID id, r, s =>
      match r with
      | .error _ => some s
      | .ok rows =>
          if rows = s.sessions.filter (fun x => x.tenantID = tenantID && x.workspaceID = id) then
            some s
          else none
  | .stopSession _ _, _, s => some s
  | .setIdlePinned tenantID id since, r, s =>
      match r with
      | .error _ => some s
      | .ok _ =>
          some { s with
            idle := s.setIdle tenantID id fun c => { c with idlePinnedSince := since } }
  | .api o, r, s =>
      (MgmtApi.exec tid o r s.world).map fun w =>
        { s with world := w, sweeping := s.sweeping.map fun sw => sw.note o }

/-- The operations of `ensureWorkspace`, of creates and of dials. -/
def placementOp : Op → Bool
  | .send _ c => c.starts
  | .setWorkspaceSnapshot _ _ _ => false
  | .setWarmHold _ _ _ => false
  | .deleteWorkspace _ _ => false
  | .renameWorkspace _ _ _ => false
  | .listSessions _ _ => false
  | _ => true

/-- What happens besides sweeps. -/
inductive Move where
  | world (e : EnvMove)
  /-- Thread `tid`, which places a task or dials in, performs `o`. -/
  | acts (tid : Nat) (o : Op) (r : Res o)
  | pass (secs : Nat)
  /-- A task takes the numbers of a report (`supervisor.go:391-398`). -/
  | measure (task workspaceID : GoString) (memFreeMB memLimitMB : Int)
      (activity : List SessionActivity)
  /-- The `i`-th report on its way is received and filed under `k`. -/
  | receive (i : Nat) (k : WsKey)
  | lose (i : Nat)
  /-- A tunnel goes down (`tunnels.go:177`). -/
  | forget (k : WsKey)
  | start (task session : GoString)
  | exit (i : Nat)
  /-- `SetWorkspacePolicy`. -/
  | policy (tenantID id : GoString) (idleTimeoutSecs : Int) (warmHoldSecs : Nat)
  | sessions (rows : List SessionRow)

/-- The processes of a task that run. -/
def runningIn (s : State) (task : GoString) : List Process :=
  s.processes.filter fun p => p.task = task && p.running

def env (d : Driver) : Move → State → Option State
  | .world e, s => (envStep d e s.world).map fun w => { s with world := w }
  | .acts tid o r, s =>
      if placementOp o then (MgmtApi.exec tid o r s.world).map fun w => { s with world := w }
      else none
  | .pass secs, s => some { s with clock := s.clock + secs }
  | .measure task workspaceID free limit activity, s =>
      some { s with
        transit := s.transit ++ [{
          headroom := ⟨workspaceID, free, limit, (runningIn s task).length, activity⟩
          receivedAt := 0
          task := task
          measured := s.moment }]
        moment := s.moment + 1 }
  | .receive i k, s =>
      match s.transit[i]? with
      | none => none
      | some rep =>
          some { s with
            activity := put s.activity k { rep with receivedAt := s.clock }
            transit := s.transit.eraseIdx i }
  | .lose i, s => some { s with transit := s.transit.eraseIdx i }
  | .forget k, s => some { s with activity := forget s.activity k }
  | .start task session, s =>
      some { s with
        processes := s.processes ++ [⟨task, session, s.moment, true⟩]
        moment := s.moment + 1 }
  | .exit i, s =>
      match s.processes[i]? with
      | none => none
      | some p => some { s with processes := s.processes.set i { p with running := false } }
  | .policy tenantID id idleTimeoutSecs warmHoldSecs, s =>
      some { s with
        world := { s.world with
          cell := s.world.cell.update tenantID id
            (fun w => { w with warmHoldSecs := warmHoldSecs }) fun _ => ⟨rfl, rfl, rfl⟩ }
        idle := s.setIdle tenantID id fun c => { c with idleTimeoutSecs := idleTimeoutSecs } }
  | .sessions rows, s => some { s with sessions := rows }

/-- The reaper beside everything else: a tick starts a sweep. -/
def reaper (cfg : Config) (interval : Nat) :
    System SweepOp SweepRes State Move Nat Unit where
  exec := exec
  env := env cfg.driver
  spawn now _ := some (sweep interval now)

/-- What happens in a run, in order. -/
abbrev SweepSchedule := List (Label SweepOp SweepRes Move Nat)

abbrev ReaperPool := Pool SweepOp SweepRes State Unit

/-- A control plane that has just been started on the tables `cell` and `sessions`. -/
def boot (cell : Workspaces) (idle : GoString → IdleColumns) (sessions : List SessionRow) :
    ReaperPool :=
  ⟨{ world := World.init cell
     clock := 0
     moment := 0
     activity := []
     transit := []
     idle := idle
     sessions := sessions
     processes := []
     sweeping := none
     evaluated := [] }, []⟩

/-! ## What the other handlers do -/

variable {cfg : Config} {sc : Scope} {ws : Workspace}

theorem EnsureOp.acts {o : Op} (h : EnsureOp cfg sc ws o) : placementOp o = true := by
  cases o <;> first
    | rfl
    | exact h.elim
    | (obtain ⟨_, _, rfl⟩ := h; rfl)

theorem DialOp.acts {o : Op} (h : DialOp o) : placementOp o = true := by
  cases o <;> first | rfl | exact h.elim

theorem startPlacement_acts :
    (startPlacement cfg sc ws).Performs Answered (fun o => placementOp o = true) := by
  refine .perform rfl fun _ _ => ?_
  exact (ensureWorkspace_performs.mono fun _ => EnsureOp.acts).bind fun _ => trivial

theorem createGenerated_acts (access : AccessScope) (generate : Nat → GoString) (n : Nat) :
    (createGenerated sc access generate n).Performs Answered (fun o => placementOp o = true) := by
  induction n with
  | zero => trivial
  | succ n ih =>
    refine .perform rfl fun r _ => ?_
    cases r with
    | ok ws => trivial
    | error e =>
      cases e with
      | uniqueViolation => exact ih
      | other e => trivial

theorem handleCreateWorkspace_acts (access : GoString) (name : NameField)
    (generate : Nat → GoString) :
    (handleCreateWorkspace cfg sc access name generate).Performs Answered
      (fun o => placementOp o = true) := by
  unfold handleCreateWorkspace
  split
  · trivial
  · cases name with
    | absent => trivial
    | null =>
      refine (createGenerated_acts _ generate _).bind fun row => ?_
      cases row with
      | error e => trivial
      | ok ws => exact startPlacement_acts.bind fun _ => trivial
    | value n =>
      dsimp only
      split
      · trivial
      · refine .perform rfl fun row _ => ?_
        cases row with
        | ok ws => exact startPlacement_acts.bind fun _ => trivial
        | error e => cases e <;> trivial

/-- Whatever a placement, a create or a dial does is among the moves of `Move.acts`. -/
theorem placements_act {q : Req} {s : World} {p : Api Outcome}
    (hq : (∃ sc name, q = .ensure sc name) ∨
      (∃ sc access name generate, q = .create sc access name generate) ∨
      ∃ task tenant workspace version, q = .dial task tenant workspace version)
    (h : spawn cfg q s = some p) : p.Performs Answered (fun o => placementOp o = true) := by
  rcases hq with ⟨sc, name, rfl⟩ | ⟨sc, access, name, generate, rfl⟩ | ⟨task, t, w, v, rfl⟩
  · cases h
    refine withWorkspace_performs (fun _ _ => rfl) fun ws => ?_
    exact (ensureWorkspace_performs.mono fun _ => EnsureOp.acts).bind fun _ => trivial
  · obtain ⟨-, rfl⟩ := spawn_create h
    exact handleCreateWorkspace_acts access name generate
  · obtain ⟨t, -, rfl⟩ := spawn_dial h
    exact (handleWorkspaceTunnel_performs _ _).mono fun _ => DialOp.acts

end Lemul.MgmtApi.Reaper
