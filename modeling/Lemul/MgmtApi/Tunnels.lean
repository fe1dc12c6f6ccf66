import Lemul.MgmtApi.WorkspaceCrud

/-!
# A workspace task dials in

`handleWorkspaceTunnel` (`tunnels.go:129-182`), and the requests that start every handler
of the model. What the handler forgets about a task that went away (its preflight
verdict, its activity report) is read by no modelled handler.
-/

namespace Lemul.MgmtApi

open Store

/-- `ProtocolVersion` and `MinProtocolVersion` (`tunnel/messages.go:21-22`). -/
def protocolVersion : Int := 1
def minProtocolVersion : Int := 1

/-- The decimal rendering of an `int`. -/
def itoa (v : Int) : GoString := if v < 0 then "-" ++ decimal v.natAbs else decimal v.natAbs

/-- `checkProtocol` (`tunnels.go:45-77`): why the announced version is refused. -/
def checkProtocol (raw : GoString) : Option GoString :=
  if raw = [] then
    some ("this agent announces no protocol version; it predates protocol " ++
      itoa minProtocolVersion ++ ". Roll the workspace image forward.")
  else
    match atoi raw with
    | none => some "malformed protocol version"
    | some v =>
        if v < minProtocolVersion then
          some ("agent protocol " ++ itoa v ++ " is older than the minimum " ++
            itoa minProtocolVersion ++ ". Roll the workspace image forward.")
        else if v > protocolVersion then
          some ("agent protocol " ++ itoa v ++
            " is newer than this control plane's " ++ itoa protocolVersion ++
            ". Update the control plane.")
        else none

/-- The sends of `AddWorkspace` after it let go of the mutex (`registry.go:137-140`). -/
def notifyAll (t : Tunnel) : List Nat → Api Unit
  | [] => pure ()
  | ch :: waiters => do
      call (.notify ch t)
      notifyAll t waiters

/-- What a dial carries: the two parameters that name a workspace, the bearer token and
the announced protocol version. -/
structure Dial where
  tenant : GoString
  workspace : GoString
  bearer : GoString
  version : GoString
  deriving DecidableEq, Repr

/-- Whether `handleWorkspaceTunnel` authorizes a dial in this state (`tunnels.go:149-154`):
the row of that name, and the credential against its generation. -/
def authorizes (cfg : Config) (s : World) (d : Dial) : Bool :=
  match s.cell.getWorkspaceByName d.tenant d.workspace with
  | none => false
  | some ws => cfg.signer.verifyWorkspace d.tenant d.workspace ws.generation d.bearer

/-- The life of an admitted tunnel (`tunnels.go:164-181`). -/
def serveTunnel (t : Tunnel) : Api Unit := do
  let waiters ← call (.addWorkspace t)
  notifyAll t waiters
  call (.drainEvents t)
  call (.removeWorkspace t)

/-- `handleWorkspaceTunnel` (`tunnels.go:129-182`), dialled by `peer`. -/
def handleWorkspaceTunnel (cfg : Config) (peer : Peer) (d : Dial) : Api Outcome :=
  if d.tenant = [] ∨ d.workspace = [] then
    pure (.refused 400 "missing tenant or workspace")
  else do
    match ← call (.getWorkspaceByName d.tenant d.workspace) with
    | .error _ => pure (.refused 401 "unauthorized")
    | .ok ws =>
        if !cfg.signer.verifyWorkspace d.tenant d.workspace ws.generation d.bearer then
          pure (.refused 401 "unauthorized")
        else
          match checkProtocol d.version with
          | some e => pure (.refused 400 e)
          | none => do
              match ← call (.upgrade peer) with
              | none => pure (.refused 500 [])
              | some sess =>
                  serveTunnel ⟨d.workspace, d.tenant, d.workspace, sess⟩
                  pure .done

/-- A request, a sweep of one workspace, or a dial. -/
inductive Req where
  /-- Any handler that calls `ensureWorkspace` on the record of `name`. -/
  | ensure (sc : Scope) (name : GoString)
  | sweep (tenantID name : GoString) (sessions now : Nat)
  | create (sc : Scope) (access : GoString) (name : NameField) (generate : Nat → GoString)
  | rename (sc : Scope) (name newName : GoString)
  | delete (sc : Scope) (name : GoString) (force : Bool)
  /-- Task number `task` dials in, presenting the credential it was started with. -/
  | dial (task : Nat) (tenant workspace version : GoString)

/-- What happens in a run, in order. -/
abbrev Schedule := List (Label Op Res EnvMove Req)

/-- `store.ErrNotFound` (`store/store.go:40`). -/
def errNotFound : GoString := "no rows in result set"

/-- A handler that works on the record of a name (`workspaces.go:72-80`, `:227-241`). -/
def withWorkspace (sc : Scope) (name : GoString) (k : Workspace → Api Outcome) :
    Api Outcome := do
  match ← call (.getWorkspaceByName sc.tenantID name) with
  | .error e =>
      if e = errNotFound then pure (.refused 404 "no such workspace")
      else pure (.refused 500 "could not resolve the workspace")
  | .ok ws => k ws

/-- The program a request starts, if it can be made in this state: a task dials only while
it runs, and every string of a request is one that a Go program can hold. -/
def spawn (cfg : Config) : Req → World → Option (Api Outcome)
  | .ensure sc name, _ =>
      some (withWorkspace sc name fun ws => do
        let r ← ensureWorkspace cfg sc ws
        pure (.ensured ws r))
  | .sweep tenantID name sessions now, _ =>
      some (do
        sweepWorkspace tenantID name sessions now
        pure .done)
  | .create sc access name generate, _ =>
      if FitsInt sc.tenantID ∧ ∀ n < nameAttempts, validWorkspaceName (generate n) = none then
        some (handleCreateWorkspace cfg sc access name generate)
      else none
  | .rename sc name newName, _ =>
      some (withWorkspace sc name fun ws => handleRenameWorkspace sc ws newName)
  | .delete sc name force, _ =>
      some (withWorkspace sc name fun ws => handleDeleteWorkspace sc ws force)
  | .dial task tenant workspace version, s =>
      match s.tasks[task]? with
      | none => none
      | some t =>
          if t.running then
            some (handleWorkspaceTunnel cfg (.task task)
              ⟨tenant, workspace, t.spec.credential, version⟩)
          else none

theorem spawn_create {cfg : Config} {sc : Scope} {access : GoString} {name : NameField}
    {generate : Nat → GoString} {s : World} {p : Api Outcome}
    (h : spawn cfg (.create sc access name generate) s = some p) :
    (FitsInt sc.tenantID ∧ ∀ n < nameAttempts, validWorkspaceName (generate n) = none) ∧
      p = handleCreateWorkspace cfg sc access name generate := by
  simp only [spawn] at h
  split at h
  · rename_i hrequest
    exact ⟨hrequest, (Option.some.inj h).symm⟩
  · cases h

theorem spawn_dial {cfg : Config} {task : Nat} {tenant workspace version : GoString} {s : World}
    {p : Api Outcome} (h : spawn cfg (.dial task tenant workspace version) s = some p) :
    ∃ t, s.tasks[task]? = some t ∧ p = handleWorkspaceTunnel cfg (.task task)
      ⟨tenant, workspace, t.spec.credential, version⟩ := by
  simp only [spawn] at h
  split at h
  · cases h
  · rename_i t ht
    split at h
    · exact ⟨t, ht, (Option.some.inj h).symm⟩
    · cases h

/-- The Management API as a system: the machine, and what may be started on it. -/
def system (cfg : Config) : System Op Res World EnvMove Req Outcome where
  toMachine := machine cfg
  spawn := spawn cfg

/-- A pool of its threads. -/
abbrev ApiPool := Pool Op Res World Outcome

/-- The control plane just started, with no request in flight. -/
def boot (cell : Workspaces) : ApiPool := ⟨World.init cell, []⟩

/-! ## A workspace to evaluate runs on -/

def demoScope : Scope := ⟨"acme", "acme", "ana"⟩

/-- The row of a workspace that has just been created. -/
def demoRow : Workspace :=
  Workspaces.newWorkspace "w1" "acme" "api" "ana" .org

/-- The same row later on. -/
def demoRowAt (generation : Nat) (status : WorkspaceStatus) (taskRef : Option GoString)
    (hold : Option Nat) (snapshotID : Option GoString) : Workspace :=
  { demoRow with
    generation := generation, status := status, taskRef := taskRef
    warmHoldUntil := hold, snapshotID := snapshotID }

def demoCell : Workspaces := ⟨[demoRow], List.pairwise_singleton _ _⟩

/-- The first runner to connect to a control plane that has just started. -/
def demoRunner : Tunnel := ⟨"runner", "acme", [], 0⟩

/-- The tunnel of the workspace on session `sess`. -/
def demoTunnel (sess : Nat) : Tunnel := ⟨"api", "acme", "api", sess⟩

def demoKey : WsKey := ⟨"acme", "api"⟩

/-- A placement by thread `tid` from the copy `ws`, up to and with its `StartWorkspace`. -/
def demoDispatch {Env : Type} (tid : Nat) (ws : Workspace) (gen sid : Nat) :
    List (Label Op Res Env Req) :=
  [.thread tid (.pickRunner "acme") (some demoRunner),
    .thread tid (.nextGeneration "acme" ws.id) (.ok gen),
    .thread tid (.setWorkspaceStatus "acme" ws.id .starting []) (.ok ()),
    .thread tid (.send demoRunner (.startWorkspace (startCommand demoConfig demoScope ws gen)))
      (.ok sid)]

/-- The rest of it: the runner names the task, which dials in on session `sess` from
thread `dialler` and is waited for on channel `ch`. -/
def demoArrival (tid : Nat) (ws : Workspace) (sid : Nat) (ref : GoString) (ch : Nat)
    (dialler task sess : Nat) (now : Workspace) : Schedule :=
  [.thread tid (.recv sid) (.ok (.ref ref)),
    .thread tid (.setWorkspaceStatus "acme" ws.id .starting ref) (.ok ()),
    .thread tid (.waitWorkspace demoKey) (.inr ch),
    .spawn (.dial task "acme" "api" "1"),
    .thread dialler (.getWorkspaceByName "acme" "api") (.ok now),
    .thread dialler (.upgrade (.task task)) (some sess),
    .thread dialler (.addWorkspace (demoTunnel sess)) [ch],
    .thread dialler (.notify ch (demoTunnel sess)) (),
    .thread tid (.receive demoKey ch) (.ok (demoTunnel sess)),
    .thread tid (.setWorkspaceStatus "acme" ws.id .active ref) (.ok ()),
    .thread tid (.unlock (lockKey demoScope ws)) ()]

end Lemul.MgmtApi
