import Lemul.Misc.Lists
import Lemul.Misc.Lts
import Lemul.Registry
import Lemul.Tunnel.Events

/-!
# Tunnels, their event streams and what is remembered of them

`handleRunnerTunnel` and `handleWorkspaceTunnel` from the upgrade on, `drainEvents` and
`handleEvent` (`tunnels.go:97-273`), the two stores they fill (`preflight.go:19-70`,
`activity.go:23-57`) and, at the other end of each tunnel, `connectAndServe` of the agent
(`agent.go:153-183`). A handler, the registry entry and the yamux session are three lifetimes.
Every section under a mutex is a step of its own, the deferred calls of a handler included.

The session is closed by a failure of the network, by the agent (`ctx`), or by `CloseAll`;
both ends notice. What was received before can still be read. The callers of
`preflightStore.wait` are left out: they take a verdict and change none.
-/

namespace Lemul.MgmtApi

open Function

/-- `activityReport` (`activity.go:28-31`). -/
structure ActivityReport where
  headroom : Headroom
  receivedAt : Nat
  deriving DecidableEq, Repr

/-- `checkPreflight` (`preflight.go:114-136`), given what `wait` returned. -/
def checkPreflight : Option PreflightReport → Except GoString Unit
  | none => .ok ()
  | some rep =>
      if rep.skipped || !rep.blocking then .ok ()
      else
        match rep.firstBlocker with
        | some m =>
            .error ("bedrock is not usable in this workspace: " ++ m.modelID ++ " (" ++
              m.role ++ ") is not invocable. " ++ m.advice)
        | none => .error "bedrock is not usable in this workspace"

namespace TunnelServer

/-- Whose tunnel it is. -/
inductive Kind where
  | runner
  | workspace
  deriving DecidableEq, Repr

/-- Where the handler of a tunnel is: in `t.Accept()`, at `<-t.Closed()`, in the loop of
`drainEvents`, or at one of its deferred calls. -/
inductive HandlerPc where
  | accept
  | awaitClosed
  | drain
  | remove
  | forgetPreflight
  | forgetActivity
  | returned
  deriving DecidableEq, Repr

/-- Where `connectAndServe` is: before `sess.Open()`, in its accept loop, or back in `Run`,
which calls `OnDisconnect` and dials again. -/
inductive AgentPc where
  | open
  | serve
  | returned
  deriving DecidableEq, Repr

/-- A tunnel that was admitted, with both of its ends. -/
structure Conn where
  kind : Kind
  tunnel : Tunnel
  handler : HandlerPc
  agent : AgentPc
  /-- The agent has opened its event stream. -/
  opened : Bool
  /-- The yamux session is closed. -/
  closed : Bool
  /-- Received on the event stream and not yet read. -/
  wire : GoString
  /-- The last verdict and the last report received on the tunnel, as they were filed. No
  step reads them. -/
  verdict : Option PreflightReport
  report : Option ActivityReport
  deriving DecidableEq

/-- The part of `Server` (`server.go`) the tunnels share. `wsRef` has the fields of the
registry's key. -/
structure Server where
  reg : Registry
  preflights : WsKey → Option PreflightReport
  activity : WsKey → Option ActivityReport
  conns : List Conn

namespace Server

/-- A server that was just started. -/
def new : Server := ⟨.new, fun _ => none, fun _ => none, []⟩

/-- A tunnel is registered; its session is the next one. -/
def register (s : Server) (kind : Kind) (t : Tunnel) : Server :=
  { s with
    reg := match kind with
      | .runner => s.reg.addRunner t
      | .workspace => (s.reg.addWorkspace t).2
    conns := s.conns ++ [⟨kind, t, .accept, .open, false, false, [], none, none⟩] }

/-- Tunnel `i` changes, if `f` says how. -/
def update (s : Server) (i : Nat) (f : Conn → Option Conn) : Option Server :=
  match s.conns[i]? with
  | none => none
  | some c => (f c).map fun c' => { s with conns := s.conns.set i c' }

/-- The registry holds the tunnel. -/
def registered (s : Server) (c : Conn) : Bool :=
  match c.kind with
  | .runner => c.tunnel ∈ s.reg.runners c.tunnel.tenantID
  | .workspace => c.tunnel ∈ s.reg.workspaces c.tunnel.key

end Server

/-- A report is filed under the workspace it names, or under the tunnel's. -/
def filedUnder (t : Tunnel) (workspaceID : GoString) : GoString :=
  if workspaceID = [] then t.workspaceName else workspaceID

/-- What `handleEvent` (`tunnels.go:221-273`) decodes, if it is to be filed. -/
def decodeEvent (J : EventJson) (t : Tunnel) (env : Envelope) : Option Event :=
  if env.type = msgHeadroom then
    match Json.decode J.unmarshalHeadroom ⟨[], 0, 0, 0, []⟩ env with
    | .error _ => none
    | .ok h => some (.headroom { h with workspaceID := filedUnder t h.workspaceID })
  else if env.type = msgPreflight then
    match Json.decode J.unmarshalPreflight ⟨[], [], [], false, false, []⟩ env with
    | .error _ => none
    | .ok rep => some (.preflight { rep with workspaceID := filedUnder t rep.workspaceID })
  else none

/-- `handleEvent`: the tunnel `c` is at position `i`, and it is `now`. -/
def handleEvent (s : Server) (i : Nat) (c : Conn) (now : Nat) : Option Event → Server
  | some (.headroom h) =>
      { s with
        activity := update s.activity ⟨c.tunnel.tenantID, h.workspaceID⟩ (some ⟨h, now⟩)
        conns := s.conns.set i { c with report := some ⟨h, now⟩ } }
  | some (.preflight rep) =>
      { s with
        preflights := update s.preflights ⟨c.tunnel.tenantID, rep.workspaceID⟩ (some rep)
        conns := s.conns.set i { c with verdict := some rep } }
  | _ => { s with conns := s.conns.set i c }

/-- What the loop of `drainEvents` (`tunnels.go:212-218`) reads next. -/
inductive Drained where
  | message (env : Envelope) (rest : GoString)
  /-- `ReadMsg` returned an error: the end of the stream, or a frame that is too large, of
  another type or not an envelope. -/
  | error
  | blocked

/-- `ReadMsg` on the event stream of a tunnel. -/
def readEvent (J : EventJson) (c : Conn) : Drained :=
  match readFrame c.wire with
  | .short => if c.closed then .error else .blocked
  | .error _ => .error
  | .frame f rest =>
      match J.readMsg f with
      | .error _ => .error
      | .ok env => .message env rest

/-- One turn of the loop. -/
def drainEvents (J : EventJson) (s : Server) (i now : Nat) : Option Server :=
  match s.conns[i]? with
  | none => none
  | some c =>
      if c.handler = .drain then
        match readEvent J c with
        | .blocked => none
        | .error => some { s with conns := s.conns.set i { c with handler := .remove } }
        | .message env rest =>
            some (handleEvent s i { c with wire := rest } now (decodeEvent J c.tunnel env))
      else none

/-- What can happen. -/
inductive Label where
  | runnerUp (tenant id : GoString)
  | workspaceUp (tenant wid : GoString)
  /-- The agent opens its event stream. -/
  | openEvents (i : Nat)
  | accept (i : Nat)
  | acceptFails (i : Nat)
  /-- Bytes the agent wrote on the event stream arrive. -/
  | arrive (i : Nat) (bytes : GoString)
  | drain (i now : Nat)
  | sessionCloses (i : Nat)
  /-- `<-t.Closed()`. -/
  | awaited (i : Nat)
  | remove (i : Nat)
  | forgetPreflight (i : Nat)
  | forgetActivity (i : Nat)
  /-- `sess.Open()` or `sess.Accept()` returns an error to the agent. -/
  | agentReturns (i : Nat)
  deriving DecidableEq

/-- `RemoveRunner`, or `RemoveWorkspace`, as a deferred call. -/
def removeTunnel (s : Server) (i : Nat) : Option Server :=
  match s.conns[i]? with
  | none => none
  | some c =>
      if c.handler = .remove then
        match c.kind with
        | .runner =>
            some { s with
              reg := s.reg.removeRunner c.tunnel
              conns := s.conns.set i { c with handler := .returned } }
        | .workspace =>
            some { s with
              reg := s.reg.removeWorkspace c.tunnel
              conns := s.conns.set i { c with handler := .forgetPreflight } }
      else none

/-- `preflights.forget` as a deferred call (`tunnels.go:171`). -/
def forgetPreflight (s : Server) (i : Nat) : Option Server :=
  match s.conns[i]? with
  | none => none
  | some c =>
      if c.handler = .forgetPreflight then
        some { s with
          preflights := update s.preflights c.tunnel.key none
          conns := s.conns.set i { c with handler := .forgetActivity } }
      else none

/-- `activity.forget` as a deferred call (`tunnels.go:177`). -/
def forgetActivity (s : Server) (i : Nat) : Option Server :=
  match s.conns[i]? with
  | none => none
  | some c =>
      if c.handler = .forgetActivity then
        some { s with
          activity := update s.activity c.tunnel.key none
          conns := s.conns.set i { c with handler := .returned } }
      else none

/-- The server and its agents. -/
def tunnels (J : EventJson) : Lts Server Label where
  step s l :=
    match l with
    | .runnerUp tenant id =>
        if tenant = [] then none
        else some (s.register .runner ⟨id, tenant, [], s.conns.length⟩)
    | .workspaceUp tenant wid =>
        if tenant = [] ∨ wid = [] then none
        else some (s.register .workspace ⟨wid, tenant, wid, s.conns.length⟩)
    | .openEvents i => s.update i fun c =>
        if c.agent = .open ∧ c.closed = false then
          some { c with agent := .serve, opened := true }
        else none
    | .accept i => s.update i fun c =>
        if c.handler = .accept ∧ c.opened = true then some { c with handler := .drain } else none
    | .acceptFails i => s.update i fun c =>
        if c.handler = .accept then some { c with handler := .awaitClosed } else none
    | .arrive i bytes => s.update i fun c =>
        if c.agent = .serve ∧ c.closed = false then some { c with wire := c.wire ++ bytes }
        else none
    | .drain i now => drainEvents J s i now
    | .sessionCloses i => s.update i fun c => some { c with closed := true }
    | .awaited i => s.update i fun c =>
        if c.handler = .awaitClosed ∧ c.closed = true then some { c with handler := .remove }
        else none
    | .remove i => removeTunnel s i
    | .forgetPreflight i => forgetPreflight s i
    | .forgetActivity i => forgetActivity s i
    | .agentReturns i => s.update i fun c =>
        if c.closed = true ∧ c.agent ≠ .returned then some { c with agent := .returned } else none

/-! ## What a step does -/

/-- The handler has not yet removed its tunnel from the registry. -/
def HandlerPc.serving : HandlerPc → Bool
  | .accept | .awaitClosed | .drain | .remove => true
  | _ => false

/-- What a step does to the tunnel it is about, when it touches neither the registry nor a
store. -/
structure Moves (c c' : Conn) : Prop where
  kind : c'.kind = c.kind
  tunnel : c'.tunnel = c.tunnel
  verdict : c'.verdict = c.verdict
  report : c'.report = c.report
  serving : c'.handler = c.handler ∨ c.handler.serving = true ∧ c'.handler.serving = true
  closed : c.closed = true → c'.closed = true

/-- What a step does, said once. -/
inductive Effect (J : EventJson) (s : Server) : Label → Server → Prop where
  | register {l : Label} (kind : Kind) (t : Tunnel) (hsess : t.sess = s.conns.length) :
      Effect J s l (s.register kind t)
  | move {l : Label} (i : Nat) (c c' : Conn) (hc : s.conns[i]? = some c) (hmoves : Moves c c')
      (hremove : c'.handler = .remove → c.handler = .remove ∨ c'.closed = true ∨
        ∃ now, l = .drain i now ∧ readEvent J c = .error) :
      Effect J s l { s with conns := s.conns.set i c' }
  | file (i now : Nat) (c : Conn) (env : Envelope) (rest : GoString)
      (hc : s.conns[i]? = some c) (hdrain : c.handler = .drain)
      (hread : readEvent J c = .message env rest) :
      Effect J s (.drain i now)
        (handleEvent s i { c with wire := rest } now (decodeEvent J c.tunnel env))
  | removeRunner (i : Nat) (c : Conn) (hc : s.conns[i]? = some c) (hkind : c.kind = .runner)
      (hat : c.handler = .remove) :
      Effect J s (.remove i)
        { s with
          reg := s.reg.removeRunner c.tunnel
          conns := s.conns.set i { c with handler := .returned } }
  | removeWorkspace (i : Nat) (c : Conn) (hc : s.conns[i]? = some c)
      (hkind : c.kind = .workspace) (hat : c.handler = .remove) :
      Effect J s (.remove i)
        { s with
          reg := s.reg.removeWorkspace c.tunnel
          conns := s.conns.set i { c with handler := .forgetPreflight } }
  | forgetPreflight (i : Nat) (c : Conn) (hc : s.conns[i]? = some c)
      (hat : c.handler = .forgetPreflight) :
      Effect J s (.forgetPreflight i)
        { s with
          preflights := update s.preflights c.tunnel.key none
          conns := s.conns.set i { c with handler := .forgetActivity } }
  | forgetActivity (i : Nat) (c : Conn) (hc : s.conns[i]? = some c)
      (hat : c.handler = .forgetActivity) :
      Effect J s (.forgetActivity i)
        { s with
          activity := update s.activity c.tunnel.key none
          conns := s.conns.set i { c with handler := .returned } }

variable {J : EventJson} {s s' : Server} {l : Label}

theorem update_cases {i : Nat} {f : Conn → Option Conn} (h : s.update i f = some s') :
    ∃ c c', s.conns[i]? = some c ∧ f c = some c' ∧
      s' = { s with conns := s.conns.set i c' } := by
  unfold Server.update at h
  split at h
  · cases h
  · rename_i c hc
    obtain ⟨c', hc', rfl⟩ := Option.map_eq_some_iff.mp h
    exact ⟨c, c', hc, hc', rfl⟩

/-- An update of one tunnel that is guarded by `g`. -/
theorem update_guarded {i : Nat} {g : Conn → Prop} [DecidablePred g] {f : Conn → Conn}
    (h : (s.update i fun c => if g c then some (f c) else none) = some s') :
    ∃ c, s.conns[i]? = some c ∧ g c ∧ s' = { s with conns := s.conns.set i (f c) } := by
  obtain ⟨c, c', hc, hf, rfl⟩ := update_cases h
  split at hf <;> cases hf
  rename_i hg
  exact ⟨c, hc, hg, rfl⟩

theorem step_effect (h : (tunnels J).step s l = some s') : Effect J s l s' := by
  cases l with
  | runnerUp tenant id | workspaceUp tenant wid =>
    simp only [tunnels] at h
    split at h <;> cases h
    exact .register _ _ rfl
  | openEvents i | arrive i bytes | agentReturns i =>
    obtain ⟨c, hc, -, rfl⟩ := update_guarded h
    exact .move i c _ hc ⟨rfl, rfl, rfl, rfl, .inl rfl, id⟩ .inl
  | accept i =>
    obtain ⟨c, hc, ⟨hat, -⟩, rfl⟩ := update_guarded h
    exact .move i c _ hc ⟨rfl, rfl, rfl, rfl, .inr ⟨by rw [hat]; rfl, rfl⟩, id⟩ nofun
  | acceptFails i =>
    obtain ⟨c, hc, hat, rfl⟩ := update_guarded h
    exact .move i c _ hc ⟨rfl, rfl, rfl, rfl, .inr ⟨by rw [hat]; rfl, rfl⟩, id⟩ nofun
  | drain i now =>
    simp only [tunnels, drainEvents] at h
    (repeat' split at h) <;> cases h
    · rename_i _ c hc hat _ hread
      exact .move i c _ hc ⟨rfl, rfl, rfl, rfl, .inr ⟨by rw [hat]; rfl, rfl⟩, id⟩
        fun _ => .inr (.inr ⟨now, rfl, hread⟩)
    · rename_i _ c hc hat _ env rest hread
      exact .file i now c env rest hc hat hread
  | sessionCloses i =>
    obtain ⟨c, c', hc, hf, rfl⟩ := update_cases h
    cases hf
    exact .move i c _ hc ⟨rfl, rfl, rfl, rfl, .inl rfl, fun _ => rfl⟩ .inl
  | awaited i =>
    obtain ⟨c, hc, ⟨hat, hclosed⟩, rfl⟩ := update_guarded h
    exact .move i c _ hc ⟨rfl, rfl, rfl, rfl, .inr ⟨by rw [hat]; rfl, rfl⟩, id⟩
      fun _ => .inr (.inl hclosed)
  | remove i | forgetPreflight i | forgetActivity i =>
    simp only [tunnels, removeTunnel, TunnelServer.forgetPreflight,
      TunnelServer.forgetActivity] at h
    (repeat' split at h) <;> cases h <;> constructor <;> assumption

end TunnelServer

end Lemul.MgmtApi
