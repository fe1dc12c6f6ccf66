import Lemul.Misc.Lts
import Lemul.PtySession.Attachment
import Lemul.Tunnel.Envelope

/-!
# One attach

`handleAttach` in the relay (`relay/attach.go:107-201`) and in the supervisor
(`supervisor.go:443-457`, `:680-791`), joined by one stream of a tunnel: the request and its
reply, then four loops. The relay's goroutine and its handler pump the two directions
between the WebSocket and the stream; the supervisor's goroutine and its handler pump them
between the stream and the attachment. Every `Write` of `WriteFrame` is a step of its own.

The WebSocket and the stream keep their order or fail, so a read or a write can fail at any
time, and a write that fails may have put any first part of its buffer on the stream. A
stream or a WebSocket that is closed is one whose reads and writes fail. What the
attachment yields and how much of a write the PTY takes is arbitrary; the session can end and
close the PTY at any time. The answers of the relay as HTTP (before the upgrade) and log lines
are left out, and so are the close handshakes of the WebSocket library.
-/

namespace Lemul.Attach

open PtySession (NextResult)

/-- A message of the client. -/
inductive Message where
  | binary (p : GoString)
  | text (p : GoString)
  deriving DecidableEq, Repr

/-- What the relay sends to the client: a binary message, or a close frame. -/
inductive WsFrame where
  | binary (p : GoString)
  | close (code : Nat) (text : GoString)
  deriving DecidableEq, Repr

/-- `websocket.CloseNormalClosure`. -/
def closeNormalClosure : Nat := 1000

/-- How far the relay's handler has got. -/
inductive Relay where
  | opening
  /-- It is writing `MsgAttach`. -/
  | requesting
  /-- It waits for the reply. -/
  | awaiting
  /-- user → supervisor: it waits for a message of the client. -/
  | reading
  | writing
  | stopped
  deriving DecidableEq, Repr

/-- How far the relay's goroutine (supervisor → user) has got. -/
inductive Forward where
  | unborn
  | reading
  | forwarding (p : GoString)
  | closing
  | stopped
  deriving DecidableEq, Repr

/-- How far the supervisor's handler has got. -/
inductive Supervisor where
  | awaiting
  /-- It is writing `MsgOK`. -/
  | replying
  /-- It is writing `MsgError`. -/
  | refusing
  /-- control plane → PTY: it waits for a frame. -/
  | reading
  | delivering (p : GoString)
  | stopped
  deriving DecidableEq, Repr

/-- How far the supervisor's goroutine (PTY → control plane) has got. -/
inductive Output where
  | unborn
  | next
  | writing
  /-- It is writing the `session_ended` event. -/
  | ending
  | stopped
  deriving DecidableEq, Repr

/-- The master of the session's terminal. -/
inductive Ptmx where
  | live
  /-- `finish` closed it while a write of this attach was under way. -/
  | cut
  | closed
  deriving DecidableEq, Repr

/-- What the supervisor attached the stream to. -/
structure Attached where
  sessionID : GoString
  readOnly : Bool
  deriving DecidableEq, Repr

/-- One attach: both ends, what is in flight, and what has come out of it. -/
structure Join where
  /-- The request the relay sends. Its mode is the one the relay goes by too. -/
  req : Attach
  relay : Relay
  /-- Sent by the client and not yet read. -/
  fromClient : List Message
  /-- relay → supervisor. -/
  up : Link UInt8
  supervisor : Supervisor
  att : Option Attached
  /-- The calls of `Write` on the attachment, with how many bytes the PTY took. -/
  written : List (GoString × Nat)
  ptmx : Ptmx
  sizes : List Resize
  output : Output
  /-- supervisor → relay. -/
  down : Link UInt8
  forward : Forward
  /-- Sent to the client and not yet received. -/
  toClient : List WsFrame
  /-- What the client has received. -/
  client : List WsFrame

/-- The relay has opened a stream for a client. -/
def Join.new (req : Attach) : Join where
  req := req
  relay := .opening
  fromClient := []
  up := .idle
  supervisor := .awaiting
  att := none
  written := []
  ptmx := .live
  sizes := []
  output := .unborn
  down := .idle
  forward := .unborn
  toClient := []
  client := []

/-- One step of an attach. -/
inductive Label where
  | send (m : Message)
  | receive
  /-- The relay starts on its request (`attach.go:107`). -/
  | request
  /-- A `Write` on the stream by the relay: how much went through, and whether it worked. -/
  | upWrite (n : Nat) (ok : Bool)
  | relayFails
  | reply
  /-- `c.Read()` returns a message (`attach.go:169-201`). -/
  | message
  | forward
  | forwardFails
  /-- A write to the client: whether it went out, and whether it worked. -/
  | wsWrite (out ok : Bool)
  /-- The supervisor reads the request. `outcome` is what finding or creating the session
  and attaching to it came to: whether it was created, or the text of the error. -/
  | attach (outcome : Except GoString Bool)
  | supervisorFails
  /-- A `Write` on the stream by the supervisor. -/
  | downWrite (n : Nat) (ok : Bool)
  /-- `att.Next()` returns. -/
  | next (r : NextResult)
  /-- The supervisor's handler reads a frame (`supervisor.go:753-779`). -/
  | input
  /-- `att.Write` returns, the PTY having taken `n` bytes. -/
  | ptyWrite (n : Nat)
  /-- `finish` closes the terminal (`session.go:203`). -/
  | finish

namespace Join

/-! ## The relay -/

/-- The relay's handler starts to write a frame, or returns. -/
def relayWrites (s : Join) (pc : Relay) : Except GoString (List GoString) → Join
  | .ok buffers => { s with relay := pc, up := s.up.start buffers }
  | .error _ => { s with relay := .stopped }

/-- The relay's handler after a `Write`. -/
def relayWrote (s : Join) (ok : Bool) (up : Link UInt8) : Join :=
  if ok = false then { s with relay := .stopped, up := up }
  else if up.pending ≠ [] then { s with up := up }
  else { s with relay := if s.relay = .requesting then .awaiting else .reading, up := up }

/-- The reply to the request (`attach.go:111-133`). -/
def onReply (J : Json) (s : Join) (f : Frame) : Join :=
  match J.readMsg f with
  | .error _ => { s with relay := .stopped }
  | .ok env =>
      if env.type = msgError then { s with relay := .stopped }
      else { s with relay := .reading, forward := .reading }

/-- The body of the user → supervisor loop. -/
def onMessage (J : Json) (s : Join) : Message → Join
  | .binary p =>
      if s.req.mode = modeViewer then s else s.relayWrites .writing (writeFrame frameData p)
  | .text p =>
      match J.unmarshalControl p with
      | .error _ => s
      | .ok m =>
          if m.type ≠ typeResize ∨ s.req.mode = modeViewer then s
          else s.relayWrites .writing (J.writeMsg msgResize (.resize ⟨m.rows, m.cols⟩))

/-- The body of the supervisor → user loop, up to what it writes. -/
def onForward (s : Join) (f : Frame) : Join :=
  if f.typ = frameData then { s with forward := .forwarding f.payload }
  else if f.typ = frameControl then { s with forward := .closing }
  else s

/-- `WriteBytes` or `WriteCloseFrame`. -/
def onWsWrite (s : Join) (out ok : Bool) : Option Join :=
  match s.forward with
  | .forwarding p => some { s with
      toClient := if out then s.toClient ++ [.binary p] else s.toClient
      forward := if ok then .reading else .stopped }
  | .closing => some { s with
      toClient := if out then s.toClient ++ [.close closeNormalClosure "session ended"]
        else s.toClient
      forward := .stopped }
  | _ => none

/-! ## The supervisor -/

/-- `replyError` (`supervisor.go:793-795`), after which the handler returns. -/
def refuse (J : Json) (s : Join) (message : GoString) : Join :=
  match J.writeMsg msgError (.error message) with
  | .ok buffers => { s with supervisor := .refusing, down := s.down.start buffers }
  | .error _ => { s with supervisor := .stopped }

/-- The zero value of `tunnel.Attach`. -/
def noAttach : Attach := ⟨[], 0, 0, [], false, []⟩

/-- `serveAttachOnly` (`supervisor.go:443-457`) and `handleAttach` up to its reply
(`:680-724`). -/
def onAttach (J : Json) (s : Join) (f : Frame) (outcome : Except GoString Bool) : Join :=
  match J.readMsg f with
  | .error _ => { s with supervisor := .stopped }
  | .ok env =>
      if env.type ≠ msgAttach then
        s.refuse J "the data tunnel carries attach and nothing else"
      else
        match Json.decode J.unmarshalAttach noAttach env with
        | .error e => s.refuse J e
        | .ok req =>
            if req.sessionID = [] then s.refuse J "missing session_id"
            else
              match outcome with
              | .error e => s.refuse J e
              | .ok created =>
                  match J.writeMsg msgOK (.attachOK ⟨req.sessionID, created⟩) with
                  | .ok buffers => { s with
                      att := some ⟨req.sessionID, req.mode = modeViewer⟩
                      supervisor := .replying
                      down := s.down.start buffers }
                  | .error _ => { s with
                      att := some ⟨req.sessionID, req.mode = modeViewer⟩
                      supervisor := .stopped }

/-- The supervisor's handler or its goroutine after a `Write`. Only once the reply is out
is there a goroutine, and then the handler writes no more. -/
def supervisorWrote (s : Join) (ok : Bool) (down : Link UInt8) : Option Join :=
  match s.supervisor, s.output with
  | .replying, _ =>
      if ok = false then some { s with supervisor := .stopped, down := down }
      else if down.pending ≠ [] then some { s with down := down }
      else some { s with supervisor := .reading, output := .next, down := down }
  | .refusing, _ =>
      if ok ∧ down.pending ≠ [] then some { s with down := down }
      else some { s with supervisor := .stopped, down := down }
  | _, .writing =>
      if ok = false then some { s with output := .stopped, down := down }
      else if down.pending ≠ [] then some { s with down := down }
      else some { s with output := .next, down := down }
  | _, .ending =>
      if ok ∧ down.pending ≠ [] then some { s with down := down }
      else some { s with output := .stopped, down := down }
  | _, _ => none

/-- The goroutine starts to write a frame, or returns. -/
def outputWrites (s : Join) (pc : Output) : Except GoString (List GoString) → Join
  | .ok buffers => { s with output := pc, down := s.down.start buffers }
  | .error _ => { s with output := .stopped }

/-- The body of the goroutine (`supervisor.go:732-750`). -/
def onNext (J : Json) (s : Join) : NextResult → Join
  | .bytes p => s.outputWrites .writing (writeFrame frameData p)
  | .closed reason =>
      if reason = .sessionEnded then
        s.outputWrites .ending (J.writeMsg msgOK (.event "session_ended"))
      else { s with output := .stopped }

/-- `Resize` on the attachment (`attachment.go:116-121`): nothing for a viewer. -/
def resize (s : Join) (m : Resize) : Join :=
  match s.att with
  | some ⟨_, false⟩ => { s with sizes := s.sizes ++ [m] }
  | _ => s

/-- The body of the handler's loop (`supervisor.go:757-778`), up to `att.Write`. -/
def onInput (J : Json) (s : Join) (f : Frame) : Join :=
  if f.typ = frameData then { s with supervisor := .delivering f.payload }
  else if f.typ = frameControl then
    match J.unmarshalEnvelope f.payload with
    | .error _ => s
    | .ok env =>
        if env.type ≠ msgResize then s
        else
          match Json.decode J.unmarshalResize ⟨0, 0⟩ env with
          | .error _ => s
          | .ok m => s.resize m
  else s

/-- `Write` on the attachment (`attachment.go:108-113`): a viewer's input goes nowhere. That
the PTY took less than all of it is logged, and the loop goes on. -/
def onPtyWrite (s : Join) (n : Nat) : Option Join :=
  match s.supervisor, s.att with
  | .delivering p, some a =>
      if n ≤ p.length ∧ (a.readOnly → n = 0) then
        some { s with
          written := s.written ++ [(p, n)]
          supervisor := .reading
          ptmx := if s.ptmx = .cut then .closed else s.ptmx }
      else none
  | _, _ => none

/-- `ptmx.Close()`. -/
def onFinish (s : Join) : Join :=
  { s with ptmx := match s.supervisor with
    | .delivering _ => .cut
    | _ => .closed }

/-- The transition function. -/
def step (J : Json) (s : Join) : Label → Option Join
  | .send m => some { s with fromClient := s.fromClient ++ [m] }
  | .receive =>
      match s.toClient with
      | [] => none
      | f :: rest => some { s with toClient := rest, client := s.client ++ [f] }
  | .request =>
      if s.relay = .opening then
        some (s.relayWrites .requesting (J.writeMsg msgAttach (.attach s.req)))
      else none
  | .upWrite n ok =>
      if s.relay = .requesting ∨ s.relay = .writing then
        (s.up.write n ok).map (s.relayWrote ok)
      else none
  | .relayFails =>
      if s.relay = .awaiting ∨ s.relay = .reading then some { s with relay := .stopped } else none
  | .reply =>
      if s.relay = .awaiting then
        (s.down.read frames).map (fun r => onReply J { s with down := r.2 } r.1)
      else none
  | .message =>
      match s.relay, s.fromClient with
      | .reading, m :: rest => some (onMessage J { s with fromClient := rest } m)
      | _, _ => none
  | .forward =>
      if s.forward = .reading then
        (s.down.read frames).map (fun r => onForward { s with down := r.2 } r.1)
      else none
  | .forwardFails =>
      if s.forward = .reading then some { s with forward := .stopped } else none
  | .wsWrite out ok => if ok ∧ ¬out then none else s.onWsWrite out ok
  | .attach outcome =>
      if s.supervisor = .awaiting then
        (s.up.read frames).map (fun r => onAttach J { s with up := r.2 } r.1 outcome)
      else none
  | .supervisorFails =>
      if s.supervisor = .awaiting ∨ s.supervisor = .reading then
        some { s with supervisor := .stopped }
      else none
  | .downWrite n ok => (s.down.write n ok).bind (s.supervisorWrote ok)
  | .next r => if s.output = .next then some (onNext J s r) else none
  | .input =>
      if s.supervisor = .reading then
        (s.up.read frames).map (fun r => onInput J { s with up := r.2 } r.1)
      else none
  | .ptyWrite n => s.onPtyWrite n
  | .finish => if s.ptmx = .live then some s.onFinish else none

end Join

/-- An attach, in any interleaving. -/
def join (J : Json) : Lts Join Label := ⟨Join.step J⟩

namespace Join

/-- What a step can be, and when. -/
inductive Rule (J : Json) (s : Join) : Label → Join → Prop
  | send {m : Message} : Rule J s (.send m) { s with fromClient := s.fromClient ++ [m] }
  | receive {f : WsFrame} {rest : List WsFrame} (hto : s.toClient = f :: rest) :
      Rule J s .receive { s with toClient := rest, client := s.client ++ [f] }
  | request (hpc : s.relay = .opening) :
      Rule J s .request (s.relayWrites .requesting (J.writeMsg msgAttach (.attach s.req)))
  | upWrite {n : Nat} {ok : Bool} {up : Link UInt8}
      (hpc : s.relay = .requesting ∨ s.relay = .writing) (hwrite : s.up.write n ok = some up) :
      Rule J s (.upWrite n ok) (s.relayWrote ok up)
  | relayFails (hpc : s.relay = .awaiting ∨ s.relay = .reading) :
      Rule J s .relayFails { s with relay := .stopped }
  | reply {f : Frame} {down : Link UInt8} (hpc : s.relay = .awaiting)
      (hread : s.down.read frames = some (f, down)) :
      Rule J s .reply (onReply J { s with down := down } f)
  | message {m : Message} {rest : List Message} (hpc : s.relay = .reading)
      (hfrom : s.fromClient = m :: rest) :
      Rule J s .message (onMessage J { s with fromClient := rest } m)
  | forward {f : Frame} {down : Link UInt8} (hpc : s.forward = .reading)
      (hread : s.down.read frames = some (f, down)) :
      Rule J s .forward (onForward { s with down := down } f)
  | forwardFails (hpc : s.forward = .reading) :
      Rule J s .forwardFails { s with forward := .stopped }
  | forwards {out ok : Bool} {p : GoString} (hpc : s.forward = .forwarding p)
      (hok : ok = true → out = true) :
      Rule J s (.wsWrite out ok) { s with
        toClient := if out then s.toClient ++ [.binary p] else s.toClient
        forward := if ok then .reading else .stopped }
  | closes {out ok : Bool} (hpc : s.forward = .closing) :
      Rule J s (.wsWrite out ok) { s with
        toClient := if out then s.toClient ++ [.close closeNormalClosure "session ended"]
          else s.toClient
        forward := .stopped }
  | attach {outcome : Except GoString Bool} {f : Frame} {up : Link UInt8}
      (hsup : s.supervisor = .awaiting) (hread : s.up.read frames = some (f, up)) :
      Rule J s (.attach outcome) (onAttach J { s with up := up } f outcome)
  | supervisorFails (hsup : s.supervisor = .awaiting ∨ s.supervisor = .reading) :
      Rule J s .supervisorFails { s with supervisor := .stopped }
  | downWrite {n : Nat} {ok : Bool} {down : Link UInt8} {s' : Join}
      (hwrite : s.down.write n ok = some down) (hwrote : s.supervisorWrote ok down = some s') :
      Rule J s (.downWrite n ok) s'
  | next {r : NextResult} (hpc : s.output = .next) : Rule J s (.next r) (onNext J s r)
  | input {f : Frame} {up : Link UInt8} (hsup : s.supervisor = .reading)
      (hread : s.up.read frames = some (f, up)) :
      Rule J s .input (onInput J { s with up := up } f)
  | ptyWrite {n : Nat} {p : GoString} {a : Attached} (hsup : s.supervisor = .delivering p)
      (hatt : s.att = some a) (hn : n ≤ p.length) (hviewer : a.readOnly → n = 0) :
      Rule J s (.ptyWrite n) { s with
        written := s.written ++ [(p, n)]
        supervisor := .reading
        ptmx := if s.ptmx = .cut then .closed else s.ptmx }
  | finish (hlive : s.ptmx = .live) : Rule J s .finish s.onFinish

theorem step_rule {J : Json} {s s' : Join} {l : Label} (hstep : (join J).step s l = some s') :
    Rule J s l s' := by
  cases l <;> simp only [join, step, onWsWrite, onPtyWrite] at hstep <;>
    (repeat' split at hstep) <;>
    simp only [Option.map_eq_some_iff, Option.bind_eq_some_iff, Prod.exists, Option.some.injEq,
      reduceCtorEq] at hstep
  all_goals grind [Rule]

end Join

end Lemul.Attach
