import Lemul.Misc.Lts
import Lemul.Misc.SharedStream
import Lemul.Tunnel.Events

/-!
# The event stream of a tunnel

`internal/supervisor/supervisor.go:327-400`: the headroom ticker, the preflight goroutine and
every `onSessionExit` callback call `sendEvent`, which holds the supervisor's mutex only to
read `s.events` and then writes a frame in two `Write`s. `mgmtapi/tunnels.go:204-219` reads the
other end. One tunnel is modelled: `OnConnect` has stored its stream and `OnDisconnect` may
clear it. A `Write` is atomic; one that fails writes nothing.
-/

namespace Lemul.Supervisor

/-- The event stream of one tunnel, with both of its ends. -/
structure EventStream where
  /-- `s.events` is this stream. -/
  attached : Bool
  /-- The events of the calls of `sendEvent` that write on the stream, as they were made. -/
  events : List Event
  /-- The stream; its writers are these calls. -/
  shared : Shared UInt8 Frame
  /-- The envelopes `drainEvents` has passed to `handleEvent`. -/
  read : List Envelope
  /-- The error of `ReadMsg` on which `drainEvents` has returned. -/
  err : Option GoString
  deriving DecidableEq

namespace EventStream

/-- After `OnConnect`. -/
def new : EventStream := ⟨true, [], Shared.idle, [], none⟩

variable (J : EventJson) (s : EventStream)

/-- `sendEvent` (`supervisor.go:355-366`) up to its first `Write`. A message that is too large
for a frame is refused before anything is written. -/
def sendEvent (ev : Event) : EventStream :=
  if s.attached = false then s
  else
    match J.writeEvent ev with
    | .error _ => s
    | .ok buffers =>
        if h : (J.marshalEnvelope (J.message ev)).length ≤ maxFrame then
          { s with
            events := s.events ++ [ev]
            shared := s.shared.start ⟨frameControl, J.marshalEnvelope (J.message ev), h⟩ buffers }
        else s

/-- One turn of the loop of `drainEvents` (`tunnels.go:212-218`). It waits while the frame is
not all there. -/
def drainEvents : Option EventStream :=
  if s.err.isSome then none
  else
    match readFrame s.shared.wire with
    | .short => none
    | .error e => some { s with err := some e }
    | .frame f rest =>
        match J.readMsg f with
        | .error e => some { s with shared := { s.shared with wire := rest }, err := some e }
        | .ok env =>
            some { s with shared := { s.shared with wire := rest }, read := s.read ++ [env] }

/-- The message of call `i`. -/
def messageOf (i : Nat) : Option Envelope := (s.events[i]?).map J.message

/-- Call `i` of `sendEvent` has returned, and no `Write` failed. -/
def succeeded (i : Nat) : Bool := s.shared.succeeded i

end EventStream

/-- What can happen on the event stream. -/
inductive Label where
  | send (ev : Event)
  /-- The next `Write` of call `i`. -/
  | write (i : Nat) (ok : Bool)
  | drain
  | onDisconnect
  deriving DecidableEq

/-- The event stream. -/
def eventStream (J : EventJson) : Lts EventStream Label where
  step s l :=
    match l with
    | .send ev => some (s.sendEvent J ev)
    | .write i ok => (s.shared.write i ok).map fun shared => { s with shared }
    | .drain => s.drainEvents J
    | .onDisconnect => some { s with attached := false }

/-- A `Write` that goes on with a frame, or begins one while no other frame is on the stream
in part. -/
def inTurn (s : EventStream) : Label → Bool
  | .write i _ => s.shared.inTurn i
  | _ => true

end Lemul.Supervisor
