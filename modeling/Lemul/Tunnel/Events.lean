import Lemul.Tunnel.Envelope

/-!
# Events

The messages an agent sends unasked, on the one stream it opens itself
(`internal/tunnel/messages.go:76-82, 271-316, 377-381, 399-423`). `EventJson` is what they
need of `encoding/json`, besides what every envelope needs.
-/

namespace Lemul

def msgHeadroom : GoString := "headroom"
def msgSessionExited : GoString := "session_exited"
def msgPreflight : GoString := "preflight"

/-- `SessionActivity` (`messages.go:298-316`). -/
structure SessionActivity where
  sessionID : GoString
  attachers : Int
  outputIdleSecs : Int
  modelIdleSecs : Int
  toolIdleSecs : Int
  deriving DecidableEq, Repr

/-- `Headroom` (`messages.go:271-287`). -/
structure Headroom where
  workspaceID : GoString
  memFreeMB : Int
  memLimitMB : Int
  sessions : Int
  activity : List SessionActivity
  deriving DecidableEq, Repr

/-- `PreflightModel` (`messages.go:414-423`). -/
structure PreflightModel where
  role : GoString
  modelID : GoString
  required : Bool
  authorization : GoString
  invocable : Bool
  errorCode : GoString
  error : GoString
  advice : GoString
  deriving DecidableEq, Repr

/-- `PreflightReport` (`messages.go:399-412`). -/
structure PreflightReport where
  workspaceID : GoString
  region : GoString
  checkedAt : GoString
  skipped : Bool
  blocking : Bool
  models : List PreflightModel
  deriving DecidableEq, Repr

/-- `FirstBlocker` (`messages.go:427-434`). -/
def PreflightReport.firstBlocker (p : PreflightReport) : Option PreflightModel :=
  p.models.find? fun m => m.required && !m.invocable

/-- `SessionExited` (`messages.go:377-381`). -/
structure SessionExited where
  workspaceID : GoString
  sessionID : GoString
  exitCode : Int
  deriving DecidableEq, Repr

/-- What a supervisor sends on its event stream. -/
inductive Event where
  | headroom (m : Headroom)
  | preflight (m : PreflightReport)
  | sessionExited (m : SessionExited)
  deriving DecidableEq, Repr

/-- The type of the envelope an event travels in. -/
def Event.typ : Event → GoString
  | .headroom _ => msgHeadroom
  | .preflight _ => msgPreflight
  | .sessionExited _ => msgSessionExited

/-- `encoding/json` at the types of the events. -/
structure EventJson extends Json where
  marshalEvent : Event → GoString
  unmarshalHeadroom : GoString → Except GoString Headroom
  unmarshalPreflight : GoString → Except GoString PreflightReport

namespace EventJson

variable (J : EventJson)

/-- The envelope of an event. -/
def message (ev : Event) : Envelope := ⟨ev.typ, J.marshalEvent ev⟩

/-- `WriteMsg` (`frame.go:75-89`) of an event: the buffers it writes. -/
def writeEvent (ev : Event) : Except GoString (List GoString) :=
  writeFrame frameControl (J.marshalEnvelope (J.message ev))

/-- `Unmarshal` reads the envelope of an event as it was marshalled. The body is a
`json.RawMessage`, so its bytes come back whatever strings the event holds. -/
def Lawful : Prop :=
  ∀ ev, (J.marshalEnvelope (J.message ev)).length ≤ maxFrame →
    J.unmarshalEnvelope (J.marshalEnvelope (J.message ev)) = .ok (J.message ev)

end EventJson

end Lemul
