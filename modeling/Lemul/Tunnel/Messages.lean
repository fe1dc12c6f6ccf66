import Lemul.Misc.GoString

/-!
# Commands to a runner

The messages of `internal/tunnel/messages.go` that the Management API and a runner
exchange. A command stream carries one command and one reply
(`mgmtapi/tunnels.go:275-290`).
-/

namespace Lemul

/-- `StartWorkspace` (`messages.go:91-108`). -/
structure StartWorkspace where
  tenantID : GoString
  workspaceID : GoString
  generation : Nat
  credential : GoString
  controlPlane : GoString
  relay : GoString
  image : GoString
  cpu : Nat
  memoryMB : Nat
  env : List (GoString × GoString)
  snapshotID : GoString
  deriving DecidableEq, Repr

/-- `StopWorkspace` (`messages.go:122-126`). -/
structure StopWorkspace where
  workspaceID : GoString
  ref : GoString
  snapshot : Bool
  deriving DecidableEq, Repr

/-- A command envelope. `DropSnapshot` (`messages.go:144-146`) carries one id. -/
inductive Command where
  | startWorkspace (m : StartWorkspace)
  | stopWorkspace (m : StopWorkspace)
  | dropSnapshot (snapshotID : GoString)
  deriving DecidableEq, Repr

namespace Command

/-- The command starts a task. -/
def starts : Command → Bool
  | .startWorkspace _ => true
  | _ => false

end Command

/-- A reply envelope: `MsgError` with its message, or a reply of another type with the
body it carries. `other` is a body that decodes to neither `Ref` nor `Stopped`. -/
inductive Reply where
  | error (message : GoString)
  | ref (ref : GoString)
  | stopped (snapshotID : GoString)
  | other
  deriving DecidableEq, Repr

namespace Reply

/-- `var ref tunnel.Ref; _ = env.Decode(&ref)`: what cannot be decoded leaves `""`. -/
def decodeRef : Reply → GoString
  | .ref r => r
  | _ => []

/-- `var stopped tunnel.Stopped; _ = env.Decode(&stopped)`. -/
def decodeStopped : Reply → GoString
  | .stopped id => id
  | _ => []

end Reply

end Lemul
