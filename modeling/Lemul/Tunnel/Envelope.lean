import Lemul.Tunnel.Frame

/-!
# Control messages of an attach stream

The messages of `internal/tunnel/messages.go` that an attach stream carries, and how
`frame.go:68-115` puts them into control frames. `encoding/json` is not part of the
repository: `Json` is what these messages need of it, and `Json.Lawful` is what the results
that depend on it ask for.
-/

namespace Lemul

/-- `ModeControl` (`messages.go:176`). -/
def modeControl : GoString := "control"

/-- `ModeViewer` (`messages.go:177`). -/
def modeViewer : GoString := "viewer"

def msgAttach : GoString := "attach"
def msgResize : GoString := "resize"
def msgOK : GoString := "ok"
def msgError : GoString := "error"

/-- `Attach` (`messages.go:166-173`). -/
structure Attach where
  sessionID : GoString
  rows : UInt16
  cols : UInt16
  mode : GoString
  create : Bool
  term : GoString
  deriving DecidableEq, Repr

/-- `AttachOK` (`messages.go:182-185`). -/
structure AttachOK where
  sessionID : GoString
  created : Bool
  deriving DecidableEq, Repr

/-- `Resize` (`messages.go:384-387`). -/
structure Resize where
  rows : UInt16
  cols : UInt16
  deriving DecidableEq, Repr

/-- `Envelope` (`frame.go:68-71`). -/
structure Envelope where
  type : GoString
  body : GoString
  deriving DecidableEq, Repr

/-- The values that are sent in an envelope on an attach stream. -/
inductive Body where
  | attach (m : Attach)
  | attachOK (m : AttachOK)
  | error (message : GoString)
  | resize (m : Resize)
  /-- `map[string]string{"event": name}`. -/
  | event (name : GoString)
  deriving DecidableEq, Repr

/-- `proto.Control` (`proto.go:35-39`): what a client sends in a text message. -/
structure Control where
  type : GoString
  rows : UInt16
  cols : UInt16
  deriving DecidableEq, Repr

/-- `TypeResize` (`proto.go:29`). -/
def typeResize : GoString := "resize"

/-- `encoding/json`, at the types it is used with. An `Unmarshal` that fails returns the
text of its error. -/
structure Json where
  marshal : Body → GoString
  marshalEnvelope : Envelope → GoString
  unmarshalEnvelope : GoString → Except GoString Envelope
  unmarshalAttach : GoString → Except GoString Attach
  unmarshalError : GoString → Except GoString GoString
  unmarshalResize : GoString → Except GoString Resize
  unmarshalControl : GoString → Except GoString Control

namespace Json

variable (J : Json)

/-- The payload `WriteMsg` (`frame.go:75-89`) puts into a control frame. -/
def envelope (typ : GoString) (body : Body) : GoString :=
  J.marshalEnvelope ⟨typ, J.marshal body⟩

/-- `WriteMsg`: the buffers it writes. -/
def writeMsg (typ : GoString) (body : Body) : Except GoString (List GoString) :=
  writeFrame frameControl (J.envelope typ body)

/-- The digits of `%#x`. -/
def hexByte (b : UInt8) : GoString :=
  "0x" ++ (Nat.toDigits 16 b.toNat).map (fun c => UInt8.ofNat c.toNat)

/-- `ReadMsg` (`frame.go:94-107`), once `ReadFrame` has returned. -/
def readMsg (f : Frame) : Except GoString Envelope :=
  if f.typ ≠ frameControl then
    .error ("expected control frame, got type " ++ hexByte f.typ)
  else
    match J.unmarshalEnvelope f.payload with
    | .error e => .error ("bad envelope: " ++ e)
    | .ok env => .ok env

/-- `Decode` (`frame.go:110-115`): without a body the value stays what it was. -/
def decode {α : Type} (unmarshal : GoString → Except GoString α) (zero : α) (env : Envelope) :
    Except GoString α :=
  if env.body = [] then .ok zero else unmarshal env.body

/-- `Unmarshal` reads an attach request as it was marshalled. Its strings are ASCII, for
`Marshal` replaces bytes that are not UTF-8; and what is marshalled is a Go value. -/
structure Lawful : Prop where
  attach : ∀ m : Attach, isASCII m.sessionID = true → isASCII m.mode = true →
    isASCII m.term = true → FitsInt (J.envelope msgAttach (.attach m)) →
    J.unmarshalEnvelope (J.envelope msgAttach (.attach m)) =
        .ok ⟨msgAttach, J.marshal (.attach m)⟩ ∧
      J.unmarshalAttach (J.marshal (.attach m)) = .ok m ∧ J.marshal (.attach m) ≠ []

end Json

end Lemul
