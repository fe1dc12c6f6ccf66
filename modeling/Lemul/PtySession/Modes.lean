import Lemul.Misc.TextFields

/-!
# The mode tracker

`internal/ptysession/modes.go`: a scanner over a session's output that remembers the
terminal modes the program switched, and can say whether the stream is between escape
sequences.
-/

namespace Lemul.PtySession

/-- `stGround`, `stEsc`, `stCSI` (`modes.go:37-41`). -/
inductive ModeState where
  | ground
  | esc
  | csi
  deriving DecidableEq, Repr

/-- `maxTrackedModes` (`modes.go:45`). -/
def maxTrackedModes : Nat := 64

/-- `maxPartial` (`modes.go:49`). -/
def maxPartial : Nat := 64

/-- `transientModes` (`modes.go:57`). -/
def transientMode (n : Int) : Bool := n = 2026

/-- `ModeTracker` (`modes.go:29-35`). `dec` is its map, one entry per mode. -/
structure ModeTracker where
  state : ModeState
  /-- The bytes of the escape sequence still being consumed. -/
  partialSeq : GoString
  dec : List (Int × Bool)
  kitty : GoString
  modOther : GoString
  deriving DecidableEq, Repr

namespace ModeTracker

/-- `NewModeTracker` (`modes.go:59-61`). -/
def new : ModeTracker := ⟨.ground, [], [], [], []⟩

/-- `AtBoundary` (`modes.go:66`). -/
def atBoundary (m : ModeTracker) : Bool := m.state = .ground

/-- `m.dec[n] = set`, which refuses a new mode in a full map (`modes.go:124-127`). -/
def setMode (dec : List (Int × Bool)) (n : Int) (set : Bool) : List (Int × Bool) :=
  if dec.any (fun x => x.1 = n) then dec.map (fun x => if x.1 = n then (n, set) else x)
  else if maxTrackedModes ≤ dec.length then dec
  else dec ++ [(n, set)]

/-- The modes a `CSI ? ... h` or `CSI ? ... l` names (`modes.go:118-128`); what is not a
number is skipped. -/
def setModes (dec : List (Int × Bool)) (params : GoString) (set : Bool) : List (Int × Bool) :=
  (params.splitOn 59).foldl (fun dec f =>
    match atoi f with
    | none => dec
    | some n => setMode dec n set) dec

/-- `commit` (`modes.go:103-143`): interpret the complete sequence in `partialSeq`. -/
def commit (m : ModeTracker) (final : UInt8) : ModeTracker :=
  -- ESC, [ and the final byte are not parameters
  match (m.partialSeq.drop 2).dropLast with
  | [] => m
  | 63 :: params =>
      if final = 104 then { m with dec := setModes m.dec params true }
      else if final = 108 then { m with dec := setModes m.dec params false }
      else m
  | b :: _ =>
      if b = 62 ∨ b = 61 ∨ b = 60 then
        if final = 117 then { m with kitty := m.partialSeq }
        else if final = 109 ∧ b = 62 then { m with modOther := m.partialSeq }
        else m
      else m

/-- One byte of `Feed` (`modes.go:70-100`). -/
def feedByte (m : ModeTracker) (b : UInt8) : ModeTracker :=
  match m.state with
  | .ground => if b = 27 then { m with state := .esc, partialSeq := [b] } else m
  | .esc =>
      if b = 91 then { m with state := .csi, partialSeq := m.partialSeq ++ [b] }
      else { m with state := .ground, partialSeq := [] }
  | .csi =>
      let m := { m with partialSeq := m.partialSeq ++ [b] }
      if 64 ≤ b ∧ b ≤ 126 then { m.commit b with state := .ground, partialSeq := [] }
      else if maxPartial < m.partialSeq.length then { m with state := .ground, partialSeq := [] }
      else m

/-- `Feed` (`modes.go:69-101`). -/
def feed (m : ModeTracker) (p : GoString) : ModeTracker := p.foldl feedByte m

/-- One mode of the prelude (`modes.go:160-168`). -/
def renderMode (x : Int × Bool) : GoString :=
  str "\x1b[?" ++ formatInt x.1 ++ [if x.2 then 104 else 108]

/-- `Prelude` (`modes.go:145-172`): the modes in numerical order, then the keyboard
protocols. -/
def prelude (m : ModeTracker) : GoString :=
  ((m.dec.filter (fun x => !transientMode x.1)).insertionSort (fun x y => x.1 ≤ y.1)).flatMap
    renderMode ++ m.modOther ++ m.kitty

/-- A bracketed paste switched on, and a frame of synchronized output begun: only the
first is replayed. -/
example : (new.feed (str "\x1b[?2004h\x1b[?2026h")).prelude = str "\x1b[?2004h" := by decide

end ModeTracker

end Lemul.PtySession
