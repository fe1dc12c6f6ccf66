import Lemul.Misc.Pool

/-!
# The size of a terminal

`internal/ptysession/session.go:230-327` (`Attach`, `nudge`, `Resize`), `attachment.go:116-121`
and the two ways a supervisor forks a PTY (`supervisor.go:582-618`, `:680-712`), for one session
that does not end. A nudge is a goroutine of its own: it takes `nudgeMu`, reads the size,
and either resizes or shrinks the terminal by a column and restores it after a while. Each
`Size` and each `Resize` is one step under the session's mutex. A client's resize frames come
at any time after its attach.
-/

namespace Lemul.PtySession.Nudge

/-- Whose request it is. -/
inductive Role where
  | controller
  | viewer
  deriving DecidableEq, Repr

structure Size where
  rows : UInt16
  cols : UInt16
  deriving DecidableEq, Repr

/-- A size that `Resize` and `nudge` go by. -/
def Size.given (z : Size) : Bool := z.rows ≠ 0 && z.cols ≠ 0

/-- The size of a PTY that is forked with `z` (`session.go:109-114`). -/
def Size.forked (z : Size) : Size :=
  ⟨if z.rows = 0 then 24 else z.rows, if z.cols = 0 then 80 else z.cols⟩

/-- The size a nudge passes through. -/
def Size.shrunk (z : Size) : Size := ⟨z.rows, z.cols - 1⟩

inductive Op where
  /-- `Manager.Get`. -/
  | get
  /-- `createSession` with the size of a request, if it is for one. -/
  | create (who : Option Role) (asked : Size)
  /-- `Attach` up to the nudge. -/
  | attach (who : Role) (asked : Size) (repaint : Bool)
  | lockNudge
  | size
  /-- `Resize` by a nudge. `asked` says whose request the size is from, unless it is the size
  the nudge has read. -/
  | nudgeTo (asked : Option Role) (z : Size)
  | unlockNudge
  /-- `Resize` of an attachment. -/
  | resize (who : Role) (z : Size)
  deriving DecidableEq

abbrev Res : Op → Type
  | .get => Bool
  | .create _ _ => Bool
  | .size => Size
  | _ => Unit

/-- Performing one step. -/
abbrev call (o : Op) : Prog Op Res (Res o) := Prog.perform o

/-- `nudge` (`session.go:290-307`) with the rows and columns of `who`. -/
def nudge (who : Role) (asked : Size) : Prog Op Res Unit := do
  call .lockNudge
  let cur ← call .size
  let goal := if asked.given then asked else cur
  let owner := if asked.given then some who else none
  if goal ≠ cur then
    call (.nudgeTo owner goal)
  else if 2 ≤ goal.cols then
    call (.nudgeTo owner goal.shrunk)
    call (.nudgeTo owner goal)
  call .unlockNudge

/-- `Attach` (`session.go:230-259`): a viewer's nudge is not told the viewer's size. -/
def attach (who : Role) (asked : Size) (repaint : Bool) : Prog Op Res Unit := do
  call (.attach who asked repaint)
  if repaint then
    nudge who (if who = .viewer then ⟨0, 0⟩ else asked)

/-- `handleAttach` (`supervisor.go:680-714`). -/
def handleAttach (who : Role) (asked : Size) (mayCreate : Bool) : Prog Op Res Unit := do
  if ← call .get then
    attach who asked true
  else if mayCreate then
    if ← call (.create (some who) asked) then
      attach who asked false

/-- `handleStartSession` (`supervisor.go:582-618`). -/
def handleStartSession : Prog Op Res Unit := do
  if ← call .get then
    pure ()
  else
    let _ ← call (.create none ⟨0, 0⟩)

inductive Request where
  | startSession
  | attach (who : Role) (asked : Size) (mayCreate : Bool)
  /-- A resize frame. -/
  | resize (who : Role) (z : Size)
  deriving DecidableEq, Repr

def handle : Request → Prog Op Res Unit
  | .startSession => handleStartSession
  | .attach who asked mayCreate => handleAttach who asked mayCreate
  | .resize who z => call (.resize who z)

/-- A session's terminal. -/
structure Terminal where
  /-- Its size, once it has been forked. -/
  size : Option Size
  /-- Who holds `nudgeMu`. -/
  nudgeMu : Option Nat
  /-- The nudges that have not finished. -/
  nudges : List Nat
  /-- Those among them that bring a controller's size and have not begun. -/
  asking : List Nat
  /-- The last size a controller has requested. -/
  requested : Option Size
  /-- Some size came from a viewer's request. -/
  viewerSet : Bool
  deriving DecidableEq, Repr

namespace Terminal

/-- Before the session is forked. -/
def new : Terminal := ⟨none, none, [], [], none, false⟩

/-- Notes that `who` requests `z`. -/
def request (s : Terminal) (who : Role) (z : Size) : Terminal :=
  if who = .controller ∧ z.given then { s with requested := some z } else s

/-- `Resize` (`session.go:316-327`), with the size of `asked`. -/
def resize (s : Terminal) (asked : Option Role) (z : Size) : Terminal :=
  if z.given then
    { s with size := some z, viewerSet := s.viewerSet || asked = some .viewer }
  else s

/-- `newSession` with the size of `asked`. -/
def fork (s : Terminal) (asked : Option Role) (z : Size) : Terminal :=
  { s with
    size := some z.forked
    viewerSet := s.viewerSet || (asked = some .viewer && z ≠ ⟨0, 0⟩) }

end Terminal

def exec (tid : Nat) : (o : Op) → Res o → Terminal → Option Terminal
  | .get, r, s => if r = s.size.isSome then some s else none
  | .create who asked, r, s =>
      if r then
        if s.size = none then
          let forked := s.fork who asked
          some (if who = some .controller then forked.request .controller asked else forked)
        else none
      else some s
  | .attach who asked repaint, _, s =>
      if s.size = none then none
      else if repaint then
        some { s.request who asked with
          nudges := tid :: s.nudges
          asking := if who = .controller ∧ asked.given then tid :: s.asking else s.asking }
      else some s
  | .lockNudge, _, s =>
      if s.nudgeMu = none then
        some { s with nudgeMu := some tid, asking := s.asking.filter (· ≠ tid) }
      else none
  | .size, r, s => if some r = s.size then some s else none
  | .nudgeTo asked z, _, s => some (s.resize asked z)
  | .unlockNudge, _, s =>
      some { s with nudgeMu := none, nudges := s.nudges.filter (· ≠ tid) }
  | .resize who z, _, s =>
      if s.size = none then none
      else if who = .viewer then some s
      else some ((s.resize (some who) z).request who z)

/-- A terminal with any clients. -/
def terminal : System Op Res Terminal Empty Request Unit where
  exec := exec
  env e _ := e.elim
  spawn q _ := some (handle q)

end Lemul.PtySession.Nudge
