import Lemul.Misc.Lts
import Lemul.PtySession.Attachment
import Lemul.PtySession.Modes
import Lemul.PtySession.Ring

/-!
# A session's output

`internal/ptysession/session.go`: the reader of the PTY, the clients that attach, read and
detach, and the end of the child, interleaved. There are two kinds of locks. A section
under the session's mutex in which attachments are visited one by one (the fan-out of a
chunk, the end of the session) is several steps with the mutex held, since a client's
`Next` takes only its attachment's own mutex and can run in between; every other section
is one step.

The size of the terminal, the nudge and `lastOutput` are left out: they touch none of
this. What the PTY yields is arbitrary.
-/

namespace Lemul.PtySession

/-- `readBufBytes` (`session.go:32`). -/
def readBufBytes : Nat := 32 * 2 ^ 10

/-- Who holds the session's mutex. -/
inductive Holder where
  | free
  /-- `readLoop`, which has yet to push `p` to the attachments `rest`. -/
  | delivering (p : GoString) (rest : List Nat)
  /-- `finish`, which has yet to close the attachments `rest`. -/
  | finishing (rest : List Nat)
  deriving DecidableEq, Repr

/-- How far `readLoop` has got. -/
inductive Reader where
  | reading
  /-- `Read` failed, and `finish` waits for the child. -/
  | waiting
  | done
  deriving DecidableEq, Repr

/-- `Session` (`session.go:75-98`). -/
structure Session where
  ring : Ring
  modes : ModeTracker
  /-- Every attachment made so far. Its number is its position here. -/
  made : List Attachment
  /-- The map of registered attachments. -/
  attachments : List Nat
  exited : Bool
  exitCode : Int
  holder : Holder
  reader : Reader
  /-- The attachments that a `Detach` has taken out of the map and goes on to close. -/
  detaching : List Nat

/-- `newSession` (`session.go:105-157`). -/
def newSession (ringBytes : Int) : Session where
  ring := .new ringBytes
  modes := .new
  made := []
  attachments := []
  exited := false
  exitCode := 0
  holder := .free
  reader := .reading
  detaching := []

/-- One step of a session. -/
inductive Label where
  /-- `readLoop` has read `p` and enters its locked section (`session.go:167-177`); the map
  is visited in the order `order`. -/
  | read (p : GoString) (order : List Nat)
  /-- It pushes to the next attachment. -/
  | push
  | unlock
  /-- `Read` fails. -/
  | eof
  /-- `finish` enters its locked section (`session.go:196-207`). -/
  | finish (code : Int) (order : List Nat)
  /-- It closes the next attachment. -/
  | close
  | finished
  | attach (readOnly : Bool)
  /-- The locked section of `Detach` (`session.go:265-267`). -/
  | delete (id : Nat)
  /-- What follows it: the attachment is closed (`session.go:268`). -/
  | detached (id : Nat)
  | next (id : Nat) (r : NextResult)
  deriving DecidableEq, Repr

namespace Session

/-- What a new attachment starts from (`session.go:236-242`). -/
def seeded (s : Session) (readOnly : Bool) : Attachment :=
  ((Attachment.new readOnly Attachment.defaultQueueBytes).push s.modes.prelude).push
    s.ring.snapshot

/-- The transition function. `Attach` on a session that has exited returns
`ErrSessionExited` and is no step. -/
def step (s : Session) : Label → Option Session
  | .read p order =>
      if s.holder = .free ∧ s.reader = .reading ∧ p ≠ [] ∧ p.length ≤ readBufBytes ∧
          order.Perm s.attachments then
        some { s with
          modes := s.modes.feed p
          ring := s.ring.push p s.modes.atBoundary
          holder := .delivering p order }
      else none
  | .push =>
      match s.holder with
      | .delivering p (id :: rest) =>
          some { s with made := s.made.modify id (·.push p), holder := .delivering p rest }
      | _ => none
  | .unlock =>
      match s.holder with
      | .delivering _ [] => some { s with holder := .free }
      | _ => none
  | .eof =>
      if s.holder = .free ∧ s.reader = .reading then some { s with reader := .waiting } else none
  | .finish code order =>
      if s.holder = .free ∧ s.reader = .waiting ∧ order.Perm s.attachments then
        some { s with exited := true, exitCode := code, holder := .finishing order }
      else none
  | .close =>
      match s.holder with
      | .finishing (id :: rest) =>
          some { s with
            made := s.made.modify id (·.close .sessionEnded), holder := .finishing rest }
      | _ => none
  | .finished =>
      if s.holder = .finishing [] then
        some { s with attachments := [], holder := .free, reader := .done }
      else none
  | .attach readOnly =>
      if s.holder = .free ∧ s.exited = false then
        some { s with
          made := s.made ++ [s.seeded readOnly]
          attachments := s.attachments ++ [s.made.length] }
      else none
  | .delete id =>
      if s.holder = .free ∧ id < s.made.length then
        some { s with
          attachments := s.attachments.filter (· ≠ id), detaching := id :: s.detaching }
      else none
  | .detached id =>
      if id ∈ s.detaching then some { s with made := s.made.modify id (·.close .detached) }
      else none
  | .next id r =>
      match (s.made[id]?).bind Attachment.next with
      | some (r', a) => if r = r' then some { s with made := s.made.set id a } else none
      | none => none

/-- The steps as rules, with what each of them asks for. -/
inductive Rule (s : Session) : Label → Session → Prop where
  | read {p : GoString} {order : List Nat} (hfree : s.holder = .free)
      (hreading : s.reader = .reading) (hperm : order.Perm s.attachments) :
      Rule s (.read p order) { s with
        modes := s.modes.feed p
        ring := s.ring.push p s.modes.atBoundary
        holder := .delivering p order }
  | push {p : GoString} {id : Nat} {rest : List Nat}
      (hholder : s.holder = .delivering p (id :: rest)) :
      Rule s .push { s with
        made := s.made.modify id (·.push p), holder := .delivering p rest }
  | unlock {p : GoString} (hholder : s.holder = .delivering p []) :
      Rule s .unlock { s with holder := .free }
  | eof (hfree : s.holder = .free) (hreading : s.reader = .reading) :
      Rule s .eof { s with reader := .waiting }
  | finish {code : Int} {order : List Nat} (hfree : s.holder = .free)
      (hwaiting : s.reader = .waiting) (hperm : order.Perm s.attachments) :
      Rule s (.finish code order) { s with
        exited := true, exitCode := code, holder := .finishing order }
  | close {id : Nat} {rest : List Nat} (hholder : s.holder = .finishing (id :: rest)) :
      Rule s .close { s with
        made := s.made.modify id (·.close .sessionEnded), holder := .finishing rest }
  | finished (hholder : s.holder = .finishing []) :
      Rule s .finished { s with attachments := [], holder := .free, reader := .done }
  | attach {readOnly : Bool} (hfree : s.holder = .free) :
      Rule s (.attach readOnly) { s with
        made := s.made ++ [s.seeded readOnly]
        attachments := s.attachments ++ [s.made.length] }
  | delete {id : Nat} (hfree : s.holder = .free) :
      Rule s (.delete id) { s with
        attachments := s.attachments.filter (· ≠ id), detaching := id :: s.detaching }
  | detached {id : Nat} :
      Rule s (.detached id) { s with made := s.made.modify id (·.close .detached) }
  | next {id : Nat} {r : NextResult} {a a' : Attachment} (hmade : s.made[id]? = some a)
      (hnext : a.next = some (r, a')) :
      Rule s (.next id r) { s with made := s.made.set id a' }

end Session

/-- A session and its clients, in any interleaving. -/
def session : Lts Session Label := ⟨Session.step⟩

/-- What a step did. -/
theorem step_rule {s s' : Session} {l : Label} (h : session.step s l = some s') :
    Session.Rule s l s' := by
  cases l <;> simp only [session, Session.step] at h <;> (repeat' split at h) <;>
    simp only [Option.some.injEq, reduceCtorEq] at h
  all_goals grind [Session.Rule]

/-- What a step can do to attachment `id`, which is `a` before it. -/
inductive Touches (s : Session) (id : Nat) (a : Attachment) : Label → Attachment → Prop where
  | same {l : Label} (hother : ∀ r, l ≠ .next id r) : Touches s id a l a
  | push {p : GoString} {rest : List Nat} (hholder : s.holder = .delivering p (id :: rest)) :
      Touches s id a .push (a.push p)
  | close {l : Label} {reason : CloseReason} (hother : ∀ r, l ≠ .next id r) :
      Touches s id a l (a.close reason)
  | next {r : NextResult} {a' : Attachment} (hnext : a.next = some (r, a')) :
      Touches s id a (.next id r) a'

theorem step_touches {s s' : Session} {id : Nat} {a : Attachment} {l : Label}
    (hmade : s.made[id]? = some a) (hstep : session.step s l = some s') :
    ∃ a', s'.made[id]? = some a' ∧ Touches s id a l a' := by
  have hmodify : ∀ (i : Nat) (f : Attachment → Attachment), (s.made.modify i f)[id]? =
      some (if i = id then f a else a) := by
    intro i f
    by_cases hi : i = id
    · simp [hi, hmade]
    · simp [hi, hmade]
  cases step_rule hstep with
  | @push p i rest hholder =>
    refine ⟨_, hmodify i _, ?_⟩
    split
    · rename_i hi
      exact .push (hi ▸ hholder)
    · exact .same nofun
  | @close i rest hholder | @detached i =>
    refine ⟨_, hmodify i _, ?_⟩
    split
    · exact .close nofun
    · exact .same nofun
  | attach =>
    refine ⟨a, ?_, .same nofun⟩
    rw [List.getElem?_append_left (List.getElem?_eq_some_iff.mp hmade).1]
    exact hmade
  | @next i r b b' hother hnext =>
    by_cases hi : i = id
    · subst hi
      cases hmade.symm.trans hother
      refine ⟨b', ?_, .next hnext⟩
      rw [List.getElem?_set_self (List.getElem?_eq_some_iff.mp hmade).1]
    · refine ⟨a, ?_, .same fun r' heq => ?_⟩
      · rw [List.getElem?_set_ne hi]
        exact hmade
      · cases heq
        exact hi rfl
  | read | unlock | eof | finish | finished | delete => exact ⟨a, hmade, .same nofun⟩

end Lemul.PtySession
