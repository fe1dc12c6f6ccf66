import Lemul.PtySession.Session
import Lemul.Tunnel.Frame

/-!
# The output of one attach

The goroutine of the supervisor that takes what an attachment yields and writes it to the
stream as frames (`supervisor.go:732-750`), beside the session. The client keeps reading, so
a `Write` on the stream succeeds, and only `WriteFrame` itself can refuse. The reply before it
and the event that tells of the end of a session are left out here; `Lemul.Attach.Join` has
both.
-/

namespace Lemul.Attach

open PtySession Option

/-- How the goroutine stands. -/
inductive OutputLoop where
  | running
  /-- `Next` reported that the attachment is closed. -/
  | ended
  /-- `WriteFrame` returned an error, and the goroutine returned without a word. -/
  | failed
  deriving DecidableEq, Repr

/-- The stream as the goroutine knows it. -/
structure OutputStream where
  /-- Everything it has written. -/
  wire : GoString
  loop : OutputLoop
  deriving DecidableEq, Repr

def OutputStream.new : OutputStream := ⟨[], .running⟩

/-- The body of the loop (`supervisor.go:735-749`). -/
def OutputStream.onNext (o : OutputStream) : NextResult → OutputStream
  | .bytes p =>
      match writeFrame frameData p with
      | .ok buffers => { o with wire := o.wire ++ buffers.flatten }
      | .error _ => { o with loop := .failed }
  | .closed _ => { o with loop := .ended }

/-- A session, and the goroutine that serves attachment `id`. -/
def served (id : Nat) : Lts (Session × OutputStream) PtySession.Label where
  step x l :=
    match l with
    | .next i r =>
        if i = id then
          if x.2.loop = .running then (session.step x.1 l).map (·, x.2.onNext r) else none
        else (session.step x.1 l).map (·, x.2)
    | _ => (session.step x.1 l).map (·, x.2)

/-- A step of the session, and what the goroutine makes of it. -/
theorem served_step {id : Nat} {s s' : Session} {o o' : OutputStream} {l : PtySession.Label}
    (h : (served id).step (s, o) l = some (s', o')) : session.step s l = some s' ∧
      ((∀ r, l ≠ .next id r) ∧ o' = o ∨
        ∃ r, l = .next id r ∧ o.loop = .running ∧ o' = o.onNext r) := by
  simp only [served] at h
  split at h
  · rename_i i r
    split at h
    · rename_i hi
      split at h
      · rename_i hrunning
        obtain ⟨t, ht, heq⟩ := map_eq_some_iff.mp h
        cases heq
        exact ⟨ht, .inr ⟨r, by rw [hi], hrunning, rfl⟩⟩
      · cases h
    · rename_i hi
      obtain ⟨t, ht, heq⟩ := map_eq_some_iff.mp h
      cases heq
      refine ⟨ht, .inl ⟨fun r' heq => ?_, rfl⟩⟩
      cases heq
      exact hi rfl
  · rename_i hother
    obtain ⟨t, ht, heq⟩ := map_eq_some_iff.mp h
    cases heq
    exact ⟨ht, .inl ⟨fun r heq => hother id r heq, rfl⟩⟩

/-- The goroutine takes what the attachment has for it. -/
theorem served_next {id : Nat} {s : Session} {o : OutputStream} {a a' : Attachment}
    {r : NextResult} (hmade : s.made[id]? = some a) (hnext : a.next = some (r, a'))
    (hrunning : o.loop = .running) :
    (served id).step (s, o) (.next id r) =
      some ({ s with made := s.made.set id a' }, o.onNext r) := by
  have hstep : session.step s (.next id r) = some { s with made := s.made.set id a' } := by
    simp only [session, Session.step, hmade, bind_some, hnext, if_true]
  simp only [served, if_true, if_pos hrunning, hstep, map_some]

theorem onNext_overlong {o : OutputStream} {p : GoString} (h : maxFrame < p.length) :
    (o.onNext (.bytes p)).loop = .failed := by
  simp only [OutputStream.onNext, writeFrame, if_pos h]

/-- The chunk a step returned from `Next` on attachment `id`. -/
def takenChunk (id : Nat) : PtySession.Label → Option GoString
  | .next i (.bytes p) => if i = id then some p else none
  | _ => none

/-- The chunks `Next` on attachment `id` returned in a run. -/
def takenBy (id : Nat) (tr : List PtySession.Label) : List GoString := tr.filterMap (takenChunk id)

/-- The chunks that a new attachment is seeded with (`session.go:236-242`). -/
def seedOf (s : Session) : List GoString :=
  [s.modes.prelude, s.ring.snapshot].filter (· ≠ [])

/-- The client that attached in `s₀`, which led to `s₁`, gets its seed, and what comes after
it. -/
structure GetsSeed (s₀ s₁ : Session) : Prop where
  /-- The seed does not overflow the queue. -/
  open_seeded : ∀ a, s₁.made[s₀.made.length]? = some a → a.closed = false
  /-- The goroutine does not stop before the attachment is closed. -/
  goes_on : ∀ tr s o, (served s₀.made.length).Run (s₁, .new) tr (s, o) → o.loop ≠ .failed
  /-- What it has taken is on the stream, in frames that `ReadFrame` accepts. -/
  framed : ∀ tr s o, (served s₀.made.length).Run (s₁, .new) tr (s, o) →
    ∃ fs : List Frame, o.wire = fs.flatMap frames.encode ∧ (∀ f ∈ fs, f.typ = frameData) ∧
      fs.map Frame.payload = takenBy s₀.made.length tr
  /-- When it waits for more, all of the seed is. -/
  delivered : ∀ tr s o, (served s₀.made.length).Run (s₁, .new) tr (s, o) →
    ∀ a, s.made[s₀.made.length]? = some a → a.closed = false → a.q = [] →
      seedOf s₀ <+: takenBy s₀.made.length tr

end Lemul.Attach
