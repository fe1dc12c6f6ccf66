import Lemul.Attach.Codec
import Lemul.Attach.Proofs.Downward

/-!
# An attach is transparent

What an attach hands to the PTY and to the client are, message by message, first parts of
what it was given, and a normal closure comes after the last chunk. The handler goes on after
a write to the PTY that failed (`supervisor.go:760-762`); that leaves no gap, because the only
write that fails is one the end of the session overtakes.
-/

namespace Lemul.Attach

open List

open PtySession (NextResult)

/-- What Linux makes of a write to the master of a terminal, which `os.File` repeats until
everything is written: as long as the master is open all of it is taken, and once it is closed
nothing is. Of a write that the close overtakes any first part may be. -/
def ptmxWrites (s : Join) : Label → Bool
  | .ptyWrite n =>
      match s.ptmx with
      | .live => s.att.any (·.readOnly) || s.held.any (·.length == n)
      | .cut => true
      | .closed => n == 0
  | _ => true

/-- An attach to a session on a Linux terminal. -/
def onTerminal (J : Json) : Lts Join Label := (join J).restrict fun s l => ptmxWrites s l

namespace Join

variable {J : Json} {s s' : Join} {tr : List Label} {l : Label}

/-- What the PTY was given. -/
def given (s : Join) : GoString := (s.written.map Prod.fst).flatten

/-- What the PTY took is a first part of what it was given, and all of it until it is closed,
unless the client only watches. -/
structure Uncut (s : Join) : Prop where
  sofar : taken s.written <+: s.given
  whole : s.ptmx ≠ .closed → s.att.any (·.readOnly) = true ∨ taken s.written = s.given
  awaiting : s.supervisor = .awaiting → s.written = []

theorem uncut_new (req : Attach) : Uncut (.new req) :=
  ⟨prefix_refl _, fun _ => .inr rfl, fun _ => rfl⟩

theorem Uncut.kept (h : Uncut s) (hkept : Kept s s') : Uncut s' where
  sofar := by
    rw [given, hkept.written]
    exact h.sofar
  whole hopen := by
    rw [given, hkept.written, hkept.att]
    exact h.whole (hkept.unclosed hopen)
  awaiting hsup := by
    rw [hkept.written]
    exact h.awaiting (hkept.awaiting hsup)

/-- Nothing has been written when the request is read. -/
theorem Uncut.attach (h : Uncut s) (hsup : s.supervisor = .awaiting) (hreplies : Replies s s') :
    Uncut s' := by
  have hnone : s'.written = [] := (hreplies.sameData hsup).1.written.trans (h.awaiting hsup)
  have hall : taken s'.written = s'.given := by
    rw [given, hnone]
    rfl
  exact ⟨hall ▸ prefix_refl _, fun _ => .inr hall, fun _ => hnone⟩

theorem Uncut.ptyWrite {p : GoString} {n : Nat} {x : Attached} (h : Uncut s)
    (hcond : ptmxWrites s (.ptyWrite n) = true) (hsup : s.supervisor = .delivering p)
    (hatt : s.att = some x) (hviewer : x.readOnly → n = 0) :
    Uncut { s with
      written := s.written ++ [(p, n)], supervisor := .reading
      ptmx := if s.ptmx = .cut then .closed else s.ptmx } := by
  have htaken : taken (s.written ++ [(p, n)]) = taken s.written ++ p.take n := by simp [taken]
  have hgiven : ((s.written ++ [(p, n)]).map Prod.fst).flatten = s.given ++ p := by simp [given]
  have hnothing (hn : n = 0) : taken (s.written ++ [(p, n)]) <+: s.given ++ p := by
    rw [htaken, hn, take_zero, append_nil]
    exact h.sofar.trans (prefix_append _ _)
  have hsome (hall : taken s.written = s.given) :
      taken (s.written ++ [(p, n)]) <+: s.given ++ p := by
    rw [htaken, hall]
    exact (prefix_append_right_inj _).mpr <| take_prefix n p
  have hwatches (hr : x.readOnly = true) : s.att.any (·.readOnly) = true := by simp [hatt, hr]
  have hdrives (hr : x.readOnly ≠ true) (hopen : s.ptmx ≠ .closed) : taken s.written = s.given :=
    (h.whole hopen).resolve_left (by simp [hatt, hr])
  refine ⟨?_, fun hopen => ?_, nofun⟩
  · rw [given, hgiven]
    by_cases hr : x.readOnly = true
    · exact hnothing (hviewer hr)
    · by_cases hclosed : s.ptmx = .closed
      · exact hnothing (by simpa [ptmxWrites, hclosed] using hcond)
      · exact hsome (hdrives hr hclosed)
  · rw [given, hgiven]
    by_cases hr : x.readOnly = true
    · exact .inl (hwatches hr)
    · -- the terminal is open before the write and after it
      have hlive : s.ptmx = .live := by
        cases hptmx : s.ptmx <;> simp_all
      have hn : p.length = n := by
        simpa [ptmxWrites, hlive, hatt, hr, Join.held, hsup] using hcond
      right
      rw [htaken, ← hn, take_length, hdrives hr (by simp [hlive])]

theorem uncut_step (h : Uncut s) (hstep : (onTerminal J).step s l = some s') : Uncut s' := by
  obtain ⟨hcond, hstep⟩ := Lts.restrict_step hstep
  rcases kept_step hstep with hkept | ⟨outcome, f, up, -, hsup, -, rfl⟩ |
    ⟨n, p, x, rfl, hsup, hatt, hviewer, rfl⟩
  · exact h.kept hkept
  · have hread : Uncut { s with up := up } := ⟨h.sofar, h.whole, h.awaiting⟩
    exact hread.attach hsup (onAttach_replies outcome)
  · exact h.ptyWrite hcond hsup hatt hviewer

theorem upward_run {req : Attach} (hrun : (join J).Run (Join.new req) tr s) :
    ∃ q, Upward J tr s q := by
  refine hrun.traced (P := fun tr s => ∃ q, Upward J tr s q) ⟨[], upward_new req⟩ ?_
  rintro tr mid l last ⟨q, h⟩ hstep
  exact upward_step h hstep

theorem downward_run {req : Attach} (hrun : (join J).Run (Join.new req) tr s) :
    ∃ q, Downward tr s q := by
  refine hrun.traced (P := fun tr s => ∃ q, Downward tr s q) ⟨[], downward_new req⟩ ?_
  rintro tr mid l last ⟨q, h⟩ hstep
  exact downward_step h hstep

end Join

/-- Prefixes of lists of messages are prefixes of their bytes. -/
theorem flatten_isPrefix {a b : List GoString} (h : a <+: b) : a.flatten <+: b.flatten := by
  obtain ⟨c, rfl⟩ := h
  rw [flatten_append]
  exact prefix_append _ _

open Join

/-- An attach to a session on a Linux terminal is transparent: what the PTY took is a first
part of the bytes of the client's binary messages and what the client received is a first part
of the bytes of the attachment's chunks; every write to the PTY is one of these messages and
every binary message to the client one of these chunks, in order, so nothing of a control frame
is among them; and a normal closure is sent only when the attachment has ended with its session
and every chunk was sent before it. -/
theorem attach_transparent (J : Json) {req : Attach} {tr : List Label} {s : Join}
    (hrun : (onTerminal J).Run (Join.new req) tr s) :
    taken s.written <+: (sentBy tr).flatten ∧
    (binaryFrames s.client).flatten <+: (chunksBy tr).flatten ∧
    (s.written.map Prod.fst <+: sentBy tr ∧ binaryFrames s.client <+: chunksBy tr) ∧
    (∀ first text last,
      s.client ++ s.toClient = first ++ .close closeNormalClosure text :: last →
        Ended tr ∧ binaryFrames first = chunksBy tr) := by
  have hfree : (join J).Run (Join.new req) tr s := Lts.Run.of_restrict hrun
  have huncut : Uncut s := hrun.invariant (fun _ _ _ => uncut_step) (uncut_new req)
  obtain ⟨up, hup⟩ := upward_run hfree
  obtain ⟨down, hdown⟩ := downward_run hfree
  have hwritten : s.written.map Prod.fst <+: sentBy tr := by
    refine List.IsPrefix.trans ?_ hup.sofar
    rw [inputs, append_assoc]
    exact prefix_append _ _
  have hclient : binaryFrames s.client <+: chunksBy tr := by
    refine List.IsPrefix.trans ?_ hdown.sofar
    rw [outputs, binaryFrames_append, append_assoc]
    exact prefix_append _ _
  refine ⟨?_, flatten_isPrefix hclient, ⟨hwritten, hclient⟩, ?_⟩
  · exact huncut.sofar.trans (flatten_isPrefix hwritten)
  · exact fun first text last heq => hdown.closed first _ text last heq

/-! ## A run -/

/-- A request to drive session `s1`. -/
def drive : Attach := ⟨"s1", 24, 80, modeControl, true, []⟩

/-- The request and its reply. -/
def opened : List Label :=
  [.request, .upWrite 5 true, .upWrite 40 true, .attach (.ok true), .downWrite 5 true,
    .downWrite 17 true, .reply]

/-- A client types, resizes and types, and watches the session to its end, which comes while
its second message is written to the PTY. -/
def watched : List Label :=
  opened ++ ([.send (.binary "a"), .send (.text "6:resize2:402:90"),
     .send (.binary "bc"), .message, .upWrite 5 true, .upWrite 1 true, .message,
     .upWrite 5 true, .input, .ptyWrite 1, .upWrite 18 true, .message, .upWrite 5 true,
     .upWrite 2 true, .input, .input, .finish, .ptyWrite 1, .next (.bytes "xy"),
     .downWrite 5 true, .downWrite 2 true, .forward, .wsWrite true true, .receive,
     .next (.closed .sessionEnded), .downWrite 5 true, .downWrite 30 true, .forward,
     .wsWrite true true] : List Label)

def watchedState : Join :=
  ((onTerminal plain).exec (Join.new drive) watched).get (by decide +kernel)

theorem attach_transparent_watched :
    (onTerminal plain).Run (Join.new drive) watched watchedState ∧
    watchedState.toClient = [.close closeNormalClosure "session ended"] ∧
    taken watchedState.written = "ab" ∧ "ab" <+: (sentBy watched).flatten ∧
    Ended watched ∧ binaryFrames watchedState.client = chunksBy watched := by
  have hrun : (onTerminal plain).Run (Join.new drive) watched watchedState :=
    Lts.exec_run (Option.some_get _).symm
  have hclose : watchedState.toClient = [.close closeNormalClosure "session ended"] := by
    decide +kernel
  have htaken : taken watchedState.written = "ab" := by decide +kernel
  obtain ⟨htyped, -, -, hclosed⟩ := attach_transparent plain hrun
  refine ⟨hrun, hclose, htaken, htaken ▸ htyped, ?_⟩
  refine hclosed watchedState.client "session ended" [] ?_
  rw [hclose]

end Lemul.Attach
