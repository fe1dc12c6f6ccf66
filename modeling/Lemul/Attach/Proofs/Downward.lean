import Lemul.Attach.Proofs.Upward
import Lemul.Misc.Lists

/-!
# From the attachment to a client

The direction from the attachment is first-in first-out as well (`Downward`), and its
stream ends in a control frame only when the attachment reported the end of its session:
then every chunk is in front of it.
-/

namespace Lemul.Attach

open List

open PtySession (NextResult)

/-- Before the relay has a reply. -/
def Relay.early : Relay → Bool
  | .opening | .requesting | .awaiting => true
  | _ => false

/-- Before the supervisor's reply is out. -/
def Supervisor.answering : Supervisor → Bool
  | .awaiting | .replying | .refusing => true
  | _ => false

/-- Frames after the reply: a control frame is the last one, after the end was reported. -/
def Tail (tr : List Label) (q : List Frame) : Prop :=
  (∀ f ∈ q, f.typ ≠ frameControl) ∨
    ∃ first c, q = first ++ [c] ∧ (∀ f ∈ first, f.typ ≠ frameControl) ∧ Ended tr

theorem Tail.nil (tr : List Label) : Tail tr [] := .inl nofun

variable {tr tr' : List Label} {q : List Frame}

theorem Tail.mono (h : Tail tr q) (hended : Ended tr → Ended tr') : Tail tr' q := by
  rcases h with hnone | ⟨first, c, hq, hfirst, hend⟩
  · exact .inl hnone
  · exact .inr ⟨first, c, hq, hfirst, hended hend⟩

variable {f : Frame}

/-- A frame taken from the front is a control frame only as the last one. -/
theorem Tail.tail (h : Tail tr (f :: q)) :
    Tail tr q ∧ (f.typ = frameControl → q = [] ∧ Ended tr) := by
  rcases h with hnone | ⟨first, c, hq, hfirst, hended⟩
  · exact ⟨.inl fun g hg => hnone g (mem_cons_of_mem _ hg),
      fun hf => absurd hf (hnone f mem_cons_self)⟩
  · cases first with
    | nil =>
      obtain ⟨-, rfl⟩ := List.cons.inj hq
      exact ⟨.nil tr, fun _ => ⟨rfl, hended⟩⟩
    | cons g first =>
      obtain ⟨rfl, rfl⟩ := List.cons.inj hq
      refine ⟨.inr ⟨first, c, rfl, fun x hx => hfirst x (mem_cons_of_mem _ hx), hended⟩, ?_⟩
      exact fun hf => absurd hf (hfirst f mem_cons_self)

/-- While the end has not been reported a frame can follow. -/
theorem Tail.snoc (h : Tail tr q) (hopen : ¬Ended tr)
    (hf : f.typ = frameControl → Ended tr') : Tail tr' (q ++ [f]) := by
  rcases h with hnone | ⟨first, c, -, -, hended⟩
  · by_cases hcontrol : f.typ = frameControl
    · exact .inr ⟨q, f, rfl, hnone, hf hcontrol⟩
    · left
      intro g hg
      rcases mem_concat.mp hg with hold | rfl
      · exact hnone g hold
      · exact hcontrol
  · exact absurd hended hopen

namespace Join

variable {J : Json} {s s' : Join} {q : List Frame} {tr : List Label} {l : Label}

/-- The chunks that are on their way to the client. -/
def arriving (s : Join) (q : List Frame) : List GoString :=
  match s.forward with
  | .stopped => []
  | .forwarding p => p :: dataOf q
  | _ => dataOf q

/-- The chunks that were sent to the client or are on their way to it, in order. -/
def outputs (s : Join) (q : List Frame) : List GoString :=
  binaryFrames (s.client ++ s.toClient) ++ s.arriving q

/-- The direction to the client, with the frames `q` on the stream. -/
structure Downward (tr : List Label) (s : Join) (q : List Frame) : Prop where
  carries : s.down.Carries frames q
  /-- After a failed write nobody writes again. -/
  broken : s.down.broken = true →
    s.output = .stopped ∨ s.output = .unborn ∧ s.supervisor = .stopped
  idle : s.output = .next ∨ s.supervisor = .awaiting → s.down.pending = []
  unborn : s.supervisor.answering = true → s.output = .unborn
  sofar : s.outputs q <+: chunksBy tr
  /-- While both goroutines run, and once the end was reported, nothing is lost. -/
  live : s.output ≠ .stopped ∨ Ended tr → s.forward ≠ .stopped → s.outputs q = chunksBy tr
  ended : Ended tr → s.output = .ending ∨ s.output = .stopped
  early : s.relay.early = true → s.forward = .unborn
  awaiting : s.supervisor = .awaiting → s.forward = .unborn ∧ q = []
  /-- The first frame is the reply. -/
  reply : s.forward = .unborn → s.relay ≠ .stopped →
    q = [] ∧ s.output = .unborn ∧ (s.supervisor = .awaiting ∨ s.supervisor = .stopped) ∨
      ∃ f rest, q = f :: rest ∧ f.typ = frameControl ∧ Tail tr rest
  replied : s.forward ≠ .unborn → Tail tr q
  closing : s.forward = .closing → Ended tr ∧ dataOf q = []
  closed : ∀ first code text last,
    s.client ++ s.toClient = first ++ .close code text :: last →
      Ended tr ∧ binaryFrames first = chunksBy tr

theorem downward_new (req : Attach) : Downward [] (Join.new req) [] where
  carries := Link.carries_idle frames
  broken h := by cases h
  idle _ := rfl
  unborn _ := rfl
  sofar := prefix_refl _
  live _ _ := rfl
  ended h := by cases h
  early _ := rfl
  awaiting _ := ⟨rfl, rfl⟩
  reply _ _ := .inl ⟨rfl, rfl, .inl rfl⟩
  replied h := absurd rfl h
  closing h := by cases h
  closed first code text last h := by
    have hlen := congrArg length h
    simp [Join.new] at hlen

/-- What the direction to the client depends on, up to how far the handlers have got. -/
structure SameDown (s s' : Join) : Prop where
  output : s'.output = s.output
  down : s'.down = s.down
  forward : s'.forward = s.forward
  sent : s'.client ++ s'.toClient = s.client ++ s.toClient
  stopped : s.relay = .stopped → s'.relay = .stopped
  early : s'.relay.early = true → s.relay.early = true
  answering : s'.supervisor.answering = true → s'.supervisor = s.supervisor
  awaiting : s.supervisor = .awaiting → s'.supervisor = .awaiting ∨ s'.supervisor = .stopped
  done : s.supervisor = .stopped → s'.supervisor = .stopped

/-- A step neither yields a chunk nor reports the end. -/
def Label.silent (l : Label) : Prop := l.chunk = [] ∧ l ≠ .next (.closed .sessionEnded)

theorem ended_silent (hl : Label.silent l) (h : Ended (tr ++ [l])) : Ended tr := by
  rcases mem_concat.mp h with hold | hnew
  · exact hold
  · exact absurd hnew.symm hl.2

/-- A silent step is as good as none. -/
theorem Downward.silent (h : Downward tr s q) (hl : Label.silent l) :
    Downward (tr ++ [l]) s q := by
  have hall : chunksBy (tr ++ [l]) = chunksBy tr := by
    rw [chunksBy_snoc, hl.1]
    exact append_nil _
  refine { h with sofar := ?_, live := ?_, ended := ?_, reply := ?_, replied := ?_,
                  closing := ?_, closed := ?_ }
  · rw [hall]
    exact h.sofar
  · rw [hall]
    exact fun hlive => h.live (hlive.imp id (ended_silent hl))
  · exact fun hended => h.ended (ended_silent hl hended)
  · intro hunborn hrelay
    rcases h.reply hunborn hrelay with hnone | ⟨f, rest, hq, hf, htail⟩
    · exact .inl hnone
    · exact .inr ⟨f, rest, hq, hf, htail.mono (·.snoc l)⟩
  · exact fun hborn => (h.replied hborn).mono (·.snoc l)
  · exact fun hclosing => (h.closing hclosing).imp (·.snoc l) id
  · intro first code text last heq
    rw [hall]
    exact (h.closed first code text last heq).imp (·.snoc l) id

/-- A step outside this direction. -/
theorem Downward.of_same (h : Downward tr s q) (hsame : SameDown s s') : Downward tr s' q := by
  have houtputs : s'.outputs q = s.outputs q := by
    simp only [outputs, arriving, hsame.forward, hsame.sent]
  constructor
  · rw [hsame.down]
    exact h.carries
  · rw [hsame.down, hsame.output]
    exact fun hb => (h.broken hb).imp id (.imp id hsame.done)
  · intro hidle
    rw [hsame.down]
    rcases hidle with hnext | hawait
    · exact h.idle (.inl (hsame.output ▸ hnext))
    · have hsup : s'.supervisor = s.supervisor := hsame.answering (by rw [hawait]; rfl)
      exact h.idle (.inr (hsup ▸ hawait))
  · intro hanswering
    rw [hsame.output]
    exact h.unborn (hsame.answering hanswering ▸ hanswering)
  · rw [houtputs]
    exact h.sofar
  · rw [houtputs, hsame.output, hsame.forward]
    exact h.live
  · rw [hsame.output]
    exact h.ended
  · rw [hsame.forward]
    exact fun hearly => h.early (hsame.early hearly)
  · intro hawait
    have hsup : s'.supervisor = s.supervisor := hsame.answering (by rw [hawait]; rfl)
    rw [hsame.forward]
    exact h.awaiting (hsup ▸ hawait)
  · intro hunborn hrelay
    rw [hsame.output]
    rcases h.reply (hsame.forward ▸ hunborn) (fun hstop => hrelay (hsame.stopped hstop)) with
      ⟨hq, hout, hsup⟩ | hreply
    · refine .inl ⟨hq, hout, ?_⟩
      rcases hsup with hawait | hstop
      · exact hsame.awaiting hawait
      · exact .inr (hsame.done hstop)
    · exact .inr hreply
  · rw [hsame.forward]
    exact h.replied
  · rw [hsame.forward]
    exact h.closing
  · rw [hsame.sent]
    exact h.closed

/-! ## Steps of the other direction -/

variable {up down : Link UInt8}

/-- A step that moves only the relay's handler, and not back. -/
theorem SameDown.of_relay {pc : Relay} {from' : List Message} (hlive : s.relay ≠ .stopped)
    (hearly : pc.early = true → s.relay.early = true) :
    SameDown s { s with relay := pc, up := up, fromClient := from' } :=
  ⟨rfl, rfl, rfl, rfl, fun h => absurd h hlive, hearly, fun _ => rfl, .inl, id⟩

theorem relayWrites_sameDown {pc : Relay} (hlive : s.relay ≠ .stopped)
    (hearly : pc.early = true → s.relay.early = true) (r : Except GoString (List GoString)) :
    SameDown s (s.relayWrites pc r) := by
  cases r with
  | ok buffers => exact .of_relay hlive hearly
  | error e =>
    have hstop : Relay.stopped.early = true → s.relay.early = true := nofun
    exact .of_relay hlive hstop

variable {ok : Bool} {text : GoString}

theorem relayWrote_sameDown
    (hpc : s.relay = .requesting ∨ s.relay = .writing) : SameDown s (s.relayWrote ok up) := by
  have hlive : s.relay ≠ .stopped := by
    rcases hpc with hpc | hpc <;> rw [hpc] <;> exact nofun
  unfold relayWrote
  split
  · exact .of_relay hlive nofun
  · split
    · exact .of_relay hlive id
    · refine .of_relay hlive ?_
      rcases hpc with hpc | hpc <;> rw [hpc]
      · exact fun _ => rfl
      · exact nofun

theorem onMessage_sameDown {rest : List Message} {m : Message} (hpc : s.relay = .reading) :
    SameDown s (onMessage J { s with fromClient := rest } m) := by
  have hlive : s.relay ≠ .stopped := hpc.trans_ne nofun
  rcases onMessage_cases (J := J) { s with fromClient := rest } m with
    ⟨heq, -⟩ | ⟨f, buffers, -, -, -, heq⟩ | heq <;> rw [heq]
  · exact .of_relay hlive id
  · exact .of_relay hlive nofun
  · exact .of_relay hlive nofun

/-- A step that moves only the supervisor's handler, once it has replied. -/
theorem SameDown.of_supervisor {pc : Supervisor} {up : Link UInt8}
    {written : List (GoString × Nat)} {ptmx : Ptmx} {sizes : List Resize}
    (hpc : pc.answering = false) (hlive : s.supervisor ≠ .awaiting)
    (hstop : s.supervisor ≠ .stopped) :
    SameDown s { s with
      supervisor := pc, up := up, written := written, ptmx := ptmx, sizes := sizes } where
  output := rfl
  down := rfl
  forward := rfl
  sent := rfl
  stopped := id
  early := id
  answering h := by
    cases hpc.symm.trans h
  awaiting h := absurd h hlive
  done h := absurd h hstop

theorem onInput_sameDown (f : Frame) (hsup : s.supervisor = .reading) :
    SameDown s (onInput J { s with up := up } f) := by
  rcases onInput_cases (J := J) { s with up := up } f with ⟨-, heq⟩ | ⟨-, sizes, heq⟩ <;> rw [heq]
  · exact .of_supervisor rfl (hsup.trans_ne nofun) (hsup.trans_ne nofun)
  · exact ⟨rfl, rfl, rfl, rfl, id, id, fun _ => rfl, .inl, id⟩

/-! ## Steps of this direction -/

/-- The relay's goroutine, or its handler for the reply, takes a frame. -/
theorem Downward.takes {rest : List Frame} {relay : Relay} {pc : Forward}
    (h : Downward tr s (f :: rest)) (hread : s.down.read frames = some (f, down))
    (hdown : down.Carries frames rest)
    (harriving : arriving { s with forward := pc } rest = s.arriving (f :: rest))
    (hearly : relay.early = false) (hrunning : s.forward ≠ .stopped)
    (hreplied : pc = .unborn → relay = .stopped) (htail : pc ≠ .unborn → Tail tr rest)
    (hclosing : pc = .closing → Ended tr ∧ dataOf rest = []) :
    Downward tr { s with down := down, relay := relay, forward := pc } rest := by
  obtain ⟨hpending, hbroken⟩ := Link.read_pending hread
  have houtputs : outputs { s with down := down, relay := relay, forward := pc } rest =
      s.outputs (f :: rest) := congrArg (binaryFrames (s.client ++ s.toClient) ++ ·) harriving
  constructor
  · exact hdown
  · rw [hbroken]
    exact h.broken
  · rw [hpending]
    exact h.idle
  · exact h.unborn
  · rw [houtputs]
    exact h.sofar
  · intro hlive _
    rw [houtputs]
    exact h.live hlive hrunning
  · exact h.ended
  · exact fun hearly' => nomatch hearly.symm.trans hearly'
  · exact fun hawait => nomatch (h.awaiting hawait).2
  · exact fun hunborn hrelay => absurd (hreplied hunborn) hrelay
  · exact htail
  · exact hclosing
  · exact h.closed

/-- While the supervisor waits for the request or for a chunk, the end was not reported and
the stream is fit to be written to. -/
theorem Downward.at_rest (h : Downward tr s q)
    (hrest : s.output = .next ∨ s.supervisor = .awaiting) :
    ¬Ended tr ∧ s.down.broken = false ∧ s.output ≠ .stopped := by
  have hended := h.ended
  have hbroken := h.broken
  have hunborn := h.unborn
  rcases hrest with hpc | hpc <;> grind [Supervisor.answering]

/-- A frame is started by the supervisor. -/
theorem Downward.starts {buffers : List GoString} {sup : Supervisor} {out : Output}
    {att : Option Attached} (h : Downward tr s q)
    (hrest : s.output = .next ∨ s.supervisor = .awaiting)
    (hbuffers : buffers.flatten = frames.encode f) (hchunk : l.chunk = dataOf [f])
    (hfirst : s.output = .unborn → q = [] ∧ s.forward = .unborn ∧ f.typ = frameControl)
    (htail : s.output ≠ .unborn → f.typ = frameControl → Ended (tr ++ [l]))
    (hended' : Ended (tr ++ [l]) → out = .ending ∨ out = .stopped)
    (hout : out ≠ .next ∧ sup ≠ .awaiting) (hunborn : sup.answering = true → out = .unborn) :
    Downward (tr ++ [l]) { s with
      supervisor := sup, att := att, output := out, down := s.down.start buffers } (q ++ [f]) := by
  obtain ⟨hopen, hbroken, hrunning⟩ := h.at_rest hrest
  have hall : chunksBy (tr ++ [l]) = chunksBy tr ++ dataOf [f] := by rw [chunksBy_snoc, hchunk]
  have houtputs (hforward : s.forward ≠ .stopped) :
      s.outputs (q ++ [f]) = chunksBy (tr ++ [l]) := by
    rw [hall, ← h.live (.inl hrunning) hforward]
    simp only [outputs, arriving]
    cases hpc : s.forward with
    | stopped => exact absurd hpc hforward
    | _ => simp
  constructor
  · exact h.carries.start hbroken (h.idle hrest) hbuffers
  · exact fun hb => nomatch hbroken.symm.trans hb
  · rintro (hpc | hpc)
    · exact absurd hpc hout.1
    · exact absurd hpc hout.2
  · exact hunborn
  · by_cases hpc : s.forward = .stopped
    · have hstopped : s.outputs (q ++ [f]) = s.outputs q := by simp only [outputs, arriving, hpc]
      show s.outputs (q ++ [f]) <+: _
      rw [hstopped, hall]
      exact h.sofar.trans (prefix_append _ _)
    · exact (houtputs hpc).symm ▸ prefix_refl _
  · exact fun _ hpc => houtputs hpc
  · exact hended'
  · exact h.early
  · exact fun hawait => absurd hawait hout.2
  · intro hpc hlive
    right
    by_cases hborn : s.output = .unborn
    · obtain ⟨hq, -, hf⟩ := hfirst hborn
      exact ⟨f, [], by rw [hq]; rfl, hf, .nil _⟩
    · rcases h.reply hpc hlive with ⟨-, hout', -⟩ | ⟨g, rest, hq, hg, ht⟩
      · exact absurd hout' hborn
      · exact ⟨g, rest ++ [f], by rw [hq]; rfl, hg, ht.snoc hopen (htail hborn)⟩
  · intro hpc
    by_cases hborn : s.output = .unborn
    · exact absurd (hfirst hborn).2.1 hpc
    · exact (h.replied hpc).snoc hopen (htail hborn)
  · exact fun hpc => absurd (h.closing hpc).1 hopen
  · exact fun first code text last heq => absurd (h.closed first code text last heq).1 hopen

/-- While the supervisor's goroutine waits for a chunk, its handler has replied. -/
theorem Downward.at_next (h : Downward tr s q) (hpc : s.output = .next) :
    s.supervisor.answering = false := by
  have hunborn := h.unborn
  grind

theorem not_awaiting (h : s.supervisor.answering = false) : s.supervisor ≠ .awaiting := by
  intro hawait
  rw [hawait] at h
  cases h

/-- The supervisor's goroutine stops without having started a frame, and what it was given
is lost. -/
theorem Downward.gives_up (h : Downward tr s q) (hpc : s.output = .next)
    (hended' : Ended (tr ++ [l]) → l.chunk = []) :
    Downward (tr ++ [l]) { s with output := .stopped } q := by
  obtain ⟨hopen, -, hlive⟩ := h.at_rest (.inl hpc)
  have hsup := h.at_next hpc
  constructor
  · exact h.carries
  · exact fun _ => .inl rfl
  · rintro (hnext | hawait)
    · cases hnext
    · exact h.idle (.inr hawait)
  · intro hanswering
    cases hsup.symm.trans hanswering
  · rw [chunksBy_snoc]
    exact h.sofar.trans (prefix_append _ _)
  · rintro (hstop | hended) hforward
    · exact absurd rfl hstop
    · rw [chunksBy_snoc, hended' hended, append_nil]
      exact h.live (.inl hlive) hforward
  · exact fun _ => .inr rfl
  · exact h.early
  · exact h.awaiting
  · intro hforward hrelay
    rcases h.reply hforward hrelay with ⟨-, hunborn, -⟩ | ⟨f, rest, hq, hf, htail⟩
    · cases hpc.symm.trans hunborn
    · exact .inr ⟨f, rest, hq, hf, htail.mono (·.snoc l)⟩
  · exact fun hforward => (h.replied hforward).mono (·.snoc l)
  · exact fun hclosing => absurd (h.closing hclosing).1 hopen
  · exact fun first code text last heq => absurd (h.closed first code text last heq).1 hopen

/-- The body of the supervisor's goroutine. -/
theorem onNext_downward (h : Downward tr s q) (hpc : s.output = .next) (r : NextResult) :
    ∃ q', Downward (tr ++ [.next r]) (onNext J s r) q' := by
  obtain ⟨hopen, -⟩ := h.at_rest (.inl hpc)
  have hsup := h.at_next hpc
  have hstarts (pc : Output) (typ : UInt8) (payload : GoString) (buffers : List GoString)
      (hw : writeFrame typ payload = .ok buffers) (hpc' : pc = .writing ∨ pc = .ending)
      (hchunk : ∀ f : Frame, f.typ = typ → f.payload = payload →
        (Label.next r).chunk = dataOf [f])
      (hcontrol : typ = frameControl → Ended (tr ++ [.next r]))
      (hended : Ended (tr ++ [.next r]) → pc = .ending) :
      ∃ q', Downward (tr ++ [.next r]) { s with
        output := pc, down := s.down.start buffers } q' := by
    obtain ⟨f, htyp, hpayload, hflat⟩ := writeFrame_ok hw
    refine ⟨q ++ [f], h.starts (.inl hpc) hflat (hchunk f htyp hpayload)
      (fun hout => nomatch hpc.symm.trans hout) ?_ ?_ ?_ ?_⟩
    · exact fun _ hf => hcontrol (htyp ▸ hf)
    · exact fun hend => .inl (hended hend)
    · refine ⟨?_, not_awaiting hsup⟩
      rcases hpc' with rfl | rfl <;> exact nofun
    · intro hanswering
      cases hsup.symm.trans hanswering
  cases r with
  | bytes p =>
    have hsame : Ended (tr ++ [.next (.bytes p)]) → Ended tr := by
      intro hended
      rcases mem_concat.mp hended with hold | hnew
      · exact hold
      · cases hnew
    simp only [onNext]
    cases hw : writeFrame frameData p with
    | error e => exact ⟨q, h.gives_up hpc fun hended => absurd (hsame hended) hopen⟩
    | ok buffers =>
      refine hstarts .writing frameData p buffers hw (.inl rfl) ?_ ?_ ?_
      · intro f htyp hpayload
        rw [dataOf_data htyp, hpayload]
        rfl
      · exact fun hcontrol => absurd hcontrol (by decide)
      · exact fun hended => absurd (hsame hended) hopen
  | closed reason =>
    simp only [onNext]
    split
    · rename_i hreason
      subst hreason
      have hend : Ended (tr ++ [.next (.closed .sessionEnded)]) :=
        mem_append_right _ (mem_singleton.mpr rfl)
      unfold Json.writeMsg
      cases hw : writeFrame frameControl (J.envelope msgOK (.event "session_ended")) with
      | error e => exact ⟨q, h.gives_up hpc fun _ => rfl⟩
      | ok buffers =>
        refine hstarts .ending frameControl _ buffers hw (.inr rfl) ?_ (fun _ => hend)
          (fun _ => rfl)
        intro f htyp hpayload
        rw [dataOf_other (control_ne_data htyp)]
        rfl
    · exact ⟨q, h.gives_up hpc fun _ => rfl⟩

/-- The supervisor's handler writes its reply, or its goroutine a frame. -/
def writes (s : Join) : Prop :=
  s.supervisor = .replying ∨ s.supervisor = .refusing ∨ s.output = .writing ∨ s.output = .ending

/-- How far the supervisor's side gets with a `Write`. -/
inductive Wrote (s : Join) (ok : Bool) (down : Link UInt8) : Supervisor → Output → Prop
  | more (hok : ok = true) : Wrote s ok down s.supervisor s.output
  | replied (hsup : s.supervisor = .replying) (hok : ok = true) (hidle : down.pending = []) :
      Wrote s ok down .reading .next
  | returns (hsup : s.supervisor = .replying ∨ s.supervisor = .refusing) :
      Wrote s ok down .stopped s.output
  | next (hout : s.output = .writing) (hok : ok = true) (hidle : down.pending = []) :
      Wrote s ok down s.supervisor .next
  | stops (hout : s.output = .writing ∨ s.output = .ending) : Wrote s ok down s.supervisor .stopped

theorem supervisorWrote_cases (h : s.supervisorWrote ok down = some s') :
    s.writes ∧ ∃ sup out, Wrote s ok down sup out ∧
      s' = { s with supervisor := sup, output := out, down := down } := by
  unfold supervisorWrote at h
  split at h <;> (repeat' split at h) <;> grind [Wrote, writes]

/-- A writer was not stopped by a failed write. -/
theorem Downward.at_write (h : Downward tr s q) (hwrites : s.writes) :
    s.down.broken = false ∧ s.output ≠ .stopped ∧ s.output ≠ .next ∧ s.supervisor ≠ .awaiting ∧
      (s.output = .unborn → s.supervisor ≠ .stopped) := by
  have hbroken := h.broken
  have hunborn := h.unborn
  rcases hwrites with hsup | hsup | hout | hout <;> grind [Supervisor.answering]

/-- The supervisor's `Write`: the frames on the stream stay, whoever it was goes on or
stops. -/
theorem Downward.wrote {sup : Supervisor} {out : Output} (h : Downward tr s q)
    (hwrites : s.writes) (hdown : down.Carries frames q)
    (hbroken : down.broken = true → out = .stopped ∨ out = .unborn ∧ sup = .stopped)
    (hidle : out = .next → down.pending = []) (hsup : sup ≠ .awaiting)
    (hunborn : sup.answering = true → out = .unborn)
    (hended : s.output = .ending → out = .ending ∨ out = .stopped) :
    Downward tr { s with supervisor := sup, output := out, down := down } q := by
  obtain ⟨-, hrunning, -, hawaiting, hfirst⟩ := h.at_write hwrites
  constructor
  · exact hdown
  · exact hbroken
  · rintro (hnext | hawait)
    · exact hidle hnext
    · exact absurd hawait hsup
  · exact hunborn
  · exact h.sofar
  · exact fun _ hpc => h.live (.inl hrunning) hpc
  · intro hend
    rcases h.ended hend with hout | hout
    · exact hended hout
    · exact absurd hout hrunning
  · exact h.early
  · exact fun hawait => absurd hawait hsup
  · intro hpc hlive
    rcases h.reply hpc hlive with ⟨-, hout, hawait | hstop⟩ | hreply
    · exact absurd hawait hawaiting
    · exact absurd hstop (hfirst hout)
    · exact .inr hreply
  · exact h.replied
  · exact h.closing
  · exact h.closed

theorem supervisorWrote_downward {n : Nat} {down : Link UInt8} (h : Downward tr s q)
    (hwrite : s.down.write n ok = some down)
    (hwrote : s.supervisorWrote ok down = some s') : Downward (tr ++ [.downWrite n ok]) s' q := by
  obtain ⟨hwrites, sup, out, hpc, rfl⟩ := supervisorWrote_cases hwrote
  obtain ⟨hbroken, hrunning, hnext, hawait, -⟩ := h.at_write hwrites
  have hdown : down.Carries frames q := h.carries.write hbroken hwrite
  have hfine (hok : ok = true) : down.broken = false := by
    rw [Link.write_broken hwrite, hbroken, hok]
    rfl
  have hunborn : s.supervisor.answering = true → s.output = .unborn := h.unborn
  have hsilent : Downward (tr ++ [.downWrite n ok]) s q := h.silent ⟨rfl, nofun⟩
  refine hsilent.wrote hwrites hdown ?_ ?_ ?_ ?_ ?_
  all_goals cases hpc with
  | more hok | next hout hok hidle | stops hout => grind
  | replied hsup hok hidle | returns hsup => grind [Supervisor.answering]

theorem onAttach_downward (h : Downward tr s q) (hsup : s.supervisor = .awaiting)
    (outcome : Except GoString Bool) :
    ∃ q', Downward (tr ++ [.attach outcome]) (onAttach J { s with up := up } f outcome) q' := by
  have hl : Label.silent (.attach outcome) := ⟨rfl, nofun⟩
  obtain ⟨hforward, hq⟩ := h.awaiting hsup
  obtain ⟨hopen, -⟩ := h.at_rest (.inr hsup)
  have hout : s.output = .unborn := h.unborn (by rw [hsup]; rfl)
  have hup : Downward tr { s with up := up } q :=
    h.of_same ⟨rfl, rfl, rfl, rfl, id, id, fun _ => rfl, .inl, id⟩
  have hreplies := onAttach_replies (J := J) (s := { s with up := up }) (f := f) outcome
  revert hreplies
  generalize onAttach J { s with up := up } f outcome = s'
  rintro (⟨att⟩ | ⟨att, htyp, hflat, hpc⟩)
  · exact ⟨q, (hup.silent hl).of_same
      ⟨rfl, rfl, rfl, rfl, id, id, nofun, fun _ => .inr rfl, fun _ => rfl⟩⟩
  · refine ⟨_, hup.starts (.inr hsup) hflat ?_ (fun _ => ⟨hq, hforward, htyp⟩)
      (fun hborn => absurd hout hborn) ?_ ?_ (fun _ => hout)⟩
    · rw [dataOf_other (control_ne_data htyp)]
      rfl
    · exact fun hended => absurd (ended_silent hl hended) hopen
    · refine ⟨hout.trans_ne nofun, ?_⟩
      rcases hpc with rfl | rfl <;> exact nofun

/-- The relay's goroutine goes on to the next frame or stops, after a write to the client or
without one. -/
theorem Downward.sends {pc : Forward} (h : Downward tr s q) (toClient : List WsFrame)
    (hforward : s.forward ≠ .unborn ∧ s.forward ≠ .stopped) (hpc : pc = .reading ∨ pc = .stopped)
    (hless : binaryFrames (s.client ++ toClient) <+: s.outputs q)
    (hmoved : pc = .reading → binaryFrames (s.client ++ toClient) ++ dataOf q = s.outputs q)
    (hclosed : ∀ first code text last, s.client ++ toClient = first ++ .close code text :: last →
      Ended tr ∧ binaryFrames first = chunksBy tr) :
    Downward tr { s with toClient := toClient, forward := pc } q := by
  have houtputs (hrunning : pc ≠ .stopped) :
      Join.outputs { s with toClient := toClient, forward := pc } q = s.outputs q := by
    rcases hpc with rfl | rfl
    · exact hmoved rfl
    · exact absurd rfl hrunning
  constructor
  · exact h.carries
  · exact h.broken
  · exact h.idle
  · exact h.unborn
  · rcases hpc with rfl | rfl
    · rw [houtputs nofun]
      exact h.sofar
    · simp only [outputs, arriving, append_nil]
      exact hless.trans h.sofar
  · intro hlive hrunning
    rw [houtputs hrunning]
    exact h.live hlive hforward.2
  · exact h.ended
  · exact fun hearly => absurd (h.early hearly) hforward.1
  · exact fun hawait => absurd (h.awaiting hawait).1 hforward.1
  · intro hunborn
    rcases hpc with rfl | rfl <;> cases hunborn
  · exact fun _ => h.replied hforward.1
  · intro hclosing
    rcases hpc with rfl | rfl <;> cases hclosing
  · exact hclosed

/-- The frame the relay's goroutine takes. -/
theorem onForward_downward (h : Downward tr s q) (hpc : s.forward = .reading)
    (hread : s.down.read frames = some (f, down)) :
    ∃ q', Downward tr (onForward { s with down := down } f) q' := by
  obtain ⟨rest, rfl, hdown⟩ := h.carries.read hread
  have hrunning : s.forward ≠ .stopped ∧ s.forward ≠ .unborn := by
    rw [hpc]
    exact ⟨nofun, nofun⟩
  have hearly : s.relay.early = false := by
    cases he : s.relay.early with
    | false => rfl
    | true => exact absurd (h.early he) hrunning.2
  obtain ⟨htail, hlast⟩ := (h.replied hrunning.2).tail
  refine ⟨rest, ?_⟩
  unfold onForward
  split
  · rename_i hdata
    refine h.takes hread hdown ?_ hearly hrunning.1 nofun (fun _ => htail) nofun
    simp only [arriving, hpc]
    rw [dataOf_cons f, dataOf_data hdata]
    rfl
  · rename_i hdata
    have hnone : dataOf (f :: rest) = dataOf rest := by
      rw [dataOf_cons f, dataOf_other hdata]
      rfl
    split
    · rename_i hcontrol
      obtain ⟨hnil, hended⟩ := hlast hcontrol
      refine h.takes hread hdown ?_ hearly hrunning.1 nofun (fun _ => htail) ?_
      · simp only [arriving, hpc]
        exact hnone.symm
      · intro _
        rw [hnil]
        exact ⟨hended, rfl⟩
    · refine h.takes hread hdown ?_ hearly hrunning.1 ?_ (fun _ => htail) ?_
      · simp only [arriving, hpc]
        exact hnone.symm
      · exact fun hunborn => absurd hunborn hrunning.2
      · exact fun hclosing => nomatch hpc.symm.trans hclosing

/-- The relay's handler takes the reply. -/
theorem onReply_downward (h : Downward tr s q) (hpc : s.relay = .awaiting)
    (hread : s.down.read frames = some (f, down)) :
    ∃ q', Downward tr (onReply J { s with down := down } f) q' := by
  obtain ⟨rest, rfl, hdown⟩ := h.carries.read hread
  have hforward : s.forward = .unborn := h.early (by rw [hpc]; rfl)
  have hrunning : s.forward ≠ .stopped := hforward.trans_ne nofun
  obtain ⟨hcontrol, htail⟩ : f.typ = frameControl ∧ Tail tr rest := by
    rcases h.reply hforward (hpc.trans_ne nofun) with ⟨hnil, -⟩ | ⟨g, q', heq, hg, ht⟩
    · cases hnil
    · cases heq
      exact ⟨hg, ht⟩
  have hnone : dataOf rest = dataOf (f :: rest) := by
    rw [dataOf_cons f, dataOf_other (control_ne_data hcontrol)]
    rfl
  have hstopped : Downward tr { s with down := down, relay := .stopped } rest := by
    refine h.takes hread hdown ?_ rfl hrunning (fun _ => rfl) (fun _ => htail) ?_
    · simp only [arriving, hforward]
      exact hnone
    · exact fun hclosing => nomatch hforward.symm.trans hclosing
  refine ⟨rest, ?_⟩
  unfold onReply
  split
  · exact hstopped
  · split
    · exact hstopped
    · refine h.takes hread hdown ?_ rfl hrunning nofun (fun _ => htail) nofun
      simp only [arriving, hforward]
      exact hnone

/-- Another frame behind what was sent to the client. -/
theorem close_of_snoc {sent first last : List WsFrame} {g : WsFrame} {code : Nat}
    (h : sent ++ [g] = first ++ .close code text :: last) :
    g = .close code text ∧ first = sent ∨ ∃ last', sent = first ++ .close code text :: last' := by
  rcases eq_nil_or_concat last with rfl | ⟨last', x, rfl⟩
  · obtain ⟨hsent, hg⟩ := append_inj' h rfl
    cases hg
    exact .inl ⟨rfl, hsent.symm⟩
  · right
    rw [concat_eq_append, ← cons_append, ← append_assoc] at h
    exact ⟨last', (append_inj' h rfl).1⟩

/-- A chunk that is written to the client: it moves one place on, or is lost with what
follows. -/
theorem Downward.forwards {p : GoString} {out : Bool} (h : Downward tr s q)
    (hpc : s.forward = .forwarding p) (hok : ok = true → out = true) :
    Downward tr { s with
      toClient := if out then s.toClient ++ [.binary p] else s.toClient
      forward := if ok then .reading else .stopped } q := by
  have hsent : binaryFrames (s.client ++ (s.toClient ++ [.binary p])) ++ dataOf q =
      s.outputs q := by
    simp [outputs, arriving, hpc, binaryFrames]
  have hforward : s.forward ≠ .unborn ∧ s.forward ≠ .stopped :=
    ⟨hpc.trans_ne nofun, hpc.trans_ne nofun⟩
  refine h.sends _ hforward ?_ ?_ ?_ ?_
  · split
    · exact .inl rfl
    · exact .inr rfl
  · cases out with
    | true =>
      rw [if_pos rfl, ← hsent]
      exact prefix_append _ _
    | false => exact prefix_append _ _
  · intro hreading
    cases ok with
    | true =>
      rw [hok rfl]
      exact hsent
    | false => cases hreading
  · intro first code text last heq
    cases out with
    | false => exact h.closed first code text last heq
    | true =>
      rw [if_pos rfl, ← append_assoc] at heq
      rcases close_of_snoc heq with ⟨hbinary, -⟩ | ⟨last', hearlier⟩
      · cases hbinary
      · exact h.closed first code text last' hearlier

/-- The close frame goes out, after everything. -/
theorem Downward.closes {code : Nat} {out : Bool} (h : Downward tr s q)
    (hpc : s.forward = .closing) :
    Downward tr { s with
      toClient := if out then s.toClient ++ [.close code text] else s.toClient
      forward := .stopped } q := by
  obtain ⟨hended, hnone⟩ := h.closing hpc
  have hforward : s.forward ≠ .unborn ∧ s.forward ≠ .stopped :=
    ⟨hpc.trans_ne nofun, hpc.trans_ne nofun⟩
  have hwhole : binaryFrames (s.client ++ s.toClient) = chunksBy tr := by
    rw [← h.live (.inr hended) hforward.2, outputs]
    simp [arriving, hpc, hnone]
  refine h.sends _ hforward (.inr rfl) ?_ nofun ?_
  · cases out with
    | false => exact prefix_append _ _
    | true =>
      rw [if_pos rfl, ← append_assoc, binaryFrames_append, outputs]
      simp [binaryFrames]
  · intro first code' text' last heq
    cases out with
    | false => exact h.closed first code' text' last heq
    | true =>
      rw [if_pos rfl, ← append_assoc] at heq
      rcases close_of_snoc heq with ⟨-, hfirst⟩ | ⟨last', hearlier⟩
      · rw [hfirst]
        exact ⟨hended, hwhole⟩
      · exact h.closed first code' text' last' hearlier

/-- Every step keeps the direction to the client in order. -/
theorem downward_step (h : Downward tr s q) (hstep : (join J).step s l = some s') :
    ∃ q', Downward (tr ++ [l]) s' q' := by
  have hsilent : Label.silent l → Downward (tr ++ [l]) s q := h.silent
  have hother (hl : Label.silent l) (hsame : SameDown s s') : ∃ q', Downward (tr ++ [l]) s' q' :=
    ⟨q, (hsilent hl).of_same hsame⟩
  cases step_rule hstep with
  | send => exact hother ⟨rfl, nofun⟩ ⟨rfl, rfl, rfl, rfl, id, id, fun _ => rfl, .inl, id⟩
  | receive hto =>
    refine hother ⟨rfl, nofun⟩ ⟨rfl, rfl, rfl, ?_, id, id, fun _ => rfl, .inl, id⟩
    simp [hto]
  | request hpc =>
    exact hother ⟨rfl, nofun⟩ (relayWrites_sameDown (by grind) (by grind [Relay.early]) _)
  | upWrite hpc => exact hother ⟨rfl, nofun⟩ (relayWrote_sameDown hpc)
  | relayFails hpc => exact hother ⟨rfl, nofun⟩ (.of_relay (by grind) nofun)
  | reply hpc hread => exact onReply_downward (hsilent ⟨rfl, nofun⟩) hpc hread
  | message hpc => exact hother ⟨rfl, nofun⟩ (onMessage_sameDown hpc)
  | forward hpc hread => exact onForward_downward (hsilent ⟨rfl, nofun⟩) hpc hread
  | forwardFails hpc =>
    have hsame := hsilent ⟨rfl, nofun⟩
    exact ⟨q, hsame.sends s.toClient (by grind) (.inr rfl) (prefix_append _ _) nofun hsame.closed⟩
  | forwards hpc hok => exact ⟨q, (hsilent ⟨rfl, nofun⟩).forwards hpc hok⟩
  | closes hpc => exact ⟨q, (hsilent ⟨rfl, nofun⟩).closes hpc⟩
  | attach hsup => exact onAttach_downward h hsup _
  | supervisorFails =>
    exact hother ⟨rfl, nofun⟩ ⟨rfl, rfl, rfl, rfl, id, id, nofun, fun _ => .inr rfl, fun _ => rfl⟩
  | downWrite hwrite hwrote => exact ⟨q, supervisorWrote_downward h hwrite hwrote⟩
  | next hpc => exact onNext_downward h hpc _
  | input hsup => exact hother ⟨rfl, nofun⟩ (onInput_sameDown _ hsup)
  | ptyWrite hsup => exact hother ⟨rfl, nofun⟩ (.of_supervisor rfl (by grind) (by grind))
  | finish => exact hother ⟨rfl, nofun⟩ ⟨rfl, rfl, rfl, rfl, id, id, fun _ => rfl, .inl, id⟩

end Join

end Lemul.Attach
