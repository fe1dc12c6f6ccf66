import Lemul.Attach.Join

/-!
# From a client to the PTY

The direction to the PTY is first-in first-out from end to end: the messages handed to the
attachment, the one between the stream and the attachment and the data frames on the stream
are, in this order, the binary messages the client sent (`Upward`). A control frame is
never among them.
-/

namespace Lemul.Attach

open List

open PtySession (NextResult)

/-! ## What went in and what came out -/

/-- The binary messages among those of a client. -/
def binaries (ms : List Message) : List GoString :=
  ms.flatMap fun
    | .binary p => [p]
    | .text _ => []

/-- The binary messages among what was sent to a client. -/
def binaryFrames (fs : List WsFrame) : List GoString :=
  fs.flatMap fun
    | .binary p => [p]
    | .close _ _ => []

/-- The payloads of the data frames of a stream. -/
def dataOf (q : List Frame) : List GoString :=
  q.flatMap fun f => if f.typ = frameData then [f.payload] else []

def Label.sent : Label → List Message
  | .send m => [m]
  | _ => []

def Label.chunk : Label → List GoString
  | .next (.bytes p) => [p]
  | _ => []

/-- The binary messages the client sent in a run. -/
def sentBy (tr : List Label) : List GoString := binaries (tr.flatMap Label.sent)

/-- The chunks the attachment yielded in a run. -/
def chunksBy (tr : List Label) : List GoString := tr.flatMap Label.chunk

/-- The attachment reported the end of its session. -/
def Ended (tr : List Label) : Prop := .next (.closed .sessionEnded) ∈ tr

/-- What the PTY took of the writes it was given. -/
def taken (written : List (GoString × Nat)) : GoString := written.flatMap fun w => w.1.take w.2

@[simp] theorem binaries_append (a b : List Message) :
    binaries (a ++ b) = binaries a ++ binaries b := flatMap_append

@[simp] theorem binaryFrames_append (a b : List WsFrame) :
    binaryFrames (a ++ b) = binaryFrames a ++ binaryFrames b := flatMap_append

@[simp] theorem dataOf_append (a b : List Frame) : dataOf (a ++ b) = dataOf a ++ dataOf b :=
  flatMap_append

theorem dataOf_cons (f : Frame) (q : List Frame) : dataOf (f :: q) = dataOf [f] ++ dataOf q :=
  dataOf_append [f] q

variable {f : Frame}

theorem dataOf_data (h : f.typ = frameData) : dataOf [f] = [f.payload] := by
  simp [dataOf, h]

theorem dataOf_other (h : f.typ ≠ frameData) : dataOf [f] = [] := by
  simp [dataOf, h]

theorem control_ne_data (h : f.typ = frameControl) : f.typ ≠ frameData := by
  rw [h]
  decide

theorem sentBy_snoc (tr : List Label) (l : Label) :
    sentBy (tr ++ [l]) = sentBy tr ++ binaries l.sent := by simp [sentBy]

theorem chunksBy_snoc (tr : List Label) (l : Label) :
    chunksBy (tr ++ [l]) = chunksBy tr ++ l.chunk := by simp [chunksBy]

theorem Ended.snoc {tr : List Label} (h : Ended tr) (l : Label) : Ended (tr ++ [l]) :=
  mem_append_left _ h

namespace Join

variable {J : Json} {s s' : Join} {q : List Frame} {tr : List Label} {l : Label}

/-! ## What each part does -/

/-- Starting a frame puts one frame of that type and payload on the stream, or stops. -/
theorem relayWrites_cases (s : Join) (pc : Relay) (typ : UInt8) (payload : GoString) :
    (∃ f : Frame, ∃ buffers, f.typ = typ ∧ f.payload = payload ∧
        buffers.flatten = frames.encode f ∧
        s.relayWrites pc (writeFrame typ payload) =
          { s with relay := pc, up := s.up.start buffers }) ∨
      s.relayWrites pc (writeFrame typ payload) = { s with relay := .stopped } := by
  cases hw : writeFrame typ payload with
  | error e => exact .inr rfl
  | ok buffers =>
    obtain ⟨f, htyp, hpayload, hflat⟩ := writeFrame_ok hw
    exact .inl ⟨f, buffers, htyp, hpayload, hflat, rfl⟩

/-- What the relay does with a message: nothing if it is not to be passed on, one frame
that carries exactly its data, or it stops. -/
theorem onMessage_cases (s : Join) (m : Message) :
    onMessage J s m = s ∧ (s.req.mode = modeViewer ∨ binaries [m] = []) ∨
      (∃ f : Frame, ∃ buffers, dataOf [f] = binaries [m] ∧ s.req.mode ≠ modeViewer ∧
        buffers.flatten = frames.encode f ∧
        onMessage J s m = { s with relay := .writing, up := s.up.start buffers }) ∨
      onMessage J s m = { s with relay := .stopped } := by
  cases m with
  | binary p =>
    by_cases hviewer : s.req.mode = modeViewer
    · left
      simp [onMessage, hviewer]
    · right
      simp only [onMessage, hviewer, if_false]
      rcases relayWrites_cases s .writing frameData p with ⟨f, b, ht, hp, hb, heq⟩ | heq
      · refine .inl ⟨f, b, ?_, hviewer, hb, heq⟩
        rw [dataOf_data ht, hp]
        rfl
      · exact .inr heq
  | text p =>
    simp only [onMessage]
    split
    · exact .inl ⟨rfl, .inr rfl⟩
    · split
      · exact .inl ⟨rfl, .inr rfl⟩
      · rename_i hpass
        rcases relayWrites_cases s .writing frameControl _ with ⟨f, b, ht, hp, hb, heq⟩ | heq
        · refine .inr (.inl ⟨f, b, ?_, fun hv => hpass (.inr hv), hb, heq⟩)
          rw [dataOf_other (control_ne_data ht)]
          rfl
        · exact .inr (.inr heq)

/-- What stands between the stream and the PTY. -/
def held (s : Join) : List GoString :=
  match s.supervisor with
  | .delivering p => [p]
  | _ => []

/-- The part of an attach that the data to the PTY depends on. -/
structure SameData (s s' : Join) : Prop where
  req : s'.req = s.req
  relay : s'.relay = s.relay
  fromClient : s'.fromClient = s.fromClient
  up : s'.up = s.up
  written : s'.written = s.written
  held : s'.held = s.held

/-- The same, the request included. -/
structure SameUp (s s' : Join) : Prop extends SameData s s' where
  awaiting : s'.supervisor = .awaiting → s.supervisor = .awaiting

/-- What reading the request comes to: no reply at all, or one control frame. -/
inductive Replies (s : Join) : Join → Prop
  | none (att : Option Attached) : Replies s { s with supervisor := .stopped, att := att }
  | frame {g : Frame} {buffers : List GoString} {pc : Supervisor} (att : Option Attached)
      (htyp : g.typ = frameControl) (hflat : buffers.flatten = frames.encode g)
      (hpc : pc = .replying ∨ pc = .refusing) :
      Replies s { s with supervisor := pc, att := att, down := s.down.start buffers }

theorem refuse_replies (message : GoString) : Replies s (s.refuse J message) := by
  unfold refuse
  split
  · rename_i hw
    obtain ⟨g, htyp, -, hflat⟩ := writeFrame_ok hw
    exact .frame s.att htyp hflat (.inr rfl)
  · exact .none s.att

theorem onAttach_replies (outcome : Except GoString Bool) :
    Replies s (onAttach J s f outcome) := by
  unfold onAttach
  split
  · exact .none s.att
  · split
    · exact refuse_replies _
    · split
      · exact refuse_replies _
      · split
        · exact refuse_replies _
        · split
          · exact refuse_replies _
          · split
            · rename_i hw
              obtain ⟨g, htyp, -, hflat⟩ := writeFrame_ok hw
              exact .frame _ htyp hflat (.inl rfl)
            · exact .none _

/-- Reading the request changes nothing that concerns data, and is done once. -/
theorem Replies.sameData (h : Replies s s') (hsup : s.supervisor = .awaiting) :
    SameData s s' ∧ s'.supervisor ≠ .awaiting := by
  have hheld : s.held = [] := by simp [Join.held, hsup]
  cases h with
  | none => exact ⟨⟨rfl, rfl, rfl, rfl, rfl, hheld.symm⟩, nofun⟩
  | frame _ _ _ hpc =>
    rcases hpc with rfl | rfl <;> exact ⟨⟨rfl, rfl, rfl, rfl, rfl, hheld.symm⟩, nofun⟩

/-- A data frame is what is handed to the attachment; another frame can only resize it. -/
theorem onInput_cases (s : Join) (f : Frame) :
    f.typ = frameData ∧ onInput J s f = { s with supervisor := .delivering f.payload } ∨
      f.typ ≠ frameData ∧ ∃ sizes, onInput J s f = { s with sizes := sizes } := by
  by_cases hdata : f.typ = frameData
  · left
    simp [onInput, hdata]
  · right
    have hskip : ∃ sizes, s = { s with sizes := sizes } := ⟨s.sizes, rfl⟩
    refine ⟨hdata, ?_⟩
    simp only [onInput, hdata, if_false]
    split
    · split
      · exact hskip
      · split
        · exact hskip
        · split
          · exact hskip
          · unfold resize
            split
            · exact ⟨_, rfl⟩
            · exact hskip
    · exact hskip

/-! ## What hardly ever changes -/

/-- The request, the attachment and what was written to it are as they were, and nothing is
taken back. -/
structure Kept (s s' : Join) : Prop where
  req : s'.req = s.req
  att : s'.att = s.att
  written : s'.written = s.written
  awaiting : s'.supervisor = .awaiting → s.supervisor = .awaiting
  unclosed : s'.ptmx ≠ .closed → s.ptmx ≠ .closed

/-- Only reading the request makes an attachment, and only `att.Write` writes to it. -/
theorem kept_step (hstep : (join J).step s l = some s') :
    Kept s s' ∨
    (∃ outcome f up, l = .attach outcome ∧ s.supervisor = .awaiting ∧
      s.up.read frames = some (f, up) ∧ s' = onAttach J { s with up := up } f outcome) ∨
    ∃ n p x, l = .ptyWrite n ∧ s.supervisor = .delivering p ∧ s.att = some x ∧
      (x.readOnly → n = 0) ∧ s' = { s with
        written := s.written ++ [(p, n)], supervisor := .reading
        ptmx := if s.ptmx = .cut then .closed else s.ptmx } := by
  cases step_rule hstep with
  | attach hsup hread => exact .inr (.inl ⟨_, _, _, rfl, hsup, hread, rfl⟩)
  | ptyWrite hsup hatt _ hviewer => exact .inr (.inr ⟨_, _, _, rfl, hsup, hatt, hviewer, rfl⟩)
  | downWrite _ hwrote => exact .inl (by constructor <;> grind [supervisorWrote])
  | @message m rest =>
    rcases onMessage_cases (J := J) { s with fromClient := rest } m with
      ⟨heq, -⟩ | ⟨f, buffers, -, -, -, heq⟩ | heq <;> rw [heq] <;>
      exact .inl ⟨rfl, rfl, rfl, id, id⟩
  | _ =>
    left
    constructor <;>
      grind [relayWrites.eq_def, relayWrote, onReply, onForward, onNext.eq_def,
        outputWrites.eq_def, onInput, resize, onFinish]

/-! ## To the PTY -/

/-- The messages on their way to the PTY, and those that were handed to it, in order. -/
def inputs (s : Join) (q : List Frame) : List GoString :=
  s.written.map Prod.fst ++ s.held ++ dataOf q

/-- The direction to the PTY, with the frames `q` on the stream. -/
structure Upward (J : Json) (tr : List Label) (s : Join) (q : List Frame) : Prop where
  carries : s.up.Carries frames q
  broken : s.up.broken = true → s.relay = .stopped
  idle : s.relay = .opening ∨ s.relay = .awaiting ∨ s.relay = .reading → s.up.pending = []
  sofar : s.inputs q <+: sentBy tr
  /-- While the relay reads, nothing is lost. -/
  live : s.req.mode ≠ modeViewer → s.relay ≠ .stopped →
    s.inputs q ++ binaries s.fromClient = sentBy tr
  viewer : s.req.mode = modeViewer → s.inputs q = []
  /-- The first frame is the request. -/
  request : s.supervisor = .awaiting → (s.relay = .opening ∨ s.relay = .stopped) ∧ q = [] ∨
    ∃ f rest, q = f :: rest ∧ f.typ = frameControl ∧
      f.payload = J.envelope msgAttach (.attach s.req)
  opening : s.relay = .opening → q = []

theorem upward_new (req : Attach) : Upward J [] (Join.new req) [] where
  carries := Link.carries_idle frames
  broken h := by cases h
  idle _ := rfl
  sofar := prefix_refl _
  live _ _ := rfl
  viewer _ := rfl
  request _ := .inl ⟨.inl rfl, rfl⟩
  opening _ := rfl

/-- A step in which the client sends nothing is as good as none. -/
theorem Upward.silent (h : Upward J tr s q) (hsent : l.sent = []) : Upward J (tr ++ [l]) s q := by
  have hall : sentBy (tr ++ [l]) = sentBy tr := by
    rw [sentBy_snoc, hsent]
    exact append_nil _
  exact { h with sofar := hall ▸ h.sofar, live := hall ▸ h.live }

/-- What is not about this direction can be anything. -/
theorem Upward.of_same (h : Upward J tr s q) (hsame : SameUp s s') : Upward J tr s' q := by
  have hinputs : s'.inputs q = s.inputs q := by
    rw [inputs, inputs, hsame.written, hsame.held]
  constructor
  · rw [hsame.up]
    exact h.carries
  · rw [hsame.up, hsame.relay]
    exact h.broken
  · rw [hsame.up, hsame.relay]
    exact h.idle
  · rw [hinputs]
    exact h.sofar
  · rw [hinputs, hsame.req, hsame.relay, hsame.fromClient]
    exact h.live
  · rw [hinputs, hsame.req]
    exact h.viewer
  · intro hsup
    rw [hsame.req, hsame.relay]
    exact h.request (hsame.awaiting hsup)
  · rw [hsame.relay]
    exact h.opening

theorem Upward.unbroken (h : Upward J tr s q) (hlive : s.relay ≠ .stopped) :
    s.up.broken = false := by
  grind [h.broken]

variable {rest : List Message} {up : Link UInt8}

/-- The relay gives up, with part of a frame written or a message read that it could not
pass on. -/
theorem Upward.stop (h : Upward J tr s q) (hup : up.Carries frames q) :
    Upward J tr { s with relay := .stopped, fromClient := rest, up := up } q := by
  constructor
  · exact hup
  · exact fun _ => rfl
  · intro hpc
    rcases hpc with hpc | hpc | hpc <;> cases hpc
  · exact h.sofar
  · exact fun _ hlive => absurd rfl hlive
  · exact h.viewer
  · intro hsup
    rcases h.request hsup with ⟨-, hq⟩ | hfirst
    · exact .inl ⟨.inr rfl, hq⟩
    · exact .inr hfirst
  · exact fun hopening => nomatch hopening

/-- The relay goes on, after a `Write` or a reply, or past a message that carries no data it
may pass on. -/
theorem Upward.moves (h : Upward J tr s q) (pc : Relay) (read : List Message)
    (hfrom : s.fromClient = read ++ rest)
    (hread : s.req.mode = modeViewer ∨ binaries read = []) (hup : up.Carries frames q)
    (hbroken : up.broken = false) (hidle : pc = .awaiting ∨ pc = .reading → up.pending = [])
    (hopening : pc ≠ .opening) (hlive : s.relay ≠ .opening ∧ s.relay ≠ .stopped) :
    Upward J tr { s with relay := pc, fromClient := rest, up := up } q := by
  constructor
  · exact hup
  · intro hb
    cases hbroken.symm.trans hb
  · intro hpc
    rcases hpc with hpc | hpc
    · exact absurd hpc hopening
    · exact hidle hpc
  · exact h.sofar
  · intro hcontrol _
    rcases hread with hviewer | hnone
    · exact absurd hviewer hcontrol
    · rw [← h.live hcontrol hlive.2, hfrom, binaries_append, hnone]
      rfl
  · exact h.viewer
  · intro hsup
    rcases h.request hsup with ⟨hopen | hstopped, -⟩ | hfirst
    · exact absurd hopen hlive.1
    · exact absurd hstopped hlive.2
    · exact .inr hfirst
  · exact fun hpc => absurd hpc hopening

/-- The relay starts on a frame, having read messages whose data the frame carries. -/
theorem Upward.start {buffers : List GoString} {pc : Relay} (h : Upward J tr s q)
    (read : List Message) (hfrom : s.fromClient = read ++ rest)
    (hdata : dataOf [f] = binaries read) (hmode : s.req.mode = modeViewer → dataOf [f] = [])
    (hbuffers : buffers.flatten = frames.encode f) (hlive : s.relay ≠ .stopped)
    (hpc : pc = .requesting ∨ pc = .writing)
    (hidle : s.up.pending = [])
    (hfirst : s.relay = .opening → f.typ = frameControl ∧
      f.payload = J.envelope msgAttach (.attach s.req)) :
    Upward J tr { s with
      relay := pc, fromClient := rest, up := s.up.start buffers } (q ++ [f]) := by
  have hbroken : s.up.broken = false := h.unbroken hlive
  have hinputs : Join.inputs { s with
      relay := pc, fromClient := rest, up := s.up.start buffers } (q ++ [f]) =
      s.inputs q ++ dataOf [f] := by
    simp [inputs, Join.held]
  constructor
  · exact h.carries.start hbroken hidle hbuffers
  · intro hb
    exact absurd (hbroken.symm.trans hb) (by decide)
  · intro hsame
    rcases hpc with rfl | rfl <;> rcases hsame with hsame | hsame | hsame <;> cases hsame
  · rw [hinputs]
    by_cases hviewer : s.req.mode = modeViewer
    · rw [hmode hviewer, append_nil]
      exact h.sofar
    · rw [← h.live hviewer hlive, hfrom, binaries_append, ← hdata, ← append_assoc]
      exact prefix_append _ _
  · intro hcontrol _
    rw [hinputs, ← h.live hcontrol hlive, hfrom, binaries_append, ← hdata,
      append_assoc]
  · intro hviewer
    rw [hinputs, h.viewer hviewer, hmode hviewer]
    rfl
  · intro hsup
    rcases h.request hsup with ⟨hopening | hstopped, hq⟩ | ⟨g, tail, hq, hg⟩
    · exact .inr ⟨f, [], by rw [hq]; rfl, hfirst hopening⟩
    · exact absurd hstopped hlive
    · exact .inr ⟨g, tail ++ [f], by rw [hq]; rfl, hg⟩
  · intro hopening
    rcases hpc with rfl | rfl <;> cases hopening

/-- The supervisor takes a frame off the stream. -/
theorem Upward.takes {rest : List Frame} (h : Upward J tr s (f :: rest))
    (hread : s.up.read frames = some (f, up)) (hup : up.Carries frames rest)
    (hreq : s'.req = s.req) (hrelay : s'.relay = s.relay) (hfrom : s'.fromClient = s.fromClient)
    (hup' : s'.up = up) (hinputs : s'.inputs rest = s.inputs (f :: rest))
    (hsup : s'.supervisor ≠ .awaiting) : Upward J tr s' rest := by
  obtain ⟨hpending, hbroken⟩ := Link.read_pending hread
  constructor
  · rw [hup']
    exact hup
  · rw [hup', hbroken, hrelay]
    exact h.broken
  · rw [hup', hpending, hrelay]
    exact h.idle
  · rw [hinputs]
    exact h.sofar
  · rw [hinputs, hreq, hrelay, hfrom]
    exact h.live
  · rw [hinputs, hreq]
    exact h.viewer
  · exact fun hawaiting => absurd hawaiting hsup
  · intro hopening
    rw [hrelay] at hopening
    exact nomatch h.opening hopening

theorem relayWrote_upward {n : Nat} {ok : Bool} (h : Upward J tr s q)
    (hpc : s.relay = .requesting ∨ s.relay = .writing) (hwrite : s.up.write n ok = some up) :
    Upward J tr (s.relayWrote ok up) q := by
  have hlive : s.relay ≠ .opening ∧ s.relay ≠ .stopped := by
    rcases hpc with hpc | hpc <;> rw [hpc] <;> exact ⟨nofun, nofun⟩
  have hbroken : s.up.broken = false := h.unbroken hlive.2
  have hup : up.Carries frames q := h.carries.write hbroken hwrite
  have hok : up.broken = !ok := by rw [Link.write_broken hwrite, hbroken, Bool.false_or]
  unfold relayWrote
  split
  · exact h.stop hup
  · rename_i hsome
    rw [Bool.of_not_eq_false hsome] at hok
    split
    · refine h.moves _ [] rfl (.inr rfl) hup hok ?_ hlive.1 hlive
      intro hsame
      rcases hpc with hpc | hpc <;> rw [hpc] at hsame <;> rcases hsame with hsame | hsame <;>
        cases hsame
    · rename_i hdone
      refine h.moves _ [] rfl (.inr rfl) hup hok ?_ ?_ hlive
      · exact fun _ => Classical.not_not.mp hdone
      · split <;> exact nofun

/-- The relay's handler takes the reply. -/
theorem onReply_upward {down : Link UInt8} (h : Upward J tr s q) (hpc : s.relay = .awaiting) :
    Upward J tr (onReply J { s with down := down } f) q := by
  have hdown : Upward J tr { s with down := down } q :=
    h.of_same ⟨⟨rfl, rfl, rfl, rfl, rfl, rfl⟩, id⟩
  have hstop : Upward J tr { s with down := down, relay := .stopped } q := hdown.stop h.carries
  simp only [onReply]
  split
  · exact hstop
  · split
    · exact hstop
    · have hmoves := hdown.moves .reading [] rfl (.inr rfl) h.carries (h.unbroken (by grind))
        (fun _ => h.idle (.inr (.inl hpc))) nofun (by grind)
      exact hmoves.of_same ⟨⟨rfl, rfl, rfl, rfl, rfl, rfl⟩, id⟩

theorem onMessage_upward {m : Message} (h : Upward J tr s q) (hpc : s.relay = .reading)
    (hfrom : s.fromClient = m :: rest) :
    ∃ q', Upward J tr (onMessage J { s with fromClient := rest } m) q' := by
  have hlive : s.relay ≠ .opening ∧ s.relay ≠ .stopped := by grind
  have hidle : s.up.pending = [] := h.idle (.inr (.inr hpc))
  rcases onMessage_cases (J := J) { s with fromClient := rest } m with
    ⟨heq, hskip⟩ | ⟨f, buffers, hdata, hmode, hb, heq⟩ | heq <;> rw [heq]
  · have hmoves := h.moves .reading [m] hfrom hskip h.carries (h.unbroken hlive.2)
      (fun _ => hidle) nofun hlive
    rw [← hpc] at hmoves
    exact ⟨q, hmoves⟩
  · exact ⟨q ++ [f], h.start [m] hfrom hdata (fun hv => absurd hv hmode) hb hlive.2 (.inr rfl)
      hidle (fun hopening => absurd hopening hlive.1)⟩
  · exact ⟨q, h.stop h.carries⟩

/-- Every step keeps the direction to the PTY in order. -/
theorem upward_step (h : Upward J tr s q) (hstep : (join J).step s l = some s') :
    ∃ q', Upward J (tr ++ [l]) s' q' := by
  have hsilent : l.sent = [] → Upward J (tr ++ [l]) s q := h.silent
  have hother (hsent : l.sent = []) (hsame : SameUp s s') : ∃ q', Upward J (tr ++ [l]) s' q' :=
    ⟨q, (hsilent hsent).of_same hsame⟩
  cases step_rule hstep with
  | @send m =>
    have hall : sentBy (tr ++ [.send m]) = sentBy tr ++ binaries [m] := sentBy_snoc _ _
    refine ⟨q, h.carries, h.broken, h.idle, ?_, ?_, h.viewer, h.request, h.opening⟩
    · rw [hall]
      exact h.sofar.trans (prefix_append _ _)
    · intro hcontrol hlive
      rw [hall, ← h.live hcontrol hlive, binaries_append, append_assoc]
      rfl
  | request hopening =>
    rcases relayWrites_cases s .requesting frameControl
        (J.envelope msgAttach (.attach s.req)) with ⟨f, buffers, htyp, hpayload, hb, heq⟩ | heq <;>
      rw [Json.writeMsg, heq]
    · have hnone : dataOf [f] = [] := dataOf_other (control_ne_data htyp)
      exact ⟨q ++ [f], (hsilent rfl).start [] rfl hnone (fun _ => hnone) hb (by grind) (.inl rfl)
        (h.idle (.inl hopening)) (fun _ => ⟨htyp, hpayload⟩)⟩
    · exact ⟨q, (hsilent rfl).stop h.carries⟩
  | upWrite hpc hwrite => exact ⟨q, relayWrote_upward (hsilent rfl) hpc hwrite⟩
  | relayFails => exact ⟨q, (hsilent rfl).stop h.carries⟩
  | reply hpc => exact ⟨q, onReply_upward (hsilent rfl) hpc⟩
  | message hpc hfrom => exact onMessage_upward (hsilent rfl) hpc hfrom
  | @attach outcome f up hsup hread =>
    obtain ⟨rest, rfl, hup⟩ := h.carries.read hread
    have hcontrol : f.typ = frameControl := by grind [h.request hsup]
    obtain ⟨⟨hreq, hrelay, hfrom, hup', hwritten, hheld⟩, hdone⟩ :=
      (onAttach_replies (J := J) (s := { s with up := up }) (f := f) outcome).sameData hsup
    refine ⟨rest, (hsilent rfl).takes hread hup hreq hrelay hfrom hup' ?_ hdone⟩
    rw [inputs, inputs, hwritten, hheld, dataOf_cons f, dataOf_other (control_ne_data hcontrol)]
    rfl
  | @input f up hsup hread =>
    obtain ⟨rest, rfl, hup⟩ := h.carries.read hread
    have hempty : s.held = [] := by simp [Join.held, hsup]
    rcases onInput_cases (J := J) { s with up := up } f with ⟨hdata, heq⟩ | ⟨hdata, sizes, heq⟩ <;>
      rw [heq]
    · refine ⟨rest, (hsilent rfl).takes hread hup rfl rfl rfl rfl ?_ nofun⟩
      rw [inputs, inputs, hempty, dataOf_cons f, dataOf_data hdata]
      simp [Join.held]
    · refine ⟨rest, (hsilent rfl).takes hread hup rfl rfl rfl rfl ?_ (by grind)⟩
      rw [inputs, inputs, dataOf_cons f, dataOf_other hdata]
      rfl
  | @ptyWrite n p a hsup hatt =>
    have hinputs : Join.inputs { s with
        written := s.written ++ [(p, n)], supervisor := .reading
        ptmx := if s.ptmx = .cut then .closed else s.ptmx } q = s.inputs q := by
      simp [inputs, Join.held, hsup]
    have hsame := hsilent rfl
    cases hsame
    refine ⟨q, ?_⟩
    constructor <;> grind
  | downWrite _ hwrote =>
    refine hother rfl ⟨?_, by grind [supervisorWrote]⟩
    constructor <;> grind [supervisorWrote, Join.held]
  | _ =>
    refine hother rfl ⟨?_, by grind [onForward, onNext.eq_def, outputWrites.eq_def, onFinish]⟩
    constructor <;> grind [onForward, onNext.eq_def, outputWrites.eq_def, Join.held, onFinish]

end Join

end Lemul.Attach
