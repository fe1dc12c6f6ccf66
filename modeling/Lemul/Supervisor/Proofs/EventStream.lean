import Lemul.Attach.Codec
import Lemul.Supervisor.Events

/-!
# What arrives on the event stream

If every frame is begun only while no other is on the stream in part, `drainEvents` reads the
messages of the calls that succeeded, each once and as it was sent, and never an error
(`sent_events_read`). Nothing in `sendEvent` sees to that: two callers can each have written
a header before either has written its payload (`torn_events`).
-/

namespace Lemul

namespace Shared

/-- Where whole frames are delivered, `ReadFrame` never meets a length that is too large. -/
theorem Delivers.readFrame_ne_error {s : Shared UInt8 Frame} {taken : List Frame}
    {sent : List Nat} {e : GoString} (h : Delivers frames s taken sent) :
    readFrame s.wire ≠ .error e := by
  intro hread
  obtain ⟨queue, part, -, hwire, htail⟩ := h.onWire
  have hwhole : ∃ more f rest, s.wire ++ more = frames.encode f ++ rest ∨ s.wire = [] := by
    cases queue with
    | cons f queue =>
      refine ⟨[], f, queue.flatMap frames.encode ++ part, .inl ?_⟩
      rw [hwire, List.append_nil, List.flatMap_cons, List.append_assoc]
    | nil =>
      rcases htail with ⟨-, rfl⟩ | ⟨i, w, -, -, -, hpart⟩
      · exact ⟨[], ⟨0, [], by decide⟩, [], .inr hwire⟩
      · refine ⟨w.pending.flatten, w.frame, [], .inl ?_⟩
        rw [hwire, List.flatMap_nil, List.nil_append, List.append_nil, hpart]
  obtain ⟨more, f, rest, hmore | hnil⟩ := hwhole
  · have herror : readFrame (s.wire ++ more) = .error e := readFrame_error_append hread
    have hframe := readFrame_of_decode ((frames.decode_eq_some _ _ _).mpr hmore)
    rw [herror] at hframe
    cases hframe
  · rw [hnil] at hread
    cases hread

end Shared

namespace Supervisor

open Shared List Option

variable {J : EventJson} {s s' : EventStream} {sent : List Nat}

/-- The calls `sent` have succeeded, in this order; what was read are the messages of the
first of them, and the frames of the others are on the stream. -/
structure Intact (J : EventJson) (s : EventStream) (sent : List Nat) : Prop where
  delivers : ∃ taken, s.shared.Delivers frames taken sent ∧
    taken.map (fun f => (J.readMsg f).toOption) = s.read.map some
  calls : s.events.length = s.shared.writers.length
  writes : ∀ i, (s.shared.frameOf i).map J.readMsg = (s.messageOf J i).map .ok
  noError : s.err = none

theorem intact_new (J : EventJson) : Intact J .new [] where
  delivers := ⟨[], delivers_idle frames, rfl⟩
  calls := rfl
  writes _ := rfl
  noError := rfl

/-- The frame of an event is read as the message of the event. -/
theorem readMsg_message (hJ : J.Lawful) {ev : Event}
    (hfits : (J.marshalEnvelope (J.message ev)).length ≤ maxFrame) :
    J.readMsg ⟨frameControl, J.marshalEnvelope (J.message ev), hfits⟩ = .ok (J.message ev) := by
  simp only [Json.readMsg, ne_eq, not_true_eq_false, if_false, hJ ev hfits]

theorem Intact.send (hJ : J.Lawful) (h : Intact J s sent) (ev : Event) :
    Intact J (s.sendEvent J ev) sent := by
  unfold EventStream.sendEvent
  split
  · exact h
  · split
    · exact h
    · rename_i buffers hbuffers
      split
      · rename_i hfits
        obtain ⟨f, htyp, hpayload, hflat⟩ := writeFrame_ok hbuffers
        have hf : f = ⟨frameControl, J.marshalEnvelope (J.message ev), hfits⟩ := by
          cases f
          cases htyp
          cases hpayload
          rfl
        subst hf
        obtain ⟨taken, hdelivers, htaken⟩ := h.delivers
        refine ⟨⟨taken, hdelivers.start (writeFrame_ne_nil hbuffers) hflat, htaken⟩, ?_, ?_,
          h.noError⟩
        · simp [Shared.start, h.calls]
        · intro i
          have hsame := h.writes i
          simp only [Shared.frameOf, EventStream.messageOf, Shared.start] at hsame ⊢
          rcases Nat.lt_trichotomy i s.events.length with hlt | rfl | hgt
          · rw [getElem?_append_left hlt, getElem?_append_left (h.calls ▸ hlt)]
            exact hsame
          · -- the call that starts
            rw [getElem?_concat_length, h.calls, getElem?_concat_length]
            simp [readMsg_message hJ hfits]
          · have hcalls := h.calls
            rw [getElem?_eq_none (by simp; omega), getElem?_eq_none (by simp; omega)]
            rfl
      · exact h

/-- A write changes no frame, so every call keeps the message it writes. -/
theorem Intact.write {i : Nat} {ok : Bool} {shared : Shared UInt8 Frame} (h : Intact J s sent)
    (hwrite : s.shared.write i ok = some shared) (hturn : s.shared.inTurn i = true) :
    ∃ sent', Intact J { s with shared } sent' := by
  obtain ⟨taken, hdelivers, htaken⟩ := h.delivers
  obtain ⟨sent', hdelivers'⟩ := hdelivers.write hwrite hturn
  refine ⟨sent', ⟨taken, hdelivers', htaken⟩, ?_, ?_, h.noError⟩
  · rw [write_length hwrite, h.calls]
  · intro j
    rw [write_frameOf hwrite]
    exact h.writes j

/-- Every frame that is delivered is a message, so the calls that succeeded are the messages
read and those whose frames are still on the stream. -/
theorem Intact.messages (h : Intact J s sent) {taken : List Frame} {queue : List Frame}
    (hframes : sent.map s.shared.frameOf = (taken ++ queue).map some) :
    (taken ++ queue).map (fun f => (J.readMsg f).toOption) = sent.map (s.messageOf J) := by
  have hbind : (sent.map s.shared.frameOf).map
        (fun o => o.bind fun f => (J.readMsg f).toOption) =
      (taken ++ queue).map (fun f => (J.readMsg f).toOption) := by
    rw [hframes, List.map_map]
    rfl
  rw [← hbind, List.map_map]
  refine map_congr_left fun i _ => ?_
  have hi := h.writes i
  simp only [Function.comp_apply]
  cases hframe : s.shared.frameOf i with
  | none =>
    rw [hframe, map_none, eq_comm, map_eq_none_iff] at hi
    rw [hi, bind_none]
  | some f =>
    rw [hframe, map_some, eq_comm, map_eq_some_iff] at hi
    obtain ⟨env, henv, hmsg⟩ := hi
    rw [henv, bind_some, ← hmsg]
    rfl

/-- The frame that is read is the message of one of the calls. -/
theorem Intact.readMsg_ok (h : Intact J s sent) {f : Frame} {rest : GoString}
    (hread : readFrame s.shared.wire = .frame f rest) : ∃ env, J.readMsg f = .ok env := by
  obtain ⟨taken, hdelivers, -⟩ := h.delivers
  obtain ⟨queue, part, hframes, -, -⟩ := (hdelivers.read (decode_of_readFrame hread)).onWire
  have hmem : some f ∈ sent.map s.shared.frameOf := by
    have hframes : sent.map s.shared.frameOf = (taken ++ [f] ++ queue).map some := hframes
    rw [hframes]
    exact mem_map_of_mem (by simp)
  obtain ⟨i, -, hframe⟩ := mem_map.mp hmem
  have hi := h.writes i
  rw [hframe, map_some, eq_comm, map_eq_some_iff] at hi
  obtain ⟨env, -, hmsg⟩ := hi
  exact ⟨env, hmsg.symm⟩

theorem Intact.read (h : Intact J s sent) {f : Frame} {rest : GoString} {env : Envelope}
    (hread : readFrame s.shared.wire = .frame f rest) (hmsg : J.readMsg f = .ok env) :
    Intact J { s with shared := { s.shared with wire := rest }, read := s.read ++ [env] } sent := by
  obtain ⟨taken, hdelivers, htaken⟩ := h.delivers
  refine ⟨⟨taken ++ [f], hdelivers.read (decode_of_readFrame hread), ?_⟩, h.calls, h.writes,
    h.noError⟩
  rw [map_append, htaken]
  simp [hmsg, Except.toOption]

theorem Intact.drain (h : Intact J s sent) (hstep : s.drainEvents J = some s') :
    Intact J s' sent := by
  unfold EventStream.drainEvents at hstep
  split at hstep
  · cases hstep
  · split at hstep
    · cases hstep
    · rename_i e hread
      obtain ⟨taken, hdelivers, -⟩ := h.delivers
      exact absurd hread hdelivers.readFrame_ne_error
    · rename_i f rest hread
      obtain ⟨env, hmsg⟩ := h.readMsg_ok hread
      rw [hmsg] at hstep
      cases hstep
      exact h.read hread hmsg

/-- Every step that is in turn keeps the stream intact. -/
theorem Intact.step (hJ : J.Lawful) {l : Label} (h : Intact J s sent)
    (hstep : (eventStream J).step s l = some s') (hturn : inTurn s l = true) :
    ∃ sent', Intact J s' sent' := by
  cases l with
  | send ev =>
    cases hstep
    exact ⟨sent, h.send hJ ev⟩
  | write i ok =>
    obtain ⟨shared, hwrite, rfl⟩ := map_eq_some_iff.mp hstep
    exact h.write hwrite hturn
  | drain => exact ⟨sent, h.drain hstep⟩
  | onDisconnect =>
    cases hstep
    exact ⟨sent, h.delivers, h.calls, h.writes, h.noError⟩

theorem intact_run (hJ : J.Lawful) {tr : List Label}
    (h : ((eventStream J).restrict fun s l => inTurn s l = true).Run .new tr s) :
    ∃ sent, Intact J s sent := by
  refine h.invariant (I := fun s => ∃ sent, Intact J s sent) ?_ ⟨[], intact_new J⟩
  rintro s l s' ⟨sent, hs⟩ hstep
  obtain ⟨hturn, hstep⟩ := Lts.restrict_step hstep
  exact hs.step hJ hstep hturn

theorem Intact.read_length_le (h : Intact J s sent) : s.read.length ≤ sent.length := by
  obtain ⟨taken, hdelivers, htaken⟩ := h.delivers
  obtain ⟨queue, part, hframes, -, -⟩ := hdelivers.onWire
  have hlen := congrArg length hframes
  have hread := congrArg length htaken
  simp only [length_map, length_append] at hlen hread
  omega

/-- Reading on, `drainEvents` comes to the last message that was sent. -/
theorem Intact.drains (n : Nat) : ∀ {s : EventStream}, Intact J s sent →
    sent.length = s.read.length + n →
    ∃ s', (eventStream J).Run s (replicate n .drain) s' ∧ s'.err = none ∧
      s'.read.map some = sent.map (s.messageOf J) := by
  induction n with
  | zero =>
    intro s h hlen
    obtain ⟨taken, hdelivers, htaken⟩ := h.delivers
    obtain ⟨queue, part, hframes, -, -⟩ := hdelivers.onWire
    have hsum := congrArg length hframes
    have hread := congrArg length htaken
    simp only [length_map, length_append] at hsum hread
    have hnil : queue = [] := length_eq_zero_iff.mp (by omega)
    subst hnil
    refine ⟨s, .nil, h.noError, ?_⟩
    rw [← h.messages hframes, append_nil, htaken]
  | succ n ih =>
    intro s h hlen
    obtain ⟨taken, hdelivers, htaken⟩ := h.delivers
    obtain ⟨queue, part, hframes, hwire, -⟩ := hdelivers.onWire
    cases queue with
    | nil =>
      have hsum := congrArg length hframes
      have hread := congrArg length htaken
      simp only [length_map, length_append, length_nil] at hsum hread
      omega
    | cons f queue =>
      rw [flatMap_cons, append_assoc] at hwire
      have hread := readFrame_of_decode ((frames.decode_eq_some _ _ _).mpr hwire)
      obtain ⟨env, hmsg⟩ := h.readMsg_ok hread
      obtain ⟨s', hrun, herr, hall⟩ := ih (h.read hread hmsg) (by simp; omega)
      refine ⟨s', ?_, herr, hall⟩
      rw [replicate_succ]
      refine .cons ?_ hrun
      simp only [eventStream, EventStream.drainEvents, h.noError, hread, hmsg]
      rfl

/-- In every run in which a frame is begun only while no other is on the stream in part, no
error is read, and the messages that are read are those of the calls that succeeded, each once
and as it was sent: some have been read, and the others are read next. -/
theorem sent_events_read (hJ : J.Lawful) {tr : List Label}
    (h : ((eventStream J).restrict fun s l => inTurn s l = true).Run .new tr s) :
    s.err = none ∧
      ∃ sent : List Nat, sent.Nodup ∧ (∀ i, i ∈ sent ↔ s.succeeded i = true) ∧
        s.read.map some <+: sent.map (s.messageOf J) ∧
        ∃ s', (eventStream J).Run s (replicate (sent.length - s.read.length) .drain) s' ∧
          s'.err = none ∧ s'.read.map some = sent.map (s.messageOf J) := by
  obtain ⟨sent, hintact⟩ := intact_run hJ h
  obtain ⟨taken, hdelivers, htaken⟩ := hintact.delivers
  obtain ⟨queue, part, hframes, -, -⟩ := hdelivers.onWire
  have hlen := hintact.read_length_le
  refine ⟨hintact.noError, sent, hdelivers.nodup, hdelivers.sent_iff, ?_,
    hintact.drains _ (by omega)⟩
  rw [← hintact.messages hframes, map_append, htaken]
  exact prefix_append _ _

/-! ## Two sessions that end at the same time -/

/-- `onSessionExit` (`supervisor.go:368-379`) of one of two sessions. -/
def exited (id : GoString) : Event := .sessionExited ⟨"api", id, 0⟩

/-- Both callbacks call `sendEvent`; the second begins when the first is done. -/
def oneByOne : List Label :=
  [.send (exited "s1"), .send (exited "s2"), .write 0 true, .write 0 true, .drain,
    .write 1 true, .write 1 true]

/-- Where `oneByOne` ends. -/
def afterOneByOne : EventStream :=
  (((eventStream Attach.wireEvents).restrict fun s l => inTurn s l = true).exec .new
    oneByOne).get (by decide +kernel)

theorem sent_events_read_pair :
    afterOneByOne.succeeded 0 = true ∧ afterOneByOne.succeeded 1 = true ∧
      afterOneByOne.err = none ∧
      ∃ sent : List Nat, sent.Nodup ∧ (∀ i, i ∈ sent ↔ afterOneByOne.succeeded i = true) ∧
        afterOneByOne.read.map some <+: sent.map (afterOneByOne.messageOf Attach.wireEvents) ∧
        ∃ s', (eventStream Attach.wireEvents).Run afterOneByOne
            (replicate (sent.length - afterOneByOne.read.length) .drain) s' ∧
          s'.err = none ∧
          s'.read.map some = sent.map (afterOneByOne.messageOf Attach.wireEvents) :=
  ⟨by decide +kernel, by decide +kernel,
    sent_events_read Attach.wireEvents_lawful (Lts.exec_run (some_get _).symm)⟩

/-- Both callbacks write their header before either writes its payload. -/
def interleaved : List Label :=
  [.send (exited "s1"), .send (exited "s2"), .write 0 true, .write 1 true,
    .write 0 true, .write 1 true, .drain]

/-- Where `interleaved` ends. -/
def afterInterleaved : EventStream :=
  ((eventStream Attach.wireEvents).exec .new interleaved).get (by decide +kernel)

/-- Both calls succeed, and `drainEvents` returns on an error without having read either
message. -/
theorem torn_events :
    (eventStream Attach.wireEvents).Run .new interleaved afterInterleaved ∧
      afterInterleaved.succeeded 0 = true ∧ afterInterleaved.succeeded 1 = true ∧
      afterInterleaved.read = [] ∧
      afterInterleaved.err =
        some (str "bad envelope: invalid character '\\x01' looking for beginning of value") :=
  ⟨Lts.exec_run (some_get _).symm, by decide +kernel, by decide +kernel,
    by decide +kernel, by decide +kernel⟩

end Supervisor

end Lemul
