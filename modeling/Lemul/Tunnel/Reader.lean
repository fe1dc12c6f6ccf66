import Lemul.Misc.ByteReader
import Lemul.Tunnel.Frame

/-!
# Reading frames off a connection

`ReadFrame` (`internal/tunnel/frame.go:46-63`) over an `io.Reader`, and `WSConn.Read`
(`internal/tunnel/wsnet.go:53-78`), which makes one of a WebSocket: it reads the binary messages,
one after the other, and skips all others. What `ReadFrame` returns depends on the bytes that are
left only, and is what `readFrame` says about them.
-/

namespace Lemul

open List

/-- What a `ReadFrame` call did: the buffer it made for the payload, and what it returned. -/
structure Received where
  allocated : Option Nat
  result : Except ReadError (UInt8 × GoString)

namespace ByteReader

variable {σ : Type} (R : ByteReader σ)

/-- `ReadFrame` (`frame.go:46-63`). -/
def readFrame (s : σ) : Received × σ :=
  match R.readFull 5 s with
  | (.error e, s) => (⟨none, .error e⟩, s)
  | (.ok hdr, s) =>
      let n := ofBigEndian (hdr.drop 1)
      if maxFrame < n then
        (⟨none, .error (.other ("frame too large: " ++ decimal n))⟩, s)
      else if n = 0 then (⟨none, .ok (hdr.headD 0, [])⟩, s)
      else
        match R.readFull n s with
        | (.error e, s) => (⟨some n, .error e⟩, s)
        | (.ok payload, s) => (⟨some n, .ok (hdr.headD 0, payload)⟩, s)

/-- Calls of `ReadFrame` until one fails, at most `n`. -/
def readFrames : Nat → σ → List (UInt8 × GoString) × Option ReadError
  | 0, _ => ([], none)
  | n + 1, s =>
      match R.readFrame s with
      | (⟨_, .ok f⟩, s) => (f :: (readFrames n s).1, (readFrames n s).2)
      | (⟨_, .error e⟩, _) => ([], some e)

variable {R} {s : σ}

theorem allocated_le {n : Nat} (h : (R.readFrame s).1.allocated = some n) : n ≤ maxFrame := by
  unfold readFrame at h
  dsimp only at h
  split at h
  · cases h
  · split at h
    · cases h
    · rename_i hfits
      split at h
      · cases h
      · split at h <;> cases h
        · exact Nat.not_lt.mp hfits
        · exact Nat.not_lt.mp hfits

/-- `ReadFrame` answers by the bytes that are left. -/
theorem readFrame_eq : match Lemul.readFrame (R.left s) with
    | .frame f rest => ∃ a s', R.readFrame s = (⟨a, .ok (f.typ, f.payload)⟩, s') ∧
        R.left s' = rest
    | .short => ∃ a e s', R.readFrame s = (⟨a, .error e⟩, s')
    | .error m => ∃ s', R.readFrame s = (⟨none, .error (.other m)⟩, s') := by
  have hfive : ∀ t : GoString, (t.length < 5) → Lemul.readFrame t = .short := by
    intro t ht
    cases t with
    | nil => rfl
    | cons typ t => exact if_pos (by rw [length_cons] at ht; omega)
  by_cases hheader : (R.left s).length < 5
  · obtain ⟨e, s', hshort⟩ := readFull_short hheader
    rw [hfive _ hheader]
    exact ⟨none, e, s', by simp only [readFrame, hshort]⟩
  · obtain ⟨mid, hhdr, hmid⟩ := readFull_ok (Nat.not_lt.mp hheader)
    cases hleft : R.left s with
    | nil => exact absurd (by rw [hleft]; decide) hheader
    | cons typ t =>
      have hfour : ¬t.length < 4 := by
        rw [hleft, length_cons] at hheader
        omega
      rw [hleft] at hhdr hmid
      simp only [take_succ_cons, drop_succ_cons] at hhdr hmid
      simp only [Lemul.readFrame, if_neg hfour, readFrame, hhdr, drop_succ_cons, drop_zero,
        headD_cons]
      by_cases hfits : ofBigEndian (t.take 4) ≤ maxFrame
      · rw [dif_pos hfits, if_neg (Nat.not_lt.mpr hfits)]
        by_cases hzero : ofBigEndian (t.take 4) = 0
        · rw [if_neg (by omega), if_pos hzero]
          simp only [hzero, take_zero, drop_zero]
          exact ⟨none, mid, rfl, hmid⟩
        · rw [if_neg hzero]
          by_cases hbody : (t.drop 4).length < ofBigEndian (t.take 4)
          · obtain ⟨e, s', hshort⟩ := readFull_short (R := R) (s := mid) (hmid ▸ hbody)
            rw [if_pos hbody, hshort]
            exact ⟨_, e, s', rfl⟩
          · obtain ⟨s', hok, hrest⟩ := readFull_ok (R := R) (s := mid)
              (hmid ▸ Nat.not_lt.mp hbody)
            rw [if_neg hbody, hok]
            rw [hmid] at hrest ⊢
            exact ⟨_, s', rfl, hrest⟩
      · rw [dif_neg hfits, if_pos (Nat.not_le.mp hfits)]
        exact ⟨mid, rfl⟩

end ByteReader

/-- A frame that is cut off is not returned. -/
theorem readFrame_cut (f : Frame) {m : Nat} (h : m < f.encode.length) :
    readFrame (f.encode.take m) = .short := by
  cases hread : readFrame (f.encode.take m) with
  | short => rfl
  | error e =>
    have hmore := readFrame_error_append (t := f.encode.drop m) hread
    have hwhole := readFrame_of_decode ((frames.decode_eq_some f.encode f []).mpr
      (append_nil _).symm)
    rw [take_append_drop, hwhole] at hmore
    cases hmore
  | frame g rest =>
    have hwhole := frames.decode_append (decode_of_readFrame hread) (f.encode.drop m)
    rw [take_append_drop, (frames.decode_eq_some f.encode f []).mpr (append_nil _).symm] at hwhole
    have hnil := (Prod.mk.inj (Option.some.inj hwhole)).2
    exact absurd (drop_eq_nil_iff.mp (append_eq_nil_iff.mp hnil.symm).2) (Nat.not_le.mpr h)

/-- The frames that are complete in the first `m` bytes of a stream. -/
def complete : Nat → List Frame → List Frame
  | _, [] => []
  | m, f :: fs =>
      if f.encode.length ≤ m then f :: complete (m - f.encode.length) fs else []

theorem complete_all {fs : List Frame} {m : Nat} (h : (fs.flatMap Frame.encode).length ≤ m) :
    complete m fs = fs := by
  induction fs generalizing m with
  | nil => rfl
  | cons f fs ih =>
    rw [flatMap_cons, length_append] at h
    rw [complete, if_pos (by omega), ih (by omega)]

variable {σ : Type} {R : ByteReader σ} {fs : List Frame} {m n : Nat} {s : σ}

theorem readFrames_short (hshort : readFrame (R.left s) = .short) (hn : 0 < n) :
    ∃ e, R.readFrames n s = ([], some e) := by
  have hread := R.readFrame_eq (s := s)
  rw [hshort] at hread
  obtain ⟨a, e, s', hread⟩ := hread
  obtain ⟨k, rfl⟩ := Nat.exists_eq_succ_of_ne_zero (Nat.ne_of_gt hn)
  exact ⟨e, by simp only [ByteReader.readFrames, hread]⟩

/-- What is read of a stream of frames that ends after `m` bytes. -/
theorem readFrames_cut (hleft : R.left s = (fs.flatMap Frame.encode).take m)
    (hn : (complete m fs).length < n) :
    ∃ e, R.readFrames n s = ((complete m fs).map (fun f => (f.typ, f.payload)), some e) := by
  induction fs generalizing m n s with
  | nil =>
    refine readFrames_short ?_ (Nat.zero_lt_of_lt hn)
    rw [hleft, flatMap_nil, take_nil]
    rfl
  | cons f fs ih =>
    rw [flatMap_cons] at hleft
    by_cases hin : f.encode.length ≤ m
    · rw [complete, if_pos hin] at hn ⊢
      rw [take_append, take_of_length_le hin] at hleft
      have hread := R.readFrame_eq (s := s)
      rw [readFrame_of_decode ((frames.decode_eq_some _ f _).mpr hleft)] at hread
      obtain ⟨a, s', hread, hrest⟩ := hread
      obtain ⟨k, rfl⟩ := Nat.exists_eq_succ_of_ne_zero (Nat.ne_of_gt (Nat.zero_lt_of_lt hn))
      obtain ⟨e, hmore⟩ := ih hrest (Nat.lt_of_succ_lt_succ hn)
      exact ⟨e, by simp only [ByteReader.readFrames, hread, hmore, map_cons]⟩
    · rw [complete, if_neg hin]
      refine readFrames_short ?_ (Nat.zero_lt_of_lt hn)
      rw [hleft, take_append_of_le_length (Nat.le_of_not_le hin)]
      exact readFrame_cut f (Nat.not_le.mp hin)

/-! ## Over a WebSocket -/

/-- A message of the peer, in the portions its reader returns it. `eager` is whether the last
one comes together with `io.EOF`; a reader that `fails` returns an error instead, and so does
everything after it. -/
structure Message where
  binary : Bool
  chunks : Chunks
  eager : Bool
  fails : Option GoString

/-- What there is to read of a message and, where it does not fail, of the `rest` behind it. -/
def Message.before (m : Message) (rest : GoString) : GoString :=
  m.chunks.pieces.flatten ++ if m.fails = none then rest else []

/-- `WSConn` (`wsnet.go:36-43`), as far as it reads: the message being drained, and what
`NextReader` will return. -/
structure WSConn where
  r : Option Message
  messages : List Message

namespace WSConn

/-- `c.r.Read(p)` with a buffer of `n` bytes. -/
def readMessage (n : Nat) (m : Message) : GoString × Option ReadError × Message :=
  match m.chunks.next n, m.fails with
  | none, none => ([], some .eof, m)
  | none, some e => ([], some (.other e), m)
  | some (b, rest), none =>
      (b, if m.eager && rest.pieces.isEmpty then some .eof else none, { m with chunks := rest })
  | some (b, rest), some _ => (b, none, { m with chunks := rest })

/-- The rest of the loop of `Read` once there is a message to drain. -/
def drain (n : Nat) (m : Message) (ms : List Message)
    (again : Except ReadError GoString × WSConn) : Except ReadError GoString × WSConn :=
  match readMessage n m with
  | (b, some .eof, _) => if b = [] then again else (.ok b, ⟨none, ms⟩)
  | (_, some e, m) => (.error e, ⟨some m, ms⟩)
  | (b, none, m) => (.ok b, ⟨some m, ms⟩)

/-- The loop of `Read` from where there is none; `err` is the error of `NextReader` after the
last message. It discards what is left of a message first, and fails where that does. -/
def nextMessage (err : ReadError) (n : Nat) : List Message → Except ReadError GoString × WSConn
  | [] => (.error err, ⟨none, []⟩)
  | m :: ms =>
      if m.binary then drain n m ms (nextMessage err n ms)
      else
        match m.fails with
        | none => nextMessage err n ms
        | some e => (.error (.other e), ⟨none, m :: ms⟩)

/-- `Read` (`wsnet.go:53-78`). -/
def read (err : ReadError) (n : Nat) (c : WSConn) : Except ReadError GoString × WSConn :=
  match c.r with
  | none => nextMessage err n c.messages
  | some m => drain n m c.messages (nextMessage err n c.messages)

/-- The bytes of the binary messages, up to where one fails. -/
def bytes : List Message → GoString
  | [] => []
  | m :: ms => if m.binary then m.before (bytes ms) else if m.fails = none then bytes ms else []

/-- What has not been read yet. -/
def left (c : WSConn) : GoString :=
  match c.r with
  | none => bytes c.messages
  | some m => m.before (bytes c.messages)

/-- A `Read` with a buffer of `n` bytes took some first bytes of `whole`, or there are none. -/
def Takes (n : Nat) (whole : GoString) (result : Except ReadError GoString × WSConn) : Prop :=
  match result with
  | (.ok b, c) => b ≠ [] ∧ b.length ≤ n ∧ whole = b ++ c.left
  | (.error _, _) => whole = []

variable {n : Nat} {ms : List Message} {err : ReadError}

theorem drain_takes (hn : 0 < n) (m : Message) {again : Except ReadError GoString × WSConn}
    (hagain : Takes n (bytes ms) again) :
    Takes n (m.before (bytes ms)) (drain n m ms again) := by
  unfold drain readMessage
  cases hnext : m.chunks.next n with
  | none =>
    cases hfails : m.fails with
    | none => simpa [Message.before, Chunks.next_none hnext, hfails] using hagain
    | some e => simp [Message.before, Chunks.next_none hnext, hfails, Takes]
  | some x =>
    obtain ⟨b, rest⟩ := x
    obtain ⟨hne, hle, hbytes⟩ := Chunks.next_some hn hnext
    rw [Message.before, hbytes, append_assoc]
    cases hfails : m.fails with
    | some e => exact ⟨hne, hle, by simp [left, Message.before]⟩
    | none =>
      cases hlast : m.eager && rest.pieces.isEmpty with
      | true =>
        rw [Bool.and_eq_true, List.isEmpty_iff] at hlast
        simp only [hlast, List.isEmpty_nil, Bool.and_self, if_true, if_neg hne]
        exact ⟨hne, hle, rfl⟩
      | false =>
        simp only [hlast, Bool.false_eq_true, if_false]
        exact ⟨hne, hle, by simp [left, Message.before]⟩

theorem nextMessage_takes (hn : 0 < n) : Takes n (bytes ms) (nextMessage err n ms) := by
  induction ms with
  | nil => rfl
  | cons m ms ih =>
    unfold nextMessage bytes
    cases hbinary : m.binary with
    | true => exact drain_takes hn m ih
    | false =>
      cases hfails : m.fails with
      | none => exact ih
      | some e => rfl

theorem read_takes (err : ReadError) (hn : 0 < n) (c : WSConn) : Takes n c.left (read err n c) := by
  unfold read left
  cases c.r with
  | none => exact nextMessage_takes hn
  | some m => exact drain_takes hn m (nextMessage_takes hn)

/-- A connection whose `NextReader` fails with `err` after the messages it has. -/
def reader (err : ReadError) : ByteReader WSConn where
  read := read err
  left := left
  read_ok := by
    intro n c b c' hn h
    have htakes := read_takes err hn c
    rw [h] at htakes
    exact htakes
  read_error := by
    intro n c e c' hn h
    have htakes := read_takes err hn c
    rw [h] at htakes
    exact htakes

end WSConn

/-! ## Framing is exact -/

/-- The buffers of one `WriteFrame` after the other. -/
def writeFrames : List Frame → Except GoString (List GoString)
  | [] => .ok []
  | f :: fs =>
      match writeFrame f.typ f.payload, writeFrames fs with
      | .ok first, .ok rest => .ok (first ++ rest)
      | .error e, _ => .error e
      | _, .error e => .error e

theorem writeFrames_ok (fs : List Frame) :
    ∃ buffers, writeFrames fs = .ok buffers ∧ buffers.flatten = fs.flatMap Frame.encode := by
  induction fs with
  | nil => exact ⟨[], rfl, rfl⟩
  | cons f fs ih =>
    obtain ⟨rest, hrest, hbytes⟩ := ih
    cases hfirst : writeFrame f.typ f.payload with
    | error e =>
      unfold writeFrame at hfirst
      rw [if_neg (Nat.not_lt.mpr f.fits)] at hfirst
      split at hfirst <;> cases hfirst
    | ok first =>
      obtain ⟨g, htyp, hpayload, hencode⟩ := writeFrame_ok hfirst
      have hsame : g = f := by
        cases g
        cases f
        cases htyp
        cases hpayload
        rfl
      subst hsame
      refine ⟨first ++ rest, by simp only [writeFrames, hfirst, hrest], ?_⟩
      rw [flatten_append, hencode, hbytes, flatMap_cons]
      rfl

/-- Frames that were written are read back one for one, whatever portions they come in; a stream
that is cut off gives those that are complete, and then an error; and a buffer is made for what
may be in a frame only. -/
theorem framing_exact (fs : List Frame) : ∃ buffers, writeFrames fs = .ok buffers ∧
    complete buffers.flatten.length fs = fs ∧
    (∀ m n, (complete m fs).length < n →
      (∀ (σ : Type) (R : ByteReader σ) (s : σ), R.left s = buffers.flatten.take m →
        ∃ e, R.readFrames n s = ((complete m fs).map (fun f => (f.typ, f.payload)), some e)) ∧
      ∀ err ms, WSConn.bytes ms = buffers.flatten.take m →
        ∃ e, (WSConn.reader err).readFrames n ⟨none, ms⟩ =
          ((complete m fs).map (fun f => (f.typ, f.payload)), some e)) ∧
    ∀ (σ : Type) (R : ByteReader σ) (s : σ) n,
      (R.readFrame s).1.allocated = some n → n ≤ maxFrame := by
  obtain ⟨buffers, hbuffers, hbytes⟩ := writeFrames_ok fs
  refine ⟨buffers, hbuffers, complete_all (Nat.le_of_eq (by rw [hbytes])),
    fun m n hn => ⟨?_, ?_⟩, ?_⟩
  · intro σ R s hleft
    exact readFrames_cut (hbytes ▸ hleft) hn
  · intro err ms hleft
    exact readFrames_cut (hbytes ▸ hleft) hn
  · exact fun σ R s n h => ByteReader.allocated_le h

end Lemul
