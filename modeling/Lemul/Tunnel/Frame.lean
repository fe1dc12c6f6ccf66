import Lemul.Misc.Decimal
import Lemul.Misc.Framing
import Lemul.Misc.LengthPrefix

/-!
# Frames inside a tunnel

`internal/tunnel/frame.go`: a stream of a tunnel is a raw byte pipe, so what is on it is
tagged and measured. `writeFrame` and `readFrame` are a self-delimiting code (`frames`).
-/

namespace Lemul

open List

/-- `FrameData` (`frame.go:18`): raw PTY bytes. -/
def frameData : UInt8 := 0x00

/-- `FrameControl` (`frame.go:19`): a JSON envelope. -/
def frameControl : UInt8 := 0x01

/-- `maxFrame` (`frame.go:24`). -/
def maxFrame : Nat := 2 ^ 20

/-- One framed message, of a size that is allowed. -/
structure Frame where
  typ : UInt8
  payload : GoString
  fits : payload.length ≤ maxFrame
  deriving DecidableEq

/-- The header: `[type:1][len:4 BE]`. -/
def frameHeader (typ : UInt8) (payload : GoString) : GoString :=
  typ :: bigEndian 4 payload.length

/-- `WriteFrame` (`frame.go:27-42`): the buffers it passes to `Write`, one after the
other. -/
def writeFrame (typ : UInt8) (payload : GoString) : Except GoString (List GoString) :=
  if maxFrame < payload.length then
    .error ("frame too large: " ++ decimal payload.length)
  else if payload = [] then .ok [frameHeader typ payload]
  else .ok [frameHeader typ payload, payload]

/-- What `ReadFrame` makes of the bytes that have arrived. -/
inductive ReadResult where
  | frame (f : Frame) (rest : GoString)
  | error (message : GoString)
  /-- `ReadFull` waits for more. -/
  | short

/-- `ReadFrame` (`frame.go:46-63`). -/
def readFrame (s : GoString) : ReadResult :=
  match s with
  | [] => .short
  | typ :: s =>
      if s.length < 4 then .short
      else if h : ofBigEndian (s.take 4) ≤ maxFrame then
        if (s.drop 4).length < ofBigEndian (s.take 4) then .short
        else .frame
          { typ := typ
            payload := (s.drop 4).take (ofBigEndian (s.take 4))
            fits := Nat.le_trans (List.length_take_le _ _) h }
          ((s.drop 4).drop (ofBigEndian (s.take 4)))
      else .error ("frame too large: " ++ decimal (ofBigEndian (s.take 4)))

namespace Frame

/-- The bytes of a frame. -/
def encode (f : Frame) : GoString := frameHeader f.typ f.payload ++ f.payload

/-- The frame `ReadFrame` returns, if it does. -/
def decode (s : GoString) : Option (Frame × GoString) :=
  match readFrame s with
  | .frame f rest => some (f, rest)
  | _ => none

/-- The frame that was written is read, and nothing after it is touched. -/
theorem decode_encode (f : Frame) (rest : GoString) :
    decode (f.encode ++ rest) = some (f, rest) := by
  obtain ⟨typ, payload, fits⟩ := f
  have hlen : ofBigEndian (bigEndian 4 payload.length) = payload.length := by
    rw [ofBigEndian_bigEndian, Nat.mod_eq_of_lt (Nat.lt_of_le_of_lt fits (by decide))]
  have htake : (bigEndian 4 payload.length ++ (payload ++ rest)).take 4 =
      bigEndian 4 payload.length := take_left' (length_bigEndian 4 _)
  have hdrop : (bigEndian 4 payload.length ++ (payload ++ rest)).drop 4 = payload ++ rest :=
    drop_left' (length_bigEndian 4 _)
  have hheader : ¬(bigEndian 4 payload.length ++ (payload ++ rest)).length < 4 := by
    rw [length_append, length_bigEndian]
    omega
  have hbody : ¬(payload ++ rest).length < payload.length := by
    rw [length_append]
    omega
  simp only [decode, encode, frameHeader, cons_append, append_assoc, readFrame,
    if_neg hheader, htake, hdrop, hlen, dif_pos fits, if_neg hbody, take_left,
    drop_left]

/-- What is read was written so. -/
theorem encode_of_decode {s rest : GoString} {f : Frame} (h : decode s = some (f, rest)) :
    s = f.encode ++ rest := by
  unfold decode at h
  split at h
  · rename_i g tail hread
    cases h
    cases s with
    | nil => cases hread
    | cons typ s =>
      simp only [readFrame] at hread
      split at hread
      · cases hread
      · rename_i hheader
        split at hread
        · rename_i hfits
          split at hread <;> cases hread
          rename_i hbody
          have hfour : (s.take 4).length = 4 := by
            rw [length_take]
            omega
          have hpayload : ((s.drop 4).take (ofBigEndian (s.take 4))).length =
              ofBigEndian (s.take 4) := by
            rw [length_take]
            omega
          have hback : bigEndian 4 (ofBigEndian (s.take 4)) = s.take 4 := by
            have hread := bigEndian_ofBigEndian (s.take 4)
            rwa [hfour] at hread
          simp only [encode, frameHeader, hpayload, hback, cons_append,
            append_assoc, take_append_drop]
        · cases hread
  · cases h

end Frame

/-- The tunnel's framing. -/
def frames : Framing UInt8 Frame where
  encode := Frame.encode
  decode := Frame.decode
  encode_ne_nil f := by simp [Frame.encode, frameHeader]
  decode_eq_some s f rest := by
    constructor
    · exact Frame.encode_of_decode
    · intro h
      rw [h]
      exact f.decode_encode rest

variable {payload rest s : GoString} {buffers : List GoString}

/-- The buffers of `WriteFrame` are the bytes of one frame, of the type and with the
payload it was given. -/
theorem writeFrame_ok {typ : UInt8} (h : writeFrame typ payload = .ok buffers) :
    ∃ f : Frame, f.typ = typ ∧ f.payload = payload ∧ buffers.flatten = frames.encode f := by
  unfold writeFrame at h
  split at h
  · cases h
  · rename_i hfits
    refine ⟨⟨typ, payload, by omega⟩, rfl, rfl, ?_⟩
    split at h <;> cases h
    · rename_i hnil
      simp [frames, Frame.encode, hnil]
    · simp [frames, Frame.encode]

/-- More bytes do not make an error of `ReadFrame` go away. -/
theorem readFrame_error_append {t e : GoString} (h : readFrame s = .error e) :
    readFrame (s ++ t) = .error e := by
  cases s with
  | nil => cases h
  | cons typ s =>
    simp only [readFrame] at h
    split at h
    · cases h
    · rename_i hheader
      split at h
      · split at h <;> cases h
      · rename_i hfits
        have htake : (s ++ t).take 4 = s.take 4 := by
          rw [take_append_of_le_length (by omega)]
        have hheader' : ¬(s ++ t).length < 4 := by
          rw [length_append]
          omega
        simp only [cons_append, readFrame, if_neg hheader', htake, dif_neg hfits]
        exact h

theorem readFrame_of_decode {f : Frame}
    (h : frames.decode s = some (f, rest)) : readFrame s = .frame f rest := by
  simp only [frames, Frame.decode] at h
  split at h
  · rename_i g tail hread
    cases h
    exact hread
  · cases h

theorem decode_of_readFrame {f : Frame} (h : readFrame s = .frame f rest) :
    frames.decode s = some (f, rest) := by
  simp only [frames, Frame.decode, h]

/-- No buffer of `WriteFrame` is empty. -/
theorem writeFrame_ne_nil {typ : UInt8}
    (h : writeFrame typ payload = .ok buffers) : ∀ b ∈ buffers, b ≠ [] := by
  unfold writeFrame at h
  split at h
  · cases h
  · split at h <;> cases h
    · simp [frameHeader]
    · rename_i hpayload
      simp [frameHeader, hpayload]

end Lemul
