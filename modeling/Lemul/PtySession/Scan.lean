import Lemul.Misc.Lists
import Lemul.PtySession.Modes

/-!
# The escape sequences in a session's output

What `Feed` does to the modes depends on the output only through the complete `CSI` sequences
in it, and where these are depends on the bytes alone. `Scan` finds them; `feed_scan`,
`feed_dec`, `feed_kitty` and `feed_modOther` say what a tracker makes of them.
-/

namespace Lemul.PtySession

open List Option

/-- How far into a sequence the output is. -/
structure Scan where
  state : ModeState
  partialSeq : GoString
  deriving DecidableEq, Repr

namespace Scan

/-- Between two sequences. -/
def ground : Scan := ⟨.ground, []⟩

/-- One byte more, with the sequence that it completes. -/
def byte (c : Scan) (b : UInt8) : Scan × Option GoString :=
  match c.state with
  | .ground => if b = 27 then (⟨.esc, [b]⟩, none) else (c, none)
  | .esc => if b = 91 then (⟨.csi, c.partialSeq ++ [b]⟩, none) else (ground, none)
  | .csi =>
      if 64 ≤ b ∧ b ≤ 126 then (ground, some (c.partialSeq ++ [b]))
      else if maxPartial < (c.partialSeq ++ [b]).length then (ground, none)
      else (⟨.csi, c.partialSeq ++ [b]⟩, none)

/-- All the sequences that some output completes. -/
def run : Scan → GoString → Scan × List GoString
  | c, [] => (c, [])
  | c, b :: p =>
      let next := c.byte b
      let rest := run next.1 p
      (rest.1, next.2.toList ++ rest.2)

theorem run_append (c : Scan) (p q : GoString) :
    c.run (p ++ q) = (((c.run p).1.run q).1, (c.run p).2 ++ ((c.run p).1.run q).2) := by
  induction p generalizing c with
  | nil => rfl
  | cons b p ih => simp only [cons_append, run, ih, append_assoc]

/-- Output that is one complete sequence. -/
def Whole (seq : GoString) : Prop := ground.run seq = (ground, [seq])

/-- Sequences one after the other are found one by one. -/
theorem run_whole {seqs : List GoString} (h : ∀ seq ∈ seqs, Whole seq) :
    ground.run seqs.flatten = (ground, seqs) := by
  induction seqs with
  | nil => rfl
  | cons seq seqs ih =>
    have hseq : ground.run seq = (ground, [seq]) := h seq mem_cons_self
    rw [flatten_cons, run_append, hseq, ih fun s hs => h s (mem_cons_of_mem _ hs)]
    rfl

/-- The bytes since the last sequence lead to where the scan is. -/
def Started (c : Scan) : Prop := ground.run c.partialSeq = (c, [])

/-- From there on a byte completes a whole sequence or none, and the scan is again where its
bytes lead to. -/
theorem byte_started {c : Scan} (h : c.Started) (b : UInt8) :
    (c.byte b).1.Started ∧ ∀ seq, (c.byte b).2 = some seq → Whole seq ∧ seq.getLast? = some b := by
  have hground : ground.Started := rfl
  have hlast : ground.run (c.partialSeq ++ [b]) = ((c.byte b).1, (c.byte b).2.toList) := by
    unfold Started at h
    rw [run_append, h]
    simp only [run, nil_append, append_nil]
  unfold byte at hlast ⊢
  cases hstate : c.state with
  | ground =>
    dsimp only
    split
    · rename_i hb
      rw [hb]
      exact ⟨rfl, nofun⟩
    · exact ⟨h, nofun⟩
  | esc =>
    rw [hstate] at hlast
    dsimp only at hlast ⊢
    split
    · rename_i hb
      rw [if_pos hb] at hlast
      exact ⟨hlast, nofun⟩
    · exact ⟨hground, nofun⟩
  | csi =>
    rw [hstate] at hlast
    dsimp only at hlast ⊢
    split
    · rename_i hfinal
      rw [if_pos hfinal] at hlast
      refine ⟨hground, fun seq hseq => ?_⟩
      cases hseq
      exact ⟨hlast, getLast?_concat⟩
    · rename_i hparam
      rw [if_neg hparam] at hlast
      split
      · exact ⟨hground, nofun⟩
      · rename_i hlen
        rw [if_neg hlen] at hlast
        exact ⟨hlast, nofun⟩

theorem run_started {c : Scan} (h : c.Started) (p : GoString) :
    (c.run p).1.Started ∧ ∀ seq ∈ (c.run p).2, Whole seq := by
  induction p generalizing c with
  | nil => exact ⟨h, nofun⟩
  | cons b p ih =>
    obtain ⟨hstarted, hwhole⟩ := byte_started h b
    obtain ⟨hlast, hrest⟩ := ih hstarted
    refine ⟨hlast, fun seq hseq => ?_⟩
    rcases mem_append.mp hseq with hseq | hseq
    · exact (hwhole seq (mem_toList.mp hseq)).1
    · exact hrest seq hseq

variable {params : GoString}

/-- Parameters are collected as long as there are not too many. -/
theorem run_params {acc : GoString} (hparams : ∀ b ∈ params, ¬(64 ≤ b ∧ b ≤ 126))
    (hlen : (acc ++ params).length ≤ maxPartial) :
    (⟨.csi, acc⟩ : Scan).run params = (⟨.csi, acc ++ params⟩, []) := by
  induction params generalizing acc with
  | nil =>
    rw [append_nil]
    rfl
  | cons b params ih =>
    have hb : ¬(64 ≤ b ∧ b ≤ 126) := hparams b mem_cons_self
    have hshort : ¬maxPartial < (acc ++ [b]).length := by
      rw [length_append, length_cons] at hlen
      rw [length_append, length_singleton]
      omega
    have hnext : (⟨.csi, acc⟩ : Scan).byte b = (⟨.csi, acc ++ [b]⟩, none) := by
      simp only [byte, if_neg hb, if_neg hshort]
    have hassoc : acc ++ [b] ++ params = acc ++ b :: params := append_assoc _ _ _
    have hrest : (⟨.csi, acc ++ [b]⟩ : Scan).run params = (⟨.csi, acc ++ [b] ++ params⟩, []) :=
      ih (fun b' hb' => hparams b' (mem_cons_of_mem _ hb')) (hassoc ▸ hlen)
    simp only [run, hnext, hrest, hassoc, toList_none, nil_append]

/-- A `CSI`, not too many parameters and a final byte are a whole sequence. -/
theorem whole_csi {final : UInt8} (hparams : ∀ b ∈ params, ¬(64 ≤ b ∧ b ≤ 126))
    (hlen : params.length + 2 ≤ maxPartial)
    (hfinal : 64 ≤ final ∧ final ≤ 126) :
    Whole ([27, 91] ++ params ++ [final]) := by
  have hstart : ground.run [27, 91] = (⟨.csi, [27, 91]⟩, []) := rfl
  have hrun : (⟨.csi, [27, 91]⟩ : Scan).run params = (⟨.csi, [27, 91] ++ params⟩, []) := by
    refine run_params hparams ?_
    rw [length_append]
    exact Nat.add_comm _ _ ▸ hlen
  have hlast : (⟨.csi, [27, 91] ++ params⟩ : Scan).run [final] =
      (ground, [[27, 91] ++ params ++ [final]]) := by
    simp only [run, byte, if_pos hfinal]
    rfl
  unfold Whole
  rw [run_append, run_append, hstart, hrun, hlast]
  rfl

end Scan

/-! ## What a sequence means -/

/-- The modes that a sequence sets and resets. -/
def assigns (seq : GoString) : List (Int × Bool) :=
  match (seq.drop 2).dropLast with
  | 63 :: params =>
      let named (set : Bool) := (params.splitOn 59).filterMap fun f => (atoi f).map (·, set)
      if seq.getLast? = some 104 then named true
      else if seq.getLast? = some 108 then named false
      else []
  | _ => []

/-- The keyboard protocol that a sequence chooses. -/
def kittyOf (seq : GoString) : Option GoString :=
  match (seq.drop 2).dropLast with
  | b :: _ => if (b = 62 ∨ b = 61 ∨ b = 60) ∧ seq.getLast? = some 117 then some seq else none
  | [] => none

/-- The `modifyOtherKeys` that a sequence chooses. -/
def modOtherOf (seq : GoString) : Option GoString :=
  match (seq.drop 2).dropLast with
  | b :: _ => if b = 62 ∧ seq.getLast? = some 109 then some seq else none
  | [] => none

variable {params seq : GoString}

theorem assigns_private (h : (seq.drop 2).dropLast = 63 :: params) :
    assigns seq =
      if seq.getLast? = some 104 then
        (params.splitOn 59).filterMap fun f => (atoi f).map (·, true)
      else if seq.getLast? = some 108 then
        (params.splitOn 59).filterMap fun f => (atoi f).map (·, false)
      else [] := by
  unfold assigns
  rw [h]
  rfl

variable {b : UInt8}

theorem assigns_other (h : (seq.drop 2).dropLast = b :: params)
    (hb : b ≠ 63) : assigns seq = [] := by
  unfold assigns
  rw [h]
  split
  · rename_i heq
    cases heq
    exact absurd rfl hb
  · rfl

theorem kittyOf_cons (h : (seq.drop 2).dropLast = b :: params) : kittyOf seq =
      if (b = 62 ∨ b = 61 ∨ b = 60) ∧ seq.getLast? = some 117 then some seq else none := by
  unfold kittyOf
  rw [h]

theorem modOtherOf_cons (h : (seq.drop 2).dropLast = b :: params) :
    modOtherOf seq = if b = 62 ∧ seq.getLast? = some 109 then some seq else none := by
  unfold modOtherOf
  rw [h]

theorem kittyOf_eq {k : GoString} (h : kittyOf seq = some k) :
    k = seq ∧ assigns seq = [] ∧ modOtherOf seq = none := by
  cases hparams : (seq.drop 2).dropLast with
  | nil => simp [kittyOf, hparams] at h
  | cons b params =>
    have hassigns := assigns_other hparams
    rw [kittyOf_cons hparams] at h
    rw [modOtherOf_cons hparams]
    grind

theorem modOtherOf_eq {k : GoString} (h : modOtherOf seq = some k) :
    k = seq ∧ assigns seq = [] ∧ kittyOf seq = none := by
  cases hparams : (seq.drop 2).dropLast with
  | nil => simp [modOtherOf, hparams] at h
  | cons b params =>
    have hassigns := assigns_other hparams
    rw [modOtherOf_cons hparams] at h
    rw [kittyOf_cons hparams]
    grind

namespace ModeTracker

/-- Where a tracker is in its input. -/
def scan (m : ModeTracker) : Scan := ⟨m.state, m.partialSeq⟩

/-- Several modes set and reset one after the other. -/
def assign (dec : List (Int × Bool)) (xs : List (Int × Bool)) : List (Int × Bool) :=
  xs.foldl (fun dec x => setMode dec x.1 x.2) dec

theorem setModes_eq (dec : List (Int × Bool)) (params : GoString) (set : Bool) :
    setModes dec params set =
      assign dec ((params.splitOn 59).filterMap fun f => (atoi f).map (·, set)) := by
  unfold setModes assign
  induction params.splitOn 59 generalizing dec with
  | nil => rfl
  | cons f fs ih =>
    cases hf : atoi f with
    | none => simp only [foldl_cons, filterMap_cons, hf, map_none, ih]
    | some n => simp only [foldl_cons, filterMap_cons, hf, map_some, ih]

variable {m : ModeTracker}

theorem commit_private (h : (m.partialSeq.drop 2).dropLast = 63 :: params) (final : UInt8) :
    m.commit final =
      if final = 104 then { m with dec := setModes m.dec params true }
      else if final = 108 then { m with dec := setModes m.dec params false }
      else m := by
  unfold commit
  rw [h]
  rfl

theorem commit_other (h : (m.partialSeq.drop 2).dropLast = b :: params) (hb : b ≠ 63)
    (final : UInt8) :
    m.commit final =
      if b = 62 ∨ b = 61 ∨ b = 60 then
        if final = 117 then { m with kitty := m.partialSeq }
        else if final = 109 ∧ b = 62 then { m with modOther := m.partialSeq }
        else m
      else m := by
  unfold commit
  rw [h]
  split
  · rename_i heq
    cases heq
  · rename_i heq
    cases heq
    exact absurd rfl hb
  · rename_i heq
    cases heq
    rfl

/-- What `commit` makes of the sequence. -/
theorem commit_eq {final : UInt8} (h : m.partialSeq.getLast? = some final) :
    m.commit final = { m with
      dec := assign m.dec (assigns m.partialSeq)
      kitty := (kittyOf m.partialSeq).getD m.kitty
      modOther := (modOtherOf m.partialSeq).getD m.modOther } := by
  cases hparams : (m.partialSeq.drop 2).dropLast with
  | nil =>
    unfold commit assigns kittyOf modOtherOf
    rw [hparams]
    rfl
  | cons b params =>
    rw [kittyOf_cons hparams, modOtherOf_cons hparams, h]
    by_cases hb : b = 63
    · subst hb
      rw [commit_private hparams, assigns_private hparams, h, setModes_eq, setModes_eq]
      have hkey : ¬((63 : UInt8) = 62 ∨ (63 : UInt8) = 61 ∨ (63 : UInt8) = 60) := by decide
      cases m
      grind [assign]
    · rw [commit_other hparams hb, assigns_other hparams hb]
      cases m
      grind [assign]

/-- One byte of `Feed` is a step of the scan, and the sequence it completes is obeyed. -/
theorem feedByte_eq (m : ModeTracker) (b : UInt8) :
    m.feedByte b = ⟨(m.scan.byte b).1.state, (m.scan.byte b).1.partialSeq,
      assign m.dec ((m.scan.byte b).2.toList.flatMap assigns),
      overwrite kittyOf m.kitty (m.scan.byte b).2.toList,
      overwrite modOtherOf m.modOther (m.scan.byte b).2.toList⟩ := by
  obtain ⟨state, seq, dec, kitty, modOther⟩ := m
  unfold feedByte scan Scan.byte
  cases state with
  | ground | esc =>
    dsimp only
    split <;> rfl
  | csi =>
    dsimp only
    split
    · rw [commit_eq (m := ⟨.csi, seq ++ [b], dec, kitty, modOther⟩) getLast?_concat]
      simp only [toList_some, flatMap_cons, flatMap_nil, append_nil,
        overwrite, foldl_cons, foldl_nil, Scan.ground]
    · split <;> rfl

/-- `Feed`: the sequences in the chunk are obeyed one after the other. -/
theorem feed_eq (m : ModeTracker) (p : GoString) :
    m.feed p = ⟨(m.scan.run p).1.state, (m.scan.run p).1.partialSeq,
      assign m.dec ((m.scan.run p).2.flatMap assigns),
      overwrite kittyOf m.kitty (m.scan.run p).2,
      overwrite modOtherOf m.modOther (m.scan.run p).2⟩ := by
  induction p generalizing m with
  | nil => rfl
  | cons b p ih =>
    change (m.feedByte b).feed p = _
    have hscan : (m.feedByte b).scan = (m.scan.byte b).1 := by
      rw [feedByte_eq]
      rfl
    rw [ih, hscan, feedByte_eq]
    simp only [Scan.run, assign, overwrite, flatMap_append, foldl_append]

@[simp] theorem feed_scan (m : ModeTracker) (p : GoString) :
    (m.feed p).scan = (m.scan.run p).1 := by
  rw [feed_eq]
  rfl

theorem feed_dec (m : ModeTracker) (p : GoString) :
    (m.feed p).dec = assign m.dec ((m.scan.run p).2.flatMap assigns) := by rw [feed_eq]

theorem feed_kitty (m : ModeTracker) (p : GoString) :
    (m.feed p).kitty = overwrite kittyOf m.kitty (m.scan.run p).2 := by rw [feed_eq]

theorem feed_modOther (m : ModeTracker) (p : GoString) :
    (m.feed p).modOther = overwrite modOtherOf m.modOther (m.scan.run p).2 := by rw [feed_eq]

theorem feed_append (m : ModeTracker) (p q : GoString) :
    m.feed (p ++ q) = (m.feed p).feed q := foldl_append

end ModeTracker

end Lemul.PtySession
