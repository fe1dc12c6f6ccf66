import Lemul.Misc.Ecma48
import Lemul.PtySession.Scan

/-!
# What a boundary is to a terminal

`AtBoundary` (`modes.go:63-66`) compared with a terminal that follows all the controls of
ECMA-48. The tracker follows `CSI` and takes every other sequence for two bytes long, it takes
an `ESC` inside a sequence for a part of it, and it gives up on a `CSI` that is too long. So it
can be at a boundary while a terminal is not. Where the two part depends on the last `ESC` of
the output, on what follows it and on what the tracker made of that `ESC`.
-/

namespace Lemul.PtySession

open Ecma48 List Scan

namespace Scan

section Text

variable {p : GoString}

/-- Output without an `ESC` leaves a scan between sequences. -/
theorem run_text {c : Scan} (hc : c.state = .ground) (hesc : 27 ∉ p) : c.run p = (c, []) := by
  induction p with
  | nil => rfl
  | cons b p ih =>
    obtain ⟨hb, hp⟩ := ne_and_not_mem_of_not_mem_cons hesc
    have hstep : c.byte b = (c, none) := by
      unfold byte
      rw [hc]
      dsimp only
      rw [if_neg hb.symm]
    simp only [run, hstep, ih hp, Option.toList_none, nil_append]

/-- So does output that the scan takes for the rest of a sequence and for text. -/
theorem run_text_state (hesc : 27 ∉ p) : (ground.run p).1.state = .ground := by
  rw [run_text rfl hesc]
  rfl

/-- A `CSI` is left with a final byte, or when it becomes too long. -/
theorem run_csi_iff {acc : GoString} (hacc : acc.length ≤ maxPartial) (hesc : 27 ∉ p) :
    ((⟨.csi, acc⟩ : Scan).run p).1.state = .ground ↔
      (∃ b ∈ p, isFinal b = true) ∨ maxPartial < acc.length + p.length := by
  induction p generalizing acc with
  | nil =>
    refine iff_of_false nofun ?_
    rintro (⟨b, hb, -⟩ | hlong)
    · cases hb
    · exact absurd hlong (Nat.not_lt.mpr hacc)
  | cons b p ih =>
    obtain ⟨-, hp⟩ := ne_and_not_mem_of_not_mem_cons hesc
    change ((byte ⟨.csi, acc⟩ b).1.run p).1.state = .ground ↔ _
    have hlength : (acc ++ [b]).length = acc.length + 1 := length_append
    rw [exists_mem_cons_iff, length_cons]
    unfold byte
    dsimp only
    by_cases hfinal : 64 ≤ b ∧ b ≤ 126
    · rw [if_pos hfinal]
      exact iff_of_true (run_text_state hp) (.inl (.inl (decide_eq_true hfinal)))
    · have hnot : ¬isFinal b = true := fun h => hfinal (of_decide_eq_true h)
      rw [if_neg hfinal, or_iff_right hnot]
      by_cases hlong : maxPartial < (acc ++ [b]).length
      · rw [if_pos hlong]
        exact iff_of_true (run_text_state hp) (.inr (by omega))
      · rw [if_neg hlong, ih (Nat.not_lt.mp hlong) hp, hlength]
        refine or_congr_right ?_
        omega

end Text

end Scan

namespace ModeTracker

/-- The tracker `m` is at a boundary once an `ESC` and `v` have followed, though `v` does not
complete the sequence: it takes the sequence for one of two bytes, or for a `CSI` that is too
long; or it takes the `ESC` for the end of a sequence of two bytes or for a part of a `CSI`,
which then ends. -/
def GivesUp (m : ModeTracker) (v : GoString) : Prop :=
  match m.state with
  | .ground => v ≠ [] ∧ (v.head? = some 91 → maxPartial ≤ v.length)
  | .esc => True
  | .csi => (∃ b ∈ v, isFinal b = true) ∨ maxPartial ≤ m.partialSeq.length + v.length

theorem atBoundary_feed (m : ModeTracker) (p : GoString) :
    (m.feed p).atBoundary = true ↔ (m.scan.run p).1.state = .ground := by
  rw [← feed_scan]
  exact decide_eq_true_iff

theorem atBoundary_escape_iff {m : ModeTracker} {v : GoString} (hv : Unfinished v)
    (hesc : 27 ∉ v) :
    (m.feed (27 :: v)).atBoundary = true ↔ m.GivesUp v := by
  obtain ⟨state, seq, dec, kitty, modOther⟩ := m
  rw [atBoundary_feed]
  change ((byte ⟨state, seq⟩ 27).1.run v).1.state = .ground ↔ _
  unfold GivesUp
  cases state with
  | ground =>
    change ((⟨.esc, [27]⟩ : Scan).run v).1.state = .ground ↔ _
    cases v with
    | nil => exact iff_of_false nofun fun h => h.1 rfl
    | cons c w =>
      obtain ⟨-, hw⟩ := ne_and_not_mem_of_not_mem_cons hesc
      change ((byte ⟨.esc, [27]⟩ c).1.run w).1.state = .ground ↔ _
      by_cases hc : c = 91
      · subst hc
        have hopen : ¬∃ b ∈ w, isFinal b = true := by
          rintro ⟨b, hb, hfinal⟩
          have hends : isFinal b = false := hv.2 b hb
          cases hfinal.symm.trans hends
        change ((⟨.csi, [27, 91]⟩ : Scan).run w).1.state = .ground ↔ _
        rw [run_csi_iff (by decide) hw, or_iff_right hopen]
        constructor
        · intro hlong
          refine ⟨cons_ne_nil _ _, fun _ => ?_⟩
          rw [length_cons]
          have hlong : maxPartial < 2 + w.length := hlong
          omega
        · rintro ⟨-, hlong⟩
          have hlong : maxPartial ≤ w.length + 1 := hlong rfl
          change maxPartial < 2 + w.length
          omega
      · have hstep : (byte ⟨.esc, [27]⟩ c).1 = Scan.ground := by
          unfold byte
          dsimp only
          rw [if_neg hc]
        rw [hstep]
        refine iff_of_true (run_text_state hw) ⟨cons_ne_nil _ _, fun hhead => ?_⟩
        exact absurd (Option.some.inj hhead) hc
  | esc => exact iff_of_true (run_text_state hesc) trivial
  | csi =>
    have hfinal : ¬((64 : UInt8) ≤ 27 ∧ (27 : UInt8) ≤ 126) := by decide
    have hlength : (seq ++ [27]).length = seq.length + 1 := length_append
    unfold byte
    dsimp only
    rw [if_neg hfinal]
    by_cases hlong : maxPartial < (seq ++ [27]).length
    · rw [if_pos hlong]
      exact iff_of_true (run_text_state hesc) (.inr (by omega))
    · rw [if_neg hlong, run_csi_iff (Nat.not_lt.mp hlong) hesc, hlength]
      refine or_congr_right ?_
      omega

/-- Whatever a fresh tracker was fed: that it is at a boundary means that a terminal is too,
exactly if it does not give up on the last sequence before that is complete. -/
theorem boundary_sound_iff (p : GoString) :
    ((new.feed p).atBoundary = true → Ecma48.run .ground p = .ground) ↔
      ∀ u v, p = u ++ 27 :: v → 27 ∉ v → Unfinished v → ¬(new.feed u).GivesUp v := by
  constructor
  · rintro hsound u v rfl hesc hv hgives
    have hat := (atBoundary_escape_iff hv hesc).mpr hgives
    rw [← feed_append] at hat
    exact (run_escape_iff u hesc).mp (hsound hat) hv
  · intro hfollows hat
    by_cases hp : 27 ∈ p
    · obtain ⟨u, v, rfl, hesc⟩ := exists_last_mem hp
      refine (run_escape_iff u hesc).mpr fun hv => hfollows u v rfl hesc hv ?_
      rw [feed_append] at hat
      exact (atBoundary_escape_iff hv hesc).mp hat
    · exact run_ground hp

/-- Before the last byte of `ESC ( B`, which chooses a character set; inside the title of a
window; after an `ESC` that is followed by another. -/
theorem boundary_inside_sequence :
    (new.feed "\x1b(").atBoundary = true ∧
      Ecma48.run .ground "\x1b(" = .intermediate ∧
    (new.feed "\x1b]0;title").atBoundary = true ∧
      Ecma48.run .ground "\x1b]0;title" = .osc ∧
    (new.feed "\x1b\x1b").atBoundary = true ∧
      Ecma48.run .ground "\x1b\x1b" = .escape := by decide

end ModeTracker

end Lemul.PtySession
