import Lemul.Misc.GoString

/-!
# Control sequences of ECMA-48

The states a terminal goes through as it reads seven-bit controls: escape sequences with
intermediate bytes, `CSI` up to its final byte, `OSC` up to `BEL` or `ST`, and the control
strings `DCS`, `SOS`, `PM` and `APC` up to `ST`. An `ESC` begins a new sequence wherever it
comes. So `ST`, which is `ESC \`, needs no states of its own: its `ESC` leaves the string.
-/

namespace Lemul.Ecma48

open List

inductive State where
  | ground
  | escape
  | intermediate
  | csi
  | osc
  /-- A control string that only `ST` ends. -/
  | string
  deriving DecidableEq, Repr

/-- The final bytes of a `CSI`. -/
def isFinal (b : UInt8) : Bool := 64 ≤ b ∧ b ≤ 126

def isIntermediate (b : UInt8) : Bool := 32 ≤ b ∧ b ≤ 47

/-- The second bytes of `DCS`, `SOS`, `PM` and `APC`. -/
def opensString (b : UInt8) : Bool := b = 80 ∨ b = 88 ∨ b = 94 ∨ b = 95

/-- The state after the byte that follows an `ESC`. -/
def afterEscape (b : UInt8) : State :=
  if b = 91 then .csi
  else if b = 93 then .osc
  else if opensString b then .string
  else if isIntermediate b then .intermediate
  else .ground

/-- The byte ends the sequence that the terminal is in. -/
def ends : State → UInt8 → Bool
  | .csi, b => isFinal b
  | .osc, b => b = 7
  | .intermediate, b => !isIntermediate b
  | _, _ => false

def step (q : State) (b : UInt8) : State :=
  if b = 27 then .escape
  else if q = .escape then afterEscape b
  else if ends q b then .ground
  else q

/-- The state a terminal is in after it has read `p`. -/
def run (q : State) (p : GoString) : State := p.foldl step q

theorem run_append (q : State) (p r : GoString) : run q (p ++ r) = run (run q p) r :=
  foldl_append

/-- What follows an `ESC` does not complete the sequence. -/
def Unfinished : GoString → Prop
  | [] => True
  | c :: w => afterEscape c ≠ .ground ∧ ∀ b ∈ w, ends (afterEscape c) b = false

theorem afterEscape_ne_escape (b : UInt8) : afterEscape b ≠ .escape := by
  unfold afterEscape
  repeat' split
  all_goals exact State.noConfusion

section Run

variable {q : State} {p : GoString}

theorem step_eq {b : UInt8} (hq : q ≠ .escape) (hb : 27 ≠ b) :
    step q b = if ends q b = true then .ground else q := by
  rw [step, if_neg hb.symm, if_neg hq]

theorem run_ground (hesc : 27 ∉ p) : run .ground p = .ground := by
  induction p with
  | nil => rfl
  | cons b p ih =>
    obtain ⟨hb, hp⟩ := ne_and_not_mem_of_not_mem_cons hesc
    change run (step .ground b) p = .ground
    rw [step_eq State.noConfusion hb]
    exact ih hp

/-- A sequence lasts until a byte ends it. -/
theorem run_eq_ground_iff (hq : q ≠ .escape) (hesc : 27 ∉ p) :
    run q p = .ground ↔ q = .ground ∨ ∃ b ∈ p, ends q b = true := by
  induction p with
  | nil =>
    constructor
    · exact .inl
    · rintro (h | ⟨b, hb, -⟩)
      · exact h
      · cases hb
  | cons b p ih =>
    obtain ⟨hb, hp⟩ := ne_and_not_mem_of_not_mem_cons hesc
    change run (step q b) p = .ground ↔ _
    rw [step_eq hq hb, exists_mem_cons_iff]
    by_cases hends : ends q b = true
    · rw [if_pos hends]
      exact iff_of_true (run_ground hp) (.inr (.inl hends))
    · rw [if_neg hends, or_iff_right hends]
      exact ih hp

/-- A terminal is back in the ground exactly if the last sequence is complete, whatever came
before it. -/
theorem run_escape_iff (u : GoString) (hesc : 27 ∉ p) :
    run q (u ++ 27 :: p) = .ground ↔ ¬Unfinished p := by
  have hlast : run q (u ++ 27 :: p) = run .escape p := by
    rw [run_append]
    rfl
  rw [hlast]
  cases p with
  | nil => exact iff_of_false State.noConfusion fun h => h trivial
  | cons c w =>
    obtain ⟨hc, hw⟩ := ne_and_not_mem_of_not_mem_cons hesc
    have hstep : step .escape c = afterEscape c := by rw [step, if_neg hc.symm, if_pos rfl]
    change run (step .escape c) w = .ground ↔ _
    rw [hstep, run_eq_ground_iff (afterEscape_ne_escape c) hw]
    simp [Unfinished, imp_iff_not_or]

end Run

end Lemul.Ecma48
