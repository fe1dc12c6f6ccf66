import Lemul.Misc.GoString

/-!
# Decimal numerals

`decimal n` is the base-ten numeral of `n` without leading zeros, as
`strconv.FormatUint(n, 10)` and `strconv.Itoa` render a non-negative number;
`parseDecimal` reads a non-empty run of digits back. The two are inverse on
numerals, so the rendering is injective.
-/

namespace Lemul

open List

/-- The byte of a decimal digit. -/
def digitByte (d : Nat) : UInt8 := UInt8.ofNat (48 + d)

/-- `fuel` bounds the number of digits still to be written in front of `acc`. -/
def decimalAux : Nat → Nat → GoString → GoString
  | 0, _, acc => acc
  | fuel + 1, n, acc =>
      if n = 0 then acc else decimalAux fuel (n / 10) (digitByte (n % 10) :: acc)

/-- The decimal numeral of `n`. -/
def decimal (n : Nat) : GoString := if n = 0 then [48] else decimalAux n n []

/-- Whether a byte is one of `0` to `9`. -/
def isDigit (b : UInt8) : Bool := 48 ≤ b.toNat && b.toNat ≤ 57

/-- The number a run of digits denotes, read from the left into `acc`. -/
def digitsValue (acc : Nat) (s : GoString) : Nat :=
  s.foldl (fun acc b => acc * 10 + (b.toNat - 48)) acc

/-- A non-empty run of digits as a number. -/
def parseDecimal (s : GoString) : Option Nat :=
  if s ≠ [] && s.all isDigit then some (digitsValue 0 s) else none

/-- `strconv.Atoi`, which is `strconv.ParseInt` with base ten and 64 bits: an optional
sign and digits, within the range of an `int64`. -/
def atoi (s : GoString) : Option Int :=
  match s with
  | [] => none
  | b :: rest =>
      if b = 45 then
        (parseDecimal rest).bind (fun n => if n ≤ 2 ^ 63 then some (-(n : Int)) else none)
      else
        (parseDecimal (if b = 43 then rest else s)).bind
          (fun n => if n < 2 ^ 63 then some (n : Int) else none)

theorem digitByte_toNat {d : Nat} (h : d < 10) : (digitByte d).toNat = 48 + d := by
  simp only [digitByte, UInt8.toNat_ofNat']
  omega

theorem isDigit_digitByte {d : Nat} (h : d < 10) : isDigit (digitByte d) = true := by
  simp only [isDigit, digitByte_toNat h, Bool.and_eq_true, decide_eq_true_eq]
  omega

theorem digitsValue_decimalAux (fuel n : Nat) (acc : GoString) (hfuel : n ≤ fuel) :
    digitsValue 0 (decimalAux fuel n acc) = digitsValue n acc := by
  induction fuel generalizing n acc with
  | zero =>
    have hn : n = 0 := by omega
    rw [hn, decimalAux]
  | succ fuel ih =>
    unfold decimalAux
    split
    · rename_i hn
      rw [hn]
    · have hdigit : (digitByte (n % 10)).toNat - 48 = n % 10 := by
        rw [digitByte_toNat (Nat.mod_lt n (by decide)), Nat.add_sub_cancel_left]
      have hn : n / 10 * 10 + n % 10 = n := by omega
      have hstep := ih (n / 10) (digitByte (n % 10) :: acc) (by omega)
      simp only [digitsValue, foldl_cons, hdigit, hn] at hstep
      exact hstep

theorem all_isDigit_decimalAux (fuel n : Nat) (acc : GoString)
    (hacc : acc.all isDigit = true) : (decimalAux fuel n acc).all isDigit = true := by
  induction fuel generalizing n acc with
  | zero => exact hacc
  | succ fuel ih =>
    unfold decimalAux
    split
    · exact hacc
    · apply ih
      simp only [all_cons, isDigit_digitByte (Nat.mod_lt n (by decide)), hacc, Bool.and_self]

theorem decimalAux_ne_nil (fuel n : Nat) (acc : GoString) (hacc : acc ≠ []) :
    decimalAux fuel n acc ≠ [] := by
  induction fuel generalizing n acc with
  | zero => exact hacc
  | succ fuel ih =>
    unfold decimalAux
    split
    · exact hacc
    · exact ih _ _ (by simp)

theorem all_isDigit_decimal (n : Nat) : (decimal n).all isDigit = true := by
  unfold decimal
  split
  · rfl
  · exact all_isDigit_decimalAux n n [] rfl

theorem decimal_ne_nil (n : Nat) : decimal n ≠ [] := by
  unfold decimal
  split
  · simp
  · rename_i hn
    obtain ⟨m, rfl⟩ := Nat.exists_eq_succ_of_ne_zero hn
    unfold decimalAux
    rw [if_neg hn]
    exact decimalAux_ne_nil _ _ _ (by simp)

/-- Reading a numeral back gives the number it was written for. -/
theorem parseDecimal_decimal (n : Nat) : parseDecimal (decimal n) = some n := by
  have hvalue : digitsValue 0 (decimal n) = n := by
    unfold decimal
    split
    · rename_i hn
      rw [hn]
      rfl
    · exact digitsValue_decimalAux n n [] (Nat.le_refl n)
  simp only [parseDecimal, all_isDigit_decimal, ne_eq, decimal_ne_nil, not_false_eq_true,
    decide_true, Bool.and_self, if_true, hvalue]

theorem length_decimalAux_of_lt {fuel n k : Nat} {acc : GoString} (h : n < 10 ^ k) :
    (decimalAux fuel n acc).length ≤ k + acc.length := by
  induction fuel generalizing n k acc with
  | zero => exact Nat.le_add_left _ _
  | succ fuel ih =>
    unfold decimalAux
    split
    · exact Nat.le_add_left _ _
    · rename_i hn
      cases k with
      | zero => omega
      | succ k =>
        have hdiv : n / 10 < 10 ^ k := by
          rw [Nat.pow_succ] at h
          omega
        have hlen : (decimalAux fuel (n / 10) (digitByte (n % 10) :: acc)).length ≤
            k + (digitByte (n % 10) :: acc).length := ih hdiv
        rw [length_cons] at hlen
        omega

/-- A number below a power of ten has no more digits than the exponent says. -/
theorem length_decimal_of_lt {n k : Nat} (h : n < 10 ^ k) (hk : 0 < k) :
    (decimal n).length ≤ k := by
  unfold decimal
  split
  · exact hk
  · exact length_decimalAux_of_lt h

/-- `Atoi` returns what fits into an `int64`. -/
theorem atoi_range {s : GoString} {n : Int} (h : atoi s = some n) : -2 ^ 63 ≤ n ∧ n < 2 ^ 63 := by
  cases s with
  | nil => cases h
  | cons b rest =>
    simp only [atoi] at h
    split at h
    · obtain ⟨m, -, hm⟩ := Option.bind_eq_some_iff.mp h
      split at hm <;> cases hm
      omega
    · obtain ⟨m, -, hm⟩ := Option.bind_eq_some_iff.mp h
      split at hm <;> cases hm
      omega

theorem decimal_injective : Function.Injective decimal := by
  intro m n h
  have hm := parseDecimal_decimal m
  rw [h, parseDecimal_decimal] at hm
  exact (Option.some.inj hm).symm

end Lemul
