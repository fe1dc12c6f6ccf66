import Lemul.Misc.Decimal

/-!
# Text fields

A field written as its length in decimal, a colon, and its bytes. `readFields n` reads
at most `n` of them back and fails on anything that is not a whole number of fields.
Signed numbers and `strings.Cut`, which both the reader and its callers need, come first.
-/

namespace Lemul

open List Option

/-- `strings.Cut` at a one-byte separator: what stands before and after its first
occurrence. -/
def cut (sep : UInt8) : GoString → Option (GoString × GoString)
  | [] => none
  | b :: rest =>
      if b = sep then some ([], rest) else (cut sep rest).map (fun x => (b :: x.1, x.2))

theorem cut_append {sep : UInt8} {a b : GoString} (h : sep ∉ a) :
    cut sep (a ++ sep :: b) = some (a, b) := by
  induction a with
  | nil => simp [cut]
  | cons x a ih =>
    obtain ⟨hx, ha⟩ := ne_and_not_mem_of_not_mem_cons h
    simp only [cons_append, cut, if_neg (Ne.symm hx), ih ha, map_some]

theorem cut_eq_none {sep : UInt8} {s : GoString} (h : sep ∉ s) : cut sep s = none := by
  induction s with
  | nil => rfl
  | cons x s ih =>
    obtain ⟨hx, hs⟩ := ne_and_not_mem_of_not_mem_cons h
    simp only [cut, if_neg (Ne.symm hx), ih hs, map_none]

theorem eq_of_cut {c : UInt8} {s x y : GoString} (h : cut c s = some (x, y)) : s = x ++ c :: y := by
  induction s generalizing x with
  | nil => cases h
  | cons b s ih =>
    simp only [cut] at h
    split at h
    · rename_i hb
      cases h
      rw [hb]
      rfl
    · obtain ⟨⟨x', y'⟩, hrest, heq⟩ := map_eq_some_iff.mp h
      cases heq
      rw [ih hrest]
      rfl

/-- `strconv.FormatInt` in base ten. -/
def formatInt (n : Int) : GoString :=
  if n < 0 then 45 :: decimal n.natAbs else decimal n.natAbs

/-- The first byte of a numeral is a digit, so no sign is read off it. -/
theorem head_decimal {n : Nat} {b : UInt8} {rest : GoString} (h : decimal n = b :: rest) :
    b ≠ 45 ∧ b ≠ 43 := by
  have hall := all_isDigit_decimal n
  rw [h, all_cons, Bool.and_eq_true] at hall
  have hdigit := hall.1
  constructor
  · rintro rfl
    exact absurd hdigit (by decide)
  · rintro rfl
    exact absurd hdigit (by decide)

theorem atoi_decimal {n : Nat} (h : n < 2 ^ 63) : atoi (decimal n) = some (n : Int) := by
  have hparse := parseDecimal_decimal n
  cases hd : decimal n with
  | nil => exact absurd hd (decimal_ne_nil n)
  | cons b rest =>
    obtain ⟨hminus, hplus⟩ := head_decimal hd
    rw [hd] at hparse
    simp only [atoi, if_neg hminus, if_neg hplus, hparse, bind_some, if_pos h]

/-- Reading a signed numeral back gives the number it was written for. -/
theorem atoi_formatInt {n : Int} (hlow : -2 ^ 63 ≤ n) (hhigh : n < 2 ^ 63) :
    atoi (formatInt n) = some n := by
  unfold formatInt
  split
  · have habs : n.natAbs ≤ 2 ^ 63 := by omega
    simp only [atoi, if_pos, parseDecimal_decimal, bind_some, if_pos habs]
    congr 1
    omega
  · rw [atoi_decimal (by omega)]
    congr 1
    omega

/-- One field: its length in decimal, a colon, its bytes. -/
def textField (f : GoString) : GoString := decimal f.length ++ 58 :: f

/-- Several fields, one after the other. -/
def textFields (fs : List GoString) : GoString := fs.flatMap textField

/-- The first field of `s`, and what follows it. -/
def readField (s : GoString) : Option (GoString × GoString) :=
  (cut 58 s).bind fun x =>
    (atoi x.1).bind fun n =>
      if n < 0 ∨ (x.2.length : Int) < n then none
      else some (x.2.take n.toNat, x.2.drop n.toNat)

/-- All the fields of `s`, if they are at most the given number. -/
def readFields : Nat → GoString → Option (List GoString)
  | _, [] => some []
  | 0, _ :: _ => none
  | n + 1, b :: s =>
      (readField (b :: s)).bind fun x => (readFields n x.2).map (fun fs => x.1 :: fs)

theorem colon_notMem_decimal (n : Nat) : (58 : UInt8) ∉ decimal n := by
  intro hmem
  have hdigit := all_eq_true.mp (all_isDigit_decimal n) 58 hmem
  exact absurd hdigit (by decide)

theorem readField_textField {f rest : GoString} (h : FitsInt f) :
    readField (textField f ++ rest) = some (f, rest) := by
  have hcut : cut 58 (textField f ++ rest) = some (decimal f.length, f ++ rest) := by
    rw [textField, append_assoc, cons_append]
    exact cut_append (colon_notMem_decimal _)
  have hfits : ¬((f.length : Int) < 0 ∨ ((f ++ rest).length : Int) < f.length) := by
    rw [length_append]
    omega
  simp only [readField, hcut, bind_some, atoi_decimal h, if_neg hfits, Int.toNat_natCast,
    take_left', drop_left']

/-- A field is no longer than all of them together. -/
theorem length_le_textFields {f : GoString} {fs : List GoString} (hf : f ∈ fs) :
    f.length ≤ (textFields fs).length := by
  induction fs with
  | nil => cases hf
  | cons g fs ih =>
    have hall : (textFields (g :: fs)).length = (textField g).length + (textFields fs).length :=
      length_append
    have hg : (textField g).length = (decimal g.length).length + (g.length + 1) :=
      length_append
    rcases mem_cons.mp hf with rfl | hrest
    · omega
    · have := ih hrest
      omega

theorem textField_ne_nil (f : GoString) : textField f ≠ [] := by
  simp [textField]

/-- Reading a list of fields back gives the list. -/
theorem readFields_textFields {n : Nat} {fs : List GoString} (hfs : ∀ f ∈ fs, FitsInt f)
    (hn : fs.length ≤ n) : readFields n (textFields fs) = some fs := by
  induction fs generalizing n with
  | nil => cases n <;> rfl
  | cons f fs ih =>
    obtain ⟨m, rfl⟩ : ∃ m, n = m + 1 := ⟨n - 1, by rw [length_cons] at hn; omega⟩
    have hrest := ih (fun x hx => hfs x (mem_cons_of_mem _ hx)) (Nat.le_of_succ_le_succ hn)
    have hread : readField (textField f ++ textFields fs) = some (f, textFields fs) :=
      readField_textField (hfs f mem_cons_self)
    cases hs : textField f ++ textFields fs with
    | nil => exact absurd (append_eq_nil_iff.mp hs).1 (textField_ne_nil f)
    | cons b s =>
      rw [hs] at hread
      have hfields : textFields (f :: fs) = b :: s := by rw [← hs]; rfl
      rw [hfields, readFields, hread, bind_some, hrest, map_some]

end Lemul
