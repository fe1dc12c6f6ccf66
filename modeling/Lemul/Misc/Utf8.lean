import Lemul.Misc.JsonText

/-!
# Valid UTF-8

`utf8.ValidString`. A character that is encoded in one byte ends and begins an encoding, so a
string can be judged piece by piece around it.
-/

namespace Lemul

open List JsonText

/-- A string is valid from a byte on of which the first `n` bytes belong to a character that has
been begun. -/
def validFrom : Nat → GoString → Bool
  | n, [] => n = 0
  | n + 1, _ :: rest => validFrom n rest
  | 0, b :: rest =>
      if b < 128 then validFrom 0 rest
      else
        match decodeRune b rest with
        | none => false
        | some n => validFrom n rest

/-- `utf8.ValidString`. -/
def validUTF8 (s : GoString) : Bool := validFrom 0 s

/-- The string is empty or begins with a character of one byte. -/
def StartsPlain (s : GoString) : Prop := ∀ c ∈ s.head?, c < 128

theorem startsPlain_append {x y : GoString} (hx : StartsPlain x) (hy : StartsPlain y) :
    StartsPlain (x ++ y) := by
  cases x with
  | nil => exact hy
  | cons c x => exact hx

/-- The bytes that follow the first one of a character do not run over into `y`. -/
theorem runeTail_append {lo hi : UInt8} {n : Nat} (hlo : 128 ≤ lo.toNat) (hn : 0 < n)
    (x : GoString) {y : GoString} (hy : StartsPlain y) :
    runeTail lo hi n (x ++ y) = runeTail lo hi n x := by
  by_cases hfits : n ≤ x.length
  · have hfirst : 1 ≤ x.length := Nat.le_trans hn hfits
    have hfits' : n ≤ (x ++ y).length := by
      rw [length_append]
      omega
    simp only [runeTail, take_append_of_le_length hfits, take_append_of_le_length hfirst, hfits,
      hfits', true_and]
  · have hshort : runeTail lo hi n x = none := if_neg (fun h => hfits h.1)
    rw [hshort]
    refine if_neg ?_
    rintro ⟨hlen, hhead, htail⟩
    cases y with
    | nil => exact hfits (by simpa using hlen)
    | cons c y =>
      have hc : c.toNat < 128 := UInt8.lt_iff_toNat_lt.mp (hy c rfl)
      cases x with
      | nil =>
        simp only [nil_append, take_succ_cons, take_zero, all_cons, all_nil, Bool.and_true,
          Bool.and_eq_true, decide_eq_true_eq, UInt8.le_iff_toNat_le] at hhead
        omega
      | cons d x =>
        have hmem : c ∈ ((d :: x ++ c :: y).take n).drop 1 := by
          obtain ⟨m, rfl⟩ := Nat.exists_eq_add_of_lt (Nat.not_le.mp hfits)
          rw [take_append, take_of_length_le (by simp only [length_cons]; omega), cons_append,
            drop_succ_cons, drop_zero, mem_append]
          right
          rw [show (d :: x).length + m + 1 - (d :: x).length = m + 1 by omega, take_succ_cons]
          exact mem_cons_self
        have hcont := all_eq_true.mp htail c hmem
        simp only [Bool.and_eq_true, decide_eq_true_eq, UInt8.le_iff_toNat_le] at hcont
        exact absurd hcont.1 (by simpa using hc)

theorem decodeRune_append (b : UInt8) (x : GoString) {y : GoString} (hy : StartsPlain y) :
    decodeRune b (x ++ y) = decodeRune b x := by
  simp only [decodeRune]
  rw [runeTail_append (by decide) (by decide) x hy, runeTail_append (by decide) (by decide) x hy,
    runeTail_append (by decide) (by decide) x hy, runeTail_append (by decide) (by decide) x hy,
    runeTail_append (by decide) (by decide) x hy, runeTail_append (by decide) (by decide) x hy,
    runeTail_append (by decide) (by decide) x hy]

theorem runeTail_eq_some {lo hi : UInt8} {n m : Nat} {rest : GoString}
    (h : runeTail lo hi n rest = some m) :
    n = m ∧ n ≤ rest.length ∧ (rest.take 1).all (fun c => lo ≤ c && c ≤ hi) = true := by
  unfold runeTail at h
  split at h
  · rename_i hok
    exact ⟨Option.some.inj h, hok.1, hok.2.1⟩
  · cases h

/-- A character of more than one byte: the next byte is not the first one of a character. -/
theorem decodeRune_eq_some {b : UInt8} {rest : GoString} {n : Nat}
    (h : decodeRune b rest = some n) :
    n ≤ rest.length ∧ ∃ c rest', rest = c :: rest' ∧ 128 ≤ c.toNat ∧ c.toNat ≤ 191 := by
  have hcase : ∀ {lo hi : UInt8} {m : Nat}, runeTail lo hi m rest = some n → 0 < m →
      128 ≤ lo.toNat → hi.toNat ≤ 191 →
      n ≤ rest.length ∧ ∃ c rest', rest = c :: rest' ∧ 128 ≤ c.toNat ∧ c.toNat ≤ 191 := by
    intro lo hi m hm hpos hlo hhi
    obtain ⟨rfl, hlen, hall⟩ := runeTail_eq_some hm
    refine ⟨hlen, ?_⟩
    cases rest with
    | nil => exact absurd hlen (Nat.not_le.mpr hpos)
    | cons c rest' =>
      simp only [take_succ_cons, take_zero, all_cons, all_nil, Bool.and_true, Bool.and_eq_true,
        decide_eq_true_eq, UInt8.le_iff_toNat_le] at hall
      exact ⟨c, rest', rfl, by omega, by omega⟩
  unfold decodeRune at h
  split_ifs at h <;> exact hcase h (by decide) (by decide) (by decide)

theorem validFrom_append {n : Nat} {x : GoString} (hn : n ≤ x.length) {y : GoString}
    (hy : StartsPlain y) : validFrom n (x ++ y) = (validFrom n x && validFrom 0 y) := by
  induction x generalizing n with
  | nil =>
    obtain rfl : n = 0 := Nat.le_zero.mp hn
    rfl
  | cons b x ih =>
    cases n with
    | succ n => exact ih (Nat.le_of_succ_le_succ hn)
    | zero =>
      simp only [cons_append, validFrom, decodeRune_append b x hy]
      split
      · exact ih (Nat.zero_le _)
      · cases hrune : decodeRune b x with
        | none => rfl
        | some m => exact ih (decodeRune_eq_some hrune).1

theorem validUTF8_append (x : GoString) {y : GoString} (hy : StartsPlain y) :
    validUTF8 (x ++ y) = (validUTF8 x && validUTF8 y) :=
  validFrom_append (Nat.zero_le _) hy

theorem validUTF8_cons_plain {b : UInt8} (hb : b < 128) (s : GoString) :
    validUTF8 (b :: s) = validUTF8 s := by
  simp only [validUTF8, validFrom, if_pos hb]

/-- No character begins with a byte that continues one. -/
theorem validUTF8_cons_continuation {c : UInt8} (hlow : 128 ≤ c.toNat) (hhigh : c.toNat ≤ 191)
    (s : GoString) : validUTF8 (c :: s) = false := by
  have hplain : ¬ c < 128 := by
    rw [UInt8.lt_iff_toNat_lt]
    exact Nat.not_lt.mpr hlow
  have hrune : decodeRune c s = none := by
    have hle : ∀ d : UInt8, 191 < d.toNat → ¬ d ≤ c := by
      intro d hd h
      have := UInt8.le_iff_toNat_le.mp h
      omega
    have hne : ∀ d : UInt8, 191 < d.toNat → c ≠ d := by
      rintro d hd rfl
      omega
    simp only [decodeRune, hle 0xc2 (by decide), hle 0xe1 (by decide), hle 0xf1 (by decide),
      hne 0xe0 (by decide), hne 0xed (by decide), hne 0xf0 (by decide), hne 0xf4 (by decide),
      false_and, if_false]
  simp only [validUTF8, validFrom, if_neg hplain, hrune]

/-- U+FFFD is a character of three bytes. -/
theorem validUTF8_replacement (s : GoString) :
    validUTF8 (0xef :: 0xbf :: 0xbd :: s) = validUTF8 s := by
  simp [validUTF8, validFrom, decodeRune, runeTail]

/-- A string of characters of one byte is valid. -/
theorem validUTF8_plain {s : GoString} (h : ∀ b ∈ s, b < 128) (t : GoString) :
    validUTF8 (s ++ t) = validUTF8 t := by
  induction s with
  | nil => rfl
  | cons b s ih =>
    obtain ⟨hb, hs⟩ := forall_mem_cons.mp h
    rw [cons_append, validUTF8_cons_plain hb, ih hs]

end Lemul
