import Lemul.Misc.GoString

/-!
# Unpadded URL-safe base64

`base64Encode` and `base64Decode` follow `base64.RawURLEncoding`: three bytes are
four letters of `A-Z a-z 0-9 - _`, a last group of one or two bytes is two or three
letters, and there is no padding. Decoding skips line breaks, ignores the unused
bits of a short last group and fails on any other letter.
-/

namespace Lemul

open List

/-- The letter of a six-bit value. -/
def sextetLetter (v : Nat) : UInt8 :=
  if v < 26 then UInt8.ofNat (v + 65)
  else if v < 52 then UInt8.ofNat (v + 71)
  else if v < 62 then UInt8.ofNat (v - 4)
  else if v = 62 then 45 else 95

/-- The six-bit value of a letter of the alphabet. -/
def letterSextet (b : UInt8) : Option Nat :=
  if 65 ≤ b.toNat ∧ b.toNat ≤ 90 then some (b.toNat - 65)
  else if 97 ≤ b.toNat ∧ b.toNat ≤ 122 then some (b.toNat - 71)
  else if 48 ≤ b.toNat ∧ b.toNat ≤ 57 then some (b.toNat + 4)
  else if b = 45 then some 62
  else if b = 95 then some 63 else none

/-- Bytes regrouped six bits at a time. -/
def toSextets : GoString → List Nat
  | a :: b :: c :: rest =>
      a.toNat / 4 :: (a.toNat % 4 * 16 + b.toNat / 16) :: (b.toNat % 16 * 4 + c.toNat / 64) ::
        c.toNat % 64 :: toSextets rest
  | [a, b] => [a.toNat / 4, a.toNat % 4 * 16 + b.toNat / 16, b.toNat % 16 * 4]
  | [a] => [a.toNat / 4, a.toNat % 4 * 16]
  | [] => []

/-- Six-bit values regrouped into bytes; one value alone is no byte. -/
def ofSextets : List Nat → Option GoString
  | p :: q :: r :: s :: rest =>
      (ofSextets rest).map fun tail =>
        UInt8.ofNat (p * 4 + q / 16) :: UInt8.ofNat (q % 16 * 16 + r / 4) ::
          UInt8.ofNat (r % 4 * 64 + s) :: tail
  | [p, q, r] => some [UInt8.ofNat (p * 4 + q / 16), UInt8.ofNat (q % 16 * 16 + r / 4)]
  | [p, q] => some [UInt8.ofNat (p * 4 + q / 16)]
  | [_] => none
  | [] => some []

/-- `base64.RawURLEncoding.EncodeToString`. -/
def base64Encode (s : GoString) : GoString := (toSextets s).map sextetLetter

/-- `base64.RawURLEncoding.DecodeString`. -/
def base64Decode (s : GoString) : Option GoString :=
  ((s.filter (fun b => b != 10 && b != 13)).mapM letterSextet).bind ofSextets

theorem toSextets_lt (s : GoString) : ∀ v ∈ toSextets s, v < 64 := by
  fun_induction toSextets s with
  | case1 a b c rest ih =>
    have ha := a.toNat_lt
    have hb := b.toNat_lt
    have hc := c.toNat_lt
    intro v hv
    simp only [mem_cons] at hv
    rcases hv with rfl | rfl | rfl | rfl | hv
    · omega
    · omega
    · omega
    · omega
    · exact ih v hv
  | case2 a b =>
    have ha := a.toNat_lt
    have hb := b.toNat_lt
    intro v hv
    simp only [mem_cons, not_mem_nil, or_false] at hv
    omega
  | case3 a =>
    have ha := a.toNat_lt
    intro v hv
    simp only [mem_cons, not_mem_nil, or_false] at hv
    omega
  | case4 => simp

theorem byte_eq {n : Nat} {b : UInt8} (h : n = b.toNat) : UInt8.ofNat n = b := by
  rw [h, UInt8.ofNat_toNat]

theorem ofSextets_toSextets (s : GoString) : ofSextets (toSextets s) = some s := by
  fun_induction toSextets s with
  | case1 a b c rest ih =>
    have ha := a.toNat_lt
    have hb := b.toNat_lt
    have hc := c.toNat_lt
    simp only [ofSextets, ih, Option.map_some]
    rw [byte_eq (b := a) (by omega), byte_eq (b := b) (by omega), byte_eq (b := c) (by omega)]
  | case2 a b =>
    have ha := a.toNat_lt
    have hb := b.toNat_lt
    simp only [ofSextets]
    rw [byte_eq (b := a) (by omega), byte_eq (b := b) (by omega)]
  | case3 a =>
    have ha := a.toNat_lt
    simp only [ofSextets]
    rw [byte_eq (b := a) (by omega)]
  | case4 => rfl

theorem letterSextet_sextetLetter {v : Nat} (h : v < 64) :
    letterSextet (sextetLetter v) = some v := by
  have hall : ∀ v < 64, letterSextet (sextetLetter v) = some v := by decide
  exact hall v h

/-- No letter of the alphabet is a line break or a full stop. -/
theorem sextetLetter_ne {v : Nat} (h : v < 64) :
    sextetLetter v ≠ 10 ∧ sextetLetter v ≠ 13 ∧ sextetLetter v ≠ 46 := by
  have hall : ∀ v < 64,
      sextetLetter v ≠ 10 ∧ sextetLetter v ≠ 13 ∧ sextetLetter v ≠ 46 := by decide
  exact hall v h

theorem mapM_letterSextet {l : List Nat} (h : ∀ v ∈ l, v < 64) :
    (l.map sextetLetter).mapM letterSextet = some l := by
  induction l with
  | nil => rfl
  | cons v l ih =>
    have hl := ih (fun x hx => h x (mem_cons_of_mem _ hx))
    simp [letterSextet_sextetLetter (h v mem_cons_self), hl]

/-- Decoding an encoded string gives the string back. -/
theorem base64Decode_base64Encode (s : GoString) : base64Decode (base64Encode s) = some s := by
  have hlt := toSextets_lt s
  have hfilter : (base64Encode s).filter (fun b => b != 10 && b != 13) = base64Encode s := by
    rw [filter_eq_self]
    intro b hb
    obtain ⟨v, hv, rfl⟩ := mem_map.mp hb
    obtain ⟨h10, h13, -⟩ := sextetLetter_ne (hlt v hv)
    simp [h10, h13]
  rw [base64Decode, hfilter, base64Encode, mapM_letterSextet hlt, Option.bind_some,
    ofSextets_toSextets]

theorem base64Encode_injective : Function.Injective base64Encode := by
  intro s t h
  have hs := base64Decode_base64Encode s
  rw [h, base64Decode_base64Encode] at hs
  exact (Option.some.inj hs).symm

/-- A full stop never occurs in an encoded string. -/
theorem dot_notMem_base64Encode (s : GoString) : (46 : UInt8) ∉ base64Encode s := by
  intro hmem
  obtain ⟨v, hv, hletter⟩ := mem_map.mp hmem
  exact (sextetLetter_ne (toSextets_lt s v hv)).2.2 hletter

end Lemul
