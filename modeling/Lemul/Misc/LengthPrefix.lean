import Lemul.Misc.GoString

/-!
# Big-endian numbers and length-prefixed fields

`bigEndian w n` is `n` in `w` bytes, most significant first, as
`binary.BigEndian.PutUint32` and `PutUint64` write it. `lengthPrefixed w` puts in
front of every field its length in `w` bytes; as long as the lengths fit, the
concatenation determines the list of fields.
-/

namespace Lemul

open List

/-- The low `8 * w` bits of `n`, most significant byte first. -/
def bigEndian : Nat → Nat → GoString
  | 0, _ => []
  | w + 1, n => bigEndian w (n / 256) ++ [UInt8.ofNat (n % 256)]

/-- The number a big-endian byte string denotes. -/
def ofBigEndian (s : GoString) : Nat := s.foldl (fun acc b => acc * 256 + b.toNat) 0

@[simp] theorem length_bigEndian (w n : Nat) : (bigEndian w n).length = w := by
  induction w generalizing n with
  | zero => rfl
  | succ w ih => simp [bigEndian, ih]

/-- Reading a number back loses exactly what did not fit. -/
theorem ofBigEndian_bigEndian (w n : Nat) : ofBigEndian (bigEndian w n) = n % 256 ^ w := by
  induction w generalizing n with
  | zero => simp [bigEndian, ofBigEndian, Nat.mod_one]
  | succ w ih =>
    have hbyte : (UInt8.ofNat (n % 256)).toNat = n % 256 := by
      rw [UInt8.toNat_ofNat']
      omega
    have hread : ofBigEndian (bigEndian (w + 1) n) =
        ofBigEndian (bigEndian w (n / 256)) * 256 + n % 256 := by
      simp [bigEndian, ofBigEndian, foldl_append, hbyte]
    rw [hread, ih, Nat.pow_succ, Nat.mul_comm (256 ^ w) 256, Nat.mod_mul]
    omega

/-- Writing a number back gives the bytes it was read from. -/
theorem bigEndian_ofBigEndian (s : GoString) : bigEndian s.length (ofBigEndian s) = s := by
  induction s using reverseRecOn with
  | nil => rfl
  | append_singleton s b ih =>
    have hread : ofBigEndian (s ++ [b]) = ofBigEndian s * 256 + b.toNat := by
      simp [ofBigEndian, foldl_append]
    have hbyte : b.toNat < 256 := b.toNat_lt
    have hhigh : (ofBigEndian s * 256 + b.toNat) / 256 = ofBigEndian s := by omega
    have hlow : (ofBigEndian s * 256 + b.toNat) % 256 = b.toNat := by omega
    rw [length_append, length_singleton, hread, bigEndian, hhigh, hlow, ih,
      UInt8.ofNat_toNat]

theorem bigEndian_injOn {w m n : Nat} (hm : m < 256 ^ w) (hn : n < 256 ^ w)
    (h : bigEndian w m = bigEndian w n) : m = n := by
  have hval := congrArg ofBigEndian h
  rwa [ofBigEndian_bigEndian, ofBigEndian_bigEndian, Nat.mod_eq_of_lt hm,
    Nat.mod_eq_of_lt hn] at hval

/-- What stands before and after the first occurrence of a separator is determined. -/
theorem append_separator_inj {α : Type} {c : α} {a b x y : List α} (ha : c ∉ a) (hb : c ∉ b)
    (h : a ++ c :: x = b ++ c :: y) : a = b ∧ x = y := by
  induction a generalizing b with
  | nil =>
    cases b with
    | nil => exact ⟨rfl, (cons.inj h).2⟩
    | cons v b => exact absurd (mem_cons.mpr (.inl (cons.inj h).1)) hb
  | cons u a ih =>
    cases b with
    | nil => exact absurd (mem_cons.mpr (.inl (cons.inj h).1.symm)) ha
    | cons v b =>
      obtain ⟨huv, hrest⟩ := cons.inj h
      obtain ⟨hab, hxy⟩ := ih (fun hm => ha (mem_cons_of_mem _ hm))
        (fun hm => hb (mem_cons_of_mem _ hm)) hrest
      exact ⟨by rw [huv, hab], hxy⟩

/-- Every field behind its length in `w` bytes. -/
def lengthPrefixed (w : Nat) : List GoString → GoString
  | [] => []
  | f :: fs => bigEndian w f.length ++ (f ++ lengthPrefixed w fs)

/-- A list of fields is determined by its length-prefixed concatenation. -/
theorem lengthPrefixed_injOn {w : Nat} (hw : 0 < w) {fs gs : List GoString}
    (hfs : ∀ f ∈ fs, f.length < 256 ^ w) (hgs : ∀ g ∈ gs, g.length < 256 ^ w)
    (h : lengthPrefixed w fs = lengthPrefixed w gs) : fs = gs := by
  induction fs generalizing gs with
  | nil =>
    cases gs with
    | nil => rfl
    | cons g gs =>
      have hlen := congrArg length h
      simp only [lengthPrefixed, length_nil, length_append, length_bigEndian] at hlen
      omega
  | cons f fs ih =>
    cases gs with
    | nil =>
      have hlen := congrArg length h
      simp only [lengthPrefixed, length_nil, length_append, length_bigEndian] at hlen
      omega
    | cons g gs =>
      obtain ⟨hlength, hrest⟩ := append_inj h (by simp)
      have hlen : f.length = g.length :=
        bigEndian_injOn (hfs f mem_cons_self) (hgs g mem_cons_self) hlength
      obtain ⟨hfg, htail⟩ := append_inj hrest hlen
      have hfields := ih (fun x hx => hfs x (mem_cons_of_mem _ hx))
        (fun x hx => hgs x (mem_cons_of_mem _ hx)) htail
      rw [hfg, hfields]

end Lemul
