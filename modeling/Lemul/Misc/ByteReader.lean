import Lemul.Misc.GoString

/-!
# Readers

An `io.Reader` that hands over a fixed byte string in whatever portions it likes and then fails:
`left` is what it has still to hand over. `io.ReadFull` over such a reader depends on that string
only. `Chunks` is such a string in pieces.
-/

namespace Lemul

open List

inductive ReadError where
  | eof
  | unexpectedEOF
  | other (message : GoString)
  deriving DecidableEq, Repr

/-- A reader with states `σ`. A `Read` into a buffer that is not empty returns at least one byte
or fails, and it fails when nothing is left. -/
structure ByteReader (σ : Type) where
  read : Nat → σ → Except ReadError GoString × σ
  left : σ → GoString
  read_ok : ∀ {n s b s'}, 0 < n → read n s = (.ok b, s') →
    b ≠ [] ∧ b.length ≤ n ∧ left s = b ++ left s'
  read_error : ∀ {n s e s'}, 0 < n → read n s = (.error e, s') → left s = []

namespace ByteReader

variable {σ : Type} (R : ByteReader σ)

/-- The loop of `io.ReadAtLeast`, with `got` in a buffer of `n` bytes. -/
def fill : Nat → Nat → GoString → σ → Except ReadError GoString × σ
  | 0, _, got, s => (.ok got, s)
  | fuel + 1, n, got, s =>
      if n ≤ got.length then (.ok got, s)
      else
        match R.read (n - got.length) s with
        | (.ok b, s') => fill fuel n (got ++ b) s'
        | (.error e, s') =>
            (.error (if e = .eof ∧ got ≠ [] then .unexpectedEOF else e), s')

/-- `io.ReadFull` into a buffer of `n` bytes. Every `Read` of the loop returns at least one. -/
def readFull (n : Nat) (s : σ) : Except ReadError GoString × σ := R.fill n n [] s

variable {R} {s : σ} {n fuel : Nat}

theorem fill_eq (s : σ) (got : GoString) (hfuel : n ≤ got.length + fuel) (hgot : got.length ≤ n) :
    (n ≤ got.length + (R.left s).length ∧
      ∃ s', R.fill fuel n got s = (.ok (got ++ (R.left s).take (n - got.length)), s') ∧
        R.left s' = (R.left s).drop (n - got.length)) ∨
    (got.length + (R.left s).length < n ∧ ∃ e s', R.fill fuel n got s = (.error e, s')) := by
  induction fuel generalizing got s with
  | zero =>
    have hn : n - got.length = 0 := by omega
    refine .inl ⟨by omega, s, ?_, ?_⟩
    · rw [fill, hn, take_zero, append_nil]
    · rw [hn, drop_zero]
  | succ fuel ih =>
    unfold fill
    by_cases hfull : n ≤ got.length
    · have hn : n - got.length = 0 := by omega
      rw [if_pos hfull, hn]
      exact .inl ⟨by omega, s, by rw [take_zero, append_nil], by rw [drop_zero]⟩
    · rw [if_neg hfull]
      cases hread : R.read (n - got.length) s with
      | mk result s' =>
        cases result with
        | error e =>
          have hnone := R.read_error (by omega) hread
          refine .inr ⟨by rw [hnone, length_nil]; omega, _, s', rfl⟩
        | ok b =>
          obtain ⟨hne, hle, hleft⟩ := R.read_ok (by omega) hread
          have hpos := length_pos_iff.mpr hne
          have hlen : (got ++ b).length = got.length + b.length := length_append
          have htake : (R.left s).take (n - got.length) =
              b ++ (R.left s').take (n - (got ++ b).length) := by
            rw [hleft, take_append, take_of_length_le hle, hlen, Nat.sub_sub]
          have hdrop : (R.left s).drop (n - got.length) =
              (R.left s').drop (n - (got ++ b).length) := by
            rw [hleft, drop_append, drop_eq_nil_of_le hle, nil_append, hlen, Nat.sub_sub]
          have hall : (R.left s).length = b.length + (R.left s').length := by
            rw [hleft, length_append]
          rcases ih s' (got ++ b) (by omega) (by omega) with
            ⟨hin, last, hok, hrest⟩ | ⟨hshort, hfail⟩
          · refine .inl ⟨by omega, last, ?_, ?_⟩
            · rw [htake, ← append_assoc]
              exact hok
            · rw [hdrop]
              exact hrest
          · exact .inr ⟨by omega, hfail⟩

theorem readFull_ok (h : n ≤ (R.left s).length) :
    ∃ s', R.readFull n s = (.ok ((R.left s).take n), s') ∧ R.left s' = (R.left s).drop n := by
  rcases R.fill_eq s [] (Nat.le_of_eq (Nat.zero_add n).symm) (Nat.zero_le n) with
    ⟨-, hok⟩ | ⟨hshort, -⟩
  · exact hok
  · rw [length_nil] at hshort
    omega

theorem readFull_short (h : (R.left s).length < n) :
    ∃ e s', R.readFull n s = (.error e, s') := by
  rcases R.fill_eq s [] (Nat.le_of_eq (Nat.zero_add n).symm) (Nat.zero_le n) with
    ⟨hin, -⟩ | ⟨-, hfail⟩
  · rw [length_nil] at hin
    omega
  · exact hfail

end ByteReader

/-- Pieces of a byte string, none of them empty. -/
structure Chunks where
  pieces : List GoString
  nonempty : ∀ c ∈ pieces, c ≠ []

namespace Chunks

/-- What a `Read` into a buffer of `n` bytes takes: one piece, as far as it fits. -/
def next (n : Nat) : Chunks → Option (GoString × Chunks)
  | ⟨[], _⟩ => none
  | ⟨c :: rest, h⟩ =>
      if hfit : c.length ≤ n then some (c, ⟨rest, fun x hx => h x (mem_cons_of_mem _ hx)⟩)
      else
        some (c.take n, ⟨c.drop n :: rest, by
          intro x hx
          rcases mem_cons.mp hx with rfl | hx
          · exact fun hnil => hfit (drop_eq_nil_iff.mp hnil)
          · exact h x (mem_cons_of_mem _ hx)⟩)

theorem next_some {n : Nat} {p p' : Chunks} {b : GoString} (hn : 0 < n)
    (h : p.next n = some (b, p')) :
    b ≠ [] ∧ b.length ≤ n ∧ p.pieces.flatten = b ++ p'.pieces.flatten := by
  obtain ⟨pieces, hne⟩ := p
  cases pieces with
  | nil => cases h
  | cons c rest =>
    have hc := hne c mem_cons_self
    simp only [next] at h
    split at h <;> cases h
    · rename_i hfit
      exact ⟨hc, hfit, flatten_cons⟩
    · refine ⟨?_, length_take_le n c, ?_⟩
      · rw [ne_eq, take_eq_nil_iff, not_or]
        exact ⟨Nat.ne_of_gt hn, hc⟩
      · rw [flatten_cons, flatten_cons, ← append_assoc, take_append_drop]

theorem next_none {n : Nat} {p : Chunks} (h : p.next n = none) : p.pieces = [] := by
  obtain ⟨pieces, hne⟩ := p
  cases pieces with
  | nil => rfl
  | cons c rest =>
    simp only [next] at h
    split at h <;> cases h

end Chunks

end Lemul
