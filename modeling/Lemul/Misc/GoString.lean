import Mathlib

/-!
# Go strings

A Go `string` is a sequence of bytes with no encoding attached; `len` counts bytes
and `+` concatenates them. Identifiers, names, references and messages of the source
are all carried this way.
-/

namespace Lemul

open List

/-- A Go `string`: its bytes. -/
abbrev GoString := List UInt8

instance (s : GoString) (l : List GoString) : Decidable (s ∈ l) :=
  instDecidableMemOfLawfulBEq s l

/-- The bytes of a string literal of the source. -/
def str (s : String) : GoString := s.toUTF8.data.toList

instance : Coe String GoString := ⟨str⟩

/-- `len` is an `int`, so every string a Go program holds satisfies this. -/
def FitsInt (s : GoString) : Prop := s.length < 2 ^ 63

instance (s : GoString) : Decidable (FitsInt s) := inferInstanceAs (Decidable (_ < _))

/-- Bytes that are text in every encoding. -/
def isASCII (s : GoString) : Bool := s.all fun b => b < 128

/-- What a check of all bytes has found. -/
theorem forall_byte {p : UInt8 → Bool}
    (h : (range 256).all (fun n => p (UInt8.ofNat n)) = true) (c : UInt8) : p c = true := by
  have hc := all_eq_true.mp h c.toNat (mem_range.mpr c.toNat_lt)
  rwa [UInt8.ofNat_toNat] at hc

/-- `derefOr` (`mgmtapi/state.go:515-520`): a nullable column, with NULL as `""`. -/
def derefOr (p : Option GoString) : GoString := p.getD []

@[simp] theorem derefOr_none : derefOr none = [] := rfl

@[simp] theorem derefOr_some (s : GoString) : derefOr (some s) = s := rfl

theorem eq_some_of_derefOr_ne {p : Option GoString} (h : derefOr p ≠ []) :
    p = some (derefOr p) := by
  cases p with
  | none => exact absurd rfl h
  | some s => rfl

/-- How the writers of a nullable text column store a string: `""` becomes NULL
(`mgmtapi/state.go:138-141`, `:158-161`, `:240-243`). -/
def nullable (s : GoString) : Option GoString := if s = [] then none else some s

@[simp] theorem derefOr_nullable (s : GoString) : derefOr (nullable s) = s := by
  unfold nullable
  split
  · rename_i h
    rw [h]
    rfl
  · rfl

@[simp] theorem nullable_nil : nullable [] = none := rfl

theorem nullable_eq_none {s : GoString} : nullable s = none ↔ s = [] := by
  unfold nullable
  split <;> simp [*]

end Lemul
