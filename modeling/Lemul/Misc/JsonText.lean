import Lemul.Misc.GoString

/-!
# The text of JSON values

What `encoding/json` writes for strings, arrays and objects, with the escapes it makes by default,
and how long that is.
-/

namespace Lemul.JsonText

open List

def hexDigit (n : Nat) : UInt8 := UInt8.ofNat (if n < 10 then 48 + n else 87 + n)

/-- What is written for a byte below 128. -/
def escapeByte (b : UInt8) : GoString :=
  if b = 34 ∨ b = 92 then [92, b]
  else if b = 8 then "\\b"
  else if b = 12 then "\\f"
  else if b = 10 then "\\n"
  else if b = 13 then "\\r"
  else if b = 9 then "\\t"
  else if b < 32 ∨ b = 38 ∨ b = 60 ∨ b = 62 then
    "\\u00" ++ [hexDigit (b.toNat / 16), hexDigit (b.toNat % 16)]
  else [b]

/-- `n` bytes of a rune follow, the first of them between `lo` and `hi`. -/
def runeTail (lo hi : UInt8) (n : Nat) (rest : GoString) : Option Nat :=
  if n ≤ rest.length ∧ (rest.take 1).all (fun c => lo ≤ c && c ≤ hi) ∧
      ((rest.take n).drop 1).all (fun c => 0x80 ≤ c && c ≤ 0xbf) then some n
  else none

/-- `utf8.DecodeRune` at a first byte of at least 128: the number of bytes that follow it, unless
the encoding is not valid. -/
def decodeRune (b : UInt8) (rest : GoString) : Option Nat :=
  if 0xc2 ≤ b ∧ b ≤ 0xdf then runeTail 0x80 0xbf 1 rest
  else if b = 0xe0 then runeTail 0xa0 0xbf 2 rest
  else if b = 0xed then runeTail 0x80 0x9f 2 rest
  else if 0xe1 ≤ b ∧ b ≤ 0xef then runeTail 0x80 0xbf 2 rest
  else if b = 0xf0 then runeTail 0x90 0xbf 3 rest
  else if 0xf1 ≤ b ∧ b ≤ 0xf3 then runeTail 0x80 0xbf 3 rest
  else if b = 0xf4 then runeTail 0x80 0x8f 3 rest
  else none

/-- The text of a string between its quotes. The first `n` bytes belong to a rune that has been
begun: with `keep` they are written as they are. -/
def escapeFrom (keep : Bool) : Nat → GoString → GoString
  | _, [] => []
  | n + 1, b :: rest => if keep then b :: escapeFrom keep n rest else escapeFrom keep n rest
  | 0, b :: rest =>
      if b < 128 then escapeByte b ++ escapeFrom keep 0 rest
      else
        match decodeRune b rest with
        | none => "\\ufffd" ++ escapeFrom keep 0 rest
        | some n =>
            -- U+2028 and U+2029
            if b = 0xe2 ∧ rest.take 2 = [0x80, 0xa8] then
              "\\u2028" ++ escapeFrom false n rest
            else if b = 0xe2 ∧ rest.take 2 = [0x80, 0xa9] then
              "\\u2029" ++ escapeFrom false n rest
            else b :: escapeFrom true n rest

def escape (s : GoString) : GoString := escapeFrom true 0 s

def quote (s : GoString) : GoString := 34 :: escape s ++ [34]

def bool (b : Bool) : GoString := if b then "true" else "false"

/-- A slice. One that nothing was appended to is `nil`. -/
def array (elems : List GoString) : GoString :=
  if elems = [] then "null" else 91 :: [44].intercalate elems ++ [93]

def member (f : GoString × GoString) : GoString := 34 :: f.1 ++ 34 :: 58 :: f.2

/-- A struct: the names of its fields and the texts of their values. -/
def object (fields : List (GoString × GoString)) : GoString :=
  123 :: [44].intercalate (fields.map member) ++ [125]

/-- A field that is left out where its string is empty. -/
def omitEmpty (name value : GoString) : List (GoString × GoString) :=
  if value = [] then [] else [(name, quote value)]

/-- Plain text is escaped byte by byte. -/
theorem escape_of_isASCII {s : GoString} (h : isASCII s = true) :
    escape s = s.flatMap escapeByte := by
  unfold escape
  induction s with
  | nil => rfl
  | cons b rest ih =>
    obtain ⟨hb, hrest⟩ := Bool.and_eq_true_iff.mp h
    rw [escapeFrom, if_pos (of_decide_eq_true hb), ih hrest, flatMap_cons]

theorem length_quote (s : GoString) : (quote s).length = (escape s).length + 2 := by
  simp [quote]

theorem length_intercalate_succ (c : UInt8) {ls : List GoString} (h : ls ≠ []) :
    ([c].intercalate ls).length + 1 = (ls.map fun l => l.length + 1).sum := by
  induction ls with
  | nil => exact absurd rfl h
  | cons l ls ih =>
    cases ls with
    | nil => simp [intercalate]
    | cons m ls =>
      rw [intercalate_cons_cons, map_cons, sum_cons, ← ih (cons_ne_nil m ls), length_append,
        length_append, length_singleton]
      omega

/-- The length of an array whose elements are that long. -/
def arraySize (sizes : List Nat) : Nat :=
  if sizes = [] then 4 else (sizes.map (· + 1)).sum + 1

theorem length_array (elems : List GoString) :
    (array elems).length = arraySize (elems.map length) := by
  by_cases h : elems = []
  · rw [h]
    rfl
  · rw [array, if_neg h, arraySize, if_neg (mt map_eq_nil_iff.mp h), map_map, length_append,
      length_cons, length_singleton, length_intercalate_succ 44 h]
    rfl

theorem length_mul_le_arraySize {c : Nat} {sizes : List Nat} (h : ∀ n ∈ sizes, c ≤ n) :
    sizes.length * c ≤ arraySize sizes := by
  have hsum : sizes.length * c ≤ (sizes.map (· + 1)).sum := by
    induction sizes with
    | nil => exact Nat.le_of_eq (Nat.zero_mul c)
    | cons n sizes ih =>
      obtain ⟨hn, hrest⟩ := forall_mem_cons.mp h
      have := ih hrest
      rw [length_cons, Nat.succ_mul, map_cons, sum_cons]
      omega
  unfold arraySize
  split
  · rename_i hnil
    rw [hnil]
    simp
  · omega

theorem length_object {fields : List (GoString × GoString)} (h : fields ≠ []) :
    (object fields).length = (fields.map fun f => f.1.length + f.2.length + 4).sum + 1 := by
  have hlen := @length_intercalate_succ 44 (fields.map member) (mt map_eq_nil_iff.mp h)
  rw [map_map] at hlen
  rw [object, length_append, length_cons, length_singleton, hlen]
  congr 2
  refine map_congr_left fun f _ => ?_
  simp only [Function.comp_apply, member, length_append, length_cons]
  omega

end Lemul.JsonText
