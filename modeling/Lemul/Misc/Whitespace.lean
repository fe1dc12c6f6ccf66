import Lemul.Misc.GoString

/-!
# White space

`strings.Fields` and `strings.TrimSpace`. The characters that `unicode.IsSpace` takes for white
space are told by the bytes they begin with: none of them can begin inside the encoding of another
character.
-/

namespace Lemul

open List

/-- How many bytes the white space at the beginning of a string takes: none, or one character. -/
def spaceLen : GoString → Nat
  | [] => 0
  | b :: rest =>
      if b = 32 ∨ 9 ≤ b ∧ b ≤ 13 then 1
      else if b = 0xc2 ∧ (rest.take 1 = [0x85] ∨ rest.take 1 = [0xa0]) then 2
      else if b = 0xe1 ∧ rest.take 2 = [0x9a, 0x80] then 3
      else if b = 0xe2 ∧ rest.take 1 = [0x80] ∧ ((rest.drop 1).take 1).any (fun c =>
          0x80 ≤ c && c ≤ 0x8a || c = 0xa8 || c = 0xa9 || c = 0xaf) then 3
      else if b = 0xe2 ∧ rest.take 2 = [0x81, 0x9f] then 3
      else if b = 0xe3 ∧ rest.take 2 = [0x80, 0x80] then 3
      else 0

/-- The fields of a string, of which `cur` has been read. The first `skip` bytes belong to white
space. -/
def fieldsFrom : Nat → GoString → GoString → List GoString
  | _, cur, [] => if cur = [] then [] else [cur]
  | skip + 1, cur, _ :: rest => fieldsFrom skip cur rest
  | 0, cur, b :: rest =>
      match spaceLen (b :: rest) with
      | 0 => fieldsFrom 0 (cur ++ [b]) rest
      | n + 1 => if cur = [] then fieldsFrom n [] rest else cur :: fieldsFrom n [] rest

/-- `strings.Fields`. -/
def fields (s : GoString) : List GoString := fieldsFrom 0 [] s

/-- `strings.TrimLeftFunc` with `unicode.IsSpace`, inside white space for `skip` more bytes. -/
def trimLeft : Nat → GoString → GoString
  | _, [] => []
  | skip + 1, _ :: rest => trimLeft skip rest
  | 0, b :: rest =>
      match spaceLen (b :: rest) with
      | 0 => b :: rest
      | n + 1 => trimLeft n rest

/-- `strings.TrimRightFunc` with `unicode.IsSpace`: all is dropped from where nothing but white
space follows. -/
def trimRight : GoString → GoString
  | [] => []
  | b :: rest => if fields (b :: rest) = [] then [] else b :: trimRight rest

/-- `strings.TrimSpace`. -/
def trimSpace (s : GoString) : GoString := trimRight (trimLeft 0 s)

/-! ## Words of visible characters -/

/-- A visible character of ASCII. -/
def isVisible (b : UInt8) : Bool := 32 < b.toNat && b.toNat < 128

theorem spaceLen_visible {b : UInt8} (h : isVisible b = true) (rest : GoString) :
    spaceLen (b :: rest) = 0 := by
  simp only [isVisible, Bool.and_eq_true, decide_eq_true_eq] at h
  have hne : ∀ c : UInt8, 128 ≤ c.toNat → b ≠ c := by
    rintro c hc rfl
    omega
  have hspace : ¬ (b = 32 ∨ 9 ≤ b ∧ b ≤ 13) := by
    rintro (rfl | ⟨-, hb⟩)
    · exact absurd h.1 (by decide)
    · have hb : b.toNat ≤ 13 := UInt8.le_iff_toNat_le.mp hb
      omega
  simp only [spaceLen, if_neg hspace, hne 0xc2 (by decide), hne 0xe1 (by decide),
    hne 0xe2 (by decide), hne 0xe3 (by decide), false_and, if_false]

/-- A word is read as a whole. -/
theorem fieldsFrom_word {w : GoString} (h : w.all isVisible = true) (cur rest : GoString) :
    fieldsFrom 0 cur (w ++ rest) = fieldsFrom 0 (cur ++ w) rest := by
  induction w generalizing cur with
  | nil => rw [nil_append, append_nil]
  | cons b w ih =>
    rw [all_cons, Bool.and_eq_true] at h
    rw [cons_append, fieldsFrom, spaceLen_visible h.1, ih h.2, append_assoc, singleton_append]

/-- Words that are joined by spaces and may be followed by a newline. -/
theorem fields_joined {ws : List GoString} (hne : ∀ w ∈ ws, w ≠ [])
    (h : ∀ w ∈ ws, w.all isVisible = true) {eol : GoString} (heol : eol = [] ∨ eol = [10]) :
    fields ([32].intercalate ws ++ eol) = ws := by
  unfold fields
  induction ws with
  | nil => rcases heol with rfl | rfl <;> rfl
  | cons w ws ih =>
    obtain ⟨hw, hws⟩ := forall_mem_cons.mp h
    obtain ⟨hwne, hwsne⟩ := forall_mem_cons.mp hne
    cases ws with
    | nil =>
      rw [intercalate_singleton, fieldsFrom_word hw, nil_append]
      rcases heol with rfl | rfl <;> simp [fieldsFrom, spaceLen, hwne]
    | cons v vs =>
      rw [intercalate_cons_cons, append_assoc, append_assoc, fieldsFrom_word hw, nil_append,
        singleton_append, fieldsFrom]
      simp only [spaceLen, true_or, if_true, if_neg hwne]
      rw [ih hwsne hws]

@[simp] theorem fields_cons_space (s : GoString) : fields (32 :: s) = fields s := by
  simp [fields, fieldsFrom, spaceLen]

theorem notMem_joined {c : UInt8} (hc : c ≠ 32) {ws : List GoString} (h : ∀ w ∈ ws, c ∉ w) :
    c ∉ [32].intercalate ws := by
  induction ws with
  | nil => simp
  | cons w ws ih =>
    obtain ⟨hw, hws⟩ := forall_mem_cons.mp h
    cases ws with
    | nil => rwa [intercalate_singleton]
    | cons v vs =>
      rw [intercalate_cons_cons, mem_append, mem_append, mem_singleton]
      rintro ((h | h) | h)
      · exact hw h
      · exact hc h
      · exact ih hws h

theorem fields_cons_visible {b : UInt8} (h : isVisible b = true) (rest : GoString) :
    fields (b :: rest) ≠ [] := by
  have hfrom : ∀ (s : GoString) (skip : Nat) {cur : GoString}, cur ≠ [] →
      fieldsFrom skip cur s ≠ [] := by
    intro s
    induction s with
    | nil =>
      intro skip cur hcur
      simp [fieldsFrom, hcur]
    | cons c s ih =>
      intro skip cur hcur
      cases skip with
      | succ skip => exact ih skip hcur
      | zero =>
        rw [fieldsFrom]
        cases spaceLen (c :: s) with
        | zero => exact ih 0 (by simp)
        | succ n => simp [hcur]
  rw [fields, fieldsFrom, spaceLen_visible h]
  exact hfrom rest 0 (by simp)

/-- A word with a space behind it is trimmed to the word. -/
theorem trimSpace_word {w : GoString} (h : w.all isVisible = true) :
    trimSpace (w ++ [32]) = w := by
  have hright : ∀ w : GoString, w.all isVisible = true → trimRight (w ++ [32]) = w := by
    intro w hw
    induction w with
    | nil => rfl
    | cons b w ih =>
      rw [all_cons, Bool.and_eq_true] at hw
      rw [cons_append, trimRight, if_neg (fields_cons_visible hw.1 _), ih hw.2]
  have hleft : trimLeft 0 (w ++ [32]) = w ++ [32] ∨ w = [] := by
    cases w with
    | nil => exact .inr rfl
    | cons b w =>
      rw [all_cons, Bool.and_eq_true] at h
      rw [cons_append, trimLeft, spaceLen_visible h.1]
      exact .inl rfl
  rcases hleft with hleft | rfl
  · rw [trimSpace, hleft, hright w h]
  · rfl

end Lemul
