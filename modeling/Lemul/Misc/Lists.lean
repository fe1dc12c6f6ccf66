import Mathlib

/-!
# Lists by position, maps by key

What stands at a position of a list after one position was overwritten, or after the list
grew by one; what a map holds after one key was overwritten, and what is left in a variable
that the elements of a list overwrite one after the other.
-/

namespace Lemul

open List

variable {α : Type} {l : List α} {a b x : α} {i j : Nat}

theorem mem_concat : x ∈ l ++ [a] ↔ x ∈ l ∨ x = a := by simp

theorem getElem?_set_same (h : l[i]? = some a) (b : α) : (l.set i b)[i]? = some b := by
  obtain ⟨hlt, -⟩ := List.getElem?_eq_some_iff.mp h
  rw [getElem?_set_self hlt]

theorem of_getElem?_set (h : (l.set i b)[j]? = some x) :
    j = i ∧ x = b ∨ j ≠ i ∧ l[j]? = some x := by
  rw [getElem?_set] at h
  by_cases hj : i = j
  · rw [if_pos hj] at h
    split at h
    · exact .inl ⟨hj.symm, (Option.some.inj h).symm⟩
    · cases h
  · rw [if_neg hj] at h
    exact .inr ⟨Ne.symm hj, h⟩

theorem getElem?_set_of (h : l[i]? = some a) (b : α) :
    (l.set i b)[j]? = if j = i then some b else l[j]? := by
  by_cases hj : j = i
  · rw [if_pos hj, hj, getElem?_set_same h]
  · rw [if_neg hj, getElem?_set_ne (Ne.symm hj)]

theorem mem_set_of_mem (hx : x ∈ l) (ha : l[i]? = some a) (b : α) : x = a ∨ x ∈ l.set i b := by
  obtain ⟨j, hj⟩ := mem_iff_getElem?.mp hx
  by_cases hij : i = j
  · subst hij
    rw [ha] at hj
    exact .inl (Option.some.inj hj).symm
  · exact .inr (mem_of_getElem? (by rw [getElem?_set_ne hij, hj]))

theorem getElem?_concat_old (h : l[j]? = some x) (b : α) : (l ++ [b])[j]? = some x := by
  obtain ⟨hlt, -⟩ := List.getElem?_eq_some_iff.mp h
  rw [getElem?_append_left hlt, h]

theorem of_getElem?_concat (h : (l ++ [b])[j]? = some x) :
    l[j]? = some x ∨ j = l.length ∧ x = b := by
  rw [getElem?_append] at h
  split at h
  · exact .inl h
  · rw [getElem?_singleton] at h
    split at h
    · exact .inr ⟨by omega, (Option.some.inj h).symm⟩
    · cases h

theorem le_sum_map (f : α → Nat) (h : a ∈ l) : f a ≤ (l.map f).sum := by
  induction l with
  | nil => cases h
  | cons x l ih =>
    rw [map_cons, sum_cons]
    rcases mem_cons.mp h with rfl | h
    · exact Nat.le_add_right _ _
    · exact Nat.le_trans (ih h) (Nat.le_add_left _ _)

/-- A variable after each element of a list has overwritten it or left it. -/
def overwrite {β : Type} (f : β → Option α) (a : α) (xs : List β) : α :=
  xs.foldl (fun a x => (f x).getD a) a

section Overwrite

variable {β : Type} {f : β → Option α}

theorem overwrite_append (a : α) (xs ys : List β) :
    overwrite f a (xs ++ ys) = overwrite f (overwrite f a xs) ys := foldl_append

/-- Either nothing was written, or what was there before does not matter. -/
theorem overwrite_cases (f : β → Option α) (xs : List β) :
    (∀ a, overwrite f a xs = a) ∨ ∀ a a', overwrite f a xs = overwrite f a' xs := by
  induction xs with
  | nil => exact .inl fun _ => rfl
  | cons x xs ih =>
    cases hx : f x with
    | some v =>
      refine .inr fun a a' => ?_
      simp only [overwrite, foldl_cons, hx, Option.getD_some]
    | none =>
      have hskip : ∀ a, overwrite f a (x :: xs) = overwrite f a xs := fun a => by
        simp only [overwrite, foldl_cons, hx, Option.getD_none]
      simpa only [hskip] using ih

theorem overwrite_idem (a : α) (xs : List β) :
    overwrite f (overwrite f a xs) xs = overwrite f a xs := by
  rcases overwrite_cases f xs with h | h
  · exact h _
  · exact h _ _

end Overwrite

/-- Keys that are distinct find what they are the keys of. -/
theorem find?_key_eq_some {κ : Type} [DecidableEq κ] {f : α → κ} (h : (l.map f).Nodup)
    (ha : a ∈ l) : l.find? (fun x => f x = f a) = some a := by
  induction l with
  | nil => cases ha
  | cons b l ih =>
    obtain ⟨hb, hl⟩ := nodup_cons.mp h
    rcases mem_cons.mp ha with rfl | hrest
    · exact find?_cons_of_pos (decide_eq_true rfl)
    · have hne : f b ≠ f a := fun heq => hb (heq ▸ mem_map_of_mem hrest)
      rw [find?_cons_of_neg (by simpa using hne)]
      exact ih hl hrest

/-- As many elements as each of them can give. -/
theorem length_flatMap_le {β : Type} {f : α → List β} {k : Nat} (h : ∀ x ∈ l, (f x).length ≤ k) :
    (l.flatMap f).length ≤ l.length * k := by
  induction l with
  | nil => exact Nat.zero_le _
  | cons x l ih =>
    have hx := h x mem_cons_self
    have hrest := ih fun y hy => h y (mem_cons_of_mem _ hy)
    rw [flatMap_cons, length_append, length_cons, Nat.succ_mul]
    omega

/-- What stands between separators holds none. -/
theorem notMem_of_mem_splitOn [DecidableEq α] {l e : List α} {c : α} (h : e ∈ l.splitOn c) :
    c ∉ e := by
  unfold splitOn at h
  induction l generalizing e with
  | nil =>
    rw [splitOnP_nil, mem_singleton] at h
    rw [h]
    exact not_mem_nil
  | cons x l ih =>
    rw [splitOnP_cons_eq_if_modifyHead] at h
    split at h
    · rcases mem_cons.mp h with rfl | h
      · exact not_mem_nil
      · exact ih h
    · rename_i hx
      cases hparts : splitOnP (· == c) l with
      | nil => exact absurd hparts (splitOnP_ne_nil _ _)
      | cons first rest =>
        rw [hparts] at h ih
        rcases mem_cons.mp h with rfl | h
        · intro hin
          rcases mem_cons.mp hin with heq | hin
          · exact hx (beq_iff_eq.mpr heq.symm)
          · exact ih mem_cons_self hin
        · exact ih (mem_cons_of_mem _ h)

/-- What nothing is left out of can be cut before or after it is mapped. -/
theorem filterMap_drop_of_isSome {β : Type} {f : α → Option β} (k : Nat)
    (h : ∀ x ∈ l, (f x).isSome = true) : (l.drop k).filterMap f = (l.filterMap f).drop k := by
  induction l generalizing k with
  | nil => simp
  | cons x l ih =>
    obtain ⟨hx, hl⟩ := forall_mem_cons.mp h
    obtain ⟨y, hy⟩ := Option.isSome_iff_exists.mp hx
    cases k with
    | zero => rfl
    | succ k => rw [drop_succ_cons, filterMap_cons_some hy, drop_succ_cons, ih k hl]

/-- The last occurrence of an element. -/
theorem exists_last_mem (h : a ∈ l) : ∃ before after, l = before ++ a :: after ∧ a ∉ after := by
  obtain ⟨after, before, hrev, hafter⟩ :=
    eq_append_cons_of_mem (mem_reverse.mpr h)
  refine ⟨before.reverse, after.reverse, ?_, fun hmem => hafter (mem_reverse.mp hmem)⟩
  rw [← reverse_reverse l, hrev]
  simp

/-- What stands before an occurrence of `a` begins with everything that has none. -/
theorem isPrefix_of_append_eq {m before after : List α} (h : l ++ m = before ++ a :: after)
    (ha : a ∉ l) : l <+: before := by
  rcases append_eq_append_iff.mp h with ⟨rest, rfl, -⟩ | ⟨rest, rfl, hrest⟩
  · exact prefix_append l rest
  · cases rest with
    | nil => exact ⟨[], by rw [append_nil, append_nil]⟩
    | cons b rest =>
      injection hrest with hb
      subst hb
      exact absurd (mem_append_right before mem_cons_self) ha

end Lemul
