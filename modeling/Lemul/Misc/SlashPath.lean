import Lemul.Misc.GoString
import Lemul.Misc.Lists

/-!
# Slash-separated paths

`path.Clean`: the shortest path that names the same thing, found by lexical processing alone.
Slashes are collapsed, `.` elements are dropped, and `..` takes away the element before it; at
the root it is dropped too.
-/

namespace Lemul.SlashPath

open List

def slash : UInt8 := 47

def dot : GoString := [46]

def dotdot : GoString := [46, 46]

/-- What stands between the slashes. -/
def elements (s : GoString) : List GoString := s.splitOn slash

def rooted (s : GoString) : Bool := s.head? = some slash

/-- One element more, onto the elements kept so far, last one first. -/
def cleanStep (fromRoot : Bool) (kept : List GoString) (e : GoString) : List GoString :=
  if e = [] ∨ e = dot then kept
  else if e = dotdot then
    match kept with
    | [] => if fromRoot then [] else [dotdot]
    | last :: before => if last = dotdot then dotdot :: kept else before
  else e :: kept

/-- The elements that `clean` keeps. -/
def keptElements (s : GoString) : List GoString :=
  ((elements s).foldl (cleanStep (rooted s)) []).reverse

/-- `path.Clean`. -/
def clean (s : GoString) : GoString :=
  let joined := [slash].intercalate (keptElements s)
  if rooted s then slash :: joined else if joined = [] then dot else joined

/-- `filepath.Join`. -/
def joinAll (es : List GoString) : GoString :=
  match es.dropWhile (· = []) with
  | [] => []
  | es => clean ([slash].intercalate es)

/-- `filepath.Base`. -/
def base (s : GoString) : GoString :=
  if s = [] then dot
  else
    match (s.reverse.dropWhile (· = slash)).takeWhile (· ≠ slash) with
    | [] => [slash]
    | last => last.reverse

/-- An element that a clean rooted path may have. -/
structure Plain (e : GoString) : Prop where
  nonempty : e ≠ []
  notDot : e ≠ dot
  notDotdot : e ≠ dotdot
  noSlash : slash ∉ e

variable {s e : GoString} {kept : List GoString}

theorem slash_notMem_elements (h : e ∈ elements s) : slash ∉ e := notMem_of_mem_splitOn h

theorem plain_cleanStep (hkept : ∀ k ∈ kept, Plain k)
    (he : slash ∉ e) : ∀ k ∈ cleanStep true kept e, Plain k := by
  unfold cleanStep
  split
  · exact hkept
  · rename_i hsome
    split
    · cases kept with
      | nil => exact nofun
      | cons last before =>
        have hlast : last ≠ dotdot := (hkept last mem_cons_self).notDotdot
        dsimp only
        rw [if_neg hlast]
        exact fun k hk => hkept k (mem_cons_of_mem _ hk)
    · rename_i hdotdot
      intro k hk
      rcases mem_cons.mp hk with rfl | hk
      · exact ⟨fun h => hsome (.inl h), fun h => hsome (.inr h), hdotdot, he⟩
      · exact hkept k hk

theorem plain_foldl {es : List GoString} (hkept : ∀ k ∈ kept, Plain k)
    (hes : ∀ e ∈ es, slash ∉ e) : ∀ k ∈ es.foldl (cleanStep true) kept, Plain k := by
  induction es generalizing kept with
  | nil => exact hkept
  | cons e es ih =>
    refine ih (plain_cleanStep hkept (hes e mem_cons_self)) fun e' he' => ?_
    exact hes e' (mem_cons_of_mem _ he')

theorem plain_keptElements (h : rooted s = true) :
    ∀ k ∈ keptElements s, Plain k := by
  intro k hk
  unfold keptElements at hk
  rw [h, mem_reverse] at hk
  exact plain_foldl (fun _ hk => by cases hk) (fun _ he => slash_notMem_elements he) k hk

theorem clean_of_rooted (h : rooted s = true) :
    clean s = slash :: [slash].intercalate (keptElements s) := if_pos h

theorem elements_cons_slash (s : GoString) : elements (slash :: s) = [] :: elements s := by
  unfold elements splitOn
  rw [splitOnP_cons_eq_if_modifyHead, if_pos (beq_self_eq_true slash)]

/-- A clean rooted path has no dot segments. -/
theorem elements_clean (h : rooted s = true) (he : e ∈ elements (clean s)) :
    e ≠ dot ∧ e ≠ dotdot := by
  have hempty : ([] : GoString) ≠ dot ∧ ([] : GoString) ≠ dotdot := by decide
  have hplain := plain_keptElements h
  rw [clean_of_rooted h, elements_cons_slash] at he
  rcases mem_cons.mp he with rfl | he
  · exact hempty
  · by_cases hkept : keptElements s = []
    · rw [hkept] at he
      rw [mem_singleton.mp he]
      exact hempty
    · unfold elements at he
      rw [splitOn_intercalate slash (fun k hk => (hplain k hk).noSlash) hkept] at he
      exact ⟨(hplain e he).notDot, (hplain e he).notDotdot⟩

example : clean "/v1/./messages//../key/../../../a/" = "/a" := by decide +kernel

end Lemul.SlashPath
