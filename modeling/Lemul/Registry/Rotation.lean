import Lemul.Registry

/-!
# The turns of the runners

`PickRunner` (`internal/registry/registry.go:115-127`) counts its successful calls in one
counter for all organizations and takes the runner at the remainder. Between two calls for one
organization the counter moves on with every call for another one, so whether each of its
runners gets a turn depends on the calls of the others.
-/

namespace Lemul.Registry

open List

/-- What a sequence of `PickRunner` calls returns, each with the organization it was for. -/
def pickRunners (r : Registry) : List GoString → List (GoString × Option Tunnel)
  | [] => []
  | u :: calls => (u, (r.pickRunner u).1) :: pickRunners (r.pickRunner u).2 calls

/-- What the calls for organization `t` among them return. -/
def turns (r : Registry) (t : GoString) (calls : List GoString) : List (Option Tunnel) :=
  ((r.pickRunners calls).filter fun x => x.1 = t).map (·.2)

/-- For each call for organization `t`, how many calls before it were for others that have
runners. -/
def othersBefore (r : Registry) (t : GoString) (calls : List GoString) : List Nat :=
  (calls.findIdxs (· == t)).map fun i =>
    (calls.take i).countP fun u => u ≠ t ∧ r.runners u ≠ []

/-- The values of the counter the calls for organization `t` are served with: one more for each
call before it that was served. -/
def slots (r : Registry) (t : GoString) (calls : List GoString) : List Nat :=
  (r.othersBefore t calls).mapIdx fun own others => (r.rr + 1 + own + others) % 2 ^ 64

theorem length_slots (r : Registry) (t : GoString) (calls : List GoString) :
    (r.slots t calls).length = calls.count t := by
  rw [slots, length_mapIdx, othersBefore, length_map, length_findIdxs, count]

theorem length_turns (r : Registry) (t : GoString) (calls : List GoString) :
    (r.turns t calls).length = calls.count t := by
  induction calls generalizing r with
  | nil => rfl
  | cons u calls ih =>
    have hrest := ih (r.pickRunner u).2
    simp only [turns, length_map] at hrest ⊢
    by_cases hu : u = t
    · simp [pickRunners, hu, ← hrest]
    · simp [pickRunners, hu, hrest]

theorem othersBefore_cons (r : Registry) (t u : GoString) (calls : List GoString) :
    r.othersBefore t (u :: calls) =
      if u = t then 0 :: r.othersBefore t calls
      else (r.othersBefore t calls).map (· + if r.runners u = [] then 0 else 1) := by
  unfold othersBefore
  rw [findIdxs_cons, findIdxs_start]
  by_cases hu : u = t
  · simp [hu]
  · simp [hu, countP_cons]

/-- A call for `u` moves the counter on if it is served. -/
theorem pickRunner_eq (r : Registry) (u : GoString) : r.pickRunner u =
    if r.runners u = [] then (none, r)
    else ((r.runners u)[(r.rr + 1) % 2 ^ 64 % (r.runners u).length]?,
      { r with rr := (r.rr + 1) % 2 ^ 64 }) := by
  unfold pickRunner
  dsimp only
  by_cases hnone : r.runners u = []
  · simp [hnone]
  · rw [if_neg (fun h => hnone (length_eq_zero_iff.mp h)), if_neg hnone]

theorem mapIdx_map_add (f : Nat → Nat → Nat) (k : Nat) (l : List Nat) :
    (l.map (· + k)).mapIdx f = l.mapIdx fun i n => f i (n + k) := by
  apply ext_getElem?
  intro i
  simp only [getElem?_mapIdx, getElem?_map, Option.map_map, Function.comp_def]

/-- What is left of the slots after a call that was served. -/
theorem slots_next (r : Registry) (t : GoString) (calls : List GoString) :
    slots { r with rr := (r.rr + 1) % 2 ^ 64 } t calls =
      (r.othersBefore t calls).mapIdx fun own others =>
        (r.rr + 1 + (own + 1) + others) % 2 ^ 64 := by
  have hstep : ∀ own others : Nat, ((r.rr + 1) % 2 ^ 64 + 1 + own + others) % 2 ^ 64 =
      (r.rr + 1 + (own + 1) + others) % 2 ^ 64 := by omega
  simp only [slots, hstep]
  rfl

/-- Each call takes the runner its slot falls on. -/
theorem turns_eq (r : Registry) {t : GoString} (ht : r.runners t ≠ []) (calls : List GoString) :
    r.turns t calls = (r.slots t calls).map fun c => (r.runners t)[c % (r.runners t).length]? := by
  induction calls generalizing r with
  | nil => rfl
  | cons u calls ih =>
    have hserved := ih { r with rr := (r.rr + 1) % 2 ^ 64 } ht
    have hrefused := ih r ht
    rw [slots_next] at hserved
    simp only [turns] at hserved hrefused
    simp only [turns, pickRunners, pickRunner_eq, slots, othersBefore_cons]
    by_cases hu : u = t
    · subst hu
      simpa [ht] using hserved
    · by_cases hnone : r.runners u = []
      · simpa [hu, hnone, slots] using hrefused
      · have hstep : ∀ own others : Nat, r.rr + 1 + own + (others + 1) =
            r.rr + 1 + (own + 1) + others := by omega
        simpa only [hu, hnone, hstep, decide_false, Bool.false_eq_true, not_false_eq_true, if_false,
          filter_cons_of_neg, mapIdx_map_add] using hserved

/-- Different numbers below `n`, as many as there are, are all of them. -/
theorem perm_range_of_nodup {l : List Nat} {n : Nat} (hnodup : l.Nodup) (hlt : ∀ x ∈ l, x < n)
    (hlen : l.length = n) : l.Perm (range n) :=
  (subperm_of_subset hnodup fun x hx => mem_range.mpr (hlt x hx)).perm_of_length_le
    (Nat.le_of_eq (by rw [length_range, hlen]))

theorem map_getElem?_range {α : Type} (l : List α) :
    (range l.length).map (fun i => l[i]?) = l.map some := by
  apply ext_getElem?
  intro i
  by_cases hi : i < l.length
  · simp [hi]
  · simp [hi]

/-- As many calls for an organization as it has runners give every runner one turn exactly if
no two of them are served with the same remainder of the counter. -/
theorem turns_perm_iff (r : Registry) (t : GoString) (calls : List GoString)
    (hnodup : (r.runners t).Nodup) (hcalls : calls.count t = (r.runners t).length) :
    (r.turns t calls).Perm ((r.runners t).map some) ↔
      ((r.slots t calls).map (· % (r.runners t).length)).Nodup := by
  by_cases ht : r.runners t = []
  · -- there is no call and no runner
    have hnone : calls.count t = 0 := by rw [hcalls, ht, length_nil]
    have hslots : r.slots t calls = [] := by rw [← length_eq_zero_iff, length_slots, hnone]
    have hturns : r.turns t calls = [] := by rw [← length_eq_zero_iff, length_turns, hnone]
    simp [hslots, hturns, ht]
  have hturns : r.turns t calls = ((r.slots t calls).map (· % (r.runners t).length)).map
      fun i => (r.runners t)[i]? := by
    rw [turns_eq r ht, map_map]
    rfl
  rw [hturns]
  constructor
  · intro hperm
    have hdistinct := hperm.nodup_iff.mpr (Nodup.map (fun _ _ => Option.some.inj) hnodup)
    exact Nodup.of_map _ hdistinct
  · intro hslots
    have hrange : ((r.slots t calls).map (· % (r.runners t).length)).Perm
        (range (r.runners t).length) := by
      refine perm_range_of_nodup hslots ?_ (by rw [length_map, length_slots, hcalls])
      intro x hx
      obtain ⟨c, -, rfl⟩ := mem_map.mp hx
      exact Nat.mod_lt c (length_pos_of_ne_nil ht)
    have hall := hrange.map fun i => (r.runners t)[i]?
    rwa [map_getElem?_range] at hall

def demoRunner (tenantID : GoString) (sess : Nat) : Tunnel := ⟨"r", tenantID, [], sess⟩

/-- One organization with two runners, another with one. -/
def demoFleet : Registry :=
  ((new.addRunner (demoRunner "a" 1)).addRunner (demoRunner "a" 2)).addRunner (demoRunner "b" 3)

theorem turns_perm_iff_alone :
    (demoFleet.turns "a" ["a", "a"]).Perm ((demoFleet.runners "a").map some) :=
  (turns_perm_iff demoFleet "a" ["a", "a"] (by decide) (by decide)).mpr (by decide)

/-- A call for another organization in between: one runner is taken twice, the other not at
all. -/
theorem turns_shared : ¬(demoFleet.turns "a" ["a", "b", "a"]).Perm
    ((demoFleet.runners "a").map some) := by
  decide

end Lemul.Registry
