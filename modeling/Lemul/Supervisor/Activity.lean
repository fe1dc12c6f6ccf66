import Lemul.MgmtApi.Proofs.IdleStop
import Lemul.Supervisor.Procfs

/-!
# When a session last had a tool running

`internal/supervisor/activity.go`. Reports visit the sessions in any order, and sessions end in
between. A session that was visited with a tool running is not stopped before its timeout has
passed since then.
-/

namespace Lemul.Supervisor.Activity

open Function List Procfs MgmtApi.Reaper

/-- What a report reads of a session (`activity.go:113-137`). -/
structure Visit where
  id : GoString
  startedAt : Int
  attachers : Int
  lastOutput : Int
  /-- `broker.LastRequest`. -/
  lastRequest : Option Int
  toolRunning : Bool
  now : Int

/-- `activityTracker` (`activity.go:64-67`). -/
abbrev Tracker := GoString → Option Int

/-- `observe` (`activity.go:77-87`). -/
def Tracker.observe (a : Tracker) (v : Visit) : Int :=
  Procfs.observe (a v.id) v.toolRunning v.startedAt v.now

/-- The entry of a report (`activity.go:140-146`). -/
def activity (a : Tracker) (v : Visit) : SessionActivity :=
  ⟨v.id, v.attachers, secsSince v.now v.lastOutput,
    secsSince v.now (v.lastRequest.getD v.startedAt), secsSince v.now (a.observe v)⟩

inductive Move where
  | visit (v : Visit)
  /-- `forget` (`activity.go:90-94`). -/
  | forget (id : GoString)

def step (a : Tracker) : Move → Tracker
  | .visit v => update a v.id (some (a.observe v))
  | .forget id => update a id none

/-- The process of `id` does not end, and the clock is not before `t`. -/
def Move.Since (id : GoString) (t : Int) : Move → Prop
  | .visit v => t ≤ v.now
  | .forget other => id ≠ other

/-- A tool of `id` was last seen at `t` or later. -/
def Seen (id : GoString) (t : Int) (a : Tracker) : Prop := ∃ u, a id = some u ∧ t ≤ u

variable {id : GoString} {t : Int} {a : Tracker} {m : Move} {v w : Visit}

theorem Seen.le_observe (h : Seen v.id t a) (hnow : t ≤ v.now) : t ≤ a.observe v := by
  obtain ⟨u, hu, hle⟩ := h
  unfold Tracker.observe Procfs.observe
  split
  · exact hnow
  · rwa [hu]

theorem Seen.step (h : Seen id t a) (hm : m.Since id t) : Seen id t (step a m) := by
  cases m with
  | visit v =>
    by_cases hid : id = v.id
    · subst hid
      exact ⟨_, update_self _ _ _, h.le_observe hm⟩
    · exact h.imp fun u hu => ⟨(update_of_ne hid _ _).trans hu.1, hu.2⟩
  | forget other => exact h.imp fun u hu => ⟨(update_of_ne hm _ _).trans hu.1, hu.2⟩

theorem Seen.run {moves : List Move} (h : Seen id t a) (hmoves : ∀ m ∈ moves, m.Since id t) :
    Seen id t (moves.foldl Activity.step a) := by
  induction moves generalizing a with
  | nil => exact h
  | cons m moves ih =>
    exact ih (h.step (hmoves m mem_cons_self)) fun x hx => hmoves x (mem_cons_of_mem _ hx)

end Lemul.Supervisor.Activity
