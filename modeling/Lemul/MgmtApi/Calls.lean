import Lemul.MgmtApi.RowLock

/-!
# What the calls in progress know

A handler reads the row of a workspace once and works from that copy, through the wait for
the lock and everything `ensureWorkspace` does under it. The notes here say, for each
thread, which copy it works from, what other calls have recorded on the row since, and how
far it has got.

Time passes between the operations, and the context of a call can be done at any moment: its
client has gone away, or its own deadline has passed. A wait without a tunnel ends when its
context is done or, before anything was dispatched, when `reconnectGrace` has passed
(`api.go:324-325`); a statement under a context that is done fails.
-/

namespace Lemul.MgmtApi

open Store

/-- One call, as far as it has got. -/
structure Call where
  /-- The record it works from. -/
  copy : Workspace
  /-- Status and task reference as another call recorded them last, since the copy was
  read; those of the copy, if none has. -/
  latest : WorkspaceStatus × Option GoString
  /-- When it began to wait for a tunnel. -/
  began : Option Nat
  /-- How long it has waited for a tunnel that did not come. -/
  waited : Option Nat
  /-- The reference its dispatch was answered with. -/
  ref : GoString
  /-- It has taken a generation. -/
  placing : Bool
  deriving DecidableEq, Repr

namespace Call

def ofCopy (w : Workspace) : Call := ⟨w, (w.status, w.taskRef), none, none, [], false⟩

/-- The record as it stands on the row, going by what other calls recorded. -/
def current (c : Call) : Workspace := { c.copy with status := c.latest.1, taskRef := c.latest.2 }

/-- What the call's own operation changes at `now`; `locked` says whether it holds the lock. A
status write outside of the lock is the mark `startPlacement` makes, on the row and on its
copy. -/
def after (locked : Bool) (now : Nat) : (o : Op) → Res o → Call → Call
  | .waitWorkspace _, .inr _, c => { c with began := some now }
  | .receive _ _, .error _, c => { c with waited := c.began.map (now - ·) }
  | .nextGeneration _ _, .ok _, c => { c with placing := true }
  | .recv _, .ok reply, c => { c with ref := reply.decodeRef }
  | .setWorkspaceStatus _ _ status ref, .ok _, c =>
      if locked then c
      else { c with
        copy := { c.copy with status := status, lastError := none }
        latest := (status, nullable ref) }
  | _, _, c => c

/-- The deadline of its wait for the recorded task has passed. -/
def expired (grace now : Nat) (c : Call) : Bool :=
  !c.placing && c.began.any fun began => began + grace ≤ now

/-- What an operation of another thread changes. -/
def overtaken (v : Option Verdict) (c : Call) : Call :=
  match v with
  | some v => if v.id = c.copy.id then { c with latest := (v.status, nullable v.taskRef) } else c
  | none => c

end Call

abbrev Calls := Nat → Option Call

/-- The row an operation hands to the thread. -/
def Op.handed : (o : Op) → Res o → Option Workspace
  | .getWorkspaceByName _ _, .ok w => some w
  | .createWorkspace _ _ _ _, .ok w => some w
  | _, _ => none

namespace Calls

/-- The notes on the thread that performs the operation. -/
def noteOwn (tid now : Nat) (s : World) (o : Op) (r : Res o) (c : Option Call) : Option Call :=
  match o.handed r with
  | some w => some (.ofCopy w)
  | none => c.map fun c => c.after (s.held (lockOf c.copy) = some tid) now o r

def note (tid now : Nat) (o : Op) (r : Res o) (s : World) (n : Calls) : Calls := fun i =>
  if i = tid then noteOwn tid now s o r (n tid) else (n i).map (Call.overtaken (o.verdict r))

end Calls

/-- The Management API, with these notes, a clock in nanoseconds and the contexts that are
done. -/
structure CallState where
  state : World
  notes : Calls
  clock : Nat
  done : Nat → Bool

/-- When an operation can be answered so. The statements are those that a request makes under its
context; a failure is noted under another one (`placement.go:121`). -/
def CallState.inTime (grace tid : Nat) (x : CallState) : (o : Op) → Res o → Bool
  | .receive _ _, .error _ => x.done tid || (x.notes tid).any (·.expired grace x.clock)
  | .getWorkspaceByName _ _, .ok _ => !x.done tid
  | .nextGeneration _ _, .ok _ => !x.done tid
  | .setWorkspaceStatus _ _ _ _, .ok _ => !x.done tid
  | _, _ => true

inductive CallMove where
  | world (e : EnvMove)
  | pass (ns : Nat)
  /-- The context of thread `tid` is done. -/
  | done (tid : Nat)

/-- `reconnectGrace` (`server.go:380-385`). -/
def reconnectGrace (option : Int) : Nat := if 0 < option then option.toNat else 10000000000

/-- The Management API with the option `ReconnectGrace`. -/
def calls (cfg : Config) (option : Int) : System Op Res CallState CallMove Req Outcome where
  exec tid o r x :=
    if x.inTime (reconnectGrace option) tid o r then
      (exec tid o r x.state).map fun s =>
        { x with state := s, notes := Calls.note tid x.clock o r x.state x.notes }
    else none
  env
    | .world e, x => (envStep cfg.driver e x.state).map fun s => { x with state := s }
    | .pass ns, x => some { x with clock := x.clock + ns }
    | .done tid, x => some { x with done := Function.update x.done tid true }
  spawn q x := spawn cfg q x.state

abbrev CallPool := Pool Op Res CallState Outcome

abbrev CallSchedule := List (Label Op Res CallMove Req)

/-- Started on the table `cell`. -/
def bootCalls (cell : Workspaces) : CallPool :=
  ⟨⟨World.init cell, fun _ => none, 0, fun _ => false⟩, []⟩

variable {tid other now : Nat} {o : Op} {r : Res o} {s : World} {n : Calls} {c : Call}

theorem Calls.note_other (hne : other ≠ tid) :
    Calls.note tid now o r s n other = (n other).map (Call.overtaken (o.verdict r)) := if_neg hne

theorem Calls.note_self :
    Calls.note tid now o r s n tid = Calls.noteOwn tid now s o r (n tid) := if_pos rfl

theorem Op.handed_of_reads (ho : o.reads = false) : o.handed r = none := by
  cases o <;> first | rfl | cases ho

/-- What is handed out is a row. -/
theorem exec_handed {s' : World} {w : Workspace} (h : exec tid o r s = some s')
    (hw : o.handed r = some w) : w ∈ s'.cell.rows := by
  cases o <;> try cases hw
  · cases r with
    | error e => cases hw
    | ok v =>
      cases hw
      rw [(exec_frame h).cell rfl]
      exact (Workspaces.getWorkspaceByName_eq_some.mp (exec_getWorkspaceByName h)).1
  · cases r with
    | error e => cases hw
    | ok v =>
      cases hw
      simp only [exec] at h
      repeat' split at h
      all_goals cases h
      rename_i hcell
      dsimp only
      rw [Workspaces.createWorkspace_rows hcell]
      exact List.mem_append_right _ (List.mem_singleton_self _)

theorem Calls.noteOwn_handed {w : Workspace} {c : Option Call} (hw : o.handed r = some w) :
    Calls.noteOwn tid now s o r c = some (.ofCopy w) := by
  rw [Calls.noteOwn, hw]

/-- An operation that hands out no row. -/
theorem Calls.noteOwn_none {c : Option Call} (hw : o.handed r = none) :
    Calls.noteOwn tid now s o r c =
      c.map fun c => c.after (s.held (lockOf c.copy) = some tid) now o r := by
  rw [Calls.noteOwn, hw]

theorem Call.overtaken_copy (v : Option Verdict) (c : Call) : (c.overtaken v).copy = c.copy := by
  unfold Call.overtaken
  split
  · split <;> rfl
  · rfl

/-- Only the notes on what others recorded change with what they do. -/
theorem Call.overtaken_eq (v : Option Verdict) (c : Call) :
    c.overtaken v = { c with latest := (c.overtaken v).latest } := by
  unfold Call.overtaken
  split
  · split <;> rfl
  · rfl

/-- The columns of a copy that no operation of the call changes. -/
structure Call.SameRecord (c c' : Call) : Prop where
  id : c'.copy.id = c.copy.id
  tenantID : c'.copy.tenantID = c.copy.tenantID
  name : c'.copy.name = c.copy.name

theorem Call.after_record (locked : Bool) (c : Call) :
    Call.SameRecord c (c.after locked now o r) := by
  unfold Call.after
  split <;> (try split) <;> exact ⟨rfl, rfl, rfl⟩

/-- Under the lock a call changes neither its copy nor what it knows of others. -/
theorem Call.after_locked (c : Call) :
    (c.after true now o r).copy = c.copy ∧ (c.after true now o r).latest = c.latest := by
  unfold Call.after
  split <;> exact ⟨rfl, rfl⟩

/-- A reference comes with the answer to a command. -/
theorem Call.after_ref {locked : Bool} (ho : ∀ sid, o ≠ .recv sid) (c : Call) :
    (c.after locked now o r).ref = c.ref := by
  unfold Call.after
  split <;> (try split) <;> first | rfl | exact absurd rfl (ho _)

/-- A call works from the record it worked from before, or has just been handed a row. -/
theorem Calls.note_copy {s' : World} {i : Nat} (h : exec tid o r s = some s')
    (hc : Calls.note tid now o r s n i = some c) :
    (∃ c₀, n i = some c₀ ∧ Call.SameRecord c₀ c) ∨
      i = tid ∧ c = .ofCopy c.copy ∧ c.copy ∈ s'.cell.rows := by
  by_cases hi : i = tid
  · subst hi
    rw [Calls.note_self] at hc
    cases hw : o.handed r with
    | none =>
      rw [Calls.noteOwn_none hw] at hc
      obtain ⟨c₀, hc₀, rfl⟩ := Option.map_eq_some_iff.mp hc
      exact .inl ⟨c₀, hc₀, Call.after_record _ c₀⟩
    | some w =>
      rw [Calls.noteOwn_handed hw] at hc
      cases hc
      exact .inr ⟨rfl, rfl, exec_handed h hw⟩
  · rw [Calls.note_other hi] at hc
    obtain ⟨c₀, hc₀, rfl⟩ := Option.map_eq_some_iff.mp hc
    refine .inl ⟨c₀, hc₀, ?_⟩
    constructor <;> rw [Call.overtaken_copy]

/-! ## How a call stands to its row -/

/-- The row still has the status and the task reference of the copy thread `tid` works
from. -/
def CopyCurrent (tid : Nat) (x : CallState) : Prop :=
  ∀ c ∈ x.notes tid, ∀ w ∈ x.state.cell.rows, w.id = c.copy.id →
    w.status = c.copy.status ∧ w.taskRef = c.copy.taskRef

instance (tid : Nat) (x : CallState) : Decidable (CopyCurrent tid x) := by
  unfold CopyCurrent
  infer_instance

/-- Thread `tid` performs `o`, in time, and its notes are kept. -/
structure Performed (grace tid : Nat) (o : Op) (r : Res o) (x x' : CallState) : Prop where
  inTime : x.inTime grace tid o r = true
  exec : exec tid o r x.state = some x'.state
  notes : x'.notes = Calls.note tid x.clock o r x.state x.notes
  done : x'.done = x.done

theorem Performed.of_exec {cfg : Config} {option : Int} {x x' : CallState}
    (h : (calls cfg option).exec tid o r x = some x') :
    Performed (reconnectGrace option) tid o r x x' := by
  simp only [calls] at h
  split at h
  · rename_i hin
    obtain ⟨s, hexec, rfl⟩ := Option.map_eq_some_iff.mp h
    exact ⟨hin, hexec, rfl, rfl⟩
  · cases h

theorem Performed.frame {grace : Nat} {x x' : CallState} (hop : Performed grace tid o r x x') :
    Frame tid o x.state x'.state := exec_frame hop.exec

end Lemul.MgmtApi
