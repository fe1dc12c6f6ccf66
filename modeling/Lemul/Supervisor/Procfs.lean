import Lemul.Misc.GoString

/-!
# Which session a process belongs to

`internal/supervisor/procfs.go:58-117` and `activity.go:77-177`: a process is attributed to the
session whose own process is the nearest among itself and its ancestors, by a walk up the parent
links that gives up after 64 processes. A session is busy while a process of its own runs.

The table is what `readProcess` returned for the entries of `/proc`, in that order.
-/

namespace Lemul.Supervisor.Procfs

open List

/-- `ProcInfo` (`procfs.go:35-52`). `cpuTicks` is `CPUSecs` in clock ticks. -/
structure ProcInfo where
  pid : Int
  ppid : Int
  name : GoString
  state : GoString
  rssKB : Int
  cpuTicks : Int
  startedAt : GoString
  cmdline : GoString
  sessionID : GoString
  deriving DecidableEq, Repr

/-- `byPID` (`procfs.go:72, 86-88`): the last process that was read with a pid. -/
def byPID (procs : List ProcInfo) (pid : Int) : Option ProcInfo :=
  procs.reverse.find? fun p => p.pid = pid

/-- `owner` (`procfs.go:90-93`). The sessions are in the order the map was ranged over. -/
def owner (sessionPIDs : List (GoString × Int)) (pid : Int) : Option GoString :=
  (sessionPIDs.reverse.find? fun x => x.2 = pid).map (·.1)

/-- `attribute` (`procfs.go:106-117`) with `depth` processes left to look at. -/
def walk (procs : List ProcInfo) (sessionPIDs : List (GoString × Int)) : Nat → ProcInfo → GoString
  | 0, _ => []
  | depth + 1, cur =>
      match owner sessionPIDs cur.pid with
      | some sid => sid
      | none =>
          if cur.ppid ≤ 0 then []
          else
            match byPID procs cur.ppid with
            | none => []
            | some next => walk procs sessionPIDs depth next

def attributeTo (procs : List ProcInfo) (sessionPIDs : List (GoString × Int)) (p : ProcInfo) :
    GoString :=
  walk procs sessionPIDs 64 p

/-- `readProcesses` (`procfs.go:64-100`) from the processes that were read. -/
def readProcesses (procs : List ProcInfo) (sessionPIDs : List (GoString × Int)) :
    List ProcInfo :=
  (procs.map fun p => { p with sessionID := attributeTo procs sessionPIDs p }).mergeSort
    fun p q => p.pid ≤ q.pid

/-- `hasRunningTool` (`activity.go:152-166`). -/
def hasRunningTool (procs : List ProcInfo) (sessionID : GoString) (rootPID : Int) : Bool :=
  procs.any fun p => !(p.sessionID ≠ sessionID || p.pid = rootPID) && p.state ≠ "Z"

/-- `secsSince` (`activity.go:171-177`), in nanoseconds. -/
def secsSince (now past : Int) : Int := if now - past < 0 then 0 else (now - past) / 10 ^ 9

/-- `observe` (`activity.go:77-87`) for one session: when it last had a tool running. -/
def observe (lastTool : Option Int) (running : Bool) (startedAt now : Int) : Int :=
  if running then now else lastTool.getD startedAt

/-- `ToolIdleSecs` of a report (`activity.go:134-145`) where `/proc` could be read. -/
def toolIdleSecs (procs : List ProcInfo) (sessionPIDs : List (GoString × Int))
    (sessionID : GoString) (rootPID : Int) (lastTool : Option Int) (startedAt now : Int) : Int :=
  secsSince now (observe lastTool
    (hasRunningTool (readProcesses procs sessionPIDs) sessionID rootPID) startedAt now)

/-! ## The nearest root -/

section Nearest

variable (procs : List ProcInfo) (sessionPIDs : List (GoString × Int))

/-- The process a parent link leads to. -/
def parent (p : ProcInfo) : Option ProcInfo :=
  if p.ppid ≤ 0 then none else byPID procs p.ppid

/-- Going up `n` links from `p`, the first process that is the root of a session is one of
`sid`, or no such process is met before the links end. -/
inductive Nearest : Nat → ProcInfo → Option GoString → Prop where
  | root {p : ProcInfo} {sid : GoString} (h : owner sessionPIDs p.pid = some sid) :
      Nearest 0 p (some sid)
  | top {p : ProcInfo} (h : owner sessionPIDs p.pid = none) (hp : parent procs p = none) :
      Nearest 0 p none
  | up {n : Nat} {p q : ProcInfo} {r : Option GoString} (h : owner sessionPIDs p.pid = none)
      (hp : parent procs p = some q) (hq : Nearest n q r) : Nearest (n + 1) p r

/-- No process is its own ancestor. -/
def Acyclic : Prop :=
  ∀ p, ¬Relation.TransGen (fun q p => p ∈ procs ∧ parent procs p = some q) p p

variable {procs sessionPIDs}

theorem mem_of_parent {p q : ProcInfo} (h : parent procs p = some q) : q ∈ procs := by
  unfold parent at h
  split at h
  · cases h
  · exact mem_reverse.mp (mem_of_find?_eq_some h)

/-- Without cycles every walk up the links ends. -/
theorem Acyclic.exists_nearest (h : Acyclic procs) {p : ProcInfo} (hp : p ∈ procs) :
    ∃ n r, Nearest procs sessionPIDs n p r := by
  let below : {p // p ∈ procs} → {p // p ∈ procs} → Prop :=
    fun q p => Relation.TransGen (fun q p => p ∈ procs ∧ parent procs p = some q) q.1 p.1
  have hwf : WellFounded below := by
    have : Finite {p // p ∈ procs} := (List.finite_toSet procs).to_subtype
    have : IsTrans _ below := ⟨fun _ _ _ => Relation.TransGen.trans⟩
    have : Std.Irrefl below := ⟨fun p => h p.1⟩
    exact Finite.wellFounded_of_trans_of_irrefl below
  induction hx : (⟨p, hp⟩ : {p // p ∈ procs}) using hwf.induction generalizing p with
  | _ x ih =>
    subst hx
    cases howner : owner sessionPIDs p.pid with
    | some sid => exact ⟨0, some sid, .root howner⟩
    | none =>
      cases hparent : parent procs p with
      | none => exact ⟨0, none, .top howner hparent⟩
      | some q =>
        obtain ⟨n, r, hq⟩ := ih ⟨q, mem_of_parent hparent⟩ (.single ⟨hp, hparent⟩) _ rfl
        exact ⟨n + 1, r, .up howner hparent hq⟩

/-- The walk finds the nearest root if it gets there. -/
theorem Nearest.walk_eq {n : Nat} {p : ProcInfo} {r : Option GoString}
    (h : Nearest procs sessionPIDs n p r) (depth : Nat) :
    walk procs sessionPIDs depth p = if n < depth then r.getD [] else [] := by
  induction h generalizing depth with
  | @root p sid hroot =>
    cases depth with
    | zero => rfl
    | succ depth => simp [walk, hroot]
  | @top p hnone hparent =>
    cases depth with
    | zero => rfl
    | succ depth =>
      unfold parent at hparent
      by_cases hpp : p.ppid ≤ 0
      · simp [walk, hnone, hpp]
      · rw [if_neg hpp] at hparent
        simp [walk, hnone, hparent]
  | @up n p q r hnone hparent _ ih =>
    cases depth with
    | zero => rfl
    | succ depth =>
      unfold parent at hparent
      split at hparent
      · cases hparent
      · rename_i hpp
        simp only [walk, hnone, if_neg hpp, hparent, ih, Nat.add_lt_add_iff_right]

theorem Nearest.mem {n : Nat} {p : ProcInfo} {sid : GoString}
    (h : Nearest procs sessionPIDs n p (some sid)) : ∃ pid, (sid, pid) ∈ sessionPIDs := by
  generalize hr : some sid = r at h
  induction h with
  | root hroot =>
    cases hr
    obtain ⟨⟨_, pid⟩, hfind, rfl⟩ := Option.map_eq_some_iff.mp hroot
    exact ⟨pid, mem_reverse.mp (mem_of_find?_eq_some hfind)⟩
  | top => cases hr
  | up _ _ _ ih => exact ih hr

end Nearest

theorem hasRunningTool_iff {procs : List ProcInfo} {sessionID : GoString} {rootPID : Int} :
    hasRunningTool procs sessionID rootPID = true ↔
      ∃ p ∈ procs, p.sessionID = sessionID ∧ p.pid ≠ rootPID ∧ p.state ≠ "Z" := by
  simp [hasRunningTool, and_assoc]

theorem mem_readProcesses {procs : List ProcInfo} {sessionPIDs : List (GoString × Int)}
    {p : ProcInfo} (hp : p ∈ procs) :
    { p with sessionID := attributeTo procs sessionPIDs p } ∈ readProcesses procs sessionPIDs := by
  unfold readProcesses
  rw [mem_mergeSort]
  exact mem_map_of_mem hp

/-- In a table without cycles every process is attributed to the nearest root exactly if no root
is 64 links or more above a process it is the nearest of; and a session does not become idle while
a process runs for which its root is the nearest, and closer than that. -/
theorem attribution_exact {procs : List ProcInfo} {sessionPIDs : List (GoString × Int)}
    (hacyclic : Acyclic procs) (hids : ∀ x ∈ sessionPIDs, x.1 ≠ []) :
    (∀ p ∈ procs, ∃ n r, Nearest procs sessionPIDs n p r) ∧
    ((∀ p ∈ procs, ∀ n r, Nearest procs sessionPIDs n p r →
        attributeTo procs sessionPIDs p = r.getD []) ↔
      ∀ p ∈ procs, ∀ n sid, Nearest procs sessionPIDs n p (some sid) → n < 64) ∧
    (∀ table sid root, hasRunningTool table sid root = true ↔
      ∃ p ∈ table, p.sessionID = sid ∧ p.pid ≠ root ∧ p.state ≠ "Z") ∧
    ∀ p ∈ procs, ∀ n sid, Nearest procs sessionPIDs n p (some sid) → n < 64 →
      ∀ root, p.pid ≠ root → p.state ≠ "Z" → ∀ lastTool startedAt now,
        toolIdleSecs procs sessionPIDs sid root lastTool startedAt now = 0 := by
  refine ⟨fun p hp => hacyclic.exists_nearest hp, ⟨?_, ?_⟩, fun _ _ _ => hasRunningTool_iff, ?_⟩
  · intro hright p hp n sid hn
    by_contra hdeep
    obtain ⟨pid, hmem⟩ := hn.mem
    have hsid := hright p hp n _ hn
    rw [attributeTo, hn.walk_eq, if_neg hdeep] at hsid
    exact hids _ hmem hsid.symm
  · intro hshallow p hp n r hn
    rw [attributeTo, hn.walk_eq]
    cases r with
    | none => exact ite_self _
    | some sid => rw [if_pos (hshallow p hp n sid hn)]
  · intro p hp n sid hn hshallow root hroot hstate lastTool startedAt now
    have hsid : attributeTo procs sessionPIDs p = sid := by
      rw [attributeTo, hn.walk_eq, if_pos hshallow]
      rfl
    have hbusy : hasRunningTool (readProcesses procs sessionPIDs) sid root = true :=
      hasRunningTool_iff.mpr ⟨_, mem_readProcesses hp, hsid, hroot, hstate⟩
    simp [toolIdleSecs, hbusy, observe, secsSince]

/-- The `n`-th process below the root of a session, each the child of the one before. -/
def link (n : Nat) : ProcInfo := ⟨n + 1, n, "sh", "S", 0, 0, [], [], []⟩

def chain (n : Nat) : List ProcInfo := (range n).map link

def chainSessions : List (GoString × Int) := [("s", 1)]

theorem acyclic_chain (n : Nat) : Acyclic (chain n) := by
  have hless : ∀ q p, Relation.TransGen (fun q p => p ∈ chain n ∧ parent (chain n) p = some q) q p →
      q.pid < p.pid := by
    intro q p h
    have hstep : ∀ q p, p ∈ chain n ∧ parent (chain n) p = some q → q.pid < p.pid := by
      rintro q p ⟨hp, hparent⟩
      obtain ⟨i, -, rfl⟩ := mem_map.mp hp
      unfold parent at hparent
      split at hparent
      · cases hparent
      · have hpid := find?_some hparent
        simp only [decide_eq_true_eq] at hpid
        rw [hpid]
        exact Int.lt_succ _
    induction h with
    | single h => exact hstep _ _ h
    | tail _ h ih => exact Int.lt_trans ih (hstep _ _ h)
  exact fun p h => Int.lt_irrefl _ (hless p p h)

theorem nearest_chain {n : Nat} (h : n < 65) :
    Nearest (chain 65) chainSessions n (link n) (some "s") := by
  have hparents : ∀ n < 64, parent (chain 65) (link (n + 1)) = some (link n) ∧
      owner chainSessions (link (n + 1)).pid = none := by decide +kernel
  induction n with
  | zero => exact .root (by decide)
  | succ n ih =>
    obtain ⟨hparent, howner⟩ := hparents n (by omega)
    exact .up howner hparent (ih (by omega))

theorem attribution_exact_link : attributeTo (chain 65) chainSessions (link 63) = "s" ∧
    toolIdleSecs (chain 65) chainSessions "s" 1 none 0 (10 ^ 12) = 0 := by
  have hall := @attribution_exact (chain 65) chainSessions (acyclic_chain 65) (by decide)
  refine ⟨by decide +kernel, ?_⟩
  exact hall.2.2.2 (link 63) (by decide) 63 _ (nearest_chain (by decide)) (by decide) 1
    (by decide) (by decide) none 0 (10 ^ 12)

/-- The 64th process below a root is attributed to no session. -/
theorem attribution_link_64 : Acyclic (chain 65) ∧ link 64 ∈ chain 65 ∧
    Nearest (chain 65) chainSessions 64 (link 64) (some "s") ∧
    attributeTo (chain 65) chainSessions (link 64) = [] :=
  ⟨acyclic_chain 65, by decide, nearest_chain (by decide), by decide +kernel⟩

end Lemul.Supervisor.Procfs
