import Lemul.MgmtApi.Footprint

/-!
# No branch of a workspace's disk is thrown away

A workspace's disk lives in a chain of snapshots: a task starts from the snapshot its
`StartWorkspace` names and leaves a new one when it is stopped. `DropSnapshot` throws one
away, which is harmless as long as the row names a descendant of it.

The reaper stops a task without taking the lock that `ensureWorkspace` holds
(`reaper.go:271`), and `ensureWorkspace` restores from the row copy its caller read
before it got the lock (`api.go:381`). So a replacement may start from a snapshot that is
no longer the newest by the time it is stopped itself; recording its disk then displaces
a snapshot it does not descend from.
-/

namespace Lemul.MgmtApi

open Store List System.Outline Workspaces Function Lemul.System

/-- Snapshot `y` was taken from a task that was started from `x`. -/
def TakenFrom (s : World) (y x : GoString) : Prop :=
  ∃ sn ∈ s.snapshots, sn.id = y ∧ ∃ t, s.tasks[sn.task]? = some t ∧ t.spec.snapshotID = x

/-- Snapshot `y` descends from `x`: it was taken from a task started from `x`, or from one
started from a snapshot descending from `x`. -/
inductive Descends (s : World) : GoString → GoString → Prop where
  | taken {y x : GoString} (h : TakenFrom s y x) : Descends s y x
  | step {y z x : GoString} (h : TakenFrom s y z) (rest : Descends s z x) : Descends s y x

/-- The requests of the cascade: placements, sweeps and dials on workspaces that are
neither created, renamed nor deleted meanwhile. -/
def cascadeRequest : Req → Bool
  | .ensure _ _ => true
  | .sweep _ _ _ _ => true
  | .dial _ _ _ _ => true
  | _ => false

/-- Every interleaving of such requests with tunnels, runners and replies coming and
going. -/
def cascade : World → Label Op Res EnvMove Req → Prop
  | _, .spawn q => cascadeRequest q = true
  | _, _ => True

instance (s : World) (l : Label Op Res EnvMove Req) : Decidable (cascade s l) := by
  cases l <;> unfold cascade <;> infer_instance

/-- `snapshot` is of a task placed by a call that read row `id` after the last snapshot
recorded on it. -/
def upToDate (s : World) (id snapshot : GoString) : Bool :=
  s.snapshots.any fun sn => sn.id = snapshot &&
    (s.tasks[sn.task]?).any fun t => t.origin = some ⟨id, (s.recorded id).length⟩

/-- The runs of the cascade in which every snapshot is up to date when it is recorded: no
other snapshot was recorded since the call that placed the stopped task read the row. -/
def upToDateCascade : World → Label Op Res EnvMove Req → Prop
  | s, .thread _ (.setWorkspaceSnapshot _ id snapshot) (.ok _) => upToDate s id snapshot = true
  | _, .spawn q => cascadeRequest q = true
  | _, _ => True

instance (s : World) (l : Label Op Res EnvMove Req) : Decidable (upToDateCascade s l) := by
  unfold upToDateCascade
  split <;> infer_instance

/-! ## The chain of snapshots -/

/-- What the row names after the snapshots `log` were recorded on it. -/
def current (log : List GoString) : GoString := log.getLast?.getD []

/-- `base` is what row `id` named when `origin` was read. -/
def RestoredFrom (log : List GoString) (id : GoString) (origin : Option Reading)
    (base : GoString) : Prop :=
  ∃ v ≤ log.length, origin = some ⟨id, v⟩ ∧ base = current (log.take v)

/-- The lineage invariant of the workspace `id`. -/
structure Lineage (id : GoString) (s : World) : Prop where
  row : ∀ w ∈ s.cell.rows, w.id = id ∧ derefOr w.snapshotID = current (s.recorded id)
  chain : (s.recorded id).IsChain fun x y => TakenFrom s y x
  task : ∀ t ∈ s.tasks, RestoredFrom (s.recorded id) id t.origin t.spec.snapshotID
  stream : ∀ st ∈ s.streams, ∀ m, st.command = .startWorkspace m →
    RestoredFrom (s.recorded id) id st.origin m.snapshotID

variable {s : World} {tenantID snapshot id : GoString}

variable {y x name : GoString} {disk : PreserveDisk} {log : List GoString}

theorem TakenFrom.grows {s' : World} (hg : s.Grows s')
    (h : TakenFrom s y x) : TakenFrom s' y x := by
  obtain ⟨sn, hsn, hid, t, ht, hbase⟩ := h
  obtain ⟨sn', hsn', hid', htask'⟩ := hg.snapshot sn hsn
  obtain ⟨t', ht', hspec, -⟩ := hg.task sn.task t ht
  exact ⟨sn', hsn', hid'.trans hid, t', htask' ▸ ht', hspec ▸ hbase⟩

theorem RestoredFrom.grown {log' : List GoString} {origin : Option Reading} {base : GoString}
    (hp : log <+: log')
    (h : RestoredFrom log id origin base) : RestoredFrom log' id origin base := by
  obtain ⟨v, hv, horigin, hbase⟩ := h
  obtain ⟨rest, rfl⟩ := hp
  refine ⟨v, ?_, horigin, ?_⟩
  · rw [length_append]
    omega
  · rw [take_append_of_le_length hv]
    exact hbase

/-- In a chain of snapshots every later one descends from every earlier one. -/
theorem descends_of_chain (hchain : (log ++ [y]).IsChain fun x y => TakenFrom s y x)
    (hx : x ∈ log) :
    Descends s y x := by
  induction log using reverseRecOn generalizing y with
  | nil => cases hx
  | append_singleton log z ih =>
    obtain ⟨hbefore, hlink⟩ : (log ++ [z]).IsChain (fun x y => TakenFrom s y x) ∧
        TakenFrom s y z := by
      rw [isChain_append] at hchain
      obtain ⟨hleft, -, hjoin⟩ := hchain
      exact ⟨hleft, hjoin z (by simp) y (by simp)⟩
    rcases mem_concat.mp hx with hold | rfl
    · exact .step hlink (ih hbefore hold)
    · exact .taken hlink

/-- What the row names descends from whatever it named before. -/
theorem Lineage.descends (h : Lineage id s) {v : Nat} (hv : v < (s.recorded id).length)
    (hne : current ((s.recorded id).take v) ≠ []) :
    Descends s (current (s.recorded id)) (current ((s.recorded id).take v)) := by
  obtain ⟨log, y, hlog⟩ : ∃ log y, s.recorded id = log ++ [y] := by
    have hnil : s.recorded id ≠ [] := by
      intro hnil
      rw [hnil] at hv
      exact absurd hv (Nat.not_lt_zero v)
    exact ⟨_, _, (dropLast_append_getLast hnil).symm⟩
  have hcurrent : current (s.recorded id) = y := by simp [current, hlog]
  have hlen : v ≤ log.length := by
    rw [hlog, length_append, length_singleton] at hv
    omega
  have htake : (s.recorded id).take v = log.take v := by
    rw [hlog, take_append_of_le_length hlen]
  rw [hcurrent, htake]
  rw [htake] at hne
  refine descends_of_chain (hlog ▸ h.chain) ?_
  unfold current at hne ⊢
  cases hlast : (log.take v).getLast? with
  | none => exact absurd (by rw [hlast]; rfl) hne
  | some x => exact mem_of_mem_take (mem_of_getLast? hlast)

/-! ## One step -/

/-- What a thread must know before an operation: a task is started from what the row it
read named, and what is dropped is something the row named before. -/
def LineagePre (id : GoString) (tid : Nat) (o : Op) (s : World) : Prop :=
  match o with
  | .createWorkspace _ _ _ _ => False
  | .send _ (.startWorkspace m) => RestoredFrom (s.recorded id) id (s.reading tid) m.snapshotID
  | .send _ (.dropSnapshot p) =>
      p ≠ [] ∧ ∃ v < (s.recorded id).length, p = current ((s.recorded id).take v)
  | _ => True

theorem LineagePre.creates {tid : Nat} {o : Op}
    (h : LineagePre id tid o s) : o.creates = false := by
  cases o <;> first | rfl | exact h.elim

theorem upToDate_iff :
    upToDate s id snapshot = true ↔ ∃ sn ∈ s.snapshots, sn.id = snapshot ∧
      ∃ t, s.tasks[sn.task]? = some t ∧ t.origin = some ⟨id, (s.recorded id).length⟩ := by
  simp only [upToDate, any_eq_true, Bool.and_eq_true, decide_eq_true_eq,
    Option.any_eq_true]

variable {id : GoString} {tid : Nat} {o : Op} {r : Res o} {s s' : World}

/-- An operation that records nothing keeps the lineage. -/
theorem Lineage.op (hinv : Lineage id s) (hpre : LineagePre id tid o s)
    (ho : o.records = false) (h : exec tid o r s = some s') : Lineage id s' := by
  have hrecorded := (exec_frame h).recorded ho
  refine ⟨?_, ?_, ?_, ?_⟩
  · intro w' hw'
    obtain ⟨w, hw, hfrom⟩ := exec_row h hpre.creates hw'
    obtain ⟨hid, hsnapshot⟩ := hinv.row w hw
    rw [hfrom.id, hfrom.snapshotID ho, hrecorded]
    exact ⟨hid, hsnapshot⟩
  · rw [hrecorded]
    exact hinv.chain.imp fun _ _ hlink => hlink.grows (exec_grows h)
  · rw [hrecorded, (exec_frame h).tasks]
    exact hinv.task
  · rw [hrecorded]
    intro st hst m hm
    by_cases hsend : o.sends = false
    · exact hinv.stream st ((exec_frame h).streams hsend ▸ hst) m hm
    · cases o <;> try exact absurd rfl hsend
      rcases exec_send h hst with hold | rfl
      · exact hinv.stream st hold m hm
      · cases hm
        exact hpre

/-- Recording a snapshot that is up to date adds a link to the chain. -/
theorem Lineage.record {i : GoString} {r : Res (.setWorkspaceSnapshot tenantID i snapshot)}
    (hinv : Lineage id s)
    (hcond : upToDateCascade s (.thread tid (.setWorkspaceSnapshot tenantID i snapshot) r))
    (h : exec tid (.setWorkspaceSnapshot tenantID i snapshot) r s = some s') :
    Lineage id s' := by
  have hgrows := exec_grows h
  simp only [exec] at h
  split at h
  · cases h
    exact hinv
  · split at h
    · cases h
    · rename_i w hw
      obtain ⟨hmem, hwid, -⟩ := getWorkspace_eq_some.mp hw
      obtain rfl : i = id := hwid.symm.trans (hinv.row w hmem).1
      cases h
      have hlonger : s.recorded i <+: s.recorded i ++ [snapshot] := prefix_append _ _
      have hlog : update s.recorded i (s.recorded i ++ [snapshot]) i =
          s.recorded i ++ [snapshot] := update_self _ _ _
      refine ⟨?_, ?_, ?_, ?_⟩
      · intro w' hw'
        obtain ⟨v, hv, rfl⟩ := mem_map.mp hw'
        have hrow : v.isRow tenantID i = true := by
          rw [eq_of_id hv hmem ((hinv.row v hv).1.trans hwid.symm)]
          exact Workspace.isRow_iff.mpr (getWorkspace_eq_some.mp hw).2
        rw [rewrite_of_isRow hrow]
        refine ⟨(hinv.row v hv).1, ?_⟩
        simp [current]
      · dsimp only
        rw [hlog]
        refine List.IsChain.append (hinv.chain.imp fun _ _ hlink => hlink.grows hgrows)
          (isChain_singleton _) ?_
        intro x hx y hy
        obtain rfl : y = snapshot := by simpa using hy.symm
        obtain ⟨sn, hsn, hid, t, ht, horigin⟩ := upToDate_iff.mp hcond
        obtain ⟨v, -, hv, hbase⟩ := hinv.task t (mem_of_getElem? ht)
        cases horigin.symm.trans hv
        refine TakenFrom.grows hgrows ⟨sn, hsn, hid, t, ht, ?_⟩
        rw [hbase, take_length]
        simp [current, Option.mem_def.mp hx]
      · intro t ht
        dsimp only
        rw [hlog]
        exact (hinv.task t ht).grown hlonger
      · intro st hst m hm
        dsimp only
        rw [hlog]
        exact (hinv.stream st hst m hm).grown hlonger

/-- The environment keeps the lineage. -/
theorem Lineage.env {d : Driver} {e : EnvMove} (hinv : Lineage id s)
    (h : envStep d e s = some s') : Lineage id s' := by
  have hframe := envStep_untouched h
  have htraced := envStep_traced h
  refine ⟨?_, ?_, ?_, ?_⟩
  · rw [hframe.cell, hframe.recorded]
    exact hinv.row
  · rw [hframe.recorded]
    exact hinv.chain.imp fun _ _ hlink => hlink.grows (envStep_grows h)
  · rw [hframe.recorded]
    intro t' ht'
    rcases htraced.task t' ht' with ⟨t, ht, hspec, horigin⟩ | ⟨st, hst, hcommand, horigin⟩
    · rw [← hspec, ← horigin]
      exact hinv.task t ht
    · rw [← horigin]
      exact hinv.stream st hst _ hcommand
  · rw [hframe.recorded]
    intro st' hst' m hm
    obtain ⟨st, hst, hcommand, horigin⟩ := htraced.stream st' hst'
    rw [← horigin]
    exact hinv.stream st hst m (hcommand.trans hm)

/-! ## Every handler -/

/-- The proof outline: besides the invariant, a thread relies on its own reading and on
what was recorded staying recorded. -/
def lineageOutline (cfg : Config) (id : GoString) :
    Outline (system cfg) upToDateCascade where
  inv := Lineage id
  rely tid s s' := s'.reading tid = s.reading tid ∧ s.recorded id <+: s'.recorded id
  pre := LineagePre id
  post _ _ _ := True
  rely_refl _ _ := ⟨rfl, List.prefix_refl _⟩
  rely_trans _ _ _ _ h₁ h₂ := ⟨h₂.1.trans h₁.1, h₁.2.trans h₂.2⟩
  op_ok := by
    intro tid o r s s' hinv hpre hcond h
    refine ⟨?_, fun other hne => ⟨(exec_frame h).readings _ hne, exec_recorded_grows h id⟩⟩
    by_cases ho : o.records = false
    · exact hinv.op hpre ho h
    · cases o <;> try exact absurd rfl ho
      exact hinv.record hcond h
  env_ok := by
    intro e s s' hinv _ h
    have hframe := envStep_untouched h
    refine ⟨hinv.env h, fun tid => ⟨congrFun hframe.reading tid, ?_⟩⟩
    rw [hframe.recorded]

variable {cfg : Config} {sc : Scope} {ws : Workspace}

/-- Thread `tid` works on a copy of the row, and its reading says from when. -/
def Copied (id : GoString) (tid : Nat) (ws : Workspace) (s : World) : Prop :=
  ws.id = id ∧ RestoredFrom (s.recorded id) id (s.reading tid) (derefOr ws.snapshotID)

theorem Copied.of_rely (h : Copied id tid ws s) (hreading : s'.reading tid = s.reading tid)
    (hrecorded : s.recorded id <+: s'.recorded id) : Copied id tid ws s' :=
  ⟨h.1, hreading ▸ h.2.grown hrecorded⟩

theorem copied_of_read (hinv : Lineage id s)
    (h : exec tid (.getWorkspaceByName tenantID name) (.ok ws) s = some s') :
    Copied id tid ws s' := by
  simp only [exec] at h
  split at h <;> cases h
  rename_i hrow
  obtain ⟨hid, hsnapshot⟩ := hinv.row ws (getWorkspaceByName_eq_some.mp hrow).1
  refine ⟨hid, (s.recorded id).length, Nat.le_refl _, ?_, ?_⟩
  · simp [hid]
  · rw [take_length]
    exact hsnapshot

/-- `ensureWorkspace` starts tasks from the copy it was given. -/
theorem ensureWorkspace_lineage (hcopied : Copied id tid ws s) :
    (lineageOutline cfg id).Safe tid (ensureWorkspace cfg sc ws) (fun _ _ => True) s := by
  refine .mono (fun _ _ _ => trivial) <|
    safe_of_performs (K := Copied id tid ws) ensureWorkspace_performs
      ?_ (exec_answered tid) ?_ ?_ hcopied
  · intro s s' hrely hK
    exact hK.of_rely hrely.1 hrely.2
  · intro o s ho _ hK
    cases o <;> first | trivial | exact ho.elim | skip
    obtain ⟨gen, -, rfl⟩ := ho
    exact hK.2
  · intro o r s s' ho h hK
    exact hK.of_rely (congrFun ((exec_frame h).reading ho.reads) tid) (exec_recorded_grows h id)

/-- A program none of whose operations starts a task, drops a snapshot or inserts a row
has nothing to prove. -/
theorem quiet_lineage {β : Type} {p : Api β}
    (hp : p.Performs Answered (fun o => ∀ s, LineagePre id tid o s)) :
    (lineageOutline cfg id).Safe tid p (fun _ _ => True) s :=
  safe_of_performs (K := fun _ => True) hp (fun _ _ _ _ => trivial)
    (exec_answered tid) (fun _ s ho _ _ => ho s) (fun _ _ _ _ _ _ _ => trivial) trivial

/-- `p` is something the row `id` named before. -/
def Superseded (id p : GoString) (s : World) : Prop :=
  ∃ v < (s.recorded id).length, p = current ((s.recorded id).take v)

theorem Superseded.grown {p : GoString} (h : Superseded id p s)
    (hrecorded : s.recorded id <+: s'.recorded id) : Superseded id p s' := by
  obtain ⟨v, hv, hp⟩ := h
  obtain ⟨rest, hrest⟩ := hrecorded
  refine ⟨v, ?_, ?_⟩
  · rw [← hrest, length_append]
    omega
  · rw [← hrest, take_append_of_le_length (Nat.le_of_lt hv)]
    exact hp

/-- What `setWorkspaceSnapshot` hands back was displaced. -/
theorem setWorkspaceSnapshot_lineage {i : GoString} :
    (lineageOutline cfg id).Safe tid (MgmtApi.setWorkspaceSnapshot tenantID i snapshot)
      (fun r s => ∀ p, r = .ok p → p ≠ [] → Superseded id p s) s := by
  refine safe_call fun s₁ _ hinv₁ => ⟨trivial, fun before s₂ hread _ hinv₂ => ?_⟩
  cases before with
  | error e => exact nofun
  | ok before =>
    refine safe_call fun s₃ hrely _ => ⟨trivial, fun written s₄ hwrite _ _ => ?_⟩
    cases written with
    | error e => exact nofun
    | ok u =>
      dsimp only
      split
      · rintro p ⟨⟩ hne
        exact absurd rfl hne
      · rintro p ⟨⟩ -
        obtain ⟨hrow, rfl⟩ := exec_getWorkspace hread
        obtain ⟨hmem, hi, -⟩ := getWorkspace_eq_some.mp hrow
        obtain ⟨hid, hsnapshot⟩ := hinv₁.row before hmem
        have hlog := exec_setWorkspaceSnapshot hwrite
        rw [← hi, hid] at hlog
        obtain ⟨more, hmore⟩ := hrely.2
        -- it was current when it was read, and the write has made a newer one since
        refine ⟨(s₂.recorded id).length, ?_, ?_⟩
        · rw [hlog, ← hmore, length_append, length_append, length_singleton]
          omega
        · rw [hlog, ← hmore, append_assoc, take_left]
          exact hsnapshot

/-- `dropSnapshot` only collects what the row named before. -/
theorem dropSnapshot_lineage {p : GoString} (hne : p ≠ []) (hp : Superseded id p s) :
    (lineageOutline cfg id).Safe tid (dropSnapshot tenantID p) (fun _ _ => True) s := by
  have hops : (dropSnapshot tenantID p).Performs Answered
      (fun o => ∀ s, Superseded id p s → LineagePre id tid o s) := by
    refine .perform (fun _ _ => trivial) fun runner _ => ?_
    cases runner with
    | none => trivial
    | some runner =>
      exact (command_performs (fun _ h => ⟨hne, h⟩) (fun _ _ _ => trivial)).bind fun _ => trivial
  refine .mono (fun _ _ _ => trivial) <|
    safe_of_performs (K := Superseded id p) hops ?_ (exec_answered tid)
      (fun o s ho _ hK => ho s hK) ?_ hp
  · intro s s' hrely hK
    exact hK.grown hrely.2
  · intro o r s s' _ h hK
    exact hK.grown (exec_recorded_grows h id)

theorem record_lineage :
    (lineageOutline cfg id).Safe tid (disk.record tenantID snapshot) (fun _ _ => True) s := by
  cases disk with
  | dropDisk => trivial
  | keepDisk tenant i =>
    unfold PreserveDisk.record
    dsimp only
    split
    · trivial
    · refine .bind (setWorkspaceSnapshot_lineage.mono ?_)
      intro displaced s' hdisplaced
      cases displaced with
      | error e => trivial
      | ok previous =>
        dsimp only
        split
        · trivial
        · rename_i hne
          exact dropSnapshot_lineage hne (hdisplaced previous rfl hne)

theorem stopTask_lineage {ref : GoString} :
    (lineageOutline cfg id).Safe tid (stopTask tenantID name ref disk) (fun _ _ => True) s := by
  unfold stopTask
  split
  · trivial
  · refine safe_call fun s₁ _ _ => ⟨trivial, fun runner s₂ _ _ _ => ?_⟩
    cases runner with
    | none => trivial
    | some runner =>
      have hcommand : (command runner (.stopWorkspace ⟨name, ref, disk.wanted⟩)).Performs
          Answered (fun o => ∀ s, LineagePre id tid o s) :=
        command_performs (fun _ => trivial) (fun _ _ => trivial)
      refine .bind ((quiet_lineage hcommand).mono fun reply s' _ => ?_)
      cases reply with
      | error e => trivial
      | ok reply =>
        cases reply with
        | error message => trivial
        | ref ref | stopped snapshot | other => exact record_lineage

theorem sweepWorkspace_lineage {sessions now : Nat} :
    (lineageOutline cfg id).Safe tid (sweepWorkspace tenantID name sessions now)
      (fun _ _ => True) s := by
  refine safe_call fun s₁ _ _ => ⟨trivial, fun row s₂ _ _ _ => ?_⟩
  cases row with
  | error e => trivial
  | ok ws =>
    dsimp only
    unfold advanceWarmHold
    split
    · split
      · trivial
      · exact quiet_lineage ⟨fun _ => trivial, fun _ _ => trivial⟩
    · split
      · exact quiet_lineage ⟨fun _ => trivial, fun _ _ => trivial⟩
      · split
        · trivial
        · refine .bind (stopTask_lineage.mono fun _ s' _ => ?_)
          exact quiet_lineage
            ⟨fun _ => trivial, fun _ _ => ⟨fun _ => trivial, fun _ _ => trivial⟩⟩

/-- Every request of the cascade meets its obligations. -/
theorem spawn_lineage {q : Req} {p : Api Outcome} (hq : cascadeRequest q = true)
    (h : spawn cfg q s = some p) :
    (lineageOutline cfg id).Safe tid p ((lineageOutline cfg id).post tid) s := by
  cases q with
  | ensure sc name =>
    cases h
    refine safe_call fun s₁ _ hinv₁ => ⟨trivial, fun row s₂ hread _ _ => ?_⟩
    cases row with
    | error e =>
      dsimp only
      split <;> trivial
    | ok ws =>
      exact .bind ((ensureWorkspace_lineage (copied_of_read hinv₁ hread)).mono
        fun _ _ _ => trivial)
  | sweep tenantID name sessions now =>
    cases h
    exact .bind (sweepWorkspace_lineage.mono fun _ _ _ => trivial)
  | dial task tenant workspace version =>
    obtain ⟨t, -, rfl⟩ := spawn_dial h
    refine quiet_lineage ((handleWorkspaceTunnel_performs _ _).mono fun o ho s => ?_)
    cases o <;> trivial
  | _ => cases hq

/-! ## Every run -/

theorem lineage_boot {cell : Workspaces} {w : Workspace} (hrow : cell.rows = [w])
    (hblank : w.snapshotID = none) : Lineage w.id (World.init cell) := by
  refine ⟨?_, isChain_nil, ?_, ?_⟩
  · intro v hv
    rw [show v = w by simpa [World.init, hrow] using hv, hblank]
    exact ⟨rfl, rfl⟩
  · exact nofun
  · exact nofun

/-- On a workspace that starts out blank, in every run of placements, sweeps and dials in
which each snapshot is up to date when it is recorded: whenever the control plane sends
`DropSnapshot p`, the snapshot the row names at that moment descends from `p`. -/
theorem dropSnapshot_descends (cfg : Config) {cell : Workspaces} {w : Workspace}
    (hrow : cell.rows = [w]) (hblank : w.snapshotID = none)
    {tr : Schedule} {pool next : ApiPool} {tid : Nat}
    {runner : Tunnel} {p : GoString} {r : Res (.send runner (.dropSnapshot p))}
    (hrun : Path (system cfg) upToDateCascade (boot cell) tr pool)
    (hstep : Step (system cfg) pool (.thread tid (.send runner (.dropSnapshot p)) r) next) :
    ∀ v ∈ pool.shared.cell.rows, Descends pool.shared (derefOr v.snapshotID) p := by
  have hstart : (lineageOutline cfg w.id).Holds (boot cell) :=
    ⟨lineage_boot hrow hblank, nofun⟩
  have hholds := (lineageOutline cfg w.id).sound
    (fun _ _ _ _ _ hq h => spawn_lineage hq h) hstart hrun
  have hinv : Lineage w.id pool.shared := hholds.1
  obtain ⟨hne, v, hv, rfl⟩ :
      p ≠ [] ∧ ∃ v < (pool.shared.recorded w.id).length,
        p = current ((pool.shared.recorded w.id).take v) :=
    pre_of_step hholds hstep
  intro u hu
  rw [(hinv.row u hu).2]
  exact hinv.descends hv hne

/-! ## The branch that is lost -/

/-- Task 1 is placed on a blank disk, idles out its warm hold, and the reaper asks the
runner to stop it. -/
def firstTask : Schedule :=
  ([.env (.runnerUp "acme" "runner"),
     .spawn (.ensure demoScope "api"),
     .thread 0 (.getWorkspaceByName "acme" "api") (.ok demoRow),
     .thread 0 (.lock (lockKey demoScope demoRow)) (),
     .thread 0 (.pickWorkspace demoKey) none] : Schedule) ++
  demoDispatch 0 demoRow 1 0 ++
  ([.env (.handle 0 (.placed "task-1"))] : Schedule) ++
  demoArrival 0 demoRow 0 "task-1" 0 1 0 1 (demoRowAt 1 .starting (some "task-1") none none) ++
  ([.spawn (.sweep "acme" "api" 0 0),
     .thread 2 (.getWorkspaceByName "acme" "api")
       (.ok (demoRowAt 1 .active (some "task-1") none none)),
     .thread 2 (.setWarmHold "acme" "w1" (some 3600)) (.ok ()),
     .spawn (.sweep "acme" "api" 0 3600),
     .thread 3 (.getWorkspaceByName "acme" "api")
       (.ok (demoRowAt 1 .active (some "task-1") (some 3600) none)),
     .thread 3 (.pickRunner "acme") (some demoRunner),
     .thread 3 (.send demoRunner (.stopWorkspace ⟨"api", "task-1", true⟩)) (.ok 1)] :
    Schedule)

/-- The reaper records what the stop of `ref` preserved; `previous` is what it displaced. -/
def recordStop (tid sid : Nat) (snapshot : GoString) (before : Workspace) :
    Schedule :=
  [.thread tid (.recv sid) (.ok (.stopped snapshot)),
    .thread tid (.getWorkspace "acme" "w1") (.ok before),
    .thread tid (.setWorkspaceSnapshot "acme" "w1" snapshot) (.ok ())]

def finishStop (tid : Nat) : Schedule :=
  [.thread tid (.setWorkspaceStatus "acme" "w1" .stopped []) (.ok ()),
    .thread tid (.setWarmHold "acme" "w1" none) (.ok ())]

/-- Task 1 stops and its tunnel goes; while its disk is being preserved a request finds no
tunnel, waits out the grace period and places task 2 from the row it read, which names no
snapshot yet. Then the reaper records the snapshot of task 1. -/
def replacedMeanwhile : Schedule :=
  ([.env (.tunnelDown 1),
     .thread 1 (.drainEvents (demoTunnel 1)) (),
     .thread 1 (.removeWorkspace (demoTunnel 1)) (),
     .spawn (.ensure demoScope "api"),
     .thread 4 (.getWorkspaceByName "acme" "api")
       (.ok (demoRowAt 1 .active (some "task-1") (some 3600) none)),
     .thread 4 (.lock (lockKey demoScope demoRow)) (),
     .thread 4 (.pickWorkspace demoKey) none,
     .thread 4 (.waitWorkspace demoKey) (.inr 1),
     .thread 4 (.receive demoKey 1) (.error "context deadline exceeded")] : Schedule) ++
  demoDispatch 4 (demoRowAt 1 .active (some "task-1") (some 3600) none) 2 2 ++
  ([.env (.handle 2 (.placed "task-2")),
     .env (.handle 1 (.stopped (.ok "vol-1") (.ok "snap-1")))] : Schedule) ++
  recordStop 3 1 "snap-1" (demoRowAt 2 .starting none (some 3600) none) ++
  finishStop 3 ++
  demoArrival 4 demoRow 2 "task-2" 2 5 1 2
    (demoRowAt 2 .starting (some "task-2") none (some "snap-1"))

/-- Task 2 idles out in turn, and the snapshot of its disk displaces that of task 1. -/
def secondStop : Schedule :=
  ([.spawn (.sweep "acme" "api" 0 5000),
     .thread 6 (.getWorkspaceByName "acme" "api")
       (.ok (demoRowAt 2 .active (some "task-2") none (some "snap-1"))),
     .thread 6 (.setWarmHold "acme" "w1" (some 8600)) (.ok ()),
     .spawn (.sweep "acme" "api" 0 8600),
     .thread 7 (.getWorkspaceByName "acme" "api")
       (.ok (demoRowAt 2 .active (some "task-2") (some 8600) (some "snap-1"))),
     .thread 7 (.pickRunner "acme") (some demoRunner),
     .thread 7 (.send demoRunner (.stopWorkspace ⟨"api", "task-2", true⟩)) (.ok 3),
     .env (.handle 3 (.stopped (.ok "vol-2") (.ok "snap-2")))] : Schedule) ++
  recordStop 7 3 "snap-2" (demoRowAt 2 .active (some "task-2") (some 8600) (some "snap-1")) ++
  ([.thread 7 (.pickRunner "acme") (some demoRunner)] : Schedule)

/-- What is descended from was started from. -/
theorem Descends.started (h : Descends s y x) :
    ∃ t ∈ s.tasks, t.spec.snapshotID = x := by
  induction h with
  | taken h =>
    obtain ⟨sn, -, -, t, ht, hbase⟩ := h
    exact ⟨t, mem_of_getElem? ht, hbase⟩
  | step _ _ ih => exact ih

def lostBranch : ApiPool :=
  final (system demoConfig) cascade (boot demoCell)
    (firstTask ++ replacedMeanwhile ++ secondStop)

/-- The control plane drops the snapshot of task 1 while the row names that of task 2,
which was never started from it: what task 1 left behind is gone. -/
theorem cascade_loses_branch :
    ∃ (tr : Schedule) (pool next : ApiPool),
      Path (system demoConfig) cascade (boot demoCell) tr pool ∧
      Step (system demoConfig) pool
        (.thread 7 (.send demoRunner (.dropSnapshot "snap-1")) (.ok 4)) next ∧
      ∃ w ∈ pool.shared.cell.rows,
        ¬Descends pool.shared (derefOr w.snapshotID) "snap-1" := by
  have hrun : Path (system demoConfig) cascade (boot demoCell) _ lostBranch :=
    final_path (by decide +kernel)
  obtain ⟨next, hnext⟩ : ∃ next, Step (system demoConfig) lostBranch
      (.thread 7 (.send demoRunner (.dropSnapshot "snap-1")) (.ok 4)) next :=
    exists_step (by decide +kernel)
  have hrow : demoRowAt 2 .active (some "task-2") (some 8600) (some "snap-2") ∈
      lostBranch.shared.cell.rows := by decide +kernel
  have hblank : ∀ t ∈ lostBranch.shared.tasks, t.spec.snapshotID ≠ "snap-1" := by
    decide +kernel
  refine ⟨_, lostBranch, next, hrun, hnext, _, hrow, fun hdescends => ?_⟩
  obtain ⟨t, ht, hbase⟩ := hdescends.started
  exact hblank t ht hbase

/-- The same two tasks one after the other: task 1 is stopped and its snapshot recorded
before the row is read again. -/
def replacedAfterwards : Schedule :=
  ([.env (.handle 1 (.stopped (.ok "vol-1") (.ok "snap-1"))),
     .env (.tunnelDown 1),
     .thread 1 (.drainEvents (demoTunnel 1)) (),
     .thread 1 (.removeWorkspace (demoTunnel 1)) ()] : Schedule) ++
  recordStop 3 1 "snap-1" (demoRowAt 1 .active (some "task-1") (some 3600) none) ++
  finishStop 3 ++
  ([.spawn (.ensure demoScope "api"),
     .thread 4 (.getWorkspaceByName "acme" "api")
       (.ok (demoRowAt 1 .stopped none none (some "snap-1"))),
     .thread 4 (.lock (lockKey demoScope demoRow)) (),
     .thread 4 (.pickWorkspace demoKey) none] : Schedule) ++
  demoDispatch 4 (demoRowAt 1 .stopped none none (some "snap-1")) 2 2 ++
  ([.env (.handle 2 (.placed "task-2"))] : Schedule) ++
  demoArrival 4 demoRow 2 "task-2" 1 5 1 2
    (demoRowAt 2 .starting (some "task-2") none (some "snap-1"))

def keptBranch : ApiPool :=
  final (system demoConfig) upToDateCascade (boot demoCell)
    (firstTask ++ replacedAfterwards ++ secondStop)

theorem dropSnapshot_descends_kept :
    (∃ tr, Path (system demoConfig) upToDateCascade (boot demoCell) tr keptBranch) ∧
    ∀ v ∈ keptBranch.shared.cell.rows,
      Descends keptBranch.shared (derefOr v.snapshotID) "snap-1" := by
  have hrun : Path (system demoConfig) upToDateCascade (boot demoCell) _ keptBranch :=
    final_path (by decide +kernel)
  obtain ⟨next, hnext⟩ : ∃ next, Step (system demoConfig) keptBranch
      (.thread 7 (.send demoRunner (.dropSnapshot "snap-1")) (.ok 4)) next :=
    exists_step (by decide +kernel)
  exact ⟨⟨_, hrun⟩, dropSnapshot_descends demoConfig rfl rfl hrun hnext⟩

end Lemul.MgmtApi
