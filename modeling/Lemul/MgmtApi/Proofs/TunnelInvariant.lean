import Lemul.MgmtApi.Footprint

/-!
# Which task a tunnel belongs to

The registry is keyed by organization and name (`registry.go:85-88`). A tunnel is checked
against the row's generation once, when its task dials in (`tunnels.go:151`), and is
registered in a later step; a name can be given to a new record, and a record's generation
advances while tunnels of the old one are up or on their way. `boundSteps` says in which
steps none of that happens, and the invariant below is what then holds.
-/

namespace Lemul.MgmtApi

open Store List

/-- The task at the far end of a tunnel. -/
def taskOf (s : World) (t : Tunnel) : Option Task :=
  match s.sessions[t.sess]? with
  | some (.task i) => s.tasks[i]?
  | _ => none

/-- Tunnel `t` belongs to a task that was placed for the record `ws` and for the
generation its row holds. -/
def PlacedFor (s : World) (t : Tunnel) (ws : Workspace) : Prop :=
  ∃ task, taskOf s t = some task ∧ task.origin.map (·.id) = some ws.id ∧
    ∀ row ∈ s.cell.rows, row.id = ws.id → row.generation = task.spec.generation

/-! ## The steps that keep tunnels bound -/

/-- The row of the tunnel's name is the record, at the generation, its task was placed
for. -/
def taskCurrent (s : World) (t : Tunnel) : Bool :=
  match taskOf s t, s.cell.getWorkspaceByName t.tenantID t.workspaceName with
  | some task, some row =>
      task.origin.map (·.id) = some row.id && row.generation = task.spec.generation
  | _, _ => false

/-- The record thread `tid` was given is still there. -/
def recordExists (s : World) (tid : Nat) : Prop :=
  ∃ row ∈ s.cell.rows, (s.reading tid).map (·.id) = some row.id

instance (s : World) (tid : Nat) : Decidable (recordExists s tid) :=
  inferInstanceAs (Decidable (∃ row ∈ s.cell.rows, _))

/-- The steps of runs without renames in which
* `AddWorkspace`, at each of its steps, finds the row of that name to be still the record
  and the generation the task was placed for;
* a generation is taken, or a name given to a new record, only while no tunnel is
  registered under the name;
* `ensureWorkspace` takes a tunnel only while the record it was given exists. -/
def boundSteps : World → Label Op Res EnvMove Req → Prop
  | _, .spawn (.rename _ _ _) => False
  | s, .thread _ (.addWorkspace t) _ => taskCurrent s t = true
  | s, .thread _ (.notify _ t) _ => taskCurrent s t = true
  | s, .thread _ (.nextGeneration tenantID id) (.ok _) =>
      ∀ row ∈ s.cell.rows, row.id = id → row.tenantID = tenantID →
        s.reg.workspaces ⟨tenantID, row.name⟩ = []
  | s, .thread _ (.createWorkspace tenantID name _ _) (.ok _) =>
      s.reg.workspaces ⟨tenantID, name⟩ = []
  | s, .thread tid (.pickWorkspace _) (some _) => recordExists s tid
  | s, .thread tid (.waitWorkspace _) (.inl _) => recordExists s tid
  | s, .thread tid (.receive _ _) (.ok _) => recordExists s tid
  | _, _ => True

instance (s : World) (l : Label Op Res EnvMove Req) : Decidable (boundSteps s l) := by
  induction l using Label.casesOn with
  | spawn q => induction q using Req.casesOn <;> dsimp only [boundSteps] <;> infer_instance
  | thread tid o r =>
    induction o using Op.casesOn <;> first
      | (dsimp only [boundSteps]; infer_instance)
      | (induction r using Except.casesOn <;> dsimp only [boundSteps] <;> infer_instance)
      | (induction r using Option.casesOn <;> dsimp only [boundSteps] <;> infer_instance)
      | (induction r using Sum.casesOn <;> dsimp only [boundSteps] <;> infer_instance)
  | env e => exact isTrue trivial

/-! ## The invariant -/

/-- `task` is the one that the row of key `k`, if there is one, was last given. -/
def Serves (s : World) (task : Task) (k : WsKey) : Prop :=
  ∀ row ∈ s.cell.rows, row.tenantID = k.tenantID → row.name = k.name →
    task.origin.map (·.id) = some row.id ∧ row.generation = task.spec.generation

structure TunnelsBound (s : World) : Prop where
  used : ∀ w ∈ s.cell.rows, w.id ∈ s.usedIDs
  read : ∀ tid rd, s.reading tid = some rd → rd.id ∈ s.usedIDs
  registered : ∀ k, ∀ t ∈ s.reg.workspaces k, ∃ task, taskOf s t = some task ∧ Serves s task k
  waiting : ∀ k, ∀ ch ∈ s.reg.waiters k, s.channels[ch]? = some k
  filled : ∀ ch t, s.delivered ch = some t → ch < s.channels.length

/-- What a tunnel handed to thread `tid` is worth to it: as long as the thread holds the
lock of the record it works on, a tunnel of that name is one of the record's task. -/
def Handed (s : World) (tid : Nat) (t : Tunnel) : Prop :=
  ∃ task, taskOf s t = some task ∧ ∀ rd, s.reading tid = some rd → ∀ row ∈ s.cell.rows,
    row.id = rd.id → t.key = ⟨row.tenantID, row.name⟩ → s.held (lockOf row) = some tid →
      task.origin.map (·.id) = some row.id ∧ row.generation = task.spec.generation

/-- What thread `tid` relies on. -/
structure TunnelRely (tid : Nat) (s s' : World) : Prop where
  reading : s'.reading tid = s.reading tid
  grows : s.Grows s'
  sessions : s.sessions <+: s'.sessions
  channels : s.channels <+: s'.channels
  held : ∀ k, s'.held k = some tid ↔ s.held k = some tid
  row : ∀ rd, s.reading tid = some rd → ∀ w' ∈ s'.cell.rows, w'.id = rd.id →
    ∃ w ∈ s.cell.rows, w.id = w'.id ∧ w.tenantID = w'.tenantID ∧ w.name = w'.name ∧
      (s.held (lockOf w) = some tid → w.generation = w'.generation)
  delivered : ∀ ch t, s'.delivered ch = some t →
    s.delivered ch = some t ∨ s'.channels[ch]? = some t.key ∧ Handed s' tid t

/-- What an operation needs: a generation is taken under the row's lock, a channel is sent
a tunnel of the key it waits for, and nothing is renamed. -/
def TunnelPre (tid : Nat) (o : Op) (s : World) : Prop :=
  match o with
  | .nextGeneration tenantID id => ∀ w ∈ s.cell.rows, w.id = id → w.tenantID = tenantID →
      s.held (lockOf w) = some tid
  | .notify ch t => s.channels[ch]? = some t.key
  | .renameWorkspace _ _ _ => False
  | _ => True

variable {tid : Nat} {o : Op} {r : Res o} {s s' s'' : World} {t : Tunnel} {task : Task}

theorem TunnelPre.renames (h : TunnelPre tid o s) : o.renames = false := by
  cases o <;> first | rfl | exact h.elim

/-- Tunnels keep their tasks, and tasks what they were placed for. -/
theorem taskOf_grows (hgrows : s.Grows s') (hsessions : s.sessions <+: s'.sessions)
    (h : taskOf s t = some task) :
    ∃ task', taskOf s' t = some task' ∧ task'.spec = task.spec ∧ task'.origin = task.origin := by
  unfold taskOf at h
  split at h
  · rename_i i hi
    obtain ⟨task', htask', hspec, horigin, -⟩ := hgrows.task i task h
    refine ⟨task', ?_, hspec, horigin⟩
    simp only [taskOf, getElem?_grown hsessions hi, htask']
  · cases h

theorem taskCurrent_iff : taskCurrent s t = true ↔ ∃ task, taskOf s t = some task ∧
    ∃ row ∈ s.cell.rows, t.key = ⟨row.tenantID, row.name⟩ ∧
      task.origin.map (·.id) = some row.id ∧ row.generation = task.spec.generation := by
  unfold taskCurrent
  constructor
  · intro h
    split at h
    · rename_i task row htask hrow
      obtain ⟨hmem, hname, htenant⟩ := Workspaces.getWorkspaceByName_eq_some.mp hrow
      simp only [Bool.and_eq_true, decide_eq_true_eq] at h
      refine ⟨task, htask, row, hmem, ?_, h⟩
      rw [Tunnel.key, hname, htenant]
    · cases h
  · rintro ⟨task, htask, row, hmem, hkey, hid, hgen⟩
    have hrow : s.cell.getWorkspaceByName t.tenantID t.workspaceName = some row := by
      refine Workspaces.getWorkspaceByName_eq_some.mpr ⟨hmem, ?_, ?_⟩
      · exact (congrArg WsKey.name hkey).symm
      · exact (congrArg WsKey.tenantID hkey).symm
    simp [htask, hrow, hid, hgen]

/-- A current task serves the name its tunnel is registered under. -/
theorem serves_of_current (h : taskCurrent s t = true) :
    ∃ task, taskOf s t = some task ∧ Serves s task t.key := by
  obtain ⟨task, htask, row, hmem, hkey, hid, hgen⟩ := taskCurrent_iff.mp h
  refine ⟨task, htask, fun v hv htenant hname => ?_⟩
  rw [hkey] at htenant hname
  rw [Workspaces.eq_of_name hv hmem htenant hname]
  exact ⟨hid, hgen⟩

theorem Serves.handed (htask : taskOf s t = some task) (h : Serves s task t.key) :
    Handed s tid t := by
  refine ⟨task, htask, fun rd _ row hrow _ hkey _ => h row hrow ?_ ?_⟩
  · rw [hkey]
  · rw [hkey]

theorem Handed.of_rely (hrely : TunnelRely tid s s') (h : Handed s tid t) : Handed s' tid t := by
  obtain ⟨task, htask, hrows⟩ := h
  obtain ⟨task', htask', hspec, horigin⟩ := taskOf_grows hrely.grows hrely.sessions htask
  refine ⟨task', htask', fun rd hrd row' hrow' hid hkey hheld => ?_⟩
  rw [hrely.reading] at hrd
  obtain ⟨row, hrow, hrowid, htenant, hname, hgen⟩ := hrely.row rd hrd row' hrow' hid
  have hlock : lockOf row = lockOf row' := by rw [lockOf, lockOf, htenant, hname]
  rw [hrely.held, ← hlock] at hheld
  rw [horigin, hspec, ← hrowid, ← hgen hheld]
  exact hrows rd hrd row hrow (hrowid.trans hid) (by rw [hkey, htenant, hname]) hheld

theorem TunnelRely.refl (tid : Nat) (s : World) : TunnelRely tid s s where
  reading := rfl
  grows := .of_eq rfl rfl
  sessions := prefix_refl _
  channels := prefix_refl _
  held _ := Iff.rfl
  row _ _ w hw _ := ⟨w, hw, rfl, rfl, rfl, fun _ => rfl⟩
  delivered _ _ h := .inl h

theorem TunnelRely.trans (h₁ : TunnelRely tid s s') (h₂ : TunnelRely tid s' s'') :
    TunnelRely tid s s'' where
  reading := h₂.reading.trans h₁.reading
  grows := h₁.grows.trans h₂.grows
  sessions := h₁.sessions.trans h₂.sessions
  channels := h₁.channels.trans h₂.channels
  held k := (h₂.held k).trans (h₁.held k)
  row := by
    intro rd hrd w'' hw'' hid
    obtain ⟨w', hw', hid', htenant', hname', hgen'⟩ :=
      h₂.row rd (h₁.reading.trans hrd) w'' hw'' hid
    obtain ⟨w, hw, hid₁, htenant, hname, hgen⟩ := h₁.row rd hrd w' hw' (hid'.trans hid)
    refine ⟨w, hw, hid₁.trans hid', htenant.trans htenant', hname.trans hname', fun hheld => ?_⟩
    have hlock : lockOf w = lockOf w' := by rw [lockOf, lockOf, htenant, hname]
    exact (hgen hheld).trans (hgen' ((h₁.held _).mpr (hlock ▸ hheld)))
  delivered := by
    intro ch t ht
    rcases h₂.delivered ch t ht with hold | hnew
    · rcases h₁.delivered ch t hold with holder | ⟨hch, hhanded⟩
      · exact .inl holder
      · exact .inr ⟨getElem?_grown h₂.channels hch, hhanded.of_rely h₂⟩
    · exact .inr hnew

/-! ## One step -/

/-- A tunnel that stays registered serves its name as long as the rows of that name are
old ones at their old generation. -/
theorem Serves.of_rows {k : WsKey} (hserves : Serves s task k)
    (hrows : ∀ w' ∈ s'.cell.rows, w'.tenantID = k.tenantID → w'.name = k.name →
      ∃ w ∈ s.cell.rows, w'.id = w.id ∧ w'.tenantID = w.tenantID ∧ w'.name = w.name ∧
        w'.generation = w.generation)
    {task' : Task} (hspec : task'.spec = task.spec) (horigin : task'.origin = task.origin) :
    Serves s' task' k := by
  intro w' hw' htenant' hname'
  obtain ⟨w, hw, hid, htenant, hname, hgen⟩ := hrows w' hw' htenant' hname'
  rw [horigin, hspec, hid, hgen]
  exact hserves w hw (htenant ▸ htenant') (hname ▸ hname')

/-- The rows of a name under which a tunnel is registered only change in columns that do
not matter here. -/
theorem exec_rows_bound (hpre : TunnelPre tid o s)
    (hcond : boundSteps s (.thread tid o r)) (h : exec tid o r s = some s') {k : WsKey}
    (hk : s.reg.workspaces k ≠ []) :
    ∀ w' ∈ s'.cell.rows, w'.tenantID = k.tenantID → w'.name = k.name →
      ∃ w ∈ s.cell.rows, w'.id = w.id ∧ w'.tenantID = w.tenantID ∧ w'.name = w.name ∧
        w'.generation = w.generation := by
  intro w' hw' htenant' hname'
  cases exec_origin h hw' with
  | kept hw hfrom hgen =>
    exact ⟨_, hw, hfrom.id, hfrom.tenantID, hfrom.name hpre.renames, hgen⟩
  | bumped hw hfrom =>
    refine absurd ?_ hk
    have hnone := hcond _ hw rfl rfl
    rwa [← hfrom.tenantID, ← hfrom.name rfl, htenant', hname'] at hnone
  | @created tenantID name _ _ hnew =>
    refine absurd ?_ hk
    rw [hnew] at htenant' hname'
    have hkey : k = ⟨tenantID, name⟩ := by
      cases k
      cases htenant'
      cases hname'
      rfl
    rw [hkey]
    exact hcond

theorem TunnelsBound.op (hinv : TunnelsBound s) (hpre : TunnelPre tid o s)
    (hcond : boundSteps s (.thread tid o r)) (h : exec tid o r s = some s') :
    TunnelsBound s' := by
  have hused := (exec_frame h).usedIDs
  refine ⟨?_, ?_, ?_, ?_, ?_⟩
  · intro w' hw'
    cases exec_origin h hw' with
    | kept hw hfrom | bumped hw hfrom => exact hfrom.id ▸ hused.subset (hinv.used _ hw)
    | created _ _ hnew => exact hnew
  · intro other rd hrd
    by_cases hother : other = tid
    · subst hother
      rcases exec_reading_self h hrd with hold | hnew
      · exact hused.subset (hinv.read _ _ hold)
      · exact hnew hinv.used
    · rw [(exec_frame h).readings _ hother] at hrd
      exact hused.subset (hinv.read _ _ hrd)
  · intro k t ht
    have hold : ∀ {t}, t ∈ s.reg.workspaces k → ∃ task, taskOf s' t = some task ∧
        Serves s' task k := by
      intro t ht
      obtain ⟨task, htask, hserves⟩ := hinv.registered k t ht
      obtain ⟨task', htask', hspec, horigin⟩ :=
        taskOf_grows (exec_grows h) (exec_frame h).sessions htask
      have hk : s.reg.workspaces k ≠ [] := ne_nil_of_mem ht
      exact ⟨task', htask', hserves.of_rows (exec_rows_bound hpre hcond h hk) hspec horigin⟩
    rcases exec_registered h ht with hmem | ⟨rfl, rfl⟩
    · exact hold hmem
    · simp only [exec] at h
      split at h <;> cases h
      exact serves_of_current hcond
  · intro k ch hch
    rcases exec_waiters h hch with hold | ⟨-, hnew⟩
    · exact getElem?_grown (exec_frame h).channels (hinv.waiting k ch hold)
    · exact hnew
  · intro ch t ht
    rcases exec_delivered h ht with hold | rfl
    · exact Nat.lt_of_lt_of_le (hinv.filled ch t hold) (exec_frame h).channels.length_le
    · exact (List.getElem?_eq_some_iff.mp (getElem?_grown (exec_frame h).channels hpre)).1

theorem TunnelRely.of_op {other : Nat} (hinv : TunnelsBound s) (hpre : TunnelPre tid o s)
    (hcond : boundSteps s (.thread tid o r)) (h : exec tid o r s = some s')
    (hne : other ≠ tid) : TunnelRely other s s' where
  reading := (exec_frame h).readings _ hne
  grows := exec_grows h
  sessions := (exec_frame h).sessions
  channels := (exec_frame h).channels
  held _ := exec_held_iff h hne
  row := by
    intro rd hrd w' hw' hid
    cases exec_origin h hw' with
    | kept hw hfrom hgen =>
      exact ⟨_, hw, hfrom.id.symm, hfrom.tenantID.symm, (hfrom.name hpre.renames).symm,
        fun _ => hgen.symm⟩
    | bumped hw hfrom =>
      refine ⟨_, hw, hfrom.id.symm, hfrom.tenantID.symm, (hfrom.name rfl).symm, fun hheld => ?_⟩
      -- the one taking the generation holds that lock
      rw [hpre _ hw rfl rfl] at hheld
      exact absurd (Option.some.inj hheld).symm hne
    | created _ hfresh =>
      rw [hid] at hfresh
      exact absurd (hinv.read other rd hrd) hfresh
  delivered := by
    intro ch t ht
    rcases exec_delivered h ht with hold | rfl
    · exact .inl hold
    · cases h
      obtain ⟨task, htask, hserves⟩ := serves_of_current hcond
      exact .inr ⟨hpre, Serves.handed (s := { s with delivered := _ }) htask hserves⟩

theorem TunnelsBound.env {d : Driver} {e : EnvMove} (hinv : TunnelsBound s)
    (h : envStep d e s = some s') : TunnelsBound s' := by
  have hframe := envStep_untouched h
  refine ⟨?_, ?_, ?_, ?_, ?_⟩
  · rw [hframe.cell, hframe.usedIDs]
    exact hinv.used
  · rw [hframe.reading, hframe.usedIDs]
    exact hinv.read
  · rw [hframe.workspaces]
    intro k t ht
    obtain ⟨task, htask, hserves⟩ := hinv.registered k t ht
    obtain ⟨task', htask', hspec, horigin⟩ :=
      taskOf_grows (envStep_grows h) (envStep_sessions h) htask
    refine ⟨task', htask', hserves.of_rows (fun w hw _ _ => ?_) hspec horigin⟩
    exact ⟨w, hframe.cell ▸ hw, rfl, rfl, rfl, rfl⟩
  · rw [hframe.waiters, hframe.channels]
    exact hinv.waiting
  · rw [hframe.delivered, hframe.channels]
    exact hinv.filled

theorem TunnelRely.of_env {d : Driver} {e : EnvMove} (h : envStep d e s = some s') :
    TunnelRely tid s s' where
  reading := congrFun (envStep_untouched h).reading tid
  grows := envStep_grows h
  sessions := envStep_sessions h
  channels := (envStep_untouched h).channels ▸ prefix_refl _
  held k := by rw [(envStep_untouched h).held]
  row _ _ w hw _ := ⟨w, (envStep_untouched h).cell ▸ hw, rfl, rfl, rfl, fun _ => rfl⟩
  delivered _ _ hch := .inl ((envStep_untouched h).delivered ▸ hch)

end Lemul.MgmtApi
