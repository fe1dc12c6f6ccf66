import Lemul.MgmtApi.Tunnels

/-!
# What one step can do

One lemma for each part of the state, over all operations and all moves of the
environment: which of them can change it, and how. Every invariant below is proved from
these rather than from `exec` itself.
-/

namespace Lemul.MgmtApi

open Store Function List Workspaces

variable {tid : Nat} {o : Op} {r : Res o} {s s' : World}

namespace Op

/-- Operations that hand a row copy to the thread. -/
def reads : Op → Bool
  | .getWorkspaceByName _ _ => true
  | .createWorkspace _ _ _ _ => true
  | _ => false

/-- Operations that write the `workspace` table. -/
def writes : Op → Bool
  | .setWorkspaceStatus _ _ _ _ => true
  | .failWorkspacePlacement _ _ _ _ _ => true
  | .nextGeneration _ _ => true
  | .setWarmHold _ _ _ => true
  | .setWorkspaceSnapshot _ _ _ => true
  | .createWorkspace _ _ _ _ => true
  | .renameWorkspace _ _ _ => true
  | .deleteWorkspace _ _ => true
  | _ => false

/-- The operation that records a snapshot. -/
def records : Op → Bool
  | .setWorkspaceSnapshot _ _ _ => true
  | _ => false

/-- The operation that inserts a row. -/
def creates : Op → Bool
  | .createWorkspace _ _ _ _ => true
  | _ => false

/-- The operation that changes a row's name. -/
def renames : Op → Bool
  | .renameWorkspace _ _ _ => true
  | _ => false

/-- The operation that takes a new generation. -/
def bumps : Op → Bool
  | .nextGeneration _ _ => true
  | _ => false

/-- The operation that writes a command stream. -/
def sends : Op → Bool
  | .send _ _ => true
  | _ => false

/-- Operations on a per-workspace lock. -/
def locks : Op → Bool
  | .lock _ => true
  | .unlock _ => true
  | _ => false

/-- Operations on the set of registered workspace tunnels. -/
def registers : Op → Bool
  | .addWorkspace _ => true
  | .removeWorkspace _ => true
  | _ => false

end Op

/-! ## Operations -/

/-- What thread `tid` leaves as it is with operation `o`. -/
structure Frame (tid : Nat) (o : Op) (s s' : World) : Prop where
  tasks : s'.tasks = s.tasks
  snapshots : s'.snapshots = s.snapshots
  reading : o.reads = false → s'.reading = s.reading
  readings : ∀ other, other ≠ tid → s'.reading other = s.reading other
  cell : o.writes = false → s'.cell = s.cell
  recorded : o.records = false → s'.recorded = s.recorded
  usedIDs : s.usedIDs <+: s'.usedIDs
  /-- Command streams are only opened. -/
  opened : s.streams <+: s'.streams
  streams : o.sends = false → s'.streams = s.streams
  placements : o.sends = false → s'.placements = s.placements
  named : s.named <+: s'.named
  /-- Names are given by inserts and renames. -/
  unnamed : o.creates = false → o.renames = false → s'.named = s.named
  held : o.locks = false → s'.held = s.held
  sessions : s.sessions <+: s'.sessions
  channels : s.channels <+: s'.channels

theorem exec_frame (h : exec tid o r s = some s') : Frame tid o s s' := by
  cases o <;> simp only [exec, World.statement] at h <;> (repeat' split at h) <;> cases h
  all_goals constructor
  all_goals first
    | exact prefix_refl _
    | rfl
    | exact fun _ => rfl
    | exact fun _ _ => rfl
    | exact prefix_append _ _
    | exact fun other hne => update_of_ne hne _ _
    | (intro ho; cases ho; done)
    | (intro _ ho; cases ho)

variable {other ch : Nat} {s : World} {k owner : GoString} {reply : Reply} {runner : Tunnel}
  {u : Unit} {access : AccessScope}

/-- After an operation a thread's reading is the one it had, or that of a row it has just
been handed. -/
theorem exec_reading_self {rd : Reading} (h : exec tid o r s = some s')
    (hrd : s'.reading tid = some rd) :
    s.reading tid = some rd ∨
      ((∀ w ∈ s.cell.rows, w.id ∈ s.usedIDs) → rd.id ∈ s'.usedIDs) := by
  by_cases ho : o.reads = false
  · rw [(exec_frame h).reading ho] at hrd
    exact .inl hrd
  · cases o <;> try exact absurd rfl ho
    all_goals
      simp only [exec] at h
      repeat' split at h
    all_goals cases h
    · exact .inl hrd
    · rename_i hrow
      dsimp only at hrd
      rw [update_self] at hrd
      cases hrd
      exact .inr fun hused => hused _ (getWorkspaceByName_eq_some.mp hrow).1
    · exact .inl hrd
    · dsimp only at hrd
      rw [update_self] at hrd
      cases hrd
      exact .inr fun _ => by simp

/-- What an operation leaves of the columns the arguments below are about. -/
structure RowFrom (o : Op) (w w' : Workspace) : Prop where
  id : w'.id = w.id
  tenantID : w'.tenantID = w.tenantID
  name : o.renames = false → w'.name = w.name
  generation : o.bumps = false → w'.generation = w.generation
  snapshotID : o.records = false → w'.snapshotID = w.snapshotID

theorem RowFrom.refl (o : Op) (w : Workspace) : RowFrom o w w :=
  ⟨rfl, rfl, fun _ => rfl, fun _ => rfl, fun _ => rfl⟩

variable {tenantID id name : GoString} {w' w : Workspace} {e : EnvMove} {d : Driver}
  {hd : Handling} {sid : Nat} {st : Stream}

/-- An `UPDATE` of one row. -/
structure Edit where
  tenantID : GoString
  id : GoString
  apply : Workspace → Workspace

/-- The update an operation makes, if it is written. -/
def Op.edit : (o : Op) → Res o → Option Edit
  | .setWorkspaceStatus tenantID id status ref, .ok _ => some ⟨tenantID, id, fun w =>
      { w with status := status, taskRef := nullable ref, lastError := none }⟩
  | .failWorkspacePlacement tenantID id status ref reason, .ok _ => some ⟨tenantID, id, fun w =>
      { w with status := status, taskRef := nullable ref, lastError := some reason }⟩
  | .nextGeneration tenantID id, .ok _ => some ⟨tenantID, id, fun w =>
      { w with generation := w.generation + 1 }⟩
  | .setWarmHold tenantID id till, .ok _ => some ⟨tenantID, id, fun w =>
      { w with warmHoldUntil := till }⟩
  | .setWorkspaceSnapshot tenantID id snapshot, .ok _ => some ⟨tenantID, id, fun w =>
      { w with snapshotID := nullable snapshot }⟩
  | .renameWorkspace tenantID id name, .ok _ => some ⟨tenantID, id, fun w =>
      { w with name := name }⟩
  | _, _ => none

/-- What an operation does to the table, case by case. -/
inductive Tabled (s s' : World) : (o : Op) → Res o → Prop
  | same {o : Op} {r : Res o} (hcell : s'.cell = s.cell) : Tabled s s' o r
  | edited {o : Op} {r : Res o} {e : Edit} (he : o.edit r = some e)
      (hrows : s'.cell.rows = s.cell.rows.map (rewrite e.tenantID e.id e.apply)) :
      Tabled s s' o r
  | created {tenantID name owner : GoString} {access : AccessScope} {w : Workspace}
      (hnew : w = newWorkspace w.id tenantID name owner access) (hfresh : w.id ∉ s.usedIDs)
      (hcell : s.cell.createWorkspace w = some s'.cell) (hused : w.id ∈ s'.usedIDs) :
      Tabled s s' (.createWorkspace tenantID name owner access) (.ok w)
  | deleted {tenantID id : GoString} {r : Except GoString Unit}
      (hrows : s'.cell.rows = s.cell.rows.filter fun w => !w.isRow tenantID id) :
      Tabled s s' (.deleteWorkspace tenantID id) r

theorem exec_tabled (h : exec tid o r s = some s') : Tabled s s' o r := by
  by_cases hwrites : o.writes = false
  · exact .same ((exec_frame h).cell hwrites)
  cases o <;> try exact absurd rfl hwrites
  all_goals
    simp only [exec, World.statement] at h
    repeat' split at h
    all_goals cases h
  all_goals first
    | exact .same rfl
    | exact .edited rfl rfl
    | exact .edited rfl (renameWorkspace_rows ‹_›)
    | exact .created (And.left ‹_›) (And.right ‹_›) ‹_› (by simp)
    | exact .deleted rfl

theorem RowFrom.of_edit {edit : Edit} (h : o.edit r = some edit) (w : Workspace) :
    RowFrom o w (edit.apply w) := by
  cases o <;> try cases h
  all_goals
    cases r <;> cases h
    constructor <;> simp [Op.renames, Op.bumps, Op.records]

/-- Where a row of the table after an operation comes from: it was there, it has just been
given a generation, or it has just been inserted, under an id that was never used before. -/
inductive Origin (s s' : World) (w' : Workspace) : (o : Op) → Res o → Prop
  | kept {o : Op} {r : Res o} {w : Workspace} (hw : w ∈ s.cell.rows) (hfrom : RowFrom o w w')
      (hgen : w'.generation = w.generation) : Origin s s' w' o r
  | bumped {w : Workspace} {g : Nat} (hw : w ∈ s.cell.rows)
      (hfrom : RowFrom (.nextGeneration w.tenantID w.id) w w') (hgen : w'.generation = g) :
      Origin s s' w' (.nextGeneration w.tenantID w.id) (.ok g)
  | created {tenantID name owner : GoString} {access : AccessScope}
      (hnew : w' = newWorkspace w'.id tenantID name owner access) (hfresh : w'.id ∉ s.usedIDs)
      (hused : w'.id ∈ s'.usedIDs) :
      Origin s s' w' (.createWorkspace tenantID name owner access) (.ok w')

theorem exec_origin (h : exec tid o r s = some s') (hw' : w' ∈ s'.cell.rows) :
    Origin s s' w' o r := by
  cases exec_tabled h with
  | same hcell => exact .kept (hcell ▸ hw') (.refl o w') rfl
  | @edited _ _ e he hrows =>
    obtain ⟨w, hw, rfl⟩ := mem_map.mp (hrows ▸ hw')
    have hfrom : RowFrom o w (rewrite e.tenantID e.id e.apply w) :=
      rewrite_rel (.refl o w) fun _ => .of_edit he w
    by_cases hbumps : o.bumps = false
    · exact .kept hw hfrom (hfrom.generation hbumps)
    cases o <;> try exact absurd rfl hbumps
    rename_i tenantID id
    cases r <;> cases he
    by_cases hrow : w.isRow tenantID id = true
    · obtain ⟨rfl, rfl⟩ := Workspace.isRow_iff.mp hrow
      have hsame := getWorkspace_eq_some.mpr ⟨hw, rfl, rfl⟩
      simp only [exec, hsame] at h
      split at h <;> cases h
      rename_i hg
      exact .bumped hw hfrom (by rw [rewrite_of_isRow hrow, hg.1])
    · exact .kept hw hfrom (by rw [rewrite, if_neg hrow])
  | created hnew hfresh hcell hused =>
    rcases mem_concat.mp (createWorkspace_rows hcell ▸ hw') with hold | rfl
    · exact .kept hold (.refl _ w') rfl
    · exact .created hnew hfresh hused
  | deleted hrows => exact .kept (mem_of_mem_filter (hrows ▸ hw')) (.refl _ w') rfl

/-- Apart from an insert, every row after an operation is a row from before it. -/
theorem exec_row (h : exec tid o r s = some s') (ho : o.creates = false)
    (hw' : w' ∈ s'.cell.rows) : ∃ w ∈ s.cell.rows, RowFrom o w w' := by
  cases exec_origin h hw' with
  | kept hw hfrom | bumped hw hfrom => exact ⟨_, hw, hfrom⟩
  | created => cases ho

/-- What is recorded stays recorded. -/
theorem exec_recorded_grows (h : exec tid o r s = some s') (id : GoString) :
    s.recorded id <+: s'.recorded id := by
  by_cases ho : o.records = true
  · cases o <;> try cases ho
    rename_i tenantID i snapshot
    simp only [exec] at h
    split at h
    · cases h
      exact prefix_refl _
    · split at h <;> cases h
      by_cases hid : id = i
      · subst hid
        simp
      · simp [hid]
  · rw [(exec_frame h).recorded (Bool.not_eq_true _ ▸ ho)]

theorem exec_getWorkspace (h : exec tid (.getWorkspace tenantID id) (.ok w) s = some s') :
    s.cell.getWorkspace tenantID id = some w ∧ s' = s := by
  simp only [exec] at h
  split at h
  · rename_i hrow
    exact ⟨hrow, (Option.some.inj h).symm⟩
  · cases h

theorem exec_getWorkspaceByName
    (h : exec tid (.getWorkspaceByName tenantID name) (.ok w) s = some s') :
    s.cell.getWorkspaceByName tenantID name = some w := by
  simp only [exec] at h
  split at h
  · assumption
  · cases h

/-- A read by name is noted under the id it found. -/
theorem exec_reads_id (h : exec tid (.getWorkspaceByName tenantID name) (.ok w) s = some s') :
    (s'.reading tid).map (·.id) = some w.id := by
  simp only [exec] at h
  split at h <;> cases h
  simp only [update_self, Option.map_some]

theorem exec_setWorkspaceSnapshot {snapshot : GoString}
    (h : exec tid (.setWorkspaceSnapshot tenantID id snapshot) (.ok u) s = some s') :
    s'.recorded id = s.recorded id ++ [snapshot] := by
  simp only [exec] at h
  split at h <;> cases h
  exact update_self _ _ _

/-- What a list had at an index, it has after growing at its end. -/
theorem getElem?_grown {α : Type} {l l' : List α} {i : Nat} {a : α} (h : l <+: l')
    (hi : l[i]? = some a) : l'[i]? = some a := by
  obtain ⟨rest, rfl⟩ := h
  exact (getElem?_append_left (List.getElem?_eq_some_iff.mp hi).1).trans hi

/-- A stream that is there after an operation was there before, or was just opened by
this thread. -/
theorem exec_send {c : Command} {r : Res (.send runner c)}
    (h : exec tid (.send runner c) r s = some s') (hst : st ∈ s'.streams) :
    st ∈ s.streams ∨ st = ⟨c, s.reading tid, none, none⟩ := by
  simp only [exec] at h
  split at h
  · cases h
    exact .inl hst
  · split at h <;> cases h
    simpa using hst

theorem exec_send_placements {c : Command} {r : Res (.send runner c)}
    (h : exec tid (.send runner c) r s = some s') : s'.placements = s.noted tid c := by
  simp only [exec] at h
  split at h
  · cases h
    rfl
  · split at h <;> cases h
    rfl

/-- Every row after an operation is recorded under its name, if every row before it is. -/
theorem exec_rows_named (h : exec tid o r s = some s')
    (hrows : ∀ w ∈ s.cell.rows, (w.id, ⟨w.tenantID, w.name⟩) ∈ s.named) :
    ∀ w' ∈ s'.cell.rows, (w'.id, ⟨w'.tenantID, w'.name⟩) ∈ s'.named := by
  intro w' hw'
  by_cases hrenames : o.renames = false
  · cases exec_origin h hw' with
    | kept hw hfrom | bumped hw hfrom =>
      rw [hfrom.id, hfrom.tenantID, hfrom.name hrenames]
      exact (exec_frame h).named.subset (hrows _ hw)
    | created hnew =>
      simp only [exec] at h
      split at h
      · split at h <;> cases h
        rw [hnew]
        exact mem_append_right _ (mem_singleton_self _)
      · cases h
  · cases o <;> try exact absurd rfl hrenames
    simp only [exec] at h
    split at h
    · cases h
      exact hrows w' hw'
    · split at h <;> cases h
      rename_i hcell
      dsimp only at hw' ⊢
      rw [renameWorkspace_rows hcell] at hw'
      obtain ⟨w, hw, rfl⟩ := mem_map.mp hw'
      unfold rewrite
      split
      · rename_i hrow
        obtain ⟨hid, htenant⟩ := Workspace.isRow_iff.mp hrow
        exact mem_append_right _ (by simp [hid, htenant])
      · exact mem_append_left _ (hrows w hw)

theorem exec_lock (h : exec tid (.lock k) u s = some s') :
    s.held k = none ∧ s'.held = update s.held k (some tid) := by
  simp only [exec] at h
  split at h
  · rename_i hfree
    rw [← Option.some.inj h]
    exact ⟨hfree, rfl⟩
  · cases h

theorem exec_pickWorkspace {key : WsKey} {got : Option Tunnel}
    (h : exec tid (.pickWorkspace key) got s = some s') :
    s.reg.pickWorkspace key = got ∧ s = s' := by
  simpa [exec] using h

/-- A wait that is over at once. -/
theorem exec_waitWorkspace_now {key : WsKey} {t : Tunnel}
    (h : exec tid (.waitWorkspace key) (.inl t) s = some s') :
    s.reg.pickWorkspace key = some t ∧ s = s' := by
  simpa [exec] using h

theorem exec_waitWorkspace_later {key : WsKey} {ch : Nat}
    (h : exec tid (.waitWorkspace key) (.inr ch) s = some s') : ch = s.channels.length ∧
      { s with reg := s.reg.addWaiter key ch, channels := s.channels ++ [key] } = s' := by
  simp only [exec] at h
  split at h
  · rename_i hnew
    exact ⟨hnew.2, Option.some.inj h⟩
  · cases h

theorem exec_received {key : WsKey} {ch : Nat} {t : Tunnel}
    (h : exec tid (.receive key ch) (.ok t) s = some s') : s.delivered ch = some t ∧ s = s' := by
  simpa [exec] using h

theorem exec_unlock (h : exec tid (.unlock k) u s = some s') :
    s.held k = some tid ∧ s'.held = update s.held k none := by
  simp only [exec] at h
  split at h
  · rename_i hheld
    rw [← Option.some.inj h]
    exact ⟨hheld, rfl⟩
  · cases h

/-- Whether a thread holds a lock is its own doing. -/
theorem exec_held_iff (h : exec tid o r s = some s')
    (hne : other ≠ tid) : s'.held k = some other ↔ s.held k = some other := by
  by_cases ho : o.locks = false
  · rw [(exec_frame h).held ho]
  · cases o <;> try exact absurd rfl ho
    case lock k' =>
      obtain ⟨hfree, hheld⟩ := exec_lock h
      rw [hheld]
      by_cases hk : k = k'
      · subst hk
        simp [hfree, hne.symm]
      · rw [update_of_ne hk]
    case unlock k' =>
      obtain ⟨hmine, hheld⟩ := exec_unlock h
      rw [hheld]
      by_cases hk : k = k'
      · subst hk
        simp [hmine, hne.symm]
      · rw [update_of_ne hk]

/-- A channel is filled by a send on it, and by nothing else. -/
theorem exec_delivered {t : Tunnel} (h : exec tid o r s = some s')
    (hch : s'.delivered ch = some t) : s.delivered ch = some t ∨ o = .notify ch t := by
  cases o <;> simp only [exec, World.statement] at h <;> (repeat' split at h) <;> cases h <;>
    first | exact .inl hch | skip
  rename_i ch' t'
  dsimp only at hch
  by_cases heq : ch = ch'
  · subst heq
    rw [update_self] at hch
    exact .inr (by rw [Option.some.inj hch])
  · rw [update_of_ne heq] at hch
    exact .inl hch

/-- A waiter queued under a key was queued there before, or has just been made for it. -/
theorem exec_waiters {k : WsKey} (h : exec tid o r s = some s') (hch : ch ∈ s'.reg.waiters k) :
    ch ∈ s.reg.waiters k ∨ ch = s.channels.length ∧ s'.channels[ch]? = some k := by
  cases o <;> simp only [exec, World.statement] at h <;> (repeat' split at h) <;> cases h <;>
    first
      | exact .inl hch
      | exact .inl (Registry.mem_of_mem_addWorkspace_waiters hch)
      | exact .inl (Registry.mem_of_mem_removeWaiter hch)
      | exact .inl (Registry.pickRunner_waiters _ _ ▸ hch)
      | skip
  rename_i hnew
  rcases Registry.mem_addWaiter hch with hold | ⟨rfl, rfl⟩
  · exact .inl hold
  · refine .inr ⟨hnew.2, ?_⟩
    rw [hnew.2]
    exact getElem?_concat_length

theorem exec_workspaces (h : exec tid o r s = some s') (ho : o.registers = false) :
    s'.reg.workspaces = s.reg.workspaces := by
  cases o <;> simp only [exec, World.statement] at h <;> (repeat' split at h) <;> cases h <;>
    first
      | rfl
      | exact Registry.pickRunner_workspaces _ _
      | cases ho

/-- A registered tunnel was registered before, or is being added. -/
theorem exec_registered {k : WsKey} {t : Tunnel} (h : exec tid o r s = some s')
    (ht : t ∈ s'.reg.workspaces k) :
    t ∈ s.reg.workspaces k ∨ o = .addWorkspace t ∧ k = t.key := by
  by_cases ho : o.registers = false
  · rw [exec_workspaces h ho] at ht
    exact .inl ht
  · cases o <;> try exact absurd rfl ho
    · simp only [exec] at h
      split at h <;> cases h
      rcases Registry.mem_addWorkspace.mp ht with hold | ⟨rfl, hk⟩
      · exact .inl hold
      · exact .inr ⟨rfl, hk⟩
    · cases h
      exact .inl (Registry.mem_of_mem_removeWorkspace ht)

/-! ## The environment -/

/-- Tasks and snapshots keep what they were made from. -/
structure World.Grows (s s' : World) : Prop where
  task : ∀ (i : Nat) (t : Task), s.tasks[i]? = some t →
    ∃ t', s'.tasks[i]? = some t' ∧ t'.spec = t.spec ∧ t'.origin = t.origin ∧ t'.ref = t.ref
  snapshot : ∀ x ∈ s.snapshots, ∃ x' ∈ s'.snapshots, x'.id = x.id ∧ x'.task = x.task

theorem World.Grows.of_eq (htasks : s'.tasks = s.tasks) (hsnapshots : s'.snapshots = s.snapshots) :
    s.Grows s' :=
  ⟨fun _ t ht => ⟨t, htasks ▸ ht, rfl, rfl, rfl⟩, fun x hx => ⟨x, hsnapshots ▸ hx, rfl, rfl⟩⟩

theorem World.Grows.trans {s' s'' : World} (h₁ : s.Grows s') (h₂ : s'.Grows s'') :
    s.Grows s'' := by
  constructor
  · intro i x hx
    obtain ⟨y, hy, hspec, horigin, href⟩ := h₁.task i x hx
    obtain ⟨z, hz, hspec', horigin', href'⟩ := h₂.task i y hy
    exact ⟨z, hz, hspec'.trans hspec, horigin'.trans horigin, href'.trans href⟩
  · intro x hx
    obtain ⟨y, hy, hid, htask⟩ := h₁.snapshot x hx
    obtain ⟨z, hz, hid', htask'⟩ := h₂.snapshot y hy
    exact ⟨z, hz, hid'.trans hid, htask'.trans htask⟩

theorem exec_grows (h : exec tid o r s = some s') : s.Grows s' :=
  .of_eq (exec_frame h).tasks (exec_frame h).snapshots

/-- What a runner makes of a command, case by case. -/
inductive Handled (d : Driver) (sid : Nat) (st : Stream) (s : World) : Handling → World → Prop
  | startFailed {m : StartWorkspace} {err : GoString} (hcommand : st.command = .startWorkspace m) :
      Handled d sid st s (.startFailed err) (s.answer sid st (.startFailed err) (.error err))
  | adopted {m : StartWorkspace} {i : Nat} {t : Task} (hcommand : st.command = .startWorkspace m)
      (ht : s.tasks[i]? = some t)
      (hsame : t.running ∧ adoptionKey d t.spec = adoptionKey d m) :
      Handled d sid st s (.adopted i) (s.answer sid st (.adopted i) (.ref t.ref))
  | placed {m : StartWorkspace} {ref : GoString} (hcommand : st.command = .startWorkspace m)
      (hfresh : ref ≠ [] ∧ (∀ t ∈ s.tasks, t.ref ≠ ref) ∧ s.restorable m.snapshotID) :
      Handled d sid st s (.placed ref) { s.answer sid st (.placed ref) (.ref ref) with
        tasks := s.tasks ++ [⟨ref, m, true, st.origin⟩] }
  | stopFailed {m : StopWorkspace} {err : GoString} (hcommand : st.command = .stopWorkspace m) :
      Handled d sid st s (.stopFailed err) (s.answer sid st (.stopFailed err) (.error err))
  | stopped {m : StopWorkspace} {v c : Except GoString GoString}
      (hcommand : st.command = .stopWorkspace m) (hnil : d.preserved m.ref m.snapshot v c = []) :
      Handled d sid st s (.stopped v c)
        ((s.stopped m.ref).answer sid st (.stopped v c) (.stopped []))
  | preserved {m : StopWorkspace} {v c : Except GoString GoString} {i : Nat}
      (hcommand : st.command = .stopWorkspace m) (hne : d.preserved m.ref m.snapshot v c ≠ [])
      (hi : s.tasks.findIdx? (fun t => t.ref = m.ref) = some i)
      (hfresh : ∀ x ∈ s.snapshots, x.id ≠ d.preserved m.ref m.snapshot v c) :
      Handled d sid st s (.stopped v c)
        { (s.stopped m.ref).answer sid st (.stopped v c)
            (.stopped (d.preserved m.ref m.snapshot v c)) with
          snapshots := s.snapshots ++ [⟨d.preserved m.ref m.snapshot v c, i, false⟩] }
  | dropFailed {id err : GoString} (hcommand : st.command = .dropSnapshot id) :
      Handled d sid st s (.dropFailed err) (s.answer sid st (.dropFailed err) (.error err))
  | dropped {id : GoString} (hcommand : st.command = .dropSnapshot id) :
      Handled d sid st s .dropped { s.answer sid st .dropped .other with
        snapshots := s.snapshots.map
          (fun x => if x.id = id then { x with deleted := true } else x) }

theorem handle_rule (h : handle d sid hd st s = some s') : Handled d sid st s hd s' := by
  simp only [handle] at h
  repeat' split at h
  all_goals cases h
  · exact .startFailed ‹_›
  · exact .adopted ‹_› ‹_› ‹_›
  · exact .placed ‹_› ‹_›
  · exact .stopFailed ‹_›
  · exact .stopped ‹_› ‹_›
  · exact .preserved ‹_› ‹_› ‹_› ‹_›
  · exact .dropFailed ‹_›
  · exact .dropped ‹_›

/-- A move of the environment, case by case. -/
inductive Moved (d : Driver) (s : World) : EnvMove → World → Prop
  | runnerUp {tenantID id : GoString} : Moved d s (.runnerUp tenantID id) { s with
      reg := s.reg.addRunner ⟨id, tenantID, [], s.sessions.length⟩
      sessions := s.sessions ++ [.runner] }
  | runnerDown {t : Tunnel} : Moved d s (.runnerDown t) { s with reg := s.reg.removeRunner t }
  | tunnelDown {sess : Nat} :
      Moved d s (.tunnelDown sess) { s with closed := update s.closed sess true }
  | handle {sid : Nat} {hd : Handling} {st : Stream} {s' : World} (hst : s.streams[sid]? = some st)
      (hnone : st.reply = none) (hhandle : handle d sid hd st s = some s') :
      Moved d s (.handle sid hd) s'

theorem envStep_rule (h : envStep d e s = some s') :
    Moved d s e s' := by
  cases e with
  | handle sid hd =>
    simp only [envStep] at h
    repeat' split at h
    · cases h
    · exact .handle ‹_› ‹_› h
    · cases h
  | _ =>
    cases h
    constructor

/-- Nothing the environment does reaches the database, the locks, the set of registered
workspace tunnels or the history of the handlers. -/
structure World.Untouched (s s' : World) : Prop where
  cell : s'.cell = s.cell
  held : s'.held = s.held
  workspaces : s'.reg.workspaces = s.reg.workspaces
  waiters : s'.reg.waiters = s.reg.waiters
  channels : s'.channels = s.channels
  delivered : s'.delivered = s.delivered
  reading : s'.reading = s.reading
  recorded : s'.recorded = s.recorded
  placements : s'.placements = s.placements
  usedIDs : s'.usedIDs = s.usedIDs
  named : s'.named = s.named

theorem handle_untouched (h : handle d sid hd st s = some s') : s.Untouched s' := by
  cases handle_rule h <;> exact ⟨rfl, rfl, rfl, rfl, rfl, rfl, rfl, rfl, rfl, rfl, rfl⟩

theorem envStep_untouched (h : envStep d e s = some s') :
    s.Untouched s' := by
  cases envStep_rule h with
  | handle _ _ hhandle => exact handle_untouched hhandle
  | _ => exact ⟨rfl, rfl, rfl, rfl, rfl, rfl, rfl, rfl, rfl, rfl, rfl⟩

/-- Where the tasks and streams of the next state come from: an earlier one, or, for a
task, the stream of the command that placed it. -/
structure World.Traced (s s' : World) : Prop where
  task : ∀ t' ∈ s'.tasks, (∃ t ∈ s.tasks, t.spec = t'.spec ∧ t.origin = t'.origin) ∨
    ∃ st ∈ s.streams, st.command = .startWorkspace t'.spec ∧ st.origin = t'.origin
  stream : ∀ st' ∈ s'.streams, ∃ st ∈ s.streams,
    st.command = st'.command ∧ st.origin = st'.origin

theorem World.stopped_grows (s : World) (ref : GoString) : s.Grows (s.stopped ref) := by
  constructor
  · intro i t ht
    refine ⟨if t.ref = ref then { t with running := false } else t, ?_, ?_, ?_, ?_⟩
    · simp only [World.stopped, getElem?_map, ht, Option.map_some]
    · split <;> rfl
    · split <;> rfl
    · split <;> rfl
  · exact fun x hx => ⟨x, hx, rfl, rfl⟩

theorem World.mem_stopped {ref : GoString} {t' : Task} (h : t' ∈ (s.stopped ref).tasks) :
    ∃ t ∈ s.tasks, t.spec = t'.spec ∧ t.origin = t'.origin := by
  obtain ⟨t, ht, rfl⟩ := mem_map.mp h
  refine ⟨t, ht, ?_, ?_⟩
  · split <;> rfl
  · split <;> rfl

theorem World.mem_answer (hst : st ∈ s.streams) {st' : Stream}
    (h : st' ∈ (s.answer sid st hd reply).streams) :
    ∃ x ∈ s.streams, x.command = st'.command ∧ x.origin = st'.origin := by
  rcases mem_or_eq_of_mem_set h with hmem | rfl
  · exact ⟨st', hmem, rfl, rfl⟩
  · exact ⟨st, hst, rfl, rfl⟩

theorem handle_grows (h : handle d sid hd st s = some s') : s.Grows s' := by
  cases handle_rule h with
  | placed hcommand hfresh =>
    refine ⟨fun i t ht => ⟨t, ?_, rfl, rfl, rfl⟩, fun x hx => ⟨x, hx, rfl, rfl⟩⟩
    exact (getElem?_append_left (List.getElem?_eq_some_iff.mp ht).1).trans ht
  | @stopped m => exact ⟨(s.stopped_grows m.ref).task, (s.stopped_grows m.ref).snapshot⟩
  | @preserved m =>
    exact ⟨(s.stopped_grows m.ref).task, fun x hx => ⟨x, mem_append_left _ hx, rfl, rfl⟩⟩
  | dropped =>
    refine ⟨fun _ t ht => ⟨t, ht, rfl, rfl, rfl⟩, fun x hx => ?_⟩
    refine ⟨_, mem_map.mpr ⟨x, hx, rfl⟩, ?_, ?_⟩
    · split <;> rfl
    · split <;> rfl
  | _ => exact .of_eq rfl rfl

theorem handle_traced (hst : st ∈ s.streams)
    (h : handle d sid hd st s = some s') : s.Traced s' := by
  have hsame : ∀ t' ∈ s.tasks, (∃ t ∈ s.tasks, t.spec = t'.spec ∧ t.origin = t'.origin) ∨
      ∃ st ∈ s.streams, st.command = .startWorkspace t'.spec ∧ st.origin = t'.origin :=
    fun t' ht' => .inl ⟨t', ht', rfl, rfl⟩
  cases handle_rule h with
  | placed hcommand hfresh =>
    refine ⟨fun t' ht' => ?_, fun _ => World.mem_answer hst⟩
    rcases mem_concat.mp ht' with hold | rfl
    · exact hsame t' hold
    · exact .inr ⟨st, hst, hcommand, rfl⟩
  | stopped | preserved =>
    exact ⟨fun t' ht' => .inl (World.mem_stopped ht'), fun _ => World.mem_answer hst⟩
  | _ => exact ⟨hsame, fun _ => World.mem_answer hst⟩

theorem handle_sessions (h : handle d sid hd st s = some s') : s'.sessions = s.sessions := by
  cases handle_rule h <;> rfl

/-- Handling a command is writing one reply to its stream. A snapshot it names is one that
did not exist before. -/
theorem handle_streams (h : handle d sid hd st s = some s') :
    ∃ reply, s'.streams = s.streams.set sid { st with handling := some hd, reply := some reply } ∧
      ∀ p, reply = .stopped p → p ≠ [] →
        (∀ x ∈ s.snapshots, x.id ≠ p) ∧ ∃ x ∈ s'.snapshots, x.id = p := by
  cases handle_rule h with
  | stopped =>
    exact ⟨_, rfl, fun p hp hne => absurd (Reply.stopped.inj hp).symm hne⟩
  | preserved hcommand hne hi hfresh =>
    refine ⟨_, rfl, fun p hp _ => ?_⟩
    cases hp
    exact ⟨hfresh, _, mem_append_right _ (mem_singleton_self _), rfl⟩
  | _ => exact ⟨_, rfl, nofun⟩

/-- The environment opens no stream. -/
theorem envStep_streams_length (h : envStep d e s = some s') :
    s'.streams.length = s.streams.length := by
  cases envStep_rule h with
  | handle _ _ hhandle =>
    obtain ⟨reply, hstreams, -⟩ := handle_streams hhandle
    rw [hstreams, length_set]
  | _ => rfl

theorem envStep_sessions (h : envStep d e s = some s') :
    s.sessions <+: s'.sessions := by
  cases envStep_rule h with
  | handle _ _ hhandle => rw [handle_sessions hhandle]
  | runnerUp => exact prefix_append _ _
  | _ => exact prefix_refl _

theorem envStep_grows (h : envStep d e s = some s') : s.Grows s' := by
  cases envStep_rule h with
  | handle _ _ hhandle => exact handle_grows hhandle
  | _ => exact .of_eq rfl rfl

theorem envStep_traced (h : envStep d e s = some s') :
    s.Traced s' := by
  cases envStep_rule h with
  | handle hst _ hhandle => exact handle_traced (mem_of_getElem? hst) hhandle
  | _ => exact ⟨fun t ht => .inl ⟨t, ht, rfl, rfl⟩, fun st hst => ⟨st, hst, rfl, rfl⟩⟩

end Lemul.MgmtApi
