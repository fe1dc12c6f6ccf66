import Lemul.MgmtApi.Outcomes
import Lemul.MgmtApi.Replies

/-!
# The end of a warm hold

`advanceWarmHold` (`reaper.go:240-288`) clears `task_ref` after `stopTask`, which reports
nothing: no runner, a lost reply, a refusal, a disk that could not be preserved and a
snapshot that could not be recorded all end in the same two writes. The theorem says for
which of these outcomes the handle that is cleared was no longer needed.
-/

namespace Lemul.MgmtApi

open Store Prog Workspaces List Option

/-- The stop of a warm hold. -/
def stopCommand (ws : Workspace) : Command := .stopWorkspace ⟨ws.name, derefOr ws.taskRef, true⟩

/-- Collecting a displaced snapshot. -/
def DropOp : Op → Prop
  | .pickRunner _ => True
  | .send _ (.dropSnapshot _) => True
  | .recv _ => True
  | _ => False

/-- A stop that went out on stream `sid`. -/
def asked (tenantID : GoString) (ws : Workspace) (runner : Tunnel) (sid : Nat) : Trace Op Res :=
  [⟨.pickRunner tenantID, some runner⟩, ⟨.send runner (stopCommand ws), .ok sid⟩]

/-- How `stopTask` can go: the trace, the stream and the reply if the stop was
acknowledged, and the snapshot that was recorded. -/
inductive Stopping (tenantID : GoString) (ws : Workspace) :
    Trace Op Res → Option (Nat × Reply) → Option GoString → Prop where
  | noRunner : Stopping tenantID ws [⟨.pickRunner tenantID, none⟩] none none
  | notSent (runner : Tunnel) (e : GoString) :
      Stopping tenantID ws [⟨.pickRunner tenantID, some runner⟩,
        ⟨.send runner (stopCommand ws), .error e⟩] none none
  | noReply (runner : Tunnel) (sid : Nat) (e : GoString) :
      Stopping tenantID ws (asked tenantID ws runner sid ++ [⟨.recv sid, .error e⟩]) none none
  | refused (runner : Tunnel) (sid : Nat) (message : GoString) :
      Stopping tenantID ws
        (asked tenantID ws runner sid ++ [⟨.recv sid, .ok (.error message)⟩]) none none
  | nothing (runner : Tunnel) (sid : Nat) (reply : Reply) (hreply : ∀ err, reply ≠ .error err) :
      Stopping tenantID ws (asked tenantID ws runner sid ++ [⟨.recv sid, .ok reply⟩])
        (some (sid, reply)) none
  | unread (runner : Tunnel) (sid : Nat) (reply : Reply) (e : GoString)
      (hreply : ∀ err, reply ≠ .error err) :
      Stopping tenantID ws (asked tenantID ws runner sid ++
        [⟨.recv sid, .ok reply⟩, ⟨.getWorkspace tenantID ws.id, .error e⟩])
        (some (sid, reply)) none
  | unwritten (runner : Tunnel) (sid : Nat) (reply : Reply) (before : Workspace) (e : GoString)
      (hreply : ∀ err, reply ≠ .error err) :
      Stopping tenantID ws (asked tenantID ws runner sid ++
        [⟨.recv sid, .ok reply⟩, ⟨.getWorkspace tenantID ws.id, .ok before⟩,
          ⟨.setWorkspaceSnapshot tenantID ws.id reply.decodeStopped, .error e⟩])
        (some (sid, reply)) none
  | recorded (runner : Tunnel) (sid : Nat) (reply : Reply) (before : Workspace)
      (drop : Trace Op Res) (hreply : ∀ err, reply ≠ .error err)
      (hsnapshot : reply.decodeStopped ≠ []) (hdrop : ∀ x ∈ drop, DropOp x.1) :
      Stopping tenantID ws (asked tenantID ws runner sid ++
        ([⟨.recv sid, .ok reply⟩, ⟨.getWorkspace tenantID ws.id, .ok before⟩,
          ⟨.setWorkspaceSnapshot tenantID ws.id reply.decodeStopped, .ok ()⟩] ++ drop))
        (some (sid, reply)) (some reply.decodeStopped)

variable {cfg : Config} {tenantID : GoString} {ws : Workspace} {tr : Trace Op Res}
  {ack : Option (Nat × Reply)} {recorded : Option GoString}

variable {u : Unit} {c : Workspaces} {snapshot : GoString} {drop : Trace Op Res} {runner : Tunnel}
  {sid : Nat} {reply : Reply}

theorem dropSnapshot_emits {previous : GoString}
    (h : Prog.Emits (dropSnapshot tenantID previous) tr u) : ∀ x ∈ tr, DropOp x.1 := by
  obtain ⟨runner, tr', rfl, hrest⟩ := emits_perform_bind h
  cases runner with
  | none =>
    obtain ⟨rfl, -⟩ := emits_ret hrest
    simp [DropOp]
  | some runner =>
    obtain ⟨tr₁, tr₂, r, rfl, hcommand, hret⟩ := emits_bind hrest
    obtain ⟨rfl, -⟩ := emits_ret hret
    rcases command_emits hcommand with ⟨e, -, rfl⟩ | ⟨sid, rfl⟩
    · simp [DropOp]
    · simp [DropOp]

/-- Recording the snapshot of a reply. -/
theorem record_emits (hreply : ∀ err, reply ≠ .error err)
    (h : Prog.Emits ((PreserveDisk.keepDisk tenantID ws.id).record tenantID reply.decodeStopped)
      tr u) :
    ∃ recorded, Stopping tenantID ws
      (asked tenantID ws runner sid ++ ⟨.recv sid, .ok reply⟩ :: tr) (some (sid, reply))
      recorded := by
  unfold PreserveDisk.record at h
  dsimp only at h
  split at h
  · obtain ⟨rfl, -⟩ := emits_ret h
    exact ⟨none, .nothing runner sid reply hreply⟩
  · rename_i hsnapshot
    obtain ⟨tr₁, tr₂, displaced, rfl, hset, hdrop⟩ := emits_bind h
    obtain ⟨before, tr₃, rfl, hrest⟩ := emits_perform_bind hset
    cases before with
    | error e =>
      obtain ⟨rfl, rfl⟩ := emits_ret hrest
      obtain ⟨rfl, -⟩ := emits_ret hdrop
      exact ⟨none, .unread runner sid reply e hreply⟩
    | ok before =>
      obtain ⟨written, tr₄, rfl, hend⟩ := emits_perform_bind hrest
      cases written with
      | error e =>
        obtain ⟨rfl, rfl⟩ := emits_ret hend
        obtain ⟨rfl, -⟩ := emits_ret hdrop
        exact ⟨none, .unwritten runner sid reply before e hreply⟩
      | ok u =>
        have hdisplaced : tr₄ = [] ∧ ∃ previous, displaced = .ok previous := by
          dsimp only at hend
          split at hend
          · exact ⟨(emits_ret hend).1, _, (emits_ret hend).2⟩
          · exact ⟨(emits_ret hend).1, _, (emits_ret hend).2⟩
        obtain ⟨rfl, previous, rfl⟩ := hdisplaced
        refine ⟨some reply.decodeStopped, .recorded runner sid reply before tr₂ hreply hsnapshot ?_⟩
        dsimp only at hdrop
        split at hdrop
        · obtain ⟨rfl, -⟩ := emits_ret hdrop
          exact nofun
        · exact dropSnapshot_emits hdrop

theorem stopTask_emits (hnamed : derefOr ws.taskRef ≠ [])
    (h : Prog.Emits (stopTask tenantID ws.name (derefOr ws.taskRef) (.keepDisk tenantID ws.id))
      tr u) :
    ∃ ack recorded, Stopping tenantID ws tr ack recorded := by
  unfold stopTask at h
  rw [if_neg hnamed] at h
  obtain ⟨runner, tr₁, rfl, hrest⟩ := emits_perform_bind h
  cases runner with
  | none =>
    obtain ⟨rfl, -⟩ := emits_ret hrest
    exact ⟨none, none, .noRunner⟩
  | some runner =>
    obtain ⟨tr₂, tr₃, r, rfl, hcommand, hend⟩ := emits_bind hrest
    rcases command_emits hcommand with ⟨e, rfl, rfl⟩ | ⟨sid, rfl⟩
    · obtain ⟨rfl, -⟩ := emits_ret hend
      exact ⟨none, none, .notSent runner e⟩
    · cases r with
      | error e =>
        obtain ⟨rfl, -⟩ := emits_ret hend
        exact ⟨none, none, .noReply runner sid e⟩
      | ok reply =>
        cases reply with
        | error message =>
          obtain ⟨rfl, -⟩ := emits_ret hend
          exact ⟨none, none, .refused runner sid message⟩
        | ref r | stopped snapshot | other =>
          exact ⟨_, record_emits nofun hend⟩

/-! ## What the trace of a stop tells -/

/-- An acknowledged stop was sent and its answer read. -/
theorem Stopping.acknowledged (h : Stopping tenantID ws tr (some (sid, reply)) recorded) :
    ∃ runner, ⟨.send runner (stopCommand ws), .ok sid⟩ ∈ tr ∧ ⟨.recv sid, .ok reply⟩ ∈ tr ∧
      ∀ err, reply ≠ .error err := by
  cases h with
  | nothing runner _ _ hreply | unread runner _ _ _ hreply | unwritten runner _ _ _ _ hreply
  | recorded runner _ _ _ _ hreply _ _ => exact ⟨runner, by simp [asked], by simp, hreply⟩

theorem not_stopCommand_of_drop (hdrop : ∀ x ∈ drop, DropOp x.1) {r : Except GoString Nat} :
    ⟨.send runner (stopCommand ws), r⟩ ∉ drop := fun hmem => hdrop _ hmem

/-- A stop that was sent, and answered with something other than an error, is the one that
was acknowledged. -/
theorem Stopping.ack_eq (h : Stopping tenantID ws tr ack recorded)
    (hsent : ⟨.send runner (stopCommand ws), .ok sid⟩ ∈ tr)
    (hread : ⟨.recv sid, .ok reply⟩ ∈ tr) (hreply : ∀ err, reply ≠ .error err) :
    ∃ reply', ack = some (sid, reply') := by
  cases h with
  | noRunner | notSent => simp at hsent
  | noReply => simp [asked] at hsent hread
  | refused _ _ message =>
    simp only [asked, cons_append, nil_append, mem_cons, not_mem_nil] at hread
    simp at hread
    exact absurd hread.2 (hreply message)
  | nothing _ sid' reply' | unread _ sid' reply' | unwritten _ sid' reply' =>
    simp [asked] at hsent
    exact ⟨reply', by rw [hsent.2]⟩
  | recorded _ sid' reply' _ drop _ _ hdrop =>
    simp [asked, not_stopCommand_of_drop hdrop] at hsent
    exact ⟨reply', by rw [hsent.2]⟩

/-- The snapshot recorded is the one of the acknowledgement. -/
theorem Stopping.recorded_eq (h : Stopping tenantID ws tr ack (some snapshot)) :
    ⟨.setWorkspaceSnapshot tenantID ws.id snapshot, .ok ()⟩ ∈ tr ∧ snapshot ≠ [] ∧
      ∃ sid reply, ack = some (sid, reply) ∧ snapshot = reply.decodeStopped := by
  cases h with
  | recorded _ sid reply _ _ _ hsnapshot => exact ⟨by simp, hsnapshot, sid, reply, rfl, rfl⟩

theorem Stopping.of_recorded (h : Stopping tenantID ws tr ack recorded)
    (hmem : ⟨.setWorkspaceSnapshot tenantID ws.id snapshot, .ok ()⟩ ∈ tr) :
    recorded = some snapshot := by
  cases h with
  | recorded _ _ reply _ drop _ _ hdrop =>
    have hnot : ⟨.setWorkspaceSnapshot tenantID ws.id snapshot, .ok ()⟩ ∉ drop :=
      fun hmem => hdrop _ hmem
    simp [asked, hnot] at hmem
    rw [hmem]
  | _ => simp [asked] at hmem

theorem Stopping.not_status (h : Stopping tenantID ws tr ack recorded) {status : WorkspaceStatus}
    {taskRef : GoString} {r : Except GoString Unit} :
    ⟨.setWorkspaceStatus tenantID ws.id status taskRef, r⟩ ∉ tr := by
  intro hmem
  cases h with
  | recorded _ _ reply _ drop _ _ hdrop =>
    have hnot : ⟨.setWorkspaceStatus tenantID ws.id status taskRef, r⟩ ∉ drop :=
      fun hmem => hdrop _ hmem
    simp [asked, hnot] at hmem
  | _ => simp [asked] at hmem

theorem cellAfter_drop (hdrop : ∀ x ∈ drop, DropOp x.1) (c : Workspaces) :
    cellAfter drop c = c := by
  induction drop generalizing c with
  | nil => rfl
  | cons x drop ih =>
    have hx : cellEffect x c = c := by
      obtain ⟨o, r⟩ := x
      have ho := hdrop _ (mem_cons_self ..)
      cases o <;> first | rfl | exact ho.elim
    rw [cellAfter, foldl_cons, hx]
    exact ih (fun y hy => hdrop y (mem_cons_of_mem x hy)) c

/-- The snapshot the row names after a stop. -/
def snapshotAfter (ws : Workspace) : Option GoString → Option GoString
  | none => ws.snapshotID
  | some snapshot => nullable snapshot

/-- A stop changes nothing else about the row. -/
theorem Stopping.row (h : Stopping tenantID ws tr ack recorded)
    (hrow : c.getWorkspace tenantID ws.id = some ws) :
    (cellAfter tr c).getWorkspace tenantID ws.id =
      some { ws with snapshotID := snapshotAfter ws recorded } := by
  cases h with
  | recorded _ _ reply _ drop _ _ hdrop =>
    change (cellAfter drop (c.setWorkspaceSnapshot tenantID ws.id
      (nullable reply.decodeStopped))).getWorkspace tenantID ws.id = _
    rw [cellAfter_drop hdrop, getWorkspace_setWorkspaceSnapshot, hrow]
    rfl
  | _ => exact hrow

/-! ## One sweep -/

/-- The task keeps running: a session is there, the hold only starts, or it is not over. -/
def keepsRunning (ws : Workspace) (sessions now : Nat) : Bool :=
  0 < sessions || match ws.warmHoldUntil with
    | none => true
    | some till => now < till

/-- The trace of a sweep: at most the hold is written, or the task is stopped and the stop
written down. -/
theorem advanceWarmHold_emits {sessions now : Nat}
    (h : Prog.Emits (advanceWarmHold tenantID ws sessions now) tr u) :
    (keepsRunning ws sessions now = true ∧
      (tr = [] ∨ ∃ till r, tr = [⟨.setWarmHold tenantID ws.id till, r⟩])) ∨
    (keepsRunning ws sessions now = false ∧ ∃ (stop : Trace Op Res)
      (marked cleared : Except GoString Unit),
      Prog.Emits (stopTask tenantID ws.name (derefOr ws.taskRef) (.keepDisk tenantID ws.id))
        stop () ∧
      tr = stop ++ [⟨.setWorkspaceStatus tenantID ws.id .stopped [], marked⟩,
        ⟨.setWarmHold tenantID ws.id none, cleared⟩]) := by
  unfold advanceWarmHold at h
  unfold keepsRunning
  by_cases hsessions : 0 < sessions
  · refine .inl ⟨by simp [hsessions], ?_⟩
    rw [if_pos hsessions] at h
    cases hhold : ws.warmHoldUntil with
    | none =>
      rw [hhold] at h
      exact .inl (emits_ret h).1
    | some till =>
      rw [hhold] at h
      obtain ⟨r, tr', rfl, hret⟩ := emits_perform_bind h
      obtain ⟨rfl, -⟩ := emits_ret hret
      exact .inr ⟨_, r, rfl⟩
  · rw [if_neg hsessions] at h
    cases hhold : ws.warmHoldUntil with
    | none =>
      rw [hhold] at h
      obtain ⟨r, tr', rfl, hret⟩ := emits_perform_bind h
      obtain ⟨rfl, -⟩ := emits_ret hret
      exact .inl ⟨by simp, .inr ⟨_, r, rfl⟩⟩
    | some till =>
      rw [hhold] at h
      dsimp only at h
      split at h
      · rename_i hearly
        exact .inl ⟨by simp [hearly], .inl (emits_ret h).1⟩
      · rename_i hover
        refine .inr ⟨by simp [hsessions, hover], ?_⟩
        obtain ⟨stop, tr₁, _, rfl, hstop, hrest⟩ := emits_bind h
        obtain ⟨marked, tr₂, rfl, hrest₂⟩ := emits_perform_bind hrest
        obtain ⟨cleared, tr₃, rfl, hret⟩ := emits_perform_bind hrest₂
        obtain ⟨rfl, -⟩ := emits_ret hret
        exact ⟨stop, marked, cleared, hstop, rfl⟩

/-- The reference the row names after the status write. -/
def refAfter (ws : Workspace) : Except GoString Unit → Option GoString
  | .error _ => ws.taskRef
  | .ok _ => none

/-- The row after a sweep that stopped the task. -/
theorem stopped_row (h : Stopping tenantID ws tr ack recorded)
    (hrow : c.getWorkspace tenantID ws.id = some ws) (marked cleared : Except GoString Unit) :
    ∃ w', (cellAfter (tr ++ [⟨.setWorkspaceStatus tenantID ws.id .stopped [], marked⟩,
        ⟨.setWarmHold tenantID ws.id none, cleared⟩]) c).getWorkspace tenantID ws.id = some w' ∧
      w'.taskRef = refAfter ws marked ∧ w'.snapshotID = snapshotAfter ws recorded := by
  have hstop := h.row hrow
  unfold cellAfter at hstop ⊢
  rw [foldl_append]
  generalize tr.foldl (fun c x => cellEffect x c) c = c' at hstop
  cases marked <;> cases cleared <;>
    simp only [foldl_cons, foldl_nil, cellEffect,
      getWorkspace_setWorkspaceStatus, getWorkspace_setWarmHold, hstop,
      map_some] <;>
    exact ⟨_, rfl, rfl, rfl⟩

/-- The row after a sweep that did not. -/
theorem running_row (hrow : c.getWorkspace tenantID ws.id = some ws)
    (htr : tr = [] ∨ ∃ till r, tr = [⟨.setWarmHold tenantID ws.id till, r⟩]) :
    ∃ w', (cellAfter tr c).getWorkspace tenantID ws.id = some w' ∧ w'.taskRef = ws.taskRef := by
  rcases htr with rfl | ⟨till, r, rfl⟩
  · exact ⟨ws, hrow, rfl⟩
  · cases r with
    | error e => exact ⟨ws, hrow, rfl⟩
    | ok u =>
      refine ⟨{ ws with warmHoldUntil := till }, ?_, rfl⟩
      exact getWorkspace_setWarmHold.trans (congrArg (Option.map _) hrow)

/-! ## Which handles may be dropped -/

/-- The stop that went out on stream `sid` was acknowledged in the run `tr`. -/
def Acknowledged (ws : Workspace) (tr : Trace Op Res) (sid : Nat) : Prop :=
  ∃ runner reply, ⟨.send runner (stopCommand ws), .ok sid⟩ ∈ tr ∧ ⟨.recv sid, .ok reply⟩ ∈ tr ∧
    ∀ err, reply ≠ .error err

/-- What the driver did about the stop on stream `sid`, once `Stop` had succeeded. -/
def Preserved (s : World) (sid : Nat) (volumeOf createSnapshot : Except GoString GoString) :
    Prop :=
  ∃ st, s.streams[sid]? = some st ∧ st.handling = some (.stopped volumeOf createSnapshot)

/-- Neither the task nor its disk needs the handle any more: a stop of the task was
acknowledged during the sweep, and, where tasks have a volume, the row names a snapshot of
it or the driver found that the task has none. -/
def DealtWith (cfg : Config) (ws : Workspace) (tr : Trace Op Res) (s' : World) (w' : Workspace) :
    Prop :=
  ∃ sid, Acknowledged ws tr sid ∧ (cfg.driver.hasVolume = true →
    TaskSnapshot s' (derefOr ws.taskRef) (derefOr w'.snapshotID) ∨
    ∃ volumeOf createSnapshot, Preserved s' sid volumeOf createSnapshot ∧
      cfg.driver.findsNone (derefOr ws.taskRef) volumeOf = true)

/-- The row drops the handle only if it is no longer needed, and else still names it. -/
def KeepsHandle (cfg : Config) (tenantID : GoString) (ws : Workspace) (tr : Trace Op Res)
    (s' : World) : Prop :=
  ∀ w', s'.cell.getWorkspace tenantID ws.id = some w' →
    (derefOr w'.taskRef = [] → DealtWith cfg ws tr s' w') ∧
    (derefOr w'.taskRef ≠ [] → w'.taskRef = ws.taskRef)

/-- The outcomes that a sweep treats rightly: the task is not stopped; or the status could
not be written; or the runner acknowledged the stop and there is no volume to preserve, or
the row named a snapshot of it already, or one was made and could be recorded. -/
def GoesWell (cfg : Config) (tenantID : GoString) (ws : Workspace) (sessions now : Nat)
    (tr : Trace Op Res) (s' : World) : Prop :=
  keepsRunning ws sessions now = true ∨
  (∃ e, ⟨.setWorkspaceStatus tenantID ws.id .stopped [], .error e⟩ ∈ tr) ∨
  ∃ sid volumeOf createSnapshot, Acknowledged ws tr sid ∧
    Preserved s' sid volumeOf createSnapshot ∧
    (cfg.driver.hasVolume = false ∨
      cfg.driver.findsNone (derefOr ws.taskRef) volumeOf = true ∨
      TaskSnapshot s' (derefOr ws.taskRef) (derefOr ws.snapshotID) ∨
      ∃ id, createSnapshot = .ok id ∧ id ≠ [] ∧
        ⟨.setWorkspaceSnapshot tenantID ws.id id, .ok ()⟩ ∈ tr)

variable {tid : Nat} {s s' : World} {stop : Trace Op Res} {sessions now : Nat}
  {marked cleared : Except GoString Unit}

/-- The two writes at the end of a sweep are none of a stop's. -/
theorem acknowledged_append :
    Acknowledged ws (stop ++ [⟨.setWorkspaceStatus tenantID ws.id .stopped [], marked⟩,
      ⟨.setWarmHold tenantID ws.id none, cleared⟩]) sid ↔ Acknowledged ws stop sid := by
  unfold Acknowledged
  simp

/-- What was recorded in a sweep is a snapshot of the volume of its task, made by the
driver for the stop on the acknowledged stream. -/
theorem recorded_taskSnapshot {a : Unit}
    (hrun : (advanceWarmHold tenantID ws sessions now).Runs (machine cfg) tid s tr a s')
    (hstop : Stopping tenantID ws stop ack (some snapshot)) (hsub : ∀ x ∈ stop, x ∈ tr)
    (hacknowledged : Acknowledged ws stop sid) :
    TaskSnapshot s' (derefOr ws.taskRef) snapshot ∧
      ∃ volumeOf, Preserved s' sid volumeOf (.ok snapshot) := by
  obtain ⟨-, hne, sid₀, reply₀, rfl, hsnapshot⟩ := hstop.recorded_eq
  obtain ⟨runner, reply, hsent, hread, hreply⟩ := hacknowledged
  obtain ⟨reply', hack⟩ := hstop.ack_eq hsent hread hreply
  cases hack
  obtain ⟨runner₀, hsent₀, hread₀, hreply₀⟩ := hstop.acknowledged
  obtain ⟨st, volumeOf, createSnapshot, hst, hhandling, hsame, htask⟩ :=
    stop_acknowledged hrun (hsub _ hsent₀) (hsub _ hread₀) hreply₀
  have hpreserved : snapshot = cfg.driver.preserved (derefOr ws.taskRef) true volumeOf
      createSnapshot := by
    rw [hsnapshot, hsame]
    rfl
  have hmade := (Driver.preserved_ne_nil (hpreserved ▸ hne)).2.2.2
  rw [hpreserved]
  refine ⟨htask (hpreserved ▸ hne), volumeOf, st, hst, ?_⟩
  rw [← hmade]
  exact hhandling

/-- The end of a sweep that stopped the task and could write that down. -/
theorem dealtWith_iff {a : Unit} {w' : Workspace}
    (hrun : (advanceWarmHold tenantID ws sessions now).Runs (machine cfg) tid s tr a s')
    (htr : tr = stop ++ [⟨.setWorkspaceStatus tenantID ws.id .stopped [], marked⟩,
      ⟨.setWarmHold tenantID ws.id none, cleared⟩])
    (hstop : Stopping tenantID ws stop ack recorded)
    (hw' : w'.snapshotID = snapshotAfter ws recorded) :
    DealtWith cfg ws tr s' w' ↔ ∃ sid volumeOf createSnapshot, Acknowledged ws tr sid ∧
      Preserved s' sid volumeOf createSnapshot ∧
      (cfg.driver.hasVolume = false ∨
        cfg.driver.findsNone (derefOr ws.taskRef) volumeOf = true ∨
        TaskSnapshot s' (derefOr ws.taskRef) (derefOr ws.snapshotID) ∨
        ∃ id, createSnapshot = .ok id ∧ id ≠ [] ∧
          ⟨.setWorkspaceSnapshot tenantID ws.id id, .ok ()⟩ ∈ tr) := by
  have hsub : ∀ x ∈ stop, x ∈ tr := fun x hx => htr ▸ mem_append_left _ hx
  have hacks : ∀ sid, Acknowledged ws tr sid ↔ Acknowledged ws stop sid := by
    intro sid
    rw [htr]
    exact acknowledged_append
  constructor
  · rintro ⟨sid, hack, hvolume⟩
    obtain ⟨runner, reply, hsent, hread, hreply⟩ := hack
    obtain ⟨st, v, c, hst, hhandling, -, -⟩ := stop_acknowledged hrun hsent hread hreply
    have hack : Acknowledged ws tr sid := ⟨runner, reply, hsent, hread, hreply⟩
    cases hd : cfg.driver.hasVolume with
    | false => exact ⟨sid, v, c, hack, ⟨st, hst, hhandling⟩, .inl rfl⟩
    | true =>
      rcases hvolume hd with hsnapshot | ⟨v', c', hpreserved, hnone⟩
      · cases recorded with
        | none =>
          rw [hw'] at hsnapshot
          exact ⟨sid, v, c, hack, ⟨st, hst, hhandling⟩, .inr (.inr (.inl hsnapshot))⟩
        | some snapshot =>
          obtain ⟨-, v', hpreserved⟩ :=
            recorded_taskSnapshot hrun hstop hsub ((hacks sid).mp hack)
          obtain ⟨hmem, hne, -⟩ := hstop.recorded_eq
          exact ⟨sid, v', _, hack, hpreserved,
            .inr (.inr (.inr ⟨snapshot, rfl, hne, hsub _ hmem⟩))⟩
      · exact ⟨sid, v', c', hack, hpreserved, .inr (.inl hnone)⟩
  · rintro ⟨sid, v, c, hack, hpreserved, hcases⟩
    refine ⟨sid, hack, fun hd => ?_⟩
    have hrecorded : ∀ snapshot, recorded = some snapshot →
        TaskSnapshot s' (derefOr ws.taskRef) (derefOr w'.snapshotID) := by
      rintro snapshot rfl
      rw [hw', snapshotAfter, derefOr_nullable]
      exact (recorded_taskSnapshot hrun hstop hsub ((hacks sid).mp hack)).1
    rcases hcases with hno | hnone | hold | ⟨id, -, -, hmem⟩
    · cases hno.symm.trans hd
    · exact .inr ⟨v, c, hpreserved, hnone⟩
    · cases hrec : recorded with
      | none =>
        rw [hw', hrec]
        exact .inl hold
      | some snapshot => exact .inl (hrecorded snapshot hrec)
    · have hin : ⟨.setWorkspaceSnapshot tenantID ws.id id, .ok ()⟩ ∈ stop := by
        rw [htr] at hmem
        simpa using hmem
      exact .inl (hrecorded id (hstop.of_recorded hin))

/-- Whenever a sweep is through with a workspace whose row named a task: it has kept the
handle as it should exactly if things went well. -/
theorem advanceWarmHold_keeps_handle (cfg : Config) (tenantID : GoString) (ws : Workspace)
    (sessions now tid : Nat) (s s' : World) (tr : Trace Op Res)
    (hrow : s.cell.getWorkspace tenantID ws.id = some ws) (hnamed : derefOr ws.taskRef ≠ [])
    (hrun : (advanceWarmHold tenantID ws sessions now).Runs (machine cfg) tid s tr () s') :
    KeepsHandle cfg tenantID ws tr s' ↔ GoesWell cfg tenantID ws sessions now tr s' := by
  rcases advanceWarmHold_emits hrun.emits with ⟨hrunning, htr⟩ | ⟨hover, stop, marked, cleared,
    hemits, htr⟩
  · obtain ⟨w, hw, href⟩ := running_row hrow htr
    rw [← run_cell hrun] at hw
    refine ⟨fun _ => .inl hrunning, fun _ w' hw' => ?_⟩
    cases hw.symm.trans hw'
    rw [href]
    exact ⟨fun hnil => absurd hnil hnamed, fun _ => rfl⟩
  · obtain ⟨ack, recorded, hstop⟩ := stopTask_emits hnamed hemits
    obtain ⟨w, hw, href, hsnapshot⟩ := stopped_row hstop hrow marked cleared
    rw [← htr, ← run_cell hrun] at hw
    have hdealt := dealtWith_iff hrun htr hstop hsnapshot
    unfold KeepsHandle GoesWell
    rw [hw, hover, ← hdealt]
    cases marked with
    | error e =>
      have hmem : ⟨.setWorkspaceStatus tenantID ws.id .stopped [], .error e⟩ ∈ tr := by
        rw [htr]
        simp
      refine ⟨fun _ => .inr (.inl ⟨e, hmem⟩), ?_⟩
      rintro - w' ⟨⟩
      rw [href]
      exact ⟨fun hnil => absurd hnil hnamed, fun _ => rfl⟩
    | ok u =>
      have hnone : ∀ e, ⟨.setWorkspaceStatus tenantID ws.id .stopped [], .error e⟩ ∉ tr := by
        intro e
        rw [htr]
        simp [hstop.not_status]
      constructor
      · intro h
        exact .inr (.inr ((h w rfl).1 (by rw [href]; rfl)))
      · rintro (hfalse | ⟨e, he⟩ | hgood) w' ⟨⟩
        · cases hfalse
        · exact absurd he (hnone e)
        · exact ⟨fun _ => hgood, fun hne => absurd (by rw [href]; rfl) hne⟩

/-! ## A task that is let go of -/

/-- A workspace at the end of its warm hold, and its task. -/
def heldRow : Workspace := demoRowAt 1 .active (some "task-1") (some 3600) none

def heldWorld : World :=
  { World.init ⟨[heldRow], pairwise_singleton _ _⟩ with
    tasks := [⟨"task-1", startCommand demoConfig demoScope demoRow 1, true, none⟩] }

/-- The hold runs out while no runner is connected. -/
def unstoppable : List (EnvMove ⊕ (Σ o : Op, Res o)) :=
  [.inr ⟨.pickRunner "acme", none⟩,
    .inr ⟨.setWorkspaceStatus "acme" "w1" .stopped [], .ok ()⟩,
    .inr ⟨.setWarmHold "acme" "w1" none, .ok ()⟩]

def unstoppedRun : Trace Op Res × Unit × World :=
  (Prog.follow (machine demoConfig) 0 (advanceWarmHold "acme" heldRow 0 3600)
    heldWorld unstoppable).get (by decide +kernel)

/-- The sweep clears the reference of a task that it could not stop and that still runs. -/
theorem sweep_loses_handle :
    ∃ (tr : Trace Op Res) (s' : World) (w' : Workspace),
      (advanceWarmHold "acme" heldRow 0 3600).Runs (machine demoConfig) 0 heldWorld tr () s' ∧
      s'.cell.getWorkspace "acme" "w1" = some w' ∧ derefOr w'.taskRef = [] ∧
      (∃ t ∈ s'.tasks, t.ref = "task-1" ∧ t.running = true) ∧
      ¬KeepsHandle demoConfig "acme" heldRow tr s' := by
  have hrun : (advanceWarmHold "acme" heldRow 0 3600).Runs (machine demoConfig) 0 heldWorld
      unstoppedRun.1 unstoppedRun.2.1 unstoppedRun.2.2 :=
    follow_runs (some_get _).symm
  have hrow : unstoppedRun.2.2.cell.getWorkspace "acme" "w1" =
      some (demoRowAt 1 .stopped none none none) := by decide +kernel
  have hsilent : ∀ x ∈ unstoppedRun.1, x.1.sends = false := by decide +kernel
  refine ⟨_, _, _, hrun, hrow, rfl, by decide +kernel, fun hkeeps => ?_⟩
  obtain ⟨sid, ⟨runner, reply, hsent, -, -⟩, -⟩ := (hkeeps _ hrow).1 rfl
  cases hsilent _ hsent

/-- The task is stopped, and the snapshot of its volume recorded. -/
def orderlyStop : List (EnvMove ⊕ (Σ o : Op, Res o)) :=
  [.inl (.runnerUp "acme" "runner"),
    .inr ⟨.pickRunner "acme", some demoRunner⟩,
    .inr ⟨.send demoRunner (stopCommand heldRow), .ok 0⟩,
    .inl (.handle 0 (.stopped (.ok "vol-1") (.ok "snap-1"))),
    .inr ⟨.recv 0, .ok (.stopped "snap-1")⟩,
    .inr ⟨.getWorkspace "acme" "w1", .ok heldRow⟩,
    .inr ⟨.setWorkspaceSnapshot "acme" "w1" "snap-1", .ok ()⟩,
    .inr ⟨.setWorkspaceStatus "acme" "w1" .stopped [], .ok ()⟩,
    .inr ⟨.setWarmHold "acme" "w1" none, .ok ()⟩]

def orderlyRun : Trace Op Res × Unit × World :=
  (Prog.follow (machine demoConfig) 0 (advanceWarmHold "acme" heldRow 0 3600)
    heldWorld orderlyStop).get (by decide +kernel)

theorem advanceWarmHold_keeps_handle_orderly :
    KeepsHandle demoConfig "acme" heldRow orderlyRun.1 orderlyRun.2.2 := by
  have hrun : (advanceWarmHold "acme" heldRow 0 3600).Runs (machine demoConfig) 0 heldWorld
      orderlyRun.1 orderlyRun.2.1 orderlyRun.2.2 :=
    follow_runs (some_get _).symm
  refine (advanceWarmHold_keeps_handle demoConfig "acme" heldRow 0 3600 0 heldWorld _ _
    (by decide +kernel) (by decide) hrun).mpr (.inr (.inr
      ⟨0, .ok "vol-1", .ok "snap-1", ?_, ?_,
        .inr (.inr (.inr ⟨"snap-1", rfl, ?_⟩))⟩))
  · exact ⟨demoRunner, .stopped "snap-1", by decide +kernel, by decide +kernel,
      nofun⟩
  · exact ⟨⟨stopCommand heldRow, none, some (.stopped (.ok "vol-1") (.ok "snap-1")),
      some (.stopped "snap-1")⟩, by decide +kernel, rfl⟩
  · exact ⟨by decide, by decide +kernel⟩

end Lemul.MgmtApi
