import Lemul.MgmtApi.Outcomes

/-!
# What a failed placement leaves behind

Two facts about every run of `ensureWorkspace` that returns an error, whatever its steps
were answered. Its generation is the one before the call exactly if the call never got as
far as taking one; from then on a refused or undelivered `StartWorkspace` has already
locked out the task the row describes. And after a `StartWorkspace` that went out, the
row admits that a task may exist exactly if a reference is known from before or from the
reply.
-/

namespace Lemul.MgmtApi

open Store List Option Prog Workspaces

variable {cfg : Config} {sc : Scope} {ws w : Workspace} {tid : Nat} {s s' : World}
  {tr : Trace Op Res} {e : GoString}

/-! ## The row of the call -/

/-- The answer that took a generation. -/
def takesGeneration : (Σ o : Op, Res o) → Bool
  | ⟨.nextGeneration _ _, .ok _⟩ => true
  | _ => false

/-- How many generations a run took. -/
def generationsTaken (tr : Trace Op Res) : Nat := tr.countP takesGeneration

/-- The row of the record, with its name and generation. -/
def RowHas (sc : Scope) (ws : Workspace) (name : GoString) (gen : Nat) (c : Workspaces) : Prop :=
  ∃ w, c.getWorkspace sc.tenantID ws.id = some w ∧ w.name = name ∧ w.generation = gen

variable {c : Workspaces} {name dispatched : GoString} {gen : Nat} {r : Except GoString Tunnel}

/-- An update of the row that leaves its name alone. -/
theorem rowHas_update {f : Workspace → Workspace} (hf : KeepsKey f) {gen' : Nat}
    (h : RowHas sc ws name gen c)
    (hgen : ∀ w, w.generation = gen → (f w).generation = gen') :
    RowHas sc ws name gen' (c.update sc.tenantID ws.id f hf) := by
  obtain ⟨w, hw, hname, hwgen⟩ := h
  refine ⟨f w, ?_, (hf w).2.2.trans hname, hgen w hwgen⟩
  rw [getWorkspace_update_self, hw, map_some]

/-- One operation of the call. -/
theorem rowHas_effect {x : Σ o : Op, Res o} (hx : EnsureOp cfg sc ws x.1)
    (h : RowHas sc ws name gen c) :
    RowHas sc ws name (gen + (if takesGeneration x then 1 else 0)) (cellEffect x c) := by
  obtain ⟨o, r⟩ := x
  cases o <;> try exact hx.elim
  case nextGeneration tenantID id =>
    obtain ⟨rfl, rfl⟩ := hx
    cases r with
    | error e => exact h
    | ok g =>
      refine rowHas_update ?_ h fun w hw => congrArg (· + 1) hw
      exact fun _ => ⟨rfl, rfl, rfl⟩
  case setWorkspaceStatus tenantID id status taskRef =>
    obtain ⟨rfl, rfl⟩ := hx
    cases r with
    | error e => exact h
    | ok u =>
      refine rowHas_update ?_ h fun w hw => hw
      exact fun _ => ⟨rfl, rfl, rfl⟩
  case failWorkspacePlacement tenantID id status taskRef reason =>
    obtain ⟨rfl, rfl⟩ := hx
    cases r with
    | error e => exact h
    | ok u =>
      refine rowHas_update ?_ h fun w hw => hw
      exact fun _ => ⟨rfl, rfl, rfl⟩
  all_goals exact h

/-- Any number of them. -/
theorem rowHas_effects (htr : ∀ x ∈ tr, EnsureOp cfg sc ws x.1) (h : RowHas sc ws name gen c) :
    RowHas sc ws name (gen + generationsTaken tr) (cellAfter tr c) := by
  induction tr generalizing gen c with
  | nil => exact h
  | cons x tr ih =>
    have hrest := ih (fun y hy => htr y (mem_cons_of_mem x hy))
      (rowHas_effect (htr x (mem_cons_self ..)) h)
    rw [generationsTaken, countP_cons, cellAfter, foldl_cons]
    rwa [Nat.add_assoc, Nat.add_comm _ (generationsTaken tr)] at hrest

theorem ensureWorkspace_ops (hrun : (ensureWorkspace cfg sc ws).Runs (machine cfg) tid s tr r s') :
    ∀ x ∈ tr, EnsureOp cfg sc ws x.1 :=
  hrun.performs (exec_answered tid) ensureWorkspace_performs

/-- The row after the call. -/
theorem ensureWorkspace_row (hrow : s.cell.getWorkspace sc.tenantID ws.id = some w)
    (hrun : (ensureWorkspace cfg sc ws).Runs (machine cfg) tid s tr r s') :
    RowHas sc ws w.name (w.generation + generationsTaken tr) s'.cell := by
  rw [run_cell hrun]
  exact rowHas_effects (ensureWorkspace_ops hrun) ⟨w, hrow, rfl, rfl⟩

/-! ## The generation -/

/-- A failed call took a generation unless it found no runner or could not take one. -/
theorem generationsTaken_eq_zero (h : Prog.Emits (ensureWorkspace cfg sc ws) tr (.error e)) :
    generationsTaken tr = 0 ↔ ⟨.pickRunner sc.tenantID, none⟩ ∈ tr ∨
      ∃ err, ⟨.nextGeneration sc.tenantID ws.id, .error err⟩ ∈ tr := by
  obtain ⟨waited, core, dispatched, written, hwaited, hfailure, rfl⟩ := ensureWorkspace_emits h
  cases hwaited <;> cases hfailure <;>
    simp [generationsTaken, takesGeneration, prepared, failureNote]

/-- The row of a name is the one of its key. -/
theorem RowHas.authorizes (h : RowHas sc ws name gen s.cell) (version : GoString) :
    authorizes cfg s
      ⟨sc.tenantID, name, cfg.signer.workspaceToken sc.tenantID name gen, version⟩ = true := by
  obtain ⟨w, hw, rfl, rfl⟩ := h
  obtain ⟨hmem, -, htenant⟩ := getWorkspace_eq_some.mp hw
  have hbyName := getWorkspaceByName_eq_some.mpr ⟨hmem, rfl, htenant⟩
  simp only [MgmtApi.authorizes, hbyName]
  exact Creds.Signer.verifyWorkspace_iff.mpr rfl

/-- Whenever `ensureWorkspace` returns an error: the row's generation is the one before
the call, and the credential of that generation is still good, exactly if no runner was
connected or the generation could not be taken. -/
theorem failed_placement_keeps_generation (cfg : Config) (sc : Scope) (ws w : Workspace)
    (tid : Nat) (s s' : World) (tr : Trace Op Res) (e : GoString)
    (hrow : s.cell.getWorkspace sc.tenantID ws.id = some w)
    (hrun : (ensureWorkspace cfg sc ws).Runs (machine cfg) tid s tr (.error e) s') :
    ((∃ w', s'.cell.getWorkspace sc.tenantID ws.id = some w' ∧ w'.generation = w.generation) ∧
        ∀ version, authorizes cfg s' ⟨sc.tenantID, w.name,
          cfg.signer.workspaceToken sc.tenantID w.name w.generation, version⟩ = true) ↔
      ⟨.pickRunner sc.tenantID, none⟩ ∈ tr ∨
        ∃ err, ⟨.nextGeneration sc.tenantID ws.id, .error err⟩ ∈ tr := by
  have hafter := ensureWorkspace_row hrow hrun
  rw [← generationsTaken_eq_zero hrun.emits]
  constructor
  · rintro ⟨⟨w', hw', hgen⟩, -⟩
    obtain ⟨v, hv, -, hvgen⟩ := hafter
    cases hw'.symm.trans hv
    omega
  · intro hnone
    rw [hnone] at hafter
    refine ⟨?_, hafter.authorizes⟩
    obtain ⟨v, hv, -, hvgen⟩ := hafter
    exact ⟨v, hv, hvgen⟩

/-! ### A refusal that locks the task out -/

/-- An error reply to the command on stream `sid`. -/
def refuses (sid : Nat) : (Σ o : Op, Res o) → Bool
  | ⟨.recv sid', .ok (.error _)⟩ => sid' = sid
  | _ => false

/-- The runner did not accept the `StartWorkspace` of this run: every one that was written
was answered with an error. -/
def notAccepted (tr : Trace Op Res) : Bool :=
  tr.all fun x => match x with
    | ⟨.send _ (.startWorkspace _), .ok sid⟩ => tr.any (refuses sid)
    | _ => true

/-- The row of a workspace whose task was placed by an earlier control plane. -/
def placedRow : Workspace := demoRowAt 1 .active (some "task-1") none none

def placedCell : Workspaces := ⟨[placedRow], List.pairwise_singleton _ _⟩

/-- A request finds no tunnel, waits out the grace period, and finds a runner, which has
no room for the replacement. -/
def refusal : List (EnvMove ⊕ (Σ o : Op, Res o)) :=
  [.inl (.runnerUp "acme" "runner"),
    .inr ⟨.lock (lockKey demoScope demoRow), ()⟩,
    .inr ⟨.pickWorkspace demoKey, none⟩,
    .inr ⟨.waitWorkspace demoKey, .inr 0⟩,
    .inr ⟨.receive demoKey 0, .error "context deadline exceeded"⟩,
    .inr ⟨.pickRunner "acme", some demoRunner⟩,
    .inr ⟨.nextGeneration "acme" "w1", .ok 2⟩,
    .inr ⟨.setWorkspaceStatus "acme" "w1" .starting [], .ok ()⟩,
    .inr ⟨.send demoRunner (.startWorkspace (startCommand demoConfig demoScope demoRow 2)), .ok 0⟩,
    .inl (.handle 0 (.startFailed "no capacity")),
    .inr ⟨.recv 0, .ok (.error "no capacity")⟩,
    .inr ⟨.failWorkspacePlacement "acme" "w1" .active "task-1"
      "runner refused: no capacity", .ok ()⟩,
    .inr ⟨.unlock (lockKey demoScope demoRow), ()⟩]

def refusedRun : Trace Op Res × Except GoString Tunnel × World :=
  (Prog.follow (machine demoConfig) 0 (ensureWorkspace demoConfig demoScope placedRow)
    (World.init placedCell) refusal).get (by decide +kernel)

/-- The runner refuses a replacement, the row still describes task 1, and task 1 can no
longer dial in. -/
theorem refused_placement_locks_out :
    ∃ (tr : Trace Op Res) (e : GoString) (s' : World) (w' : Workspace),
      (ensureWorkspace demoConfig demoScope placedRow).Runs
        (machine demoConfig) 0 (World.init placedCell) tr (.error e) s' ∧
      notAccepted tr = true ∧
      s'.cell.getWorkspace "acme" "w1" = some w' ∧
      w'.status = .active ∧ w'.taskRef = some (str "task-1") ∧ w'.generation = 2 ∧
      authorizes demoConfig s' ⟨"acme", "api",
        demoConfig.signer.workspaceToken "acme" "api" 1, "1"⟩ = false := by
  have hrun : (ensureWorkspace demoConfig demoScope placedRow).Runs (machine demoConfig) 0
      (World.init placedCell) refusedRun.1 refusedRun.2.1 refusedRun.2.2 :=
    follow_runs (some_get _).symm
  have herror : refusedRun.2.1 = .error "runner refused: no capacity" := by decide +kernel
  rw [herror] at hrun
  refine ⟨_, _, _, { placedRow with
    generation := 2, lastError := some "runner refused: no capacity" }, hrun,
    by decide +kernel, by decide +kernel, rfl, rfl, rfl, by decide +kernel⟩

/-- A call that finds no runner. -/
def unplaceable : List (EnvMove ⊕ (Σ o : Op, Res o)) :=
  [.inr ⟨.lock (lockKey demoScope demoRow), ()⟩,
    .inr ⟨.pickWorkspace demoKey, none⟩,
    .inr ⟨.waitWorkspace demoKey, .inr 0⟩,
    .inr ⟨.receive demoKey 0, .error "context deadline exceeded"⟩,
    .inr ⟨.pickRunner "acme", none⟩,
    .inr ⟨.failWorkspacePlacement "acme" "w1" .active "task-1"
      "no runner connected for organization acme", .ok ()⟩,
    .inr ⟨.unlock (lockKey demoScope demoRow), ()⟩]

def unplacedRun : Trace Op Res × Except GoString Tunnel × World :=
  (Prog.follow (machine demoConfig) 0 (ensureWorkspace demoConfig demoScope placedRow)
    (World.init placedCell) unplaceable).get (by decide +kernel)

theorem failed_placement_keeps_generation_unplaced :
    (∃ w', unplacedRun.2.2.cell.getWorkspace "acme" "w1" = some w' ∧
        w'.generation = 1) ∧
      ∀ version, authorizes demoConfig unplacedRun.2.2 ⟨"acme", "api",
        demoConfig.signer.workspaceToken "acme" "api" 1, version⟩ = true := by
  have hrun : (ensureWorkspace demoConfig demoScope placedRow).Runs (machine demoConfig) 0
      (World.init placedCell) unplacedRun.1 unplacedRun.2.1 unplacedRun.2.2 :=
    follow_runs (some_get _).symm
  have herror : unplacedRun.2.1 = .error "no runner connected for organization acme" := by
    decide +kernel
  rw [herror] at hrun
  exact (failed_placement_keeps_generation demoConfig demoScope placedRow placedRow 0 _ _ _ _
    (by decide +kernel) hrun).mpr (.inl (by decide +kernel))

/-! ## The row that is left -/

/-- `notePlacementFailure` forgets the task exactly if neither the call nor the record it
worked with has a reference. -/
theorem failureStatus_forgets :
    (failureStatus ws dispatched).1 = .stopped ∧ nullable (failureStatus ws dispatched).2 = none ↔
      dispatched = [] ∧ derefOr ws.taskRef = [] := by
  unfold failureStatus
  by_cases hdispatched : dispatched = []
  · by_cases hknown : derefOr ws.taskRef = []
    · simp [hdispatched, hknown]
    · simp [hdispatched, hknown, nullable_eq_none]
  · simp [hdispatched]

/-- The row after a failure that could be noted. -/
theorem noted_row {lead : Trace Op Res} (dispatched e : GoString)
    (hrow : c.getWorkspace sc.tenantID ws.id = some w)
    (hlead : ∀ x ∈ lead, EnsureOp cfg sc ws x.1) :
    ∃ w', (cellAfter (lead ++ [⟨failureNote sc ws dispatched e, .ok ()⟩,
        ⟨.unlock (lockKey sc ws), ()⟩]) c).getWorkspace sc.tenantID ws.id = some w' ∧
      w'.status = (failureStatus ws dispatched).1 ∧
      w'.taskRef = nullable (failureStatus ws dispatched).2 := by
  obtain ⟨v, hv, -, -⟩ := rowHas_effects hlead ⟨w, hrow, rfl, rfl⟩
  refine ⟨{ v with
    status := (failureStatus ws dispatched).1
    taskRef := nullable (failureStatus ws dispatched).2
    lastError := some e }, ?_, rfl, rfl⟩
  rw [cellAfter, foldl_append]
  exact getWorkspace_failWorkspacePlacement.trans (congrArg (Option.map _) hv)

/-- Once a `StartWorkspace` was written and not refused, the failure is noted under the
reference the reply named, if a reply was read. -/
theorem dispatched_ne_nil {waited core : Trace Op Res} {written : Except GoString Unit}
    {runner : Tunnel} {m : StartWorkspace} {sid : Nat}
    (hwaited : Waited sc ws waited) (hfailure : Failure cfg sc ws core dispatched)
    (htr : tr = ⟨.lock (lockKey sc ws), ()⟩ :: ⟨.pickWorkspace (wsKey sc ws), none⟩ ::
      (waited ++ core ++
        [⟨failureNote sc ws dispatched e, written⟩, ⟨.unlock (lockKey sc ws), ()⟩]))
    (hsent : ⟨.send runner (.startWorkspace m), .ok sid⟩ ∈ tr)
    (hreply : tr.any (refuses sid) = false) :
    dispatched ≠ [] ↔ ∃ reply, ⟨.recv sid, .ok reply⟩ ∈ tr ∧ reply.decodeRef ≠ [] := by
  subst htr
  cases hwaited <;> cases hfailure <;> simp_all [prepared, refuses]

/-- Whenever `ensureWorkspace` returns an error after a `StartWorkspace` that was written
and not refused, and the failure could be noted: the row does not say that there is no
task exactly if the record the call was given names one, or a reply was read that names
one. -/
theorem failed_placement_admits_task (cfg : Config) (sc : Scope) (ws w : Workspace)
    (tid : Nat) (s s' : World) (tr : Trace Op Res) (e : GoString)
    (hrow : s.cell.getWorkspace sc.tenantID ws.id = some w)
    (hrun : (ensureWorkspace cfg sc ws).Runs (machine cfg) tid s tr (.error e) s')
    {runner : Tunnel} {m : StartWorkspace} {sid : Nat}
    (hsent : ⟨.send runner (.startWorkspace m), .ok sid⟩ ∈ tr)
    (hreply : tr.any (refuses sid) = false)
    {status : WorkspaceStatus} {taskRef reason : GoString}
    (hnoted : ⟨.failWorkspacePlacement sc.tenantID ws.id status taskRef reason, .ok ()⟩ ∈ tr) :
    (∀ w', s'.cell.getWorkspace sc.tenantID ws.id = some w' →
        ¬(w'.status = .stopped ∧ w'.taskRef = none)) ↔
      derefOr ws.taskRef ≠ [] ∨ ∃ reply, ⟨.recv sid, .ok reply⟩ ∈ tr ∧ reply.decodeRef ≠ [] := by
  obtain ⟨waited, core, dispatched, written, hwaited, hfailure, htr⟩ :=
    ensureWorkspace_emits hrun.emits
  have hdispatched := dispatched_ne_nil hwaited hfailure htr hsent hreply
  have hwritten : written = .ok () := by
    rw [htr] at hnoted
    cases hwaited <;> cases hfailure <;> simp_all [prepared]
  subst hwritten
  have hlead : ∀ x ∈ ⟨.lock (lockKey sc ws), ()⟩ :: ⟨.pickWorkspace (wsKey sc ws), none⟩ ::
      (waited ++ core), EnsureOp cfg sc ws x.1 := by
    intro x hx
    refine ensureWorkspace_ops hrun x ?_
    rw [htr, ← cons_append, ← cons_append]
    exact mem_append_left _ hx
  obtain ⟨v, hv, hstatus, href⟩ := noted_row dispatched e hrow hlead
  have hafter : s'.cell.getWorkspace sc.tenantID ws.id = some v := by
    rw [run_cell hrun, htr]
    exact hv
  have hforgets : v.status = .stopped ∧ v.taskRef = none ↔
      dispatched = [] ∧ derefOr ws.taskRef = [] := by
    rw [hstatus, href]
    exact failureStatus_forgets
  rw [← hdispatched, hafter]
  constructor
  · intro h
    have hnot := mt hforgets.mpr (h v rfl)
    tauto
  · rintro h w' ⟨⟩ hstopped
    have hboth := hforgets.mp hstopped
    tauto

/-! ### A task that is forgotten -/

/-- The first placement of a workspace, up to the task the runner places for it. -/
def firstDispatch : List (EnvMove ⊕ (Σ o : Op, Res o)) :=
  [.inl (.runnerUp "acme" "runner"),
    .inr ⟨.lock (lockKey demoScope demoRow), ()⟩,
    .inr ⟨.pickWorkspace demoKey, none⟩,
    .inr ⟨.pickRunner "acme", some demoRunner⟩,
    .inr ⟨.nextGeneration "acme" "w1", .ok 1⟩,
    .inr ⟨.setWorkspaceStatus "acme" "w1" .starting [], .ok ()⟩,
    .inr ⟨.send demoRunner (.startWorkspace (startCommand demoConfig demoScope demoRow 1)), .ok 0⟩,
    .inl (.handle 0 (.placed "task-1"))]

/-- Its reply comes after the deadline. -/
def lateReply : List (EnvMove ⊕ (Σ o : Op, Res o)) :=
  firstDispatch ++
  ([.inr ⟨.recv 0, .error "i/o timeout"⟩,
     .inr ⟨.failWorkspacePlacement "acme" "w1" .stopped [] "dispatch: i/o timeout", .ok ()⟩,
     .inr ⟨.unlock (lockKey demoScope demoRow), ()⟩] : List (EnvMove ⊕ (Σ o : Op, Res o)))

def lateRun : Trace Op Res × Except GoString Tunnel × World :=
  (Prog.follow (machine demoConfig) 0 (ensureWorkspace demoConfig demoScope demoRow)
    (World.init demoCell) lateReply).get (by decide +kernel)

/-- The `StartWorkspace` was written and a task runs, and the row says that the workspace
is stopped and names no task. -/
theorem late_reply_forgets_task :
    ∃ (tr : Trace Op Res) (e : GoString) (s' : World) (w' : Workspace),
      (ensureWorkspace demoConfig demoScope demoRow).Runs
        (machine demoConfig) 0 (World.init demoCell) tr (.error e) s' ∧
      ⟨.send demoRunner (.startWorkspace (startCommand demoConfig demoScope demoRow 1)),
        .ok 0⟩ ∈ tr ∧
      ⟨.recv 0, .error "i/o timeout"⟩ ∈ tr ∧
      (∃ t ∈ s'.tasks, t.running = true) ∧
      s'.cell.getWorkspace "acme" "w1" = some w' ∧
      w'.status = .stopped ∧ w'.taskRef = none := by
  have hrun : (ensureWorkspace demoConfig demoScope demoRow).Runs (machine demoConfig) 0
      (World.init demoCell) lateRun.1 lateRun.2.1 lateRun.2.2 :=
    follow_runs (some_get _).symm
  have herror : lateRun.2.1 = .error "dispatch: i/o timeout" := by decide +kernel
  rw [herror] at hrun
  exact ⟨_, _, _, { demoRow with
    generation := 1, lastError := some "dispatch: i/o timeout" }, hrun,
    by decide +kernel, by decide +kernel, by decide +kernel, by decide +kernel, rfl, rfl⟩

/-- The reply names the task, which then does not dial in. -/
def slowTask : List (EnvMove ⊕ (Σ o : Op, Res o)) :=
  firstDispatch ++
  ([.inr ⟨.recv 0, .ok (.ref "task-1")⟩,
     .inr ⟨.setWorkspaceStatus "acme" "w1" .starting "task-1", .ok ()⟩,
     .inr ⟨.waitWorkspace demoKey, .inr 0⟩,
     .inr ⟨.receive demoKey 0, .error "context deadline exceeded"⟩,
     .inr ⟨.failWorkspacePlacement "acme" "w1" .starting "task-1"
       "workspace api did not dial in: context deadline exceeded", .ok ()⟩,
     .inr ⟨.unlock (lockKey demoScope demoRow), ()⟩] : List (EnvMove ⊕ (Σ o : Op, Res o)))

def slowRun : Trace Op Res × Except GoString Tunnel × World :=
  (Prog.follow (machine demoConfig) 0 (ensureWorkspace demoConfig demoScope demoRow)
    (World.init demoCell) slowTask).get (by decide +kernel)

theorem failed_placement_admits_task_slow :
    ∃ w', slowRun.2.2.cell.getWorkspace "acme" "w1" = some w' ∧
      ¬(w'.status = .stopped ∧ w'.taskRef = none) := by
  have hrun : (ensureWorkspace demoConfig demoScope demoRow).Runs (machine demoConfig) 0
      (World.init demoCell) slowRun.1 slowRun.2.1 slowRun.2.2 :=
    follow_runs (some_get _).symm
  have herror : slowRun.2.1 =
      .error "workspace api did not dial in: context deadline exceeded" := by decide +kernel
  rw [herror] at hrun
  have hsent : ⟨.send demoRunner (.startWorkspace (startCommand demoConfig demoScope demoRow 1)),
      .ok 0⟩ ∈ slowRun.1 := by decide +kernel
  have hnoted : ⟨.failWorkspacePlacement "acme" "w1" .starting "task-1"
      "workspace api did not dial in: context deadline exceeded", .ok ()⟩ ∈ slowRun.1 := by
    decide +kernel
  have hadmits := (failed_placement_admits_task demoConfig demoScope demoRow demoRow 0 _ _ _ _
    (by decide +kernel) hrun hsent (by decide +kernel) hnoted).mpr
    (.inr ⟨.ref "task-1", by decide +kernel, by decide +kernel⟩)
  obtain ⟨w', hw'⟩ : ∃ w', slowRun.2.2.cell.getWorkspace "acme" "w1" = some w' :=
    isSome_iff_exists.mp (by decide +kernel)
  exact ⟨w', hw', hadmits w' hw'⟩

end Lemul.MgmtApi
