import Lemul.MgmtApi.Proofs.WarmHoldOwner

/-!
# Whether what a sweep acts on still holds

A sweep takes a copy of the reports and one time, and judges everything by them
(`reaper.go:59-90`). Its own commands block for up to fifteen seconds each
(`reaper.go:136-138`), and handlers start and resume sessions without looking at the reports
(`lifecycle.go:148-211`). What a report says still holds when it is acted on as long as reports
outlast the sweep that uses them, and no process starts that a report not yet used up is
silent about.
-/

namespace Lemul.MgmtApi.Reaper

open Store Lemul.System List

/-- When `StopSession` is sent: the report used is fresh, lists the session, and was measured
after the process of the session that runs started. -/
def StopGrounded (interval : Nat) (s : State) (sessionID : GoString) : Prop :=
  ∃ e, s.evaluated.getLast? = some e ∧
    fresh e.report.toActivityReport s.clock interval = true ∧
    (∃ a ∈ e.report.headroom.activity, a.sessionID = sessionID) ∧
    ∀ p ∈ s.processes, p.session = sessionID → p.running = true → p.started < e.report.measured

/-- When `StopWorkspace` is sent: no process has started in the task since the report used was
measured. -/
def TaskStopGrounded (s : State) (ref : GoString) : Prop :=
  ∃ e, s.evaluated.getLast? = some e ∧
    ∀ p ∈ s.processes, p.task = ref → p.started < e.report.measured

/-- The reports that may still be acted on, those on their way included. -/
def State.open (s : State) : List Report := s.held.map (·.2) ++ s.transit

/-- `rep` has something to say that a new process of `session` in `task` would make untrue. -/
def Report.about (rep : Report) (task session : GoString) : Prop :=
  rep.headroom.sessions ≤ 0 ∧ rep.task = task ∨
    ∃ a ∈ rep.headroom.activity, a.sessionID = session

instance (rep : Report) (task session : GoString) : Decidable (rep.about task session) := by
  unfold Report.about
  infer_instance

/-- A sweep starts at its tick, time passes only as long as the reports of its copy that were
fresh then stay so, and a process starts only while no report is open that it would make
untrue. -/
def factsKept (interval : Nat) (s : State) : Label SweepOp SweepRes Move Nat → Prop
  | .thread _ (.all now) _ => now = s.clock
  | .env (.pass secs) =>
      match s.sweeping with
      | none => True
      | some sw => ∀ x ∈ sw.reports, fresh x.2.toActivityReport sw.now interval = true →
          fresh x.2.toActivityReport (s.clock + secs) interval = true
  | .env (.start task session) => ∀ rep ∈ s.open, ¬rep.about task session
  | _ => True

/-- What the facts a sweep acts on need to last. -/
def groundsKept (interval : Nat) (s : State) (l : Label SweepOp SweepRes Move Nat) : Prop :=
  reportsOwn s l ∧ factsKept interval s l

instance (interval : Nat) (s : State) (l : Label SweepOp SweepRes Move Nat) :
    Decidable (groundsKept interval s l) := by
  have hfacts : Decidable (factsKept interval s l) := by
    induction l using Label.casesOn with
    | thread tid o r =>
      induction o using SweepOp.casesOn <;> dsimp only [factsKept] <;> infer_instance
    | env e =>
      induction e using Move.casesOn with
      | pass secs =>
        dsimp only [factsKept]
        exact match s.sweeping with
          | none => isTrue trivial
          | some sw => inferInstanceAs (Decidable (∀ x ∈ sw.reports, _))
      | _ => dsimp only [factsKept]; infer_instance
    | spawn q => exact isTrue trivial
  exact inferInstanceAs (Decidable (_ ∧ _))

/-- Every process that `rep` has something to say about started before it was measured. -/
def Report.Current (rep : Report) (processes : List Process) : Prop :=
  ∀ p ∈ processes, rep.about p.task p.session → p.started < rep.measured

structure Grounded (interval : Nat) (s : State) : Prop where
  reported : Reported s
  started : ∀ p ∈ s.processes, p.started < s.moment
  current : ∀ rep ∈ s.open, rep.Current s.processes
  fresh : ∀ sw, s.sweeping = some sw → ∀ x ∈ sw.reports,
    fresh x.2.toActivityReport sw.now interval = true →
    fresh x.2.toActivityReport s.clock interval = true

section Steps

variable {interval : Nat} {s s' : State}

/-- A step that adds no report, starts no process and takes no time. -/
theorem Grounded.still (h : Grounded interval s) (hreported : Reported s')
    (hopen : ∀ rep ∈ s'.open, rep ∈ s.open) (hprocesses : s'.processes = s.processes)
    (hmoment : s'.moment = s.moment) (hclock : s'.clock = s.clock)
    (hsweeping : ∀ sw', s'.sweeping = some sw' → ∃ sw, s.sweeping = some sw ∧
      sw'.now = sw.now ∧ sw'.reports = sw.reports) : Grounded interval s' where
  reported := hreported
  started := by
    rw [hprocesses, hmoment]
    exact h.started
  current rep hrep := by
    rw [hprocesses]
    exact h.current rep (hopen rep hrep)
  fresh sw' hsw' := by
    obtain ⟨sw, hsw, hnow, hreports⟩ := hsweeping sw' hsw'
    rw [hnow, hreports, hclock]
    exact h.fresh sw hsw

theorem mem_open {rep : Report} :
    rep ∈ s.open ↔ (∃ k, (k, rep) ∈ s.activity) ∨ (∃ k, (k, rep) ∈ s.copied) ∨
      rep ∈ s.transit := by
  simp only [State.open, State.held, map_append, mem_append, mem_map,
    Prod.exists, exists_eq_right, or_assoc]

variable {tid : Nat} {o : SweepOp} {r : SweepRes o}

/-- What a sweep's operation leaves alone. -/
theorem exec_leaves (h : exec tid o r s = some s') : s'.processes = s.processes ∧
    s'.moment = s.moment ∧ s'.clock = s.clock ∧ s'.transit = s.transit := by
  cases exec_rule h <;> exact ⟨rfl, rfl, rfl, rfl⟩

theorem Grounded.exec (h : Grounded interval s) (hpre : SweepPre interval tid o s)
    (hcond : groundsKept interval s (.thread tid o r))
    (hexec : exec tid o r s = some s') : Grounded interval s' := by
  have hreported := h.reported.exec hpre hexec
  obtain ⟨hprocesses, hmoment, hclock, htransit⟩ := exec_leaves hexec
  have hopen : ∀ rep ∈ s'.open, rep ∈ s.open := by
    intro rep hrep
    rcases mem_append.mp hrep with hrep | hrep
    · obtain ⟨x, hx, rfl⟩ := mem_map.mp hrep
      exact mem_append_left _ (mem_map_of_mem (exec_held hexec x hx))
    · exact mem_append_right _ (htransit ▸ hrep)
  have hstill := h.still hreported hopen hprocesses hmoment hclock
  cases exec_rule hexec with
  | all =>
    refine ⟨hreported, h.started, fun rep hrep => h.current rep (hopen rep hrep), ?_⟩
    intro sw hsw x _ hfresh
    obtain rfl := Option.some.inj hsw
    exact (show _ = s.clock from hcond.2) ▸ hfresh
  | done => exact hstill fun sw' hsw' => by cases hsw'
  | unread hmaking | reads hmaking =>
    refine hstill fun sw' hsw' => ?_
    obtain rfl := Option.some.inj hsw'
    exact ⟨_, hmaking.sweeping, rfl, rfl⟩
  | @api o =>
    refine hstill fun sw' hsw' => ?_
    obtain ⟨sw, hsw, rfl⟩ := Option.map_eq_some_iff.mp hsw'
    exact ⟨sw, hsw, by cases o <;> rfl, by cases o <;> rfl⟩
  | _ => exact hstill fun sw' hsw' => ⟨sw', hsw', rfl, rfl⟩

theorem Grounded.env {d : Driver} {e : Move} (h : Grounded interval s)
    (hcond : groundsKept interval s (.env e)) (henv : env d e s = some s') :
    Grounded interval s' := by
  have hreported := h.reported.env hcond.1 henv
  cases e with
  | world e =>
    obtain ⟨w, -, rfl⟩ := Option.map_eq_some_iff.mp henv
    exact h.still hreported (fun _ hr => hr) rfl rfl rfl fun sw hsw => ⟨sw, hsw, rfl, rfl⟩
  | acts tid o r =>
    simp only [Reaper.env] at henv
    split at henv
    · obtain ⟨w, -, rfl⟩ := Option.map_eq_some_iff.mp henv
      exact h.still hreported (fun _ hr => hr) rfl rfl rfl fun sw hsw => ⟨sw, hsw, rfl, rfl⟩
    · cases henv
  | pass secs =>
    cases henv
    refine ⟨hreported, h.started, h.current, fun sw hsw x hx hfresh => ?_⟩
    have hkept := hcond.2
    simp only [factsKept] at hkept hsw
    rw [hsw] at hkept
    exact hkept x hx hfresh
  | measure task workspaceID free limit activity =>
    cases henv
    refine ⟨hreported, fun p hp => Nat.lt_succ_of_lt (h.started p hp), fun rep hrep => ?_, h.fresh⟩
    rcases mem_append.mp hrep with hheld | htransit
    · exact h.current rep (mem_append_left _ hheld)
    · rcases mem_concat.mp htransit with hold | rfl
      · exact h.current rep (mem_append_right _ hold)
      · exact fun p hp _ => h.started p hp
  | receive i k =>
    simp only [Reaper.env] at henv
    split at henv <;> cases henv
    rename_i rep hrep
    refine ⟨hreported, h.started, fun rep' hrep' => ?_, h.fresh⟩
    rcases mem_open.mp hrep' with ⟨k', hk'⟩ | hcopied | htransit
    · rcases mem_concat.mp hk' with hold | hnew
      · exact h.current rep' (mem_open.mpr (.inl ⟨k', mem_of_mem_filter hold⟩))
      · obtain ⟨-, rfl⟩ := Prod.mk.inj hnew
        exact h.current rep (mem_open.mpr (.inr (.inr (mem_of_getElem? hrep))))
    · exact h.current rep' (mem_open.mpr (.inr (.inl hcopied)))
    · exact h.current rep' (mem_open.mpr (.inr (.inr (mem_of_mem_eraseIdx htransit))))
  | lose i =>
    cases henv
    refine h.still hreported (fun rep hrep => ?_) rfl rfl rfl fun sw hsw => ⟨sw, hsw, rfl, rfl⟩
    rw [mem_open] at hrep ⊢
    exact hrep.imp_right (.imp_right mem_of_mem_eraseIdx)
  | forget k =>
    cases henv
    refine h.still hreported (fun rep hrep => ?_) rfl rfl rfl fun sw hsw => ⟨sw, hsw, rfl, rfl⟩
    rw [mem_open] at hrep ⊢
    exact hrep.imp_left (.imp fun _ => mem_of_mem_filter)
  | start task session =>
    cases henv
    refine ⟨hreported, fun p hp => ?_, fun rep hrep p hp habout => ?_, h.fresh⟩
    · rcases mem_concat.mp hp with hold | rfl
      · exact Nat.lt_succ_of_lt (h.started p hold)
      · exact Nat.lt_succ_self _
    · rcases mem_concat.mp hp with hold | rfl
      · exact h.current rep hrep p hold habout
      · exact absurd habout (hcond.2 rep hrep)
  | exit i =>
    simp only [Reaper.env] at henv
    split at henv <;> cases henv
    rename_i p hp
    have hmem := mem_of_getElem? hp
    refine ⟨hreported, fun q hq => ?_, fun rep hrep q hq habout => ?_, h.fresh⟩
    · rcases mem_or_eq_of_mem_set hq with hold | rfl
      · exact h.started q hold
      · exact h.started p hmem
    · rcases mem_or_eq_of_mem_set hq with hold | rfl
      · exact h.current rep hrep q hold habout
      · exact h.current rep hrep p hmem habout
  | policy tenantID id idle secs | sessions rows =>
    cases henv
    exact h.still hreported (fun _ hr => hr) rfl rfl rfl fun sw hsw => ⟨sw, hsw, rfl, rfl⟩

/-- The report a sweep is using is open. -/
theorem Judging.open {sw : Sweeping} {e : Evaluation}
    (h : Judging interval tid sw e s) : e.report ∈ s.open := by
  have hcopied : s.copied = sw.reports := by simp only [State.copied, h.sweeping]
  exact mem_open.mpr (.inr (.inl ⟨_, hcopied ▸ h.reported⟩))

theorem Grounded.stopSession {t : Tunnel} {sessionID : GoString} (h : Grounded interval s)
    (hpre : SweepPre interval tid (.stopSession t sessionID) s) :
    StopGrounded interval s sessionID := by
  obtain ⟨sw, -, e, hat, a, ha, hsession⟩ := hpre
  refine ⟨e, hat.last, ?_, ⟨a, ha, hsession⟩, fun p hp hps _ => ?_⟩
  · exact h.fresh sw hat.sweeping _ hat.reported hat.fresh
  · exact h.current e.report hat.open p hp (.inr ⟨a, ha, hsession.trans hps.symm⟩)

theorem Grounded.stopWorkspace {runner : Tunnel} {m : StopWorkspace} (h : Grounded interval s)
    (hpre : SweepPre interval tid (.api (.send runner (.stopWorkspace m))) s) :
    TaskStopGrounded s m.ref := by
  obtain ⟨sw, -, e, hat, -, href, hsessions, -⟩ := hpre
  have hmem := mem_of_getLast? hat.last
  have hown : e.report.task = m.ref := by
    rcases h.reported.used e hmem with hnone | hown
    · cases hnone.symm.trans href
    · exact Option.some.inj (hown.symm.trans href)
  have hnone : e.report.headroom.sessions ≤ 0 := Int.toNat_eq_zero.mp hsessions
  refine ⟨e, hat.last, fun p hp htask => ?_⟩
  exact h.current e.report hat.open p hp (.inl ⟨hnone, hown.trans htask.symm⟩)

end Steps

theorem grounded_boot (interval : Nat) (cell : Workspaces) (idle : GoString → IdleColumns)
    (sessions : List SessionRow) : Grounded interval (boot cell idle sessions).shared where
  reported := reported_boot cell idle sessions
  started := nofun
  current := nofun
  fresh := nofun

/-! ## Every run -/

/-- In every interleaving, from any tables, whose steps all meet the condition: what a sweep
sends is a `StopSession` or a `StopWorkspace` whose grounds still hold when it is sent. -/
theorem stops_on_current_facts (cfg : Config) (interval : Nat) (cell : Workspaces)
    (idle : GoString → IdleColumns) (sessions : List SessionRow)
    {tr : SweepSchedule} {pool : ReaperPool}
    (hrun : Path (reaper cfg interval) (groundsKept interval) (boot cell idle sessions)
      tr pool) :
    (∀ tid t sessionID r next, Step (reaper cfg interval) pool
      (.thread tid (.stopSession t sessionID) r) next →
        StopGrounded interval pool.shared sessionID) ∧
    ∀ tid runner m r next, Step (reaper cfg interval) pool
      (.thread tid (.api (.send runner (.stopWorkspace m))) r) next →
        TaskStopGrounded pool.shared m.ref := by
  obtain ⟨hgrounded, houtline⟩ := sweeps_keep (I := Grounded interval)
    (fun _ _ _ _ _ h hpre hcond hexec => h.exec hpre hcond hexec)
    (fun _ _ _ h hcond henv => h.env hcond henv) (grounded_boot interval cell idle sessions) hrun
  refine ⟨fun tid t sessionID r next hstep => ?_, fun tid runner m r next hstep => ?_⟩
  · exact hgrounded.stopSession (t := t) (Outline.pre_of_step houtline hstep)
  · exact hgrounded.stopWorkspace (Outline.pre_of_step houtline hstep)

/-! ## A session resumed during a sweep -/

/-- A session that has been quiet for two hours. -/
def demoQuiet (sessionID : GoString) : SessionActivity := ⟨sessionID, 0, 7200, 7200, 7200⟩

/-- The report of a task with the quiet session `s1`. -/
def quietReport (receivedAt measured : Nat) : Report where
  headroom := ⟨"api", 512, 1024, 1, [demoQuiet "s1"]⟩
  receivedAt := receivedAt
  task := "task-1"
  measured := measured

def demoSession : SessionRow := ⟨"s1", "acme", "w1", none⟩

/-- The session is reported quiet and the sweep is about to stop it. -/
def quietSession (between : SweepSchedule) :
    SweepSchedule :=
  demoPlaced ++
  ([.env (.start "task-1" "s1"),
     .env (.measure "task-1" "api" 512 1024 [demoQuiet "s1"]),
     .env (.receive 0 demoKey)] : SweepSchedule) ++
  demoSweep 0 0 (quietReport 0 1) (demoRunning 1 "task-1" none) ++
  ([.thread 0 (.listWorkspaceSessions "acme" "w1") (.ok [demoSession]),
     .thread 0 (.api (.pickWorkspace demoKey)) (some (demoTunnel 1))] : SweepSchedule) ++ between

/-- It exits, and its user resumes it. -/
def resumedAfterReport : ReaperPool :=
  final (reaper demoConfig 10) anyStep
    (boot demoCell (fun _ => demoColumns) [demoSession])
    (quietSession [.env (.exit 0), .env (.start "task-1" "s1")])

/-- `StopSession` is sent to the process that has just been started, for what was measured of
the one before. -/
theorem resumed_session_stopped :
    ∃ (tr : SweepSchedule) (next : ReaperPool),
      Path (reaper demoConfig 10) anyStep
        (boot demoCell (fun _ => demoColumns) [demoSession]) tr resumedAfterReport ∧
      Step (reaper demoConfig 10) resumedAfterReport
        (.thread 0 (.stopSession (demoTunnel 1) "s1") (.ok ())) next ∧
      ¬StopGrounded 10 resumedAfterReport.shared "s1" := by
  obtain ⟨next, hstep⟩ : ∃ next, Step (reaper demoConfig 10) resumedAfterReport
      (.thread 0 (.stopSession (demoTunnel 1) "s1") (.ok ())) next :=
    exists_step (by decide +kernel)
  refine ⟨_, next, final_path (by decide +kernel), hstep, ?_⟩
  rintro ⟨e, hlast, -, -, hstarted⟩
  have hlog : resumedAfterReport.shared.evaluated.getLast? =
      some ⟨demoRunning 1 "task-1" none, quietReport 0 1, 0⟩ := by
    decide +kernel
  have hprocess : (⟨"task-1", "s1", 2, true⟩ : Process) ∈ resumedAfterReport.shared.processes := by
    decide +kernel
  obtain rfl := Option.some.inj (hlog.symm.trans hlast)
  exact absurd (hstarted _ hprocess rfl rfl) (by decide)

def stillQuiet : ReaperPool :=
  final (reaper demoConfig 10) (groundsKept 10)
    (boot demoCell (fun _ => demoColumns) [demoSession]) (quietSession [.env (.pass 30)])

theorem stops_on_current_facts_quiet : StopGrounded 10 stillQuiet.shared "s1" := by
  have hrun : Path (reaper demoConfig 10) (groundsKept 10)
      (boot demoCell (fun _ => demoColumns) [demoSession]) (quietSession [.env (.pass 30)])
      stillQuiet := final_path (by decide +kernel)
  obtain ⟨next, hstep⟩ : ∃ next, Step (reaper demoConfig 10) stillQuiet
      (.thread 0 (.stopSession (demoTunnel 1) "s1") (.ok ())) next :=
    exists_step (by decide +kernel)
  exact (stops_on_current_facts demoConfig 10 demoCell (fun _ => demoColumns) [demoSession]
    hrun).1 0 _ _ _ next hstep

end Lemul.MgmtApi.Reaper
