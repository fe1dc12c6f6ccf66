import Lemul.MgmtApi.Proofs.ReportInvariant

/-!
# A task's own warm hold

`warm_hold_until` is a column of the workspace, and only a sweep clears it
(`reaper.go:250-284`): a task that is lost during its hold leaves the deadline to its
replacement. A hold is the task's own as long as a task is recorded only while the column is
null and the writes of the column go through. `HoldsOwn` is the invariant: the deadline of a
row that names a task was set by an evaluation from which on all reports of the row were that
task's and counted no sessions. The row a sweep is at is the exception until the sweep has
written what it decides about it.
-/

namespace Lemul.MgmtApi.Reaper

open Store List Option Workspaces Lemul.System

/-! ## Holds -/

/-- From `e` on, through `rest`, the record `id` was evaluated by reports of `ref` that counted
no sessions. -/
def HeldFrom (id ref : GoString) (e : Evaluation) (rest : List Evaluation) : Prop :=
  e.row.id = id ∧ ∀ e' ∈ e :: rest, e'.row.id = id →
    e'.report.task = ref ∧ e'.report.headroom.sessions = 0

/-- The deadline `till` was set by an evaluation of `log`, and held since. -/
def HoldStarted (log : List Evaluation) (id ref : GoString) (till : Nat) : Prop :=
  ∃ e rest, e :: rest <:+ log ∧ HeldFrom id ref e rest ∧ till = e.now + e.row.warmHoldSecs

/-- When a sweep is about to stop `ref`: an earlier evaluation, a full warm hold before this
one, from which on the record was evaluated by reports of `ref` that counted no sessions. -/
def HeldThroughout (s : State) (ref : GoString) : Prop :=
  ∃ sw id e rest, s.sweeping = some sw ∧ sw.judging = some id ∧ rest ≠ [] ∧
    e :: rest <:+ s.evaluated ∧ HeldFrom id ref e rest ∧ e.now + e.row.warmHoldSecs ≤ sw.now

section Log

variable {log : List Evaluation} {id ref : GoString} {till : Nat} {e : Evaluation}

variable {first : Evaluation} {rest : List Evaluation}

theorem HeldFrom.snoc (h : HeldFrom id ref first rest)
    (he : e.row.id = id → e.report.task = ref ∧ e.report.headroom.sessions = 0) :
    HeldFrom id ref first (rest ++ [e]) := by
  refine ⟨h.1, fun e' he' hid => ?_⟩
  rw [← cons_append] at he'
  rcases mem_concat.mp he' with hold | rfl
  · exact h.2 e' hold hid
  · exact he hid

theorem suffix_snoc (h : first :: rest <:+ log) :
    first :: (rest ++ [e]) <:+ log ++ [e] := by
  obtain ⟨before, rfl⟩ := h
  exact ⟨before, by simp⟩

theorem HoldStarted.snoc (h : HoldStarted log id ref till)
    (he : e.row.id = id → e.report.task = ref ∧ e.report.headroom.sessions = 0) :
    HoldStarted (log ++ [e]) id ref till := by
  obtain ⟨first, rest, hsuffix, hheld, htill⟩ := h
  exact ⟨first, rest ++ [e], suffix_snoc hsuffix, hheld.snoc he, htill⟩

theorem HoldStarted.start (hsessions : e.report.headroom.sessions = 0) :
    HoldStarted (log ++ [e]) e.row.id e.report.task (e.now + e.row.warmHoldSecs) := by
  refine ⟨e, [], suffix_append _ _, ⟨rfl, fun e' he' _ => ?_⟩, rfl⟩
  rw [mem_singleton.mp he']
  exact ⟨rfl, hsessions⟩

theorem log_snoc (h : log.getLast? = some e) : log = log.dropLast ++ [e] :=
  (dropLast_append_getLast? e h).symm

end Log

/-! ## The condition and the invariant -/

/-- A task is recorded only while no hold is running, and writes of the hold go through. -/
def holdsWritten (s : State) : Label SweepOp SweepRes Move Nat → Prop
  | .env (.acts _ o _) =>
      match givesRef o with
      | none => True
      | some (tenantID, id, ref) =>
          match s.world.cell.getWorkspace tenantID id with
          | none => True
          | some w => w.taskRef = some ref ∨ w.warmHoldUntil = none
  | .thread _ (.api (.setWarmHold _ _ _)) r => r = .ok ()
  | _ => True

/-- What a hold needs to be one task's own. -/
def heldByTask (s : State) (l : Label SweepOp SweepRes Move Nat) : Prop :=
  reportsOwn s l ∧ holdsWritten s l

instance (s : State) (l : Label SweepOp SweepRes Move Nat) : Decidable (reportsOwn s l) := by
  unfold reportsOwn
  repeat' split
  all_goals infer_instance

instance (s : State) (l : Label SweepOp SweepRes Move Nat) : Decidable (heldByTask s l) := by
  unfold heldByTask holdsWritten
  repeat' split
  all_goals infer_instance

/-- The hold of `w`, if it names a task, was that task's from the start. -/
def Founded (log : List Evaluation) (w : Workspace) : Prop :=
  ∀ ref till, w.taskRef = some ref → w.warmHoldUntil = some till → HoldStarted log w.id ref till

/-- What `w` has of the row that a sweep read in `e`. -/
structure FromRow (sw : Sweeping) (e : Evaluation) (w : Workspace) : Prop where
  id : w.id = e.row.id
  tenantID : w.tenantID = e.row.tenantID
  hold : w.warmHoldUntil = sw.wrote.getD e.row.warmHoldUntil
  own : w.taskRef = none ∨ w.taskRef = some e.report.task
  kept : sw.wrote = none → e.row.warmHoldUntil ≠ none →
    w.taskRef = none ∨ w.taskRef = e.row.taskRef

/-- What is known of the row a sweep is at, which it read in `e`. -/
structure AtRow (c : Workspaces) (log : List Evaluation) (sw : Sweeping) (e : Evaluation) :
    Prop where
  counted : 0 ≤ e.report.headroom.sessions
  founded : Founded log.dropLast e.row
  row : ∃ w ∈ c.rows, FromRow sw e w

structure HoldsOwn (s : State) : Prop where
  reported : Reported s
  counted : ∀ x ∈ s.held, 0 ≤ x.2.headroom.sessions
  transit : ∀ rep ∈ s.transit, 0 ≤ rep.headroom.sessions
  founded : ∀ w ∈ s.world.cell.rows, s.judging ≠ some w.id → Founded s.evaluated w
  atRow : ∀ sw e, s.sweeping = some sw → sw.judging = some e.row.id →
    s.evaluated.getLast? = some e → AtRow s.world.cell s.evaluated sw e

/-! ## Steps -/

section Steps

variable {s s' : State} {sw : Sweeping} {e : Evaluation}

variable {w : Workspace} {interval tid : Nat}

/-- A hold that is left by a decision was started by it, or was there before. -/
theorem Evaluation.hold_decided {till : Nat}
    (h : e.decision.getD e.row.warmHoldUntil = some till) :
    ¬0 < e.report.headroom.sessions.toNat ∧
      (e.row.warmHoldUntil = none ∧ till = e.now + e.row.warmHoldSecs ∨
        e.row.warmHoldUntil = some till ∧ e.decision = none) := by
  unfold decision holdDecision at h ⊢
  cases hrow : e.row.warmHoldUntil <;> grind

/-- When what was decided has been written, the row's hold is in order. -/
theorem AtRow.settled (h : AtRow s.world.cell s.evaluated sw e) (hreported : Reported s)
    (hlast : s.evaluated.getLast? = some e) (hwrote : sw.wrote = e.decision)
    (hw : w ∈ s.world.cell.rows) (hid : w.id = e.row.id) : Founded s.evaluated w := by
  intro ref till href htill
  obtain ⟨v, hv, hrow⟩ := h.row
  obtain rfl := eq_of_id hw hv (hid.trans hrow.id.symm)
  have hhold := hrow.hold.symm.trans htill
  rw [hwrote] at hhold
  obtain ⟨hsessions, hstart | ⟨hrest, hnone⟩⟩ := Evaluation.hold_decided hhold
  all_goals
    have hzero : e.report.headroom.sessions = 0 := by
      have hcounted := h.counted
      omega
    rw [hid, log_snoc hlast]
  · rcases hrow.own with hnone | hown
    · cases hnone.symm.trans href
    · obtain rfl := Option.some.inj (hown.symm.trans href)
      rw [hstart.2]
      exact .start hzero
  · rcases hrow.kept (hwrote.trans hnone) (hrest.trans_ne (some_ne_none till)) with hgone | hsame
    · cases hgone.symm.trans href
    · have href' := hsame.symm.trans href
      refine (h.founded ref till href' hrest).snoc fun _ => ⟨?_, hzero⟩
      rcases hreported.used e (mem_of_getLast? hlast) with hgone | hown
      · cases hgone.symm.trans href'
      · exact Option.some.inj (hown.symm.trans href')

theorem HoldsOwn.settled (h : HoldsOwn s) (hmaking : Making tid sw s)
    (hdecided : Decided interval tid sw s) (hw : w ∈ s.world.cell.rows) :
    Founded s.evaluated w := by
  by_cases hj : s.judging = some w.id
  · have hjudging : sw.judging = some w.id := by
      simpa only [State.judging, hmaking.sweeping, bind_some] using hj
    rcases hdecided with hnone | ⟨e, hat, hwrote⟩
    · cases hnone.symm.trans hjudging
    · have hid := Option.some.inj (hjudging.symm.trans hat.judging)
      exact (h.atRow sw e hat.sweeping hat.judging hat.last).settled h.reported hat.last hwrote hw
        hid
  · exact h.founded w hw hj

/-- Rows that moved without a write of the hold, and reports that were not added to. -/
theorem HoldsOwn.moved {o : Op} (h : HoldsOwn s) (hreported : Reported s')
    (hrows : RowsMoved o s.world.cell s'.world.cell) (hhold : setsHold o = false)
    (hheld : ∀ x ∈ s'.held, x ∈ s.held) (htransit : ∀ rep ∈ s'.transit, rep ∈ s.transit)
    (hsweeping : s'.sweeping = s.sweeping) (hlog : s'.evaluated = s.evaluated)
    (hgives : ∀ tenantID id ref, givesRef o = some (tenantID, id, ref) → ∀ w ∈ s.world.cell.rows,
      w.tenantID = tenantID → w.id = id → w.taskRef = some ref ∨
        w.warmHoldUntil = none ∧ s.judging ≠ some w.id) : HoldsOwn s' where
  reported := hreported
  counted x hx := h.counted x (hheld x hx)
  transit rep hrep := h.transit rep (htransit rep hrep)
  founded w' hw' hj := by
    rw [hlog]
    intro ref till href htill
    rcases hrows.back w' hw' with ⟨w, hw, hmoved⟩ | hnew
    · rw [hmoved.hold hhold] at htill
      rw [hmoved.id]
      have hfounded := h.founded w hw (by
        rw [State.judging, hsweeping, hmoved.id] at hj
        exact hj) ref till
      rcases hmoved.taskRef with hsame | hnone | ⟨given, hgave, hgiven⟩
      · exact hfounded (hsame.symm.trans href) htill
      · cases hnone.symm.trans href
      · rcases hgives _ _ _ hgave w hw rfl rfl with hsame | hfree
        · exact hfounded (hsame.trans (hgiven.symm.trans href)) htill
        · cases hfree.1.symm.trans htill
    · cases hnew.1.symm.trans href
  atRow sw e hsw hj hlast := by
    rw [hsweeping] at hsw
    rw [hlog] at hlast
    have hat := h.atRow sw e hsw hj hlast
    obtain ⟨w, hw, hrow⟩ := hat.row
    obtain ⟨w', hw', hmoved⟩ := hrows.forward w hw
    have href : w'.taskRef = w.taskRef ∨ w'.taskRef = none := by
      rcases hmoved.taskRef with hsame | hnone | ⟨given, hgave, hgiven⟩
      · exact .inl hsame
      · exact .inr hnone
      · rcases hgives _ _ _ hgave w hw rfl rfl with hsame | hfree
        · exact .inl (hgiven.trans hsame.symm)
        · refine absurd ?_ hfree.2
          rw [State.judging, hsw, hrow.id]
          exact hj
    rw [hlog]
    refine ⟨hat.counted, hat.founded, w', hw', hmoved.id.trans hrow.id,
      hmoved.tenantID.trans hrow.tenantID, (hmoved.hold hhold).trans hrow.hold, ?_, ?_⟩
    · rcases href with hsame | hnone
      · rw [hsame]
        exact hrow.own
      · exact .inl hnone
    · intro hwrote hset
      rcases href with hsame | hnone
      · rw [hsame]
        exact hrow.kept hwrote hset
      · exact .inl hnone

/-- A step that leaves the table, the sweep and its log alone. -/
theorem HoldsOwn.still (h : HoldsOwn s) (hreported : Reported s')
    (hcell : s'.world.cell = s.world.cell) (hheld : ∀ x ∈ s'.held, x ∈ s.held)
    (htransit : ∀ rep ∈ s'.transit, rep ∈ s.transit) (hsweeping : s'.sweeping = s.sweeping)
    (hlog : s'.evaluated = s.evaluated) : HoldsOwn s' := by
  refine h.moved (o := .pickRunner []) hreported ?_ rfl hheld htransit hsweeping hlog
    nofun
  rw [hcell]
  exact .refl _ _

/-- Reading the next row. -/
theorem HoldsOwn.judge {k : WsKey} {rep : Report} {now : Nat} {ws : Workspace} (h : HoldsOwn s)
    (hmaking : Making tid sw s)
    (hdecided : Decided interval tid sw s) (hmem : (k, rep) ∈ sw.reports)
    (hrow : s.world.cell.getWorkspaceByName k.tenantID k.name = some ws)
    (hreported : Reported { s with
      sweeping := some { sw with judging := some ws.id, wrote := none }
      evaluated := s.evaluated ++ [⟨ws, rep, now⟩] })
    (hheld : ∀ x ∈ s.activity ++ sw.reports, x ∈ s.held) :
    HoldsOwn { s with
      sweeping := some { sw with judging := some ws.id, wrote := none }
      evaluated := s.evaluated ++ [⟨ws, rep, now⟩] } := by
  have hkrep : (k, rep) ∈ s.held := hheld _ (mem_append_right _ hmem)
  obtain ⟨hws, hname, htenant⟩ := getWorkspaceByName_eq_some.mp hrow
  refine ⟨hreported, fun x hx => h.counted x (hheld x hx), h.transit, ?_, ?_⟩
  · intro w hw hj ref till href htill
    refine (h.settled hmaking hdecided hw ref till href htill).snoc fun hid => ?_
    exact absurd (congrArg some hid) hj
  · intro sw' e hsw hj hlast
    obtain rfl := Option.some.inj hsw
    rw [getLast?_concat] at hlast
    obtain rfl := Option.some.inj hlast
    refine ⟨h.counted _ hkrep, ?_, ws, hws, rfl, rfl, rfl, ?_, fun _ _ => .inr rfl⟩
    · dsimp only
      rw [dropLast_concat]
      exact h.settled hmaking hdecided hws
    · refine h.reported.own (k, rep) hkrep ws hws ?_
      rw [hname, htenant]

/-- The write a sweep has decided on. -/
theorem HoldsOwn.setWarmHold {till : Option Nat} {world : World} (h : HoldsOwn s)
    (hat : Judging interval tid sw e s)
    (hexec : MgmtApi.exec tid (.setWarmHold e.row.tenantID e.row.id till) (.ok ()) s.world =
      some world)
    (hs' : s' = { s with
      world := world
      sweeping := s.sweeping.map (·.note (.setWarmHold e.row.tenantID e.row.id till)) })
    (hreported : Reported s') (hheld : ∀ x ∈ s'.held, x ∈ s.held) : HoldsOwn s' := by
  subst hs'
  have hrow := h.atRow sw e hat.sweeping hat.judging hat.last
  have hcell : world.cell = s.world.cell.setWarmHold e.row.tenantID e.row.id till := by
    simp only [MgmtApi.exec, World.statement] at hexec
    cases hexec
    rfl
  have hmap : s.sweeping.map (·.note (.setWarmHold e.row.tenantID e.row.id till)) =
      some { sw with wrote := some till } := by
    rw [hat.sweeping]
    rfl
  have hjudging : s.judging = some e.row.id := by
    rw [State.judging, hat.sweeping]
    exact hat.judging
  obtain ⟨w₀, hw₀, hfrom⟩ := hrow.row
  have hisrow : w₀.isRow e.row.tenantID e.row.id = true :=
    Workspace.isRow_iff.mpr ⟨hfrom.id, hfrom.tenantID⟩
  refine ⟨hreported, fun x hx => h.counted x (hheld x hx), h.transit, ?_, ?_⟩
  · intro w' hw' hj
    dsimp only at hw'
    rw [hcell] at hw'
    obtain ⟨w, hw, rfl⟩ := mem_update.mp hw'
    have hne : w.id ≠ e.row.id := by
      intro hid
      obtain rfl := eq_of_id hw hw₀ (hid.trans hfrom.id.symm)
      refine hj ?_
      rw [State.judging, hmap, rewrite_of_isRow hisrow]
      exact hat.judging.trans (congrArg some hid.symm)
    rw [rewrite, if_neg fun hrow => hne (Workspace.isRow_iff.mp hrow).1]
    exact h.founded w hw fun hjw => hne (Option.some.inj (hjw.symm.trans hjudging))
  · intro sw' e' hsw hj hlast
    obtain rfl := Option.some.inj (hmap.symm.trans hsw)
    obtain rfl := Option.some.inj (hat.last.symm.trans hlast)
    refine ⟨hrow.counted, hrow.founded, { w₀ with warmHoldUntil := till }, ?_, hfrom.id,
      hfrom.tenantID, rfl, hfrom.own, fun hw => by cases hw⟩
    dsimp only
    rw [hcell]
    exact mem_update.mpr ⟨w₀, hw₀, rewrite_of_isRow hisrow⟩

theorem HoldsOwn.exec {o : SweepOp} {r : SweepRes o} (h : HoldsOwn s)
    (hpre : SweepPre interval tid o s) (hcond : heldByTask s (.thread tid o r))
    (hexec : exec tid o r s = some s') : HoldsOwn s' := by
  have hreported := h.reported.exec hpre hexec
  have hheld := exec_held hexec
  have hcounted := fun x hx => h.counted x (hheld x hx)
  cases exec_rule hexec with
  | all hfree hperm =>
    refine ⟨hreported, hcounted, h.transit, ?_, ?_⟩
    · intro w hw _
      refine h.founded w hw ?_
      rw [State.judging, hfree]
      exact nofun
    · intro sw e hsw hj _
      obtain rfl := Option.some.inj hsw
      cases hj
  | done =>
    obtain ⟨sw, hmaking, hdecided⟩ := hpre
    refine ⟨hreported, hcounted, h.transit, ?_, ?_⟩
    · exact fun w hw _ => h.settled hmaking hdecided hw
    · exact fun _ _ hsw => by cases hsw
  | unread hmaking' =>
    obtain ⟨sw, hmaking, hdecided, -, hmem, -⟩ := hpre
    obtain rfl := hmaking.unique hmaking'
    refine ⟨hreported, hcounted, h.transit, ?_, ?_⟩
    · exact fun w hw _ => h.settled hmaking hdecided hw
    · intro sw' e' hsw hj _
      obtain rfl := Option.some.inj hsw
      cases hj
  | reads hmaking' hrow =>
    obtain ⟨sw, hmaking, hdecided, -, hmem, -⟩ := hpre
    obtain rfl := hmaking.unique hmaking'
    exact h.judge hmaking hdecided hmem hrow hreported hheld
  | @api o r w hw =>
    obtain ⟨sw, hmaking, hshared⟩ := hpre
    by_cases hhold : setsHold o = false
    · have hsweeping : s.sweeping.map (·.note o) = s.sweeping := by
        refine (exec_quiet hexec ?_).1
        cases o <;> first | rfl | cases hhold
      refine h.moved hreported (exec_rowsMoved hw hshared.keepsRows) hhold hheld (fun _ hr => hr)
        hsweeping rfl ?_
      intro _ _ _ hgave
      cases hshared.givesRef.symm.trans hgave
    · cases o with
      | setWarmHold tenantID id till =>
        obtain ⟨e, hat, -, -, rfl, rfl⟩ := hshared
        obtain rfl : r = .ok () := hcond.2
        exact h.setWarmHold hat hw rfl hreported hheld
      | _ => exact absurd rfl hhold
  | _ => exact h.still hreported rfl hheld (fun _ hr => hr) rfl rfl

theorem HoldsOwn.env {d : Driver} {e : Move} (h : HoldsOwn s) (hcond : heldByTask s (.env e))
    (henv : env d e s = some s') : HoldsOwn s' := by
  have hreported := h.reported.env hcond.1 henv
  cases e with
  | world e =>
    obtain ⟨w, hw, rfl⟩ := map_eq_some_iff.mp henv
    exact h.still hreported (envStep_untouched hw).cell (fun _ hx => hx) (fun _ hr => hr) rfl rfl
  | acts tid o r =>
    simp only [Reaper.env] at henv
    split at henv
    · rename_i hop
      obtain ⟨w, hw, rfl⟩ := map_eq_some_iff.mp henv
      refine h.moved hreported (exec_rowsMoved hw (placementOp_keepsRows hop))
        (placementOp_setsHold hop) (fun _ hx => hx) (fun _ hr => hr) rfl rfl ?_
      intro tenantID id ref hgave v hv htenant hid
      have hrow := getWorkspace_eq_some.mpr ⟨hv, hid, htenant⟩
      simp only [heldByTask, reportsOwn, holdsWritten, hgave, hrow] at hcond
      rcases hcond.1 with hsame | hfree
      · exact .inl hsame
      · exact hcond.2.imp_right fun hnone => ⟨hnone, hfree.2⟩
    · cases henv
  | receive i k =>
    simp only [Reaper.env] at henv
    split at henv <;> cases henv
    rename_i rep hrep
    refine ⟨hreported, fun x hx => ?_, fun r hr => h.transit r (mem_of_mem_eraseIdx hr),
      h.founded, h.atRow⟩
    rcases mem_append.mp hx with hx | hx
    · rcases mem_concat.mp hx with hold | rfl
      · exact h.counted x (mem_append_left _ (mem_of_mem_filter hold))
      · exact h.transit rep (mem_of_getElem? hrep)
    · exact h.counted x (mem_append_right _ hx)
  | measure task workspaceID free limit activity =>
    cases henv
    refine ⟨hreported, h.counted, fun r hr => ?_, h.founded, h.atRow⟩
    rcases mem_concat.mp hr with hold | rfl
    · exact h.transit r hold
    · exact Int.natCast_nonneg _
  | lose i =>
    cases henv
    exact h.still hreported rfl (fun _ hx => hx) (fun _ hr => mem_of_mem_eraseIdx hr) rfl rfl
  | forget k =>
    cases henv
    exact h.still hreported rfl held_forget (fun _ hr => hr) rfl rfl
  | exit i =>
    simp only [Reaper.env] at henv
    split at henv <;> cases henv
    exact h.still hreported rfl (fun _ hx => hx) (fun _ hr => hr) rfl rfl
  | policy tenantID id idle secs =>
    cases henv
    refine h.moved (o := .pickRunner []) hreported ?_ rfl (fun _ hx => hx) (fun _ hr => hr) rfl rfl
      fun _ _ _ h => by cases h
    exact rowsMoved_update rfl fun _ _ _ => ⟨rfl, rfl, rfl, .inl rfl, fun _ => rfl⟩
  | _ =>
    cases henv
    exact h.still hreported rfl (fun _ hx => hx) (fun _ hr => hr) rfl rfl

end Steps

theorem holdsOwn_boot {cell : Workspaces} (idle : GoString → IdleColumns)
    (sessions : List SessionRow) (hcell : ∀ w ∈ cell.rows, w.warmHoldUntil = none) :
    HoldsOwn (boot cell idle sessions).shared where
  reported := reported_boot cell idle sessions
  counted _ := nofun
  transit _ := nofun
  founded w hw _ _ _ _ htill := by cases (hcell w hw).symm.trans htill
  atRow _ _ := nofun

/-- A sweep stops a task only where a full hold of its own has run out. -/
theorem HoldsOwn.stops {interval tid : Nat} {s : State} {runner : Tunnel} {m : StopWorkspace}
    (h : HoldsOwn s) (hpre : SweepPre interval tid (.api (.send runner (.stopWorkspace m))) s) :
    HeldThroughout s m.ref := by
  obtain ⟨sw, -, e, hat, -, href, hsessions, till, htill, hdue⟩ := hpre
  have hrow := h.atRow sw e hat.sweeping hat.judging hat.last
  obtain ⟨first, rest, hsuffix, hheld, rfl⟩ := hrow.founded m.ref till href htill
  have hown : e.report.task = m.ref := by
    rcases h.reported.used e (mem_of_getLast? hat.last) with hnone | hown
    · cases hnone.symm.trans href
    · exact some.inj (hown.symm.trans href)
  have hzero : e.report.headroom.sessions = 0 := by
    have hcounted := hrow.counted
    omega
  refine ⟨sw, e.row.id, first, rest ++ [e], hat.sweeping, hat.judging, ?_, ?_, ?_, ?_⟩
  · exact append_ne_nil_of_right_ne_nil rest (cons_ne_nil e [])
  · rw [log_snoc hat.last]
    exact suffix_snoc hsuffix
  · exact hheld.snoc fun _ => ⟨hown, hzero⟩
  · rw [← hat.now]
    exact hdue

/-! ## Every run -/

/-- In every run of sweeps, reports, placements, crashes and replacements whose steps all meet
the condition, from any table without a hold: when a sweep sends `StopWorkspace`, the task has
been held for a full warm hold of its own. -/
theorem stopped_after_own_hold (cfg : Config) (interval : Nat) {cell : Workspaces}
    (idle : GoString → IdleColumns) (sessions : List SessionRow)
    (hcell : ∀ w ∈ cell.rows, w.warmHoldUntil = none)
    {tr : SweepSchedule} {pool next : ReaperPool} {tid : Nat}
    {runner : Tunnel} {m : StopWorkspace} {r : Except GoString Nat}
    (hrun : Path (reaper cfg interval) heldByTask (boot cell idle sessions) tr pool)
    (hstep : Step (reaper cfg interval) pool
      (.thread tid (.api (.send runner (.stopWorkspace m))) r) next) :
    HeldThroughout pool.shared m.ref := by
  obtain ⟨hholds, houtline⟩ := sweeps_keep (I := HoldsOwn)
    (fun _ _ _ _ _ h hpre hcond hexec => h.exec hpre hcond hexec)
    (fun _ _ _ h hcond henv => h.env hcond henv) (holdsOwn_boot idle sessions hcell) hrun
  exact hholds.stops (Outline.pre_of_step houtline hstep)

/-! ## A hold that outlives its task -/

/-- What the other handlers do, beside sweeps. -/
def beside (tr : Schedule) : SweepSchedule :=
  tr.filterMap fun
    | .thread tid o r => some (.env (.acts tid o r))
    | .env e => some (.env (.world e))
    | .spawn _ => none

/-- The row with the task `ref` of generation `gen`. -/
def demoRunning (gen : Nat) (ref : GoString) (hold : Option Nat) : Workspace :=
  demoRowAt gen .active (some ref) hold none

/-- A request by thread 10 that places the first task, which thread 11 serves. -/
def demoPlaced : SweepSchedule :=
  beside (([.env (.runnerUp "acme" "runner"),
     .thread 10 (.getWorkspaceByName "acme" "api") (.ok demoRow),
     .thread 10 (.lock (lockKey demoScope demoRow)) (),
     .thread 10 (.pickWorkspace demoKey) none] : Schedule) ++
  demoDispatch 10 demoRow 1 0 ++ ([.env (.handle 0 (.placed "task-1"))] : Schedule) ++
  demoArrival 10 demoRow 0 "task-1" 0 11 0 1 (demoRowAt 1 .starting (some "task-1") none none))

/-- The first task is lost, and a request by thread 12 that finds the deadline `hold` in the row
places a second one. -/
def demoReplaced (hold : Option Nat) : SweepSchedule :=
  beside [.env (.tunnelDown 1),
    .thread 11 (.drainEvents (demoTunnel 1)) (),
    .thread 11 (.removeWorkspace (demoTunnel 1)) ()] ++
  ([.env (.forget demoKey)] : SweepSchedule) ++
  beside (([.thread 12 (.getWorkspaceByName "acme" "api") (.ok (demoRunning 1 "task-1" hold)),
     .thread 12 (.lock (lockKey demoScope demoRow)) (),
     .thread 12 (.pickWorkspace demoKey) none,
     .thread 12 (.waitWorkspace demoKey) (.inr 1),
     .thread 12 (.receive demoKey 1) (.error "context deadline exceeded")] : Schedule) ++
  demoDispatch 12 (demoRunning 1 "task-1" hold) 2 1 ++
  ([.env (.handle 1 (.placed "task-2"))] : Schedule) ++
  demoArrival 12 (demoRunning 1 "task-1" hold) 1 "task-2" 2 13 1 2
    (demoRowAt 2 .starting (some "task-2") hold none))

/-- The report of a task without sessions. -/
def demoReport (task : GoString) (receivedAt measured : Nat) : Report where
  headroom := ⟨"api", 512, 1024, 0, []⟩
  receivedAt := receivedAt
  task := task
  measured := measured

/-- It is measured and received. -/
def demoReports (task : GoString) : SweepSchedule :=
  [.env (.measure task "api" 512 1024 []), .env (.receive 0 demoKey)]

def demoColumns : IdleColumns := ⟨3600, none⟩

/-- The sweep of thread `tid` at `now` starts and reads the row. -/
def demoSweep (tid now : Nat) (rep : Report) (ws : Workspace) :
    SweepSchedule :=
  [.spawn now, .thread tid (.all now) [(demoKey, rep)],
    .thread tid (.getWorkspaceByName demoKey rep now) (.ok (ws, demoColumns))]

/-- The first sweep starts a hold for the first task, which is lost; the second task reports
shortly before the deadline. -/
def heldForAnother : SweepSchedule :=
  demoPlaced ++ demoReports "task-1" ++
  demoSweep 0 0 (demoReport "task-1" 0 0) (demoRunning 1 "task-1" none) ++
  ([.thread 0 (.api (.setWarmHold "acme" "w1" (some 3600))) (.ok ()),
     .thread 0 .done (), .env (.pass 3590)] : SweepSchedule) ++
  demoReplaced (some 3600) ++ demoReports "task-2" ++ ([.env (.pass 10)] : SweepSchedule) ++
  demoSweep 1 3600 (demoReport "task-2" 3590 1) (demoRunning 2 "task-2" (some 3600)) ++
  ([.thread 1 (.api (.pickRunner "acme")) (some demoRunner)] : SweepSchedule)

def aboutToStop : ReaperPool :=
  final (reaper demoConfig 10) anyStep (boot demoCell (fun _ => demoColumns) [])
    heldForAnother

def demoStop (ref : GoString) : StopWorkspace := ⟨"api", ref, true⟩

/-- The second task is stopped ten seconds after its first report, at the end of the hold of
the first. -/
theorem replacement_stopped_early :
    ∃ (tr : SweepSchedule) (next : ReaperPool),
      Path (reaper demoConfig 10) anyStep
        (boot demoCell (fun _ => demoColumns) []) tr aboutToStop ∧
      Step (reaper demoConfig 10) aboutToStop
        (.thread 1 (.api (.send demoRunner (.stopWorkspace (demoStop "task-2")))) (.ok 2))
        next ∧
      ¬HeldThroughout aboutToStop.shared (demoStop "task-2").ref := by
  obtain ⟨next, hstep⟩ : ∃ next, Step (reaper demoConfig 10) aboutToStop
      (.thread 1 (.api (.send demoRunner (.stopWorkspace (demoStop "task-2")))) (.ok 2))
      next := exists_step (by decide +kernel)
  refine ⟨heldForAnother, next, final_path (by decide +kernel), hstep, ?_⟩
  rintro ⟨sw, id, e, rest, hsweeping, hjudging, hrest, hsuffix, hheld, -⟩
  have hlog : aboutToStop.shared.evaluated =
      [⟨demoRunning 1 "task-1" none, demoReport "task-1" 0 0, 0⟩,
        ⟨demoRunning 2 "task-2" (some 3600), demoReport "task-2" 3590 1, 3600⟩] := by
    decide +kernel
  rw [hlog] at hsuffix
  -- an earlier evaluation can only be that of the first task
  rcases suffix_cons_iff.mp hsuffix with hfull | hlater
  · obtain ⟨rfl, -⟩ := cons.inj hfull
    have htask := (hheld.2 _ mem_cons_self hheld.1).1
    exact absurd htask (by decide)
  · have hlen := hlater.length_le
    simp only [length_cons, length_nil] at hlen
    exact hrest (length_eq_zero_iff.mp (by omega))

/-- A hold that runs out on the task it was started for. -/
def heldForItself : SweepSchedule :=
  demoPlaced ++ demoReports "task-1" ++
  demoSweep 0 0 (demoReport "task-1" 0 0) (demoRunning 1 "task-1" none) ++
  ([.thread 0 (.api (.setWarmHold "acme" "w1" (some 3600))) (.ok ()),
     .thread 0 .done (), .env (.pass 3590)] : SweepSchedule) ++
  demoReports "task-1" ++ ([.env (.pass 10)] : SweepSchedule) ++
  demoSweep 1 3600 (demoReport "task-1" 3590 1) (demoRunning 1 "task-1" (some 3600)) ++
  ([.thread 1 (.api (.pickRunner "acme")) (some demoRunner)] : SweepSchedule)

def aboutToStopOwn : ReaperPool :=
  final (reaper demoConfig 10) heldByTask (boot demoCell (fun _ => demoColumns) [])
    heldForItself

theorem stopped_after_own_hold_once :
    HeldThroughout aboutToStopOwn.shared (demoStop "task-1").ref := by
  have hrun : Path (reaper demoConfig 10) heldByTask
      (boot demoCell (fun _ => demoColumns) []) heldForItself aboutToStopOwn :=
    final_path (by decide +kernel)
  obtain ⟨next, hstep⟩ : ∃ next, Step (reaper demoConfig 10) aboutToStopOwn
      (.thread 1 (.api (.send demoRunner (.stopWorkspace (demoStop "task-1")))) (.ok 1))
      next := exists_step (by decide +kernel)
  exact stopped_after_own_hold demoConfig 10 (fun _ => demoColumns) [] (by decide) hrun hstep

end Lemul.MgmtApi.Reaper
