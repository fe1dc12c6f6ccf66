import Lemul.MgmtApi.Reaper

/-!
# What a sweep may do next

`SweepPre` says at each operation of a sweep what has led to it: the report it acts on is in
the copy and was fresh at the tick, a session that is stopped is listed in it, a row is left
for the next one when what `advanceWarmHold` decides about it has been written, and the task
that is stopped is the one the row named when it was read. `sweep_outline` proves it for every
interleaving, so that arguments about sweeps need only look at single operations.
-/

namespace Lemul.MgmtApi.Reaper

open Store List Prog System.Outline Lemul.System Option

/-- What `advanceWarmHold` writes to `warm_hold_until`, if anything. -/
def holdDecision (ws : Workspace) (sessions now : Nat) : Option (Option Nat) :=
  if 0 < sessions then
    match ws.warmHoldUntil with
    | none => none
    | some _ => some none
  else
    match ws.warmHoldUntil with
    | none => some (some (now + ws.warmHoldSecs))
    | some till => if now < till then none else some none

/-- What it decides on one evaluation. -/
def Evaluation.decision (e : Evaluation) : Option (Option Nat) :=
  holdDecision e.row e.report.headroom.sessions.toNat e.now

/-- Thread `tid` makes the sweep `sw`. -/
structure Making (tid : Nat) (sw : Sweeping) (s : State) : Prop where
  sweeping : s.sweeping = some sw
  owner : sw.owner = tid

/-- The sweep `sw` of `tid` is at the row it read in `e`. -/
structure Judging (interval tid : Nat) (sw : Sweeping) (e : Evaluation) (s : State) : Prop
    extends Making tid sw s where
  judging : sw.judging = some e.row.id
  last : s.evaluated.getLast? = some e
  now : e.now = sw.now
  fresh : fresh e.report.toActivityReport sw.now interval = true
  reported : (⟨e.row.tenantID, e.row.name⟩, e.report) ∈ sw.reports

/-- The sweep has nothing left to do about the row it is at. -/
def Decided (interval tid : Nat) (sw : Sweeping) (s : State) : Prop :=
  sw.judging = none ∨ ∃ e, Judging interval tid sw e s ∧ sw.wrote = e.decision

/-- What has led to an operation that a sweep shares with the other handlers. -/
def SharedPre (interval tid : Nat) (sw : Sweeping) (s : State) : Op → Prop
  | .setWarmHold tenantID id till => ∃ e, Judging interval tid sw e s ∧ sw.wrote = none ∧
      e.decision = some till ∧ tenantID = e.row.tenantID ∧ id = e.row.id
  | .send _ (.stopWorkspace m) => ∃ e, Judging interval tid sw e s ∧ sw.wrote = none ∧
      e.row.taskRef = some m.ref ∧ e.report.headroom.sessions.toNat = 0 ∧
      ∃ till, e.row.warmHoldUntil = some till ∧ till ≤ e.now
  | .setWorkspaceStatus _ _ status taskRef => status = .stopped ∧ taskRef = []
  | .send _ (.dropSnapshot _) => True
  | .pickRunner _ => True
  | .recv _ => True
  | .getWorkspace _ _ => True
  | .setWorkspaceSnapshot _ _ _ => True
  | .pickWorkspace _ => True
  | _ => False

/-- What has led to an operation of a sweep. -/
def SweepPre (interval tid : Nat) : SweepOp → State → Prop
  | .all _, _ => True
  | .done, s => ∃ sw, Making tid sw s ∧ Decided interval tid sw s
  | .getWorkspaceByName k rep now, s => ∃ sw, Making tid sw s ∧ Decided interval tid sw s ∧
      now = sw.now ∧ (k, rep) ∈ sw.reports ∧ fresh rep.toActivityReport now interval = true
  | .stopSession _ sessionID, s => ∃ sw, Making tid sw s ∧ ∃ e, Judging interval tid sw e s ∧
      ∃ a ∈ e.report.headroom.activity, a.sessionID = sessionID
  | .api o, s => ∃ sw, Making tid sw s ∧ SharedPre interval tid sw s o
  | _, s => ∃ sw, Making tid sw s

/-- What the thread that makes a sweep may rely on. -/
def SweepRely (tid : Nat) (s s' : State) : Prop :=
  ∀ sw, Making tid sw s → s'.sweeping = s.sweeping ∧ s'.evaluated = s.evaluated

theorem SweepRely.refl (tid : Nat) (s : State) : SweepRely tid s s := fun _ _ => ⟨rfl, rfl⟩

variable {sw : Sweeping} {rep : Report} {now interval : Nat} {reports : List (WsKey × Report)}
  {o : SweepOp} {e : Evaluation} {r : SweepRes o}

variable {tid : Nat} {s s' : State} {k : WsKey} {columns : IdleColumns}

theorem Making.of_rely (h : Making tid sw s) (hrely : SweepRely tid s s') : Making tid sw s' :=
  ⟨(hrely sw h).1.trans h.sweeping, h.owner⟩

theorem SweepRely.trans {s₁ s₂ s₃ : State} (h₁ : SweepRely tid s₁ s₂)
    (h₂ : SweepRely tid s₂ s₃) : SweepRely tid s₁ s₃ := by
  intro sw h
  obtain ⟨hsweeping, hlog⟩ := h₁ sw h
  obtain ⟨hsweeping', hlog'⟩ := h₂ sw (h.of_rely h₁)
  exact ⟨hsweeping'.trans hsweeping, hlog'.trans hlog⟩

theorem Judging.of_rely (h : Judging interval tid sw e s) (hrely : SweepRely tid s s') :
    Judging interval tid sw e s' :=
  ⟨h.toMaking.of_rely hrely, h.judging, (congrArg _ (hrely sw h.toMaking).2).trans h.last, h.now,
    h.fresh, h.reported⟩

theorem Decided.of_rely (h : Decided interval tid sw s)
    (hrely : SweepRely tid s s') : Decided interval tid sw s' :=
  h.imp_right fun ⟨e, he, hwrote⟩ => ⟨e, he.of_rely hrely, hwrote⟩

/-! ## Single operations -/

variable {tid : Nat} {s s' : State}

/-- Neither tunnels, reports, processes nor other handlers touch a sweep. -/
theorem env_sweeping {d : Driver} {e : Move} (h : env d e s = some s') :
    s'.sweeping = s.sweeping ∧ s'.evaluated = s.evaluated := by
  cases e with
  | world e =>
    obtain ⟨w, -, rfl⟩ := map_eq_some_iff.mp h
    exact ⟨rfl, rfl⟩
  | acts tid o r =>
    simp only [env] at h
    split at h
    · obtain ⟨w, -, rfl⟩ := map_eq_some_iff.mp h
      exact ⟨rfl, rfl⟩
    · cases h
  | receive i k | exit i =>
    simp only [env] at h
    split at h <;> cases h
    exact ⟨rfl, rfl⟩
  | _ =>
    cases h
    exact ⟨rfl, rfl⟩

/-- An operation of a sweep, case by case. -/
inductive Executed (tid : Nat) (s : State) : (o : SweepOp) → SweepRes o → State → Prop
  | all {now : Nat} {reports : List (WsKey × Report)} (hfree : s.sweeping = none)
      (hperm : reports.Perm s.activity) : Executed tid s (.all now) reports
        { s with sweeping := some ⟨tid, now, reports, none, none⟩ }
  | done : Executed tid s .done () { s with sweeping := none }
  | unread {k : WsKey} {rep : Report} {now : Nat} {e : GoString} {sw : Sweeping}
      (hmaking : Making tid sw s) : Executed tid s (.getWorkspaceByName k rep now) (.error e)
        { s with sweeping := some { sw with judging := none, wrote := none } }
  | reads {k : WsKey} {rep : Report} {now : Nat} {ws : Workspace} {columns : IdleColumns}
      {sw : Sweeping} (hmaking : Making tid sw s)
      (hrow : s.world.cell.getWorkspaceByName k.tenantID k.name = some ws) :
      Executed tid s (.getWorkspaceByName k rep now) (.ok (ws, columns)) { s with
        sweeping := some { sw with judging := some ws.id, wrote := none }
        evaluated := s.evaluated ++ [⟨ws, rep, now⟩] }
  | forget {k : WsKey} : Executed tid s (.forget k) () { s with activity := forget s.activity k }
  | lists {tenantID id : GoString} {r : Except GoString (List SessionRow)} :
      Executed tid s (.listWorkspaceSessions tenantID id) r s
  | stops {t : Tunnel} {sessionID : GoString} {r : Except GoString Unit} :
      Executed tid s (.stopSession t sessionID) r s
  | pins {tenantID id : GoString} {since : Option Nat} {r : Except GoString Unit}
      {idle : GoString → IdleColumns} :
      Executed tid s (.setIdlePinned tenantID id since) r { s with idle := idle }
  | api {o : Op} {r : Res o} {w : World} (hw : MgmtApi.exec tid o r s.world = some w) :
      Executed tid s (.api o) r { s with world := w, sweeping := s.sweeping.map (·.note o) }

theorem exec_rule (h : exec tid o r s = some s') : Executed tid s o r s' := by
  cases o with
  | all now =>
    simp only [exec] at h
    split at h <;> cases h
    rename_i hfree
    exact .all hfree.1 (isPerm_iff.mp hfree.2)
  | getWorkspaceByName k rep now =>
    simp only [exec] at h
    (repeat' split at h) <;> cases h
    · exact .unread ⟨‹_›, ‹_›⟩
    · rename_i hrow
      exact .reads ⟨‹_›, ‹_›⟩ hrow.1
  | api o =>
    obtain ⟨w, hw, rfl⟩ := map_eq_some_iff.mp h
    exact .api hw
  | _ =>
    simp only [exec] at h
    (repeat' split at h) <;> cases h <;> constructor

/-- A thread makes one sweep at a time. -/
theorem Making.unique {sw' : Sweeping} (h : Making tid sw s) (h' : Making tid sw' s) : sw = sw' :=
  Option.some.inj (h.sweeping.symm.trans h'.sweeping)

/-- An operation of a sweep is made by the thread whose sweep it is, or starts one while
there is none: no other thread makes one. -/
theorem exec_rely {other : Nat} (h : exec tid o r s = some s') (hpre : SweepPre interval tid o s)
    (hother : other ≠ tid) :
    SweepRely other s s' := by
  intro sw hmaking
  have hnot : ∀ sw', ¬Making tid sw' s := by
    intro sw' hmade
    have heq := Option.some.inj (hmade.sweeping.symm.trans hmaking.sweeping)
    rw [heq] at hmade
    exact hother (hmaking.owner.symm.trans hmade.owner)
  cases exec_rule h with
  | all hfree => cases hfree.symm.trans hmaking.sweeping
  | _ => exact absurd hpre.choose_spec (by
      intro hp
      first | exact hnot _ hp.1 | exact hnot _ hp)

/-- Operations that leave a sweep where it is. -/
def quiet : SweepOp → Bool
  | .all _ => false
  | .done => false
  | .getWorkspaceByName _ _ _ => false
  | .api (.setWarmHold _ _ _) => false
  | _ => true

theorem note_quiet {o : Op} (hquiet : quiet (.api o) = true) (sw : Sweeping) :
    sw.note o = sw := by
  cases o <;> first | rfl | cases hquiet

theorem exec_quiet (h : exec tid o r s = some s')
    (hquiet : quiet o = true) : s'.sweeping = s.sweeping ∧ s'.evaluated = s.evaluated := by
  cases exec_rule h with
  | all | done | unread | reads => cases hquiet
  | api hw =>
    refine ⟨?_, rfl⟩
    simp only [note_quiet hquiet, Option.map_id']
  | _ => exact ⟨rfl, rfl⟩

theorem Making.of_quiet (hm : Making tid sw s) (h : exec tid o r s = some s')
    (hquiet : quiet o = true) : Making tid sw s' :=
  ⟨(exec_quiet h hquiet).1.trans hm.sweeping, hm.owner⟩

theorem Judging.of_quiet (hj : Judging interval tid sw e s) (h : exec tid o r s = some s')
    (hquiet : quiet o = true) : Judging interval tid sw e s' :=
  ⟨hj.toMaking.of_quiet h hquiet, hj.judging, (congrArg _ (exec_quiet h hquiet).2).trans hj.last,
    hj.now, hj.fresh, hj.reported⟩

/-! ## The outline -/

/-- Every interleaving of sweeps with everything else. -/
def sweepOutline (cfg : Config) (interval : Nat) :
    Outline (reaper cfg interval) anyStep where
  inv _ := True
  rely := SweepRely
  pre tid o s := SweepPre interval tid o s
  post _ _ _ := True
  rely_refl := SweepRely.refl
  rely_trans _ _ _ _ := SweepRely.trans
  op_ok _ hpre _ h := ⟨trivial, fun _ hother => exec_rely h hpre hother⟩
  env_ok _ _ h := ⟨trivial, fun _ _ _ => env_sweeping h⟩

section Programs

variable {cfg : Config} {interval : Nat} {sw : Sweeping}

/-- How the next operation of a sweep is proved to be in place. -/
theorem safe_call {β : Type} {f : SweepRes o → Sweep β} {Q : β → State → Prop}
    (h : ∀ s₁, SweepRely tid s s₁ → SweepPre interval tid o s₁ ∧
      ∀ r s₂, exec tid o r s₁ = some s₂ → (sweepOutline cfg interval).Safe tid (f r) Q s₂) :
    (sweepOutline cfg interval).Safe tid (call o >>= f) Q s :=
  safe_perform_bind fun s₁ hrely _ =>
    ⟨(h s₁ hrely).1, fun r s₂ hexec _ _ => (h s₁ hrely).2 r s₂ hexec⟩

/-- The operations of the session axis of a sweep, on the report `rep`. -/
def SessionOp (rep : Report) : SweepOp → Prop
  | .listWorkspaceSessions _ _ => True
  | .api (.pickWorkspace _) => True
  | .stopSession _ sessionID => ∃ a ∈ rep.headroom.activity, a.sessionID = sessionID
  | .setIdlePinned _ _ _ => True
  | _ => False

theorem SessionOp.quiet (h : SessionOp rep o) :
    quiet o = true := by
  cases o with
  | api o => cases o <;> first | rfl | exact h.elim
  | _ => first | rfl | exact h.elim

/-- Nothing is promised about answers. -/
def Anything : (o : SweepOp) → SweepRes o → Prop := fun _ _ => True

theorem stopSessions_performs {t : Tunnel} {sessions : List SessionRow}
    {activity : List SessionActivity} {anyBusy anyPinned : Bool}
    (hlisted : ∀ a ∈ activity, a ∈ rep.headroom.activity) :
    (stopSessions t columns sessions activity anyBusy anyPinned).Performs Anything
      (SessionOp rep) := by
  induction activity generalizing anyBusy anyPinned with
  | nil => trivial
  | cons a rest ih =>
    have hrest : ∀ busy pinned,
        (stopSessions t columns sessions rest busy pinned).Performs Anything (SessionOp rep) :=
      fun _ _ => ih fun x hx => hlisted x (mem_cons_of_mem _ hx)
    unfold stopSessions
    split
    · exact hrest _ _
    · split
      · exact hrest _ _
      · split
        · exact hrest _ _
        · exact hrest _ _
        · refine .perform ⟨a, hlisted a mem_cons_self, rfl⟩ ?_
          exact fun _ _ => hrest _ _

theorem stopIdleSessions_performs (tenantID : GoString) (ws : Workspace) (columns : IdleColumns)
    (rep : Report) :
    (stopIdleSessions tenantID ws columns rep).Performs Anything (SessionOp rep) := by
  unfold stopIdleSessions
  split
  · trivial
  · refine .perform trivial fun rows _ => ?_
    cases rows with
    | error e => trivial
    | ok rows =>
      refine .perform trivial fun t _ => ?_
      cases t with
      | none => trivial
      | some t => exact (stopSessions_performs fun _ h => h).bind fun _ => trivial

theorem notePinned_performs (tenantID : GoString) (ws : Workspace) (columns : IdleColumns)
    (pinned : Bool) (now : Nat) (rep : Report) :
    (notePinned tenantID ws columns pinned now).Performs Anything (SessionOp rep) := by
  unfold notePinned
  split
  · exact ⟨trivial, fun _ _ => trivial⟩
  · split
    · exact ⟨trivial, fun _ _ => trivial⟩
    · trivial

theorem Judging.sessionOp (h : Judging interval tid sw e s)
    (ho : SessionOp e.report o) : SweepPre interval tid o s := by
  cases o with
  | listWorkspaceSessions tenantID id | setIdlePinned tenantID id since => exact ⟨sw, h.toMaking⟩
  | stopSession t sessionID => exact ⟨sw, h.toMaking, e, h, ho⟩
  | api o => cases o <;> first | exact ⟨sw, h.toMaking, trivial⟩ | exact ho.elim
  | _ => exact ho.elim

/-- A program of the session axis leaves the sweep at its row. -/
theorem safe_sessionOps {α : Type} {p : Sweep α} (hp : p.Performs Anything (SessionOp e.report))
    (h : Judging interval tid sw e s) :
    (sweepOutline cfg interval).Safe tid p (fun _ s' => Judging interval tid sw e s') s := by
  refine safe_of_performs (K := fun s : State => Judging interval tid sw e s) hp
    ?_ ?_ ?_ ?_ h
  · exact fun _ _ hrely hj => hj.of_rely hrely
  · exact fun _ _ _ _ _ => trivial
  · exact fun _ _ ho _ hj => hj.sessionOp ho
  · exact fun _ _ _ _ ho hexec hj => hj.of_quiet hexec ho.quiet

/-- The sweep `now` over the copy `reports` is between two rows. -/
def Between (interval tid now : Nat) (reports : List (WsKey × Report)) (s : State) : Prop :=
  ∃ sw, Making tid sw s ∧ Decided interval tid sw s ∧ sw.now = now ∧ sw.reports = reports

theorem Between.of_rely (h : Between interval tid now reports s) (hrely : SweepRely tid s s') :
    Between interval tid now reports s' := by
  obtain ⟨sw, hmaking, hdecided, hnow, hreports⟩ := h
  exact ⟨sw, hmaking.of_rely hrely, hdecided.of_rely hrely, hnow, hreports⟩

theorem Judging.between (h : Judging interval tid sw e s)
    (hwrote : sw.wrote = e.decision) : Between interval tid sw.now sw.reports s :=
  ⟨sw, h.toMaking, .inr ⟨e, h, hwrote⟩, rfl, rfl⟩

/-- The write that `advanceWarmHold` decides on. -/
theorem safe_setWarmHold {till : Option Nat} (h : Judging interval tid sw e s)
    (hwrote : sw.wrote = none)
    (hdecision : e.decision = some till) :
    (sweepOutline cfg interval).Safe tid
      (shared do
        let _ ← MgmtApi.call (.setWarmHold e.row.tenantID e.row.id till)
        pure ())
      (fun _ s' => Between interval tid sw.now sw.reports s') s := by
  intro s₁ hrely _
  have h₁ := h.of_rely hrely
  refine ⟨⟨sw, h₁.toMaking, e, h₁, hwrote, hdecision, rfl, rfl⟩, ?_⟩
  intro r s₂ hexec _ _
  obtain ⟨w, -, rfl⟩ := map_eq_some_iff.mp hexec
  have h₂ : Judging interval tid { sw with wrote := some till } e
      { s₁ with
        world := w
        sweeping := s₁.sweeping.map fun sw =>
          sw.note (.setWarmHold e.row.tenantID e.row.id till) } :=
    { sweeping := by rw [h₁.sweeping]; rfl
      owner := h₁.owner
      judging := h₁.judging
      last := h₁.last
      now := h₁.now
      fresh := h₁.fresh
      reported := h₁.reported }
  exact h₂.between hdecision.symm

/-- `stopTask` for a hold that has run out leaves the sweep at its row. -/
theorem safe_stopTask {name : GoString} {disk : PreserveDisk} {till : Nat}
    (h : Judging interval tid sw e s) (hwrote : sw.wrote = none)
    (hsessions : e.report.headroom.sessions.toNat = 0) (htill : e.row.warmHoldUntil = some till)
    (hdue : till ≤ e.now) :
    (sweepOutline cfg interval).Safe tid
      (shared (stopTask e.row.tenantID name (derefOr e.row.taskRef) disk))
      (fun _ s' => Judging interval tid sw e s') s := by
  have hperforms : (shared (stopTask e.row.tenantID name (derefOr e.row.taskRef) disk)).Performs
      (fun o r => match o, r with
        | .api o, r => Answered o r
        | _, _ => True)
      (fun o => ∃ o', o = .api o' ∧ StopTaskOp (derefOr e.row.taskRef) o') :=
    (stopTask_performs ..).embed (fun o ho => ⟨o, rfl, ho⟩) (fun _ _ h => h)
  refine safe_of_performs (K := fun s : State => Judging interval tid sw e s)
    hperforms ?_ ?_ ?_ ?_ h
  · exact fun _ _ hrely hj => hj.of_rely hrely
  · intro o r s s' hexec
    cases o with
    | api o =>
      obtain ⟨w, hw, -⟩ := map_eq_some_iff.mp hexec
      exact exec_answered _ _ _ _ _ hw
    | _ => trivial
  · rintro _ s ⟨o, rfl, ho⟩ _ hj
    refine ⟨sw, hj.toMaking, ?_⟩
    cases o with
    | send t c =>
      cases c with
      | stopWorkspace m =>
        obtain ⟨href, hne⟩ := ho
        refine ⟨e, hj, hwrote, ?_, hsessions, till, htill, hdue⟩
        rw [href]
        cases hrow : e.row.taskRef with
        | none =>
          rw [hrow] at hne
          exact absurd rfl hne
        | some ref => rfl
      | dropSnapshot id => trivial
      | startWorkspace m => exact ho.elim
    | _ => trivial
  · rintro _ r s s' ⟨o, rfl, ho⟩ hexec hj
    refine hj.of_quiet (o := .api o) hexec ?_
    cases o <;> first | rfl | exact ho.elim

theorem safe_stopIdle {till : Nat} (h : Judging interval tid sw e s) (hwrote : sw.wrote = none)
    (hdecision : e.decision = some none)
    (hsessions : e.report.headroom.sessions.toNat = 0) (htill : e.row.warmHoldUntil = some till)
    (hdue : till ≤ e.now) :
    (sweepOutline cfg interval).Safe tid (shared (stopIdle e.row.tenantID e.row))
      (fun _ s' => Between interval tid sw.now sw.reports s') s := by
  unfold stopIdle shared
  rw [embed_bind]
  refine .bind ((safe_stopTask h hwrote hsessions htill hdue).mono fun _ s₁ h₁ => ?_)
  refine safe_call (o := .api _) fun s₂ hrely => ?_
  have h₂ := h₁.of_rely hrely
  refine ⟨⟨sw, h₂.toMaking, rfl, rfl⟩, fun r s₃ hexec => ?_⟩
  exact safe_setWarmHold (h₂.of_quiet hexec rfl) hwrote hdecision

/-- `advanceWarmHold` writes what it decides. -/
theorem safe_advanceWarmHold (h : Judging interval tid sw e s) (hwrote : sw.wrote = none) :
    (sweepOutline cfg interval).Safe tid
      (shared (advanceWarmHold e.row.tenantID e.row e.report.headroom.sessions.toNat e.now))
      (fun _ s' => Between interval tid sw.now sw.reports s') s := by
  unfold advanceWarmHold
  by_cases hsessions : 0 < e.report.headroom.sessions.toNat
  · rw [if_pos hsessions]
    cases hhold : e.row.warmHoldUntil with
    | none =>
      refine h.between ?_
      simp only [hwrote, Evaluation.decision, holdDecision, if_pos hsessions, hhold]
    | some till =>
      refine safe_setWarmHold h hwrote ?_
      simp only [Evaluation.decision, holdDecision, if_pos hsessions, hhold]
  · rw [if_neg hsessions]
    cases hhold : e.row.warmHoldUntil with
    | none =>
      refine safe_setWarmHold h hwrote ?_
      simp only [Evaluation.decision, holdDecision, if_neg hsessions, hhold]
    | some till =>
      dsimp only
      split
      · rename_i hbefore
        refine h.between ?_
        simp only [hwrote, Evaluation.decision, holdDecision, if_neg hsessions, hhold,
          if_pos hbefore]
      · rename_i hdue
        refine safe_stopIdle h hwrote ?_ (Nat.eq_zero_of_not_pos hsessions) hhold
          (Nat.le_of_not_lt hdue)
        simp only [Evaluation.decision, holdDecision, if_neg hsessions, hhold, if_neg hdue]

/-- Forgetting a report leaves a sweep where it is. -/
theorem safe_forget (h : Between interval tid now reports s) :
    (sweepOutline cfg interval).Safe tid (call (.forget k))
      (fun _ s' => Between interval tid now reports s') s := by
  intro s₁ hrely _
  obtain ⟨sw, hmaking, hdecided, hnow, hreports⟩ := h.of_rely hrely
  refine ⟨⟨sw, hmaking⟩, fun r s₂ hforget _ _ => ?_⟩
  have hexec : exec tid (.forget k) r s₁ = some s₂ := hforget
  refine ⟨sw, hmaking.of_quiet hexec rfl, ?_, hnow, hreports⟩
  exact hdecided.imp_right fun ⟨e, he, hwrote⟩ => ⟨e, he.of_quiet hexec rfl, hwrote⟩

/-- One row of a sweep. -/
theorem safe_sweepWorkspace (h : Between interval tid now reports s) (hmem : (k, rep) ∈ reports)
    (hfresh : fresh rep.toActivityReport now interval = true) :
    (sweepOutline cfg interval).Safe tid (sweepWorkspace k rep now)
      (fun _ s' => Between interval tid now reports s') s := by
  refine safe_call fun s₁ hrely => ?_
  obtain ⟨sw, hmaking, hdecided, rfl, rfl⟩ := h.of_rely hrely
  refine ⟨⟨sw, hmaking, hdecided, rfl, hmem, hfresh⟩, fun r s₂ hexec => ?_⟩
  cases exec_rule hexec with
  | unread hmaking' =>
    obtain rfl := hmaking.unique hmaking'
    exact safe_forget ⟨_, ⟨rfl, hmaking.owner⟩, .inl rfl, rfl, rfl⟩
  | @reads k rep _ ws columns sw' hmaking' hrow =>
    obtain rfl := hmaking.unique hmaking'
    obtain ⟨-, hname, htenant⟩ := Workspaces.getWorkspaceByName_eq_some.mp hrow
    have hk : k = ⟨ws.tenantID, ws.name⟩ := by rw [hname, htenant]
    rw [hk] at hmem ⊢
    have hj : Judging interval tid { sw with judging := some ws.id, wrote := none }
        ⟨ws, rep, sw.now⟩ { s₁ with
          sweeping := some { sw with judging := some ws.id, wrote := none }
          evaluated := s₁.evaluated ++ [⟨ws, rep, sw.now⟩] } :=
      { sweeping := rfl
        owner := hmaking.owner
        judging := rfl
        last := getLast?_concat
        now := rfl
        fresh := hfresh
        reported := hmem }
    refine .bind ((safe_sessionOps (stopIdleSessions_performs ..) hj).mono fun pinned s₃ h₃ => ?_)
    refine .bind ((safe_sessionOps (notePinned_performs ..) h₃).mono fun _ s₄ h₄ => ?_)
    refine .bind ((safe_advanceWarmHold h₄ rfl).mono fun _ s₅ h₅ => ?_)
    split
    · exact safe_forget h₅
    · exact h₅

theorem safe_sweepAll {rest : List (WsKey × Report)} (h : Between interval tid now reports s)
    (hrest : ∀ x ∈ rest, x ∈ reports) :
    (sweepOutline cfg interval).Safe tid (sweepAll interval now rest)
      (fun _ s' => Between interval tid now reports s') s := by
  induction rest generalizing s with
  | nil => exact h
  | cons x rest ih =>
    have hmem := hrest x mem_cons_self
    have hrest' := fun y hy => hrest y (mem_cons_of_mem _ hy)
    unfold sweepAll
    split
    · rename_i hfresh
      exact .bind ((safe_sweepWorkspace h hmem hfresh).mono fun _ _ h₁ => ih h₁ hrest')
    · exact ih h hrest'

theorem safe_sweep :
    (sweepOutline cfg interval).Safe tid (sweep interval now) (fun _ _ => True) s := by
  refine safe_call fun s₁ _ => ⟨trivial, fun reports s₂ hexec => ?_⟩
  cases exec_rule hexec
  have hstart : Between interval tid now reports
      { s₁ with sweeping := some ⟨tid, now, reports, none, none⟩ } :=
    ⟨_, ⟨rfl, rfl⟩, .inl rfl, rfl, rfl⟩
  refine .bind ((safe_sweepAll hstart fun _ h => h).mono fun _ s₃ h₃ => ?_)
  intro s₄ hrely _
  obtain ⟨sw, hmaking, hdecided, -, -⟩ := h₃.of_rely hrely
  exact ⟨⟨sw, hmaking, hdecided⟩, fun _ _ _ _ _ => trivial⟩

end Programs

/-! ## Runs -/

/-- What every step of every run of sweeps keeps, holds after every run: an operation may be
taken with what has led to it. -/
theorem sweeps_keep {cfg : Config} {cond : State → Label SweepOp SweepRes Move Nat → Prop}
    {I : State → Prop}
    (hexec : ∀ tid o r s s', I s → SweepPre interval tid o s → cond s (.thread tid o r) →
      exec tid o r s = some s' → I s')
    (henv : ∀ e s s', I s → cond s (.env e) → env cfg.driver e s = some s' → I s')
    {tr : SweepSchedule} {last : ReaperPool} (hstart : I s)
    (hrun : Path (reaper cfg interval) cond ⟨s, []⟩ tr last) :
    I last.shared ∧ (sweepOutline cfg interval).Holds last := by
  induction hrun with
  | nil => exact ⟨hstart, trivial, nofun⟩
  | snoc before hcond hstep ih =>
    obtain ⟨hinv, hholds⟩ := ih
    refine ⟨?_, (sweepOutline cfg interval).step_holds ?_ hholds trivial hstep⟩
    · cases hstep with
      | thread hthread hop =>
        have hpre := pre_of_step hholds (.thread hthread hop)
        exact hexec _ _ _ _ _ hinv hpre hcond hop
      | spawn hspawn => exact hinv
      | env hmove => exact henv _ _ _ hinv hcond hmove
    · intro now s p tid _ _ hp
      cases hp
      exact safe_sweep

end Lemul.MgmtApi.Reaper
