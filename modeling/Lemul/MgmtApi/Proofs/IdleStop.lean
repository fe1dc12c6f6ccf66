import Lemul.MgmtApi.Proofs.SweepFacts

/-!
# What a sweep stops

`reaper.go:59-160` on any reports, records and policies: a sweep sends `StopSession` for exactly
the sessions that have a record and, by the record and the policy, a timeout, and that a fresh
report shows quiet for that long with nobody attached.

`Visit` says everything a sweep can do at one workspace; the rest is read off it.
-/

namespace Lemul.MgmtApi.Reaper

open Store List Prog

/-! ## One session -/

/-- Nobody is attached, and for `secs` there was no output, no model request and no tool. -/
structure IdleFor (a : SessionActivity) (secs : Int) : Prop where
  attachers : a.attachers ≤ 0
  output : secs ≤ a.outputIdleSecs
  model : secs ≤ a.modelIdleSecs
  tool : secs ≤ a.toolIdleSecs

theorem classify_eq_sessionIdle {a : SessionActivity} {secs : Int} :
    classify a secs = .sessionIdle ↔ IdleFor a secs := by
  unfold classify
  constructor
  · intro h
    split at h
    · cases h
    · rename_i hquiet
      split at h
      · cases h
      · rename_i htool
        obtain ⟨hattachers, houtput, hmodel⟩ :
            ¬ a.attachers > 0 ∧ ¬ a.outputIdleSecs < secs ∧ ¬ a.modelIdleSecs < secs := by
          refine ⟨?_, ?_, ?_⟩
          · exact fun hpos => hquiet (.inl hpos)
          · exact fun hlt => hquiet (.inr (.inl hlt))
          · exact fun hlt => hquiet (.inr (.inr hlt))
        exact ⟨Int.not_lt.mp hattachers, Int.not_lt.mp houtput, Int.not_lt.mp hmodel,
          Int.not_lt.mp htool⟩
  · intro h
    rw [if_neg, if_neg (Int.not_lt.mpr h.tool)]
    rintro (hpos | hlt | hlt)
    · exact Int.not_lt.mpr h.attachers hpos
    · exact Int.not_lt.mpr h.output hlt
    · exact Int.not_lt.mpr h.model hlt

/-- The timeout of a session in seconds: its own if it has one, else that of the workspace. -/
def timeoutSecs (columns : IdleColumns) (row : SessionRow) : Int :=
  row.idleTimeoutSecs.getD columns.idleTimeoutSecs

variable {columns : IdleColumns} {tr : Trace SweepOp SweepRes} {sessions : List SessionRow}

theorem idleTimeout_eq_some {row : SessionRow} {secs : Int} :
    idleTimeout columns row.idleTimeoutSecs = some secs ↔
      0 < timeoutSecs columns row ∧ timeoutSecs columns row = secs := by
  unfold idleTimeout timeoutSecs
  dsimp only
  split
  · rename_i hoff
    exact ⟨nofun, fun h => absurd h.1 (Int.not_lt.mpr hoff)⟩
  · rename_i hon
    exact ⟨fun h => ⟨Int.not_le.mp hon, Option.some.inj h⟩, fun h => congrArg some h.2⟩

/-- The entry `a` of a report has the session stopped. -/
def stops (columns : IdleColumns) (sessions : List SessionRow) (a : SessionActivity) : Bool :=
  match sessions.find? (fun x => x.id = a.sessionID) with
  | none => false
  | some row =>
      match idleTimeout columns row.idleTimeoutSecs with
      | none => false
      | some secs => classify a secs = .sessionIdle

/-- What policy allows to stop: a session with a record and a timeout, which the report shows
idle for that long. -/
def MayStop (columns : IdleColumns) (sessions : List SessionRow) (rep : Report)
    (sessionID : GoString) : Prop :=
  ∃ row ∈ sessions, ∃ a ∈ rep.headroom.activity, row.id = sessionID ∧ a.sessionID = sessionID ∧
    0 < timeoutSecs columns row ∧ IdleFor a (timeoutSecs columns row)

theorem stops_iff {a : SessionActivity} :
    stops columns sessions a = true ↔
      ∃ row, sessions.find? (fun x => x.id = a.sessionID) = some row ∧
        0 < timeoutSecs columns row ∧ IdleFor a (timeoutSecs columns row) := by
  unfold stops
  constructor
  · intro h
    split at h
    · cases h
    · rename_i row hrow
      split at h
      · cases h
      · rename_i secs htimeout
        obtain ⟨hon, rfl⟩ := idleTimeout_eq_some.mp htimeout
        exact ⟨row, hrow, hon, classify_eq_sessionIdle.mp (of_decide_eq_true h)⟩
  · rintro ⟨row, hrow, hon, hidle⟩
    rw [hrow]
    dsimp only
    rw [idleTimeout_eq_some.mpr ⟨hon, rfl⟩]
    exact decide_eq_true (classify_eq_sessionIdle.mpr hidle)

/-- A session has one record, so it is the one that is found. -/
theorem exists_stops_iff {rep : Report} (hids : (sessions.map (·.id)).Nodup)
    {sessionID : GoString} :
    (∃ a ∈ rep.headroom.activity, a.sessionID = sessionID ∧ stops columns sessions a = true) ↔
      MayStop columns sessions rep sessionID := by
  constructor
  · rintro ⟨a, ha, rfl, hstops⟩
    obtain ⟨row, hfind, hon, hidle⟩ := stops_iff.mp hstops
    have hid := find?_some hfind
    exact ⟨row, mem_of_find?_eq_some hfind, a, ha, of_decide_eq_true hid, rfl, hon, hidle⟩
  · rintro ⟨row, hrow, a, ha, rfl, hid, hon, hidle⟩
    refine ⟨a, ha, hid, stops_iff.mpr ⟨row, ?_, hon, hidle⟩⟩
    rw [hid]
    exact find?_key_eq_some hids hrow

/-! ## One workspace -/

/-- The operations of a trace. -/
def performed (tr : Trace SweepOp SweepRes) : List SweepOp := tr.map Sigma.fst

/-- The loop attempts every entry that has its session stopped, in the order of the report,
whatever the attempts before were answered. -/
theorem stopSessions_emits {t : Tunnel} {activity : List SessionActivity} {anyBusy anyPinned : Bool}
    {res : Bool × Bool}
    (h : Prog.Emits (stopSessions t columns sessions activity anyBusy anyPinned) tr res) :
    performed tr =
      (activity.filter (stops columns sessions)).map fun a => .stopSession t a.sessionID := by
  induction activity generalizing anyBusy anyPinned tr res with
  | nil =>
    obtain ⟨rfl, -⟩ := emits_ret h
    rfl
  | cons a rest ih =>
    unfold stopSessions at h
    have hskip : stops columns sessions a = false → ∀ {busy pinned},
        Prog.Emits (stopSessions t columns sessions rest busy pinned) tr res →
        performed tr = ((a :: rest).filter (stops columns sessions)).map fun a =>
          .stopSession t a.sessionID := fun hstops _ _ hrest => by
      rw [filter_cons_of_neg (ne_true_of_eq_false hstops)]
      exact ih hrest
    split at h
    · rename_i hrow
      exact hskip (by rw [stops, hrow]) h
    · rename_i row hrow
      split at h
      · rename_i htimeout
        exact hskip (by simp only [stops, hrow, htimeout]) h
      · rename_i secs htimeout
        have hstops : stops columns sessions a = decide (classify a secs = .sessionIdle) := by
          simp only [stops, hrow, htimeout]
        split at h
        · rename_i hstate
          exact hskip (by rw [hstops, hstate]; rfl) h
        · rename_i hstate
          exact hskip (by rw [hstops, hstate]; rfl) h
        · rename_i hstate
          obtain ⟨r, tr', rfl, hrest⟩ := emits_perform_bind h
          rw [filter_cons_of_pos (by rw [hstops, hstate]; rfl)]
          exact congrArg (SweepOp.stopSession t a.sessionID :: ·) (ih hrest)

/-- Nothing of a trace is a `StopSession`. -/
def StopsNothing (tr : Trace SweepOp SweepRes) : Prop :=
  ∀ t sessionID, .stopSession t sessionID ∉ performed tr

/-- What a sweep does at one workspace: it reads the row, the records and the tunnel, gives up
at the first that is missing, and otherwise attempts what policy allows. -/
inductive Visit (k : WsKey) (rep : Report) (now : Nat) : Trace SweepOp SweepRes → Prop where
  | gone (e : GoString) :
      Visit k rep now [⟨.getWorkspaceByName k rep now, .error e⟩, ⟨.forget k, ()⟩]
  | silent {ws : Workspace} {columns : IdleColumns} {rest : Trace SweepOp SweepRes}
      (hsilent : rep.headroom.activity = []) (hrest : StopsNothing rest) :
      Visit k rep now (⟨.getWorkspaceByName k rep now, .ok (ws, columns)⟩ :: rest)
  | unread {ws : Workspace} {columns : IdleColumns} {e : GoString}
      {rest : Trace SweepOp SweepRes} (hrest : StopsNothing rest) :
      Visit k rep now (⟨.getWorkspaceByName k rep now, .ok (ws, columns)⟩ ::
        ⟨.listWorkspaceSessions k.tenantID ws.id, .error e⟩ :: rest)
  | down {ws : Workspace} {columns : IdleColumns} {sessions : List SessionRow}
      {rest : Trace SweepOp SweepRes} (hrest : StopsNothing rest) :
      Visit k rep now (⟨.getWorkspaceByName k rep now, .ok (ws, columns)⟩ ::
        ⟨.listWorkspaceSessions k.tenantID ws.id, .ok sessions⟩ ::
        ⟨.api (.pickWorkspace ⟨k.tenantID, ws.name⟩), none⟩ :: rest)
  | judged {ws : Workspace} {columns : IdleColumns} {sessions : List SessionRow} {t : Tunnel}
      {attempts rest : Trace SweepOp SweepRes}
      (hattempts : performed attempts = (rep.headroom.activity.filter (stops columns sessions)).map
        fun a => .stopSession t a.sessionID) (hrest : StopsNothing rest) :
      Visit k rep now (⟨.getWorkspaceByName k rep now, .ok (ws, columns)⟩ ::
        ⟨.listWorkspaceSessions k.tenantID ws.id, .ok sessions⟩ ::
        ⟨.api (.pickWorkspace ⟨k.tenantID, ws.name⟩), some t⟩ :: (attempts ++ rest))

/-- The operations other than `StopSession`. -/
def KeepsSessions : SweepOp → Prop
  | .stopSession _ _ => False
  | _ => True

theorem stop_mem_cons {x : Σ o : SweepOp, SweepRes o} {t : Tunnel} {sessionID : GoString}
    (hx : KeepsSessions x.1) :
    .stopSession t sessionID ∈ performed (x :: tr) ↔ .stopSession t sessionID ∈ performed tr := by
  refine ⟨fun hmem => ?_, fun hmem => mem_cons_of_mem _ hmem⟩
  rcases mem_cons.mp hmem with hhead | hrest
  · rw [← hhead] at hx
    exact hx.elim
  · exact hrest

theorem stopsNothing_of_performs {α : Type} {p : Sweep α} {a : α} (h : Prog.Emits p tr a)
    (hp : p.Performs Anything KeepsSessions) : StopsNothing tr := by
  intro t sessionID hmem
  obtain ⟨x, hx, hop⟩ := mem_map.mp hmem
  have hkeeps := h.performs hp x hx
  rw [hop] at hkeeps
  exact hkeeps

theorem shared_keepsSessions {α : Type} (p : Api α) :
    (shared p).Performs Anything KeepsSessions := by
  induction p with
  | ret a => trivial
  | op o k ih => exact ⟨trivial, fun r _ => ih r⟩

theorem notePinned_keepsSessions (tenantID : GoString) (ws : Workspace) (columns : IdleColumns)
    (pinned : Bool) (now : Nat) :
    (notePinned tenantID ws columns pinned now).Performs Anything KeepsSessions := by
  unfold notePinned
  split
  · exact ⟨trivial, fun _ _ => trivial⟩
  · split
    · exact ⟨trivial, fun _ _ => trivial⟩
    · trivial

/-- Everything a sweep can do at one workspace. -/
theorem sweepWorkspace_emits {k : WsKey} {rep : Report} {now : Nat}
    (h : Prog.Emits (sweepWorkspace k rep now) tr ()) : Visit k rep now tr := by
  obtain ⟨row, tr₁, rfl, hread⟩ := emits_perform_bind h
  cases row with
  | error e =>
    obtain ⟨_, _, rfl, hend⟩ := emits_perform_bind (f := ret) hread
    obtain ⟨rfl, -⟩ := emits_ret hend
    exact .gone e
  | ok row =>
    obtain ⟨ws, columns⟩ := row
    obtain ⟨axis, rest, pinned, rfl, haxis, hafter⟩ := emits_bind hread
    have hrest : StopsNothing rest := by
      refine stopsNothing_of_performs hafter ?_
      refine (notePinned_keepsSessions ..).bind fun _ => (shared_keepsSessions _).bind fun _ => ?_
      split
      · exact ⟨trivial, fun _ _ => trivial⟩
      · trivial
    unfold stopIdleSessions at haxis
    split at haxis
    · rename_i hsilent
      obtain ⟨rfl, -⟩ := emits_ret haxis
      exact .silent hsilent hrest
    · obtain ⟨listed, axis, rfl, hlisted⟩ := emits_perform_bind haxis
      cases listed with
      | error e =>
        obtain ⟨rfl, -⟩ := emits_ret hlisted
        exact .unread hrest
      | ok sessions =>
        obtain ⟨picked, axis, rfl, hpicked⟩ := emits_perform_bind hlisted
        cases picked with
        | none =>
          obtain ⟨rfl, -⟩ := emits_ret hpicked
          exact .down hrest
        | some t =>
          obtain ⟨attempts, last, res, rfl, hattempts, hlast⟩ := emits_bind hpicked
          obtain ⟨rfl, -⟩ := emits_ret hlast
          rw [append_nil]
          exact .judged (stopSessions_emits hattempts) hrest

/-! ## The sweep -/

/-- The reports, rows, records and tunnels a sweep finds. -/
structure Readings where
  reports : List (WsKey × Report)
  row : WsKey → Except GoString (Workspace × IdleColumns)
  records : (tenantID id : GoString) → Except GoString (List SessionRow)
  tunnel : WsKey → Option Tunnel
  /-- `session.id` is a primary key. -/
  distinct : ∀ tenantID id sessions, records tenantID id = .ok sessions →
    (sessions.map (·.id)).Nodup

/-- What is read is answered so; anything may be answered to the rest. -/
def Readings.Answers (d : Readings) : (o : SweepOp) → SweepRes o → Prop
  | .all _, reports => reports.Perm d.reports
  | .getWorkspaceByName k _ _, row => row = d.row k
  | .listWorkspaceSessions tenantID id, sessions => sessions = d.records tenantID id
  | .api (.pickWorkspace k), t => t = d.tunnel k
  | _, _ => True

/-- What allows the stop of a session of the workspace that the report `rep` is filed under. -/
def Readings.Allows (d : Readings) (k : WsKey) (rep : Report) (t : Tunnel)
    (sessionID : GoString) : Prop :=
  ∃ ws columns sessions, d.row k = .ok (ws, columns) ∧
    d.records k.tenantID ws.id = .ok sessions ∧ d.tunnel ⟨k.tenantID, ws.name⟩ = some t ∧
    MayStop columns sessions rep sessionID

section Sweeps

variable {d : Readings} {k : WsKey} {rep : Report} {interval now : Nat} {t : Tunnel}
variable {sessionID : GoString} {tr : Trace SweepOp SweepRes}

theorem mem_performed_append {tr' : Trace SweepOp SweepRes} {o : SweepOp} :
    o ∈ performed (tr ++ tr') ↔ o ∈ performed tr ∨ o ∈ performed tr' := by
  unfold performed
  rw [map_append, mem_append]

/-- What is not read of a workspace allows nothing. -/
theorem Readings.Allows.read (h : d.Allows k rep t sessionID) {ws : Workspace}
    (hrow : .ok (ws, columns) = d.row k) :
    ∃ sessions, d.records k.tenantID ws.id = .ok sessions ∧
      d.tunnel ⟨k.tenantID, ws.name⟩ = some t ∧ MayStop columns sessions rep sessionID := by
  obtain ⟨ws', columns', sessions, hrow', hsessions, htunnel, hmay⟩ := h
  rw [← hrow] at hrow'
  cases hrow'
  exact ⟨sessions, hsessions, htunnel, hmay⟩

/-- A visit stops what is allowed; where it gives up, nothing is. -/
theorem Visit.stops_iff (h : Visit k rep now tr) (hd : ∀ x ∈ tr, d.Answers x.1 x.2) :
    .stopSession t sessionID ∈ performed tr ↔ d.Allows k rep t sessionID := by
  have hread : ∀ {row} {rest : Trace SweepOp SweepRes},
      (∀ x ∈ ⟨.getWorkspaceByName k rep now, row⟩ :: rest, d.Answers x.1 x.2) →
        row = d.row k ∧ ∀ x ∈ rest, d.Answers x.1 x.2 := fun hd =>
    ⟨hd _ mem_cons_self, fun x hx => hd x (mem_cons_of_mem _ hx)⟩
  cases h with
  | gone e =>
    obtain ⟨hrow, -⟩ := hread hd
    rw [stop_mem_cons, stop_mem_cons]
    · refine iff_of_false not_mem_nil ?_
      rintro ⟨_, _, _, hrow', -⟩
      rw [← hrow] at hrow'
      cases hrow'
    · trivial
    · trivial
  | silent hsilent hrest =>
    rw [stop_mem_cons]
    · refine iff_of_false (hrest t sessionID) fun hallows => ?_
      obtain ⟨_, -, -, _, -, a, ha, -⟩ := hallows.read (hread hd).1
      rw [hsilent] at ha
      cases ha
    · trivial
  | unread hrest =>
    obtain ⟨hrow, hd⟩ := hread hd
    rw [stop_mem_cons, stop_mem_cons]
    · refine iff_of_false (hrest t sessionID) fun hallows => ?_
      obtain ⟨_, hsessions, -⟩ := hallows.read hrow
      have herror := hd _ mem_cons_self
      rw [← herror] at hsessions
      cases hsessions
    · trivial
    · trivial
  | down hrest =>
    obtain ⟨hrow, hd⟩ := hread hd
    rw [stop_mem_cons, stop_mem_cons, stop_mem_cons]
    · refine iff_of_false (hrest t sessionID) fun hallows => ?_
      obtain ⟨_, -, htunnel, -⟩ := hallows.read hrow
      have hnone := hd _ (mem_cons_of_mem _ mem_cons_self)
      rw [← hnone] at htunnel
      cases htunnel
    · trivial
    · trivial
    · trivial
  | @judged ws columns sessions picked attempts rest hattempts hrest =>
    obtain ⟨hrow, hd⟩ := hread hd
    have hsessions : .ok sessions = d.records k.tenantID ws.id := hd _ mem_cons_self
    have htunnel : some picked = d.tunnel ⟨k.tenantID, ws.name⟩ :=
      hd _ (mem_cons_of_mem _ mem_cons_self)
    have hdistinct := d.distinct _ _ _ hsessions.symm
    rw [stop_mem_cons, stop_mem_cons, stop_mem_cons, mem_performed_append,
      or_iff_left (hrest t sessionID), hattempts]
    · constructor
      · intro hmem
        obtain ⟨a, ha, heq⟩ := mem_map.mp hmem
        cases heq
        obtain ⟨hreported, hstops⟩ := mem_filter.mp ha
        exact ⟨ws, columns, sessions, hrow.symm, hsessions.symm, htunnel.symm,
          (exists_stops_iff hdistinct).mp ⟨a, hreported, rfl, hstops⟩⟩
      · intro hallows
        obtain ⟨sessions', hsessions', htunnel', hmay⟩ := hallows.read hrow
        rw [← hsessions] at hsessions'
        rw [← htunnel] at htunnel'
        cases hsessions'
        cases htunnel'
        obtain ⟨a, hreported, rfl, hstops⟩ := (exists_stops_iff hdistinct).mpr hmay
        exact mem_map.mpr ⟨a, mem_filter.mpr ⟨hreported, hstops⟩, rfl⟩
    · trivial
    · trivial
    · trivial

/-- The workspaces whose report is fresh are visited, and no others. -/
theorem sweepAll_emits {reports : List (WsKey × Report)}
    (h : Prog.Emits (sweepAll interval now reports) tr ()) (hd : ∀ x ∈ tr, d.Answers x.1 x.2) :
    .stopSession t sessionID ∈ performed tr ↔
      ∃ k rep, (k, rep) ∈ reports ∧ fresh rep.toActivityReport now interval = true ∧
        d.Allows k rep t sessionID := by
  induction reports generalizing tr with
  | nil =>
    obtain ⟨rfl, -⟩ := emits_ret h
    refine iff_of_false not_mem_nil ?_
    rintro ⟨_, _, hmem, -⟩
    cases hmem
  | cons report reports ih =>
    obtain ⟨k, rep⟩ := report
    have hcons : (∃ k' rep', (k', rep') ∈ (k, rep) :: reports ∧
        fresh rep'.toActivityReport now interval = true ∧ d.Allows k' rep' t sessionID) ↔
        (fresh rep.toActivityReport now interval = true ∧ d.Allows k rep t sessionID) ∨
        ∃ k' rep', (k', rep') ∈ reports ∧ fresh rep'.toActivityReport now interval = true ∧
          d.Allows k' rep' t sessionID := by
      constructor
      · rintro ⟨k', rep', hmem, hallowed⟩
        rcases mem_cons.mp hmem with heq | hrest
        · cases heq
          exact .inl hallowed
        · exact .inr ⟨k', rep', hrest, hallowed⟩
      · rintro (hallowed | ⟨k', rep', hmem, hallowed⟩)
        · exact ⟨k, rep, mem_cons_self, hallowed⟩
        · exact ⟨k', rep', mem_cons_of_mem _ hmem, hallowed⟩
    rw [hcons]
    unfold sweepAll at h
    split at h
    · rename_i hfresh
      obtain ⟨visit, rest, _, rfl, hvisit, hrest⟩ := emits_bind h
      have hd₁ : ∀ x ∈ visit, d.Answers x.1 x.2 := fun x hx => hd x (mem_append_left _ hx)
      have hd₂ : ∀ x ∈ rest, d.Answers x.1 x.2 := fun x hx => hd x (mem_append_right _ hx)
      rw [mem_performed_append, (sweepWorkspace_emits hvisit).stops_iff hd₁, ih hrest hd₂,
        and_iff_right hfresh]
    · rename_i hstale
      rw [ih h hd]
      exact (or_iff_right fun hallowed => hstale hallowed.1).symm

end Sweeps

/-- For all reports, rows, records and tunnels and every time: a sweep sends `StopSession` for a
session exactly if a report that is fresh at that time is filed under a workspace whose row,
records and tunnel can be had, and the session has a record in it, a timeout above zero by that
record or the policy of the workspace, and an entry in the report with no attachers and no less
than that timeout since output, model requests and tools. -/
theorem sweep_stops_iff (d : Readings) (interval now : Nat) {tr : Trace SweepOp SweepRes}
    (h : Prog.Emits (sweep interval now) tr ()) (hd : ∀ x ∈ tr, d.Answers x.1 x.2) (t : Tunnel)
    (sessionID : GoString) :
    .stopSession t sessionID ∈ performed tr ↔
      ∃ k rep ws columns sessions, (k, rep) ∈ d.reports ∧
        fresh rep.toActivityReport now interval = true ∧ d.row k = .ok (ws, columns) ∧
        d.records k.tenantID ws.id = .ok sessions ∧ d.tunnel ⟨k.tenantID, ws.name⟩ = some t ∧
        MayStop columns sessions rep sessionID := by
  obtain ⟨reports, tr', rfl, hsweep⟩ := emits_perform_bind h
  obtain ⟨visits, last, _, rfl, hvisits, hlast⟩ := emits_bind hsweep
  obtain ⟨_, _, rfl, hend⟩ := emits_perform_bind (f := ret) hlast
  obtain ⟨rfl, -⟩ := emits_ret hend
  have hreports : reports.Perm d.reports := hd _ mem_cons_self
  have hanswers : ∀ x ∈ visits, d.Answers x.1 x.2 := fun x hx =>
    hd x (mem_cons_of_mem _ (mem_append_left _ hx))
  have hnone : .stopSession t sessionID ∉ performed [] := not_mem_nil
  rw [stop_mem_cons, mem_performed_append, stop_mem_cons, or_iff_left hnone,
    sweepAll_emits hvisits hanswers]
  · constructor
    · rintro ⟨k, rep, hmem, hfresh, ws, columns, sessions, hread⟩
      exact ⟨k, rep, ws, columns, sessions, hreports.mem_iff.mp hmem, hfresh, hread⟩
    · rintro ⟨k, rep, ws, columns, sessions, hmem, hfresh, hread⟩
      exact ⟨k, rep, hreports.mem_iff.mpr hmem, hfresh, ws, columns, sessions, hread⟩
  · trivial
  · trivial

/-- A report that shows the session quiet for an hour, with so many attachers. -/
def hourReport (attachers : Int) : Report where
  headroom := ⟨"api", 512, 1024, 1, [⟨"s1", attachers, 3600, 3600, 3600⟩]⟩
  receivedAt := 0
  task := "task-1"
  measured := 0

/-- It is the only report, on a workspace with one session. -/
def hourReadings (attachers : Int) : Readings where
  reports := [(demoKey, hourReport attachers)]
  row _ := .ok (demoRunning 1 "task-1" none, demoColumns)
  records _ _ := .ok [demoSession]
  tunnel _ := some (demoTunnel 1)
  distinct _ _ _ h := by
    cases h
    exact List.pairwise_singleton _ _

/-- The sweep after it stops the session. -/
def hourSweep (attachers : Int) : Trace SweepOp SweepRes :=
  [⟨.all 10, [(demoKey, hourReport attachers)]⟩,
    ⟨.getWorkspaceByName demoKey (hourReport attachers) 10,
      .ok (demoRunning 1 "task-1" none, demoColumns)⟩,
    ⟨.listWorkspaceSessions "acme" "w1", .ok [demoSession]⟩,
    ⟨.api (.pickWorkspace demoKey), some (demoTunnel 1)⟩,
    ⟨.stopSession (demoTunnel 1) "s1", .ok ()⟩, ⟨.done, ()⟩]

theorem sweep_stops_iff_hour :
    Prog.Emits (sweep 10 10) (hourSweep 0) () ∧
      .stopSession (demoTunnel 1) "s1" ∈ performed (hourSweep 0) ∧
      ∃ k rep ws columns sessions, (k, rep) ∈ (hourReadings 0).reports ∧
        fresh rep.toActivityReport 10 10 = true ∧ (hourReadings 0).row k = .ok (ws, columns) ∧
        (hourReadings 0).records k.tenantID ws.id = .ok sessions ∧
        (hourReadings 0).tunnel ⟨k.tenantID, ws.name⟩ = some (demoTunnel 1) ∧
        MayStop columns sessions rep "s1" := by
  have hemits : Prog.Emits (sweep 10 10) (hourSweep 0) () :=
    .op (.op (.op (.op (.op (.op (.ret ()))))))
  have hsent : .stopSession (demoTunnel 1) "s1" ∈ performed (hourSweep 0) := by
    decide +kernel
  refine ⟨hemits, hsent, (sweep_stops_iff (hourReadings 0) 10 10 hemits ?_ _ _).mp hsent⟩
  simp [hourSweep, Readings.Answers, hourReadings]

/-- A report with a negative number of attachers: nobody is attached to the session, though the
number is not zero. -/
theorem negative_attachers_stopped :
    Prog.Emits (sweep 10 10) (hourSweep (-1)) () ∧
      .stopSession (demoTunnel 1) "s1" ∈ performed (hourSweep (-1)) ∧
      ¬∃ a ∈ (hourReport (-1)).headroom.activity, a.sessionID = "s1" ∧ a.attachers = 0 := by
  refine ⟨.op (.op (.op (.op (.op (.op (.ret ())))))), ?_, ?_⟩
  · decide +kernel
  · decide +kernel

end Lemul.MgmtApi.Reaper
