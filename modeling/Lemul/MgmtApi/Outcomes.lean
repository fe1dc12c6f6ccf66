import Lemul.MgmtApi.Footprint

/-!
# How a call can end

The runs of one handler alone, seen through their traces: what each answer does to the
table, and the six ways `ensureWorkspace` (`api.go:289-423`) comes to an error.
-/

namespace Lemul.MgmtApi

open Store Prog List

variable {cfg : Config} {sc : Scope} {ws : Workspace} {tid : Nat} {s s' : World}
  {tr : Trace Op Res} {α : Type} {p : Api α} {a : α}

/-! ## The table after a run -/

/-- What an operation that was answered `x.2` did to the table. -/
def cellEffect (x : Σ o : Op, Res o) (c : Workspaces) : Workspaces :=
  match x with
  | ⟨.setWorkspaceStatus tenantID id status taskRef, .ok _⟩ =>
      c.setWorkspaceStatus tenantID id status taskRef
  | ⟨.failWorkspacePlacement tenantID id status taskRef reason, .ok _⟩ =>
      c.failWorkspacePlacement tenantID id status taskRef reason
  | ⟨.nextGeneration tenantID id, .ok _⟩ => c.nextGeneration tenantID id
  | ⟨.setWarmHold tenantID id till, .ok _⟩ => c.setWarmHold tenantID id till
  | ⟨.setWorkspaceSnapshot tenantID id snapshot, .ok _⟩ =>
      c.setWorkspaceSnapshot tenantID id (nullable snapshot)
  | ⟨.createWorkspace _ _ _ _, .ok w⟩ => (c.createWorkspace w).getD c
  | ⟨.renameWorkspace tenantID id name, .ok _⟩ => (c.renameWorkspace tenantID id name).getD c
  | ⟨.deleteWorkspace tenantID id, .ok _⟩ => c.deleteWorkspace tenantID id
  | _ => c

theorem exec_cellEffect {o : Op} {r : Res o} (h : exec tid o r s = some s') :
    s'.cell = cellEffect ⟨o, r⟩ s.cell := by
  cases o
  case createWorkspace =>
    simp only [exec] at h
    (repeat' split at h) <;> cases h
    · rfl
    · rename_i hcell
      simp only [cellEffect, hcell, Option.getD_some]
  case renameWorkspace =>
    simp only [exec] at h
    (repeat' split at h) <;> cases h
    · rfl
    · rename_i hcell
      simp only [cellEffect, hcell, Option.getD_some]
  all_goals
    cases r <;> simp only [exec, World.statement] at h <;> (repeat' split at h) <;> cases h <;> rfl

/-- What a whole trace did to it. -/
def cellAfter (tr : Trace Op Res) (c : Workspaces) : Workspaces :=
  tr.foldl (fun c x => cellEffect x c) c

/-- The table after a run is the one before it with the effects of its trace. -/
theorem run_cell (h : p.Runs (machine cfg) tid s tr a s') : s'.cell = cellAfter tr s.cell :=
  Prog.Runs.view_eq (v := World.cell) (f := cellEffect)
    (fun _ _ _ _ hexec => exec_cellEffect hexec)
    (fun _ _ _ henv => (envStep_untouched henv).cell) h

/-! ## The error exits of `ensureWorkspace` -/

/-- The grace period for a task that may be on its way back. -/
inductive Waited (sc : Scope) (ws : Workspace) : Trace Op Res → Prop where
  | skipped : Waited sc ws []
  | timedOut (ch : Nat) (e : GoString) :
      Waited sc ws [⟨.waitWorkspace (wsKey sc ws), .inr ch⟩, ⟨.receive (wsKey sc ws) ch, .error e⟩]

/-- What a placement did up to its `StartWorkspace`. -/
def prepared (sc : Scope) (ws : Workspace) (runner : Tunnel) (gen : Nat)
    (written : Except GoString Unit) : Trace Op Res :=
  [⟨.pickRunner sc.tenantID, some runner⟩, ⟨.nextGeneration sc.tenantID ws.id, .ok gen⟩,
    ⟨.setWorkspaceStatus sc.tenantID ws.id .starting [], written⟩]

/-- How a placement fails, with the reference it is noted under. -/
inductive Failure (cfg : Config) (sc : Scope) (ws : Workspace) :
    Trace Op Res → GoString → Prop where
  | noRunner : Failure cfg sc ws [⟨.pickRunner sc.tenantID, none⟩] []
  | noGeneration (runner : Tunnel) (e : GoString) :
      Failure cfg sc ws [⟨.pickRunner sc.tenantID, some runner⟩,
        ⟨.nextGeneration sc.tenantID ws.id, .error e⟩] []
  | notSent (runner : Tunnel) (gen : Nat) (written : Except GoString Unit) (e : GoString) :
      Failure cfg sc ws (prepared sc ws runner gen written ++
        [⟨.send runner (.startWorkspace (startCommand cfg sc ws gen)), .error e⟩]) []
  | noReply (runner : Tunnel) (gen : Nat) (written : Except GoString Unit) (sid : Nat)
      (e : GoString) :
      Failure cfg sc ws (prepared sc ws runner gen written ++
        [⟨.send runner (.startWorkspace (startCommand cfg sc ws gen)), .ok sid⟩,
          ⟨.recv sid, .error e⟩]) []
  | refused (runner : Tunnel) (gen : Nat) (written : Except GoString Unit) (sid : Nat)
      (message : GoString) :
      Failure cfg sc ws (prepared sc ws runner gen written ++
        [⟨.send runner (.startWorkspace (startCommand cfg sc ws gen)), .ok sid⟩,
          ⟨.recv sid, .ok (.error message)⟩]) []
  | notDialledIn (runner : Tunnel) (gen : Nat) (written written' : Except GoString Unit)
      (sid : Nat) (reply : Reply) (ch : Nat) (e : GoString)
      (hreply : ∀ message, reply ≠ .error message) :
      Failure cfg sc ws (prepared sc ws runner gen written ++
        [⟨.send runner (.startWorkspace (startCommand cfg sc ws gen)), .ok sid⟩,
          ⟨.recv sid, .ok reply⟩,
          ⟨.setWorkspaceStatus sc.tenantID ws.id .starting reply.decodeRef, written'⟩,
          ⟨.waitWorkspace (wsKey sc ws), .inr ch⟩, ⟨.receive (wsKey sc ws) ch, .error e⟩])
        reply.decodeRef

/-- The write of `notePlacementFailure`. -/
abbrev failureNote (sc : Scope) (ws : Workspace) (dispatched cause : GoString) : Op :=
  .failWorkspacePlacement sc.tenantID ws.id (failureStatus ws dispatched).1
    (failureStatus ws dispatched).2 cause

/-- A part of `ensureWorkspace` that came to the error `e`: it did `core`, which fails
under `dispatched`, and noted it. -/
def FailureNoted (sc : Scope) (ws : Workspace) (core : Trace Op Res) (dispatched e : GoString)
    (tr : Trace Op Res) : Prop :=
  ∃ written : Except GoString Unit, tr = core ++ [⟨failureNote sc ws dispatched e, written⟩]

variable {r : Except GoString Tunnel} {runner : Tunnel} {e : GoString}

theorem placementFailed_emits {dispatched cause : GoString}
    (h : Prog.Emits (placementFailed sc ws dispatched cause) tr r) :
    FailureNoted sc ws [] dispatched cause tr ∧ r = .error cause := by
  obtain ⟨written, tr', rfl, hrest⟩ := emits_perform_bind h
  obtain ⟨rfl, hr⟩ := emits_ret hrest
  exact ⟨⟨written, rfl⟩, hr⟩

theorem waitWorkspace_emits {k : WsKey} (h : Prog.Emits (waitWorkspace k) tr r) :
    (∃ t, r = .ok t) ∨ ∃ ch e, r = .error e ∧
      tr = [⟨.waitWorkspace k, .inr ch⟩, ⟨.receive k ch, .error e⟩] := by
  obtain ⟨got, tr', rfl, hrest⟩ := emits_perform_bind h
  cases got with
  | inl t => exact .inl ⟨t, (emits_ret hrest).2⟩
  | inr ch =>
    obtain ⟨r', tr'', rfl, hrest'⟩ := emits_perform_bind (f := .ret) hrest
    obtain ⟨rfl, rfl⟩ := emits_ret hrest'
    cases r with
    | ok t => exact .inl ⟨t, rfl⟩
    | error e => exact .inr ⟨ch, e, rfl, rfl⟩

theorem awaitTask_emits {ref : GoString} (h : Prog.Emits (awaitTask sc ws ref) tr (.error e)) :
    ∃ written ch err, FailureNoted sc ws
      [⟨.setWorkspaceStatus sc.tenantID ws.id .starting ref, written⟩,
        ⟨.waitWorkspace (wsKey sc ws), .inr ch⟩, ⟨.receive (wsKey sc ws) ch, .error err⟩]
      ref e tr := by
  obtain ⟨written, tr', rfl, hrest⟩ := emits_perform_bind h
  obtain ⟨tr₁, tr₂, r, rfl, hwait, hend⟩ := emits_bind hrest
  rcases waitWorkspace_emits hwait with ⟨t, rfl⟩ | ⟨ch, err, rfl, rfl⟩
  · obtain ⟨_, _, -, hret⟩ := emits_perform_bind hend
    cases (emits_ret hret).2
  · obtain ⟨⟨noted, rfl⟩, hcause⟩ := placementFailed_emits hend
    cases hcause
    exact ⟨written, ch, err, noted, rfl⟩

theorem command_emits {c : Command} {r : Except GoString Reply}
    (h : Prog.Emits (command runner c) tr r) :
    (∃ e, r = .error e ∧ tr = [⟨.send runner c, .error e⟩]) ∨
      ∃ sid, tr = [⟨.send runner c, .ok sid⟩, ⟨.recv sid, r⟩] := by
  obtain ⟨sent, tr', rfl, hrest⟩ := emits_perform_bind h
  cases sent with
  | error e =>
    obtain ⟨rfl, rfl⟩ := emits_ret hrest
    exact .inl ⟨e, rfl, rfl⟩
  | ok sid =>
    obtain ⟨r', tr'', rfl, hrest'⟩ := emits_perform_bind (f := .ret) hrest
    obtain ⟨rfl, rfl⟩ := emits_ret hrest'
    exact .inr ⟨sid, rfl⟩

theorem dispatch_emits {gen : Nat} (h : Prog.Emits (dispatch cfg sc ws runner gen) tr (.error e))
    (written : Except GoString Unit) :
    ∃ core dispatched, Failure cfg sc ws (prepared sc ws runner gen written ++ core) dispatched ∧
      FailureNoted sc ws core dispatched e tr := by
  obtain ⟨tr₁, tr₂, r, rfl, hcommand, hend⟩ := emits_bind h
  rcases command_emits hcommand with ⟨err, rfl, rfl⟩ | ⟨sid, rfl⟩
  · obtain ⟨⟨noted, rfl⟩, hcause⟩ := placementFailed_emits hend
    cases hcause
    exact ⟨_, _, .notSent runner gen written err, noted, rfl⟩
  · cases r with
    | error err =>
      obtain ⟨⟨noted, rfl⟩, hcause⟩ := placementFailed_emits hend
      cases hcause
      exact ⟨_, _, .noReply runner gen written sid err, noted, rfl⟩
    | ok reply =>
      by_cases hreply : ∃ message, reply = .error message
      · obtain ⟨message, rfl⟩ := hreply
        obtain ⟨⟨noted, rfl⟩, hcause⟩ := placementFailed_emits hend
        cases hcause
        exact ⟨_, _, .refused runner gen written sid message, noted, rfl⟩
      · have hawait : Prog.Emits (awaitTask sc ws reply.decodeRef) tr₂ (.error e) := by
          cases reply with
          | error message => exact absurd ⟨message, rfl⟩ hreply
          | ref _ | stopped _ | other => exact hend
        obtain ⟨written', ch, err, noted, rfl⟩ := awaitTask_emits hawait
        exact ⟨_, _, .notDialledIn runner gen written written' sid reply ch err
          (fun message heq => hreply ⟨message, heq⟩), noted, rfl⟩

theorem placeTask_emits (h : Prog.Emits (placeTask cfg sc ws) tr (.error e)) :
    ∃ core dispatched, Failure cfg sc ws core dispatched ∧
      FailureNoted sc ws core dispatched e tr := by
  obtain ⟨runner, tr₁, rfl, hrest⟩ := emits_perform_bind h
  cases runner with
  | none =>
    obtain ⟨⟨noted, rfl⟩, hcause⟩ := placementFailed_emits hrest
    cases hcause
    exact ⟨_, _, .noRunner, noted, rfl⟩
  | some runner =>
    obtain ⟨gen, tr₂, rfl, hrest₂⟩ := emits_perform_bind hrest
    cases gen with
    | error err =>
      obtain ⟨⟨noted, rfl⟩, hcause⟩ := placementFailed_emits hrest₂
      cases hcause
      exact ⟨_, _, .noGeneration runner e, noted, rfl⟩
    | ok gen =>
      obtain ⟨written, tr₃, rfl, hdispatch⟩ := emits_perform_bind hrest₂
      obtain ⟨core, dispatched, hfailure, noted, rfl⟩ := dispatch_emits hdispatch written
      exact ⟨_, dispatched, hfailure, noted, rfl⟩

/-- Every run of `ensureWorkspace` that returns an error found no tunnel, maybe waited for
one, failed in one of six ways, noted that, and unlocked. -/
theorem ensureWorkspace_emits (h : Prog.Emits (ensureWorkspace cfg sc ws) tr (.error e)) :
    ∃ (waited core : Trace Op Res) (dispatched : GoString) (written : Except GoString Unit),
      Waited sc ws waited ∧ Failure cfg sc ws core dispatched ∧
      tr = ⟨.lock (lockKey sc ws), ()⟩ :: ⟨.pickWorkspace (wsKey sc ws), none⟩ ::
        (waited ++ core ++
          [⟨failureNote sc ws dispatched e, written⟩, ⟨.unlock (lockKey sc ws), ()⟩]) := by
  obtain ⟨_, tr₁, rfl, hbody⟩ := emits_perform_bind h
  obtain ⟨tr₂, tr₃, r, rfl, hlocked, hunlock⟩ := emits_bind hbody
  obtain ⟨_, tr₄, rfl, hret⟩ := emits_perform_bind hunlock
  obtain ⟨rfl, rfl⟩ := emits_ret hret
  obtain ⟨picked, tr₅, rfl, hrest⟩ := emits_perform_bind hlocked
  cases picked with
  | some t => cases (emits_ret hrest).2
  | none =>
    have hplaced : ∃ waited tr₆, tr₅ = waited ++ tr₆ ∧ Waited sc ws waited ∧
        Prog.Emits (placeTask cfg sc ws) tr₆ (.error e) := by
      dsimp only at hrest
      split at hrest
      · obtain ⟨waited, tr₆, got, rfl, hwait, hplace⟩ := emits_bind hrest
        rcases waitWorkspace_emits hwait with ⟨t, rfl⟩ | ⟨ch, err, rfl, rfl⟩
        · cases (emits_ret hplace).2
        · exact ⟨_, tr₆, rfl, .timedOut ch err, hplace⟩
      · exact ⟨[], tr₅, rfl, .skipped, hrest⟩
    obtain ⟨waited, tr₆, rfl, hwaited, hplace⟩ := hplaced
    obtain ⟨core, dispatched, hfailure, written, rfl⟩ := placeTask_emits hplace
    refine ⟨waited, core, dispatched, written, hwaited, hfailure, ?_⟩
    simp only [cons_append, append_assoc, nil_append]

/-! ## The answer to a dial -/

/-- A dial whose row could be read is answered 401 exactly if it is not authorized. -/
theorem handleWorkspaceTunnel_unauthorized {peer : Peer} {d : Dial} {out : Outcome}
    (htenant : d.tenant ≠ []) (hname : d.workspace ≠ [])
    (hread : ∀ e, ⟨.getWorkspaceByName d.tenant d.workspace, .error e⟩ ∉ tr)
    (hrun : (handleWorkspaceTunnel cfg peer d).Runs (machine cfg) tid s tr out s') :
    out = .refused 401 "unauthorized" ↔ authorizes cfg s d = false := by
  unfold handleWorkspaceTunnel at hrun
  rw [if_neg (not_or.mpr ⟨htenant, hname⟩)] at hrun
  obtain ⟨row, s₁, s₂, tr', hcell, hexec, rfl, hrest⟩ :=
    runs_perform_bind (I := fun s₁ => s₁.cell = s.cell)
      (fun _ _ _ henv h => (envStep_untouched henv).cell.trans h) hrun rfl
  cases row with
  | error e => exact absurd (mem_cons_self ..) (hread e)
  | ok ws =>
    have hrow : s.cell.getWorkspaceByName d.tenant d.workspace = some ws := by
      rw [← hcell]
      exact exec_getWorkspaceByName hexec
    have hemits := hrest.emits
    rw [authorizes, hrow]
    dsimp only at hemits ⊢
    split at hemits
    · rename_i hverify
      rw [(emits_ret hemits).2]
      simpa using hverify
    · rename_i hverify
      have hgood :
          cfg.signer.verifyWorkspace d.tenant d.workspace ws.generation d.bearer = true := by
        simpa using hverify
      rw [hgood]
      refine ⟨fun hout => ?_, nofun⟩
      cases hversion : checkProtocol d.version with
      | some e =>
        rw [hversion] at hemits
        cases (emits_ret hemits).2.symm.trans hout
      | none =>
        rw [hversion] at hemits
        obtain ⟨sess, _, -, hserve⟩ := emits_perform_bind hemits
        cases sess with
        | none => cases (emits_ret hserve).2.symm.trans hout
        | some sess =>
          obtain ⟨_, _, _, -, -, hret⟩ := emits_bind hserve
          cases (emits_ret hret).2.symm.trans hout

end Lemul.MgmtApi
