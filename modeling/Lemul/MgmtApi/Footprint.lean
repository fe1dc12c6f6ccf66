import Lemul.MgmtApi.Effects

/-!
# What each handler may perform

One statement for each program of the Management API: the operations it can reach, on
which records and with which messages. The arguments about all interleavings below use
these in place of the programs' text.
-/

namespace Lemul.MgmtApi

open Store Prog

/-- What the machine promises about answers: a generation is a `bigint`. -/
def Answered : (o : Op) → Res o → Prop
  | .nextGeneration _ _, .ok g => g < 2 ^ 63
  | _, _ => True

theorem exec_answered (tid : Nat) (o : Op) (r : Res o) (s s' : World)
    (h : exec tid o r s = some s') : Answered o r := by
  cases o <;> try trivial
  cases r with
  | error e => trivial
  | ok g =>
    simp only [exec] at h
    split at h
    · cases h
    · split at h
      · rename_i hg
        exact hg.2
      · cases h

/-- How a handler's next operation is proved safe. -/
theorem safe_call {cfg : Config} {cond : World → Label Op Res EnvMove Req → Prop}
    {O : System.Outline (system cfg) cond} {β : Type} {tid : Nat} {o : Op} {f : Res o → Api β}
    {Q : β → World → Prop} {s : World}
    (h : ∀ s₁, O.rely tid s s₁ → O.inv s₁ → O.pre tid o s₁ ∧
      ∀ r s₂, exec tid o r s₁ = some s₂ → cond s₁ (.thread tid o r) → O.inv s₂ →
        O.Safe tid (f r) Q s₂) : O.Safe tid (call o >>= f) Q s := h

variable {P : Op → Prop}

theorem command_performs {runner : Tunnel} {c : Command} (hsend : P (.send runner c))
    (hrecv : ∀ sid, P (.recv sid)) : (command runner c).Performs Answered P := by
  refine .perform hsend ?_
  intro r _
  cases r with
  | error e => trivial
  | ok sid => exact performs_perform.mpr (hrecv sid)

/-! ## Placement -/

/-- The operations of `ensureWorkspace` on the record `ws` while it holds the lock. -/
def PlacementOp (cfg : Config) (sc : Scope) (ws : Workspace) : Op → Prop
  | .pickWorkspace k => k = wsKey sc ws
  | .waitWorkspace k => k = wsKey sc ws
  | .receive k _ => k = wsKey sc ws
  | .pickRunner tenantID => tenantID = sc.tenantID
  | .nextGeneration tenantID id => tenantID = sc.tenantID ∧ id = ws.id
  | .setWorkspaceStatus tenantID id _ _ => tenantID = sc.tenantID ∧ id = ws.id
  | .failWorkspacePlacement tenantID id _ _ _ => tenantID = sc.tenantID ∧ id = ws.id
  | .send _ c => ∃ gen < 2 ^ 63, c = .startWorkspace (startCommand cfg sc ws gen)
  | .recv _ => True
  | _ => False

/-- The operations of `ensureWorkspace`. -/
def EnsureOp (cfg : Config) (sc : Scope) (ws : Workspace) : Op → Prop
  | .lock k => k = lockKey sc ws
  | .unlock k => k = lockKey sc ws
  | o => PlacementOp cfg sc ws o

theorem PlacementOp.ensureOp {cfg : Config} {sc : Scope} {ws : Workspace} {o : Op}
    (h : PlacementOp cfg sc ws o) : EnsureOp cfg sc ws o := by
  cases o <;> first | exact h | exact h.elim

variable {cfg : Config} {sc : Scope} {ws : Workspace} {o : Op}

theorem PlacementOp.reads (ho : PlacementOp cfg sc ws o) : o.reads = false := by
  cases o <;> first | rfl | exact ho.elim

theorem EnsureOp.reads (ho : EnsureOp cfg sc ws o) : o.reads = false := by
  cases o <;> first | rfl | exact ho.elim

theorem PlacementOp.creates (ho : PlacementOp cfg sc ws o) : o.creates = false := by
  cases o <;> first | rfl | exact ho.elim

theorem PlacementOp.renames (ho : PlacementOp cfg sc ws o) : o.renames = false := by
  cases o <;> first | rfl | exact ho.elim

theorem PlacementOp.locks (ho : PlacementOp cfg sc ws o) : o.locks = false := by
  cases o <;> first | rfl | exact ho.elim

theorem waitWorkspace_performs :
    (waitWorkspace (wsKey sc ws)).Performs Answered (PlacementOp cfg sc ws) := by
  refine .perform rfl ?_
  intro r _
  cases r with
  | inl t => trivial
  | inr ch => exact performs_perform.mpr rfl

theorem placementFailed_eq (dispatched cause : GoString) :
    placementFailed sc ws dispatched cause =
      call (.failWorkspacePlacement sc.tenantID ws.id (failureStatus ws dispatched).1
        (failureStatus ws dispatched).2 cause) >>= fun _ => pure (.error cause) := rfl

theorem placementFailed_performs (dispatched cause : GoString) :
    (placementFailed sc ws dispatched cause).Performs Answered (PlacementOp cfg sc ws) :=
  ⟨⟨rfl, rfl⟩, fun _ _ => trivial⟩

theorem awaitTask_performs (ref : GoString) :
    (awaitTask sc ws ref).Performs Answered (PlacementOp cfg sc ws) := by
  refine .perform ⟨rfl, rfl⟩ fun _ _ => ?_
  refine waitWorkspace_performs.bind fun r => ?_
  cases r with
  | error e => exact placementFailed_performs _ _
  | ok t => exact ⟨⟨rfl, rfl⟩, fun _ _ => trivial⟩

theorem dispatch_performs (runner : Tunnel) {gen : Nat} (hgen : gen < 2 ^ 63) :
    (dispatch cfg sc ws runner gen).Performs Answered (PlacementOp cfg sc ws) := by
  refine (command_performs ⟨gen, hgen, rfl⟩ (fun _ => trivial)).bind fun r => ?_
  cases r with
  | error e => exact placementFailed_performs _ _
  | ok reply =>
    cases reply with
    | error message => exact placementFailed_performs _ _
    | ref ref | stopped snapshot | other => exact awaitTask_performs _

theorem placeTask_performs :
    (placeTask cfg sc ws).Performs Answered (PlacementOp cfg sc ws) := by
  refine .perform rfl fun runner _ => ?_
  cases runner with
  | none => exact placementFailed_performs _ _
  | some runner =>
    refine .perform ⟨rfl, rfl⟩ fun gen hgen => ?_
    cases gen with
    | error e => exact placementFailed_performs _ _
    | ok gen =>
      exact .perform ⟨rfl, rfl⟩ fun _ _ => dispatch_performs runner hgen

theorem ensureLocked_performs :
    (ensureLocked cfg sc ws).Performs Answered (PlacementOp cfg sc ws) := by
  refine .perform rfl fun t _ => ?_
  cases t with
  | some t => trivial
  | none =>
    dsimp only
    split
    · refine waitWorkspace_performs.bind fun r => ?_
      cases r with
      | ok t => trivial
      | error e => exact placeTask_performs
    · exact placeTask_performs

theorem ensureWorkspace_performs :
    (ensureWorkspace cfg sc ws).Performs Answered (EnsureOp cfg sc ws) := by
  refine .perform rfl fun _ _ => ?_
  refine (ensureLocked_performs.mono fun _ => PlacementOp.ensureOp).bind fun _ => ?_
  exact ⟨rfl, fun _ _ => trivial⟩

/-! ## Dialling in -/

/-- The operations of `handleWorkspaceTunnel`. -/
def DialOp : Op → Prop
  | .getWorkspaceByName _ _ => True
  | .upgrade _ => True
  | .addWorkspace _ => True
  | .notify _ _ => True
  | .drainEvents _ => True
  | .removeWorkspace _ => True
  | _ => False

theorem notifyAll_performs (t : Tunnel) (waiters : List Nat) :
    (notifyAll t waiters).Performs Answered DialOp := by
  induction waiters with
  | nil => trivial
  | cons ch waiters ih => exact .perform trivial fun _ _ => ih

theorem serveTunnel_performs (t : Tunnel) : (serveTunnel t).Performs Answered DialOp := by
  refine .perform trivial fun waiters _ => ?_
  exact (notifyAll_performs t waiters).bind fun _ =>
    ⟨trivial, fun _ _ => ⟨trivial, fun _ _ => trivial⟩⟩

theorem handleWorkspaceTunnel_performs (peer : Peer) (d : Dial) :
    (handleWorkspaceTunnel cfg peer d).Performs Answered DialOp := by
  unfold handleWorkspaceTunnel
  split
  · trivial
  · refine .perform trivial fun row _ => ?_
    cases row with
    | error e => trivial
    | ok w =>
      dsimp only
      split
      · trivial
      · cases checkProtocol d.version with
        | some e => trivial
        | none =>
          refine .perform trivial fun sess _ => ?_
          cases sess with
          | none => trivial
          | some sess => exact (serveTunnel_performs _).bind fun _ => trivial

/-! ## Stopping -/

/-- The operations of sweeps and deletes. -/
def StopOp : Op → Prop
  | .getWorkspaceByName _ _ => True
  | .pickRunner _ => True
  | .send _ (.stopWorkspace _) => True
  | .send _ (.dropSnapshot _) => True
  | .recv _ => True
  | .getWorkspace _ _ => True
  | .setWorkspaceSnapshot _ _ _ => True
  | .setWorkspaceStatus _ _ _ _ => True
  | .setWarmHold _ _ _ => True
  | .listSessions _ _ => True
  | .deleteWorkspace _ _ => True
  | _ => False

/-- The operations of `stopTask` on the task `ref`. -/
def StopTaskOp (ref : GoString) : Op → Prop
  | .pickRunner _ => True
  | .send _ (.stopWorkspace m) => m.ref = ref ∧ ref ≠ []
  | .send _ (.dropSnapshot _) => True
  | .recv _ => True
  | .getWorkspace _ _ => True
  | .setWorkspaceSnapshot _ _ _ => True
  | _ => False

theorem StopTaskOp.stopOp {ref : GoString} (ho : StopTaskOp ref o) : StopOp o := by
  cases o with
  | send t c => cases c <;> trivial
  | _ => trivial

theorem dropSnapshot_performs (ref tenantID previous : GoString) :
    (dropSnapshot tenantID previous).Performs Answered (StopTaskOp ref) := by
  refine .perform trivial fun runner _ => ?_
  cases runner with
  | none => trivial
  | some runner => exact (command_performs trivial fun _ => trivial).bind fun _ => trivial

theorem record_performs (ref : GoString) (disk : PreserveDisk) (tenantID snapshot : GoString) :
    (disk.record tenantID snapshot).Performs Answered (StopTaskOp ref) := by
  cases disk with
  | dropDisk => trivial
  | keepDisk tenant id =>
    unfold PreserveDisk.record
    dsimp only
    split
    · trivial
    · refine Prog.Performs.bind ?_ fun displaced => ?_
      · refine .perform trivial fun before _ => ?_
        cases before with
        | error e => trivial
        | ok before =>
          refine .perform trivial fun written _ => ?_
          cases written with
          | error e => trivial
          | ok u =>
            dsimp only
            split <;> trivial
      · cases displaced with
        | error e => trivial
        | ok previous =>
          dsimp only
          split
          · trivial
          · exact dropSnapshot_performs ref tenantID previous

theorem stopTask_performs (tenantID name ref : GoString) (disk : PreserveDisk) :
    (stopTask tenantID name ref disk).Performs Answered (StopTaskOp ref) := by
  unfold stopTask
  split
  · trivial
  · rename_i hne
    refine .perform trivial fun runner _ => ?_
    cases runner with
    | none => trivial
    | some runner =>
      refine (command_performs ⟨rfl, hne⟩ fun _ => trivial).bind fun reply => ?_
      cases reply with
      | error e => trivial
      | ok reply =>
        cases reply with
        | error message => trivial
        | ref r | stopped snapshot | other => exact record_performs ..

theorem sweepWorkspace_performs (tenantID name : GoString) (sessions now : Nat) :
    (sweepWorkspace tenantID name sessions now).Performs Answered StopOp := by
  refine .perform trivial fun row _ => ?_
  cases row with
  | error e => trivial
  | ok w =>
    dsimp only
    unfold advanceWarmHold
    split
    · split
      · trivial
      · exact ⟨trivial, fun _ _ => trivial⟩
    · split
      · exact ⟨trivial, fun _ _ => trivial⟩
      · split
        · trivial
        · refine ((stopTask_performs ..).mono fun _ => StopTaskOp.stopOp).bind fun _ => ?_
          exact ⟨trivial, fun _ _ => ⟨trivial, fun _ _ => trivial⟩⟩

theorem stopWorkspaceTask_performs :
    (stopWorkspaceTask sc ws).Performs Answered StopOp := by
  refine ((stopTask_performs ..).mono fun _ => StopTaskOp.stopOp).bind fun _ => ?_
  split
  · trivial
  · exact (dropSnapshot_performs [] ..).mono fun _ => StopTaskOp.stopOp

theorem handleDeleteWorkspace_performs (force : Bool) :
    (handleDeleteWorkspace sc ws force).Performs Answered StopOp := by
  refine .perform trivial fun sessions _ => ?_
  cases sessions with
  | error e => trivial
  | ok sessions =>
    dsimp only
    split
    · trivial
    · refine stopWorkspaceTask_performs.bind fun _ => ?_
      refine .perform trivial fun deleted _ => ?_
      cases deleted <;> trivial

theorem withWorkspace_performs {name : GoString} {k : Workspace → Api Outcome}
    (hread : ∀ tenantID name, P (.getWorkspaceByName tenantID name))
    (hk : ∀ ws, (k ws).Performs Answered P) : (withWorkspace sc name k).Performs Answered P := by
  refine .perform (hread _ _) fun row _ => ?_
  cases row with
  | error e =>
    dsimp only
    split <;> trivial
  | ok ws => exact hk ws

end Lemul.MgmtApi
