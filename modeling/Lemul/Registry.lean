import Lemul.Misc.GoString

/-!
# Live tunnels

`internal/registry/registry.go`: runner tunnels by organization, workspace tunnels by
(organization, workspace name), and the channels of the calls waiting for a workspace
to dial in. Every function below is one section under the registry's mutex.

A Go map that lacks a key and one that holds an empty slice under it answer alike, so
the maps are total functions. `RemoteAddr` and `ConnectedAt` of a tunnel are only
reported and are left out.
-/

namespace Lemul

open Function List

/-- `Tunnel` (`registry.go:28-41`). `sess` stands for the yamux session and, since every
tunnel has its own, for the identity of the pointer. -/
structure Tunnel where
  id : GoString
  tenantID : GoString
  workspaceName : GoString
  sess : Nat
  deriving DecidableEq, Repr

/-- `wsKey` (`registry.go:85-88`). -/
structure WsKey where
  tenantID : GoString
  name : GoString
  deriving DecidableEq, Repr

/-- `key` (`registry.go:98`). -/
def Tunnel.key (t : Tunnel) : WsKey := ⟨t.tenantID, t.workspaceName⟩

/-- `Registry` (`registry.go:74-80`); a waiter is the number of its channel. -/
structure Registry where
  runners : GoString → List Tunnel
  workspaces : WsKey → List Tunnel
  waiters : WsKey → List Nat
  rr : Nat

namespace Registry

/-- `New` (`registry.go:90-96`). -/
def new : Registry := ⟨fun _ => [], fun _ => [], fun _ => [], 0⟩

/-- `AddRunner` (`registry.go:100-104`). -/
def addRunner (r : Registry) (t : Tunnel) : Registry :=
  { r with runners := update r.runners t.tenantID (r.runners t.tenantID ++ [t]) }

/-- `RemoveRunner` (`registry.go:106-113`). -/
def removeRunner (r : Registry) (t : Tunnel) : Registry :=
  { r with
    runners := update r.runners t.tenantID
      ((r.runners t.tenantID).filter (fun x => x ≠ t)) }

/-- `PickRunner` (`registry.go:118-127`): round robin, `none` for `ErrNoTunnel`. -/
def pickRunner (r : Registry) (tenantID : GoString) : Option Tunnel × Registry :=
  let ts := r.runners tenantID
  if ts.length = 0 then (none, r)
  else
    let rr := (r.rr + 1) % 2 ^ 64
    (ts[rr % ts.length]?, { r with rr := rr })

/-- `AddWorkspace` (`registry.go:129-135`): register, and take the waiters to notify. -/
def addWorkspace (r : Registry) (t : Tunnel) : List Nat × Registry :=
  (r.waiters t.key,
    { r with
      workspaces := update r.workspaces t.key (r.workspaces t.key ++ [t])
      waiters := update r.waiters t.key [] })

/-- `RemoveWorkspace` (`registry.go:169-177`). -/
def removeWorkspace (r : Registry) (t : Tunnel) : Registry :=
  { r with
    workspaces := update r.workspaces t.key
      ((r.workspaces t.key).filter (fun x => x ≠ t)) }

/-- `PickWorkspace` (`registry.go:186-194`): the newest, `none` for `ErrNoTunnel`. -/
def pickWorkspace (r : Registry) (k : WsKey) : Option Tunnel := (r.workspaces k).getLast?

/-- The first half of `WaitWorkspace` (`registry.go:199-208`) when no tunnel is
registered: queue channel `ch`. -/
def addWaiter (r : Registry) (k : WsKey) (ch : Nat) : Registry :=
  { r with waiters := update r.waiters k (r.waiters k ++ [ch]) }

/-- `WaitWorkspace` giving up (`registry.go:213-220`). -/
def removeWaiter (r : Registry) (k : WsKey) (ch : Nat) : Registry :=
  { r with waiters := update r.waiters k ((r.waiters k).filter (fun x => x ≠ ch)) }

/-! ## What the operations do to the set of registered tunnels -/

@[simp] theorem pickRunner_workspaces (r : Registry) (tenantID : GoString) :
    (r.pickRunner tenantID).2.workspaces = r.workspaces := by
  unfold pickRunner
  dsimp only
  split <;> rfl

variable {r : Registry} {k : WsKey}

theorem mem_addWorkspace {t x : Tunnel} :
    x ∈ (r.addWorkspace t).2.workspaces k ↔ x ∈ r.workspaces k ∨ x = t ∧ k = t.key := by
  by_cases hk : k = t.key
  · subst hk
    simp [addWorkspace]
  · simp [addWorkspace, hk]

theorem mem_of_mem_removeWorkspace {t x : Tunnel}
    (h : x ∈ (r.removeWorkspace t).workspaces k) : x ∈ r.workspaces k := by
  by_cases hk : k = t.key
  · subst hk
    simp only [removeWorkspace, update_self, mem_filter] at h
    exact h.1
  · simpa [removeWorkspace, hk] using h

@[simp] theorem pickRunner_waiters (r : Registry) (tenantID : GoString) :
    (r.pickRunner tenantID).2.waiters = r.waiters := by
  unfold pickRunner
  dsimp only
  split <;> rfl

theorem mem_of_mem_addWorkspace_waiters {t : Tunnel} {ch : Nat}
    (h : ch ∈ (r.addWorkspace t).2.waiters k) : ch ∈ r.waiters k := by
  by_cases hk : k = t.key
  · subst hk
    simp [addWorkspace] at h
  · simpa [addWorkspace, hk] using h

theorem mem_of_mem_removeWaiter {k' : WsKey} {ch ch' : Nat}
    (h : ch ∈ (r.removeWaiter k' ch').waiters k) : ch ∈ r.waiters k := by
  by_cases hk : k = k'
  · subst hk
    simp only [removeWaiter, update_self, mem_filter] at h
    exact h.1
  · simpa [removeWaiter, hk] using h

theorem mem_addWaiter {k' : WsKey} {ch ch' : Nat}
    (h : ch ∈ (r.addWaiter k' ch').waiters k) : ch ∈ r.waiters k ∨ ch = ch' ∧ k = k' := by
  by_cases hk : k = k'
  · subst hk
    simpa [addWaiter] using h
  · simp only [addWaiter, update_of_ne hk] at h
    exact .inl h

theorem mem_of_pickWorkspace {t : Tunnel} (h : r.pickWorkspace k = some t) : t ∈ r.workspaces k :=
  mem_of_getLast? h

end Registry

end Lemul
