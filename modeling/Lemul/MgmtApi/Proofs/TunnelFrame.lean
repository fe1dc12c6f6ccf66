import Lemul.Attach.Codec
import Lemul.MgmtApi.Admission

/-!
# Whom a tunnel speaks for

`handleEvent` files a report under the tunnel's organization and under the workspace that the
report itself names (`tunnels.go:228-235`, `:245-251`). The tunnel's own workspace, which a
credential established, is used only where the report names none. So an event is about its own
tunnel exactly when it names that tunnel's workspace or none.
-/

namespace Lemul.MgmtApi.TunnelServer

open Function

/-- The report a sweep at `now` judges a workspace by (`reaper.go:60-68`). -/
def sweptReport (entry : Option ActivityReport) (now interval : Nat) : Option ActivityReport :=
  entry.filter fun rep => fresh rep now interval

/-- What is held of the workspace `k`, and what is decided on it, is the same. -/
structure Undisturbed (s s' : Server) (k : WsKey) : Prop where
  preflight : s'.preflights k = s.preflights k
  activity : s'.activity k = s.activity k
  checkPreflight : checkPreflight (s'.preflights k) = checkPreflight (s.preflights k)
  admission : ∀ p now interval,
    admitSession p (s'.activity k) now interval = admitSession p (s.activity k) now interval
  reaper : ∀ now interval,
    sweptReport (s'.activity k) now interval = sweptReport (s.activity k) now interval

theorem Undisturbed.of_entries {s s' : Server} {k : WsKey}
    (hpreflight : s'.preflights k = s.preflights k) (hactivity : s'.activity k = s.activity k) :
    Undisturbed s s' k :=
  ⟨hpreflight, hactivity, by rw [hpreflight], fun _ _ _ => by rw [hactivity],
    fun _ _ => by rw [hactivity]⟩

/-- The workspace an envelope names in its body, if it is a report that can be read. -/
def namedWorkspace (J : EventJson) (env : Envelope) : Option GoString :=
  if env.type = msgHeadroom then
    match Json.decode J.unmarshalHeadroom ⟨[], 0, 0, 0, []⟩ env with
    | .error _ => none
    | .ok h => some h.workspaceID
  else if env.type = msgPreflight then
    match Json.decode J.unmarshalPreflight ⟨[], [], [], false, false, []⟩ env with
    | .error _ => none
    | .ok rep => some rep.workspaceID
  else none

/-- The store and the key of a report. -/
theorem decodeEvent_named (J : EventJson) (t : Tunnel) (env : Envelope) :
    (namedWorkspace J env = none ∧ decodeEvent J t env = none) ∨
    ∃ w, namedWorkspace J env = some w ∧
      ((∃ h : Headroom, decodeEvent J t env = some (.headroom h) ∧
          h.workspaceID = filedUnder t w) ∨
        ∃ rep : PreflightReport, decodeEvent J t env = some (.preflight rep) ∧
          rep.workspaceID = filedUnder t w) := by
  unfold namedWorkspace decodeEvent
  by_cases hheadroom : env.type = msgHeadroom
  · rw [if_pos hheadroom, if_pos hheadroom]
    cases Json.decode J.unmarshalHeadroom ⟨[], 0, 0, 0, []⟩ env with
    | error e => exact .inl ⟨rfl, rfl⟩
    | ok h => exact .inr ⟨h.workspaceID, rfl, .inl ⟨_, rfl, rfl⟩⟩
  · rw [if_neg hheadroom, if_neg hheadroom]
    by_cases hpreflight : env.type = msgPreflight
    · rw [if_pos hpreflight, if_pos hpreflight]
      cases Json.decode J.unmarshalPreflight ⟨[], [], [], false, false, []⟩ env with
      | error e => exact .inl ⟨rfl, rfl⟩
      | ok rep => exact .inr ⟨rep.workspaceID, rfl, .inr ⟨_, rfl, rfl⟩⟩
    · rw [if_neg hpreflight, if_neg hpreflight]
      exact .inl ⟨rfl, rfl⟩

/-- An event leaves every workspace alone but the one it is filed under. -/
theorem handleEvent_undisturbed (J : EventJson) {s : Server} {i now : Nat} {c : Conn}
    {env : Envelope} {k : WsKey}
    (hk : ∀ w, namedWorkspace J env = some w → k ≠ ⟨c.tunnel.tenantID, filedUnder c.tunnel w⟩) :
    Undisturbed s (handleEvent s i c now (decodeEvent J c.tunnel env)) k := by
  rcases decodeEvent_named J c.tunnel env with ⟨-, hnone⟩ | ⟨w, hw, ⟨h, hevent, hkey⟩ |
    ⟨rep, hevent, hkey⟩⟩
  · rw [hnone]
    exact .of_entries rfl rfl
  · rw [hevent]
    refine .of_entries rfl (update_of_ne ?_ _ _)
    rw [hkey]
    exact hk w hw
  · rw [hevent]
    refine .of_entries (update_of_ne ?_ _ _) rfl
    rw [hkey]
    exact hk w hw

theorem filedUnder_own {t : Tunnel} {w : GoString} (h : w = [] ∨ w = t.workspaceName) :
    filedUnder t w = t.workspaceName := by
  unfold filedUnder
  split
  · rfl
  · rename_i hne
    exact h.resolve_left hne

/-- A tunnel that has just been admitted. -/
def freshConn (t : Tunnel) : Conn := ⟨.workspace, t, .drain, .serve, true, false, [], none, none⟩

/-- An event on the tunnel `t` leaves every workspace but the tunnel's own undisturbed, whatever
the server holds, exactly when it is not a report that names another workspace. -/
theorem tunnel_speaks_for_itself_iff (J : EventJson) (t : Tunnel) (env : Envelope) :
    (∀ (s : Server) (i : Nat) (c : Conn) (now : Nat), c.tunnel = t → ∀ k, k ≠ t.key →
      Undisturbed s (handleEvent s i c now (decodeEvent J t env)) k) ↔
    ∀ w, namedWorkspace J env = some w → w = [] ∨ w = t.workspaceName := by
  constructor
  · intro h w hw
    by_contra hother
    rw [not_or] at hother
    have hfiled : filedUnder t w = w := if_neg hother.1
    have hkey : (⟨t.tenantID, w⟩ : WsKey) ≠ t.key := fun heq =>
      hother.2 (congrArg WsKey.name heq)
    have hkept := h .new 0 (freshConn t) 0 rfl ⟨t.tenantID, w⟩ hkey
    -- a server that holds nothing holds the report afterwards
    rcases decodeEvent_named J t env with ⟨hnone, -⟩ | ⟨w', hw', hevent⟩
    · cases hnone.symm.trans hw
    · obtain rfl := Option.some.inj (hw'.symm.trans hw)
      rcases hevent with ⟨m, hevent, hm⟩ | ⟨rep, hevent, hm⟩
      · rw [hevent] at hkept
        have hentry := hkept.activity
        simp only [handleEvent, hm, hfiled, freshConn, update_self] at hentry
        cases hentry
      · rw [hevent] at hkept
        have hentry := hkept.preflight
        simp only [handleEvent, hm, hfiled, freshConn, update_self] at hentry
        cases hentry
  · rintro h s i c now rfl k hk
    refine handleEvent_undisturbed J fun w hw => ?_
    rw [filedUnder_own (h w hw)]
    exact hk

/-! ## A report about another workspace -/

/-- The verdict of a task of `api` that a model `web` needs cannot be used. -/
def forgedVerdict : PreflightReport where
  workspaceID := "web"
  region := "eu-west-1"
  checkedAt := "2026-01-01T00:00:00Z"
  skipped := false
  blocking := true
  models :=
    [⟨"main", "opus", true, "NOT_AUTHORIZED", false, [], [], "ask an admin"⟩]

def forgedEvent : Envelope := Attach.wireEvents.message (.preflight forgedVerdict)

/-- The server with the tunnel of `api`, before and after the event. -/
def beforeForgery : Server :=
  { Server.new with conns := [freshConn ⟨"api", "acme", "api", 0⟩] }

def afterForgery : Server :=
  handleEvent beforeForgery 0 (freshConn ⟨"api", "acme", "api", 0⟩) 5
    (decodeEvent Attach.wireEvents ⟨"api", "acme", "api", 0⟩ forgedEvent)

/-- A task of `api` has the sessions of `web` refused. -/
theorem tunnel_speaks_for_another :
    checkPreflight (beforeForgery.preflights ⟨"acme", "web"⟩) = .ok () ∧
      checkPreflight (afterForgery.preflights ⟨"acme", "web"⟩) =
        .error ("bedrock is not usable in this workspace: " ++
          "opus (main) is not invocable. ask an admin") := by
  decide +kernel

end Lemul.MgmtApi.TunnelServer
