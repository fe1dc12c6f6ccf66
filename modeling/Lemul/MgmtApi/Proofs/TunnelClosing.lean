import Lemul.Attach.Codec
import Lemul.MgmtApi.TunnelServer

/-!
# A tunnel that has left the registry

The registry holds a tunnel as long as its handler serves it (`Wired`). A handler leaves its
loop at the first read error. As long as every frame on the event streams can be read, that
is the end of the session, so a tunnel that has left the registry is closed and its agent is
about to dial again (`removed_tunnel_closed`). After a frame that cannot be read the session
stays open: the agent goes on serving a tunnel that nobody will use (`removed_tunnel_open`).
-/

namespace Lemul.MgmtApi.TunnelServer

open List Option

variable {J : EventJson} {s s' : Server} {l : Label}

/-- Tunnels and the registry fit together. -/
structure Wired (s : Server) : Prop where
  /-- The session of a tunnel is its position. -/
  sess : ∀ (i : Nat) (c : Conn), s.conns[i]? = some c → c.tunnel.sess = i
  /-- A tunnel whose handler serves it is registered. -/
  listed : ∀ (i : Nat) (c : Conn), s.conns[i]? = some c → c.handler.serving = true →
    s.registered c = true
  /-- What is registered for a workspace is a tunnel that was admitted for it. -/
  known : ∀ (k : WsKey) (t : Tunnel), t ∈ s.reg.workspaces k →
    ∃ c, s.conns[t.sess]? = some c ∧ c.tunnel = t ∧ t.key = k

theorem wired_new : Wired .new where
  sess _ _ := nofun
  listed _ _ := nofun
  known _ _ := nofun

variable {c : Conn} {tr : List Label} {i : Nat} {r : Registry} {t x : Tunnel}
  {tenantID : GoString}

/-- Being registered depends on the registry, the kind and the tunnel. -/
theorem registered_congr {s : Server} {c' : Conn} (hkind : c'.kind = c.kind)
    (htunnel : c'.tunnel = c.tunnel) : s.registered c' = s.registered c := by
  simp only [Server.registered, hkind, htunnel]

theorem mem_addRunner (h : x ∈ r.runners tenantID) : x ∈ (r.addRunner t).runners tenantID := by
  by_cases htenant : tenantID = t.tenantID
  · subst htenant
    simp [Registry.addRunner, h]
  · simpa [Registry.addRunner, htenant] using h

theorem mem_removeRunner (h : x ∈ r.runners tenantID)
    (hne : x ≠ t) : x ∈ (r.removeRunner t).runners tenantID := by
  by_cases htenant : tenantID = t.tenantID
  · subst htenant
    simp [Registry.removeRunner, h, hne]
  · simpa [Registry.removeRunner, htenant] using h

theorem mem_removeWorkspace {k : WsKey} (h : x ∈ r.workspaces k)
    (hne : x ≠ t) : x ∈ (r.removeWorkspace t).workspaces k := by
  by_cases hk : k = t.key
  · subst hk
    simp [Registry.removeWorkspace, h, hne]
  · simpa [Registry.removeWorkspace, hk] using h

theorem registered_register (h : s.registered c = true) (kind : Kind) (t : Tunnel) :
    (s.register kind t).registered c = true := by
  cases hkind : c.kind with
  | runner =>
    simp only [Server.registered, hkind, decide_eq_true_eq] at h ⊢
    cases kind with
    | runner => exact mem_addRunner h
    | workspace => exact h
  | workspace =>
    simp only [Server.registered, hkind, decide_eq_true_eq] at h ⊢
    cases kind with
    | runner => exact h
    | workspace => exact Registry.mem_addWorkspace.mpr (.inl h)

theorem registered_new_conn (s : Server) (c : Conn) :
    (s.register c.kind c.tunnel).registered c = true := by
  cases hkind : c.kind with
  | runner => simp [Server.registered, hkind, Server.register, Registry.addRunner]
  | workspace =>
    simp only [Server.registered, hkind, Server.register]
    exact decide_eq_true (Registry.mem_addWorkspace.mpr (.inr ⟨rfl, rfl⟩))

theorem Wired.register (h : Wired s) (kind : Kind) (hsess : t.sess = s.conns.length) :
    Wired (s.register kind t) where
  sess i c hc := by
    rcases of_getElem?_concat hc with hc | ⟨rfl, rfl⟩
    · exact h.sess i c hc
    · exact hsess
  listed i c hc hserving := by
    rcases of_getElem?_concat hc with hc | ⟨-, rfl⟩
    · exact registered_register (h.listed i c hc hserving) kind t
    · exact registered_new_conn s _
  known k x hx := by
    have hold : ∀ {x}, x ∈ s.reg.workspaces k →
        ∃ c, (s.register kind t).conns[x.sess]? = some c ∧ c.tunnel = x ∧ x.key = k := by
      intro x hx
      obtain ⟨c, hc, htunnel, hkey⟩ := h.known k x hx
      exact ⟨c, getElem?_concat_old hc _, htunnel, hkey⟩
    cases kind with
    | runner => exact hold hx
    | workspace =>
      rcases Registry.mem_addWorkspace.mp hx with hx | ⟨rfl, rfl⟩
      · exact hold hx
      · have hlast : (s.register .workspace x).conns[s.conns.length]? =
            some ⟨.workspace, x, .accept, .open, false, false, [], none, none⟩ :=
          getElem?_concat_length
        exact ⟨_, hsess ▸ hlast, rfl, rfl⟩

/-- A tunnel changes, and the registry does not. -/
theorem Wired.set (h : Wired s) (hc : s.conns[i]? = some c) (c' : Conn) (hkind : c'.kind = c.kind)
    (htunnel : c'.tunnel = c.tunnel)
    (hserving : c'.handler.serving = true → c.handler.serving = true)
    {s' : Server} (hreg : s'.reg = s.reg) (hconns : s'.conns = s.conns.set i c') : Wired s' where
  sess j x hx := by
    rw [hconns] at hx
    rcases of_getElem?_set hx with ⟨rfl, rfl⟩ | ⟨-, hx⟩
    · rw [htunnel]
      exact h.sess j c hc
    · exact h.sess j x hx
  listed j x hx hx' := by
    rw [hconns] at hx
    have hsame : ∀ y, s'.registered y = s.registered y := by
      intro y
      simp only [Server.registered, hreg]
    rw [hsame]
    rcases of_getElem?_set hx with ⟨rfl, rfl⟩ | ⟨-, hx⟩
    · rw [registered_congr hkind htunnel]
      exact h.listed j c hc (hserving hx')
    · exact h.listed j x hx hx'
  known k t ht := by
    rw [hreg] at ht
    obtain ⟨x, hx, hxt, hkey⟩ := h.known k t ht
    rw [hconns]
    by_cases hi : t.sess = i
    · rw [hi, hc] at hx
      cases hx
      exact ⟨c', hi ▸ getElem?_set_same hc c', htunnel.trans hxt, hkey⟩
    · exact ⟨x, by rw [getElem?_set_ne (Ne.symm hi), hx], hxt, hkey⟩

/-- A handler removes its tunnel: every other one stays registered. -/
theorem Wired.remove (h : Wired s) (hc : s.conns[i]? = some c) (c' : Conn)
    (htunnel : c'.tunnel = c.tunnel) (hgone : c'.handler.serving = false)
    {reg : Registry} (hkept : ∀ x, x.tunnel ≠ c.tunnel → s.registered x = true →
      ({ s with reg } : Server).registered x = true)
    (hless : ∀ k t, t ∈ reg.workspaces k → t ∈ s.reg.workspaces k) :
    Wired { s with reg, conns := s.conns.set i c' } where
  sess j x hx := by
    rcases of_getElem?_set hx with ⟨rfl, rfl⟩ | ⟨-, hx⟩
    · rw [htunnel]
      exact h.sess j c hc
    · exact h.sess j x hx
  listed j x hx hserving := by
    rcases of_getElem?_set hx with ⟨rfl, rfl⟩ | ⟨hj, hx⟩
    · cases hgone.symm.trans hserving
    · refine hkept x ?_ (h.listed j x hx hserving)
      intro heq
      have hsess := h.sess j x hx
      rw [heq, h.sess i c hc] at hsess
      exact hj hsess.symm
  known k t ht := by
    obtain ⟨x, hx, hxt, hkey⟩ := h.known k t (hless k t ht)
    by_cases hi : t.sess = i
    · rw [hi, hc] at hx
      cases hx
      exact ⟨c', hi ▸ getElem?_set_same hc c', htunnel.trans hxt, hkey⟩
    · refine ⟨x, ?_, hxt, hkey⟩
      show (s.conns.set i c')[t.sess]? = some x
      rw [getElem?_set_ne (Ne.symm hi), hx]

/-- What `handleEvent` leaves alone. -/
theorem handleEvent_set (s : Server) (i now : Nat) (c : Conn) (ev : Option Event) :
    ∃ c', (handleEvent s i c now ev).conns = s.conns.set i c' ∧
      (handleEvent s i c now ev).reg = s.reg ∧ c'.kind = c.kind ∧ c'.tunnel = c.tunnel ∧
      c'.handler = c.handler ∧ c'.closed = c.closed ∧ c'.agent = c.agent := by
  cases ev with
  | none => exact ⟨c, rfl, rfl, rfl, rfl, rfl, rfl, rfl⟩
  | some ev =>
    cases ev with
    | headroom h | preflight rep => exact ⟨_, rfl, rfl, rfl, rfl, rfl, rfl, rfl⟩
    | sessionExited e => exact ⟨c, rfl, rfl, rfl, rfl, rfl, rfl, rfl⟩

theorem Wired.effect (h : Wired s) (heffect : Effect J s l s') : Wired s' := by
  cases heffect with
  | register kind t hsess => exact h.register kind hsess
  | move i c c' hc hmoves hremove =>
    refine h.set hc c' hmoves.kind hmoves.tunnel ?_ rfl rfl
    rcases hmoves.serving with heq | ⟨hserving, -⟩
    · rw [heq]
      exact id
    · exact fun _ => hserving
  | file i now c env rest hc hdrain hread =>
    obtain ⟨c', hconns, hreg, hkind, htunnel, hhandler, -, -⟩ :=
      handleEvent_set s i now { c with wire := rest } (decodeEvent J c.tunnel env)
    exact h.set hc c' hkind htunnel (fun hserving => hhandler ▸ hserving) hreg hconns
  | removeRunner i c hc hkind hat =>
    refine h.remove hc { c with handler := .returned } rfl rfl (fun x hx hreg => ?_)
      (fun k t ht => ht)
    cases hk : x.kind with
    | runner =>
      simp only [Server.registered, hk, decide_eq_true_eq] at hreg ⊢
      exact mem_removeRunner hreg hx
    | workspace =>
      simp only [Server.registered, hk, decide_eq_true_eq] at hreg ⊢
      exact hreg
  | removeWorkspace i c hc hkind hat =>
    refine h.remove hc { c with handler := .forgetPreflight } rfl rfl (fun x hx hreg => ?_)
      (fun k t ht => Registry.mem_of_mem_removeWorkspace ht)
    cases hk : x.kind with
    | runner =>
      simp only [Server.registered, hk, decide_eq_true_eq] at hreg ⊢
      exact hreg
    | workspace =>
      simp only [Server.registered, hk, decide_eq_true_eq] at hreg ⊢
      exact mem_removeWorkspace hreg hx
  | forgetPreflight i c hc hat =>
    exact h.set hc { c with handler := .forgetActivity } rfl rfl nofun rfl rfl
  | forgetActivity i c hc hat =>
    exact h.set hc { c with handler := .returned } rfl rfl nofun rfl rfl

/-! ## Frames that can be read -/

/-- The frame at the front of an event stream, if it is all there, is small enough, a control
frame and an envelope. -/
def readable (J : EventJson) (wire : GoString) : Bool :=
  match readFrame wire with
  | .short => true
  | .error _ => false
  | .frame f _ =>
      match J.readMsg f with
      | .error _ => false
      | .ok _ => true

/-- A turn of `drainEvents` finds a frame that can be read. -/
def eventReadable (J : EventJson) (s : Server) : Label → Bool
  | .drain i _ => (s.conns[i]?).all fun c => readable J c.wire
  | _ => true

/-- Reading what can be read fails only at the end of the session. -/
theorem closed_of_readEvent (hreadable : readable J c.wire = true)
    (hread : readEvent J c = .error) : c.closed = true := by
  unfold readable at hreadable
  unfold readEvent at hread
  split at hread
  · split at hread
    · assumption
    · cases hread
  · rename_i hframe
    rw [hframe] at hreadable
    cases hreadable
  · rename_i f rest hframe
    rw [hframe] at hreadable
    split at hread
    · rename_i hmsg
      simp only [hmsg] at hreadable
      cases hreadable
    · cases hread

/-- Past its loop a handler has seen the session end. -/
def Ended (s : Server) : Prop :=
  ∀ (i : Nat) (c : Conn), s.conns[i]? = some c →
    c.handler = .remove ∨ c.handler.serving = false → c.closed = true

theorem Ended.set (h : Ended s) (hc : s.conns[i]? = some c) (c' : Conn)
    (hend : (c.handler = .remove ∨ c.handler.serving = false → c.closed = true) →
      c'.handler = .remove ∨ c'.handler.serving = false → c'.closed = true)
    {s' : Server} (hconns : s'.conns = s.conns.set i c') : Ended s' := by
  intro j x hx
  rw [hconns] at hx
  rcases of_getElem?_set hx with ⟨rfl, rfl⟩ | ⟨-, hx⟩
  · exact hend (h j c hc)
  · exact h j x hx

theorem Ended.effect (h : Ended s) (heffect : Effect J s l s')
    (hreadable : eventReadable J s l = true) : Ended s' := by
  cases heffect with
  | register kind t hsess =>
    intro i c hc
    rcases of_getElem?_concat hc with hc | ⟨-, rfl⟩
    · exact h i c hc
    · rintro (hat | hserving)
      · cases hat
      · cases hserving
  | move i c c' hc hmoves hremove =>
    refine h.set hc c' (fun hold hat => ?_) rfl
    have hremoved : c'.handler = .remove → c'.closed = true := by
      intro hat
      rcases hremove hat with hat | hclosed | ⟨now, rfl, hread⟩
      · exact hmoves.closed (hold (.inl hat))
      · exact hclosed
      · rw [eventReadable, hc, Option.all_some] at hreadable
        exact hmoves.closed (closed_of_readEvent hreadable hread)
    rcases hat with hat | hserving
    · exact hremoved hat
    · rcases hmoves.serving with heq | ⟨-, hserving'⟩
      · exact hmoves.closed (hold (.inr (heq ▸ hserving)))
      · cases hserving'.symm.trans hserving
  | file i now c env rest hc hdrain hread =>
    obtain ⟨c', hconns, -, -, -, hhandler, -, -⟩ :=
      handleEvent_set s i now { c with wire := rest } (decodeEvent J c.tunnel env)
    refine h.set hc c' (fun _ hat => ?_) hconns
    rw [hhandler] at hat
    have hat : c.handler = .remove ∨ c.handler.serving = false := hat
    rw [hdrain] at hat
    rcases hat with hat | hat
    · cases hat
    · cases hat
  | removeRunner i c hc hkind hat =>
    exact h.set hc { c with handler := .returned } (fun hold _ => hold (.inl hat)) rfl
  | removeWorkspace i c hc hkind hat =>
    exact h.set hc { c with handler := .forgetPreflight } (fun hold _ => hold (.inl hat)) rfl
  | forgetPreflight i c hc hat =>
    refine h.set hc { c with handler := .forgetActivity } (fun hold _ => hold (.inr ?_)) rfl
    rw [hat]
    rfl
  | forgetActivity i c hc hat =>
    refine h.set hc { c with handler := .returned } (fun hold _ => hold (.inr ?_)) rfl
    rw [hat]
    rfl

theorem wired_run {cond : Server → Label → Bool}
    (h : ((tunnels J).restrict fun s l => cond s l = true).Run .new tr s) : Wired s :=
  h.invariant (I := Wired)
    (fun _ _ _ hs hstep => hs.effect (step_effect (Lts.restrict_step hstep).2)) wired_new

theorem ended_run (h : ((tunnels J).restrict fun s l => eventReadable J s l = true).Run .new tr s) :
    Ended s := by
  refine h.invariant (I := Ended) (fun s l s' hs hstep => ?_) (fun i c hc => by cases hc)
  obtain ⟨hreadable, hstep⟩ := Lts.restrict_step hstep
  exact hs.effect (step_effect hstep) hreadable

/-- As long as every frame on the event streams can be read: the session of a tunnel that has
left the registry is closed, and its agent has left `connectAndServe` or is about to. -/
theorem removed_tunnel_closed {tr : List Label}
    (h : ((tunnels J).restrict fun s l => eventReadable J s l = true).Run .new tr s)
    {i : Nat} {c : Conn} (hc : s.conns[i]? = some c) (hgone : s.registered c = false) :
    c.closed = true ∧
      (c.agent = .returned ∨ ∃ s', (tunnels J).step s (.agentReturns i) = some s') := by
  have hserving : c.handler.serving = false := by
    by_contra hserving
    have hlisted := (wired_run h).listed i c hc (Bool.of_not_eq_false hserving)
    cases hgone.symm.trans hlisted
  have hclosed := ended_run h i c hc (.inr hserving)
  refine ⟨hclosed, ?_⟩
  by_cases hagent : c.agent = .returned
  · exact .inl hagent
  · right
    simp [tunnels, Server.update, hc, hclosed, hagent]

/-! ## A frame that cannot be read -/

/-- A workspace task dials in and opens its event stream. -/
def dialIn : List Label :=
  [.workspaceUp "acme" "api", .openEvents 0, .accept 0]

/-- The session ends, and the handler with it. -/
def hangUp : List Label :=
  dialIn ++ ([.sessionCloses 0, .drain 0 5, .remove 0, .forgetPreflight 0, .forgetActivity 0] :
    List Label)

def afterHangUp : Server :=
  (((tunnels Attach.wireEvents).restrict fun s l =>
    eventReadable Attach.wireEvents s l = true).exec .new hangUp).get (by decide +kernel)

/-- The one tunnel of that run. -/
def hungUp : Conn := afterHangUp.conns.get ⟨0, by decide +kernel⟩

theorem removed_tunnel_closed_hangUp :
    afterHangUp.registered hungUp = false ∧ hungUp.closed = true ∧
      (hungUp.agent = .returned ∨
        ∃ s', (tunnels Attach.wireEvents).step afterHangUp (.agentReturns 0) = some s') := by
  have hc : afterHangUp.conns[0]? = some hungUp := getElem?_eq_getElem _
  have hgone : afterHangUp.registered hungUp = false := by decide +kernel
  exact ⟨hgone, removed_tunnel_closed (Lts.exec_run (some_get _).symm) hc hgone⟩

/-- The task sends a data frame on its event stream: `ReadMsg` wants a control frame. -/
def wrongFrame : List Label :=
  dialIn ++ ([.arrive 0 [0, 0, 0, 0, 0], .drain 0 5, .remove 0, .forgetPreflight 0,
     .forgetActivity 0] : List Label)

def afterWrongFrame : Server :=
  ((tunnels Attach.wireEvents).exec .new wrongFrame).get (by decide +kernel)

/-- The one tunnel of that run. -/
def leftOpen : Conn := afterWrongFrame.conns.get ⟨0, by decide +kernel⟩

/-- The handler has returned and the tunnel is not registered. The session is open, and the
agent is in its accept loop and cannot leave it. -/
theorem removed_tunnel_open :
    (tunnels Attach.wireEvents).Run .new wrongFrame afterWrongFrame ∧
      afterWrongFrame.conns[0]? = some leftOpen ∧ leftOpen.handler = .returned ∧
      afterWrongFrame.registered leftOpen = false ∧ leftOpen.closed = false ∧
      leftOpen.agent = .serve ∧
      ((tunnels Attach.wireEvents).step afterWrongFrame (.agentReturns 0)).isNone = true :=
  ⟨Lts.exec_run (some_get _).symm, getElem?_eq_getElem _, by decide +kernel,
    by decide +kernel, by decide +kernel, by decide +kernel, by decide +kernel⟩

/-! ## What is picked -/

/-- In every run `PickWorkspace` finds a tunnel that was admitted for the very workspace, and it
finds one as long as a handler serves a tunnel of the workspace. -/
theorem picked_tunnel_own {tr : List Label} (h : (tunnels J).Run .new tr s) (k : WsKey) :
    (∀ t, s.reg.pickWorkspace k = some t → ∃ c ∈ s.conns, c.tunnel = t ∧ t.key = k) ∧
      ∀ c ∈ s.conns, c.kind = .workspace → c.tunnel.key = k → c.handler.serving = true →
        s.reg.pickWorkspace k ≠ none := by
  have hwired : Wired s := h.invariant (fun _ _ _ hs hstep => hs.effect (step_effect hstep))
    wired_new
  refine ⟨fun t ht => ?_, fun c hc hkind hkey hserving hnone => ?_⟩
  · obtain ⟨c, hc, htunnel, hkey⟩ := hwired.known k t (Registry.mem_of_pickWorkspace ht)
    exact ⟨c, mem_of_getElem? hc, htunnel, hkey⟩
  · obtain ⟨i, hi⟩ := mem_iff_getElem?.mp hc
    have hlisted := hwired.listed i c hi hserving
    simp only [Server.registered, hkind, hkey, getLast?_eq_none_iff.mp hnone] at hlisted
    cases hlisted

theorem picked_tunnel_own_dialIn : ∃ s, (tunnels Attach.wireEvents).Run .new dialIn s ∧
    s.reg.pickWorkspace ⟨"acme", "api"⟩ ≠ none := by
  have hrun : (tunnels Attach.wireEvents).Run .new dialIn
      (((tunnels Attach.wireEvents).exec .new dialIn).get (by decide)) :=
    Lts.exec_run (some_get _).symm
  exact ⟨_, hrun,
    (picked_tunnel_own hrun _).2 _ (getElem_mem (n := 0) (by decide)) rfl rfl rfl⟩

end Lemul.MgmtApi.TunnelServer
