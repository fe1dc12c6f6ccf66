import Lemul.MgmtApi.Proofs.TunnelClosing

/-!
# What is remembered of a workspace

A verdict and a report are held under the workspace's name, and the handler of every tunnel of
that name drops them when it ends. If only the newest registered tunnel of a workspace reports,
and nothing is dropped while a registered tunnel has reported, what is held is the last word of
the newest tunnel (`newest_tunnel_remembered`). A replaced tunnel that ends late drops the
verdict of its replacement, and a session that was to be refused is admitted
(`verdict_forgotten`).

The two stores are alike: `Remembers` is about either, with what a tunnel said last, what is
held, and which handlers have removed their tunnel and still owe the store its `forget`.
-/

namespace Lemul.MgmtApi.TunnelServer

open Function List Option

variable {J : EventJson} {s s' : Server} {l : Label}

/-- A handler that is to call `preflights.forget`. -/
def owesPreflight : HandlerPc → Bool
  | .forgetPreflight => true
  | _ => false

/-- A handler that is to call `activity.forget`. -/
def owesActivity : HandlerPc → Bool
  | .forgetPreflight | .forgetActivity => true
  | _ => false

section Store

variable {α : Type} {owes : HandlerPc → Bool} {said : Conn → Option α} {held : WsKey → Option α}

/-- No handler of a tunnel of `k` owes a `forget`. -/
def Settled (s : Server) (owes : HandlerPc → Bool) (k : WsKey) : Prop :=
  ∀ (i : Nat) (c : Conn), s.conns[i]? = some c → c.tunnel.key = k → owes c.handler = false

/-- What is held for `k` is what its newest tunnel said last, if it said anything; without a
tunnel, nothing is. -/
structure LastWord (s : Server) (said : Conn → Option α) (held : WsKey → Option α) (k : WsKey) :
    Prop where
  gone : s.reg.pickWorkspace k = none → held k = none
  newest : ∀ t, s.reg.pickWorkspace k = some t → ∀ c, s.conns[t.sess]? = some c →
    said c ≠ none → held k = said c

/-- Where no `forget` is owed, what is held is the last word of the newest tunnel. -/
def Remembers (s : Server) (owes : HandlerPc → Bool) (said : Conn → Option α)
    (held : WsKey → Option α) : Prop :=
  ∀ k, Settled s owes k → LastWord s said held k

variable {i : Nat} {c : Conn} {k : WsKey}

theorem Settled.of_set {c' : Conn} (hc : s.conns[i]? = some c) (htunnel : c'.tunnel = c.tunnel)
    (howes : c.tunnel.key = k → owes c'.handler = false → owes c.handler = false)
    (hconns : s'.conns = s.conns.set i c') (h : Settled s' owes k) : Settled s owes k := by
  intro j x hx hkey
  by_cases hj : j = i
  · subst hj
    cases hc.symm.trans hx
    refine howes hkey (h j c' ?_ (htunnel ▸ hkey))
    rw [hconns]
    exact getElem?_set_same hc c'
  · refine h j x ?_ hkey
    rw [hconns, getElem?_set_ne (Ne.symm hj), hx]

theorem LastWord.of_set {c' : Conn} (hc : s.conns[i]? = some c) (hsaid : said c' = said c)
    (hreg : s'.reg.workspaces k = s.reg.workspaces k)
    (hconns : s'.conns = s.conns.set i c') (h : LastWord s said held k) :
    LastWord s' said held k := by
  have hpick : s'.reg.pickWorkspace k = s.reg.pickWorkspace k := by
    simp only [Registry.pickWorkspace, hreg]
  refine ⟨fun hnone => h.gone (hpick ▸ hnone), fun t hsome x hx hne => ?_⟩
  rw [hpick] at hsome
  rw [hconns] at hx
  rcases of_getElem?_set hx with ⟨heq, rfl⟩ | ⟨-, hx⟩
  · rw [hsaid] at hne ⊢
    exact h.newest t hsome c (heq ▸ hc) hne
  · exact h.newest t hsome x hx hne

theorem LastWord.update_of_ne {k' : WsKey} {v : Option α} (hk : k ≠ k') :
    LastWord s said (update held k' v) k ↔ LastWord s said held k := by
  constructor
  · rintro ⟨hgone, hnewest⟩
    rw [Function.update_of_ne hk] at hgone hnewest
    exact ⟨hgone, hnewest⟩
  · rintro ⟨hgone, hnewest⟩
    refine ⟨?_, ?_⟩
    · rw [Function.update_of_ne hk]
      exact hgone
    · rw [Function.update_of_ne hk]
      exact hnewest

/-- A tunnel changes, and says nothing new. -/
theorem Remembers.set (h : Remembers s owes said held) (hc : s.conns[i]? = some c) (c' : Conn)
    (htunnel : c'.tunnel = c.tunnel)
    (hsaid : said c' = said c) (howes : owes c'.handler = owes c.handler)
    (hreg : s'.reg.workspaces = s.reg.workspaces) (hconns : s'.conns = s.conns.set i c') :
    Remembers s' owes said held := by
  intro k hsettled
  have hold := h k (hsettled.of_set hc htunnel (fun _ hnone => howes ▸ hnone) hconns)
  exact hold.of_set hc hsaid (congrFun hreg k) hconns

/-- The newest tunnel of a workspace says something, and it is filed under the workspace. -/
theorem Remembers.file (h : Remembers s owes said held) (hwired : Wired s)
    (hc : s.conns[i]? = some c) (c' : Conn) (htunnel : c'.tunnel = c.tunnel)
    (howes : owes c'.handler = owes c.handler) {v : α} (hsaid : said c' = some v)
    (hnewest : s.reg.pickWorkspace c.tunnel.key = some c.tunnel)
    (hreg : s'.reg.workspaces = s.reg.workspaces) (hconns : s'.conns = s.conns.set i c') :
    Remembers s' owes said (update held c.tunnel.key (some v)) := by
  intro k hsettled
  have hold := h k (hsettled.of_set hc htunnel (fun _ hnone => howes ▸ hnone) hconns)
  have hpick : s'.reg.pickWorkspace k = s.reg.pickWorkspace k := by
    simp only [Registry.pickWorkspace, hreg]
  by_cases hk : k = c.tunnel.key
  · subst hk
    rw [hnewest] at hpick
    refine ⟨fun hnone => ?_, fun t hsome x hx _ => ?_⟩
    · cases hpick.symm.trans hnone
    · cases hpick.symm.trans hsome
      rw [hconns, hwired.sess i c hc, getElem?_set_same hc c'] at hx
      cases hx
      rw [update_self, hsaid]
  · rw [LastWord.update_of_ne hk]
    refine ⟨fun hnone => hold.gone (hpick ▸ hnone), fun t hsome x hx hne => ?_⟩
    rw [hpick] at hsome
    rw [hconns] at hx
    rcases of_getElem?_set hx with ⟨hi, -⟩ | ⟨-, hx⟩
    · -- the newest tunnel of another workspace is not this one
      obtain ⟨y, hy, hyt, hkey⟩ := hwired.known k t (Registry.mem_of_pickWorkspace hsome)
      rw [hi, hc] at hy
      cases hy
      rw [← hyt] at hkey
      exact absurd hkey.symm hk
    · exact hold.newest t hsome x hx hne

/-- A handler removes its tunnel, and owes the `forget` from then on. -/
theorem Remembers.remove (h : Remembers s owes said held) (hc : s.conns[i]? = some c) (c' : Conn)
    (htunnel : c'.tunnel = c.tunnel)
    (hsaid : said c' = said c) (howes : owes c'.handler = true)
    (hreg : ∀ k, k ≠ c.tunnel.key → s'.reg.workspaces k = s.reg.workspaces k)
    (hconns : s'.conns = s.conns.set i c') : Remembers s' owes said held := by
  intro k hsettled
  by_cases hk : k = c.tunnel.key
  · have hnone := hsettled i c' (by rw [hconns]; exact getElem?_set_same hc c') (htunnel ▸ hk.symm)
    cases howes.symm.trans hnone
  · have hold := h k (hsettled.of_set hc htunnel (fun hkey _ => absurd hkey.symm hk) hconns)
    exact hold.of_set hc hsaid (hreg k hk) hconns

/-- What is held for a workspace is dropped, while no registered tunnel of it has said
anything. -/
theorem Remembers.forget (h : Remembers s owes said held) (hc : s.conns[i]? = some c) (c' : Conn)
    (htunnel : c'.tunnel = c.tunnel)
    (hsaid : said c' = said c)
    (hsilent : ∀ t ∈ s.reg.workspaces c.tunnel.key, ∀ x, s.conns[t.sess]? = some x →
      said x = none)
    (hreg : s'.reg.workspaces = s.reg.workspaces) (hconns : s'.conns = s.conns.set i c') :
    Remembers s' owes said (update held c.tunnel.key none) := by
  intro k hsettled
  by_cases hk : k = c.tunnel.key
  · subst hk
    refine ⟨fun _ => update_self .., fun t hsome x hx hne => ?_⟩
    simp only [Registry.pickWorkspace, hreg] at hsome
    rw [hconns] at hx
    have hmem := mem_of_getLast? hsome
    exfalso
    rcases of_getElem?_set hx with ⟨hi, rfl⟩ | ⟨-, hx⟩
    · exact hne (hsaid.trans (hsilent t hmem c (hi ▸ hc)))
    · exact hne (hsilent t hmem x hx)
  · have hold := h k (hsettled.of_set hc htunnel (fun hkey _ => absurd hkey.symm hk) hconns)
    rw [LastWord.update_of_ne hk]
    exact hold.of_set hc hsaid (congrFun hreg k) hconns

/-- A new tunnel has not said anything. -/
theorem Remembers.register (h : Remembers s owes said held) (hwired : Wired s) (kind : Kind)
    {t : Tunnel} (hsess : t.sess = s.conns.length)
    (hnothing : said ⟨kind, t, .accept, .open, false, false, [], none, none⟩ = none) :
    Remembers (s.register kind t) owes said held := by
  intro k hsettled
  have hold := h k (fun i c hc hkey => hsettled i c (getElem?_concat_old hc _) hkey)
  -- where the registry is as it was, so is the newest tunnel and what it said
  have hsame : (s.register kind t).reg.workspaces k = s.reg.workspaces k →
      LastWord (s.register kind t) said held k := by
    intro hreg
    have hpick : (s.register kind t).reg.pickWorkspace k = s.reg.pickWorkspace k := by
      simp only [Registry.pickWorkspace, hreg]
    refine ⟨fun hnone => hold.gone (hpick ▸ hnone), fun x hsome c hc hne => ?_⟩
    rw [hpick] at hsome
    obtain ⟨y, hy, -, -⟩ := hwired.known k x (Registry.mem_of_pickWorkspace hsome)
    have hy' : (s.register kind t).conns[x.sess]? = some y := getElem?_concat_old hy _
    cases hc.symm.trans hy'
    exact hold.newest x hsome c hy hne
  cases kind with
  | runner => exact hsame rfl
  | workspace =>
    by_cases hk : k = t.key
    · subst hk
      have hpick : (s.register .workspace t).reg.pickWorkspace t.key = some t := by
        simp [Registry.pickWorkspace, Server.register, Registry.addWorkspace]
      have hconn : (s.register .workspace t).conns[t.sess]? =
          some ⟨.workspace, t, .accept, .open, false, false, [], none, none⟩ := by
        rw [hsess]
        exact getElem?_concat_length
      refine ⟨fun hnone => ?_, fun x hsome c hc hne => ?_⟩
      · cases hpick.symm.trans hnone
      · cases hpick.symm.trans hsome
        cases hconn.symm.trans hc
        exact absurd hnothing hne
    · refine hsame ?_
      simp [Server.register, Registry.addWorkspace, hk]

end Store

/-! ## The last word of the newest tunnel -/

/-- The report names the workspace of the tunnel it came on, which is the newest one that is
registered for it. -/
def fromNewest (s : Server) (c : Conn) (workspaceID : GoString) : Bool :=
  workspaceID = c.tunnel.workspaceName && s.reg.pickWorkspace c.tunnel.key = some c.tunnel

/-- No registered tunnel of `k` has said anything. -/
def allSilent {α : Type} (s : Server) (said : Conn → Option α) (k : WsKey) : Bool :=
  (s.reg.workspaces k).all fun t => (s.conns[t.sess]?).all fun c => (said c).isNone

/-- Verdicts and reports are received on the newest tunnel and are about its workspace; a
handler forgets only what no registered tunnel of the workspace has said. -/
def oneAtATime (J : EventJson) (s : Server) : Label → Bool
  | .drain i _ => (s.conns[i]?).all fun c =>
      match readEvent J c with
      | .message env _ =>
          match decodeEvent J c.tunnel env with
          | some (.headroom h) => fromNewest s c h.workspaceID
          | some (.preflight rep) => fromNewest s c rep.workspaceID
          | _ => true
      | _ => true
  | .forgetPreflight i => (s.conns[i]?).all fun c => allSilent s (·.verdict) c.tunnel.key
  | .forgetActivity i => (s.conns[i]?).all fun c => allSilent s (·.report) c.tunnel.key
  | _ => true

theorem allSilent_iff {α : Type} {said : Conn → Option α} {k : WsKey} :
    allSilent s said k = true ↔
      ∀ t ∈ s.reg.workspaces k, ∀ x, s.conns[t.sess]? = some x → said x = none := by
  simp only [allSilent, List.all_eq_true, Option.all_eq_true, Option.isNone_iff_eq_none]

theorem fromNewest_iff {c : Conn} {workspaceID : GoString} :
    fromNewest s c workspaceID = true ↔
      workspaceID = c.tunnel.workspaceName ∧
        s.reg.pickWorkspace c.tunnel.key = some c.tunnel := by
  simp [fromNewest]

/-- Both stores hold the last word of the newest tunnels. -/
structure Current (s : Server) : Prop where
  wired : Wired s
  verdicts : Remembers s owesPreflight (·.verdict) s.preflights
  reports : Remembers s owesActivity (·.report) s.activity

theorem current_new : Current .new where
  wired := wired_new
  verdicts _ _ := ⟨fun _ => rfl, nofun⟩
  reports _ _ := ⟨fun _ => rfl, nofun⟩

theorem owes_of_moves {owes : HandlerPc → Bool}
    (howes : ∀ pc : HandlerPc, pc.serving = true → owes pc = false) {c c' : Conn}
    (h : Moves c c') : owes c'.handler = owes c.handler := by
  rcases h.serving with heq | ⟨hold, hnew⟩
  · rw [heq]
  · rw [howes _ hold, howes _ hnew]

theorem owesPreflight_serving : ∀ pc : HandlerPc, pc.serving = true → owesPreflight pc = false := by
  intro pc
  cases pc <;> decide

theorem owesActivity_serving : ∀ pc : HandlerPc, pc.serving = true → owesActivity pc = false := by
  intro pc
  cases pc <;> decide

/-- An event is filed: one store holds it, and the other is as it was. -/
theorem Current.file (h : Current s) {i now : Nat} {c : Conn} (hc : s.conns[i]? = some c)
    (rest : GoString) {ev : Option Event}
    (hnewest : ∀ e, ev = some e → match e with
      | .headroom m => fromNewest s c m.workspaceID = true
      | .preflight rep => fromNewest s c rep.workspaceID = true
      | .sessionExited _ => True)
    (hwired : Wired (handleEvent s i { c with wire := rest } now ev)) :
    Current (handleEvent s i { c with wire := rest } now ev) := by
  match ev with
  | none =>
    exact ⟨hwired, h.verdicts.set hc { c with wire := rest } rfl rfl rfl rfl rfl,
      h.reports.set hc { c with wire := rest } rfl rfl rfl rfl rfl⟩
  | some (.sessionExited _) =>
    exact ⟨hwired, h.verdicts.set hc { c with wire := rest } rfl rfl rfl rfl rfl,
      h.reports.set hc { c with wire := rest } rfl rfl rfl rfl rfl⟩
  | some (.headroom m) =>
    obtain ⟨hown, hfirst⟩ := fromNewest_iff.mp (hnewest _ rfl)
    have hkey : (⟨c.tunnel.tenantID, m.workspaceID⟩ : WsKey) = c.tunnel.key := by
      rw [hown]
      rfl
    refine ⟨hwired,
      h.verdicts.set hc { c with wire := rest, report := some ⟨m, now⟩ } rfl rfl rfl rfl rfl, ?_⟩
    have hfiled : Remembers (handleEvent s i { c with wire := rest } now (some (.headroom m)))
        owesActivity (·.report) (update s.activity c.tunnel.key (some ⟨m, now⟩)) :=
      h.reports.file h.wired hc { c with wire := rest, report := some ⟨m, now⟩ } rfl rfl rfl hfirst
        rfl rfl
    rw [← hkey] at hfiled
    exact hfiled
  | some (.preflight rep) =>
    obtain ⟨hown, hfirst⟩ := fromNewest_iff.mp (hnewest _ rfl)
    have hkey : (⟨c.tunnel.tenantID, rep.workspaceID⟩ : WsKey) = c.tunnel.key := by
      rw [hown]
      rfl
    refine ⟨hwired, ?_,
      h.reports.set hc { c with wire := rest, verdict := some rep } rfl rfl rfl rfl rfl⟩
    have hfiled : Remembers (handleEvent s i { c with wire := rest } now (some (.preflight rep)))
        owesPreflight (·.verdict) (update s.preflights c.tunnel.key (some rep)) :=
      h.verdicts.file h.wired hc { c with wire := rest, verdict := some rep } rfl rfl rfl hfirst
        rfl rfl
    rw [← hkey] at hfiled
    exact hfiled

theorem Current.effect (h : Current s) (heffect : Effect J s l s')
    (hcond : oneAtATime J s l = true) : Current s' := by
  have hwired := h.wired.effect heffect
  cases heffect with
  | register kind t hsess =>
    exact ⟨hwired, h.verdicts.register h.wired kind hsess rfl,
      h.reports.register h.wired kind hsess rfl⟩
  | move i c c' hc hmoves hremove =>
    exact ⟨hwired,
      h.verdicts.set hc c' hmoves.tunnel hmoves.verdict
        (owes_of_moves owesPreflight_serving hmoves) rfl rfl,
      h.reports.set hc c' hmoves.tunnel hmoves.report
        (owes_of_moves owesActivity_serving hmoves) rfl rfl⟩
  | file i now c env rest hc hdrain hread =>
    refine h.file hc rest ?_ hwired
    intro e he
    rw [oneAtATime, hc, all_some, hread] at hcond
    simp only [he] at hcond
    cases e with
    | headroom m | preflight rep => exact hcond
    | sessionExited e => trivial
  | removeRunner i c hc hkind hat =>
    have hpre : owesPreflight HandlerPc.returned = owesPreflight c.handler := by rw [hat]; rfl
    have hact : owesActivity HandlerPc.returned = owesActivity c.handler := by rw [hat]; rfl
    exact ⟨hwired,
      h.verdicts.set hc { c with handler := .returned } rfl rfl hpre rfl rfl,
      h.reports.set hc { c with handler := .returned } rfl rfl hact rfl rfl⟩
  | removeWorkspace i c hc hkind hat =>
    have hreg : ∀ k, k ≠ c.tunnel.key →
        (s.reg.removeWorkspace c.tunnel).workspaces k = s.reg.workspaces k := by
      intro k hk
      simp [Registry.removeWorkspace, hk]
    exact ⟨hwired,
      h.verdicts.remove hc { c with handler := .forgetPreflight } rfl rfl rfl hreg rfl,
      h.reports.remove hc { c with handler := .forgetPreflight } rfl rfl rfl hreg rfl⟩
  | forgetPreflight i c hc hat =>
    rw [oneAtATime, hc, all_some] at hcond
    have hact : owesActivity HandlerPc.forgetActivity = owesActivity c.handler := by rw [hat]; rfl
    exact ⟨hwired,
      h.verdicts.forget hc { c with handler := .forgetActivity } rfl rfl
        (allSilent_iff.mp hcond) rfl rfl,
      h.reports.set hc { c with handler := .forgetActivity } rfl rfl hact rfl rfl⟩
  | forgetActivity i c hc hat =>
    rw [oneAtATime, hc, all_some] at hcond
    have hpre : owesPreflight HandlerPc.returned = owesPreflight c.handler := by rw [hat]; rfl
    exact ⟨hwired,
      h.verdicts.set hc { c with handler := .returned } rfl rfl hpre rfl rfl,
      h.reports.forget hc { c with handler := .returned } rfl rfl
        (allSilent_iff.mp hcond) rfl rfl⟩

theorem current_run {tr : List Label}
    (h : ((tunnels J).restrict fun s l => oneAtATime J s l = true).Run .new tr s) :
    Current s := by
  refine h.invariant (I := Current) (fun s l s' hs hstep => ?_) current_new
  obtain ⟨hcond, hstep⟩ := Lts.restrict_step hstep
  exact hs.effect (step_effect hstep) hcond

/-- What is held for a workspace: nothing if it has no tunnel, and otherwise the last verdict
and the last report that came on its newest one, if any did. -/
structure NewestRemembered (s : Server) (k : WsKey) : Prop where
  gone : s.reg.pickWorkspace k = none → s.preflights k = none ∧ s.activity k = none
  newest : ∀ t, s.reg.pickWorkspace k = some t → ∃ c, s.conns[t.sess]? = some c ∧ c.tunnel = t ∧
    (c.verdict ≠ none → s.preflights k = c.verdict) ∧ (c.report ≠ none → s.activity k = c.report)

/-- In every run in which a workspace's reports come on its newest tunnel and nothing is
forgotten that a registered tunnel has said: outside the deferred calls of the handlers of `k`,
what is held for `k` is the last word of its newest tunnel. -/
theorem newest_tunnel_remembered {tr : List Label}
    (h : ((tunnels J).restrict fun s l => oneAtATime J s l = true).Run .new tr s) {k : WsKey}
    (hdone : ∀ c ∈ s.conns, c.tunnel.key = k →
      c.handler ≠ .forgetPreflight ∧ c.handler ≠ .forgetActivity) :
    NewestRemembered s k := by
  have hcurrent := current_run h
  have hverdicts : LastWord s (·.verdict) s.preflights k := by
    refine hcurrent.verdicts k fun i c hc hkey => ?_
    obtain ⟨hpre, -⟩ := hdone c (mem_of_getElem? hc) hkey
    cases hat : c.handler with
    | forgetPreflight => exact absurd hat hpre
    | _ => rfl
  have hreports : LastWord s (·.report) s.activity k := by
    refine hcurrent.reports k fun i c hc hkey => ?_
    obtain ⟨hpre, hact⟩ := hdone c (mem_of_getElem? hc) hkey
    cases hat : c.handler with
    | forgetPreflight => exact absurd hat hpre
    | forgetActivity => exact absurd hat hact
    | _ => rfl
  refine ⟨fun hnone => ⟨hverdicts.gone hnone, hreports.gone hnone⟩, fun t hsome => ?_⟩
  obtain ⟨c, hc, htunnel, -⟩ := hcurrent.wired.known k t (Registry.mem_of_pickWorkspace hsome)
  exact ⟨c, hc, htunnel, hverdicts.newest t hsome c hc, hreports.newest t hsome c hc⟩

/-! ## A replacement -/

/-- A model that cannot be invoked. -/
def noAccess : PreflightModel :=
  ⟨"default", "claude", true, "denied", false, "AccessDenied", [],
    "Request model access."⟩

/-- A verdict that is to keep sessions out. -/
def blockingVerdict : PreflightReport :=
  ⟨"api", "eu-west-1", "now", false, true, [noAccess]⟩

/-- The bytes of its frame. -/
def verdictBytes : GoString :=
  match Attach.wireEvents.writeEvent (.preflight blockingVerdict) with
  | .ok buffers => buffers.flatten
  | .error _ => []

/-- A task dials in on session `i` and says that its models cannot be used. -/
def dialAndReport (i : Nat) : List Label :=
  [.workspaceUp "acme" "api", .openEvents i, .accept i, .arrive i verdictBytes,
    .drain i 5]

/-- The session ends, and its handler returns. -/
def goAway (i : Nat) : List Label :=
  [.sessionCloses i, .drain i 6, .remove i, .forgetPreflight i, .forgetActivity i]

/-- The old tunnel has ended before the new one reports. -/
def replacedInOrder : List Label := dialAndReport 0 ++ goAway 0 ++ dialAndReport 1

def afterReplacedInOrder : Server :=
  (((tunnels Attach.wireEvents).restrict fun s l =>
    oneAtATime Attach.wireEvents s l = true).exec .new replacedInOrder).get (by decide +kernel)

/-- The workspace of these runs. -/
def apiKey : WsKey := ⟨"acme", "api"⟩

theorem newest_tunnel_remembered_replaced :
    (afterReplacedInOrder.reg.pickWorkspace apiKey).map (·.sess) = some 1 ∧
      NewestRemembered afterReplacedInOrder apiKey := by
  have hrun : ((tunnels Attach.wireEvents).restrict fun s l =>
      oneAtATime Attach.wireEvents s l = true).Run .new replacedInOrder afterReplacedInOrder :=
    Lts.exec_run (some_get _).symm
  have hdone : ∀ c ∈ afterReplacedInOrder.conns, c.tunnel.key = apiKey →
      c.handler ≠ .forgetPreflight ∧ c.handler ≠ .forgetActivity := by
    decide +kernel
  exact ⟨by decide +kernel, newest_tunnel_remembered hrun hdone⟩

/-- The old tunnel is noticed to be dead only after its replacement has reported. -/
def replacedLate : List Label :=
  ([.workspaceUp "acme" "api", .openEvents 0, .accept 0] : List Label) ++
    dialAndReport 1 ++ goAway 0

def afterReplacedLate : Server :=
  ((tunnels Attach.wireEvents).exec .new replacedLate).get (by decide +kernel)

/-- The tunnel of the replacement. -/
def replacement : Conn := afterReplacedLate.conns.get ⟨1, by decide +kernel⟩

/-- The newest tunnel is registered and has sent a verdict that keeps sessions out. No handler
is in its deferred calls, no verdict is held, and `checkPreflight` admits the session. -/
theorem verdict_forgotten :
    (tunnels Attach.wireEvents).Run .new replacedLate afterReplacedLate ∧
      afterReplacedLate.reg.pickWorkspace apiKey = some replacement.tunnel ∧
      afterReplacedLate.conns[replacement.tunnel.sess]? = some replacement ∧
      (∀ c ∈ afterReplacedLate.conns,
        c.handler ≠ .forgetPreflight ∧ c.handler ≠ .forgetActivity) ∧
      replacement.verdict = some blockingVerdict ∧
      afterReplacedLate.preflights apiKey = none ∧
      checkPreflight replacement.verdict ≠ .ok () ∧
      checkPreflight (afterReplacedLate.preflights apiKey) = .ok () :=
  ⟨Lts.exec_run (some_get _).symm, by decide +kernel, by decide +kernel,
    by decide +kernel, by decide +kernel, by decide +kernel, by decide +kernel,
    by decide +kernel⟩

end Lemul.MgmtApi.TunnelServer
