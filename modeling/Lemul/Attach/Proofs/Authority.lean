import Lemul.Attach.Codec
import Lemul.Attach.Proofs.Transparency
import Lemul.Attach.Service
import Lemul.MgmtApi.Proofs.AttachAuthority

/-!
# Who types

The mode of an attach is decided in the Management API, signed, decoded by the relay and
enforced in the supervisor. A token that is redeemed was minted (`redeemed_minted`); the
attachment is to the session of the claims and read-only where they say so (`Bound`); so
whatever reaches a PTY was typed by the bearer of a credential that was minted for the user
on the session's record.
-/

namespace Lemul.Attach

open List Option Lemul.System

open MgmtApi (Config)
open MgmtApi.Access (Ledger Minted Encodable)
open Creds (AttachClaims Signer domainAttach encodeAttach decodeAttach)
open Store (Workspace Workspaces)

/-! ## A token that is accepted was minted -/

/-- What the key is used for besides attach credentials is never taken for one. -/
theorem derived_ne_attach (d : Derived) (payload : GoString) :
    d.message ≠ Signer.attachMessage payload := by
  intro heq
  cases d with
  | workspace tenantID name generation | runner tenantID =>
    exact absurd (append_separator_inj (by decide) (by decide) heq).1 (by decide)

theorem attachMessage_inj {a b : GoString} (ha : FitsInt a) (hb : FitsInt b)
    (h : Signer.attachMessage a = Signer.attachMessage b) : a = b := by
  have hfields := (Signer.macInput_inj (by decide) (by decide)
    (forall_mem_singleton.mpr (Signer.length_lt_of_fitsInt ha))
    (forall_mem_singleton.mpr (Signer.length_lt_of_fitsInt hb)) h).2
  exact (cons.inj hfields).1

variable {signer : Signer} {minted : List Minted} {derived : List Derived} {tok : GoString}
  {now later : Int} {claims : AttachClaims} {p : Presented} {seen : UsedAttachNonces}

/-- A token that nobody forged and that is accepted is one that was minted, and what it
says is what was minted into it. -/
theorem verified_minted (hencodable : ∀ m ∈ minted, Encodable m.claims)
    (hunforged : unforged signer ((minted.map fun m => Signer.attachMessage (encodeAttach m.claims))
      ++ derived.map Derived.message) tok = true)
    (h : signer.verifyAttach now tok = .ok claims) :
    ∃ m ∈ minted, m.claims.truncated = claims := by
  obtain ⟨rawPayload, rawMAC, payload, hcut, hpayload, hmac, hdecode, -⟩ :=
    Signer.verifyAttach_ok h
  simp only [unforged, hcut, hpayload, hmac, ne_eq, not_true, decide_false, Bool.false_or,
    Bool.and_eq_true, decide_eq_true_eq, contains_iff_mem] at hunforged
  obtain ⟨hfits, hsigned⟩ := hunforged
  rcases mem_append.mp hsigned with hattach | hother
  · obtain ⟨m, hm, hmessage⟩ := mem_map.mp hattach
    obtain ⟨hrepresentable, hencoded⟩ := hencodable m hm
    have hpayload := attachMessage_inj hencoded hfits hmessage
    rw [← hpayload, Creds.decodeAttach_encodeAttach hrepresentable] at hdecode
    exact ⟨m, hm, Except.ok.inj hdecode⟩
  · obtain ⟨d, -, hmessage⟩ := mem_map.mp hother
    exact absurd hmessage (derived_ne_attach d payload)

theorem redeemAttach_some (h : (redeemAttach signer seen tok now later).1 = some claims) :
    signer.verifyAttach now tok = .ok claims := by
  unfold redeemAttach at h
  split at h
  · cases h
  · rename_i c hverify
    dsimp only at h
    split at h
    · rw [hverify, Option.some.inj h]
    · cases h

/-- An attach begins with a credential for the session it is to. -/
theorem handleAttach_some {live : Bool} {a : Attaching}
    (h : a ∈ (handleAttach signer seen p now later live).1.toList) :
    signer.verifyAttach now p.token = .ok a.claims ∧ a.claims.sessionID = p.sid ∧
      a.join = .new (attachRequest a.claims p.sid p.rows p.cols) := by
  rw [mem_toList] at h
  simp only [handleAttach] at h
  split at h
  · cases h
  · rename_i claims hredeemed
    split at h <;> cases h
    rename_i hsid
    exact ⟨redeemAttach_some hredeemed, hsid.1, rfl⟩

/-! ## The attachment is what the claims say -/

/-- A request of which `encoding/json` keeps every string. -/
structure Plain (req : Attach) : Prop where
  sessionID : isASCII req.sessionID = true
  mode : isASCII req.mode = true
  term : isASCII req.term = true

/-- The attachment is the one that was asked for, and there is one if something was
written. -/
structure Bound (s : Join) : Prop where
  att : ∀ x, s.att = some x → x = ⟨s.req.sessionID, s.req.mode = modeViewer⟩
  written : s.written ≠ [] → s.att ≠ none

theorem bound_new (req : Attach) : Bound (.new req) where
  att := nofun
  written h := absurd rfl h

section Bound

variable {J : Json} {s s' : Join} {l : Label} {q : List Frame}

/-- The supervisor reads the request that the relay wrote. -/
theorem onAttach_att (hJ : J.Lawful) (hplain : Plain s.req) {f : Frame}
    (htyp : f.typ = frameControl) (hpayload : f.payload = J.envelope msgAttach (.attach s.req))
    (outcome : Except GoString Bool) :
    (Join.onAttach J s f outcome).att = s.att ∨
      (Join.onAttach J s f outcome).att = some ⟨s.req.sessionID, s.req.mode = modeViewer⟩ := by
  have hfits : FitsInt (J.envelope msgAttach (.attach s.req)) := by
    rw [← hpayload]
    exact Nat.lt_of_le_of_lt f.fits (by decide)
  obtain ⟨henvelope, hattach, hbody⟩ :=
    hJ.attach s.req hplain.sessionID hplain.mode hplain.term hfits
  have hread : J.readMsg f = .ok ⟨msgAttach, J.marshal (.attach s.req)⟩ := by
    simp [Json.readMsg, htyp, hpayload, henvelope]
  have hdecode : Json.decode J.unmarshalAttach Join.noAttach
      ⟨msgAttach, J.marshal (.attach s.req)⟩ = .ok s.req := by
    simp [Json.decode, hbody, hattach]
  have hrefuse (message : GoString) : (s.refuse J message).att = s.att := by
    unfold Join.refuse
    split <;> rfl
  simp only [Join.onAttach, hread, hdecode, ne_eq, not_true, if_false]
  split
  · exact .inl (hrefuse _)
  · cases outcome with
    | error e => exact .inl (hrefuse e)
    | ok created =>
      right
      dsimp only
      split <;> rfl

theorem Bound.step (hJ : J.Lawful) (hplain : Plain s.req) {tr : List Label}
    (hup : Join.Upward J tr s q) (h : Bound s) (hstep : (join J).step s l = some s') :
    s'.req = s.req ∧ Bound s' := by
  rcases Join.kept_step hstep with hkept | ⟨outcome, f, up, -, hsup, hread, rfl⟩ |
    ⟨n, p, x, -, -, hatt, -, rfl⟩
  · refine ⟨hkept.req, ?_, ?_⟩
    · rw [hkept.att, hkept.req]
      exact h.att
    · rw [hkept.att, hkept.written]
      exact h.written
  · obtain ⟨rest, rfl, -⟩ := hup.carries.read hread
    have hreplies := Join.onAttach_replies (J := J) (s := { s with up := up }) (f := f) outcome
    have hsame := (hreplies.sameData hsup).1
    have hatt : (Join.onAttach J { s with up := up } f outcome).att = s.att ∨
        (Join.onAttach J { s with up := up } f outcome).att =
          some ⟨s.req.sessionID, s.req.mode = modeViewer⟩ := by
      rcases hup.request hsup with ⟨-, hnone⟩ | ⟨g, rest', hq, htyp, hpayload⟩
      · cases hnone
      · cases hq
        exact onAttach_att (s := { s with up := up }) hJ hplain htyp hpayload outcome
    refine ⟨hsame.req, ?_, ?_⟩
    · intro x hx
      rw [hsame.req]
      rcases hatt with hold | hnew
      · exact h.att x (hold.symm.trans hx)
      · exact (Option.some.inj (hnew.symm.trans hx)).symm
    · intro hwritten
      rw [hsame.written] at hwritten
      rcases hatt with hold | hnew
      · rw [hold]
        exact h.written hwritten
      · rw [hnew]
        exact nofun
  · exact ⟨rfl, h.att, fun _ => by rw [hatt]; exact nofun⟩

end Bound

/-! ## Runs -/

/-- The steps of the Management API in a run. -/
def apiSteps (tr : List Service.Label) :
    List (Lemul.Label MgmtApi.Access.Op MgmtApi.Access.Res Ledger.Move MgmtApi.Access.Request) :=
  tr.filterMap fun
    | .api l => some l
    | _ => none

theorem mem_apiSteps {tr : List Service.Label}
    {l : Lemul.Label MgmtApi.Access.Op MgmtApi.Access.Res Ledger.Move MgmtApi.Access.Request}
    (h : l ∈ apiSteps tr) : .api l ∈ tr := by
  obtain ⟨x, hx, heq⟩ := mem_filterMap.mp h
  cases x with
  | api l' =>
    cases heq
    exact hx
  | derive d | present p now later live | join i l' => cases heq

/-- An attach, and the credential it was redeemed with. -/
structure Genuine (cfg : Config) (J : Json) (tr : List Service.Label) (minted : List Minted)
    (a : Attaching) : Prop where
  upward : ∃ steps q, Join.Upward J steps a.join q
  bound : Bound a.join
  plain : Plain a.join.req
  sessionID : a.join.req.sessionID = a.claims.sessionID
  mode : a.claims.mode = modeViewer → a.join.req.mode = modeViewer
  presented : ∃ p now later live, Service.Label.present p now later live ∈ tr ∧
    cfg.signer.verifyAttach now p.token = .ok a.claims
  minted : ∃ m ∈ minted, m.claims.truncated = a.claims

section Runs

variable {cfg : Config} {J : Json} {tr : List Service.Label} {s s' : Service} {a : Attaching}

theorem Genuine.mono {minted' : List Minted} (h : Genuine cfg J tr minted a)
    (hsub : ∀ m ∈ minted, m ∈ minted') (l : Service.Label) :
    Genuine cfg J (tr ++ [l]) minted' a where
  upward := h.upward
  bound := h.bound
  plain := h.plain
  sessionID := h.sessionID
  mode := h.mode
  presented := by
    obtain ⟨p, now, later, live, hmem, hverify⟩ := h.presented
    exact ⟨p, now, later, live, mem_append_left _ hmem, hverify⟩
  minted := by
    obtain ⟨m, hm, hclaims⟩ := h.minted
    exact ⟨m, hsub m hm, hclaims⟩

/-- A step of an attach leaves its credential alone. -/
theorem Genuine.step (hJ : J.Lawful) (h : Genuine cfg J tr minted a) {l : Label} {j : Join}
    (hstep : (join J).step a.join l = some j) :
    Genuine cfg J tr minted { a with join := j } := by
  obtain ⟨steps, q, hup⟩ := h.upward
  obtain ⟨hreq, hbound⟩ := h.bound.step hJ h.plain hup hstep
  obtain ⟨q', hup'⟩ := Join.upward_step hup hstep
  refine ⟨⟨_, q', hup'⟩, hbound, ?_, ?_, ?_, h.presented, h.minted⟩
  · rw [hreq]
    exact h.plain
  · rw [hreq]
    exact h.sessionID
  · rw [hreq]
    exact h.mode

/-- An attach that begins is genuine. -/
theorem genuine_new {ledger : Ledger} (hbooks : MgmtApi.Access.Balanced ledger) {live : Bool}
    (hunforged : unforged cfg.signer
      ((ledger.state.minted.map fun m => Signer.attachMessage (encodeAttach m.claims)) ++
        derived.map Derived.message) p.token = true)
    (ha : a ∈ (handleAttach cfg.signer seen p now later live).1.toList) :
    Genuine cfg J (tr ++ [.present p now later live]) ledger.state.minted a := by
  obtain ⟨hverify, hsid, hjoin⟩ := handleAttach_some ha
  obtain ⟨m, hm, hclaims⟩ :=
    verified_minted (fun m hm => (hbooks.minted m hm).2) hunforged hverify
  obtain ⟨x, hx, hid, -, -⟩ := (hbooks.minted m hm).1
  have hascii : isASCII a.claims.sessionID = true := by
    rw [← hclaims]
    exact hid ▸ hbooks.ascii x hx
  have hreq : a.join.req = attachRequest a.claims p.sid p.rows p.cols := by rw [hjoin]; rfl
  refine ⟨⟨[], [], ?_⟩, ?_, ?_, ?_, ?_, ?_, m, hm, hclaims⟩
  · rw [hjoin]
    exact Join.upward_new _
  · rw [hjoin]
    exact bound_new _
  · rw [hreq]
    refine ⟨hsid ▸ hascii, ?_, rfl⟩
    simp only [attachRequest]
    split <;> decide
  · rw [hreq]
    exact hsid.symm
  · intro hviewer
    rw [hreq]
    simp [attachRequest, hviewer]
  · exact ⟨p, now, later, live, mem_append_right _ (mem_singleton_self _), hverify⟩

/-- In every run: the Management API takes steps of its own, and every attach is genuine. -/
theorem genuine_run (hJ : J.Lawful) {orgMembers : Store.OrgMembers}
    (h : (service cfg J).Run (.init orgMembers) tr s) :
    Path (MgmtApi.Access.ledger cfg) anyStep ⟨.init orgMembers, []⟩ (apiSteps tr)
      s.api ∧ ∀ a ∈ s.attaches, Genuine cfg J tr s.api.shared.state.minted a := by
  induction h with
  | nil => exact ⟨.nil, fun a ha => by cases ha⟩
  | @snoc tr mid last l before hstep ih =>
    obtain ⟨hpath, hattaches⟩ := ih
    have hold : ∀ a ∈ mid.attaches, Genuine cfg J (tr ++ [l]) mid.api.shared.state.minted a :=
      fun a ha => (hattaches a ha).mono (fun _ hm => hm) l
    rw [apiSteps, filterMap_append]
    cases l with
    | api l =>
      obtain ⟨pool, hpool, rfl⟩ := map_eq_some_iff.mp hstep
      have hone := step_sound hpool
      exact ⟨.snoc hpath trivial hone,
        fun a ha => (hattaches a ha).mono (MgmtApi.Access.minted_step hone) _⟩
    | derive d =>
      cases hstep
      rw [filterMap_cons_none rfl, filterMap_nil, append_nil]
      exact ⟨hpath, hold⟩
    | present p now later live =>
      simp only [service, Service.step] at hstep
      split at hstep <;> cases hstep
      rename_i hunforged
      rw [filterMap_cons_none rfl, filterMap_nil, append_nil]
      refine ⟨hpath, fun a ha => ?_⟩
      rcases mem_append.mp ha with hprev | hnew
      · exact hold a hprev
      · exact genuine_new (MgmtApi.Access.balanced_path hpath) hunforged hnew
    | join i l =>
      simp only [service, Service.step, Service.joinStep] at hstep
      split at hstep
      · cases hstep
      · rename_i b hb
        obtain ⟨j, hj, rfl⟩ := map_eq_some_iff.mp hstep
        rw [filterMap_cons_none rfl, filterMap_nil, append_nil]
        refine ⟨hpath, fun a ha => ?_⟩
        rcases mem_or_eq_of_mem_set ha with hprev | rfl
        · exact hold a hprev
        · exact (hold b (mem_of_getElem? hb)).step hJ hj

end Runs

/-- In every run, whatever was written to a PTY was written through an attachment to the
session of a credential that the relay redeemed and that is not a viewer's; the credential
was minted for an endpoint negotiation of the user on the record of that session. `encoding/json`
reads back what it writes, and HMAC cannot be forged (`unforged`). -/
theorem only_the_owner_types (cfg : Config) {J : Json} (hJ : J.Lawful)
    (orgMembers : Store.OrgMembers) {tr : List Service.Label} {s : Service}
    (hrun : (service cfg J).Run (.init orgMembers) tr s) {a : Attaching} (ha : a ∈ s.attaches)
    {w : GoString × Nat} (hw : w ∈ a.join.written) :
    ∃ att, a.join.att = some att ∧ att.sessionID = a.claims.sessionID ∧
      a.claims.mode ≠ modeViewer ∧
      (∃ p now later live, Service.Label.present p now later live ∈ tr ∧
        cfg.signer.verifyAttach now p.token = .ok a.claims) ∧
      ∃ m ∈ s.api.shared.state.minted, m.claims.truncated = a.claims ∧
        (∃ sc sid mode host, .api (.spawn (.endpoint sc sid mode host)) ∈ tr ∧
          sc.userID = m.userID) ∧
        ∃ x ∈ s.api.shared.records, x.id = att.sessionID ∧ x.tenantID = a.claims.tenantID ∧
          x.userID = m.userID := by
  obtain ⟨hpath, hattaches⟩ := genuine_run hJ hrun
  have hgenuine := hattaches a ha
  obtain ⟨m, hm, hclaims⟩ := hgenuine.minted
  have hcontrol : a.claims.mode ≠ modeViewer := by
    intro hviewer
    obtain ⟨steps, q, hup⟩ := hgenuine.upward
    have hnone := hup.viewer (hgenuine.mode hviewer)
    rw [Join.inputs, append_assoc] at hnone
    have hwritten := map_eq_nil_iff.mp (append_eq_nil_iff.mp hnone).1
    rw [hwritten] at hw
    cases hw
  obtain ⟨att, hatt⟩ := ne_none_iff_exists'.mp
    (hgenuine.bound.written (ne_nil_of_mem hw))
  have hsession : att.sessionID = a.claims.sessionID := by
    rw [hgenuine.bound.att att hatt]
    exact hgenuine.sessionID
  obtain ⟨x, hx, hid, htenant, huser⟩ :=
    ((MgmtApi.Access.balanced_path hpath).minted m hm).1
  obtain ⟨sc, sid, mode, host, hspawn, hcaller⟩ := MgmtApi.Access.minted_requested hpath m hm
  refine ⟨att, hatt, hsession, hcontrol, hgenuine.presented, m, hm, hclaims,
    ⟨sc, sid, mode, host, mem_apiSteps hspawn, hcaller⟩, x, hx, ?_, ?_, ?_⟩
  · rw [hid, hsession, ← hclaims]
    rfl
  · rw [htenant, ← hclaims]
    rfl
  · apply huser
    intro hviewer
    apply hcontrol
    rw [← hclaims]
    exact hviewer

/-! ## A run -/

/-- Dana owns the organization. -/
def crew : Store.OrgMembers where
  rows := [⟨"acme", "dana", .owner⟩]
  unique := by decide

def dana : MgmtApi.Scope := ⟨"acme", "acme-corp", "dana"⟩

def studio : Workspace :=
  Workspaces.newWorkspace "w1" "acme" "studio" "dana" .owner

/-- A session of Dana's. -/
def danaSession : Store.Session :=
  ⟨MgmtApi.Access.newUUID (List.replicate 16 7), "w1", "acme", "dana"⟩

/-- Dana creates a workspace and a session in it, and negotiates an endpoint for it. -/
def negotiated :
    List (Lemul.Label MgmtApi.Access.Op MgmtApi.Access.Res Ledger.Move MgmtApi.Access.Request) :=
  [.spawn (.createWorkspace dana "owner" (.value "studio") (fun _ => "blue-fox")),
    .thread 0 (.getOrgMembership "acme" "dana") (.ok ⟨"acme", "dana", .owner⟩),
    .thread 0 (.createWorkspace "acme" "studio" "dana" .owner) (.ok studio),
    .thread 0 (.outside .startPlacement) (.ok ()),
    .spawn (.createSession dana "studio"),
    .thread 1 (.getOrgMembership "acme" "dana") (.ok ⟨"acme", "dana", .owner⟩),
    .thread 1 (.getWorkspaceByName "acme" "studio") (.ok studio),
    .thread 1 (.outside .admitSession) (.ok ()),
    .thread 1 (.outside .ensureWorkspace) (.ok ()),
    .thread 1 (.outside .checkPreflight) (.ok ()),
    .thread 1 (.createSession "acme" "w1" "dana") (.ok danaSession),
    .spawn (.endpoint dana danaSession.id modeControl "localhost"),
    .thread 2 (.getOrgMembership "acme" "dana") (.ok ⟨"acme", "dana", .owner⟩),
    .thread 2 (.getSession "acme" danaSession.id) (.ok danaSession),
    .thread 2 (.getWorkspace "acme" "w1") (.ok studio),
    .thread 2 (.outside .ensureWorkspace) (.ok ()),
    .thread 2 (.outside .checkPreflight) (.ok ()),
    .thread 2 (.resolveIdentity "acme" "w1" "dana") (.ok ⟨"w1", "dana", "acme", .owner, some 2000⟩),
    .thread 2 (.outside .announceIdentity) (.ok ()),
    .thread 2 (.attachToken "dana" danaSession.id "acme" "studio"
      "acme-corp" modeControl) (.ok ("nonce", 0))]

/-- The token Dana gets. -/
def danaToken : GoString :=
  MgmtApi.demoConfig.signer.attachToken danaSession.id "acme" "studio"
    "acme-corp" modeControl Creds.attachTTL "nonce" 0

/-- Dana redeems the token and types. The token is then presented again. -/
def typed : List Service.Label :=
  negotiated.map Service.Label.api ++
    ([.derive (.workspace "acme" "studio" 1),
       .present ⟨danaSession.id, danaToken, 24, 80⟩ 10 10 true] : List Service.Label) ++
    ([.request, .upWrite 5 true, .upWrite 75 true, .attach (.ok true), .downWrite 5 true,
       .downWrite 52 true, .reply, .send (.binary "a"), .message, .upWrite 5 true,
       .upWrite 1 true, .input, .ptyWrite 1] : List Label).map (Service.Label.join 0) ++
    ([.present ⟨danaSession.id, danaToken, 24, 80⟩ 20 20 true] : List Service.Label)

def typedState : Service :=
  ((service MgmtApi.demoConfig plain).exec (.init crew) typed).get (by decide +kernel)

/-- The only attach there is. -/
def danaAttach : Attaching := typedState.attaches.get ⟨0, by decide +kernel⟩

theorem only_the_owner_types_typed :
    (service MgmtApi.demoConfig plain).Run (.init crew) typed typedState ∧
    typedState.attaches.length = 1 ∧ danaAttach.join.written = [(str "a", 1)] ∧
    ∃ m ∈ typedState.api.shared.state.minted, m.claims.truncated = danaAttach.claims ∧
      ∃ x ∈ typedState.api.shared.records, x.id = danaAttach.claims.sessionID ∧
        x.userID = m.userID := by
  have hrun : (service MgmtApi.demoConfig plain).Run (.init crew) typed typedState :=
    Lts.exec_run (some_get _).symm
  have hwritten : danaAttach.join.written = [(str "a", 1)] := by decide +kernel
  have hw : (str "a", 1) ∈ danaAttach.join.written := by
    rw [hwritten]
    exact mem_singleton_self _
  have hmem : danaAttach ∈ typedState.attaches := by
    unfold danaAttach
    exact get_mem _ _
  obtain ⟨att, -, hsession, -, -, m, hm, hclaims, -, x, hx, hid, -, huser⟩ :=
    only_the_owner_types MgmtApi.demoConfig plain_lawful crew hrun hmem hw
  exact ⟨hrun, by decide +kernel, hwritten, m, hm, hclaims, x, hx, hid.trans hsession, huser⟩

end Lemul.Attach
