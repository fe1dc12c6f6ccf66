import Lemul.MgmtApi.Access.Footprint
import Lemul.MgmtApi.Access.Ledger

/-!
# Who attach credentials are minted for

Endpoint negotiation is the only handler that mints (`api.go:536-624`). In every run, every
credential there is was minted for a session that there was a record of, in its
organization, and one that is not for a viewer was minted for the user on that record
(`minted_authorised`), who asked for it (`minted_requested`).
-/

namespace Lemul.MgmtApi.Access

open Store List System.Outline Lemul.System

/-! ## Which handler mints -/

/-- Operations that mint nothing. -/
def Quiet : Op → Prop
  | .attachToken _ _ _ _ _ _ => False
  | _ => True

/-- A credential is minted only for the caller of an endpoint negotiation. -/
def MintsFor (q : Request) : Op → Prop
  | .attachToken userID _ _ _ _ _ =>
      ∃ sc sid mode host, q = .endpoint sc sid mode host ∧ sc.userID = userID
  | _ => True

/-- Every operation of the program is quiet. -/
abbrev Silent {α : Type} (p : Api α) : Prop := p.Performs AnyAnswer Quiet

theorem Looks.quiet (o : Op) (h : Looks o) : Quiet o := by
  cases o <;> trivial

theorem LooksOnly.silent {α : Type} {p : Api α} (h : LooksOnly p) : Silent p := h.mono Looks.quiet

theorem prepareSession_silent (a : WsScope) (userID : GoString) :
    Silent (prepareSession a userID) := by
  refine (prepareSession_performs a userID).mono fun o ho => ?_
  cases o <;> trivial

/-- Every handler mints for an endpoint negotiation's caller or not at all. -/
theorem handler_mints (cfg : Config) (q : Request) :
    (handler cfg q).Performs AnyAnswer (MintsFor q) := by
  refine (handler_performs cfg q).mono fun o ho => ?_
  cases o with
  | attachToken userID sessionID tenantID workspaceName orgSlug mode => exact ho
  | _ => trivial

/-- Only endpoint negotiation mints. -/
theorem handler_silent (cfg : Config) {q : Request}
    (hq : ∀ sc sid mode host, q ≠ .endpoint sc sid mode host) : Silent (handler cfg q) := by
  refine (handler_mints cfg q).mono fun o ho => ?_
  cases o with
  | attachToken userID sessionID tenantID workspaceName orgSlug mode =>
    obtain ⟨sc, sid, mode, host, heq, -⟩ := ho
    exact hq sc sid mode host heq
  | _ => trivial

/-! ## The books -/

variable {cfg : Config} {tid : Nat} {o : Op} {s s' : Ledger} {r : Res o}

theorem ledger_exec (h : (ledger cfg).exec tid o r s = some s') :
    (∀ x ∈ recorded o r, isASCII x.id = true) ∧ (∀ m ∈ mintedBy o r, Encodable m.claims) ∧
      Access.exec tid o r s.state = some s'.state ∧ s'.records = recorded o r ++ s.records := by
  change Ledger.exec tid o r s = some s' at h
  unfold Ledger.exec at h
  split at h
  · rename_i hgo
    obtain ⟨state, hexec, rfl⟩ := Option.map_eq_some_iff.mp h
    exact ⟨hgo.1, hgo.2, hexec, rfl⟩
  · cases h

/-- A move of the environment makes no record and mints nothing. -/
theorem ledger_env {e : Ledger.Move} (h : (ledger cfg).env e s = some s') :
    s'.records = s.records ∧ s'.state.minted = s.state.minted ∧
      ∀ x ∈ s'.state.cell.sessions.rows, x ∈ s.state.cell.sessions.rows := by
  cases e with
  | joins e =>
    cases e
    cases h
    exact ⟨rfl, rfl, fun _ hx => hx⟩
  | other c =>
    simp only [ledger, Ledger.envStep] at h
    split at h <;> cases h
    rename_i hrows
    exact ⟨rfl, rfl, hrows⟩

/-- There was a record of the session a credential is for, in its organization; and a
credential that lets its bearer type was minted for the user on the record. -/
def Authorised (records : List Session) (m : Minted) : Prop :=
  ∃ x ∈ records, x.id = m.claims.sessionID ∧ x.tenantID = m.claims.tenantID ∧
    (m.claims.mode ≠ modeViewer → x.userID = m.userID)

theorem Authorised.mono {records records' : List Session} {m : Minted}
    (h : Authorised records m) (hsub : ∀ x ∈ records, x ∈ records') : Authorised records' m := by
  obtain ⟨x, hx, hrest⟩ := h
  exact ⟨x, hsub x hx, hrest⟩

/-- The books are in order. -/
structure Balanced (s : Ledger) : Prop where
  rows : ∀ x ∈ s.state.cell.sessions.rows, x ∈ s.records
  ascii : ∀ x ∈ s.records, isASCII x.id = true
  minted : ∀ m ∈ s.state.minted, Authorised s.records m ∧ Encodable m.claims

theorem balanced_init (orgMembers : OrgMembers) : Balanced (.init orgMembers) where
  rows := nofun
  ascii := nofun
  minted := nofun

/-- What minting asks for: a record that authorises it. -/
def mayMint (s : Ledger) : Op → Prop
  | .attachToken userID sessionID tenantID _ _ mode =>
      ∃ x ∈ s.records, x.id = sessionID ∧ x.tenantID = tenantID ∧
        (mode ≠ modeViewer → x.userID = userID)
  | _ => True

theorem authorised_of_mayMint {m : Minted} (h : mayMint s o)
    (hm : m ∈ mintedBy o r) : Authorised s.records m := by
  cases o with
  | attachToken userID sessionID tenantID workspaceName orgSlug mode =>
    rcases r with e | ⟨random, now⟩
    · cases hm
    · rw [mem_singleton.mp hm]
      exact h
  | _ => cases hm

theorem Balanced.exec (h : Balanced s) (hmint : mayMint s o)
    (hexec : (ledger cfg).exec tid o r s = some s') :
    Balanced s' := by
  obtain ⟨hascii, hencodable, hstate, hrecords⟩ := ledger_exec hexec
  have hbooked := exec_booked hstate
  have hold : ∀ x ∈ s.records, x ∈ s'.records := by
    intro x hx
    rw [hrecords]
    exact mem_append_right _ hx
  constructor
  · intro x hx
    rcases hbooked.sessions x hx with hrow | hnew
    · exact hold x (h.rows x hrow)
    · rw [hrecords]
      exact mem_append_left _ hnew
  · intro x hx
    rw [hrecords] at hx
    exact (mem_append.mp hx).elim (hascii x) (h.ascii x)
  · intro m hm
    rw [hbooked.minted] at hm
    rcases mem_append.mp hm with hnew | hprev
    · exact ⟨(authorised_of_mayMint hmint hnew).mono hold, hencodable m hnew⟩
    · exact ⟨(h.minted m hprev).1.mono hold, (h.minted m hprev).2⟩

/-- Records are kept, and whoever mints has a record that authorises it. -/
def authority (cfg : Config) : Outline (ledger cfg) anyStep where
  inv := Balanced
  rely _ s s' := ∀ x ∈ s.records, x ∈ s'.records
  pre _ o s := mayMint s o
  post _ _ _ := True
  rely_refl _ _ := fun _ hx => hx
  rely_trans _ _ _ _ h₁ h₂ := fun x hx => h₂ x (h₁ x hx)
  op_ok hinv hpre _ hexec := by
    refine ⟨hinv.exec hpre hexec, fun _ _ x hx => ?_⟩
    rw [(ledger_exec hexec).2.2.2]
    exact List.mem_append_right _ hx
  env_ok hinv _ hmove := by
    obtain ⟨hrecords, hminted, hrows⟩ := ledger_env hmove
    refine ⟨⟨?_, ?_, ?_⟩, ?_⟩
    · rw [hrecords]
      exact fun x hx => hinv.rows x (hrows x hx)
    · rw [hrecords]
      exact hinv.ascii
    · rw [hrecords, hminted]
      exact hinv.minted
    · rw [hrecords]
      exact fun _ x hx => hx

theorem Quiet.mayMint (o : Op) (h : Quiet o) : mayMint s o := by
  cases o <;> trivial

theorem records_kept {x : Session} (h : (ledger cfg).exec tid o r s = some s')
    (hx : x ∈ s.records) :
    x ∈ s'.records := by
  rw [(ledger_exec h).2.2.2]
  exact mem_append_right _ hx

section Safe

variable {cfg : Config} {tid : Nat} {β : Type}

/-- A silent program is safe, and a record that was there stays. -/
theorem Silent.safe_record {p : Api β} (hp : Silent p) {x : Session}
    (hx : x ∈ s.records) : (authority cfg).Safe tid p (fun _ s' => x ∈ s'.records) s :=
  safe_of_performs (O := authority cfg) (K := fun s => x ∈ s.records) hp
    (fun _ _ hmove hx => hmove x hx) (fun _ _ _ _ _ => trivial)
    (fun o _ ho _ _ => Quiet.mayMint o ho) (fun _ _ _ _ _ hexec hx => records_kept hexec hx) hx

theorem Silent.safe {p : Api β} (hp : Silent p) :
    (authority cfg).Safe tid p (fun _ _ => True) s :=
  safe_of_performs (K := fun _ => True) hp (fun _ _ _ _ => trivial)
    (fun _ _ _ _ _ => trivial) (fun o _ ho _ _ => Quiet.mayMint o ho)
    (fun _ _ _ _ _ _ _ => trivial) trivial

/-- `requireSession` lets through with a session there is a record of. -/
theorem requireSession_safe (sc : Scope) (sid : GoString) (s : Ledger) :
    (authority cfg).Safe tid (requireSession sc sid) (fun r s' => ∀ a, r = .ok a →
      a.sess ∈ s'.records ∧ a.sess.tenantID = sc.tenantID) s := by
  refine .bind ?_
  refine (((requireOrg_looks sc).silent.safe).and_returns (requireOrg_scope sc)).mono ?_
  rintro (e | org) s₁ ⟨horg, -⟩
  · exact nofun
  · refine safe_perform_bind fun s₂ _ hinv => ⟨trivial, fun r s₃ hexec _ _ => ?_⟩
    rcases r with e | sess
    · exact nofun
    · -- the row that was found is on the books
      obtain ⟨-, -, hstate, -⟩ := ledger_exec hexec
      obtain ⟨c, htx, -⟩ := run_ok hstate
      obtain ⟨hrow, -, htenant⟩ := Sessions.getSession_eq_some (Tx.one_ok htx).1
      have hrecord := records_kept hexec (hinv.rows sess hrow)
      refine .bind ?_
      refine ((workspaceScopeByID_looks sess.workspaceID).silent.safe_record hrecord).mono ?_
      rintro ((_ | _) | a) s₄ hkept
      · exact nofun
      · exact nofun
      · dsimp only
        split
        · rintro b ⟨⟩
          refine ⟨hkept, htenant.trans ?_⟩
          rw [← horg org rfl]
        · exact nofun

/-- Endpoint negotiation mints for a session there is a record of; unless it is for a
viewer, the caller is on that record. -/
theorem handleEndpoint_safe (sc : Scope) (sid query host : GoString) (s : Ledger) :
    (authority cfg).Safe tid (handleEndpoint cfg sc sid query host) (fun _ _ => True) s := by
  refine .bind ?_
  refine ((requireSession_safe sc sid s).and_returns (requireSession_scope sc sid)).mono ?_
  rintro (e | a) s₁ ⟨hscope, hrecord⟩
  · trivial
  · obtain ⟨hmem, htenant⟩ := hrecord a rfl
    have hcaller := hscope a rfl
    dsimp only
    generalize (if query = modeViewer then modeViewer else modeControl) = mode
    split
    · trivial
    · rename_i hmode
      refine safe_perform_bind fun s₂ hmove₂ _ =>
        ⟨trivial, fun r s₃ hexec₃ _ _ => ?_⟩
      have hmem₃ := records_kept hexec₃ (hmove₂ _ hmem)
      rcases r with e | _
      · trivial
      · refine safe_perform_bind fun s₄ hmove₄ _ =>
          ⟨trivial, fun r s₅ hexec₅ _ _ => ?_⟩
        have hmem₅ := records_kept hexec₅ (hmove₄ _ hmem₃)
        rcases r with e | _
        · trivial
        · refine .bind ?_
          refine ((prepareSession_silent a.wsScope a.sess.userID).safe_record hmem₅).mono ?_
          intro ready s₆ hmem₆
          cases ready with
          | false => trivial
          | true =>
            refine safe_perform_bind fun s₇ hmove₇ _ => ?_
            refine ⟨⟨a.sess, hmove₇ _ hmem₆, rfl, ?_, ?_⟩, ?_⟩
            · rw [htenant, ← hcaller]
            · -- only somebody on the record gets past the check without asking to watch
              intro hcontrol
              have hmine : a.isMine = true := by
                simpa [hcontrol] using hmode
              exact of_decide_eq_true hmine
            · rintro (e | ⟨random, now⟩) s₈ _ _ _ <;> trivial

theorem handler_safe (q : Request) (s : Ledger) :
    (authority cfg).Safe tid (handler cfg q) (fun _ _ => True) s := by
  by_cases hq : ∃ sc sid mode host, q = .endpoint sc sid mode host
  · obtain ⟨sc, sid, mode, host, rfl⟩ := hq
    exact handleEndpoint_safe sc sid mode host s
  · exact (handler_silent cfg fun sc sid mode host heq => hq ⟨sc, sid, mode, host, heq⟩).safe

end Safe

section Runs

variable {cfg : Config} {orgMembers : OrgMembers}
  {tr : List (Label Op Res Ledger.Move Request)} {pool : Pool Op Res Ledger Answer}

/-- The books are in order in every state. -/
theorem balanced_path
    (h : Path (ledger cfg) anyStep ⟨.init orgMembers, []⟩ tr pool) :
    Balanced pool.shared := by
  have hstart : (authority cfg).Holds ⟨.init orgMembers, []⟩ := by
    refine ⟨balanced_init orgMembers, ?_⟩
    exact nofun
  refine ((authority cfg).sound ?_ hstart h).1
  rintro q s p tid - - ⟨⟩
  exact handler_safe q s

/-- What was minted stays minted. -/
theorem minted_step {pool' : Pool Op Res Ledger Answer}
    {l : Label Op Res Ledger.Move Request} (h : Step (ledger cfg) pool l pool') :
    ∀ m ∈ pool.shared.state.minted, m ∈ pool'.shared.state.minted := by
  intro m hm
  cases h with
  | thread hthread hexec =>
    obtain ⟨-, -, hstate, -⟩ := ledger_exec hexec
    rw [(exec_booked hstate).minted]
    exact mem_append_right _ hm
  | spawn hq => exact hm
  | env hmove =>
    rw [(ledger_env hmove).2.1]
    exact hm

/-- Every credential was minted in answer to an endpoint negotiation of its user. -/
theorem minted_requested
    (h : Path (ledger cfg) anyStep ⟨.init orgMembers, []⟩ tr pool) :
    ∀ m ∈ pool.shared.state.minted, ∃ sc sid mode host,
      Label.spawn (.endpoint sc sid mode host) ∈ tr ∧ sc.userID = m.userID := by
  induction h with
  | nil =>
    exact nofun
  | @snoc tr mid last l before hcond hstep ih =>
    have hearlier : ∀ m ∈ mid.shared.state.minted, ∃ sc sid mode host,
        Label.spawn (.endpoint sc sid mode host) ∈ tr ++ [l] ∧ sc.userID = m.userID := by
      intro m hm
      obtain ⟨sc, sid, mode, host, hq, huser⟩ := ih m hm
      exact ⟨sc, sid, mode, host, mem_append_left _ hq, huser⟩
    intro m hm
    cases hstep with
    | @thread tid o k r s hthread hexec =>
      obtain ⟨-, -, hstate, -⟩ := ledger_exec hexec
      rw [(exec_booked hstate).minted] at hm
      rcases mem_append.mp hm with hnew | hold
      · -- the thread that minted it is what is left of a handler
        obtain ⟨q, hq, hp⟩ := before.performs (A := AnyAnswer) (P := MintsFor)
          (fun _ _ _ _ _ _ => trivial) (fun q s p hs => by cases hs; exact handler_mints cfg q)
          _ (mem_of_getElem? hthread)
        cases o with
        | attachToken userID sessionID tenantID workspaceName orgSlug mode =>
          rcases r with e | ⟨random, now⟩
          · cases hnew
          · obtain ⟨sc, sid, mode, host, rfl, huser⟩ := hp.1
            rw [mem_singleton.mp hnew]
            exact ⟨sc, sid, mode, host, mem_append_left _ hq, huser⟩
        | _ => cases hnew
      · exact hearlier m hold
    | spawn hq => exact hearlier m hm
    | env hmove =>
      rw [(ledger_env hmove).2.1] at hm
      exact hearlier m hm

end Runs

end Lemul.MgmtApi.Access
