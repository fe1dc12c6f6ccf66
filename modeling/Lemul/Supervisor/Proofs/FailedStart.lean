import Lemul.Supervisor.Sessions

/-!
# A session that could not be started

`createSession` opens the session's proxy before three steps that can fail. "The listener lives
as long as the session" (`internal/gateway/proxy.go:131`), but what has been opened for a session
that is then not started stays open and registered.
-/

namespace Lemul.Supervisor.Sessions

open Prog Function

/-- A step that neither opens nor closes a proxy. -/
def Op.LeavesProxies : Op → Prop
  | .listen _ | .setProxy _ _ | .takeProxy _ | .closeProxy _ => False
  | _ => True

/-- The open and the registered proxies. -/
def Task.proxies (s : Task) : List SessionProxy × (GoString → Option SessionProxy) :=
  (s.listening, s.broker)

section Failed

variable {o : Options} {id term : GoString} {rows cols tid : Nat} {s s' : Task}

theorem exec_proxies {op : Op} {r : Res op} (hop : op.LeavesProxies) (h : exec op r s = some s') :
    s'.proxies = s.proxies := by
  cases exec_rule h with
  | listens | setProxy | takeProxy | closeProxy => exact hop.elim
  | _ => rfl

theorem move_proxies {e : Move} (h : move e s = some s') : s'.proxies = s.proxies := by
  cases e with
  | exit pid =>
    obtain ⟨p, -, -, rfl⟩ := move_exit h
    rfl
  | announce id who =>
    cases h
    rfl

/-- Answers of a broker that has a proxy for the session, if there is a broker. -/
def HasProxy (o : Options) (id : GoString) : (o : Op) → Res o → Prop
  | .proxyOf id', r => o.gateway = true → id' = id → r ≠ none
  | _, _ => True

/-- With a proxy there is nothing to open. -/
theorem leaves_createSession :
    (createSession o id term rows cols).Performs (HasProxy o id) Op.LeavesProxies := by
  refine (performs_identityFor.mono fun op h => by cases op <;> trivial).bind fun who => ?_
  cases who with
  | error err => trivial
  | ok who =>
    refine Prog.Performs.bind (P := Op.LeavesProxies) ?_ fun env => ?_
    · unfold sessionEnv
      split
      · rename_i hgateway
        refine Prog.Performs.bind (.perform trivial fun r hr => ?_) fun sp => ?_
        · cases r with
          | some sp => trivial
          | none => exact absurd rfl (hr hgateway rfl)
        · cases sp <;> trivial
      · trivial
    · cases env with
      | error err => trivial
      | ok env => exact performs_create.mono fun op h => by cases op <;> trivial

/-- The session's identity is there, or arrives in time. -/
theorem identityFor_runs (tid : Nat) (o : Options) (id : GoString) (s : Task) :
    ∃ tr who s', Runs (supervisor o).toMachine tid (identityFor o id) s tr (.ok who) s' ∧
      s'.proxies = s.proxies := by
  unfold identityFor
  split
  · exact ⟨_, _, s, .ret _ s, rfl⟩
  · let who : Identity := ⟨2000, [], [], []⟩
    let t : Task := { s with identities := update s.identities id (some who) }
    have hannounced : (supervisor o).env (.announce id who) s = some t := rfl
    have hwho : some who = t.identities id := by simp [t]
    have hread : (supervisor o).exec tid (.identity id) (some who) t = some t := if_pos hwho
    let t' : Task := { t with provisioned := update t.provisioned who.uid true }
    have hmark : (supervisor o).exec tid (.markProvisioned who.uid) (!s.provisioned who.uid) t =
        some t' := if_pos rfl
    have hhome : (supervisor o).exec tid (.provisionHome who) none t' = some t' := rfl
    cases hprovisioned : s.provisioned who.uid with
    | true =>
      rw [hprovisioned] at hmark
      exact ⟨_, who, t', .env hannounced (.op hread (.op hmark (.ret _ t'))), rfl⟩
    | false =>
      rw [hprovisioned] at hmark
      exact ⟨_, who, t', .env hannounced (.op hread (.op hmark (.op hhome (.ret _ t')))), rfl⟩

/-- Without a proxy of the session one is opened. -/
theorem sessionEnv_runs (tid : Nat) (term : GoString) (who : Identity) (hgateway : o.gateway = true)
    (hnone : s.broker id = none) :
    ∃ tr env s', Runs (supervisor o).toMachine tid (sessionEnv o id term who) s tr (.ok env) s' ∧
      ∃ sp, s'.listening = sp :: s.listening ∧ s'.broker id = some sp := by
  obtain ⟨port, hport⟩ := Infinite.exists_notMem_finset (s.listening.map (·.port)).toFinset
  rw [List.mem_toFinset] at hport
  let sp : SessionProxy := ⟨s.opened, id, port⟩
  let t : Task := { s with listening := sp :: s.listening, opened := s.opened + 1 }
  have hfound : (supervisor o).exec tid (.proxyOf id) none s = some s := if_pos hnone.symm
  have hlisten : (supervisor o).exec tid (.listen id) (.ok sp) s = some t :=
    if_pos ⟨rfl, rfl, hport⟩
  let t' : Task := { t with broker := update t.broker id (some sp) }
  have hset : (supervisor o).exec tid (.setProxy id sp) () t = some t' := rfl
  unfold sessionEnv
  rw [if_pos hgateway]
  exact ⟨_, _, t', .op hfound (.op hlisten (.op hset (.ret (Except.ok _) t'))), sp, rfl,
    update_self ..⟩

/-- `Create` can fail, and closes nothing. -/
theorem create_fails (tid : Nat) (o : Options) (spec : Spec) (s : Task) :
    ∃ tr err, Runs (supervisor o).toMachine tid (create spec) s tr (.error err) s := by
  have hfound : (supervisor o).exec tid (.registered spec.id) (s.manager spec.id).isSome s =
      some s := if_pos rfl
  have hfork : (supervisor o).exec tid (.newSession spec) (.error "fork failed") s = some s := rfl
  cases hregistered : (s.manager spec.id).isSome with
  | true =>
    rw [hregistered] at hfound
    exact ⟨_, errExists, .op hfound (.ret _ s)⟩
  | false =>
    rw [hregistered] at hfound
    exact ⟨_, "fork failed", .op hfound (.op hfork (.ret _ s))⟩

theorem createSession_leaves_proxy (tid : Nat) (term : GoString) (rows cols : Nat)
    (hgateway : o.gateway = true) (hnone : s.broker id = none) :
    ∃ tr err s', Runs (supervisor o).toMachine tid (createSession o id term rows cols) s tr
      (.error err) s' ∧ ∃ sp, s'.listening = sp :: s.listening ∧ s'.broker id = some sp := by
  obtain ⟨tr₁, who, s₁, hwho, hproxies⟩ := identityFor_runs tid o id s
  obtain ⟨hlistening, hbroker⟩ := Prod.mk.inj hproxies
  obtain ⟨tr₂, env, s₂, henv, hopened⟩ :=
    sessionEnv_runs tid (if term = [] then o.term else term) who hgateway (hbroker ▸ hnone)
  obtain ⟨tr₃, err, hcreate⟩ :=
    create_fails tid o ⟨id, env, who.home, rows, cols, credential o who⟩ s₂
  exact ⟨_, err, s₂, hwho.bind (henv.bind hcreate), hlistening ▸ hopened⟩

/-- For every supervisor, session and state: whatever it is given and whichever error it returns,
`createSession` leaves the open and the registered proxies as they were, exactly where there is
no broker or it already has a proxy for the session. -/
theorem failed_start_proxies_iff (o : Options) (id : GoString) (s : Task) :
    (∀ tid term rows cols tr err s',
        Runs (supervisor o).toMachine tid (createSession o id term rows cols) s tr (.error err) s' →
        s'.proxies = s.proxies) ↔
      (o.gateway = true → s.broker id ≠ none) := by
  constructor
  · intro h hgateway hnone
    obtain ⟨tr, err, s', hrun, sp, hsp, -⟩ :=
      createSession_leaves_proxy 0 [] 0 0 hgateway hnone
    have hsame := congrArg Prod.fst (h 0 [] 0 0 tr err s' hrun)
    exact List.cons_ne_self sp s.listening (hsp.symm.trans hsame)
  · intro h tid term rows cols tr err s' hrun
    refine hrun.preserves_performed (I := fun t => t.proxies = s.proxies) leaves_createSession
      (fun op r t t' ht hexec => ?_) (fun op r t t' hop hexec ht => ?_)
      (fun e t t' hmove ht => (move_proxies hmove).trans ht) rfl
    · cases supervisor_rule hexec with
      | proxyOf =>
        rintro hgateway rfl
        rw [(Prod.mk.inj ht).2]
        exact h hgateway
      | _ => trivial
    · exact (exec_proxies hop hexec).trans ht

end Failed

/-- The fork fails; the session's proxy stays open and registered. -/
theorem failed_start_leaves_proxy :
    ∃ (o : Options) (tr : Trace Op Res) (err : GoString) (s' : Task) (sp : SessionProxy),
      Runs (supervisor o).toMachine 0 (createSession o "s1" [] 24 80) .new tr (.error err)
        s' ∧ s'.listening = [sp] ∧ s'.broker "s1" = some sp := by
  let o : Options := ⟨1000, 0, [], "xterm", true, [], fun _ => none⟩
  obtain ⟨tr, err, s', hrun, sp, hopened⟩ : ∃ tr err s',
      Runs (supervisor o).toMachine 0 (createSession o "s1" [] 24 80) .new tr (.error err)
        s' ∧ ∃ sp, s'.listening = [sp] ∧ s'.broker "s1" = some sp :=
    createSession_leaves_proxy 0 [] 24 80 rfl rfl
  exact ⟨o, tr, err, s', sp, hrun, hopened⟩

end Lemul.Supervisor.Sessions
