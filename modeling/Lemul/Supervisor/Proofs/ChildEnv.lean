import Lemul.Misc.Place
import Lemul.Misc.TextFields
import Lemul.Supervisor.Sessions

/-!
# What a session finds in its environment

`sessionEnv` (`internal/supervisor/supervisor.go:902-999`) hands on the supervisor's environment
without the variables that are the supervisor's own, and sets those of the session. A variable is
told by its name with the `=` behind it, so that of two names none can pass for the other.
-/

namespace Lemul.Supervisor.Sessions

open List Prog

/-- `SessionIdentity` (`messages.go:222-227`). -/
structure SessionIdentity where
  sessionID : GoString
  uid : Nat
  username : GoString
  home : GoString
  deriving DecidableEq, Repr

/-- The identity that `handleSessionIdentity` puts (`supervisor.go:562-580`), or its refusal. -/
def SessionIdentity.identity (req : SessionIdentity) : Except GoString Identity :=
  if req.sessionID = [] ∨ req.uid = 0 ∨ req.home = [] then
    .error "a session identity needs a session, a uid and a home"
  else
    .ok ⟨req.uid, req.username, req.home, SlashPath.join req.home ".claude"⟩

/-- What `identities.get` finds was put by `handleSessionIdentity`. -/
def FromRequests (tr : Trace Op Res) : Prop :=
  ∀ id who, (⟨.identity id, some who⟩ : Σ o : Op, Res o) ∈ tr →
    ∃ req : SessionIdentity, req.identity = .ok who

/-- The variables of a session with their values. -/
def ownVars (o : Options) (term : GoString) (who : Identity) (proxy : Option SessionProxy) :
    List (GoString × GoString) :=
  let name := if who.username = [] then (sessionHome o who.uid).2 else who.username
  [(str "TERM=", term), (str "COLORTERM=", str "truecolor")] ++
    (if who.uid ≠ 0 then
      [(str "HOME=", who.home), (str "USER=", name), (str "LOGNAME=", name),
        (str "CLAUDE_CONFIG_DIR=", who.configDir)]
    else []) ++
    match proxy with
    | none => []
    | some sp => [(str "ANTHROPIC_BASE_URL=", sp.baseURL),
        (str "ANTHROPIC_AUTH_TOKEN=", placeholderToken)]

/-- The entries for the variable `v`. -/
def entriesOf (v : GoString) (env : List GoString) : List GoString :=
  env.filter fun e => v.isPrefixOf e

/-- The entries for variables that are not among `vs`. -/
def others (vs env : List GoString) : List GoString :=
  env.filter fun e => !vs.any fun v => v.isPrefixOf e

/-- `env` is made of the variables `own` and, for the rest, of what `parent` has. -/
structure ExactEnv (parent : List GoString) (own : List (GoString × GoString))
    (env : List GoString) : Prop where
  /-- Each variable of its own is there once. -/
  once : ∀ x ∈ own, entriesOf x.1 env = [x.1 ++ x.2]
  /-- Of what is stripped nothing is inherited. -/
  stripped : ∀ v ∈ strippedFromChild, v ∉ own.map (·.1) → entriesOf v env = []
  /-- What remains are the parent's other entries in their order. -/
  rest : others (own.map (·.1)) env = others (strippedFromChild ++ own.map (·.1)) parent

/-! ## Names -/

/-- A name with its `=`. -/
def isName (v : GoString) : Bool := v.getLast? = some 61 && !v.dropLast.contains 61

theorem eq_of_isName {v w val : GoString} (hv : isName v = true) (hw : isName w = true)
    (h : v.isPrefixOf (w ++ val) = true) : v = w := by
  have hname : ∀ {u : GoString}, isName u = true → ∃ n, u = n ++ [61] ∧ (61 : UInt8) ∉ n := by
    intro u hu
    simp only [isName, Bool.and_eq_true, decide_eq_true_eq, Bool.not_eq_true',
      contains_eq_mem, decide_eq_false_iff_not] at hu
    exact ⟨u.dropLast, (dropLast_append_getLast? 61 hu.1).symm, hu.2⟩
  obtain ⟨n, rfl, hn⟩ := hname hv
  obtain ⟨m, rfl, hm⟩ := hname hw
  obtain ⟨t, ht⟩ := isPrefixOf_iff_prefix.mp h
  rw [append_assoc, append_assoc, singleton_append, singleton_append] at ht
  have hcut := cut_append (b := t) hn
  rw [ht, cut_append hm] at hcut
  cases hcut
  rfl

theorem isName_stripped : ∀ v ∈ strippedFromChild, isName v = true := by
  decide +kernel

/-- Keys that are distinct select what they are the keys of. -/
theorem filter_key_eq {own : List (GoString × GoString)} (h : (own.map (·.1)).Nodup)
    {x : GoString × GoString} (hx : x ∈ own) : (own.filter fun y => y.1 = x.1) = [x] := by
  induction own with
  | nil => cases hx
  | cons y own ih =>
    obtain ⟨hy, hown⟩ := nodup_cons.mp h
    rcases mem_cons.mp hx with rfl | hrest
    · have hnone : (own.filter fun y => y.1 = x.1) = [] := by
        refine filter_eq_nil_iff.mpr fun z hz hzx => hy ?_
        exact mem_map.mpr ⟨z, hz, of_decide_eq_true hzx⟩
      rw [filter_cons, if_pos (decide_eq_true rfl), hnone]
    · have hne : y.1 ≠ x.1 := fun heq => hy (mem_map.mpr ⟨x, hrest, heq.symm⟩)
      rw [filter_cons_of_neg (by simpa using hne)]
      exact ih hown hrest

section Settings

variable {own : List (GoString × GoString)} {parent : List GoString} {v : GoString}

/-- Among settings, the entries for a name are the settings of that name. -/
theorem entriesOf_settings (hname : ∀ x ∈ own, isName x.1 = true) (hv : isName v = true) :
    entriesOf v (own.map fun x => x.1 ++ x.2) =
      (own.filter fun x => x.1 = v).map fun x => x.1 ++ x.2 := by
  rw [entriesOf, filter_map]
  congr 1
  refine filter_congr fun x hx => ?_
  rw [Bool.eq_iff_iff, decide_eq_true_iff, Function.comp_apply]
  constructor
  · exact fun h => (eq_of_isName hv (hname x hx) h).symm
  · rintro rfl
    exact isPrefixOf_iff_prefix.mpr (prefix_append _ _)

theorem entriesOf_others {vs : List GoString} (hv : v ∈ vs) :
    entriesOf v (others vs parent) = [] := by
  refine filter_eq_nil_iff.mpr fun e he hve => ?_
  have hnone := (mem_filter.mp he).2
  rw [Bool.not_eq_true', any_eq_false] at hnone
  exact hnone v hv hve

/-- The parent's other entries with the settings behind them. -/
theorem exactEnv_append (hname : ∀ x ∈ own, isName x.1 = true) (hnodup : (own.map (·.1)).Nodup) :
    ExactEnv parent own (others (strippedFromChild ++ own.map (·.1)) parent ++
      own.map fun x => x.1 ++ x.2) where
  once x hx := by
    have hmem : x.1 ∈ strippedFromChild ++ own.map (·.1) :=
      mem_append_right _ (mem_map_of_mem hx)
    have hset := entriesOf_settings hname (hname x hx)
    rw [filter_key_eq hnodup hx] at hset
    rw [entriesOf, filter_append]
    exact (congrArg₂ (· ++ ·) (entriesOf_others hmem) hset).trans (nil_append _)
  stripped v hv hown := by
    have hset := entriesOf_settings hname (isName_stripped v hv)
    rw [filter_eq_nil_iff.mpr fun x hx hxv => hown
      (mem_map.mpr ⟨x, hx, of_decide_eq_true hxv⟩)] at hset
    rw [entriesOf, filter_append]
    exact (congrArg₂ (· ++ ·) (entriesOf_others (mem_append_left _ hv)) hset).trans
      (nil_append _)
  rest := by
    have hset : others (own.map (·.1)) (own.map fun x => x.1 ++ x.2) = [] := by
      refine filter_eq_nil_iff.mpr fun e he hnone => ?_
      obtain ⟨x, hx, rfl⟩ := mem_map.mp he
      rw [Bool.not_eq_true', any_eq_false] at hnone
      exact hnone x.1 (mem_map_of_mem hx) <| isPrefixOf_iff_prefix.mpr (prefix_append _ _)
    have hkept : others (own.map (·.1)) (others (strippedFromChild ++ own.map (·.1)) parent) =
        others (strippedFromChild ++ own.map (·.1)) parent := by
      refine filter_eq_self.mpr fun e he => ?_
      have hnone := (mem_filter.mp he).2
      rw [any_append, Bool.not_or, Bool.and_eq_true] at hnone
      exact hnone.2
    rw [others, filter_append]
    exact (congrArg₂ (· ++ ·) hkept hset).trans (append_nil _)

end Settings

/-! ## The settings of a session -/

section Own

variable {o : Options} {id term : GoString} {who : Identity} {proxy : Option SessionProxy}
  {env : List GoString} {tr : Trace Op Res}

theorem ownVars_names : (ownVars o term who proxy).map (·.1) =
    [str "TERM=", str "COLORTERM="] ++
      (if who.uid ≠ 0 then
        [str "HOME=", str "USER=", str "LOGNAME=", str "CLAUDE_CONFIG_DIR="] else []) ++
      if proxy.isSome then [str "ANTHROPIC_BASE_URL=", str "ANTHROPIC_AUTH_TOKEN="] else [] := by
  unfold ownVars
  by_cases huid : who.uid = 0 <;> cases proxy <;> simp [huid]

/-- The names are names, they are different, and together with what is stripped they are those
that `childEnv` does not hand on. -/
theorem ownVars_checked (o : Options) (term : GoString) (who : Identity)
    (proxy : Option SessionProxy) :
    (∀ v ∈ (ownVars o term who proxy).map (·.1), isName v = true) ∧
      ((ownVars o term who proxy).map (·.1)).Nodup ∧
      strippedFromChild ++ (ownVars o term who proxy).map (·.1) ⊆
        str "TERM=" :: str "COLORTERM=" :: drops who ∧
      str "TERM=" :: str "COLORTERM=" :: drops who ⊆
        strippedFromChild ++ (ownVars o term who proxy).map (·.1) := by
  rw [ownVars_names]
  unfold drops
  by_cases huid : who.uid = 0 <;> cases proxy <;>
    simp only [huid, ne_eq, not_true_eq_false, not_false_eq_true, if_true, if_false,
      Option.isSome_none, Option.isSome_some, Bool.false_eq_true] <;> decide +kernel

/-- What a member's identity has, `childEnv` sets. -/
theorem childEnv_eq (hwho : who.uid ≠ 0 → who.home ≠ [] ∧ who.configDir ≠ [])
    (proxy : Option SessionProxy) :
    childEnv o term who = others (strippedFromChild ++ (ownVars o term who proxy).map (·.1))
      o.environ ++ (ownVars o term who none).map fun x => x.1 ++ x.2 := by
  obtain ⟨-, -, hsub, hsup⟩ := ownVars_checked o term who proxy
  have hset : ["TERM=" ++ term, "COLORTERM=truecolor"] ++ identityEnv o who =
      (ownVars o term who none).map fun x => x.1 ++ x.2 := by
    unfold identityEnv ownVars
    by_cases huid : who.uid = 0
    · simp [huid]
      decide +kernel
    · simp [huid, hwho huid]
      decide +kernel
  rw [childEnv, append_assoc, hset]
  congr 1
  refine filter_congr fun e _ => congrArg (! ·) ?_
  have hany : ((str "TERM=" :: str "COLORTERM=" :: drops who).any fun v => v.isPrefixOf e) =
      (strippedFromChild ++ (ownVars o term who proxy).map (·.1)).any fun v => v.isPrefixOf e := by
    rw [Bool.eq_iff_iff, any_eq_true, any_eq_true]
    exact ⟨Exists.imp fun v hv => ⟨hsup hv.1, hv.2⟩, Exists.imp fun v hv => ⟨hsub hv.1, hv.2⟩⟩
  rw [← hany, any_cons, any_cons, Bool.or_assoc]

/-- The identities that a session can run as. -/
theorem identityFor_complete (h : Emits (identityFor o id) tr (.ok who)) (htr : FromRequests tr) :
    who.uid ≠ 0 → who.home ≠ [] ∧ who.configDir ≠ [] := by
  have hmember : ∀ {w : Identity} {tr' : Trace Op Res}, tr = ⟨.identity id, some w⟩ :: tr' →
      w.home ≠ [] ∧ w.configDir ≠ [] := by
    intro w tr' heq
    obtain ⟨req, hreq⟩ := htr id w (heq ▸ mem_cons_self)
    unfold SessionIdentity.identity at hreq
    split at hreq <;> cases hreq
    rename_i hgiven
    refine ⟨fun hhome => hgiven (.inr (.inr hhome)), ?_⟩
    rw [SlashPath.join, SlashPath.clean_eq_render]
    exact SlashPath.Place.render_ne_nil
  unfold identityFor at h
  split at h
  · obtain ⟨-, heq⟩ := emits_ret h
    cases heq
    exact fun hne => absurd rfl hne
  · obtain ⟨r, tr₁, hfirst, hrest⟩ := emits_perform_bind h
    cases r with
    | none =>
      dsimp only at hrest
      split at hrest
      · obtain ⟨-, heq⟩ := emits_ret hrest
        cases heq
        exact fun hne => absurd rfl hne
      · obtain ⟨-, heq⟩ := emits_ret hrest
        cases heq
    | some w =>
      obtain ⟨first, tr₂, -, hrest⟩ := emits_perform_bind hrest
      have hsame : who = w := by
        split at hrest
        · obtain ⟨err, tr₃, -, hrest⟩ := emits_perform_bind hrest
          cases err with
          | some err =>
            obtain ⟨-, heq⟩ := emits_ret hrest
            cases heq
          | none =>
            obtain ⟨-, heq⟩ := emits_ret hrest
            cases heq
            rfl
        · obtain ⟨-, heq⟩ := emits_ret hrest
          cases heq
          rfl
      exact fun _ => hsame ▸ hmember hfirst

/-- A session's environment is exactly what it should have, whatever the supervisor's own is. -/
theorem childEnv_exact {tr' : Trace Op Res} (hwho : Emits (identityFor o id) tr (.ok who))
    (htr : FromRequests tr) (henv : Emits (sessionEnv o id term who) tr' (.ok env)) :
    ∃ proxy, (o.gateway = true → ∃ sp, proxy = some sp ∧ Emits (openProxy id) tr' (.ok sp)) ∧
      (o.gateway = false → proxy = none) ∧
      ExactEnv o.environ (ownVars o term who proxy) env := by
  have hcomplete := identityFor_complete hwho htr
  have hexact : ∀ proxy, ExactEnv o.environ (ownVars o term who proxy)
      (others (strippedFromChild ++ (ownVars o term who proxy).map (·.1)) o.environ ++
        (ownVars o term who proxy).map fun x => x.1 ++ x.2) := by
    intro proxy
    obtain ⟨hname, hnodup, -⟩ := ownVars_checked o term who proxy
    exact exactEnv_append (fun x hx => hname x.1 (mem_map_of_mem hx)) hnodup
  unfold sessionEnv at henv
  split at henv
  · rename_i hgateway
    obtain ⟨tr₁, tr₂, r, htraces, hopen, hrest⟩ := emits_bind henv
    cases r with
    | error err =>
      obtain ⟨-, heq⟩ := emits_ret hrest
      cases heq
    | ok sp =>
      obtain ⟨rfl, heq⟩ := emits_ret hrest
      cases heq
      rw [append_nil] at htraces
      refine ⟨some sp, fun _ => ⟨sp, rfl, htraces ▸ hopen⟩, fun hno => ?_, ?_⟩
      · cases hgateway.symm.trans hno
      · have henv_eq := hexact (some sp)
        have hset : (ownVars o term who (some sp)).map (fun x => x.1 ++ x.2) =
            (ownVars o term who none).map (fun x => x.1 ++ x.2) ++
              [str "ANTHROPIC_BASE_URL=" ++ sp.baseURL,
                str "ANTHROPIC_AUTH_TOKEN=" ++ placeholderToken] := by
          simp [ownVars]
        rw [hset, ← append_assoc, ← childEnv_eq hcomplete] at henv_eq
        exact henv_eq
  · rename_i hgateway
    obtain ⟨-, heq⟩ := emits_ret henv
    cases heq
    refine ⟨none, fun hyes => absurd hyes hgateway, fun _ => rfl, ?_⟩
    rw [childEnv_eq hcomplete none]
    exact hexact none

end Own

/-- A supervisor that runs as root, with a broker and an environment full of look-alikes. -/
def rootWithBroker : Options :=
  ⟨0, 1000, [], "xterm", true,
    ["TERM=dumb", "XTERM=1", "HOME=/root", "HOMEX=2", "TERM=dumb",
      "LEMUL_TOKEN=secret", "PATH=/bin", "ANTHROPIC_BASE_URL=http://other"],
    fun _ => none⟩

/-- A member as `session_identity` announces them. -/
def ada : Identity := ⟨2000, "ada", "/workspace/ada", "/workspace/ada/.claude"⟩

theorem childEnv_exact_ada :
    ∃ proxy, ExactEnv rootWithBroker.environ (ownVars rootWithBroker "xterm" ada proxy)
      (["XTERM=1", "HOMEX=2", "PATH=/bin", "TERM=xterm", "COLORTERM=truecolor",
        "HOME=/workspace/ada", "USER=ada", "LOGNAME=ada",
        "CLAUDE_CONFIG_DIR=/workspace/ada/.claude",
        "ANTHROPIC_BASE_URL=http://127.0.0.1:4001",
        "ANTHROPIC_AUTH_TOKEN=sk-lemul-loopback-not-a-secret"]) := by
  have hwho : Emits (identityFor rootWithBroker "s1")
      [⟨.identity "s1", some ada⟩, ⟨.markProvisioned 2000, false⟩] (.ok ada) := by
    apply Emits.op
    apply Emits.op
    exact .ret _
  have htr : FromRequests [⟨.identity "s1", some ada⟩, ⟨.markProvisioned 2000, false⟩] := by
    intro id who hmem
    rcases mem_cons.mp hmem with heq | hmem
    · cases heq
      exact ⟨⟨"s1", 2000, "ada", "/workspace/ada"⟩, by decide +kernel⟩
    · cases mem_singleton.mp hmem
  have henv : Emits (sessionEnv rootWithBroker "s1" "xterm" ada)
      [⟨.proxyOf "s1", some ⟨0, "s1", 4001⟩⟩]
      (.ok (childEnv rootWithBroker "xterm" ada ++
        ["ANTHROPIC_BASE_URL=" ++ SessionProxy.baseURL ⟨0, "s1", 4001⟩,
          "ANTHROPIC_AUTH_TOKEN=" ++ placeholderToken])) := by
    apply Emits.op
    exact .ret _
  obtain ⟨proxy, -, -, h⟩ := childEnv_exact hwho htr henv
  refine ⟨proxy, ?_⟩
  convert h using 1
  decide +kernel

end Lemul.Supervisor.Sessions
