import Lemul.MgmtApi.CallOutline

/-!
# Which placements share a credential

A workspace credential is a function of the organization, the name and the generation
(`creds.go:137-142`). A record's id is not part of it, and the generation of a new record
starts over (`queries.sql:83-86`), so a record that takes over the name of another derives
the other's credentials again. In every run in which no record takes over a name, a
credential determines the record it was derived for.
-/

namespace Lemul.MgmtApi

open Store List Workspaces Lemul.System

/-- The steps that give no record a name which another record of the organization has
had. -/
def namesNotReused : World → Label Op Res EnvMove Req → Prop
  | s, .thread _ (.createWorkspace tenantID name _ _) (.ok _) =>
      ∀ x ∈ s.named, x.2 ≠ ⟨tenantID, name⟩
  | s, .thread _ (.renameWorkspace tenantID id name) (.ok _) =>
      ∀ x ∈ s.named, x.2 = ⟨tenantID, name⟩ → x.1 = id
  | _, _ => True

instance (s : World) (l : Label Op Res EnvMove Req) : Decidable (namesNotReused s l) := by
  induction l using Label.casesOn with
  | thread tid o r =>
    induction o using Op.casesOn <;> first
      | (dsimp only [namesNotReused]; infer_instance)
      | (induction r using Except.casesOn <;> dsimp only [namesNotReused] <;> infer_instance)
  | _ => exact isTrue trivial

/-- A row a Go program and a `bigint` column can hold. -/
def Storable (w : Workspace) : Prop :=
  FitsInt w.tenantID ∧ FitsInt w.name ∧ w.generation < 2 ^ 63

structure NamesKept (cfg : Config) (s : World) : Prop where
  rows : ∀ w ∈ s.cell.rows, (w.id, ⟨w.tenantID, w.name⟩) ∈ s.named ∧ w.generation < 2 ^ 63
  owner : ∀ x ∈ s.named, ∀ y ∈ s.named, x.2 = y.2 → x.1 = y.1
  fits : ∀ x ∈ s.named, FitsInt x.2.tenantID ∧ FitsInt x.2.name
  placed : ∀ p ∈ s.placements, (p.id, ⟨p.tenantID, p.name⟩) ∈ s.named ∧
    p.generation < 2 ^ 63 ∧
    p.credential = cfg.signer.workspaceToken p.tenantID p.name p.generation

/-- What thread `tid` relies on. -/
def NamesRely (tid : Nat) (s s' : World) : Prop :=
  s'.reading tid = s.reading tid ∧ s.named <+: s'.named

/-- What an operation needs. -/
def NamesPre (cfg : Config) (tid : Nat) (o : Op) (s : World) : Prop :=
  match o with
  | .send _ (.startWorkspace m) =>
      (((s.reading tid).map (·.id)).getD [], ⟨m.tenantID, m.workspaceID⟩) ∈ s.named ∧
        m.generation < 2 ^ 63 ∧
        m.credential = cfg.signer.workspaceToken m.tenantID m.workspaceID m.generation
  | .createWorkspace tenantID name _ _ => FitsInt tenantID ∧ FitsInt name
  | .renameWorkspace _ _ name => FitsInt name
  | _ => True

variable {cfg : Config} {sc : Scope} {ws : Workspace} {tid : Nat} {o : Op} {r : Res o}
  {s s' : World}

/-! ## One step -/

/-- The names after an insert or a rename. -/
theorem named_cases (h : exec tid o r s = some s') (hpre : NamesPre cfg tid o s)
    (hcond : namesNotReused s (.thread tid o r)) (hinv : NamesKept cfg s) :
    s'.named = s.named ∨ ∃ x, s'.named = s.named ++ [x] ∧ (∀ y ∈ s.named, y.2 = x.2 → y.1 = x.1) ∧
      FitsInt x.2.tenantID ∧ FitsInt x.2.name := by
  cases o
  case createWorkspace tenantID name owner access =>
    simp only [exec] at h
    split at h
    · cases h
      exact .inl rfl
    · split at h
      · split at h <;> cases h
        exact .inr ⟨_, rfl, fun y hy heq => absurd heq (hcond y hy), hpre⟩
      · cases h
  case renameWorkspace tenantID id name =>
    simp only [exec] at h
    split at h
    · cases h
      exact .inl rfl
    · split at h <;> cases h
      rename_i row cell hrow hcell
      obtain ⟨hmem, -, htenant⟩ := getWorkspace_eq_some.mp hrow
      have hfits := (hinv.fits _ (hinv.rows row hmem).1).1
      exact .inr ⟨_, rfl, fun y hy heq => hcond y hy heq, htenant ▸ hfits, hpre⟩
  all_goals exact .inl ((exec_frame h).unnamed rfl rfl)

/-- Generations stay within the column. -/
theorem generation_lt (h : exec tid o r s = some s')
    (hrows : ∀ w ∈ s.cell.rows, w.generation < 2 ^ 63) :
    ∀ w' ∈ s'.cell.rows, w'.generation < 2 ^ 63 := by
  intro w' hw'
  cases exec_origin h hw' with
  | kept hw _ hgen =>
    rw [hgen]
    exact hrows _ hw
  | bumped _ _ hgen =>
    rw [hgen]
    exact exec_answered _ _ _ _ _ h
  | created hnew =>
    rw [hnew]
    exact Nat.two_pow_pos 63

/-- A placement is recorded with the record, the name and the credential it went out
with. -/
theorem placed_op (hinv : NamesKept cfg s) (hpre : NamesPre cfg tid o s)
    (h : exec tid o r s = some s') :
    ∀ p ∈ s'.placements, (p.id, ⟨p.tenantID, p.name⟩) ∈ s'.named ∧ p.generation < 2 ^ 63 ∧
      p.credential = cfg.signer.workspaceToken p.tenantID p.name p.generation := by
  intro p hp
  have hold : p ∈ s.placements → (p.id, ⟨p.tenantID, p.name⟩) ∈ s'.named ∧
      p.generation < 2 ^ 63 ∧
      p.credential = cfg.signer.workspaceToken p.tenantID p.name p.generation := by
    intro hmem
    obtain ⟨hnamed, hrest⟩ := hinv.placed p hmem
    exact ⟨(exec_frame h).named.subset hnamed, hrest⟩
  by_cases hsends : o.sends = false
  · rw [(exec_frame h).placements hsends] at hp
    exact hold hp
  · cases o <;> try exact absurd rfl hsends
    rename_i runner c
    rw [exec_send_placements h] at hp
    cases c with
    | startWorkspace m =>
      rcases mem_concat.mp hp with hmem | rfl
      · exact hold hmem
      · exact ⟨(exec_frame h).named.subset hpre.1, hpre.2⟩
    | stopWorkspace m | dropSnapshot id => exact hold hp

theorem NamesKept.op (hinv : NamesKept cfg s) (hpre : NamesPre cfg tid o s)
    (hcond : namesNotReused s (.thread tid o r)) (h : exec tid o r s = some s') :
    NamesKept cfg s' := by
  have hnamed := exec_rows_named h fun w hw => (hinv.rows w hw).1
  have hgen := generation_lt h fun w hw => (hinv.rows w hw).2
  refine ⟨fun w hw => ⟨hnamed w hw, hgen w hw⟩, ?_, ?_, placed_op hinv hpre h⟩
  · rcases named_cases h hpre hcond hinv with hsame | ⟨z, hz, howner, -⟩
    · rw [hsame]
      exact hinv.owner
    · rw [hz]
      intro x hx y hy heq
      simp only [mem_append, mem_singleton] at hx hy
      rcases hx with hx | rfl
      · rcases hy with hy | rfl
        · exact hinv.owner x hx y hy heq
        · exact howner x hx heq
      · rcases hy with hy | rfl
        · exact (howner y hy heq.symm).symm
        · rfl
  · rcases named_cases h hpre hcond hinv with hsame | ⟨z, hz, -, hfits⟩
    · rw [hsame]
      exact hinv.fits
    · rw [hz]
      intro x hx
      rcases mem_concat.mp hx with hx | rfl
      · exact hinv.fits x hx
      · exact hfits

theorem NamesKept.env {d : Driver} {e : EnvMove} (hinv : NamesKept cfg s)
    (h : envStep d e s = some s') : NamesKept cfg s' := by
  have hframe := envStep_untouched h
  refine ⟨?_, ?_, ?_, ?_⟩
  · rw [hframe.cell, hframe.named]
    exact hinv.rows
  · rw [hframe.named]
    exact hinv.owner
  · rw [hframe.named]
    exact hinv.fits
  · rw [hframe.placements, hframe.named]
    exact hinv.placed

def namesOutline (cfg : Config) : Outline (system cfg) namesNotReused where
  inv := NamesKept cfg
  rely := NamesRely
  pre := NamesPre cfg
  post _ _ _ := True
  rely_refl _ _ := ⟨rfl, List.prefix_refl _⟩
  rely_trans _ _ _ _ h₁ h₂ := ⟨h₂.1.trans h₁.1, h₁.2.trans h₂.2⟩
  op_ok hinv hpre hcond h :=
    ⟨hinv.op hpre hcond h, fun _ hne => ⟨(exec_frame h).readings _ hne, (exec_frame h).named⟩⟩
  env_ok hinv _ h := by
    refine ⟨hinv.env h, fun tid => ⟨congrFun (envStep_untouched h).reading tid, ?_⟩⟩
    rw [(envStep_untouched h).named]

/-! ## The handlers -/

/-- The thread works on a copy of `ws`, a record that has had the name it uses. -/
def Knows (tid : Nat) (sc : Scope) (ws : Workspace) (s : World) : Prop :=
  (s.reading tid).map (·.id) = some ws.id ∧ (ws.id, wsKey sc ws) ∈ s.named

theorem ensureWorkspace_names (h : Knows tid sc ws s) :
    (namesOutline cfg).Safe tid (ensureWorkspace cfg sc ws) (fun _ _ => True) s := by
  refine .mono (fun _ _ _ => trivial) <|
    Outline.safe_of_performs (K := Knows tid sc ws) ensureWorkspace_performs
      ?_ (exec_answered tid) ?_ ?_ h
  · intro s s' hrely hK
    exact ⟨by rw [hrely.1]; exact hK.1, hrely.2.subset hK.2⟩
  · intro o s ho _ hK
    cases o <;> try trivial
    obtain ⟨gen, hgen, rfl⟩ := ho
    refine ⟨?_, hgen, rfl⟩
    rw [hK.1]
    exact hK.2
  · intro o r s s' ho hexec hK
    refine ⟨?_, (exec_frame hexec).named.subset hK.2⟩
    rw [(exec_frame hexec).reading ho.reads]
    exact hK.1

/-- A program whose operations have nothing to meet. -/
theorem quiet_names {β : Type} {p : Api β}
    (hp : p.Performs Answered (fun o => ∀ s, NamesPre cfg tid o s)) :
    (namesOutline cfg).Safe tid p (fun _ _ => True) s :=
  Outline.safe_of_performs (K := fun _ => True) hp (fun _ _ _ _ => trivial)
    (exec_answered tid) (fun _ s ho _ _ => ho s) (fun _ _ _ _ _ _ _ => trivial) trivial

theorem StopOp.namesPre (ho : StopOp o) : ∀ s, NamesPre cfg tid o s := by
  intro s
  cases o with
  | send runner c => cases c <;> trivial
  | _ => trivial

theorem DialOp.namesPre (ho : DialOp o) : ∀ s, NamesPre cfg tid o s := by
  intro s
  cases o <;> trivial

variable {name : GoString} {generate : Nat → GoString} {access : AccessScope}

/-- What reading a row by its name gives. -/
theorem knows_of_read (hinv : NamesKept cfg s)
    (h : exec tid (.getWorkspaceByName sc.tenantID name) (.ok ws) s = some s') :
    Knows tid sc ws s' := by
  obtain ⟨hmem, -, htenant⟩ :=
    getWorkspaceByName_eq_some.mp (exec_getWorkspaceByName h)
  refine ⟨exec_reads_id h, (exec_frame h).named.subset ?_⟩
  rw [wsKey, ← htenant]
  exact (hinv.rows ws hmem).1

/-- What inserting it gives. -/
theorem knows_of_create {owner : GoString}
    (h : exec tid (.createWorkspace sc.tenantID name owner access) (.ok ws) s = some s') :
    Knows tid sc ws s' := by
  simp only [exec] at h
  split at h
  · rename_i hnew
    split at h <;> cases h
    refine ⟨?_, ?_⟩
    · simp only [Function.update_self, Option.map_some]
    · refine mem_append_right _ (mem_singleton.mpr ?_)
      rw [wsKey, show ws.name = name from congrArg Workspace.name hnew.1]
  · cases h

theorem created_names (h : Knows tid sc ws s) :
    (namesOutline cfg).Safe tid (created cfg sc ws) (fun _ _ => True) s := by
  refine .bind ?_
  refine safe_call fun s₁ hrely _ => ⟨trivial, fun marked s₂ hexec _ _ => ?_⟩
  have h₂ : Knows tid sc ws s₂ := by
    refine ⟨?_, (exec_frame hexec).named.subset (hrely.2.subset h.2)⟩
    rw [(exec_frame hexec).reading rfl, hrely.1]
    exact h.1
  refine .bind ((ensureWorkspace_names ?_).mono fun _ _ _ => trivial)
  cases marked with
  | error e | ok u => exact h₂

theorem fitsInt_of_valid (h : validWorkspaceName name = none) :
    FitsInt name := by
  have hlen := validWorkspaceName_length h
  unfold FitsInt
  omega

theorem names_admission : Admission (namesOutline cfg) tid sc
    (fun name => FitsInt sc.tenantID ∧ FitsInt name) (fun _ => True) (Knows tid sc) where
  rely _ h := h
  reads _ := trivial
  creates hname _ := hname
  own _ _ h := h
  found hinv h _ := knows_of_read hinv h
  created h _ := knows_of_create h

theorem handleRenameWorkspace_names :
    (namesOutline cfg).Safe tid (handleRenameWorkspace sc ws name) (fun _ _ => True) s := by
  unfold handleRenameWorkspace
  split
  · trivial
  · split
    · trivial
    · rename_i hvalid
      split
      · trivial
      · refine safe_call fun s₁ _ _ => ⟨trivial, fun picked s₂ _ _ _ => ?_⟩
        cases picked with
        | some t => trivial
        | none =>
          dsimp only
          split
          · trivial
          · refine safe_call fun s₃ _ _ => ⟨fitsInt_of_valid hvalid, fun r s₄ _ _ _ => ?_⟩
            cases r with
            | ok u => trivial
            | error e => cases e <;> trivial

/-- A handler that looks its record up. -/
theorem withWorkspace_names {k : Workspace → Api Outcome}
    (hk : ∀ ws s, Knows tid sc ws s → (namesOutline cfg).Safe tid (k ws) (fun _ _ => True) s) :
    (namesOutline cfg).Safe tid (withWorkspace sc name k) (fun _ _ => True) s :=
  withWorkspace_admitted names_admission trivial (fun _ _ _ _ => trivial) hk

theorem spawn_names {q : Req} {p : Api Outcome} (h : spawn cfg q s = some p) :
    (namesOutline cfg).Safe tid p (fun _ _ => True) s := by
  cases q with
  | ensure sc name =>
    cases h
    exact withWorkspace_names fun ws s hknows =>
      .bind ((ensureWorkspace_names hknows).mono fun _ _ _ => trivial)
  | sweep tenantID name sessions now =>
    cases h
    exact .bind (quiet_names ((sweepWorkspace_performs ..).mono fun _ ho => ho.namesPre))
  | create sc access name generate =>
    obtain ⟨hrequest, rfl⟩ := spawn_create h
    exact handleCreateWorkspace_admitted names_admission
      (fun n hn => ⟨hrequest.1, fitsInt_of_valid hn⟩)
      (fun i hi => ⟨hrequest.1, fitsInt_of_valid (hrequest.2 i hi)⟩) trivial
      (fun _ _ _ _ => trivial) fun _ _ h => created_names h
  | rename sc name newName =>
    cases h
    exact withWorkspace_names fun ws s _ => handleRenameWorkspace_names
  | delete sc name force =>
    cases h
    exact withWorkspace_names fun ws s _ =>
      quiet_names ((handleDeleteWorkspace_performs force).mono fun _ ho => ho.namesPre)
  | dial task tenant workspace version =>
    obtain ⟨t, -, rfl⟩ := spawn_dial h
    exact quiet_names ((handleWorkspaceTunnel_performs ..).mono fun _ ho => ho.namesPre)

/-! ## Every run -/

theorem namesKept_boot {cell : Workspaces} (hcell : ∀ w ∈ cell.rows, Storable w) :
    NamesKept cfg (World.init cell) := by
  refine ⟨?_, ?_, ?_, ?_⟩
  · intro w hw
    exact ⟨mem_map_of_mem (f := fun w => (w.id, (⟨w.tenantID, w.name⟩ : WsKey))) hw,
      (hcell w hw).2.2⟩
  · intro x hx y hy heq
    obtain ⟨v, hv, rfl⟩ := mem_map.mp hx
    obtain ⟨w, hw, rfl⟩ := mem_map.mp hy
    rw [eq_of_name hv hw (congrArg WsKey.tenantID heq) (congrArg WsKey.name heq)]
  · intro x hx
    obtain ⟨w, hw, rfl⟩ := mem_map.mp hx
    exact ⟨(hcell w hw).1, (hcell w hw).2.1⟩
  · exact nofun

/-- The credential of a placement is that of no other name or generation. -/
theorem NamesKept.credential_inj (hinv : NamesKept cfg s) (hfree : cfg.signer.CollisionFree)
    {p : Placement} (hp : p ∈ s.placements) {x : GoString × WsKey} (hx : x ∈ s.named) {gen : Nat}
    (hgen : gen < 2 ^ 63)
    (h : p.credential = cfg.signer.workspaceToken x.2.tenantID x.2.name gen) :
    p.id = x.1 ∧ p.generation = gen := by
  obtain ⟨hnamed, hpgen, hcredential⟩ := hinv.placed p hp
  obtain ⟨hpt, hpn⟩ := hinv.fits _ hnamed
  obtain ⟨hxt, hxn⟩ := hinv.fits x hx
  obtain ⟨htenant, hname, hsame⟩ := Creds.Signer.workspaceToken_inj hfree hpt hxt hpn hxn
    (Nat.lt_trans hpgen (by decide)) (Nat.lt_trans hgen (by decide)) (hcredential.symm.trans h)
  have hkey : (⟨p.tenantID, p.name⟩ : WsKey) = x.2 := by
    rw [show p.tenantID = x.2.tenantID from htenant, show p.name = x.2.name from hname]
  exact ⟨hinv.owner _ hnamed x hx hkey, hsame⟩

/-- In every run in which no record takes over a name: two placements of different
records, or of one record at different generations, have different credentials, and no
row authorizes a dial with the credential of another record's placement. -/
theorem credentials_tell_records_apart (cfg : Config) (hfree : cfg.signer.CollisionFree)
    (cell : Workspaces) (hcell : ∀ w ∈ cell.rows, Storable w)
    {tr : Schedule} {pool : ApiPool}
    (hrun : Path (system cfg) namesNotReused (boot cell) tr pool) :
    (∀ p ∈ pool.shared.placements, ∀ q ∈ pool.shared.placements,
        (p.id, p.generation) ≠ (q.id, q.generation) → p.credential ≠ q.credential) ∧
      ∀ p ∈ pool.shared.placements, ∀ w ∈ pool.shared.cell.rows, w.id ≠ p.id →
        ∀ version, authorizes cfg pool.shared ⟨w.tenantID, w.name, p.credential, version⟩ =
          false := by
  have hstart : (namesOutline cfg).Holds (boot cell) :=
    ⟨namesKept_boot hcell, nofun⟩
  have hinv : NamesKept cfg pool.shared :=
    ((namesOutline cfg).sound (fun _ _ _ _ _ _ h => spawn_names h) hstart hrun).1
  refine ⟨fun p hp q hq hne heq => ?_, fun p hp w hw hne version => ?_⟩
  · obtain ⟨hnamed, hgen, hcredential⟩ := hinv.placed q hq
    obtain ⟨hid, hsame⟩ := hinv.credential_inj hfree hp hnamed hgen (heq.trans hcredential)
    exact hne (Prod.ext hid hsame)
  · obtain ⟨hnamed, hgen⟩ := hinv.rows w hw
    have hbyName : pool.shared.cell.getWorkspaceByName w.tenantID w.name = some w :=
      getWorkspaceByName_eq_some.mpr ⟨hw, rfl, rfl⟩
    simp only [authorizes, hbyName]
    rw [← Bool.not_eq_true, Creds.Signer.verifyWorkspace_iff]
    intro heq
    exact hne (hinv.credential_inj hfree hp hnamed hgen heq).1.symm

/-! ## A name that is taken over -/

/-- A request places a task for record `w1`; the tunnel of the task drops. -/
def placedAndDropped : Schedule :=
  ([.env (.runnerUp "acme" "runner"),
     .spawn (.ensure demoScope "api"),
     .thread 0 (.getWorkspaceByName "acme" "api") (.ok demoRow),
     .thread 0 (.lock (lockKey demoScope demoRow)) (),
     .thread 0 (.pickWorkspace demoKey) none] : Schedule) ++
  demoDispatch 0 demoRow 1 0 ++
  ([.env (.handle 0 (.placed "task-1"))] : Schedule) ++
  demoArrival 0 demoRow 0 "task-1" 0 1 0 1 (demoRowAt 1 .starting (some "task-1") none none) ++
  ([.env (.tunnelDown 1),
     .thread 1 (.drainEvents (demoTunnel 1)) (),
     .thread 1 (.removeWorkspace (demoTunnel 1)) ()] : Schedule)

/-- The row a second create of the name inserts. -/
def secondRow : Workspace :=
  Workspaces.newWorkspace "w2" "acme" "api" "ana" .org

/-- The workspace is deleted, with a stop that is not acknowledged, and created again
under its name; record `w2` is placed at its first generation. -/
def recreated : Schedule :=
  ([.spawn (.delete demoScope "api" false),
     .thread 2 (.getWorkspaceByName "acme" "api")
       (.ok (demoRowAt 1 .active (some "task-1") none none)),
     .thread 2 (.listSessions "acme" "w1") (.ok 0),
     .thread 2 (.pickRunner "acme") (some demoRunner),
     .thread 2 (.send demoRunner (.stopWorkspace ⟨"api", "task-1", false⟩)) (.ok 1),
     .thread 2 (.recv 1) (.error "i/o timeout"),
     .thread 2 (.deleteWorkspace "acme" "w1") (.ok ()),
     .spawn (.create demoScope "org" (.value "api") (fun _ => "blue-fox")),
     .thread 3 (.createWorkspace "acme" "api" "ana" .org) (.ok secondRow),
     .thread 3 (.setWorkspaceStatus "acme" "w2" .starting []) (.ok ()),
     .thread 3 (.lock (lockKey demoScope demoRow)) (),
     .thread 3 (.pickWorkspace demoKey) none] : Schedule) ++
  demoDispatch 3 secondRow 1 2

def takenOver : ApiPool :=
  final (system demoConfig) anyStep (boot demoCell) (placedAndDropped ++ recreated)

/-- Records `w1` and `w2` are placed with the same credential, and the task that is left
over from `w1` is authorized as a task of `w2`. -/
theorem recreated_workspace_shares_credential :
    ∃ (tr : Schedule) (pool : ApiPool) (p q : Placement),
      Path (system demoConfig) anyStep (boot demoCell) tr pool ∧
      p ∈ pool.shared.placements ∧ q ∈ pool.shared.placements ∧ p.id ≠ q.id ∧
      p.credential = q.credential ∧
      (∃ t ∈ pool.shared.tasks, t.running = true ∧ t.spec.credential = p.credential) ∧
      (∃ w ∈ pool.shared.cell.rows, w.id = q.id) ∧
      authorizes demoConfig pool.shared ⟨"acme", "api", p.credential, "1"⟩ = true := by
  have hrun : Path (system demoConfig) anyStep (boot demoCell) _ takenOver :=
    final_path (by decide +kernel)
  refine ⟨_, takenOver,
    ⟨"w1", "acme", "api", 1,
      demoConfig.signer.workspaceToken "acme" "api" 1⟩,
    ⟨"w2", "acme", "api", 1,
      demoConfig.signer.workspaceToken "acme" "api" 1⟩,
    hrun, ?_⟩
  decide +kernel

/-- The same workspace is placed again instead. -/
def replacedOnce : Schedule :=
  ([.spawn (.ensure demoScope "api"),
     .thread 2 (.getWorkspaceByName "acme" "api")
       (.ok (demoRowAt 1 .active (some "task-1") none none)),
     .thread 2 (.lock (lockKey demoScope demoRow)) (),
     .thread 2 (.pickWorkspace demoKey) none,
     .thread 2 (.waitWorkspace demoKey) (.inr 1),
     .thread 2 (.receive demoKey 1) (.error "context deadline exceeded")] : Schedule) ++
  demoDispatch 2 demoRow 2 1

def placedTwice : ApiPool :=
  final (system demoConfig) namesNotReused (boot demoCell) (placedAndDropped ++ replacedOnce)

theorem demoConfig_collisionFree : demoConfig.signer.CollisionFree := by
  intro a b h
  exact append_cancel_left (cons.inj h).2

theorem credentials_tell_records_apart_placed :
    demoConfig.signer.workspaceToken "acme" "api" 1 ≠
      demoConfig.signer.workspaceToken "acme" "api" 2 := by
  have hrun : Path (system demoConfig) namesNotReused (boot demoCell) _ placedTwice :=
    final_path (by decide +kernel)
  have hcell : ∀ w ∈ demoCell.rows, Storable w := by
    intro w hw
    rw [mem_singleton.mp hw]
    exact ⟨by decide, by decide, by decide⟩
  refine (credentials_tell_records_apart demoConfig demoConfig_collisionFree demoCell hcell
    hrun).1 ⟨"w1", "acme", "api", 1, _⟩ ?_ ⟨"w1", "acme", "api", 2, _⟩ ?_ ?_
  · decide +kernel
  · decide +kernel
  · decide

end Lemul.MgmtApi
