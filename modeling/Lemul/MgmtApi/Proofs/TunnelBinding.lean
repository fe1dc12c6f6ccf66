import Lemul.MgmtApi.CallOutline
import Lemul.MgmtApi.PlacementRule
import Lemul.MgmtApi.Proofs.TunnelInvariant

/-!
# The tunnel `ensureWorkspace` returns

`ensureWorkspace` gets a tunnel in three ways: from the registry, from a channel it waited
on for the old task, or from one it waited on after a placement. In every run whose steps
are `boundSteps` it belongs to a task of the record the call was given, at the generation
the row holds when the call returns: the lock keeps the generation where it was when the
tunnel was taken.
-/

namespace Lemul.MgmtApi

open Store Function Lemul.System List

/-- What must hold when a request is answered. -/
def TunnelPost : Outcome → World → Prop
  | .ensured ws (.ok t), s => PlacedFor s t ws
  | _, _ => True

def tunnelOutline (cfg : Config) : Outline (system cfg) boundSteps where
  inv := TunnelsBound
  rely := TunnelRely
  pre := TunnelPre
  post _ := TunnelPost
  rely_refl := TunnelRely.refl
  rely_trans _ _ _ _ := TunnelRely.trans
  op_ok hinv hpre hcond h := ⟨hinv.op hpre hcond h, fun _ => TunnelRely.of_op hinv hpre hcond h⟩
  env_ok hinv _ h := ⟨hinv.env h, fun _ => TunnelRely.of_env h⟩

variable {cfg : Config} {sc : Scope} {ws : Workspace} {tid : Nat} {o : Op} {r : Res o}
  {s s' : World} {t : Tunnel}

/-! ## What a thread inside `ensureWorkspace` knows -/

/-- The thread works on a copy of `ws`, whose row, as long as there is one, has the name
the call uses. -/
structure Given (tid : Nat) (sc : Scope) (ws : Workspace) (s : World) : Prop where
  reading : (s.reading tid).map (·.id) = some ws.id
  row : ∀ w ∈ s.cell.rows, w.id = ws.id → w.tenantID = sc.tenantID ∧ w.name = ws.name

/-- It also holds the lock of that name. -/
structure Placing (tid : Nat) (sc : Scope) (ws : Workspace) (s : World) : Prop
    extends Given tid sc ws s where
  held : s.held (lockKey sc ws) = some tid

theorem lockOf_eq {w : Workspace} (h : w.tenantID = sc.tenantID ∧ w.name = ws.name) :
    lockOf w = lockKey sc ws := by
  rw [lockOf, lockKey, h.1, h.2]

theorem reading_of_map {x : Option Reading} {id : GoString} (h : x.map (·.id) = some id) :
    ∃ rd, x = some rd ∧ rd.id = id := Option.map_eq_some_iff.mp h

theorem Given.of_rely (h : Given tid sc ws s) (hrely : TunnelRely tid s s') :
    Given tid sc ws s' := by
  refine ⟨?_, ?_⟩
  · rw [hrely.reading]
    exact h.reading
  · intro w' hw' hid
    obtain ⟨rd, hrd, hrdid⟩ := reading_of_map h.reading
    obtain ⟨w, hw, hwid, htenant, hname, -⟩ := hrely.row rd hrd w' hw' (hid.trans hrdid.symm)
    rw [← htenant, ← hname]
    exact h.row w hw (hwid.trans hid)

theorem Given.of_exec (h : Given tid sc ws s) (hexec : exec tid o r s = some s')
    (hreads : o.reads = false) (hcreates : o.creates = false) (hrenames : o.renames = false) :
    Given tid sc ws s' := by
  refine ⟨?_, ?_⟩
  · rw [(exec_frame hexec).reading hreads]
    exact h.reading
  · intro w' hw' hid
    obtain ⟨w, hw, hfrom⟩ := exec_row hexec hcreates hw'
    rw [hfrom.tenantID, hfrom.name hrenames]
    exact h.row w hw (hfrom.id ▸ hid)

/-- The record a thread was given has its row, at its old generation, if it is there. -/
theorem Placing.row_of_rely (h : Placing tid sc ws s) (hrely : TunnelRely tid s s')
    {w' : Workspace} (hw' : w' ∈ s'.cell.rows) (hid : w'.id = ws.id) :
    ∃ w ∈ s.cell.rows, w.id = ws.id ∧ w.tenantID = w'.tenantID ∧ w.name = w'.name ∧
      w.generation = w'.generation := by
  obtain ⟨rd, hrd, hrdid⟩ := reading_of_map h.reading
  obtain ⟨w, hw, hwid, htenant, hname, hgen⟩ := hrely.row rd hrd w' hw' (hid.trans hrdid.symm)
  have hwid' := hwid.trans hid
  refine ⟨w, hw, hwid', htenant, hname, hgen ?_⟩
  rw [lockOf_eq (h.row w hw hwid')]
  exact h.held

theorem Placing.of_rely (h : Placing tid sc ws s) (hrely : TunnelRely tid s s') :
    Placing tid sc ws s' :=
  ⟨h.toGiven.of_rely hrely, (hrely.held _).mpr h.held⟩

theorem PlacedFor.of_rely (h : PlacedFor s t ws) (hplacing : Placing tid sc ws s)
    (hrely : TunnelRely tid s s') : PlacedFor s' t ws := by
  obtain ⟨task, htask, horigin, hgen⟩ := h
  obtain ⟨task', htask', hspec', horigin'⟩ := taskOf_grows hrely.grows hrely.sessions htask
  refine ⟨task', htask', horigin' ▸ horigin, fun w' hw' hid => ?_⟩
  obtain ⟨w, hw, hwid, -, -, hsame⟩ := hplacing.row_of_rely hrely hw' hid
  rw [hspec', ← hsame]
  exact hgen w hw hwid

/-- Its own operations do not disturb it either. -/
theorem Placing.of_exec (h : Placing tid sc ws s) (hexec : exec tid o r s = some s')
    (hreads : o.reads = false) (hcreates : o.creates = false) (hrenames : o.renames = false)
    (hlocks : o.locks = false) : Placing tid sc ws s' := by
  refine ⟨h.toGiven.of_exec hexec hreads hcreates hrenames, ?_⟩
  rw [(exec_frame hexec).held hlocks]
  exact h.held

theorem PlacedFor.of_exec (h : PlacedFor s t ws) (hcreates : o.creates = false)
    (hbumps : o.bumps = false) (hexec : exec tid o r s = some s') : PlacedFor s' t ws := by
  obtain ⟨task, htask, horigin, hgen⟩ := h
  obtain ⟨task', htask', hspec', horigin'⟩ :=
    taskOf_grows (exec_grows hexec) (exec_frame hexec).sessions htask
  refine ⟨task', htask', horigin' ▸ horigin, fun w' hw' hid => ?_⟩
  obtain ⟨w, hw, hfrom⟩ := exec_row hexec hcreates hw'
  rw [hspec', hfrom.generation hbumps]
  exact hgen w hw (hfrom.id ▸ hid)

/-! ## Taking a tunnel -/

/-- A registered tunnel of the record's name, while the record exists. -/
theorem Placing.placedFor (h : Placing tid sc ws s) (hinv : TunnelsBound s)
    (hexists : recordExists s tid) (ht : s.reg.pickWorkspace (wsKey sc ws) = some t) :
    PlacedFor s t ws := by
  obtain ⟨row, hrow, hid⟩ := hexists
  rw [h.reading] at hid
  have hrowid : row.id = ws.id := (Option.some.inj hid).symm
  obtain ⟨htenant, hname⟩ := h.row row hrow hrowid
  obtain ⟨task, htask, hserves⟩ :=
    hinv.registered _ t (Registry.mem_of_pickWorkspace ht)
  obtain ⟨horigin, hgen⟩ := hserves row hrow htenant hname
  refine ⟨task, htask, hrowid ▸ horigin, fun w hw hwid => ?_⟩
  rw [Workspaces.eq_of_id hw hrow (hwid.trans hrowid.symm)]
  exact hgen

/-- A tunnel handed over on a channel the thread made for the record's name. -/
theorem Placing.placedFor_of_handed (h : Placing tid sc ws s) (hexists : recordExists s tid)
    (hkey : t.key = wsKey sc ws) (hhanded : Handed s tid t) : PlacedFor s t ws := by
  obtain ⟨row, hrow, hid⟩ := hexists
  rw [h.reading] at hid
  have hrowid : row.id = ws.id := (Option.some.inj hid).symm
  have hnames := h.row row hrow hrowid
  obtain ⟨task, htask, hrows⟩ := hhanded
  obtain ⟨rd, hrd, hrdid⟩ := reading_of_map h.reading
  have hheld : s.held (lockOf row) = some tid := by
    rw [lockOf_eq hnames]
    exact h.held
  obtain ⟨horigin, hgen⟩ := hrows rd hrd row hrow (hrowid.trans hrdid.symm)
    (by rw [hkey, wsKey, hnames.1, hnames.2]) hheld
  refine ⟨task, htask, hrowid ▸ horigin, fun w hw hwid => ?_⟩
  rw [Workspaces.eq_of_id hw hrow (hwid.trans hrowid.symm)]
  exact hgen

/-- What a part of `ensureWorkspace` that ends with a result leaves behind. -/
def Ended (tid : Nat) (sc : Scope) (ws : Workspace) (r : Except GoString Tunnel) (s : World) :
    Prop :=
  Placing tid sc ws s ∧ ∀ t, r = .ok t → PlacedFor s t ws

/-- A tunnel the thread has just taken. -/
theorem Placing.took (h : Placing tid sc ws s) (ht : PlacedFor s t ws) :
    Ended tid sc ws (.ok t) s := ⟨h, fun _ heq => by cases heq; exact ht⟩

/-- The operations of a placement meet their obligations. -/
theorem Placing.pre (h : Placing tid sc ws s) (ho : PlacementOp cfg sc ws o) :
    TunnelPre tid o s := by
  cases o <;> try trivial
  · obtain ⟨rfl, rfl⟩ := ho
    intro w hw hid _
    rw [lockOf_eq (h.row w hw hid)]
    exact h.held

variable {β : Type} {generate : Nat → GoString} {access : AccessScope} {name : GoString}
  {p : Api β}

/-! ## `ensureWorkspace` -/

/-- What the thread knows at each stage: nothing has been sent on a channel it has just made,
and a tunnel it has taken is one of its record's. -/
def BoundAt (tid : Nat) (sc : Scope) (ws : Workspace) : Stage → World → Prop
  | .receiving _ ch, s =>
      Placing tid sc ws s ∧ s.channels[ch]? = some (wsKey sc ws) ∧ s.delivered ch = none
  | .activating _ t, s => Ended tid sc ws (.ok t) s
  | .ended got, s => Ended tid sc ws got s
  | _, s => Placing tid sc ws s

theorem BoundAt.placing {st : Stage} (h : BoundAt tid sc ws st s) : Placing tid sc ws s := by
  cases st <;> first | exact h | exact h.1

theorem BoundAt.waited {ref : Option GoString} {got : Except GoString Tunnel}
    (h : Ended tid sc ws got s) : BoundAt tid sc ws (.waited ws ref got) s := by
  cases ref <;> cases got <;> first | exact h | exact h.1

theorem ensureLocked_bound :
    Follows (tunnelOutline cfg) cfg sc ws tid (BoundAt tid sc ws) where
  answered := exec_answered tid _ _ _ _
  step {st o f s s₁} hnext ho h hrely hinv := by
    have h₁ := h.placing.of_rely hrely
    refine ⟨h₁.pre ho, fun r s₂ hexec hcond _ => ?_⟩
    replace hexec : exec tid o r s₁ = some s₂ := hexec
    have h₂ := h₁.of_exec hexec ho.reads ho.creates ho.renames ho.locks
    cases st <;> cases hnext
    case picking =>
      cases r with
      | some t =>
        obtain ⟨hpick, rfl⟩ := exec_pickWorkspace hexec
        exact h₁.took (h₁.placedFor hinv hcond hpick)
      | none =>
        dsimp only
        split <;> exact h₂
    case waiting ref =>
      cases r with
      | inl t =>
        obtain ⟨hpick, rfl⟩ := exec_waitWorkspace_now hexec
        exact .waited (h₁.took (h₁.placedFor hinv hcond hpick))
      | inr ch =>
        obtain ⟨rfl, rfl⟩ := exec_waitWorkspace_later hexec
        refine ⟨h₂, getElem?_concat_length, ?_⟩
        refine Option.eq_none_iff_forall_not_mem.mpr fun t ht => ?_
        exact absurd (hinv.filled _ t ht) (Nat.lt_irrefl _)
    case receiving ref ch =>
      cases r with
      | error e => exact .waited ⟨h₂, nofun⟩
      | ok t =>
        obtain ⟨hgot, rfl⟩ := exec_received hexec
        refine .waited (h₁.took ?_)
        -- the channel was empty when it was made, so `t` was sent on it since
        rcases hrely.delivered ch t hgot with hold | ⟨hkey, hhanded⟩
        · cases h.2.2.symm.trans hold
        · rw [getElem?_grown hrely.channels h.2.1] at hkey
          exact h₁.placedFor_of_handed hcond (Option.some.inj hkey).symm hhanded
    case hearing =>
      rcases r with e | reply
      · exact h₂
      · cases reply <;> exact h₂
    case activating ref t =>
      exact h₂.took (((h.2 t rfl).of_rely h.1 hrely).of_exec rfl rfl hexec)
    case failing => exact ⟨h₂, nofun⟩
    case marking => exact h₂
    case recording => exact h₂
    all_goals cases r <;> exact h₂

/-- The result of `ensureWorkspace`, at the moment it returns. -/
theorem ensureWorkspace_bound (h : Given tid sc ws s) :
    (tunnelOutline cfg).Safe tid (ensureWorkspace cfg sc ws)
      (fun r s' => ∀ t, r = .ok t → PlacedFor s' t ws) s := by
  refine safe_call fun s₁ hrely₁ _ => ⟨trivial, fun _ s₂ hlock _ _ => ?_⟩
  have h₂ : Given tid sc ws s₂ := (h.of_rely hrely₁).of_exec hlock rfl rfl rfl
  have hheld : s₂.held (lockKey sc ws) = some tid := by
    simp only [exec] at hlock
    split at hlock <;> cases hlock
    exact update_self _ _ _
  have hpicking : BoundAt tid sc ws .picking s₂ := ⟨h₂, hheld⟩
  refine .bind ((ensureLocked_follows ensureLocked_bound hpicking).mono fun r s₃ hended => ?_)
  obtain ⟨h₃, htunnel⟩ := hended
  refine safe_call fun s₄ hrely₂ _ => ⟨trivial, fun _ s₅ hunlock _ _ t ht => ?_⟩
  exact ((htunnel t ht).of_rely h₃ hrely₂).of_exec rfl rfl hunlock

/-! ## The requests -/

/-- A program whose operations have nothing to meet. -/
theorem quiet_bound (hp : p.Performs Answered (fun o => ∀ s, TunnelPre tid o s)) :
    (tunnelOutline cfg).Safe tid p (fun _ _ => True) s :=
  Outline.safe_of_performs (K := fun _ => True) hp (fun _ _ _ _ => trivial)
    (exec_answered tid) (fun _ s ho _ _ => ho s) (fun _ _ _ _ _ _ _ => trivial) trivial

theorem StopOp.tunnelPre (ho : StopOp o) : ∀ s, TunnelPre tid o s := by
  intro s
  cases o <;> trivial

theorem stop_bound (hp : p.Performs Answered StopOp) :
    (tunnelOutline cfg).Safe tid p (fun _ _ => True) s :=
  quiet_bound (hp.mono fun _ ho => ho.tunnelPre)

/-- What reading a row by its name gives. -/
theorem given_of_read (h : exec tid (.getWorkspaceByName sc.tenantID name) (.ok ws) s = some s') :
    Given tid sc ws s' := by
  obtain ⟨hmem, -, htenant⟩ :=
    Workspaces.getWorkspaceByName_eq_some.mp (exec_getWorkspaceByName h)
  refine ⟨exec_reads_id h, fun w hw hid => ?_⟩
  rw [(exec_frame h).cell rfl] at hw
  rw [Workspaces.eq_of_id hw hmem hid]
  exact ⟨htenant, rfl⟩

/-- What inserting it gives. -/
theorem given_of_create {owner : GoString}
    (h : exec tid (.createWorkspace sc.tenantID name owner access) (.ok ws) s = some s') :
    Given tid sc ws s' := by
  simp only [exec] at h
  split at h
  · rename_i hnew
    split at h <;> cases h
    rename_i cell hcell
    have hmem : ws ∈ cell.rows := by
      rw [Workspaces.createWorkspace_rows hcell]
      exact mem_append_right _ (mem_singleton_self ws)
    refine ⟨?_, fun w hw hid => ?_⟩
    · simp only [update_self, Option.map_some]
    · rw [Workspaces.eq_of_id hw hmem hid]
      exact ⟨congrArg Workspace.tenantID hnew.1, rfl⟩
  · cases h

theorem created_bound (h : Given tid sc ws s) :
    (tunnelOutline cfg).Safe tid (created cfg sc ws) TunnelPost s := by
  refine .bind ?_
  refine safe_call fun s₁ hrely _ => ⟨trivial, fun marked s₂ hexec _ _ => ?_⟩
  have h₂ : Given tid sc ws s₂ := (h.of_rely hrely).of_exec hexec rfl rfl rfl
  refine .bind ((ensureWorkspace_bound ?_).mono fun r s₃ hr => ?_)
  · cases marked with
    | error e => exact h₂
    | ok u => exact ⟨h₂.reading, h₂.row⟩
  · cases r with
    | error e => trivial
    | ok t => exact hr t rfl

/-- Any thread may read or insert a row. -/
theorem bound_admission : Admission (tunnelOutline cfg) tid sc (fun _ => True) (fun _ => True)
    (Given tid sc) where
  rely _ h := h
  reads _ := trivial
  creates _ _ := trivial
  own _ _ h := h
  found _ h _ := given_of_read h
  created h _ := given_of_create h

theorem handleDeleteWorkspace_bound {force : Bool} :
    (tunnelOutline cfg).Safe tid (handleDeleteWorkspace sc ws force) TunnelPost s := by
  refine safe_call fun s₁ _ _ => ⟨trivial, fun sessions s₂ _ _ _ => ?_⟩
  cases sessions with
  | error e => trivial
  | ok sessions =>
    dsimp only
    split
    · trivial
    · refine .bind ((stop_bound (stopWorkspaceTask_performs)).mono fun _ s₃ _ => ?_)
      refine safe_call fun s₄ _ _ => ⟨trivial, fun deleted s₅ _ _ _ => ?_⟩
      cases deleted <;> trivial

/-- The channels `AddWorkspace` sends the tunnel on wait for its key. -/
theorem notifyAll_bound {waiters : List Nat}
    (h : ∀ ch ∈ waiters, s.channels[ch]? = some t.key) :
    (tunnelOutline cfg).Safe tid (notifyAll t waiters) (fun _ _ => True) s := by
  induction waiters generalizing s with
  | nil => trivial
  | cons ch waiters ih =>
    refine safe_call fun s₁ hrely _ => ?_
    have h₁ : ∀ c ∈ ch :: waiters, s₁.channels[c]? = some t.key :=
      fun c hc => getElem?_grown hrely.channels (h c hc)
    refine ⟨h₁ ch (mem_cons_self ..), fun _ s₂ hexec _ _ => ih fun c hc => ?_⟩
    exact getElem?_grown (exec_frame hexec).channels (h₁ c (mem_cons_of_mem _ hc))

theorem serveTunnel_bound :
    (tunnelOutline cfg).Safe tid (serveTunnel t) (fun _ _ => True) s := by
  refine safe_call fun s₁ _ hinv₁ => ⟨trivial, fun waiters s₂ hexec _ _ => ?_⟩
  have hwaiters : ∀ ch ∈ waiters, s₂.channels[ch]? = some t.key := by
    simp only [exec] at hexec
    split at hexec
    · rename_i hadd
      cases hexec
      rw [← hadd]
      exact hinv₁.waiting t.key
    · cases hexec
  refine .bind ((notifyAll_bound hwaiters).mono fun _ s₃ _ => ?_)
  exact quiet_bound ⟨fun _ => trivial, fun _ _ => ⟨fun _ => trivial, fun _ _ => trivial⟩⟩

theorem handleWorkspaceTunnel_bound {peer : Peer} {d : Dial} :
    (tunnelOutline cfg).Safe tid (handleWorkspaceTunnel cfg peer d) TunnelPost s := by
  unfold handleWorkspaceTunnel
  split
  · trivial
  · refine safe_call fun s₁ _ _ => ⟨trivial, fun row s₂ _ _ _ => ?_⟩
    cases row with
    | error e => trivial
    | ok w =>
      dsimp only
      split
      · trivial
      · cases checkProtocol d.version with
        | some e => trivial
        | none =>
          refine safe_call fun s₃ _ _ => ⟨trivial, fun sess s₄ _ _ _ => ?_⟩
          cases sess with
          | none => trivial
          | some sess => exact .bind (serveTunnel_bound.mono fun _ _ _ => trivial)

theorem spawn_bound {q : Req} {p : Api Outcome} (hcond : boundSteps s (.spawn q))
    (h : spawn cfg q s = some p) : (tunnelOutline cfg).Safe tid p TunnelPost s := by
  cases q with
  | ensure sc name =>
    cases h
    refine withWorkspace_admitted bound_admission trivial (fun _ _ _ _ => trivial)
      fun ws s hgiven => ?_
    refine .bind ((ensureWorkspace_bound hgiven).mono fun r s' hr => ?_)
    cases r with
    | error e => trivial
    | ok t => exact hr t rfl
  | sweep tenantID name sessions now =>
    cases h
    exact .bind ((stop_bound (sweepWorkspace_performs ..)).mono fun _ _ _ => trivial)
  | create sc access name generate =>
    obtain ⟨-, rfl⟩ := spawn_create h
    exact handleCreateWorkspace_admitted bound_admission (fun _ _ => trivial) (fun _ _ => trivial)
      trivial (fun _ _ _ _ => trivial) fun _ _ h => created_bound h
  | rename sc name newName => exact hcond.elim
  | delete sc name force =>
    cases h
    exact withWorkspace_admitted bound_admission trivial (fun _ _ _ _ => trivial)
      fun ws s _ => handleDeleteWorkspace_bound
  | dial task tenant workspace version =>
    obtain ⟨t, -, rfl⟩ := spawn_dial h
    exact handleWorkspaceTunnel_bound

/-! ## Every run -/

theorem tunnelsBound_boot (cell : Workspaces) : TunnelsBound (World.init cell) where
  used _ hw := mem_map_of_mem hw
  read _ _ h := by cases h
  registered _ _ h := by cases h
  waiting _ _ h := by cases h
  filled _ _ h := by cases h

/-- In every run of bound steps, when a request's `ensureWorkspace` has just returned a
tunnel, the tunnel belongs to a task that was placed for the record the call was given,
and for the generation its row holds at that moment. -/
theorem ensureWorkspace_returns_bound (cfg : Config) (cell : Workspaces)
    {tr : Schedule} {tid : Nat} {o : Op} {r : Res o} {pool : ApiPool}
    {ws : Workspace} {t : Tunnel}
    (hrun : Path (system cfg) boundSteps (boot cell) (tr ++ [.thread tid o r]) pool)
    (hret : pool.result tid = some (.ensured ws (.ok t))) : PlacedFor pool.shared t ws := by
  obtain ⟨before, hbefore, hcond, hstep⟩ := hrun.last_step
  have hstart : (tunnelOutline cfg).Holds (boot cell) :=
    ⟨tunnelsBound_boot cell, nofun⟩
  have hholds := (tunnelOutline cfg).sound
    (fun _ _ _ _ _ hq h => spawn_bound hq h) hstart hbefore
  exact Outline.post_of_step hholds hcond hstep hret

/-! ## A tunnel of the wrong generation -/

/-- The histories in question: everything but renames. -/
def withoutRenames : World → Label Op Res EnvMove Req → Prop
  | _, .spawn (.rename _ _ _) => False
  | _, _ => True

instance (s : World) (l : Label Op Res EnvMove Req) : Decidable (withoutRenames s l) := by
  induction l using Label.casesOn with
  | spawn q => induction q using Req.casesOn <;> dsimp only [withoutRenames] <;> infer_instance
  | _ => exact isTrue trivial

/-- A request places task 1, at generation 1, and gets its tunnel. -/
def placedOnce : Schedule :=
  ([.env (.runnerUp "acme" "runner"),
     .spawn (.ensure demoScope "api"),
     .thread 0 (.getWorkspaceByName "acme" "api") (.ok demoRow),
     .thread 0 (.lock (lockKey demoScope demoRow)) (),
     .thread 0 (.pickWorkspace demoKey) none] : Schedule) ++
  demoDispatch 0 demoRow 1 0 ++
  ([.env (.handle 0 (.placed "task-1"))] : Schedule) ++
  demoArrival 0 demoRow 0 "task-1" 0 1 0 1 (demoRowAt 1 .starting (some "task-1") none none)

/-- Its tunnel drops, and the next request waits out the grace period. Task 1 dials in
again and is checked against generation 1; the request takes generation 2 and sends its
`StartWorkspace`; only then is the tunnel of task 1 registered. The request finds it as
soon as it waits for task 2. -/
def redialled : Schedule :=
  ([.env (.tunnelDown 1),
     .thread 1 (.drainEvents (demoTunnel 1)) (),
     .thread 1 (.removeWorkspace (demoTunnel 1)) (),
     .spawn (.ensure demoScope "api"),
     .thread 2 (.getWorkspaceByName "acme" "api")
       (.ok (demoRowAt 1 .active (some "task-1") none none)),
     .thread 2 (.lock (lockKey demoScope demoRow)) (),
     .thread 2 (.pickWorkspace demoKey) none,
     .thread 2 (.waitWorkspace demoKey) (.inr 1),
     .thread 2 (.receive demoKey 1) (.error "context deadline exceeded"),
     .spawn (.dial 0 "acme" "api" "1"),
     .thread 3 (.getWorkspaceByName "acme" "api")
       (.ok (demoRowAt 1 .active (some "task-1") none none)),
     .thread 3 (.upgrade (.task 0)) (some 2)] : Schedule) ++
  demoDispatch 2 (demoRowAt 1 .active (some "task-1") none none) 2 1 ++
  ([.thread 3 (.addWorkspace (demoTunnel 2)) [],
     .env (.handle 1 (.placed "task-2")),
     .thread 2 (.recv 1) (.ok (.ref "task-2")),
     .thread 2 (.setWorkspaceStatus "acme" "w1" .starting "task-2") (.ok ()),
     .thread 2 (.waitWorkspace demoKey) (.inl (demoTunnel 2)),
     .thread 2 (.setWorkspaceStatus "acme" "w1" .active "task-2") (.ok ())] :
    Schedule)

def staleTunnel : ApiPool :=
  final (system demoConfig) withoutRenames (boot demoCell)
    (placedOnce ++ redialled ++ ([.thread 2 (.unlock (lockKey demoScope demoRow)) ()] : Schedule))

/-- `ensureWorkspace` returns the tunnel of task 1, of generation 1, while the row holds
generation 2. -/
theorem ensureWorkspace_returns_stale :
    ∃ (tr : Schedule) (pool : ApiPool) (ws : Workspace),
      Path (system demoConfig) withoutRenames (boot demoCell)
        (tr ++ [.thread 2 (.unlock (lockKey demoScope demoRow)) ()]) pool ∧
      pool.result 2 = some (.ensured ws (.ok (demoTunnel 2))) ∧
      ¬PlacedFor pool.shared (demoTunnel 2) ws := by
  have hrun : Path (system demoConfig) withoutRenames (boot demoCell) _ staleTunnel :=
    final_path (by decide +kernel)
  have hrow : demoRowAt 2 .active (some "task-2") none none ∈
      staleTunnel.shared.cell.rows := by decide +kernel
  have hgen : (taskOf staleTunnel.shared (demoTunnel 2)).map (·.spec.generation) = some 1 := by
    decide +kernel
  refine ⟨_, staleTunnel, demoRowAt 1 .active (some "task-1") none none, hrun,
    by decide +kernel, ?_⟩
  rintro ⟨task, htask, -, hplaced⟩
  rw [htask] at hgen
  have hone : task.spec.generation = 1 := Option.some.inj hgen
  have htwo : 2 = task.spec.generation := hplaced _ hrow rfl
  omega

def boundTunnel : ApiPool :=
  final (system demoConfig) boundSteps (boot demoCell) placedOnce

theorem ensureWorkspace_returns_bound_first :
    PlacedFor boundTunnel.shared (demoTunnel 1) demoRow := by
  have hrun : Path (system demoConfig) boundSteps (boot demoCell)
      (placedOnce.dropLast ++ [.thread 0 (.unlock (lockKey demoScope demoRow)) ()])
      boundTunnel := final_path (by decide +kernel)
  exact ensureWorkspace_returns_bound demoConfig demoCell hrun (by decide +kernel)

end Lemul.MgmtApi
