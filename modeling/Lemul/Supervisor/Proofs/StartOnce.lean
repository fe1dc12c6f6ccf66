import Lemul.Supervisor.Sessions

/-!
# Starting a session twice

`handleStartSession` and `handleAttach` look for the session and create it when they find none
(`supervisor.go:593-612`, `:692-706`). Between the two another request for the same id may do
the same. `Create` refuses the second of them (`manager.go:63-70`), and the handler replies that
refusal as an error. As long as no request finds its session missing while another is between
its `Get` and its `Create`, every request is answered for the one process.
-/

namespace Lemul.Supervisor.Sessions

open Function List Option System.Outline Lemul.System

/-! ## Requests and what they are answered for -/

/-- A request that has looked for its session. -/
structure Visit where
  tid : Nat
  id : GoString
  /-- The process it has forked. -/
  forked : Option Nat
  /-- The process of the session it was given. -/
  process : Option Nat
  /-- What it was answered: an error, or `MsgOK`. -/
  answer : Option (Option GoString)
  deriving DecidableEq

theorem exists_of_isOk {ε α : Type} {r : Except ε α} (h : r.isOk) : ∃ a, r = .ok a := by
  cases r with
  | error e => cases h
  | ok a => exact ⟨a, rfl⟩

/-- What becomes of the request that thread `tid` is serving. -/
def amend (tid : Nat) (f : Visit → Visit) (visits : List Visit) : List Visit :=
  visits.map fun v => if v.tid = tid ∧ v.answer = none then f v else v

def noteVisit (tid : Nat) : (o : Op) → Res o → Task → List Visit → List Visit
  | .get id, r, _, visits => visits ++ [⟨tid, id, none, r, none⟩]
  | .newSession _, .ok pid, _, visits => amend tid (fun v => { v with forked := some pid }) visits
  | .register _ pid, true, _, visits => amend tid (fun v => { v with process := some pid }) visits
  | .reply err, _, _, visits => amend tid (fun v => { v with answer := some err }) visits
  | _, _, _, visits => visits

abbrev Visited := Noted Task (List Visit)

def visited (o : Options) : System Op Res Visited Move Request Unit :=
  (supervisor o).noting noteVisit

/-- A supervisor that has served nobody. -/
def unvisited : Pool Op Res Visited Unit := ⟨⟨.new, []⟩, []⟩

/-- The session that a `start_session`, or an attach that may create, is for. -/
def Request.starts : Request → Option GoString
  | .startSession id _ => some id
  | .attach id _ _ _ mayCreate => if mayCreate then some id else none

/-- The supervisor can tell who a session is for, if it has to. -/
def Known (o : Options) (id : GoString) (s : Task) : Prop :=
  o.euid ≠ 0 ∨ o.sessionUID = 0 ∨ (s.identities id).isSome

/-- Everything that a start needs is there and succeeds, no process ends, and a request finds its
session missing only while no other request for that id is between its `Get` and its
`Create`. -/
def oneStartAtATime (o : Options) (x : Visited) : Label Op Res Move Request → Prop
  | .spawn q =>
      match q.starts with
      | some id => id ≠ [] ∧ Known o id x.state
      | none => False
  | .env (.exit _) => False
  | .thread _ (.provisionHome _) r => r = none
  | .thread _ (.listen _) r => r.isOk
  | .thread _ (.newSession _) r => r.isOk
  | .thread _ (.get id) r => r = none → ∀ v ∈ x.notes, v.id = id → v.process ≠ none
  | _ => True

instance (o : Options) (id : GoString) (s : Task) : Decidable (Known o id s) := by
  unfold Known
  infer_instance

instance (o : Options) (x : Visited) (l : Label Op Res Move Request) :
    Decidable (oneStartAtATime o x l) := by
  induction l using Label.casesOn with
  | spawn q =>
    dsimp only [oneStartAtATime]
    exact match q.starts with
      | some id => inferInstanceAs (Decidable (id ≠ [] ∧ Known o id x.state))
      | none => isFalse id
  | thread tid o r =>
    induction o using Op.casesOn <;> dsimp only [oneStartAtATime] <;> infer_instance
  | env e => induction e using Move.casesOn <;> dsimp only [oneStartAtATime] <;> infer_instance

/-- What holds of the sessions, the processes and the requests. -/
structure StartedOnce (x : Visited) : Prop where
  session {v : Visit} (hv : v ∈ x.notes) : x.state.manager v.id = v.process
  answered {v : Visit} {err : Option GoString} (hv : v ∈ x.notes) (herr : v.answer = some err) :
    err = none ∧ v.process ≠ none
  /-- Only one request for an id is without a session. -/
  only {v w : Visit} (hv : v ∈ x.notes) (hw : w ∈ x.notes) (hnone : v.process = none)
    (hnone' : w.process = none) (hid : v.id = w.id) : v.tid = w.tid
  /-- A thread serves one request. -/
  single {v w : Visit} (hv : v ∈ x.notes) (hw : w ∈ x.notes) (hopen : v.answer = none)
    (hopen' : w.answer = none) (htid : v.tid = w.tid) : v = w
  forkedBy {pid : Nat} {p : Process} (hp : x.state.processes[pid]? = some p) :
    p.running = true ∧ ∃ v ∈ x.notes, v.id = p.spec.id ∧ v.forked = some pid ∧
      (v.process = none ∨ v.process = some pid)
  registered {id : GoString} {pid : Nat} (hpid : x.state.manager id = some pid) :
    ∃ p, x.state.processes[pid]? = some p ∧ p.spec.id = id

/-- The request that thread `tid` is serving. -/
structure Serving (tid : Nat) (v : Visit) (x : Visited) : Prop where
  mem : v ∈ x.notes
  tid_eq : v.tid = tid
  unanswered : v.answer = none

/-- What must be so before a step. -/
def VisitPre (o : Options) (tid : Nat) : Op → Visited → Prop
  | .identity id, x => Known o id x.state ∧ o.euid = 0 ∧ ∃ v, Serving tid v x
  | .get _, x => ∀ v, ¬Serving tid v x
  | .newSession spec, x => ∃ v, Serving tid v x ∧ v.id = spec.id ∧ v.process = none ∧
      v.forked = none
  | .register id pid, x => ∃ v, Serving tid v x ∧ v.id = id ∧ v.process = none ∧
      v.forked = some pid ∧ ∃ p, x.state.processes[pid]? = some p ∧ p.spec.id = id
  | .reply err, x => err = none ∧ ∃ v, Serving tid v x ∧ v.process ≠ none
  | .wait pid, x => (∀ v, ¬Serving tid v x) ∧ ∃ p, x.state.processes[pid]? = some p
  | .unregister _, _ => False
  | _, x => ∃ v, Serving tid v x

/-- What others leave alone. -/
structure VisitRely (tid : Nat) (x x' : Visited) : Prop where
  serving : ∀ v, Serving tid v x' ↔ Serving tid v x
  processes : ∀ (pid : Nat) (p : Process), x.state.processes[pid]? = some p →
    x'.state.processes[pid]? = some p
  identities : ∀ id, (x.state.identities id).isSome → (x'.state.identities id).isSome

theorem VisitRely.refl (tid : Nat) (x : Visited) : VisitRely tid x x :=
  ⟨fun _ => Iff.rfl, fun _ _ h => h, fun _ h => h⟩

theorem VisitRely.trans {tid : Nat} {x₁ x₂ x₃ : Visited} (h₁ : VisitRely tid x₁ x₂)
    (h₂ : VisitRely tid x₂ x₃) : VisitRely tid x₁ x₃ :=
  ⟨fun v => (h₂.serving v).trans (h₁.serving v),
    fun pid p h => h₂.processes pid p (h₁.processes pid p h),
    fun id h => h₂.identities id (h₁.identities id h)⟩

/-! ## Steps -/

section Amend

variable {tid : Nat} {x : Visited} {f : Visit → Visit} {u v : Visit}

theorem StartedOnce.serving_eq (h : StartedOnce x) (hv : Serving tid v x) (hu : Serving tid u x) :
    v = u :=
  h.single hv.mem hu.mem hv.unanswered hu.unanswered (hv.tid_eq.trans hu.tid_eq.symm)

/-- A request without a session has not been answered. -/
theorem StartedOnce.unanswered (h : StartedOnce x) (hv : v ∈ x.notes) (hnone : v.process = none) :
    v.answer = none := by
  cases hanswer : v.answer with
  | none => rfl
  | some err => exact absurd hnone (h.answered hv hanswer).2

/-- After the request that a thread serves was amended, every request is that one or as it
was. -/
theorem StartedOnce.of_mem_amend (h : StartedOnce x) (hu : Serving tid u x)
    (hv : v ∈ amend tid f x.notes) : v = f u ∨ v ∈ x.notes ∧ ¬Serving tid v x := by
  obtain ⟨w, hw, rfl⟩ := mem_map.mp hv
  split
  · rename_i hserving
    exact .inl (congrArg f (h.serving_eq ⟨hw, hserving.1, hserving.2⟩ hu))
  · rename_i hother
    exact .inr ⟨hw, fun hserving => hother ⟨hserving.tid_eq, hserving.unanswered⟩⟩

theorem amended_mem (hu : Serving tid u x) : f u ∈ amend tid f x.notes :=
  mem_map.mpr ⟨u, hu.mem, if_pos ⟨hu.tid_eq, hu.unanswered⟩⟩

theorem kept_mem (hv : v ∈ x.notes) (hother : ¬Serving tid v x) : v ∈ amend tid f x.notes :=
  mem_map.mpr ⟨v, hv, if_neg fun h => hother ⟨hv, h.1, h.2⟩⟩

/-- The requests of other threads are as they were. -/
theorem serving_amend {other : Nat} {x' : Visited} (hnotes : x'.notes = amend tid f x.notes)
    (htid : ∀ v, (f v).tid = v.tid) (hother : other ≠ tid) :
    Serving other v x' ↔ Serving other v x := by
  constructor
  · rintro ⟨hmem, hv, hopen⟩
    rw [hnotes] at hmem
    obtain ⟨w, hw, rfl⟩ := mem_map.mp hmem
    split at hv
    · rename_i hserving
      rw [htid] at hv
      exact absurd (hv.symm.trans hserving.1) hother
    · rename_i hkept
      rw [if_neg hkept] at hopen ⊢
      exact ⟨hw, hv, hopen⟩
  · rintro ⟨hmem, hv, hopen⟩
    refine ⟨?_, hv, hopen⟩
    rw [hnotes]
    exact kept_mem hmem fun hserving => hother (hv.symm.trans hserving.tid_eq)

end Amend

section Steps

variable {tid : Nat} {x x' : Visited}

/-- Nothing changes that a request depends on. -/
theorem StartedOnce.frame {s : Task} (h : StartedOnce x) (hmanager : s.manager = x.state.manager)
    (hprocesses : s.processes = x.state.processes)
    (hidentities : ∀ id, (x.state.identities id).isSome → (s.identities id).isSome) :
    StartedOnce ⟨s, x.notes⟩ ∧ ∀ other, VisitRely other x ⟨s, x.notes⟩ := by
  refine ⟨⟨fun hv => ?_, h.answered, h.only, h.single, fun hp => ?_, fun hpid => ?_⟩,
    fun other => ⟨fun v => ?_, fun pid p hp => ?_, hidentities⟩⟩
  · exact (congrFun hmanager _).trans (h.session hv)
  · rw [hprocesses] at hp
    exact h.forkedBy hp
  · rw [hmanager] at hpid
    rw [hprocesses]
    exact h.registered hpid
  · exact ⟨fun h => ⟨h.mem, h.tid_eq, h.unanswered⟩, fun h => ⟨h.mem, h.tid_eq, h.unanswered⟩⟩
  · rw [hprocesses]
    exact hp

variable {id : GoString} {u : Visit}

/-- `Get`. A request that finds nothing is the only one for its id without a session. -/
theorem StartedOnce.get (h : StartedOnce x) (hfree : ∀ v, ¬Serving tid v x)
    (hcond : x.state.manager id = none → ∀ v ∈ x.notes, v.id = id → v.process ≠ none) :
    let x' : Visited := ⟨x.state, x.notes ++ [⟨tid, id, none, x.state.manager id, none⟩]⟩
    StartedOnce x' ∧ ∀ other, other ≠ tid → VisitRely other x x' := by
  have hmem : ∀ {v : Visit}, v ∈ x.notes ++ [⟨tid, id, none, x.state.manager id, none⟩] →
      v ∈ x.notes ∨ v = ⟨tid, id, none, x.state.manager id, none⟩ := by
    intro v hv
    simpa using hv
  refine ⟨⟨?_, ?_, ?_, ?_, ?_, h.registered⟩,
    fun other hother => ⟨fun v => ?_, fun _ _ hp => hp, fun _ h => h⟩⟩
  · intro v hv
    rcases hmem hv with hold | rfl
    · exact h.session hold
    · rfl
  · intro v err hv herr
    rcases hmem hv with hold | rfl
    · exact h.answered hold herr
    · cases herr
  · intro v w hv hw hnone hnone' hid
    rcases hmem hv with hold | rfl
    · rcases hmem hw with hold' | rfl
      · exact h.only hold hold' hnone hnone' hid
      · exact absurd hnone (hcond hnone' v hold hid)
    · rcases hmem hw with hold' | rfl
      · exact absurd hnone' (hcond hnone w hold' hid.symm)
      · rfl
  · intro v w hv hw hopen hopen' htid
    rcases hmem hv with hold | rfl
    · rcases hmem hw with hold' | rfl
      · exact h.single hold hold' hopen hopen' htid
      · exact absurd ⟨hold, htid, hopen⟩ (hfree v)
    · rcases hmem hw with hold' | rfl
      · exact absurd ⟨hold', htid.symm, hopen'⟩ (hfree w)
      · rfl
  · intro pid p hp
    obtain ⟨hrunning, v, hv, hrest⟩ := h.forkedBy hp
    exact ⟨hrunning, v, mem_append_left _ hv, hrest⟩
  · constructor
    · rintro ⟨hv, htid, hopen⟩
      rcases hmem hv with hold | rfl
      · exact ⟨hold, htid, hopen⟩
      · exact absurd htid.symm hother
    · rintro ⟨hv, htid, hopen⟩
      exact ⟨mem_append_left _ hv, htid, hopen⟩

/-- What is to be checked when a thread amends the request that it serves. -/
theorem StartedOnce.amended {f : Visit → Visit} {s : Task} (h : StartedOnce x)
    (hu : Serving tid u x) (htid : ∀ v, (f v).tid = v.tid) (hid : (f u).id = u.id)
    (hidentities : s.identities = x.state.identities)
    (hold : ∀ (pid : Nat) p, x.state.processes[pid]? = some p → s.processes[pid]? = some p)
    (hown : s.manager u.id = (f u).process)
    (hothers : ∀ v ∈ x.notes, ¬Serving tid v x → s.manager v.id = x.state.manager v.id)
    (hanswer : ∀ err, (f u).answer = some err → err = none ∧ (f u).process ≠ none)
    (hseeks : (f u).process = none → u.process = none)
    (hkept : ∀ pid, u.forked = some pid → (u.process = none ∨ u.process = some pid) →
      (f u).forked = some pid ∧ ((f u).process = none ∨ (f u).process = some pid))
    (hforked : ∀ (pid : Nat) p, s.processes[pid]? = some p → x.state.processes[pid]? = some p ∨
      p.running = true ∧ u.id = p.spec.id ∧ (f u).forked = some pid ∧ (f u).process = none)
    (hregistered : ∀ id pid, s.manager id = some pid → x.state.manager id = some pid ∨
      ∃ p, x.state.processes[pid]? = some p ∧ p.spec.id = id) :
    let x' : Visited := ⟨s, amend tid f x.notes⟩
    StartedOnce x' ∧ ∀ other, other ≠ tid → VisitRely other x x' := by
  have hmem := fun {v : Visit} => h.of_mem_amend (v := v) (f := f) hu
  refine ⟨⟨?_, ?_, ?_, ?_, ?_, ?_⟩, fun other hother =>
      ⟨fun v => serving_amend rfl htid hother, hold, fun id h => by rwa [hidentities]⟩⟩
  · intro v hv
    rcases hmem hv with rfl | ⟨hv, hnot⟩
    · rwa [hid]
    · exact (hothers v hv hnot).trans (h.session hv)
  · intro v err hv herr
    rcases hmem hv with rfl | ⟨hv, -⟩
    · exact hanswer err herr
    · exact h.answered hv herr
  · intro v w hv hw hnone hnone' hvw
    rcases hmem hv with rfl | ⟨hv, -⟩ <;> rcases hmem hw with rfl | ⟨hw, -⟩
    · rfl
    · exact (htid u).trans (h.only hu.mem hw (hseeks hnone) hnone' (hid.symm.trans hvw))
    · exact (h.only hv hu.mem hnone (hseeks hnone') (hvw.trans hid)).trans (htid u).symm
    · exact h.only hv hw hnone hnone' hvw
  · intro v w hv hw hopen hopen' hvw
    rcases hmem hv with rfl | ⟨hv, hnot⟩ <;> rcases hmem hw with rfl | ⟨hw, hnot'⟩
    · rfl
    · exact absurd ⟨hw, (hvw.symm.trans (htid u)).trans hu.tid_eq, hopen'⟩ hnot'
    · exact absurd ⟨hv, (hvw.trans (htid u)).trans hu.tid_eq, hopen⟩ hnot
    · exact h.single hv hw hopen hopen' hvw
  · intro pid p hp
    rcases hforked pid p hp with hp | ⟨hrunning, hspec, hpid, hnone⟩
    · obtain ⟨hrunning, v, hv, hvid, hpid, hprocess⟩ := h.forkedBy hp
      refine ⟨hrunning, ?_⟩
      by_cases hserving : Serving tid v x
      · obtain rfl := h.serving_eq hserving hu
        exact ⟨_, amended_mem hu, hid.trans hvid, hkept pid hpid hprocess⟩
      · exact ⟨v, kept_mem hv hserving, hvid, hpid, hprocess⟩
    · exact ⟨hrunning, _, amended_mem hu, hid.trans hspec, hpid, .inl hnone⟩
  · intro id pid hpid
    obtain ⟨p, hp, hspec⟩ := (hregistered id pid hpid).elim h.registered fun h => h
    exact ⟨p, hold pid p hp, hspec⟩

/-- A fork, of the one request that can make it. -/
theorem StartedOnce.fork {spec : Spec} (h : StartedOnce x) (hu : Serving tid u x)
    (hid : u.id = spec.id) (hseeks : u.process = none) (hnew : u.forked = none) :
    let x' : Visited := ⟨{ x.state with processes := x.state.processes ++ [⟨spec, true⟩] },
      amend tid (fun v => { v with forked := some x.state.processes.length }) x.notes⟩
    StartedOnce x' ∧ ∀ other, other ≠ tid → VisitRely other x x' := by
  refine h.amended hu (fun _ => rfl) rfl rfl (fun pid p hp => getElem?_concat_old hp _)
    (h.session hu.mem) (fun _ _ _ => rfl) (fun _ => h.answered (v := u) hu.mem) (fun h => h) ?_ ?_
    fun _ _ => .inl
  · intro pid hpid
    cases hnew.symm.trans hpid
  · intro pid p hp
    refine (of_getElem?_concat hp).imp_right ?_
    rintro ⟨rfl, rfl⟩
    exact ⟨rfl, hid, rfl, hseeks⟩

/-- The one request for an id that is without a session gives it one. -/
theorem StartedOnce.register {pid : Nat} {p : Process} (h : StartedOnce x) (hu : Serving tid u x)
    (hseeks : u.process = none) (hforked : u.forked = some pid)
    (hp : x.state.processes[pid]? = some p) (hspec : p.spec.id = u.id) :
    let x' : Visited := ⟨{ x.state with manager := update x.state.manager u.id (some pid) },
      amend tid (fun v => { v with process := some pid }) x.notes⟩
    StartedOnce x' ∧ ∀ other, other ≠ tid → VisitRely other x x' := by
  refine h.amended hu (fun _ => rfl) rfl rfl (fun _ _ hp => hp) (update_self _ _ _) ?_
    (fun err herr => ⟨(h.answered hu.mem herr).1, nofun⟩) nofun ?_ (fun _ _ => .inl) ?_
  · intro v hv hnot
    refine update_of_ne (fun hvid => ?_) _ _
    -- whoever else is without a session wants another one
    have hnone : v.process = none := by
      rw [← h.session hv, hvid, h.session hu.mem, hseeks]
    exact hnot ⟨hv, (h.only hv hu.mem hnone hseeks hvid).trans hu.tid_eq, h.unanswered hv hnone⟩
  · intro q hq _
    exact ⟨hq, .inr (hforked.symm.trans hq)⟩
  · intro id q hq
    by_cases hid : id = u.id
    · subst hid
      cases (update_self _ _ _).symm.trans hq
      exact .inr ⟨p, hp, hspec⟩
    · exact .inl ((update_of_ne hid _ _).symm.trans hq)

theorem StartedOnce.reply (h : StartedOnce x) (hu : Serving tid u x) (hserved : u.process ≠ none) :
    let x' : Visited := ⟨x.state, amend tid (fun v => { v with answer := some none }) x.notes⟩
    StartedOnce x' ∧ ∀ other, other ≠ tid → VisitRely other x x' := by
  refine h.amended hu (fun _ => rfl) rfl rfl (fun _ _ hp => hp) (h.session hu.mem)
    (fun _ _ _ => rfl) ?_ (fun h => h) (fun _ hpid hprocess => ⟨hpid, hprocess⟩)
    (fun _ _ => .inl) fun _ _ => .inl
  intro err herr
  cases herr
  exact ⟨rfl, hserved⟩

/-- The steps that neither the manager nor the requests see. -/
def Op.Unseen : Op → Prop
  | .get _ | .newSession _ | .register _ _ | .unregister _ | .reply _ => False
  | _ => True

theorem unseen_exec {o : Op} {r : Res o} {s s' : Task} (tid : Nat) (visits : List Visit)
    (ho : o.Unseen) (h : exec o r s = some s') :
    s'.manager = s.manager ∧ s'.processes = s.processes ∧
      noteVisit tid o r s visits = visits := by
  cases exec_rule h <;> first | exact ho.elim | exact ⟨rfl, rfl, rfl⟩

theorem startedOnce_exec {o : Options} {op : Op} {r : Res op} (h : StartedOnce x)
    (hpre : VisitPre o tid op x) (hcond : oneStartAtATime o x (.thread tid op r))
    (hstep : (visited o).exec tid op r x = some x') :
    StartedOnce x' ∧ ∀ other, other ≠ tid → VisitRely other x x' := by
  obtain ⟨s', notes'⟩ := x'
  obtain ⟨hexec, hnotes⟩ := noting_exec.mp hstep
  cases hnotes
  have hunseen : op.Unseen → StartedOnce ⟨s', noteVisit tid op r x.state x.notes⟩ ∧
      ∀ other, other ≠ tid → VisitRely other x ⟨s', noteVisit tid op r x.state x.notes⟩ := by
    intro hop
    obtain ⟨hmanager, hprocesses, hsame⟩ := unseen_exec tid x.notes hop hexec
    rw [hsame]
    obtain ⟨hinv, hrely⟩ := h.frame hmanager hprocesses fun id hid => by
      rwa [exec_identities hexec]
    exact ⟨hinv, fun other _ => hrely other⟩
  cases op with
  | get id =>
    cases supervisor_rule hexec
    exact h.get hpre hcond
  | newSession spec =>
    obtain ⟨u, hu, hid, hseeks, hnew⟩ := hpre
    cases supervisor_rule hexec with
    | forkFails => cases hcond
    | forks => exact h.fork hu hid hseeks hnew
  | register id pid =>
    obtain ⟨u, hu, rfl, hseeks, hforked, p, hp, hspec⟩ := hpre
    cases supervisor_rule hexec with
    | registers => exact h.register hu hseeks hforked hp hspec
    | taken htaken => exact absurd ((h.session hu.mem).trans hseeks) htaken
  | reply err =>
    obtain ⟨rfl, u, hu, hserved⟩ := hpre
    cases supervisor_rule hexec
    exact h.reply hu hserved
  | unregister id => exact hpre.elim
  | _ => exact hunseen trivial

end Steps

/-- A process that ends would be a step against the condition. -/
theorem startedOnce_move {o : Options} {m : Move} {x x' : Visited} (h : StartedOnce x)
    (hcond : oneStartAtATime o x (.env m)) (hmove : (visited o).env m x = some x') :
    StartedOnce x' ∧ ∀ tid, VisitRely tid x x' := by
  cases m with
  | exit pid => exact hcond.elim
  | announce id who =>
    cases hmove
    refine h.frame rfl rfl fun id' hid => ?_
    by_cases heq : id' = id
    · rw [heq]
      simp
    · simpa [update_of_ne heq] using hid

/-! ## Requests -/

def startOutline (o : Options) : Outline (visited o) (oneStartAtATime o) where
  inv := StartedOnce
  rely := VisitRely
  pre := VisitPre o
  post tid _ x := ∀ v, ¬Serving tid v x
  rely_refl := VisitRely.refl
  rely_trans _ _ _ _ := VisitRely.trans
  op_ok := startedOnce_exec
  env_ok := startedOnce_move

/-- Thread `tid` is serving a request for `id` that has found no session. -/
def Seeks (tid : Nat) (id : GoString) (x : Visited) : Prop :=
  ∃ v, Serving tid v x ∧ v.id = id ∧ v.process = none ∧ v.forked = none

/-- Thread `tid` is serving a request that has its session. -/
def Found (tid : Nat) (x : Visited) : Prop :=
  ∃ v, Serving tid v x ∧ v.process ≠ none

section Requests

variable {o : Options} {tid : Nat} {id term : GoString} {x x' : Visited}

theorem Seeks.rely (h : Seeks tid id x) (hrely : VisitRely tid x x') : Seeks tid id x' := by
  obtain ⟨v, hv, hrest⟩ := h
  exact ⟨v, (hrely.serving v).mpr hv, hrest⟩

theorem Found.rely (h : Found tid x) (hrely : VisitRely tid x x') : Found tid x' := by
  obtain ⟨v, hv, hrest⟩ := h
  exact ⟨v, (hrely.serving v).mpr hv, hrest⟩

theorem Seeks.of_notes (h : Seeks tid id x) (hnotes : x'.notes = x.notes) : Seeks tid id x' := by
  obtain ⟨v, hv, hrest⟩ := h
  exact ⟨v, ⟨hnotes ▸ hv.mem, hv.tid_eq, hv.unanswered⟩, hrest⟩

/-- A step of a request that is looking for a session, and which the request does not see. -/
theorem seeks_safe {op : Op} {β : Type} {f : Res op → Prog Op Res β} {Q : β → Visited → Prop}
    (h : Seeks tid id x) (hop : op.Unseen) (hpre : ∀ x, Seeks tid id x → VisitPre o tid op x)
    (hnext : ∀ r x₁ x₂, StartedOnce x₁ → oneStartAtATime o x₁ (.thread tid op r) →
      exec op r x₁.state = some x₂.state → Seeks tid id x₁ → Seeks tid id x₂ →
      (startOutline o).Safe tid (f r) Q x₂) :
    (startOutline o).Safe tid (Prog.perform op >>= f) Q x := by
  refine safe_noted fun x₁ hrely hinv => ?_
  have hseeks := h.rely hrely
  refine ⟨hpre x₁ hseeks, fun r x₂ hexec hnotes hcond _ => ?_⟩
  obtain ⟨-, -, hsame⟩ := unseen_exec tid x₁.notes hop hexec
  exact hnext r x₁ x₂ hinv hcond hexec hseeks (hseeks.of_notes (hnotes.trans hsame))

theorem Seeks.serves (h : Seeks tid id x) : ∃ v, Serving tid v x := by
  obtain ⟨v, hv, -⟩ := h
  exact ⟨v, hv⟩

theorem Known.rely (h : Known o id x.state) (hrely : VisitRely tid x x') :
    Known o id x'.state :=
  h.imp_right fun h => h.imp_right (hrely.identities id)

theorem identityFor_starts (h : Seeks tid id x) (hknown : Known o id x.state) :
    (startOutline o).Safe tid (identityFor o id)
      (fun a x' => (∃ who, a = .ok who) ∧ Seeks tid id x') x := by
  unfold identityFor
  split
  · exact ⟨⟨_, rfl⟩, h⟩
  · rename_i hroot
    refine safe_noted fun x₁ hrely hinv => ?_
    obtain ⟨v, hv, hrest⟩ := h.rely hrely
    have hknown := hknown.rely hrely
    refine ⟨⟨hknown, not_not.mp hroot, v, hv⟩, ?_⟩
    rintro r ⟨s₂, visits⟩ hexec hnotes - -
    have h : Seeks tid id ⟨s₂, visits⟩ := Seeks.of_notes ⟨v, hv, hrest⟩ hnotes
    cases supervisor_rule hexec
    cases hfound : x₁.state.identities id with
    | none =>
      have huid : o.sessionUID = 0 := by
        rcases hknown with hroot' | huid | hsome
        · exact absurd hroot' hroot
        · exact huid
        · rw [hfound] at hsome
          cases hsome
      dsimp only
      rw [if_pos huid]
      exact ⟨⟨_, rfl⟩, h⟩
    | some who =>
      refine seeks_safe h trivial (fun _ => Seeks.serves) fun first _ x₃ _ _ _ _ h => ?_
      cases first with
      | false => exact ⟨⟨_, rfl⟩, h⟩
      | true =>
        refine seeks_safe h trivial (fun _ => Seeks.serves) fun err _ x₄ _ hcond _ _ h => ?_
        cases hcond
        exact ⟨⟨_, rfl⟩, h⟩

theorem sessionEnv_starts {who : Identity} (h : Seeks tid id x) :
    (startOutline o).Safe tid (sessionEnv o id term who)
      (fun a x' => (∃ env, a = .ok env) ∧ Seeks tid id x') x := by
  unfold sessionEnv
  split
  · refine .bind ?_
    refine seeks_safe h trivial (fun _ => Seeks.serves) fun r _ x₂ _ _ _ _ h => ?_
    cases r with
    | some sp => exact ⟨⟨_, rfl⟩, h⟩
    | none =>
      refine seeks_safe h trivial (fun _ => Seeks.serves) fun sp _ x₃ _ hcond _ _ h => ?_
      obtain ⟨sp, rfl⟩ := exists_of_isOk hcond
      refine seeks_safe h trivial (fun _ => Seeks.serves) fun _ _ x₄ _ _ _ _ h => ?_
      exact ⟨⟨_, rfl⟩, h⟩
  · exact ⟨⟨_, rfl⟩, h⟩

theorem create_starts {spec : Spec} (h : Seeks tid spec.id x) :
    (startOutline o).Safe tid (create spec) (fun a x' => ∃ pid p, a = .ok pid ∧ Found tid x' ∧
      x'.state.processes[pid]? = some p) x := by
  refine seeks_safe h trivial (fun _ => Seeks.serves) fun found x₁ x₂ hinv _ hexec hseeks h => ?_
  obtain rfl : found = false := by
    obtain ⟨v, hv, hid, hnone, -⟩ := hseeks
    generalize x₂.state = s₂ at hexec
    cases exec_rule hexec
    rw [← hid, hinv.session hv.mem, hnone]
    rfl
  refine safe_noted fun x₃ hrely₃ hinv₃ => ?_
  obtain ⟨u, hu, hid, hnone, hnew⟩ := h.rely hrely₃
  refine ⟨⟨u, hu, hid, hnone, hnew⟩, ?_⟩
  rintro r ⟨s₄, visits₄⟩ hexec₄ hnotes₄ hcond₄ -
  cases supervisor_rule hexec₄ with
  | forkFails => cases hcond₄
  | forks =>
    cases hnotes₄
    refine safe_noted fun x₅ hrely₅ hinv₅ => ?_
    have hv₅ := (hrely₅.serving _).mpr ⟨amended_mem hu, hu.tid_eq, hu.unanswered⟩
    have hprocess₅ := hrely₅.processes _ _ getElem?_concat_length
    refine ⟨⟨_, hv₅, hid, hnone, rfl, _, hprocess₅, rfl⟩, ?_⟩
    rintro won ⟨s₆, visits₆⟩ hexec₆ hnotes₆ - -
    cases supervisor_rule hexec₆ with
    | taken htaken => exact absurd (hid ▸ (hinv₅.session hv₅.mem).trans hnone :) htaken
    | registers =>
      cases hnotes₆
      exact ⟨_, ⟨spec, true⟩, rfl,
        ⟨_, ⟨amended_mem hv₅, hu.tid_eq, hu.unanswered⟩, Option.some_ne_none _⟩, hprocess₅⟩

variable {rows cols : Nat}

theorem createSession_starts (h : Seeks tid id x) (hknown : Known o id x.state) :
    (startOutline o).Safe tid (createSession o id term rows cols) (fun a x' => ∃ pid p,
      a = .ok pid ∧ Found tid x' ∧ x'.state.processes[pid]? = some p) x := by
  refine .bind ((identityFor_starts h hknown).mono ?_)
  rintro _ x₁ ⟨⟨who, rfl⟩, h⟩
  refine .bind ((sessionEnv_starts h).mono ?_)
  rintro _ x₂ ⟨⟨env, rfl⟩, h⟩
  exact create_starts h

/-- A request that has its session is answered. -/
theorem reply_starts {f : Unit → Prog Op Res Unit} {K : Visited → Prop} (h : Found tid x)
    (hK : K x) (hrely : ∀ x x', VisitRely tid x x' → K x → K x')
    (hstate : ∀ x x', x'.state = x.state → K x → K x')
    (hnext : ∀ x', K x' → (∀ v, ¬Serving tid v x') →
      (startOutline o).Safe tid (f ()) (fun _ x' => ∀ v, ¬Serving tid v x') x') :
    (startOutline o).Safe tid (call (.reply none) >>= f)
      (fun _ x' => ∀ v, ¬Serving tid v x') x := by
  refine safe_noted fun x₁ hmoved hinv => ?_
  obtain ⟨u, hu, hserved⟩ := h.rely hmoved
  refine ⟨⟨rfl, u, hu, hserved⟩, fun _ x₂ hexec hnotes _ _ => ?_⟩
  have hexec : exec (.reply none) () x₁.state = some x₂.state := hexec
  refine hnext x₂ (hstate x₁ x₂ (Option.some.inj hexec).symm (hrely x x₁ hmoved hK)) ?_
  intro v hv
  have hmem := hv.mem
  rw [hnotes] at hmem
  rcases hinv.of_mem_amend hu hmem with rfl | ⟨hold, hnot⟩
  · cases hv.unanswered
  · exact hnot ⟨hold, hv.tid_eq, hv.unanswered⟩

theorem start_starts (h : Seeks tid id x) (hknown : Known o id x.state) :
    (startOutline o).Safe tid (start o id term rows cols)
      (fun _ x' => ∀ v, ¬Serving tid v x') x := by
  refine .bind ((createSession_starts h hknown).mono ?_)
  rintro _ x₁ ⟨pid, p, rfl, hfound, hp⟩
  refine reply_starts (K := fun x => ∃ p, x.state.processes[pid]? = some p) hfound ⟨p, hp⟩ ?_ ?_ ?_
  · rintro x x' hrely ⟨p, hp⟩
    exact ⟨p, hrely.processes pid p hp⟩
  · rintro x x' hstate ⟨p, hp⟩
    rw [hstate]
    exact ⟨p, hp⟩
  · rintro x₂ ⟨p, hp⟩ hfree
    -- the goroutine waits for a process that does not end
    refine safe_noted fun x₃ hrely hinv => ?_
    have hp₃ := hrely.processes pid p hp
    refine ⟨⟨fun v hv => hfree v ((hrely.serving v).mp hv), p, hp₃⟩, ?_⟩
    rintro code ⟨s₄, visits₄⟩ hexec - - -
    cases supervisor_rule hexec with
    | wait hp₄ hdone => exact absurd ((hinv.forkedBy hp₄).1.symm.trans hdone) (by decide)

/-- The goroutine of `start` apart, a request looks for its session and is answered. -/
theorem visit_starts (hfree : ∀ v, ¬Serving tid v x) (hknown : Known o id x.state) :
    (startOutline o).Safe tid
      (call (.get id) >>= fun
        | some _ => call (.reply none)
        | none => start o id term rows cols) (fun _ x' => ∀ v, ¬Serving tid v x') x := by
  refine safe_noted fun x₁ hrely hinv => ?_
  refine ⟨fun v hv => hfree v ((hrely.serving v).mp hv), fun r x₂ hexec hnotes _ _ => ?_⟩
  have hmem : (⟨tid, id, none, r, none⟩ : Visit) ∈ x₂.notes := by
    rw [hnotes]
    exact mem_append_right _ (mem_singleton_self _)
  have hknown₂ : Known o id x₂.state := by
    have hexec : exec (.get id) r x₁.state = some x₂.state := hexec
    rw [Known, exec_identities hexec]
    exact hknown.rely hrely
  cases r with
  | some pid =>
    refine reply_starts (f := Prog.ret) (K := fun _ => True) ⟨_, ⟨hmem, rfl, rfl⟩, nofun⟩ trivial
      (fun _ _ _ _ => trivial) (fun _ _ _ _ => trivial) fun x' _ h => h
  | none => exact start_starts ⟨_, ⟨hmem, rfl, rfl⟩, rfl, rfl, rfl⟩ hknown₂

theorem handle_starts {q : Request} {id : GoString} (hq : q.starts = some id) (hid : id ≠ [])
    (hfree : ∀ v, ¬Serving tid v x) (hknown : Known o id x.state) :
    (startOutline o).Safe tid (handle o q) (fun _ x' => ∀ v, ¬Serving tid v x') x := by
  cases q with
  | startSession id' term =>
    cases hq
    simp only [handle, handleStartSession, if_neg hid]
    exact visit_starts hfree hknown
  | attach id' term rows cols mayCreate =>
    simp only [Request.starts] at hq
    split at hq <;> cases hq
    rename_i hcreate
    simp only [handle, handleAttach, if_neg hid, if_pos hcreate]
    exact visit_starts hfree hknown

end Requests

theorem startedOnce_new : StartedOnce unvisited.shared where
  session := nofun
  answered := nofun
  only := nofun
  single := nofun
  forkedBy := nofun
  registered := nofun

variable {pool : Pool Op Res Visited Unit}

theorem startedOnce_run {o : Options} {tr : Schedule}
    (hrun : Path (visited o) (oneStartAtATime o) unvisited tr pool) :
    (startOutline o).Holds pool ∧
      ∀ tid, Outline.Idle pool tid → ∀ v, ¬Serving tid v pool.shared := by
  refine (startOutline o).sound_idle (R := fun tid x => ∀ v, ¬Serving tid v x)
    (fun _ _ _ h => h) ?_ ?_ ?_ ?_ hrun
  · intro tid x x' hrely hfree v hv
    exact hfree v ((hrely.serving v).mp hv)
  · intro q x p tid _ hfree hcond hspawn
    cases hspawn
    simp only [oneStartAtATime] at hcond
    split at hcond
    · rename_i id hq
      exact handle_starts hq hcond.1 hfree hcond.2
    · exact hcond.elim
  · exact ⟨startedOnce_new, nofun⟩
  · rintro tid - v ⟨hv, -⟩
    cases hv

/-! ## Every request can be answered -/

section Progress

variable {o : Options} {tid : Nat} {x : Visited} {v : Visit}

/-- A step that does not answer the request a thread serves can be taken, and leaves it served. -/
theorem can_perform {op : Op} (h : StartedOnce x) (hv : Serving tid v x)
    (hpre : VisitPre o tid op x) (hop : ∀ err, op ≠ .reply err) :
    ∃ r x', (visited o).exec tid op r x = some x' ∧ oneStartAtATime o x (.thread tid op r) ∧
      ∃ w, Serving tid w x' ∧ w.id = v.id := by
  have hunseen : ∀ (r : Res op) (s : Task), op.Unseen → exec op r x.state = some s →
      oneStartAtATime o x (.thread tid op r) →
      ∃ r x', (visited o).exec tid op r x = some x' ∧ oneStartAtATime o x (.thread tid op r) ∧
        ∃ w, Serving tid w x' ∧ w.id = v.id := by
    intro r s hu hexec hcond
    obtain ⟨-, -, hsame⟩ := unseen_exec tid x.notes hu hexec
    refine ⟨r, ⟨s, x.notes⟩, noting_exec.mpr ⟨hexec, hsame.symm⟩, hcond, v, ?_, rfl⟩
    exact ⟨hv.mem, hv.tid_eq, hv.unanswered⟩
  cases op with
  | identity id => exact hunseen (x.state.identities id) x.state trivial (if_pos rfl) trivial
  | markProvisioned uid =>
    exact hunseen (!x.state.provisioned uid) _ trivial (if_pos rfl) trivial
  | provisionHome who => exact hunseen none _ trivial rfl rfl
  | proxyOf id => exact hunseen (x.state.broker id) x.state trivial (if_pos rfl) trivial
  | listen id =>
    -- there is always a port to listen on
    obtain ⟨port, hport⟩ :=
      Infinite.exists_notMem_finset (x.state.listening.map (·.port)).toFinset
    rw [List.mem_toFinset] at hport
    exact hunseen (.ok ⟨x.state.opened, id, port⟩) _ trivial (if_pos ⟨rfl, rfl, hport⟩) rfl
  | setProxy id sp | kill pid | closeProxy sp | sessionExited id code =>
    exact hunseen () _ trivial rfl trivial
  | registered id => exact hunseen (x.state.manager id).isSome x.state trivial (if_pos rfl) trivial
  | takeProxy id => exact hunseen (x.state.broker id) _ trivial (if_pos rfl) trivial
  | get id => exact absurd hv (hpre v)
  | wait pid => exact absurd hv (hpre.1 v)
  | unregister id => exact hpre.elim
  | reply err => exact absurd rfl (hop err)
  | newSession spec =>
    have hexec : exec (.newSession spec) (.ok x.state.processes.length) x.state = some
        { x.state with processes := x.state.processes ++ [⟨spec, true⟩] } := if_pos rfl
    refine ⟨.ok x.state.processes.length, ⟨_, _⟩, noting_exec.mpr ⟨hexec, rfl⟩, rfl,
      { v with forked := some x.state.processes.length }, ?_, rfl⟩
    exact ⟨amended_mem hv, hv.tid_eq, hv.unanswered⟩
  | register id pid =>
    obtain ⟨u, hu, rfl, hseeks, -⟩ := hpre
    have hnone := (h.session hu.mem).trans hseeks
    have hexec : exec (.register u.id pid) true x.state = some
        { x.state with manager := update x.state.manager u.id (some pid) } := by
      simp [exec, hnone]
    refine ⟨true, ⟨_, _⟩, noting_exec.mpr ⟨hexec, rfl⟩, trivial,
      { v with process := some pid }, ?_, rfl⟩
    exact ⟨amended_mem hv, hv.tid_eq, hv.unanswered⟩

/-- The thread of a request can go on until it has answered it. -/
theorem can_answer {p : Prog Op Res Unit} (hp : pool.threads[tid]? = some p)
    (hinv : StartedOnce pool.shared)
    (hsafe : (startOutline o).Safe tid p ((startOutline o).post tid) pool.shared)
    (hv : Serving tid v pool.shared) :
    ∃ tr pool', Path (visited o) (oneStartAtATime o) pool tr pool' ∧
      ∃ w ∈ pool'.shared.notes, w.tid = tid ∧ w.id = v.id ∧ w.answer = some none := by
  induction p generalizing pool v with
  | ret a => exact absurd hv (hsafe v)
  | op op k ih =>
    obtain ⟨hpre, hnext⟩ := hsafe pool.shared (VisitRely.refl tid _) hinv
    by_cases hreply : ∃ err, op = .reply err
    · obtain ⟨err, rfl⟩ := hreply
      obtain ⟨rfl, -⟩ := hpre
      have hstep : Step (visited o) pool (.thread tid (.reply none) ())
          ⟨⟨pool.shared.state, amend tid (fun v => { v with answer := some none })
            pool.shared.notes⟩, pool.threads.set tid (k ())⟩ :=
        .thread hp (noting_exec.mpr ⟨rfl, rfl⟩)
      have hcond : oneStartAtATime o pool.shared (.thread tid (.reply none) ()) := trivial
      exact ⟨_, _, .snoc .nil hcond hstep, _, amended_mem hv, hv.tid_eq, rfl, rfl⟩
    · have hop : ∀ err, op ≠ .reply err := fun err heq => hreply ⟨err, heq⟩
      obtain ⟨r, x', hexec, hcond, w, hw, hid⟩ := can_perform hinv hv hpre hop
      have hinv' := ((startOutline o).op_ok hinv hpre hcond hexec).1
      let next : Pool Op Res Visited Unit := ⟨x', pool.threads.set tid (k r)⟩
      have hset : next.threads[tid]? = some (k r) := getElem?_set_same hp (k r)
      obtain ⟨tr, pool', hpath, hanswered⟩ :=
        ih r hset hinv' (hnext r x' hexec hcond hinv') hw
      rw [hid] at hanswered
      exact ⟨_, pool', .cons hcond (.thread hp hexec) hpath, hanswered⟩

end Progress

/-- Every request for `id` that was answered was answered `MsgOK` for the same process, it is the
only process that was forked for `id`, and every other request for `id` that has looked for its
session can still be answered so. -/
structure Idempotent (o : Options) (id : GoString) (pool : Pool Op Res Visited Unit) : Prop where
  succeeds : ∀ v ∈ pool.shared.notes, v.id = id → ∀ err, v.answer = some err → err = none
  same : ∀ v ∈ pool.shared.notes, v.id = id → v.answer ≠ none → ∃ pid p, v.process = some pid ∧
    pool.shared.state.manager id = some pid ∧ pool.shared.state.processes[pid]? = some p ∧
      p.spec.id = id ∧ p.running = true
  single : ∀ (i j : Nat) (p q : Process), pool.shared.state.processes[i]? = some p →
    pool.shared.state.processes[j]? = some q → p.spec.id = id → q.spec.id = id → i = j
  returns : ∀ v ∈ pool.shared.notes, v.id = id → v.answer = none → ∃ tr pool',
    Path (visited o) (oneStartAtATime o) pool tr pool' ∧
      ∃ w ∈ pool'.shared.notes, w.tid = v.tid ∧ w.id = id ∧ w.answer = some none

theorem StartedOnce.single_process {x : Visited} {i j : Nat} {p q : Process} (h : StartedOnce x)
    (hp : x.state.processes[i]? = some p) (hq : x.state.processes[j]? = some q)
    (hid : p.spec.id = q.spec.id) : i = j := by
  obtain ⟨-, v, hv, hvid, hvforked, hvprocess⟩ := h.forkedBy hp
  obtain ⟨-, w, hw, hwid, hwforked, hwprocess⟩ := h.forkedBy hq
  have hvw : v.id = w.id := by rw [hvid, hwid, hid]
  have hprocess : v.process = w.process := by rw [← h.session hv, hvw, h.session hw]
  rcases hvprocess with hnone | hsome
  · have hnone' := hprocess.symm.trans hnone
    obtain rfl := h.single hv hw (h.unanswered hv hnone) (h.unanswered hw hnone')
      (h.only hv hw hnone hnone' hvw)
    exact Option.some.inj (hvforked.symm.trans hwforked)
  · have hsome' := hprocess.symm.trans hsome
    rcases hwprocess with hnone | hsome''
    · cases hnone.symm.trans hsome'
    · exact Option.some.inj (hsome'.symm.trans hsome'')

/-- In every run in which all that a start needs succeeds, no process ends, and a request finds
its session missing only while no other request for the id is between its `Get` and its
`Create`, the requests for one session are answered for its one process. -/
theorem concurrent_starts_idempotent {o : Options} {tr : Schedule}
    {pool : Pool Op Res Visited Unit}
    (hrun : Path (visited o) (oneStartAtATime o) unvisited tr pool) (id : GoString) :
    Idempotent o id pool := by
  obtain ⟨⟨hinv, hthreads⟩, hidle⟩ := startedOnce_run hrun
  have hinv : StartedOnce pool.shared := hinv
  refine ⟨fun v hv _ err herr => (hinv.answered hv herr).1, ?_, ?_, ?_⟩
  · rintro v hv rfl hanswer
    obtain ⟨err, herr⟩ := ne_none_iff_exists'.mp hanswer
    obtain ⟨pid, hpid⟩ := ne_none_iff_exists'.mp (hinv.answered hv herr).2
    have hgiven := (hinv.session hv).trans hpid
    obtain ⟨p, hp, hspec⟩ := hinv.registered hgiven
    exact ⟨pid, p, hpid, hgiven, hp, hspec, (hinv.forkedBy hp).1⟩
  · intro i j p q hp hq hpid hqid
    exact hinv.single_process hp hq (hpid.trans hqid.symm)
  · rintro v hv rfl hopen
    have hserving : Serving v.tid v pool.shared := ⟨hv, rfl, hopen⟩
    have hbusy : ¬Outline.Idle pool v.tid := fun h => hidle v.tid h v hserving
    simp only [Outline.Idle, not_forall, not_not] at hbusy
    obtain ⟨op, k, hthread⟩ := hbusy
    exact can_answer hthread hinv (hthreads v.tid op k hthread) hserving

/-- A supervisor that is not root and has no gateway. -/
def plainOptions : Options where
  euid := 1000
  sessionUID := 0
  configDir := []
  term := []
  gateway := false
  environ := []
  lookupId _ := none

def plainSpec : Spec := ⟨[97], childEnv plainOptions [] ⟨0, [], [], []⟩, [], 0, 0, none⟩

/-- A request that starts the session, and one that attaches to it. -/
def startThenAttach : Schedule :=
  [.spawn (.startSession [97] []), .spawn (.attach [97] [] 24 80 true),
    .thread 0 (.get [97]) none, .thread 0 (.registered [97]) false,
    .thread 0 (.newSession plainSpec) (.ok 0), .thread 0 (.register [97] 0) true,
    .thread 1 (.get [97]) (some 0), .thread 1 (.reply none) (), .thread 0 (.reply none) ()]

/-- Two requests both find no session. The second to register is answered an error. -/
def bothStart : Schedule :=
  [.spawn (.startSession [97] []), .spawn (.startSession [97] []),
    .thread 0 (.get [97]) none, .thread 1 (.get [97]) none,
    .thread 0 (.registered [97]) false, .thread 1 (.registered [97]) false,
    .thread 0 (.newSession plainSpec) (.ok 0), .thread 1 (.newSession plainSpec) (.ok 1),
    .thread 0 (.register [97] 0) true, .thread 1 (.register [97] 1) false,
    .thread 1 (.kill 1) (), .thread 1 (.reply (some errExists)) (), .thread 0 (.reply none) ()]

theorem concurrent_starts_idempotent_attach : ∃ pool,
    Path (visited plainOptions) (oneStartAtATime plainOptions) unvisited startThenAttach
      pool ∧ pool.shared.notes =
        [⟨0, [97], some 0, some 0, some none⟩, ⟨1, [97], none, some 0, some none⟩] ∧
      Idempotent plainOptions [97] pool := by
  have hplay : (play (visited plainOptions) (oneStartAtATime plainOptions) unvisited
      startThenAttach).isSome = true := by decide +kernel
  have hrun := final_path hplay
  exact ⟨_, hrun, by decide +kernel, concurrent_starts_idempotent hrun [97]⟩

theorem second_start_refused : ∃ pool,
    Path (visited plainOptions) anyStep unvisited bothStart pool ∧
      ∃ v ∈ pool.shared.notes, v.id = [97] ∧ v.answer = some (some errExists) := by
  have hplay : (play (visited plainOptions) anyStep unvisited
      bothStart).isSome = true := by decide +kernel
  have hnotes : (⟨1, [97], some 1, none, some (some errExists)⟩ : Visit) ∈
      (final (visited plainOptions) anyStep unvisited bothStart).shared.notes := by
    decide +kernel
  exact ⟨_, final_path hplay, _, hnotes, rfl, rfl⟩

end Lemul.Supervisor.Sessions
