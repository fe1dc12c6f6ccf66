import Lemul.Supervisor.Sessions

/-!
# A running session and its model proxy

`createSession` opens the session's proxy first and puts its address into the environment of
the child; `onSessionExit` closes the proxy that the broker has for the session's id. The exit
of an old process frees its id in the manager before that, so a new process of the same id may
be given the very proxy that is about to be closed. As long as no two uses of one id overlap,
from `Open` to the end of `onSessionExit`, every running session has its proxy.
-/

namespace Lemul.Supervisor.Sessions

open Function List System.Outline Lemul.System

/-- A variable of a child: the last setting counts. -/
def getenv (key : GoString) (env : List GoString) : Option GoString :=
  (env.reverse.find? key.isPrefixOf).map (·.drop key.length)

/-- The base URL in the environment of a process. -/
def Process.baseURL (p : Process) : Option GoString :=
  getenv "ANTHROPIC_BASE_URL=" p.spec.env

theorem getenv_brokered (env : List GoString) (url : GoString) :
    getenv (str "ANTHROPIC_BASE_URL=") (env ++ [str "ANTHROPIC_BASE_URL=" ++ url,
      str "ANTHROPIC_AUTH_TOKEN=" ++ placeholderToken]) = some url := by
  have htoken : (str "ANTHROPIC_BASE_URL=").isPrefixOf
      (str "ANTHROPIC_AUTH_TOKEN=" ++ placeholderToken) = false := by decide +kernel
  have hurl : (str "ANTHROPIC_BASE_URL=").isPrefixOf (str "ANTHROPIC_BASE_URL=" ++ url) = true :=
    isPrefixOf_iff_prefix.mpr (prefix_append _ _)
  simp only [getenv, reverse_append, reverse_cons, reverse_nil, nil_append,
    cons_append, find?_cons, htoken, hurl, Option.map_some, drop_left]

/-! ## Uses of an id -/

/-- The uses under way: who, and of which id. -/
abbrev Uses := List (Nat × GoString)

/-- A use begins with `Open`. It ends with the error that the handler replies, or with the
last step of `onSessionExit`. -/
def noteUse (tid : Nat) : (o : Op) → Res o → Task → Uses → Uses
  | .proxyOf id, _, _, uses => (tid, id) :: uses
  | .reply (some _), _, _, uses => uses.filter (·.1 ≠ tid)
  | .sessionExited _ _, _, _, uses => uses.filter (·.1 ≠ tid)
  | _, _, _, uses => uses

abbrev Watched := Noted Task Uses

def watched (o : Options) : System Op Res Watched Move Request Unit :=
  (supervisor o).noting noteUse

abbrev SessionPool := Pool Op Res Watched Unit

def boot : SessionPool := ⟨⟨.new, []⟩, []⟩

/-- The broker is asked for a proxy only while no other use of the id is under way. -/
def oneUseAtATime (x : Watched) : Label Op Res Move Request → Prop
  | .thread _ (.proxyOf id) _ => ∀ use ∈ x.notes, use.2 ≠ id
  | _ => True

instance (x : Watched) (l : Label Op Res Move Request) : Decidable (oneUseAtATime x l) := by
  unfold oneUseAtATime
  split <;> infer_instance

/-- Sessions and proxies. -/
structure Brokered (x : Watched) : Prop where
  served : ∀ id pid, x.state.manager id = some pid → ∃ p sp, x.state.processes[pid]? = some p ∧
    x.state.broker id = some sp ∧ p.baseURL = some sp.baseURL
  listening : ∀ id sp, x.state.broker id = some sp → sp.sessionID = id ∧ sp ∈ x.state.listening
  used : ∀ id pid, x.state.manager id = some pid → ∃ tid, (tid, id) ∈ x.notes
  once : ∀ tid₁ tid₂ id, (tid₁, id) ∈ x.notes → (tid₂, id) ∈ x.notes → tid₁ = tid₂

/-- Thread `tid` uses no id. -/
def Free (tid : Nat) (x : Watched) : Prop := ∀ id, (tid, id) ∉ x.notes

/-- What thread `tid` uses is out of the manager. -/
def Gone (tid : Nat) (x : Watched) : Prop :=
  ∀ id, (tid, id) ∈ x.notes → x.state.manager id = none

/-- What must be so before a step. -/
def UsePre (tid : Nat) : Op → Watched → Prop
  | .setProxy id sp, x => (tid, id) ∈ x.notes ∧ x.state.manager id = none ∧ sp.sessionID = id ∧
      sp ∈ x.state.listening
  | .register id pid, x => (tid, id) ∈ x.notes ∧ ∃ sp p, x.state.broker id = some sp ∧
      x.state.processes[pid]? = some p ∧ p.baseURL = some sp.baseURL
  | .unregister id, x => (tid, id) ∈ x.notes
  | .takeProxy id, x => (tid, id) ∈ x.notes ∧ x.state.manager id = none
  | .closeProxy sp, x => (tid, sp.sessionID) ∈ x.notes ∧ x.state.broker sp.sessionID = none
  | .reply (some _), x => Gone tid x
  | .sessionExited _ _, x => Gone tid x
  | _, _ => True

/-- What others leave alone. -/
structure UseRely (tid : Nat) (x x' : Watched) : Prop where
  uses : ∀ id, (tid, id) ∈ x'.notes ↔ (tid, id) ∈ x.notes
  broker : ∀ id, (tid, id) ∈ x.notes → x'.state.broker id = x.state.broker id
  manager : ∀ id, (tid, id) ∈ x.notes → x'.state.manager id = x.state.manager id
  listening : ∀ sp ∈ x.state.listening, (tid, sp.sessionID) ∈ x.notes → sp ∈ x'.state.listening
  processes : ∀ (pid : Nat) p, x.state.processes[pid]? = some p →
    ∃ p', x'.state.processes[pid]? = some p' ∧ p'.spec = p.spec

theorem UseRely.refl (tid : Nat) (x : Watched) : UseRely tid x x :=
  ⟨fun _ => Iff.rfl, fun _ _ => rfl, fun _ _ => rfl, fun _ h _ => h, fun _ p h => ⟨p, h, rfl⟩⟩

theorem UseRely.trans {tid : Nat} {x₁ x₂ x₃ : Watched} (h₁ : UseRely tid x₁ x₂)
    (h₂ : UseRely tid x₂ x₃) : UseRely tid x₁ x₃ where
  uses id := (h₂.uses id).trans (h₁.uses id)
  broker id h := (h₂.broker id ((h₁.uses id).mpr h)).trans (h₁.broker id h)
  manager id h := (h₂.manager id ((h₁.uses id).mpr h)).trans (h₁.manager id h)
  listening sp h huse := h₂.listening sp (h₁.listening sp h huse) ((h₁.uses _).mpr huse)
  processes pid p h := by
    obtain ⟨p₂, h₂', hspec₂⟩ := h₁.processes pid p h
    obtain ⟨p₃, h₃, hspec₃⟩ := h₂.processes pid p₂ h₂'
    exact ⟨p₃, h₃, hspec₃.trans hspec₂⟩

/-! ## Steps -/

section Steps

variable {tid : Nat} {x x' : Watched}

/-- Nothing changes that a use depends on. -/
theorem Brokered.keeps {s : Task} (h : Brokered x) (hbroker : s.broker = x.state.broker)
    (hmanager : s.manager = x.state.manager) (hlistening : s.listening = x.state.listening)
    (hprocesses : s.processes = x.state.processes) :
    Brokered ⟨s, x.notes⟩ ∧ ∀ tid, UseRely tid x ⟨s, x.notes⟩ := by
  obtain ⟨⟨_, _, _, _, _, _, _⟩, _⟩ := x
  obtain ⟨_, _, _, _, _, _, _⟩ := s
  cases hbroker
  cases hmanager
  cases hlistening
  cases hprocesses
  refine ⟨⟨h.served, h.listening, h.used, h.once⟩, fun tid => ?_⟩
  exact ⟨fun _ => Iff.rfl, fun _ _ => rfl, fun _ _ => rfl, fun _ h _ => h, fun _ p h => ⟨p, h, rfl⟩⟩

variable {id : GoString} {sp : SessionProxy}

/-- Two threads do not use the same id. -/
theorem Brokered.apart (h : Brokered x) {other : Nat} {id' : GoString} (hother : other ≠ tid)
    (huse : (tid, id) ∈ x.notes) (huse' : (other, id') ∈ x.notes) : id' ≠ id := by
  rintro rfl
  exact hother (h.once _ _ _ huse' huse)

/-- A use ends once its session is out of the manager. -/
theorem brokered_end (h : Brokered x) (hgone : Gone tid x) :
    let x' : Watched := ⟨x.state, x.notes.filter (·.1 ≠ tid)⟩
    Brokered x' ∧ ∀ other, other ≠ tid → UseRely other x x' := by
  have hold : ∀ use ∈ x.notes.filter (·.1 ≠ tid), use ∈ x.notes :=
    fun use huse => (mem_filter.mp huse).1
  have hkept : ∀ other id, other ≠ tid → (other, id) ∈ x.notes →
      (other, id) ∈ x.notes.filter (·.1 ≠ tid) :=
    fun other id hother huse => mem_filter.mpr ⟨huse, decide_eq_true hother⟩
  refine ⟨⟨h.served, h.listening, fun id pid hpid => ?_, fun tid₁ tid₂ id h₁ h₂ => ?_⟩,
    fun other hother => ?_⟩
  · obtain ⟨user, huser⟩ := h.used id pid hpid
    refine ⟨user, hkept user id ?_ huser⟩
    rintro rfl
    rw [hgone id huser] at hpid
    cases hpid
  · exact h.once tid₁ tid₂ id (hold _ h₁) (hold _ h₂)
  · exact ⟨fun id => ⟨hold _, hkept other id hother⟩, fun _ _ => rfl, fun _ _ => rfl,
      fun _ hsp _ => hsp, fun _ p hp => ⟨p, hp, rfl⟩⟩

/-- A use begins while there is no other. -/
theorem brokered_begin (h : Brokered x) (hcond : ∀ use ∈ x.notes, use.2 ≠ id) :
    let x' : Watched := ⟨x.state, (tid, id) :: x.notes⟩
    Brokered x' ∧ ∀ other, other ≠ tid → UseRely other x x' := by
  refine ⟨⟨h.served, h.listening, fun id' pid hpid => ?_, fun tid₁ tid₂ id' h₁ h₂ => ?_⟩,
    fun other hother => ?_⟩
  · obtain ⟨user, huser⟩ := h.used id' pid hpid
    exact ⟨user, mem_cons_of_mem _ huser⟩
  · rcases mem_cons.mp h₁ with h₁ | h₁
    · cases h₁
      rcases mem_cons.mp h₂ with h₂ | h₂
      · cases h₂
        rfl
      · exact absurd rfl (hcond _ h₂)
    · rcases mem_cons.mp h₂ with h₂ | h₂
      · cases h₂
        exact absurd rfl (hcond _ h₁)
      · exact h.once tid₁ tid₂ id' h₁ h₂
  · refine ⟨fun id' => ⟨fun huse => ?_, mem_cons_of_mem _⟩, fun _ _ => rfl, fun _ _ => rfl,
      fun _ hsp _ => hsp, fun _ p hp => ⟨p, hp, rfl⟩⟩
    rcases mem_cons.mp huse with huse | huse
    · cases huse
      exact absurd rfl hother
    · exact huse

/-- Processes are forked, and may end, but keep their environment. -/
theorem brokered_processes {processes : List Process} (h : Brokered x)
    (hkept : ∀ (pid : Nat) p, x.state.processes[pid]? = some p →
      ∃ p', processes[pid]? = some p' ∧ p'.spec = p.spec) :
    let x' : Watched := ⟨{ x.state with processes := processes }, x.notes⟩
    Brokered x' ∧ ∀ tid, UseRely tid x x' := by
  refine ⟨⟨fun id pid hpid => ?_, h.listening, h.used, h.once⟩, fun tid => ?_⟩
  · obtain ⟨p, sp, hp, hsp, hurl⟩ := h.served id pid hpid
    obtain ⟨p', hp', hsame⟩ := hkept pid p hp
    refine ⟨p', sp, hp', hsp, ?_⟩
    rw [Process.baseURL, hsame]
    exact hurl
  · exact ⟨fun _ => Iff.rfl, fun _ _ => rfl, fun _ _ => rfl, fun _ hsp _ => hsp, hkept⟩

/-- The one user of an id may change what the registries have for it. -/
theorem brokered_at {broker : GoString → Option SessionProxy} {manager : GoString → Option Nat}
    {listening : List SessionProxy} (h : Brokered x) (huse : (tid, id) ∈ x.notes)
    (hbroker : ∀ id', id' ≠ id → broker id' = x.state.broker id')
    (hmanager : ∀ id', id' ≠ id → manager id' = x.state.manager id')
    (hlistening : ∀ sp ∈ x.state.listening, sp.sessionID ≠ id → sp ∈ listening)
    (hserved : ∀ pid, manager id = some pid → ∃ p sp, x.state.processes[pid]? = some p ∧
      broker id = some sp ∧ p.baseURL = some sp.baseURL)
    (hheard : ∀ sp, broker id = some sp → sp.sessionID = id ∧ sp ∈ listening) :
    let x' : Watched := ⟨{ x.state with broker, manager, listening }, x.notes⟩
    Brokered x' ∧ ∀ other, other ≠ tid → UseRely other x x' := by
  refine ⟨⟨fun id' pid hpid => ?_, fun id' sp hsp => ?_, fun id' pid hpid => ?_, h.once⟩,
    fun other hother => ⟨fun _ => Iff.rfl, ?_, ?_, ?_, fun _ p hp => ⟨p, hp, rfl⟩⟩⟩
  · by_cases heq : id' = id
    · subst heq
      exact hserved pid hpid
    · obtain ⟨p, sp, hp, hsp, hurl⟩ := h.served id' pid ((hmanager id' heq).symm.trans hpid)
      exact ⟨p, sp, hp, (hbroker id' heq).trans hsp, hurl⟩
  · by_cases heq : id' = id
    · subst heq
      exact hheard sp hsp
    · obtain ⟨hid, hmem⟩ := h.listening id' sp ((hbroker id' heq).symm.trans hsp)
      exact ⟨hid, hlistening sp hmem (hid.trans_ne heq)⟩
  · by_cases heq : id' = id
    · exact ⟨tid, heq ▸ huse⟩
    · exact h.used id' pid ((hmanager id' heq).symm.trans hpid)
  · exact fun id' huse' => hbroker id' (h.apart hother huse huse')
  · exact fun id' huse' => hmanager id' (h.apart hother huse huse')
  · exact fun sp hmem huse' => hlistening sp hmem (h.apart hother huse huse')

/-- Every step keeps the registries in order. -/
theorem brokered_exec {o : Options} {op : Op} {r : Res op} (h : Brokered x)
    (hpre : UsePre tid op x) (hcond : oneUseAtATime x (.thread tid op r))
    (hstep : (watched o).exec tid op r x = some x') :
    Brokered x' ∧ ∀ other, other ≠ tid → UseRely other x x' := by
  have hall : (Brokered x' ∧ ∀ other, UseRely other x x') →
      Brokered x' ∧ ∀ other, other ≠ tid → UseRely other x x' :=
    And.imp_right fun hrely other _ => hrely other
  obtain ⟨s', uses'⟩ := x'
  obtain ⟨hexec, hnotes⟩ := noting_exec.mp hstep
  cases hnotes
  cases supervisor_rule hexec with
  | proxyOf => exact brokered_begin h hcond
  | listens =>
    refine ⟨⟨h.served, fun id' sp' hsp => ?_, h.used, h.once⟩, fun _ _ => ⟨fun _ => Iff.rfl,
      fun _ _ => rfl, fun _ _ => rfl, fun _ hsp _ => mem_cons_of_mem _ hsp,
      fun _ p hp => ⟨p, hp, rfl⟩⟩⟩
    exact (h.listening id' sp' hsp).imp_right (mem_cons_of_mem _)
  | @setProxy id sp =>
    obtain ⟨huse, hnone, hid, hmem⟩ := hpre
    refine brokered_at h huse (fun _ hne => update_of_ne hne _ _) (fun _ _ => rfl)
      (fun _ h _ => h) (fun pid hpid => nomatch hnone.symm.trans hpid) fun sp' hsp => ?_
    obtain rfl : sp = sp' := by simpa using hsp
    exact ⟨hid, hmem⟩
  | forks =>
    exact hall (brokered_processes h fun pid p hp => ⟨p, getElem?_concat_old hp _, rfl⟩)
  | @registers id pid =>
    obtain ⟨huse, sp, p, hsp, hp, hurl⟩ := hpre
    refine brokered_at h huse (fun _ _ => rfl) (fun _ hne => update_of_ne hne _ _)
      (fun _ h _ => h) (fun pid' hpid => ?_) (h.listening id)
    obtain rfl : pid = pid' := by simpa using hpid
    exact ⟨p, sp, hp, hsp, hurl⟩
  | @unregister id =>
    refine brokered_at h hpre (fun _ _ => rfl) (fun _ hne => update_of_ne hne _ _)
      (fun _ h _ => h) (fun pid hpid => ?_) (h.listening id)
    exact nomatch (update_self _ _ _).symm.trans hpid
  | takeProxy =>
    obtain ⟨huse, hnone⟩ := hpre
    refine brokered_at h huse (fun _ hne => update_of_ne hne _ _) (fun _ _ => rfl)
      (fun _ h _ => h) (fun pid hpid => nomatch hnone.symm.trans hpid) fun sp hsp => ?_
    exact nomatch (update_self _ _ _).symm.trans hsp
  | @closeProxy sp =>
    obtain ⟨huse, hnone⟩ := hpre
    exact brokered_at h huse (fun _ _ => rfl) (fun _ _ => rfl)
      (fun sp' hmem hne => (mem_erase_of_ne fun heq => hne (congrArg _ heq)).mpr hmem)
      (h.served sp.sessionID) fun sp' hsp => nomatch hnone.symm.trans hsp
  | sessionExited => exact brokered_end h hpre
  | @reply err =>
    cases err with
    | none => exact hall (h.keeps rfl rfl rfl rfl)
    | some msg => exact brokered_end h hpre
  | _ => exact hall (h.keeps rfl rfl rfl rfl)

/-- So does everything that happens beside the handlers. -/
theorem brokered_move {o : Options} {m : Move} (h : Brokered x)
    (hmove : (watched o).env m x = some x') : Brokered x' ∧ ∀ tid, UseRely tid x x' := by
  obtain ⟨s', uses'⟩ := x'
  obtain ⟨hmove, hnotes⟩ := noting_env.mp hmove
  cases hnotes
  cases m with
  | announce id who =>
    cases hmove
    exact h.keeps rfl rfl rfl rfl
  | exit pid =>
    obtain ⟨p, hp, -, rfl⟩ := move_exit hmove
    refine brokered_processes h fun pid' q hq => ?_
    by_cases heq : pid' = pid
    · subst heq
      obtain rfl := Option.some.inj (hp.symm.trans hq)
      exact ⟨_, getElem?_set_same hp _, rfl⟩
    · exact ⟨q, (getElem?_set_ne (Ne.symm heq)).trans hq, rfl⟩

end Steps

/-- Handlers side by side. -/
def useOutline (o : Options) : Outline (watched o) oneUseAtATime where
  inv := Brokered
  rely := UseRely
  pre := UsePre
  post tid _ := Free tid
  rely_refl := UseRely.refl
  rely_trans _ _ _ _ := UseRely.trans
  op_ok := brokered_exec
  env_ok h _ := brokered_move h

/-! ## The handlers -/

/-- Thread `tid` uses `id` and no other. -/
structure Using (tid : Nat) (id : GoString) (x : Watched) : Prop where
  own : (tid, id) ∈ x.notes
  only : ∀ id', (tid, id') ∈ x.notes → id' = id

/-- The use has no session in the manager. -/
structure Unregistered (tid : Nat) (id : GoString) (x : Watched) : Prop extends Using tid id x where
  manager : x.state.manager id = none

section Handlers

variable {o : Options} {tid : Nat} {id : GoString} {x x' : Watched}

theorem Free.rely (h : Free tid x) (hrely : UseRely tid x x') : Free tid x' :=
  fun id huse => h id ((hrely.uses id).mp huse)

theorem Free.of_notes (h : Free tid x) (hnotes : x'.notes = x.notes) : Free tid x' :=
  fun id huse => h id (hnotes ▸ huse)

theorem Free.gone (h : Free tid x) : Gone tid x := fun id huse => absurd huse (h id)

theorem Using.rely (h : Using tid id x) (hrely : UseRely tid x x') : Using tid id x' :=
  ⟨(hrely.uses id).mpr h.own, fun id' huse => h.only id' ((hrely.uses id').mp huse)⟩

theorem Unregistered.rely (h : Unregistered tid id x) (hrely : UseRely tid x x') :
    Unregistered tid id x' :=
  ⟨h.toUsing.rely hrely, (hrely.manager id h.own).trans h.manager⟩

theorem Unregistered.gone (h : Unregistered tid id x) : Gone tid x := by
  intro id' huse
  rw [h.only id' huse]
  exact h.manager

theorem Using.of_notes (h : Using tid id x) (hnotes : x'.notes = x.notes) : Using tid id x' :=
  ⟨hnotes ▸ h.own, fun id' huse => h.only id' (hnotes ▸ huse)⟩

theorem identityFor_safe (h : Free tid x) :
    (useOutline o).Safe tid (identityFor o id) (fun _ => Free tid) x := by
  refine safe_of_performs (K := Free tid) performs_identityFor (fun _ _ hrely h => h.rely hrely)
    (fun _ _ _ _ _ => trivial) ?_ ?_ h
  · intro op s hop _ _
    cases op <;> trivial
  · intro op r s s' hop hexec hnone
    obtain ⟨-, hnotes⟩ := noting_exec.mp hexec
    refine hnone.of_notes (hnotes.trans ?_)
    cases op <;> first | rfl | exact hop.elim

theorem openProxy_safe (h : Free tid x) :
    (useOutline o).Safe tid (openProxy id) (fun r x' => Unregistered tid id x' ∧
      ∀ sp, r = .ok sp → x'.state.broker id = some sp) x := by
  refine safe_noted fun x₁ hrely₁ hinv₁ => ⟨trivial, ?_⟩
  rintro r ⟨s₂, uses₂⟩ hexec hnotes hcond -
  cases supervisor_rule hexec
  have hfree : x₁.state.manager id = none := by
    cases hpid : x₁.state.manager id with
    | none => rfl
    | some pid =>
      obtain ⟨user, huser⟩ := hinv₁.used id pid hpid
      exact absurd rfl (hcond _ huser)
  have hunregistered : Unregistered tid id ⟨x₁.state, uses₂⟩ := by
    refine ⟨⟨?_, fun id' huse => ?_⟩, hfree⟩
    · rw [hnotes]
      exact mem_cons_self
    · rw [hnotes] at huse
      rcases mem_cons.mp huse with huse | huse
      · exact (Prod.mk.inj huse).2
      · exact absurd ((hrely₁.uses id').mp huse) (h id')
  cases hsp : x₁.state.broker id with
  | some sp =>
    refine ⟨hunregistered, fun sp' heq => ?_⟩
    rw [hsp, Except.ok.inj heq]
  | none =>
    refine safe_noted fun x₃ hrely₃ hinv₃ => ⟨trivial, ?_⟩
    rintro r ⟨s₄, uses₄⟩ hlisten hnotes₄ - -
    have h₃ := hunregistered.rely hrely₃
    cases supervisor_rule hlisten with
    | listenFails =>
      exact ⟨⟨h₃.toUsing.of_notes hnotes₄, h₃.manager⟩, nofun⟩
    | @listens _ sp hid =>
      have h₄ : Unregistered tid id ⟨_, uses₄⟩ := ⟨h₃.toUsing.of_notes hnotes₄, h₃.manager⟩
      refine safe_noted fun x₅ hrely₅ _ => ?_
      have h₅ := h₄.rely hrely₅
      have hmem : sp ∈ x₅.state.listening := by
        refine hrely₅.listening sp mem_cons_self ?_
        rw [hid]
        exact h₄.own
      refine ⟨⟨h₅.own, h₅.manager, hid, hmem⟩, ?_⟩
      rintro r ⟨s₆, uses₆⟩ hset hnotes₆ - -
      cases supervisor_rule hset
      refine ⟨⟨h₅.toUsing.of_notes hnotes₆, h₅.manager⟩, ?_⟩
      intro sp' heq
      obtain rfl := Except.ok.inj heq
      exact update_self _ _ _

variable {term : GoString}

theorem sessionEnv_safe {who : Identity} (hgateway : o.gateway = true) (h : Free tid x) :
    (useOutline o).Safe tid (sessionEnv o id term who) (fun r x' => Unregistered tid id x' ∧
      ∀ env, r = .ok env → ∃ sp, x'.state.broker id = some sp ∧
        getenv "ANTHROPIC_BASE_URL=" env = some sp.baseURL) x := by
  unfold sessionEnv
  rw [if_pos hgateway]
  refine .bind ((openProxy_safe h).mono ?_)
  rintro (err | sp) x₁ ⟨hunregistered, hbroker⟩
  · exact ⟨hunregistered, nofun⟩
  · refine ⟨hunregistered, fun env heq => ⟨sp, hbroker sp rfl, ?_⟩⟩
    rw [← Except.ok.inj heq]
    exact getenv_brokered _ _

theorem create_safe {spec : Spec} {sp : SessionProxy} (h : Unregistered tid spec.id x)
    (hbroker : x.state.broker spec.id = some sp)
    (henv : getenv "ANTHROPIC_BASE_URL=" spec.env = some sp.baseURL) :
    (useOutline o).Safe tid (create spec) (fun r x' => Using tid spec.id x' ∧
      ∀ err, r = .error err → x'.state.manager spec.id = none) x := by
  refine safe_noted fun x₁ hrely₁ _ => ⟨trivial, ?_⟩
  rintro r ⟨s₂, uses₂⟩ hexec hnotes - -
  have h₁ := h.rely hrely₁
  have hbroker₁ : x₁.state.broker spec.id = some sp := (hrely₁.broker spec.id h.own).trans hbroker
  cases supervisor_rule hexec
  have h₂ : Unregistered tid spec.id ⟨x₁.state, uses₂⟩ := ⟨h₁.toUsing.of_notes hnotes, h₁.manager⟩
  rw [h₁.manager]
  refine safe_noted fun x₃ hrely₃ _ => ⟨trivial, ?_⟩
  rintro r ⟨s₄, uses₄⟩ hfork hnotes₄ - -
  have h₃ := h₂.rely hrely₃
  have hbroker₃ : x₃.state.broker spec.id = some sp :=
    (hrely₃.broker spec.id h₂.own).trans hbroker₁
  cases supervisor_rule hfork with
  | forkFails => exact ⟨h₃.toUsing.of_notes hnotes₄, fun err _ => h₃.manager⟩
  | forks =>
    have h₄ : Unregistered tid spec.id ⟨_, uses₄⟩ := ⟨h₃.toUsing.of_notes hnotes₄, h₃.manager⟩
    refine safe_noted fun x₅ hrely₅ _ => ?_
    have h₅ := h₄.rely hrely₅
    obtain ⟨p, hp, hspec⟩ := hrely₅.processes _ ⟨spec, true⟩ getElem?_concat_length
    have hurl : p.baseURL = some sp.baseURL := by
      rw [Process.baseURL, hspec]
      exact henv
    refine ⟨⟨h₅.own, sp, p, (hrely₅.broker spec.id h₄.own).trans hbroker₃, hp, hurl⟩, ?_⟩
    rintro r ⟨s₆, uses₆⟩ hregister hnotes₆ - -
    cases supervisor_rule hregister with
    | registers => exact ⟨h₅.toUsing.of_notes hnotes₆, nofun⟩
    | taken htaken => exact absurd h₅.manager htaken

theorem createSession_safe {rows cols : Nat} (hgateway : o.gateway = true) (h : Free tid x) :
    (useOutline o).Safe tid (createSession o id term rows cols) (fun r x' =>
      match r with
      | .ok _ => Using tid id x'
      | .error _ => Gone tid x') x := by
  refine .bind ((identityFor_safe h).mono ?_)
  rintro (err | who) x₁ hnone
  · exact hnone.gone
  · refine .bind ((sessionEnv_safe hgateway hnone).mono ?_)
    rintro (err | env) x₂ ⟨hunregistered, henv⟩
    · exact hunregistered.gone
    · obtain ⟨sp, hbroker, hurl⟩ := henv env rfl
      refine (create_safe hunregistered hbroker hurl).mono ?_
      rintro (err | pid) x₃ ⟨husing, hgone⟩
      · exact Unregistered.gone ⟨husing, hgone err rfl⟩
      · exact husing

/-- A thread is done with a use once it has left the notes. -/
theorem end_safe {op : Op}
    (hop : (∃ msg, op = .reply (some msg)) ∨ ∃ id code, op = .sessionExited id code)
    {f : Res op → Prog Op Res Unit} (hf : ∀ r, f r = .ret ()) (h : Gone tid x) :
    (useOutline o).Safe tid (Prog.perform op >>= f) (fun _ => Free tid) x := by
  refine safe_noted fun x₁ hrely _ => ?_
  have hgone : Gone tid x₁ := by
    intro id' huse
    have huse' := (hrely.uses id').mp huse
    exact (hrely.manager id' huse').trans (h id' huse')
  have hleft : ∀ x₂ : Watched, x₂.notes = x₁.notes.filter (·.1 ≠ tid) → Free tid x₂ := by
    intro x₂ hnotes id' huse
    rw [hnotes] at huse
    exact of_decide_eq_true (mem_filter.mp huse).2 rfl
  rcases hop with ⟨msg, rfl⟩ | ⟨id, code, rfl⟩
  all_goals
    refine ⟨hgone, fun r x₂ _ hnotes _ _ => ?_⟩
    rw [hf r]
    exact hleft x₂ hnotes

theorem finish_safe {pid : Nat} (hgateway : o.gateway = true) (h : Using tid id x) :
    (useOutline o).Safe tid (finish o id pid) (fun _ => Free tid) x := by
  refine safe_noted fun x₁ hrely₁ _ => ⟨trivial, fun code x₂ _ hnotes₂ _ _ => ?_⟩
  have h₂ := (h.rely hrely₁).of_notes hnotes₂
  refine safe_noted fun x₃ hrely₃ _ =>
    ⟨(h₂.rely hrely₃).own, fun _ x₄ hunregister hnotes₄ _ _ => ?_⟩
  have h₄ : Unregistered tid id x₄ := by
    obtain ⟨s₄, uses₄⟩ := x₄
    cases hunregister
    exact ⟨(h₂.rely hrely₃).of_notes hnotes₄, update_self _ _ _⟩
  unfold onSessionExit
  rw [if_pos hgateway]
  refine .bind ?_
  unfold closeSession
  refine safe_noted fun x₅ hrely₅ hinv₅ => ?_
  have h₅ := h₄.rely hrely₅
  refine ⟨⟨h₅.own, h₅.manager⟩, ?_⟩
  rintro r ⟨s₆, uses₆⟩ htake hnotes₆ - -
  cases supervisor_rule htake
  have h₆ : Unregistered tid id ⟨_, uses₆⟩ := ⟨h₅.toUsing.of_notes hnotes₆, h₅.manager⟩
  cases hr : x₅.state.broker id with
  | none => exact end_safe (.inr ⟨id, code, rfl⟩) (fun _ => rfl) h₆.gone
  | some sp =>
    obtain ⟨hid, -⟩ := hinv₅.listening id sp hr
    refine safe_noted fun x₇ hrely₇ _ => ?_
    have h₇ := h₆.rely hrely₇
    have hnone : x₇.state.broker id = none :=
      (hrely₇.broker id h₆.own).trans (update_self _ _ _)
    refine ⟨?_, ?_⟩
    · rw [← hid] at hnone h₇
      exact ⟨h₇.own, hnone⟩
    · rintro r ⟨s₈, uses₈⟩ hclose hnotes₈ - -
      cases supervisor_rule hclose
      have h₈ : Unregistered tid id ⟨_, uses₈⟩ := ⟨h₇.toUsing.of_notes hnotes₈, h₇.manager⟩
      exact end_safe (.inr ⟨id, code, rfl⟩) (fun _ => rfl) h₈.gone

theorem start_safe {rows cols : Nat} (hgateway : o.gateway = true) (h : Free tid x) :
    (useOutline o).Safe tid (start o id term rows cols) (fun _ => Free tid) x := by
  refine .bind ((createSession_safe hgateway h).mono ?_)
  rintro (err | pid) x₁ hcreated
  · exact end_safe (.inl ⟨err, rfl⟩) (fun _ => rfl) hcreated
  · refine safe_noted fun x₂ hrely₂ _ => ⟨trivial, fun _ x₃ _ hnotes₃ _ _ => ?_⟩
    exact finish_safe hgateway ((hcreated.rely hrely₂).of_notes hnotes₃)

theorem handle_safe {q : Request} (hgateway : o.gateway = true) (h : Free tid x) :
    (useOutline o).Safe tid (handle o q) (fun _ => Free tid) x := by
  -- both handlers go on from the look-up of the session
  have look : ∀ (id : GoString) (f : Option Nat → Prog Op Res Unit),
      (∀ pid, f (some pid) = call (.reply none)) →
      (∀ x₁, Free tid x₁ → (useOutline o).Safe tid (f none) (fun _ => Free tid) x₁) →
      (useOutline o).Safe tid (call (.get id) >>= f) (fun _ => Free tid) x := by
    intro id f hfound hmissing
    refine safe_noted fun x₁ hrely₁ _ => ⟨trivial, fun r x₂ _ hnotes₂ _ _ => ?_⟩
    have h₂ : Free tid x₂ := (h.rely hrely₁).of_notes hnotes₂
    cases r with
    | some pid =>
      rw [hfound pid]
      refine safe_noted fun x₃ hrely₃ _ => ⟨trivial, fun _ x₄ _ hnotes₄ _ _ => ?_⟩
      exact (h₂.rely hrely₃).of_notes hnotes₄
    | none => exact hmissing x₂ h₂
  cases q with
  | startSession id term =>
    change (useOutline o).Safe tid (handleStartSession o id term) _ x
    unfold handleStartSession
    split
    · exact end_safe (.inl ⟨_, rfl⟩) (fun _ => rfl) h.gone
    · exact look id _ (fun _ => rfl) fun x₁ h₁ => start_safe hgateway h₁
  | attach id term rows cols mayCreate =>
    change (useOutline o).Safe tid (handleAttach o id term rows cols mayCreate) _ x
    unfold handleAttach
    split
    · exact end_safe (.inl ⟨_, rfl⟩) (fun _ => rfl) h.gone
    · refine look id _ (fun _ => rfl) fun x₁ h₁ => ?_
      dsimp only
      split
      · exact start_safe hgateway h₁
      · exact end_safe (.inl ⟨_, rfl⟩) (fun _ => rfl) h₁.gone

end Handlers

/-! ## Every run -/

theorem brokered_boot : Brokered boot.shared where
  served _ _ h := by cases h
  listening _ _ h := by cases h
  used _ _ h := by cases h
  once _ _ _ h := by cases h

/-- In every run of a supervisor with a gateway in which no two uses of an id overlap, the base
URL of every session that is registered and runs is the address of a proxy that is open and
registered in the broker for that session. -/
theorem running_session_has_proxy (o : Options) (hgateway : o.gateway = true)
    {tr : Schedule} {pool : SessionPool}
    (hrun : Path (watched o) oneUseAtATime boot tr pool) :
    ∀ id pid p, pool.shared.state.manager id = some pid →
      pool.shared.state.processes[pid]? = some p → p.running = true →
      ∃ sp, pool.shared.state.broker id = some sp ∧ sp ∈ pool.shared.state.listening ∧
        sp.sessionID = id ∧ p.baseURL = some sp.baseURL := by
  have hholds : Brokered pool.shared :=
    ((useOutline o).sound_idle (R := Free) (fun _ _ _ h => h) (fun _ _ _ hrely h => h.rely hrely)
      (fun q x p tid _ h _ hp => by
        cases hp
        exact handle_safe hgateway h)
      ⟨brokered_boot, nofun⟩ nofun hrun).1.1
  intro id pid p hpid hp _
  obtain ⟨q, sp, hq, hsp, hurl⟩ := hholds.served id pid hpid
  obtain rfl := Option.some.inj (hp.symm.trans hq)
  obtain ⟨hid, hmem⟩ := hholds.listening id sp hsp
  exact ⟨sp, hsp, hmem, hid, hurl⟩

/-! ## A session that is started again while it ends -/

def demoOptions : Options where
  euid := 1000
  sessionUID := 0
  configDir := "/workspace/.claude"
  term := "xterm-256color"
  gateway := true
  environ := []
  lookupId _ := none

def demoProxy (number port : Nat) : SessionProxy := ⟨number, "s1", port⟩

/-- What `createSession` forks for the session behind a proxy. -/
def demoSpec (sp : SessionProxy) : Spec :=
  let who : Identity := ⟨0, [], [], demoOptions.configDir⟩
  ⟨"s1", childEnv demoOptions demoOptions.term who ++
    ["ANTHROPIC_BASE_URL=" ++ sp.baseURL, "ANTHROPIC_AUTH_TOKEN=" ++ placeholderToken],
    [], 0, 0, none⟩

/-- A session is started and its process ends; `reap` has freed the id. -/
def endedOnce : Schedule :=
  [.spawn (.startSession "s1" []),
    .thread 0 (.get "s1") none,
    .thread 0 (.proxyOf "s1") none,
    .thread 0 (.listen "s1") (.ok (demoProxy 0 40001)),
    .thread 0 (.setProxy "s1" (demoProxy 0 40001)) (),
    .thread 0 (.registered "s1") false,
    .thread 0 (.newSession (demoSpec (demoProxy 0 40001))) (.ok 0),
    .thread 0 (.register "s1" 0) true,
    .thread 0 (.reply none) (),
    .env (.exit 0),
    .thread 0 (.wait 0) (0 : Int),
    .thread 0 (.unregister "s1") ()]

/-- `onSessionExit` of the first process. -/
def exitCallback : Schedule :=
  [.thread 0 (.takeProxy "s1") (some (demoProxy 0 40001)),
    .thread 0 (.closeProxy (demoProxy 0 40001)) (),
    .thread 0 (.sessionExited "s1" 0) ()]

/-- The session is started again before the callback: `Open` returns the old proxy, and the
callback closes it. -/
def proxyLost : SessionPool :=
  final (watched demoOptions) anyStep boot (endedOnce ++
    ([.spawn (.startSession "s1" []),
       .thread 1 (.get "s1") none,
       .thread 1 (.proxyOf "s1") (some (demoProxy 0 40001)),
       .thread 1 (.registered "s1") false,
       .thread 1 (.newSession (demoSpec (demoProxy 0 40001))) (.ok 1),
       .thread 1 (.register "s1" 1) true] : Schedule) ++ exitCallback)

theorem running_session_without_proxy :
    ∃ tr, Path (watched demoOptions) anyStep boot tr proxyLost ∧
      proxyLost.shared.state.manager "s1" = some 1 ∧
      proxyLost.shared.state.processes[1]? = some ⟨demoSpec (demoProxy 0 40001), true⟩ ∧
      proxyLost.shared.state.broker "s1" = none ∧
      proxyLost.shared.state.listening = [] :=
  ⟨_, final_path (by decide +kernel), by decide +kernel, by decide +kernel,
    by decide +kernel, by decide +kernel⟩

/-- The session is started again after the callback. -/
def proxyKept : SessionPool :=
  final (watched demoOptions) oneUseAtATime boot (endedOnce ++ exitCallback ++
    ([.spawn (.startSession "s1" []),
       .thread 1 (.get "s1") none,
       .thread 1 (.proxyOf "s1") none,
       .thread 1 (.listen "s1") (.ok (demoProxy 1 40002)),
       .thread 1 (.setProxy "s1" (demoProxy 1 40002)) (),
       .thread 1 (.registered "s1") false,
       .thread 1 (.newSession (demoSpec (demoProxy 1 40002))) (.ok 1),
       .thread 1 (.register "s1" 1) true] : Schedule))

theorem running_session_has_proxy_again :
    ∃ sp, proxyKept.shared.state.broker "s1" = some sp ∧
      sp ∈ proxyKept.shared.state.listening ∧ sp.sessionID = "s1" ∧
      Process.baseURL ⟨demoSpec (demoProxy 1 40002), true⟩ = some sp.baseURL := by
  have hrun : Path (watched demoOptions) oneUseAtATime boot _ proxyKept :=
    final_path (by decide +kernel)
  exact running_session_has_proxy demoOptions rfl hrun "s1" 1
    ⟨demoSpec (demoProxy 1 40002), true⟩ (by decide +kernel) (by decide +kernel) rfl

end Lemul.Supervisor.Sessions
