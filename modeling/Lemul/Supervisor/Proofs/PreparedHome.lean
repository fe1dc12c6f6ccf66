import Lemul.Supervisor.Sessions

/-!
# A session's home

`identityFor` has the home of a member built once (`supervisor.go:548-554`). That it will not be
built again is recorded before it is built (`identity.go:84-93`): a second session of the member
does not wait for the work that the first has begun, and nobody repeats it when it has failed.
-/

namespace Lemul.Supervisor.Sessions

open List System.Outline Lemul.System

/-- The uids for which `provisionHome` has returned without error. -/
def notePrepared (_ : Nat) : (o : Op) → Res o → Task → List Nat → List Nat
  | .provisionHome who, none, _, uids => who.uid :: uids
  | _, _, _, uids => uids

abbrev Housed := Noted Task (List Nat)

def housed (o : Options) : System Op Res Housed Move Request Unit :=
  (supervisor o).noting notePrepared

def unhoused : Pool Op Res Housed Unit := ⟨⟨.new, []⟩, []⟩

/-- Every process that was forked at a uid is in a home that was prepared. -/
def HomesPrepared (x : Housed) : Prop :=
  ∀ p ∈ x.state.processes, ∀ uid, p.spec.credential = some uid → uid ∈ x.notes

/-- A uid is found to be marked only when its home has been prepared. -/
def markedWhenPrepared (x : Housed) : Label Op Res Move Request → Prop
  | .thread _ (.markProvisioned uid) first => first = false → uid ∈ x.notes
  | _ => True

instance (x : Housed) (l : Label Op Res Move Request) : Decidable (markedWhenPrepared x l) := by
  induction l using Label.casesOn with
  | thread tid o r =>
    induction o using Op.casesOn <;> dsimp only [markedWhenPrepared] <;> infer_instance
  | _ => exact isTrue trivial

/-- A fork at a uid needs its home. -/
def ForkPre : Op → Housed → Prop
  | .newSession spec, x => ∀ uid, spec.credential = some uid → uid ∈ x.notes
  | _, _ => True

theorem Op.NoFork.forkPre {op : Op} {x : Housed} (h : op.NoFork) : ForkPre op x := by
  cases op with
  | newSession => exact h.elim
  | _ => trivial

section Steps

variable {tid : Nat} {x x' : Housed}

/-- What was prepared stays so. -/
theorem notes_subset {op : Op} {r : Res op} {s : Task} {uids : List Nat} :
    uids ⊆ notePrepared tid op r s uids := by
  unfold notePrepared
  split
  · exact subset_cons_of_subset _ (Subset.refl _)
  · exact Subset.refl _

theorem homesPrepared_exec {op : Op} {r : Res op} (h : HomesPrepared x) (hpre : ForkPre op x)
    (hexec : exec op r x.state = some x'.state)
    (hnotes : x'.notes = notePrepared tid op r x.state x.notes) : HomesPrepared x' := by
  have hsubset : x.notes ⊆ x'.notes := hnotes ▸ notes_subset
  rcases exec_processes hexec with hsame | ⟨spec, rfl, hforked⟩
  · intro p hp uid huid
    rw [hsame] at hp
    exact hsubset (h p hp uid huid)
  · intro p hp uid huid
    rw [hforked] at hp
    rcases mem_concat.mp hp with hold | rfl
    · exact hsubset (h p hold uid huid)
    · exact hsubset (hpre uid huid)

theorem homesPrepared_move {m : Move} (h : HomesPrepared x)
    (hmove : move m x.state = some x'.state) (hnotes : x'.notes = x.notes) :
    HomesPrepared x' := by
  intro p hp uid huid
  rw [hnotes]
  cases m with
  | exit pid =>
    obtain ⟨q, hq, -, hstate⟩ := move_exit hmove
    rw [hstate] at hp
    rcases mem_or_eq_of_mem_set hp with hold | rfl
    · exact h p hold uid huid
    · exact h q (mem_of_getElem? hq) uid huid
  | announce id who =>
    rw [← Option.some.inj hmove] at hp
    exact h p hp uid huid

end Steps

def homeOutline (o : Options) : Outline (housed o) markedWhenPrepared where
  inv := HomesPrepared
  rely _ x x' := x.notes ⊆ x'.notes
  pre _ := ForkPre
  post _ _ _ := True
  rely_refl _ _ := Subset.refl _
  rely_trans _ _ _ _ := Subset.trans
  op_ok hinv hpre _ hexec := by
    obtain ⟨hstate, hnotes⟩ := noting_exec.mp hexec
    exact ⟨homesPrepared_exec hinv hpre hstate hnotes, fun _ _ => hnotes ▸ notes_subset⟩
  env_ok hinv _ henv := by
    obtain ⟨hstate, hnotes⟩ := noting_env.mp henv
    exact ⟨homesPrepared_move hinv hstate hnotes, fun _ => hnotes ▸ Subset.refl _⟩

section Programs

variable {o : Options} {tid : Nat} {id term : GoString} {x : Housed}

/-- The home of whoever a fork's credential names is prepared. -/
def Prepared (o : Options) (who : Identity) (x : Housed) : Prop :=
  ∀ uid, credential o who = some uid → uid ∈ x.notes

/-- What forks nothing needs nothing, and loses nothing. -/
theorem noFork_safe {β : Type} {p : Prog Op Res β} {K : Housed → Prop}
    (hp : p.Performs (fun _ _ => True) Op.NoFork)
    (hK : ∀ x x', x.notes ⊆ x'.notes → K x → K x') (h : K x) :
    (homeOutline o).Safe tid p (fun _ x' => K x') x := by
  refine safe_of_performs hp (fun _ _ => hK _ _) (fun _ _ _ _ _ => trivial)
    (fun _ _ hop _ _ => hop.forkPre) (fun op r x x' _ hexec => hK x x' ?_) h
  rw [(noting_exec.mp hexec).2]
  exact notes_subset

theorem identityFor_prepares : (homeOutline o).Safe tid (identityFor o id)
    (fun a x' => ∀ who, a = .ok who → Prepared o who x') x := by
  have hnobody : ∀ (x' : Housed) (who : Identity), who.uid = 0 → Prepared o who x' := by
    intro x' who hwho uid huid
    simp [credential, hwho] at huid
  unfold identityFor
  split
  · rintro who ⟨⟩
    exact hnobody _ _ rfl
  · refine safe_noted fun x₁ _ _ => ⟨trivial, fun r x₂ _ _ _ _ => ?_⟩
    cases r with
    | none =>
      dsimp only
      split
      · rintro who ⟨⟩
        exact hnobody _ _ rfl
      · exact nofun
    | some who =>
      have hself : ∀ x' : Housed, who.uid ∈ x'.notes → Prepared o who x' := by
        intro x' hmem uid huid
        unfold credential at huid
        split at huid <;> cases huid
        exact hmem
      refine safe_noted fun x₃ _ _ => ⟨trivial, fun first x₄ _ hnotes hcond _ => ?_⟩
      cases first with
      | false =>
        rintro _ ⟨⟩
        refine hself x₄ ?_
        rw [hnotes]
        exact hcond rfl
      | true =>
        refine safe_noted fun x₅ _ _ => ⟨trivial, fun err x₆ _ hnotes _ _ => ?_⟩
        cases err with
        | some err => exact nofun
        | none =>
          rintro _ ⟨⟩
          refine hself x₆ ?_
          rw [hnotes]
          exact mem_cons_self

theorem createSession_prepares {rows cols : Nat} :
    (homeOutline o).Safe tid (createSession o id term rows cols) (fun _ _ => True) x := by
  refine .bind (identityFor_prepares.mono fun a x₁ hwho => ?_)
  cases a with
  | error err => trivial
  | ok who =>
    have hkeep : ∀ x x' : Housed, x.notes ⊆ x'.notes → Prepared o who x → Prepared o who x' :=
      fun x x' hsubset h uid huid => hsubset (h uid huid)
    refine .bind
      ((noFork_safe noFork_sessionEnv hkeep (hwho who rfl)).mono fun env x₂ h => ?_)
    cases env with
    | error err => trivial
    | ok env =>
      refine safe_noted fun x₃ hrely _ => ⟨trivial, fun found x₄ _ hnotes _ _ => ?_⟩
      have h₄ : Prepared o who x₄ := hkeep x₃ x₄ (hnotes ▸ notes_subset) (hkeep x₂ x₃ hrely h)
      cases found with
      | true => trivial
      | false =>
        refine safe_noted fun x₅ hrely₅ _ => ⟨hkeep x₄ x₅ hrely₅ h₄, ?_⟩
        intro r x₆ _ _ _ _
        cases r with
        | error err => trivial
        | ok pid =>
          refine safe_noted fun x₇ _ _ => ⟨trivial, fun won x₈ _ _ _ _ => ?_⟩
          cases won with
          | true => trivial
          | false =>
            exact safe_noted fun _ _ _ => ⟨trivial, fun _ _ _ _ _ _ => trivial⟩

theorem start_prepares {rows cols : Nat} :
    (homeOutline o).Safe tid (start o id term rows cols) (fun _ _ => True) x := by
  refine .bind (createSession_prepares.mono fun a x₁ _ => ?_)
  have htrue : ∀ x x' : Housed, x.notes ⊆ x'.notes → True → True := fun _ _ _ h => h
  cases a with
  | error err => exact noFork_safe (Prog.performs_perform.mpr trivial) htrue trivial
  | ok pid =>
    refine noFork_safe ?_ htrue trivial
    exact .perform trivial fun _ _ => noFork_finish

theorem handle_prepares {q : Request} :
    (homeOutline o).Safe tid (handle o q) (fun _ _ => True) x := by
  have hreply : ∀ (err : Option GoString) (x : Housed),
      (homeOutline o).Safe tid (call (.reply err)) (fun _ _ => True) x :=
    fun err x => noFork_safe (Prog.performs_perform.mpr trivial) (fun _ _ _ h => h) trivial
  cases q with
  | startSession id term =>
    simp only [handle, handleStartSession]
    split
    · exact hreply _ _
    · refine safe_noted fun x₁ _ _ => ⟨trivial, fun r x₂ _ _ _ _ => ?_⟩
      cases r with
      | some pid => exact hreply _ _
      | none => exact start_prepares
  | attach id term rows cols mayCreate =>
    simp only [handle, handleAttach]
    split
    · exact hreply _ _
    · refine safe_noted fun x₁ _ _ => ⟨trivial, fun r x₂ _ _ _ _ => ?_⟩
      cases r with
      | some pid => exact hreply _ _
      | none =>
        dsimp only
        split
        · exact start_prepares
        · exact hreply _ _

end Programs

/-- In every run in which a uid is found to be marked only when its home has been prepared, a
process is forked at a uid only in a prepared home. -/
theorem forked_in_prepared_home {o : Options} {tr : Schedule}
    {pool : Pool Op Res Housed Unit}
    (hrun : Path (housed o) markedWhenPrepared unhoused tr pool) :
    HomesPrepared pool.shared := by
  refine ((homeOutline o).sound ?_ ⟨?_, fun _ _ _ h => by cases h⟩ hrun).1
  · intro q x p tid _ _ hspawn
    cases hspawn
    exact handle_prepares
  · exact nofun

/-- A supervisor that is root and forks its sessions at the uids it is told. -/
def rootOptions : Options where
  euid := 0
  sessionUID := 1000
  configDir := []
  term := []
  gateway := false
  environ := []
  lookupId _ := none

def member : Identity := ⟨2000, [97], [47, 97], [47, 97, 47, 46]⟩

def memberSpec : Spec :=
  ⟨[115], childEnv rootOptions [] member, member.home, 0, 0, some 2000⟩

/-- The first session of a member has their home built. -/
def builtOnce : Schedule :=
  [.env (.announce [115] member), .spawn (.startSession [115] []),
    .thread 0 (.get [115]) none, .thread 0 (.identity [115]) (some member),
    .thread 0 (.markProvisioned 2000) true, .thread 0 (.provisionHome member) none,
    .thread 0 (.registered [115]) false, .thread 0 (.newSession memberSpec) (.ok 0)]

theorem forked_in_prepared_home_once : ∃ pool,
    Path (housed rootOptions) markedWhenPrepared unhoused builtOnce pool ∧
      pool.shared.state.processes = [⟨memberSpec, true⟩] ∧ HomesPrepared pool.shared := by
  have hplay : (play (housed rootOptions) markedWhenPrepared unhoused
      builtOnce).isSome = true := by decide +kernel
  have hrun := final_path hplay
  exact ⟨_, hrun, by decide +kernel, forked_in_prepared_home hrun⟩

/-- Building the home fails. The member tries again. -/
def triedTwice : Schedule :=
  [.env (.announce [115] member), .spawn (.startSession [115] []),
    .thread 0 (.get [115]) none, .thread 0 (.identity [115]) (some member),
    .thread 0 (.markProvisioned 2000) true,
    .thread 0 (.provisionHome member) (some "create /a: no space left on device"),
    .thread 0 (.reply (some ("provisioning a home for uid 2000: " ++
      "create /a: no space left on device"))) (),
    .spawn (.startSession [115] []), .thread 1 (.get [115]) none,
    .thread 1 (.identity [115]) (some member), .thread 1 (.markProvisioned 2000) false,
    .thread 1 (.registered [115]) false, .thread 1 (.newSession memberSpec) (.ok 0)]

theorem forked_in_unprepared_home : ∃ pool,
    Path (housed rootOptions) anyStep unhoused triedTwice pool ∧
      pool.shared.state.processes = [⟨memberSpec, true⟩] ∧ pool.shared.notes = [] ∧
      ¬HomesPrepared pool.shared := by
  have hplay : (play (housed rootOptions) anyStep unhoused
      triedTwice).isSome = true := by decide +kernel
  have hforked : (final (housed rootOptions) anyStep unhoused
      triedTwice).shared.state.processes = [⟨memberSpec, true⟩] := by decide +kernel
  have hnotes : (final (housed rootOptions) anyStep unhoused
      triedTwice).shared.notes = [] := by decide +kernel
  refine ⟨_, final_path hplay, hforked, hnotes, fun hprepared => ?_⟩
  have hmem := hprepared ⟨memberSpec, true⟩ (hforked ▸ mem_singleton_self _) 2000 rfl
  rw [hnotes] at hmem
  cases hmem

end Lemul.Supervisor.Sessions
