import Lemul.Misc.Lists
import Lemul.Misc.Prog

/-!
# Interleaved programs

A pool is a shared state and any number of threads, each a program. A step lets one
thread perform its next operation, starts a new thread for an arriving request, or
lets the environment move; a run is any sequence of steps, so every interleaving of
the threads at the granularity of single operations is one.

`Outline` is the proof method: a shared invariant, for each thread a relation it may
rely on while the others move, and an obligation at every operation. `Outline.sound`
turns a check of each program on its own into a fact about every step of every run.
-/

namespace Lemul

open List Option

/-- A machine together with the programs that may be started on it. -/
structure System (Op : Type) (Res : Op → Type) (S Env Req α : Type)
    extends Machine Op Res S Env where
  spawn : Req → S → Option (Prog Op Res α)

/-- One step of a pool: thread `tid` performs `o` and is answered `r`, a request
arrives, or the environment moves. -/
inductive Label (Op : Type) (Res : Op → Type) (Env Req : Type) where
  | thread (tid : Nat) (o : Op) (r : Res o)
  | spawn (q : Req)
  | env (e : Env)

/-- The shared state and what is left to do of every thread started so far. -/
structure Pool (Op : Type) (Res : Op → Type) (S α : Type) where
  shared : S
  threads : List (Prog Op Res α)

namespace Pool

variable {Op : Type} {Res : Op → Type} {S α : Type}

/-- What thread `tid` has returned, if it has. -/
def result (pool : Pool Op Res S α) (tid : Nat) : Option α :=
  match pool.threads[tid]? with
  | some (.ret a) => some a
  | _ => none

theorem result_eq_some {pool : Pool Op Res S α} {tid : Nat} {a : α} :
    pool.result tid = some a ↔ pool.threads[tid]? = some (.ret a) := by
  unfold result
  constructor
  · intro h
    split at h
    · rename_i hthread
      rw [hthread, Option.some.inj h]
    · cases h
  · intro h
    rw [h]

end Pool

namespace System

variable {Op : Type} {Res : Op → Type} {S Env Req α : Type}

/-- One step, as a relation. -/
inductive Step (M : System Op Res S Env Req α) :
    Pool Op Res S α → Label Op Res Env Req → Pool Op Res S α → Prop where
  | thread {pool : Pool Op Res S α} {tid : Nat} {o : Op} {k : Res o → Prog Op Res α}
      {r : Res o} {s : S} (hthread : pool.threads[tid]? = some (.op o k))
      (hexec : M.exec tid o r pool.shared = some s) :
      Step M pool (.thread tid o r) ⟨s, pool.threads.set tid (k r)⟩
  | spawn {pool : Pool Op Res S α} {q : Req} {p : Prog Op Res α}
      (hspawn : M.spawn q pool.shared = some p) :
      Step M pool (.spawn q) ⟨pool.shared, pool.threads ++ [p]⟩
  | env {pool : Pool Op Res S α} {e : Env} {s : S} (henv : M.env e pool.shared = some s) :
      Step M pool (.env e) ⟨s, pool.threads⟩

/-- `Path M cond pool tr pool'`: the steps `tr` lead from `pool` to `pool'`, and each of
them meets `cond` in the shared state it starts from. -/
inductive Path (M : System Op Res S Env Req α) (cond : S → Label Op Res Env Req → Prop)
    (pool : Pool Op Res S α) : List (Label Op Res Env Req) → Pool Op Res S α → Prop where
  | nil : Path M cond pool [] pool
  | snoc {tr : List (Label Op Res Env Req)} {mid last : Pool Op Res S α}
      {l : Label Op Res Env Req} (before : Path M cond pool tr mid)
      (hcond : cond mid.shared l) (hstep : Step M mid l last) :
      Path M cond pool (tr ++ [l]) last

/-- The condition every step meets. -/
def anyStep : S → Label Op Res Env Req → Prop := fun _ _ => True

instance (s : S) (l : Label Op Res Env Req) : Decidable (anyStep s l) := .isTrue trivial

variable {pool next last : Pool Op Res S α} {M : System Op Res S Env Req α}
  {cond : S → Label Op Res Env Req → Prop} {l : Label Op Res Env Req}
  {tr : List (Label Op Res Env Req)} {s : S}

theorem Path.cons (hcond : cond pool.shared l) (hstep : Step M pool l next)
    (rest : Path M cond next tr last) :
    Path M cond pool (l :: tr) last := by
  induction rest with
  | nil =>
    have hlast : Path M cond pool ([] ++ [l]) next := .snoc .nil hcond hstep
    exact hlast
  | snoc before hc hs ih => exact Path.snoc ih hc hs

theorem Path.append {mid : Pool Op Res S α} {tr' : List (Label Op Res Env Req)}
    (h : Path M cond pool tr mid) (h' : Path M cond mid tr' last) :
    Path M cond pool (tr ++ tr') last := by
  induction h' with
  | nil => exact (append_nil tr).symm ▸ h
  | snoc before hcond hstep ih => exact append_assoc tr _ _ ▸ ih.snoc hcond hstep

/-- The last step of a run. -/
theorem Path.last_step (h : Path M cond pool (tr ++ [l]) last) :
    ∃ mid, Path M cond pool tr mid ∧ cond mid.shared l ∧ Step M mid l last := by
  generalize hsteps : tr ++ [l] = steps at h
  cases h with
  | nil => exact absurd hsteps (append_ne_nil_of_right_ne_nil tr (cons_ne_nil l []))
  | snoc before hcond hstep =>
    obtain ⟨rfl, hl⟩ := append_inj' hsteps rfl
    cases hl
    exact ⟨_, before, hcond, hstep⟩

/-- The invariant rule: what every operation and every environment move keeps, under the
condition, holds after every run whose steps meet it. -/
theorem Path.invariant {I : S → Prop}
    (hexec : ∀ tid o r s s', I s → cond s (.thread tid o r) → M.exec tid o r s = some s' → I s')
    (henv : ∀ e s s', I s → cond s (.env e) → M.env e s = some s' → I s')
    (h : Path M cond pool tr last) (hpool : I pool.shared) : I last.shared := by
  induction h with
  | nil => exact hpool
  | snoc before hcond hstep ih =>
    cases hstep with
    | thread hthread hop => exact hexec _ _ _ _ _ ih hcond hop
    | spawn hspawn => exact ih
    | env hmove => exact henv _ _ _ ih hcond hmove

/-- Every thread is what is left of a program that was started for a request. -/
theorem Path.performs {A : (o : Op) → Res o → Prop} {P : Req → Op → Prop}
    (hA : ∀ tid o r s s', M.exec tid o r s = some s' → A o r)
    (hspawn : ∀ q s p, M.spawn q s = some p → p.Performs A (P q))
    (h : Path M cond ⟨s, []⟩ tr last) :
    ∀ p ∈ last.threads, ∃ q, Label.spawn q ∈ tr ∧ p.Performs A (P q) := by
  induction h with
  | nil =>
    exact nofun
  | @snoc tr mid last l before hcond hstep ih =>
    have hmono : ∀ p : Prog Op Res α, (∃ q, Label.spawn q ∈ tr ∧ p.Performs A (P q)) →
        ∃ q, Label.spawn q ∈ tr ++ [l] ∧ p.Performs A (P q) :=
      fun p ⟨q, hq, hp⟩ => ⟨q, mem_append_left _ hq, hp⟩
    intro p hp
    cases hstep with
    | thread hthread hexec =>
      rcases mem_or_eq_of_mem_set hp with hold | rfl
      · exact hmono p (ih p hold)
      · obtain ⟨q, hq, hrest⟩ := ih _ (mem_of_getElem? hthread)
        exact hmono _ ⟨q, hq, hrest.2 _ (hA _ _ _ _ _ hexec)⟩
    | spawn hq =>
      rcases mem_concat.mp hp with hold | rfl
      · exact hmono p (ih p hold)
      · exact ⟨_, mem_append_right _ (mem_singleton_self _), hspawn _ _ _ hq⟩
    | env hmove => exact hmono p (ih p hp)

section Play

variable [DecidableEq Op]

/-- `Step` as a function, for evaluating a concrete run. -/
def step (M : System Op Res S Env Req α) (pool : Pool Op Res S α) :
    Label Op Res Env Req → Option (Pool Op Res S α)
  | .thread tid o r =>
      match pool.threads[tid]? with
      | some (.op o' k) =>
          if h : o = o' then
            (M.exec tid o r pool.shared).map
              (fun s => ⟨s, pool.threads.set tid (k (h ▸ r))⟩)
          else none
      | _ => none
  | .spawn q => (M.spawn q pool.shared).map (fun p => ⟨pool.shared, pool.threads ++ [p]⟩)
  | .env e => (M.env e pool.shared).map (fun s => ⟨s, pool.threads⟩)

/-- The pool after the steps `tr`, if they can be taken and each meets `cond`. -/
def play (M : System Op Res S Env Req α) (cond : S → Label Op Res Env Req → Prop)
    [∀ s l, Decidable (cond s l)] :
    Pool Op Res S α → List (Label Op Res Env Req) → Option (Pool Op Res S α)
  | pool, [] => some pool
  | pool, l :: tr =>
      if cond pool.shared l then (step M pool l).bind (fun next => play M cond next tr) else none

theorem step_sound (h : step M pool l = some next) : Step M pool l next := by
  cases l with
  | thread tid o r =>
    simp only [step] at h
    split at h
    · rename_i o' k hthread
      split at h
      · rename_i heq
        subst heq
        obtain ⟨s, hexec, rfl⟩ := map_eq_some_iff.mp h
        exact .thread hthread hexec
      · cases h
    · cases h
  | spawn q =>
    obtain ⟨p, hspawn, rfl⟩ := map_eq_some_iff.mp h
    exact .spawn hspawn
  | env e =>
    obtain ⟨s, henv, rfl⟩ := map_eq_some_iff.mp h
    exact .env henv

/-- What `play` computes is a run. -/
theorem play_path [∀ s l, Decidable (cond s l)] (h : play M cond pool tr = some last) :
    Path M cond pool tr last := by
  induction tr generalizing pool with
  | nil =>
    cases h
    exact .nil
  | cons l tr ih =>
    unfold play at h
    split at h
    · rename_i hcond
      obtain ⟨next, hstep, hrest⟩ := bind_eq_some_iff.mp h
      exact Path.cons hcond (step_sound hstep) (ih hrest)
    · cases h

/-- The pool a concrete run ends in. -/
def final (M : System Op Res S Env Req α) (cond : S → Label Op Res Env Req → Prop)
    [∀ s l, Decidable (cond s l)] (pool : Pool Op Res S α)
    (tr : List (Label Op Res Env Req)) : Pool Op Res S α :=
  (play M cond pool tr).getD pool

theorem final_path [∀ s l, Decidable (cond s l)]
    (h : (play M cond pool tr).isSome = true) : Path M cond pool tr (final M cond pool tr) := by
  obtain ⟨last, hlast⟩ := isSome_iff_exists.mp h
  have hfinal : final M cond pool tr = last := by rw [final, hlast, getD_some]
  rw [hfinal]
  exact play_path hlast

theorem exists_step (h : (step M pool l).isSome = true) :
    ∃ next, Step M pool l next := by
  obtain ⟨next, hnext⟩ := isSome_iff_exists.mp h
  exact ⟨next, step_sound hnext⟩

end Play

/-- A proof outline for the runs of `M` whose steps meet `cond`. -/
structure Outline (M : System Op Res S Env Req α) (cond : S → Label Op Res Env Req → Prop) where
  /-- The invariant of the shared state. -/
  inv : S → Prop
  /-- What thread `tid` may rely on while everything else moves. -/
  rely : Nat → S → S → Prop
  /-- What must hold when thread `tid` is about to perform an operation. -/
  pre : Nat → Op → S → Prop
  /-- What must hold at the moment thread `tid` returns a value. -/
  post : Nat → α → S → Prop
  rely_refl : ∀ tid s, rely tid s s
  rely_trans : ∀ tid s₁ s₂ s₃, rely tid s₁ s₂ → rely tid s₂ s₃ → rely tid s₁ s₃
  /-- An operation performed under its obligation keeps the invariant and what the
  other threads rely on. -/
  op_ok : ∀ {tid o r s s'}, inv s → pre tid o s → cond s (.thread tid o r) →
    M.exec tid o r s = some s' → inv s' ∧ ∀ other, other ≠ tid → rely other s s'
  /-- So does every environment move. -/
  env_ok : ∀ {e s s'}, inv s → cond s (.env e) → M.env e s = some s' →
    inv s' ∧ ∀ tid, rely tid s s'

namespace Outline

variable {M : System Op Res S Env Req α} {cond : S → Label Op Res Env Req → Prop}
variable {β γ : Type}

/-- Thread `tid` running `p` from `s` meets its obligation at each of its operations,
whatever the others do in between, and ends with `Q`. -/
def Safe (O : Outline M cond) (tid : Nat) : Prog Op Res β → (β → S → Prop) → S → Prop
  | .ret a, Q, s => Q a s
  | .op o k, Q, s => ∀ s₁, O.rely tid s s₁ → O.inv s₁ → O.pre tid o s₁ ∧
      ∀ r s₂, M.exec tid o r s₁ = some s₂ → cond s₁ (.thread tid o r) → O.inv s₂ →
        Safe O tid (k r) Q s₂

variable {tid : Nat} {O : Outline M cond} {Q : β → S → Prop} {p : Prog Op Res β}

theorem Safe.op_of_rely {o : Op} {k : Res o → Prog Op Res β} {s' : S}
    (hsafe : O.Safe tid (.op o k) Q s)
    (hmove : O.rely tid s s') : O.Safe tid (.op o k) Q s' :=
  fun s₁ h => hsafe s₁ (O.rely_trans _ _ _ _ hmove h)

/-- The rule for performing one operation. -/
theorem safe_perform_bind {o : Op} {f : Res o → Prog Op Res β}
    (h : ∀ s₁, O.rely tid s s₁ → O.inv s₁ → O.pre tid o s₁ ∧
      ∀ r s₂, M.exec tid o r s₁ = some s₂ → cond s₁ (.thread tid o r) → O.inv s₂ →
        O.Safe tid (f r) Q s₂) : O.Safe tid (Prog.perform o >>= f) Q s := h

theorem Safe.mono {Q' : β → S → Prop} (hQ : ∀ a s', Q a s' → Q' a s')
    (hp : O.Safe tid p Q s) : O.Safe tid p Q' s := by
  induction p generalizing s with
  | ret a => exact hQ a s hp
  | op o k ih =>
    intro s₁ hmove hinv
    obtain ⟨hpre, hnext⟩ := hp s₁ hmove hinv
    exact ⟨hpre, fun r s₂ hexec hcond hinv₂ => ih r (hnext r s₂ hexec hcond hinv₂)⟩

/-- What a program returns in any case may be added to its postcondition. -/
theorem Safe.and_returns {R : β → Prop} (hp : O.Safe tid p Q s) (hres : p.Returns R) :
    O.Safe tid p (fun a s' => R a ∧ Q a s') s := by
  induction p generalizing s with
  | ret a => exact ⟨hres, hp⟩
  | op o k ih =>
    intro s₁ hmove hinv
    obtain ⟨hpre, hnext⟩ := hp s₁ hmove hinv
    exact ⟨hpre, fun r s₂ hexec hcond hinv₂ => ih r (hnext r s₂ hexec hcond hinv₂) (hres r)⟩

/-- Sequencing: the postcondition of the first program is the precondition of the second. -/
theorem Safe.bind {f : β → Prog Op Res γ} {Q : γ → S → Prop}
    (hp : O.Safe tid p (fun a s' => O.Safe tid (f a) Q s') s) : O.Safe tid (p >>= f) Q s := by
  induction p generalizing s with
  | ret a => exact hp
  | op o k ih =>
    intro s₁ hmove hinv
    obtain ⟨hpre, hnext⟩ := hp s₁ hmove hinv
    exact ⟨hpre, fun r s₂ hexec hcond hinv₂ => ih r (hnext r s₂ hexec hcond hinv₂)⟩

/-- A program whose operations all meet their obligation under an assertion `K` that
neither the others nor those operations disturb is safe, and `K` holds at its end. -/
theorem safe_of_performs {K : S → Prop} {A : (o : Op) → Res o → Prop} {P : Op → Prop}
    (hp : p.Performs A P) (hrely : ∀ s s', O.rely tid s s' → K s → K s')
    (hanswer : ∀ o r s s', M.exec tid o r s = some s' → A o r)
    (hpre : ∀ o s, P o → O.inv s → K s → O.pre tid o s)
    (hkeep : ∀ o r s s', P o → M.exec tid o r s = some s' → K s → K s')
    (hK : K s) : O.Safe tid p (fun _ s' => K s') s := by
  induction p generalizing s with
  | ret a => exact hK
  | op o k ih =>
    intro s₁ hmove hinv
    have hK₁ := hrely s s₁ hmove hK
    refine ⟨hpre o s₁ hp.1 hinv hK₁, ?_⟩
    intro r s₂ hexec _ _
    exact ih r (hp.2 r (hanswer o r s₁ s₂ hexec)) (hkeep o r s₁ s₂ hp.1 hexec hK₁)

/-- The invariant of a whole pool: the shared invariant, and every thread that still has
something to do is safe. -/
def Holds (O : Outline M cond) (pool : Pool Op Res S α) : Prop :=
  O.inv pool.shared ∧ ∀ (tid : Nat) (o : Op) (k : Res o → Prog Op Res α),
    pool.threads[tid]? = some (.op o k) → O.Safe tid (.op o k) (O.post tid) pool.shared

/-- Thread `tid` has not started, or has returned. -/
def Idle (pool : Pool Op Res S α) (tid : Nat) : Prop :=
  ∀ (o : Op) (k : Res o → Prog Op Res α), pool.threads[tid]? ≠ some (.op o k)

/-- One step, thread by thread: a thread is safe after its own step and when it is started, and
otherwise it is where it was and may rely on what has become of the state. -/
theorem step_threads (O : Outline M cond)
    (hspawn : ∀ q p, cond pool.shared (.spawn q) → M.spawn q pool.shared = some p →
      O.Safe pool.threads.length p (O.post pool.threads.length) pool.shared)
    (h : O.Holds pool) (hcond : cond pool.shared l) (hstep : Step M pool l next) :
    O.inv next.shared ∧ ∀ tid,
      (∃ p, next.threads[tid]? = some p ∧ O.Safe tid p (O.post tid) next.shared) ∨
        next.threads[tid]? = pool.threads[tid]? ∧ O.rely tid pool.shared next.shared := by
  obtain ⟨hinv, hthreads⟩ := h
  cases hstep with
  | @thread tid o k r s hthread hexec =>
    obtain ⟨hpre, hnext⟩ := hthreads tid o k hthread pool.shared (O.rely_refl tid _) hinv
    obtain ⟨hinv', hothers⟩ := O.op_ok hinv hpre hcond hexec
    refine ⟨hinv', fun other => ?_⟩
    by_cases heq : other = tid
    · subst heq
      exact .inl ⟨k r, getElem?_set_same hthread _, hnext r s hexec hcond hinv'⟩
    · exact .inr ⟨getElem?_set_ne (Ne.symm heq), hothers other heq⟩
  | @spawn q p hq =>
    refine ⟨hinv, fun tid => ?_⟩
    by_cases heq : tid = pool.threads.length
    · subst heq
      exact .inl ⟨p, getElem?_concat_length, hspawn q p hcond hq⟩
    · refine .inr ⟨?_, O.rely_refl tid _⟩
      rw [getElem?_append]
      split
      · rfl
      · rw [getElem?_eq_none (by rw [length_singleton]; omega), getElem?_eq_none (by omega)]
  | env hmove =>
    obtain ⟨hinv', hmoves⟩ := O.env_ok hinv hcond hmove
    exact ⟨hinv', fun tid => .inr ⟨rfl, hmoves tid⟩⟩

section Idle

variable {R : Nat → S → Prop}

/-- One step keeps the invariant of the pool, and `R` of every thread that is idle: what a
thread establishes when it returns, and what is so before it starts, the others leave
alone. A program may rely on it when it starts. -/
theorem step_idle (O : Outline M cond) (hpost : ∀ tid a s, O.post tid a s → R tid s)
    (hrely : ∀ tid s s', O.rely tid s s' → R tid s → R tid s')
    (hspawn : ∀ q s p tid, O.inv s → R tid s → cond s (.spawn q) → M.spawn q s = some p →
      O.Safe tid p (O.post tid) s)
    (h : O.Holds pool)
    (hidle : ∀ tid, Idle pool tid → R tid pool.shared) (hcond : cond pool.shared l)
    (hstep : Step M pool l next) : O.Holds next ∧ ∀ tid, Idle next tid → R tid next.shared := by
  have hfresh : R pool.threads.length pool.shared := hidle _ fun o k hp => by
    rw [getElem?_eq_none (Nat.le_refl _)] at hp
    cases hp
  obtain ⟨hinv, hnext⟩ := O.step_threads (fun q p => hspawn q _ p _ h.1 hfresh) h hcond hstep
  refine ⟨⟨hinv, fun tid o k hp => ?_⟩, fun tid hidle' => ?_⟩
  · rcases hnext tid with ⟨p, hp', hsafe⟩ | ⟨hsame, hmove⟩
    · cases hp'.symm.trans hp
      exact hsafe
    · exact (h.2 tid o k (hsame.symm.trans hp)).op_of_rely hmove
  · rcases hnext tid with ⟨p, hp, hsafe⟩ | ⟨hsame, hmove⟩
    · cases p with
      | ret a => exact hpost tid a _ hsafe
      | op o k => exact absurd hp (hidle' o k)
    · exact hrely tid _ _ hmove (hidle tid fun o k hp => hidle' o k (hsame.trans hp))

theorem sound_idle (O : Outline M cond) (hpost : ∀ tid a s, O.post tid a s → R tid s)
    (hrely : ∀ tid s s', O.rely tid s s' → R tid s → R tid s')
    (hspawn : ∀ q s p tid, O.inv s → R tid s → cond s (.spawn q) → M.spawn q s = some p →
      O.Safe tid p (O.post tid) s)
    (h : O.Holds pool)
    (hidle : ∀ tid, Idle pool tid → R tid pool.shared) (hpath : Path M cond pool tr last) :
    O.Holds last ∧ ∀ tid, Idle last tid → R tid last.shared := by
  induction hpath with
  | nil => exact ⟨h, hidle⟩
  | snoc before hcond hstep ih =>
    exact O.step_idle hpost hrely hspawn ih.1 ih.2 hcond hstep

end Idle

/-- One step keeps the invariant of the pool. -/
theorem step_holds (O : Outline M cond)
    (hspawn : ∀ q s p tid, O.inv s → cond s (.spawn q) → M.spawn q s = some p →
      O.Safe tid p (O.post tid) s)
    (h : O.Holds pool)
    (hcond : cond pool.shared l) (hstep : Step M pool l next) : O.Holds next :=
  (O.step_idle (R := fun _ _ => True) (fun _ _ _ _ => trivial) (fun _ _ _ _ _ => trivial)
    (fun q s p tid hinv _ => hspawn q s p tid hinv) h (fun _ _ => trivial) hcond hstep).1

/-- Every run whose steps meet the condition keeps the invariant of the pool. -/
theorem sound (O : Outline M cond)
    (hspawn : ∀ q s p tid, O.inv s → cond s (.spawn q) → M.spawn q s = some p →
      O.Safe tid p (O.post tid) s)
    (h : O.Holds pool)
    (hpath : Path M cond pool tr last) : O.Holds last := by
  induction hpath with
  | nil => exact h
  | snoc before hcond hstep ih => exact O.step_holds hspawn ih hcond hstep

/-- What threads establish when they return, and the others leave alone, holds of every
thread that has returned. -/
theorem sound_returned_from (O : Outline M cond)
    (hrely : ∀ tid a s s', O.rely tid s s' → O.post tid a s → O.post tid a s')
    (hspawn : ∀ q s p tid, O.inv s → cond s (.spawn q) → M.spawn q s = some p →
      O.Safe tid p (O.post tid) s)
    (h : O.Holds pool)
    (hpool : ∀ tid a, pool.threads[tid]? = some (.ret a) → O.post tid a pool.shared)
    (hpath : Path M cond pool tr last) :
    O.Holds last ∧ ∀ tid a, last.threads[tid]? = some (.ret a) → O.post tid a last.shared := by
  induction hpath with
  | nil => exact ⟨h, hpool⟩
  | @snoc tr mid last l before hcond hstep ih =>
    obtain ⟨hholds, hreturned⟩ := ih
    refine ⟨O.step_holds hspawn hholds hcond hstep, fun tid a hret => ?_⟩
    obtain ⟨-, hnext⟩ := O.step_threads (fun q p => hspawn q _ p _ hholds.1) hholds hcond hstep
    rcases hnext tid with ⟨p, hp, hsafe⟩ | ⟨hsame, hmove⟩
    · cases hp.symm.trans hret
      exact hsafe
    · exact hrely tid a _ _ hmove (hreturned tid a (hsame.symm.trans hret))

/-- So it is in a run that starts with no threads. -/
theorem sound_returned (O : Outline M cond)
    (hrely : ∀ tid a s s', O.rely tid s s' → O.post tid a s → O.post tid a s')
    (hspawn : ∀ q s p tid, O.inv s → cond s (.spawn q) → M.spawn q s = some p →
      O.Safe tid p (O.post tid) s)
    (hs : O.inv s)
    (hpath : Path M cond ⟨s, []⟩ tr last) :
    O.Holds last ∧ ∀ tid a, last.threads[tid]? = some (.ret a) → O.post tid a last.shared :=
  O.sound_returned_from hrely hspawn ⟨hs, fun _ _ _ h => by cases h⟩ (fun _ _ h => by cases h) hpath

/-- At every operation of every such run the obligation holds. -/
theorem pre_of_step {o : Op} {r : Res o} (h : O.Holds pool)
    (hstep : Step M pool (.thread tid o r) next) :
    O.pre tid o pool.shared := by
  cases hstep with
  | thread hthread hexec =>
    exact (h.2 tid _ _ hthread pool.shared (O.rely_refl tid _) h.1).1

/-- What is due before a step. -/
def due (O : Outline M cond) (s : S) : Label Op Res Env Req → Prop
  | .thread tid o _ => O.pre tid o s
  | _ => True

/-- The obligations of one outline can be conditions of the next. -/
theorem path_due (O : Outline M cond)
    (hspawn : ∀ q s p tid, O.inv s → cond s (.spawn q) → M.spawn q s = some p →
      O.Safe tid p (O.post tid) s)
    (h : O.Holds pool)
    (hpath : Path M cond pool tr last) : Path M (fun s l => cond s l ∧ O.due s l) pool tr last := by
  induction hpath with
  | nil => exact .nil
  | @snoc tr mid last l before hcond hstep ih =>
    refine .snoc ih ⟨hcond, ?_⟩ hstep
    cases l with
    | thread tid o r => exact pre_of_step (O.sound hspawn h before) hstep
    | spawn q | env e => trivial

/-- A thread of which nothing is asked. -/
theorem safe_of_free (hpre : ∀ o s, O.pre tid o s) (hQ : ∀ a s, Q a s)
    (s : S) : O.Safe tid p Q s := by
  induction p generalizing s with
  | ret a => exact hQ a s
  | op o k ih => exact fun s₁ _ _ => ⟨hpre o s₁, fun r s₂ _ _ _ => ih r s₂⟩

/-- Whenever a thread returns in such a run, its postcondition holds. -/
theorem post_of_step {o : Op} {r : Res o} {a : α} (h : O.Holds pool)
    (hcond : cond pool.shared (.thread tid o r))
    (hstep : Step M pool (.thread tid o r) next) (hret : next.result tid = some a) :
    O.post tid a next.shared := by
  rw [Pool.result_eq_some] at hret
  cases hstep with
  | @thread _ _ k _ s hthread hexec =>
    obtain ⟨hpre, hnext⟩ := h.2 tid _ _ hthread pool.shared (O.rely_refl tid _) h.1
    obtain ⟨hinv', -⟩ := O.op_ok h.1 hpre hcond hexec
    have hk := hnext r s hexec hcond hinv'
    rwa [Option.some.inj ((getElem?_set_same hthread _).symm.trans hret)] at hk

end Outline

end System

end Lemul
