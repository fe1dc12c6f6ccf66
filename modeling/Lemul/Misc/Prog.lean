import Mathlib

/-!
# Programs over an interface of operations

A `Prog Op Res α` performs operations from `Op` one after the other; operation
`o` is answered by a value of `Res o`, and the rest of the program depends on
that answer. The program is plain data: what an operation does to the state is
said by a `Machine`, so the same program text runs alone (`Prog.Runs`) or
interleaved with others (`Lemul.Misc.Pool`).

Every operation is one atomic step. Between two operations the environment of
the machine may move.
-/

namespace Lemul

open List

/-- A program whose operations are drawn from `Op`, ending with a value of `α`. -/
inductive Prog (Op : Type) (Res : Op → Type) (α : Type) : Type where
  | ret (a : α)
  | op (o : Op) (k : Res o → Prog Op Res α)

namespace Prog

variable {Op : Type} {Res : Op → Type} {α β : Type}

/-- Sequencing: run `p`, then `f` on its result. -/
def bind : Prog Op Res α → (α → Prog Op Res β) → Prog Op Res β
  | ret a, f => f a
  | op o k, f => op o (fun r => (k r).bind f)

instance : Monad (Prog Op Res) where
  pure := ret
  bind := bind

/-- The program that performs one operation and returns its answer. -/
def perform (o : Op) : Prog Op Res (Res o) := op o ret

@[simp] theorem ret_bind (a : α) (f : α → Prog Op Res β) : (ret a >>= f) = f a := rfl

/-- Along every branch that answers allowed by `A` can take, `p` performs only operations
in `P`. A property of the text of `p` alone. -/
def Performs (A : (o : Op) → Res o → Prop) (P : Op → Prop) : Prog Op Res α → Prop
  | ret _ => True
  | op o k => P o ∧ ∀ r, A o r → Performs A P (k r)

variable {P : Op → Prop} {f : α → Prog Op Res β} {p : Prog Op Res α}

@[simp] theorem performs_perform {A : (o : Op) → Res o → Prop} {o : Op} :
    Performs A P (perform o : Prog Op Res (Res o)) ↔ P o :=
  ⟨fun h => h.1, fun h => ⟨h, fun _ _ => trivial⟩⟩

theorem Performs.perform {A : (o : Op) → Res o → Prop} {o : Op} {f : Res o → Prog Op Res α}
    (ho : P o) (hf : ∀ r, A o r → Performs A P (f r)) : Performs A P (perform o >>= f) :=
  ⟨ho, hf⟩

theorem Performs.mono {A : (o : Op) → Res o → Prop} {P' : Op → Prop} (hp : p.Performs A P)
    (h : ∀ o, P o → P' o) : p.Performs A P' := by
  induction p with
  | ret a => trivial
  | op o k ih => exact ⟨h o hp.1, fun r hr => ih r (hp.2 r hr)⟩

theorem Performs.bind {A : (o : Op) → Res o → Prop} (hp : p.Performs A P)
    (hf : ∀ a, (f a).Performs A P) :
    (p >>= f).Performs A P := by
  induction p with
  | ret a => exact hf a
  | op o k ih => exact ⟨hp.1, fun r hr => ih r (hp.2 r hr)⟩

/-- Whatever it is answered, `p` returns a value in `Q`. -/
def Returns (Q : α → Prop) : Prog Op Res α → Prop
  | ret a => Q a
  | op _ k => ∀ r, Returns Q (k r)

variable {Q : α → Prop}

theorem Returns.bind {Q' : β → Prop} (hp : p.Returns Q) (hf : ∀ a, Q a → (f a).Returns Q') :
    (p >>= f).Returns Q' := by
  induction p with
  | ret a => exact hf a hp
  | op o k ih => exact fun r => ih r (hp r)

/-- Sequencing, where the first program says something about its result. -/
theorem Performs.bind_returns {A : (o : Op) → Res o → Prop} (hp : p.Performs A P)
    (hres : p.Returns Q)
    (hf : ∀ a, Q a → (f a).Performs A P) : (p >>= f).Performs A P := by
  induction p with
  | ret a => exact hf a hres
  | op o k ih => exact ⟨hp.1, fun r hr => ih r (hp.2 r hr) (hres r)⟩

/-- What `p` returns if every operation `o` is answered `answer o`. -/
def interp (answer : (o : Op) → Res o) : Prog Op Res α → α
  | ret a => a
  | op o k => (k (answer o)).interp answer

@[simp] theorem interp_perform_bind (answer : (o : Op) → Res o) (o : Op)
    (f : Res o → Prog Op Res α) :
    (perform o >>= f).interp answer = (f (answer o)).interp answer := rfl

theorem interp_bind (answer : (o : Op) → Res o) (p : Prog Op Res α) (f : α → Prog Op Res β) :
    (p >>= f).interp answer = (f (p.interp answer)).interp answer := by
  induction p with
  | ret a => rfl
  | op o k ih => exact ih (answer o)

/-- A program whose operations are some of those of a larger interface. -/
def embed {Op' : Type} {Res' : Op' → Type} (f : Op → Op') (g : ∀ o, Res' (f o) → Res o) :
    Prog Op Res α → Prog Op' Res' α
  | ret a => ret a
  | op o k => op (f o) (fun r => (k (g o r)).embed f g)

theorem embed_bind {Op' : Type} {Res' : Op' → Type} (f : Op → Op')
    (g : ∀ o, Res' (f o) → Res o) (p : Prog Op Res α) (k : α → Prog Op Res β) :
    (p >>= k).embed f g = p.embed f g >>= fun a => (k a).embed f g := by
  induction p with
  | ret a => rfl
  | op o next ih => exact congrArg (Prog.op (f o)) (funext fun r => ih (g o r))

theorem Performs.embed {Op' : Type} {Res' : Op' → Type} {f : Op → Op'} {g : ∀ o, Res' (f o) → Res o}
    {A : (o : Op) → Res o → Prop}
    {A' : (o : Op') → Res' o → Prop} {P' : Op' → Prop}
    (hp : p.Performs A P) (hP : ∀ o, P o → P' (f o)) (hA : ∀ o r, A' (f o) r → A o (g o r)) :
    (p.embed f g).Performs A' P' := by
  induction p with
  | ret a => trivial
  | op o k ih => exact ⟨hP o hp.1, fun r hr => ih (g o r) (hp.2 (g o r) (hA o r hr))⟩

end Prog

/-- What operations and the environment do to a state of type `S`. `exec tid o r s`
is the state after thread `tid` performed `o` in `s` and was answered `r`, if `r` is
a possible answer there; `env e s` is the state after environment move `e`. -/
structure Machine (Op : Type) (Res : Op → Type) (S Env : Type) where
  exec : Nat → (o : Op) → Res o → S → Option S
  env : Env → S → Option S

/-- The operations a run performed, in order, each with the answer it got. -/
abbrev Trace (Op : Type) (Res : Op → Type) := List (Σ o : Op, Res o)

namespace Prog

variable {Op : Type} {Res : Op → Type} {S Env α : Type}

/-- `Runs M tid p s tr a s'`: alone on machine `M`, thread `tid` runs `p` from `s` to
its end `s'` with result `a`, performing `tr`; the environment moves in between. -/
inductive Runs (M : Machine Op Res S Env) (tid : Nat) :
    Prog Op Res α → S → Trace Op Res → α → S → Prop where
  | ret (a : α) (s : S) : Runs M tid (.ret a) s [] a s
  | op {o : Op} {k : Res o → Prog Op Res α} {s s₁ s₂ : S} {r : Res o}
      {tr : Trace Op Res} {a : α} (hexec : M.exec tid o r s = some s₁)
      (rest : Runs M tid (k r) s₁ tr a s₂) : Runs M tid (.op o k) s (⟨o, r⟩ :: tr) a s₂
  | env {e : Env} {p : Prog Op Res α} {s s₁ s₂ : S} {tr : Trace Op Res} {a : α}
      (hmove : M.env e s = some s₁) (rest : Runs M tid p s₁ tr a s₂) : Runs M tid p s tr a s₂

/-- `Emits p tr a`: `p` can perform `tr` and return `a`, if it is given these answers. A
property of the text of `p` alone. -/
inductive Emits : Prog Op Res α → Trace Op Res → α → Prop where
  | ret (a : α) : Emits (.ret a) [] a
  | op {o : Op} {k : Res o → Prog Op Res α} {r : Res o} {tr : Trace Op Res} {a : α}
      (rest : Emits (k r) tr a) : Emits (.op o k) (⟨o, r⟩ :: tr) a

variable {tr : Trace Op Res}

variable {a : α} {P : Op → Prop} {β : Type} {p : Prog Op Res α} {f : α → Prog Op Res β}

theorem emits_ret {a' : α} (h : Emits (.ret a) tr a') :
    tr = [] ∧ a' = a := by
  cases h
  exact ⟨rfl, rfl⟩

theorem emits_perform_bind {o : Op} {f : Res o → Prog Op Res α} (h : Emits (perform o >>= f) tr a) :
    ∃ r tr', tr = ⟨o, r⟩ :: tr' ∧ Emits (f r) tr' a := by
  cases h with
  | op rest => exact ⟨_, _, rfl, rest⟩

/-- The trace of a sequence is the two traces one after the other. -/
theorem emits_bind {b : β} (h : Emits (p >>= f) tr b) :
    ∃ tr₁ tr₂ a, tr = tr₁ ++ tr₂ ∧ Emits p tr₁ a ∧ Emits (f a) tr₂ b := by
  induction p generalizing tr with
  | ret a => exact ⟨[], tr, a, rfl, .ret a, h⟩
  | op o k ih =>
    obtain ⟨r, tr', rfl, hrest⟩ := emits_perform_bind (f := fun r => k r >>= f) h
    obtain ⟨tr₁, tr₂, a, rfl, hp, hf⟩ := ih r hrest
    exact ⟨⟨o, r⟩ :: tr₁, tr₂, a, rfl, .op hp, hf⟩

/-- Everything that is performed is among the operations the program can reach. -/
theorem Emits.performs (h : Emits p tr a)
    (hp : p.Performs (fun _ _ => True) P) : ∀ x ∈ tr, P x.1 := by
  induction h with
  | ret a => exact nofun
  | op rest ih =>
    intro x hx
    rcases mem_cons.mp hx with rfl | hrest
    · exact hp.1
    · exact ih (hp.2 _ trivial) x hrest

section Runs

variable {M : Machine Op Res S Env} {tid : Nat} {p : Prog Op Res α} {s s' : S}
  {tr : Trace Op Res} {a : α}

theorem Runs.emits (h : Runs M tid p s tr a s') : Emits p tr a := by
  induction h with
  | ret a s => exact .ret a
  | op hexec rest ih => exact .op ih
  | env hmove rest ih => exact ih

/-- Everything a run performed is among the operations its program can reach. -/
theorem Runs.performs {A : (o : Op) → Res o → Prop}
    (hA : ∀ o r s s', M.exec tid o r s = some s' → A o r) (h : Runs M tid p s tr a s')
    (hp : p.Performs A P) : ∀ x ∈ tr, P x.1 := by
  induction h with
  | ret a s => exact nofun
  | op hexec rest ih =>
    intro x hx
    rcases mem_cons.mp hx with rfl | hrest
    · exact hp.1
    · exact ih (hp.2 _ (hA _ _ _ _ hexec)) x hrest
  | env hmove rest ih => exact ih hp

variable {I : S → Prop}

/-- The first operation of a run, after the environment's moves. -/
theorem runs_perform_bind {o : Op} {f : Res o → Prog Op Res α}
    (henv : ∀ e s s', M.env e s = some s' → I s → I s')
    (h : Runs M tid (perform o >>= f) s tr a s') (hs : I s) :
    ∃ r s₁ s₂ tr', I s₁ ∧ M.exec tid o r s₁ = some s₂ ∧ tr = ⟨o, r⟩ :: tr' ∧
      Runs M tid (f r) s₂ tr' a s' := by
  generalize hp : (perform o >>= f : Prog Op Res α) = p at h
  induction h with
  | ret a s => cases hp
  | op hexec rest ih =>
    cases hp
    exact ⟨_, _, _, _, hs, hexec, rfl, rest⟩
  | env hmove rest ih => exact ih (henv _ _ _ hmove hs) hp

/-- At the end of a program only the environment moves. -/
theorem runs_ret {b : α} (henv : ∀ e s s', M.env e s = some s' → I s → I s')
    (h : Runs M tid (.ret b) s tr a s') (hs : I s) : tr = [] ∧ a = b ∧ I s' := by
  generalize hp : (.ret b : Prog Op Res α) = p at h
  induction h with
  | ret a s =>
    cases hp
    exact ⟨rfl, rfl, hs⟩
  | op hexec rest ih => cases hp
  | env hmove rest ih => exact ih (henv _ _ _ hmove hs) hp

/-- A run of a sequence is a run of the first program and then one of the second. -/
theorem runs_bind {b : β} (h : Runs M tid (p >>= f) s tr b s') :
    ∃ tr₁ tr₂ a s₁, tr = tr₁ ++ tr₂ ∧ Runs M tid p s tr₁ a s₁ ∧ Runs M tid (f a) s₁ tr₂ b s' := by
  generalize hq : (p >>= f) = q at h
  induction h generalizing p with
  | ret b s =>
    cases p with
    | ret a => exact ⟨[], [], a, s, rfl, .ret a s, by rw [← ret_bind a f, hq]; exact .ret b s⟩
    | op o k => cases hq
  | op hexec rest ih =>
    cases p with
    | ret a => exact ⟨[], _, a, _, rfl, .ret a _, by rw [← ret_bind a f, hq]; exact .op hexec rest⟩
    | op o k =>
      cases hq
      obtain ⟨tr₁, tr₂, a, s₁, rfl, hp, hf⟩ := ih rfl
      exact ⟨_ :: tr₁, tr₂, a, s₁, rfl, .op hexec hp, hf⟩
  | env hmove rest ih =>
    obtain ⟨tr₁, tr₂, a, s₁, rfl, hp, hf⟩ := ih hq
    exact ⟨tr₁, tr₂, a, s₁, rfl, .env hmove hp, hf⟩

/-- A run after another. -/
theorem Runs.bind {b : β} {tr₁ tr₂ : Trace Op Res} {s₁ : S} (hp : Runs M tid p s tr₁ a s₁)
    (hf : Runs M tid (f a) s₁ tr₂ b s') : Runs M tid (p >>= f) s (tr₁ ++ tr₂) b s' := by
  induction hp with
  | ret a s => exact hf
  | op hexec rest ih => exact .op hexec (ih hf)
  | env hmove rest ih => exact .env hmove (ih hf)

/-- A program of operations that leave the state alone can be answered by it. -/
theorem runs_interp {A : (o : Op) → Res o → Prop} {answer : (o : Op) → Res o} (hp : p.Performs A P)
    (hA : ∀ o, P o → A o (answer o))
    (h : ∀ o, P o → M.exec tid o (answer o) s = some s) :
    ∃ tr, Runs M tid p s tr (p.interp answer) s := by
  induction p with
  | ret a => exact ⟨[], .ret a s⟩
  | op o k ih =>
    obtain ⟨tr, hrest⟩ := ih (answer o) (hp.2 _ (hA o hp.1))
    exact ⟨_, .op (h o hp.1) hrest⟩

/-- The invariant rule. -/
theorem Runs.preserves (hexec : ∀ o r s s', M.exec tid o r s = some s' → I s → I s')
    (henv : ∀ e s s', M.env e s = some s' → I s → I s')
    (h : Runs M tid p s tr a s') (hs : I s) : I s' := by
  induction h with
  | ret a s => exact hs
  | op hstep rest ih => exact ih (hexec _ _ _ _ hstep hs)
  | env hmove rest ih => exact ih (henv _ _ _ hmove hs)

/-- The invariant rule, for the operations the program can reach with the answers it gets. -/
theorem Runs.preserves_performed {A : (o : Op) → Res o → Prop} (hp : p.Performs A P)
    (hA : ∀ o r s s', I s → M.exec tid o r s = some s' → A o r)
    (hexec : ∀ o r s s', P o → M.exec tid o r s = some s' → I s → I s')
    (henv : ∀ e s s', M.env e s = some s' → I s → I s')
    (h : Runs M tid p s tr a s') (hs : I s) : I s' := by
  induction h with
  | ret a s => exact hs
  | op hstep rest ih => exact ih (hp.2 _ (hA _ _ _ _ hs hstep)) (hexec _ _ _ _ hp.1 hstep hs)
  | env hmove rest ih => exact ih hp (henv _ _ _ hmove hs)

/-- What one of the operations performed brings about under an invariant `J`, and nothing
takes back, holds in the end. -/
theorem Runs.of_mem {J : S → Prop} {x : Σ o : Op, Res o}
    (hx : ∀ s s', J s → M.exec tid x.1 x.2 s = some s' → I s')
    (hexec : ∀ o r s s', M.exec tid o r s = some s' → (J s → J s') ∧ (I s → I s'))
    (henv : ∀ e s s', M.env e s = some s' → (J s → J s') ∧ (I s → I s'))
    (h : Runs M tid p s tr a s') (hs : J s) (hmem : x ∈ tr) : I s' := by
  induction h with
  | ret a s => cases hmem
  | op hstep rest ih =>
    rcases mem_cons.mp hmem with rfl | hrest
    · exact rest.preserves (fun o r s s' h => (hexec o r s s' h).2)
        (fun e s s' h => (henv e s s' h).2) (hx _ _ hs hstep)
    · exact ih ((hexec _ _ _ _ hstep).1 hs) hrest
  | env hmove rest ih => exact ih ((henv _ _ _ hmove).1 hs) hmem

/-- A part of the state that only the operations change, each in its own way, is
determined by the trace. -/
theorem Runs.view_eq {v : S → β} {f : (Σ o : Op, Res o) → β → β}
    (hexec : ∀ o r s s', M.exec tid o r s = some s' → v s' = f ⟨o, r⟩ (v s))
    (henv : ∀ e s s', M.env e s = some s' → v s' = v s)
    (h : Runs M tid p s tr a s') : v s' = tr.foldl (fun b x => f x b) (v s) := by
  induction h with
  | ret a s => rfl
  | op hstep rest ih => rw [ih, hexec _ _ _ _ hstep, foldl_cons]
  | env hmove rest ih => rw [ih, henv _ _ _ hmove]

end Runs

section Follow

variable [DecidableEq Op]

/-- `Runs` as a function, for evaluating a concrete run: the environment's moves and the
operations with their answers, in order. -/
def follow (M : Machine Op Res S Env) (tid : Nat) :
    Prog Op Res α → S → List (Env ⊕ (Σ o : Op, Res o)) → Option (Trace Op Res × α × S)
  | p, s, [] =>
      match p with
      | .ret a => some ([], a, s)
      | .op _ _ => none
  | p, s, .inl e :: moves => (M.env e s).bind (fun s₁ => follow M tid p s₁ moves)
  | p, s, .inr x :: moves =>
      match p with
      | .ret _ => none
      | .op o k =>
          if h : x.1 = o then
            (M.exec tid x.1 x.2 s).bind fun s₁ =>
              (follow M tid (k (h ▸ x.2)) s₁ moves).map fun y => (x :: y.1, y.2)
          else none

theorem follow_runs {M : Machine Op Res S Env} {tid : Nat} {s : S}
    {moves : List (Env ⊕ (Σ o : Op, Res o))} {x : Trace Op Res × α × S}
    (h : follow M tid p s moves = some x) : Runs M tid p s x.1 x.2.1 x.2.2 := by
  induction moves generalizing p s x with
  | nil =>
    cases p with
    | ret b =>
      cases h
      exact .ret _ _
    | op o k => cases h
  | cons move moves ih =>
    cases move with
    | inl e =>
      simp only [follow] at h
      obtain ⟨s₁, hmove, hrest⟩ := Option.bind_eq_some_iff.mp h
      exact .env hmove (ih hrest)
    | inr y =>
      cases p with
      | ret b => cases h
      | op o k =>
        simp only [follow] at h
        split at h
        · rename_i heq
          subst heq
          obtain ⟨s₁, hexec, hrest⟩ := Option.bind_eq_some_iff.mp h
          obtain ⟨y, hfollow, rfl⟩ := Option.map_eq_some_iff.mp hrest
          exact .op hexec (ih hfollow)
        · cases h

end Follow

end Prog

end Lemul
