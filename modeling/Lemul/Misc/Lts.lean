import Mathlib

/-!
# Labelled transition systems

A system whose steps are given by a function: `step s l` is the state after `l`, if `l` can
happen in `s`. Nondeterminism, scheduling included, is in the labels, so a run is a list
of labels, and what a run did can be read off it.
-/

namespace Lemul

open List

/-- A transition system over states `S` with labels `L`. -/
structure Lts (S L : Type) where
  step : S → L → Option S

namespace Lts

variable {S L : Type} {M : Lts S L}

/-- `M.Run s tr s'`: the steps `tr` lead from `s` to `s'`. -/
inductive Run (M : Lts S L) (s : S) : List L → S → Prop where
  | nil : Run M s [] s
  | snoc {tr : List L} {mid last : S} {l : L} (before : Run M s tr mid)
      (hstep : M.step mid l = some last) : Run M s (tr ++ [l]) last

/-- The runs that take only steps which meet `cond` in the state they start from. -/
def restrict (M : Lts S L) (cond : S → L → Prop) [∀ s l, Decidable (cond s l)] : Lts S L where
  step s l := if cond s l then M.step s l else none

theorem restrict_step {cond : S → L → Prop} [∀ s l, Decidable (cond s l)] {s s' : S} {l : L}
    (h : (M.restrict cond).step s l = some s') : cond s l ∧ M.step s l = some s' := by
  simp only [restrict] at h
  split at h
  · rename_i hcond
    exact ⟨hcond, h⟩
  · cases h

namespace Run

variable {s mid last : S} {tr tr₁ tr₂ : List L}

/-- The invariant rule, for a relation between what happened and the state. -/
theorem traced {P : List L → S → Prop} (hstart : P [] s)
    (hstep : ∀ tr mid l last, P tr mid → M.step mid l = some last → P (tr ++ [l]) last)
    (h : M.Run s tr last) : P tr last := by
  induction h with
  | nil => exact hstart
  | snoc before hlast ih => exact hstep _ _ _ _ ih hlast

/-- The invariant rule. -/
theorem invariant {I : S → Prop} (hstep : ∀ s l s', I s → M.step s l = some s' → I s')
    (h : M.Run s tr last) (hstart : I s) : I last :=
  h.traced (P := fun _ => I) hstart (fun _ mid l last hmid hlast => hstep mid l last hmid hlast)

theorem append (h₁ : M.Run s tr₁ mid) (h₂ : M.Run mid tr₂ last) :
    M.Run s (tr₁ ++ tr₂) last := by
  induction h₂ with
  | nil =>
    rw [append_nil]
    exact h₁
  | snoc before hstep ih =>
    rw [← append_assoc]
    exact .snoc ih hstep

theorem cons {l : L} (hstep : M.step s l = some mid) (h : M.Run mid tr last) :
    M.Run s (l :: tr) last :=
  append (.snoc .nil hstep) h

/-- A run can be cut anywhere. -/
theorem split (h : M.Run s (tr₁ ++ tr₂) last) :
    ∃ mid, M.Run s tr₁ mid ∧ M.Run mid tr₂ last := by
  generalize htr : tr₁ ++ tr₂ = tr at h
  induction h generalizing tr₂ with
  | nil =>
    obtain ⟨rfl, rfl⟩ := append_eq_nil_iff.mp htr
    exact ⟨s, .nil, .nil⟩
  | @snoc tr mid last l before hstep ih =>
    rcases eq_nil_or_concat tr₂ with rfl | ⟨init, x, rfl⟩
    · rw [append_nil] at htr
      rw [htr]
      exact ⟨last, .snoc before hstep, .nil⟩
    · rw [concat_eq_append, ← append_assoc] at htr
      obtain ⟨hinit, hx⟩ := append_inj' htr rfl
      cases hx
      obtain ⟨cutAt, hleft, hright⟩ := ih hinit
      rw [concat_eq_append]
      exact ⟨cutAt, hleft, .snoc hright hstep⟩

/-- The first step of a run. -/
theorem first_step {l : L} (h : M.Run s (l :: tr) last) :
    ∃ mid, M.step s l = some mid ∧ M.Run mid tr last := by
  have hcons : M.Run s ([l] ++ tr) last := h
  obtain ⟨mid, hfirst, hrest⟩ := split hcons
  generalize hl : [l] = single at hfirst
  cases hfirst with
  | nil => cases hl
  | @snoc before' mid' _ l' hbefore hstep =>
    have hsingle : [] ++ [l] = before' ++ [l'] := hl
    obtain ⟨hnil, hlast⟩ := append_inj' hsingle rfl
    cases hlast
    subst hnil
    generalize hempty : ([] : List L) = empty at hbefore
    cases hbefore with
    | nil => exact ⟨mid, hstep, hrest⟩
    | snoc b hs => exact absurd hempty.symm (by simp)

/-- A restricted run is a run. -/
theorem of_restrict {cond : S → L → Prop} [∀ s l, Decidable (cond s l)]
    (h : (M.restrict cond).Run s tr last) : M.Run s tr last := by
  induction h with
  | nil => exact .nil
  | snoc before hstep ih => exact .snoc ih (restrict_step hstep).2

end Run

/-- `P` held at a moment of the run by `tr` from `s` to `last`. -/
def Sometime (M : Lts S L) (s : S) (tr : List L) (last : S) (P : S → Prop) : Prop :=
  ∃ before after mid, tr = before ++ after ∧ M.Run s before mid ∧ M.Run mid after last ∧ P mid

namespace Sometime

variable {s mid last : S} {tr : List L} {l : L} {P : S → Prop}

theorem now (hrun : M.Run s tr last) (h : P last) : M.Sometime s tr last P :=
  ⟨tr, [], last, (append_nil tr).symm, hrun, .nil, h⟩

theorem snoc (h : M.Sometime s tr mid P) (hstep : M.step mid l = some last) :
    M.Sometime s (tr ++ [l]) last P := by
  obtain ⟨before, after, moment, rfl, hbefore, hafter, hP⟩ := h
  exact ⟨before, after ++ [l], moment, append_assoc _ _ _, hbefore, .snoc hafter hstep, hP⟩

end Sometime

/-- The state a concrete run ends in. -/
def exec (M : Lts S L) : S → List L → Option S
  | s, [] => some s
  | s, l :: tr => (M.step s l).bind (fun mid => exec M mid tr)

/-- A run without end. -/
structure Endless (M : Lts S L) (s : S) where
  state : Nat → S
  label : Nat → L
  start : state 0 = s
  next (k : Nat) : M.step (state k) (label k) = some (state (k + 1))

namespace Endless

variable {s : S}

/-- The steps in `own` are not put off for ever: again and again one of them is taken, or none
of them is possible. -/
def FairTo (e : M.Endless s) (own : L → Prop) : Prop :=
  ∀ k, ∃ j, k ≤ j ∧ (own (e.label j) ∨ ∀ l, own l → M.step (e.state j) l = none)

/-- A run that ends where a step changes nothing goes on for ever. -/
theorem of_loop {l : L} {last : S} {tr : List L} (hrun : M.exec s tr = some last)
    (hloop : M.step last l = some last) :
    ∃ e : M.Endless s, ∀ j, tr.length ≤ j → e.state j = last := by
  induction tr generalizing s with
  | nil =>
    cases hrun
    exact ⟨⟨fun _ => last, fun _ => l, rfl, fun _ => hloop⟩, fun _ _ => rfl⟩
  | cons l' tr ih =>
    obtain ⟨mid, hstep, hrest⟩ := Option.bind_eq_some_iff.mp hrun
    obtain ⟨e, he⟩ := ih hrest
    refine ⟨⟨fun k => k.casesOn s e.state, fun k => k.casesOn l' e.label, rfl, fun k => ?_⟩, ?_⟩
    · cases k with
      | zero => exact hstep.trans (congrArg some e.start.symm)
      | succ k => exact e.next k
    · rintro (_ | j) hj
      · cases hj
      · exact he j (Nat.le_of_succ_le_succ hj)

/-- What every step keeps, an endless run keeps. -/
theorem invariant {I : S → Prop} (e : M.Endless s)
    (hstep : ∀ s l s', I s → M.step s l = some s' → I s') {k j : Nat} (hkj : k ≤ j)
    (h : I (e.state k)) : I (e.state j) := by
  induction hkj with
  | refl => exact h
  | step _ ih => exact hstep _ _ _ ih (e.next _)

/-- The rule of the variant: where `I` holds, as it does from `k` on, no step makes `μ` larger, a
step in `own` makes it smaller, and until it is 0 such a step is possible. -/
theorem reaches_zero {I : S → Prop} {own : L → Prop} {k : Nat} (e : M.Endless s) (μ : S → Nat)
    (hfair : e.FairTo own) (hI : ∀ j, k ≤ j → I (e.state j))
    (hle : ∀ s l s', I s → M.step s l = some s' → μ s' ≤ μ s)
    (hlt : ∀ s l s', I s → μ s ≠ 0 → own l → M.step s l = some s' → μ s' < μ s)
    (hcan : ∀ s, I s → μ s ≠ 0 → ∃ l s', own l ∧ M.step s l = some s') :
    ∃ j, k ≤ j ∧ μ (e.state j) = 0 := by
  -- by induction on the variant: from `k` on, the next step in `own` comes at some `j`
  generalize hm : μ (e.state k) = m
  induction m using Nat.strongRecOn generalizing k with
  | _ m ih =>
    obtain ⟨j, hkj, hj⟩ := hfair k
    have hno : μ (e.state j) ≤ m := by
      rw [← hm]
      clear hj
      induction hkj with
      | refl => exact Nat.le_refl _
      | @step j hkj ih' => exact Nat.le_trans (hle _ _ _ (hI j hkj) (e.next j)) ih'
    by_cases hdone : μ (e.state j) = 0
    · exact ⟨j, hkj, hdone⟩
    have hown : own (e.label j) := by
      rcases hj with hown | hnone
      · exact hown
      · obtain ⟨l, s', hl, hstep⟩ := hcan _ (hI j hkj) hdone
        rw [hnone l hl] at hstep
        cases hstep
    have hless := hlt _ _ _ (hI j hkj) hdone hown (e.next j)
    obtain ⟨i, hi, hat⟩ := ih _ (Nat.lt_of_lt_of_le hless hno)
      (fun i hi => hI i (by omega)) rfl
    exact ⟨i, by omega, hat⟩

end Endless

theorem exec_run {s last : S} {tr : List L} (h : M.exec s tr = some last) :
    M.Run s tr last := by
  induction tr generalizing s with
  | nil =>
    cases h
    exact .nil
  | cons l tr ih =>
    obtain ⟨mid, hstep, hrest⟩ := Option.bind_eq_some_iff.mp h
    exact .cons hstep (ih hrest)

end Lts

end Lemul
