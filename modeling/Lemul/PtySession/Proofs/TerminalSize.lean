import Lemul.PtySession.Nudge

/-!
# The size of a terminal is its controllers'

A nudge reads the size, changes it and restores what it has read, and only other nudges are
kept out meanwhile. A resize in between is undone. So is one that comes after an attach whose
nudge has yet to begin. And the attach that forks the session brings its size, also when it is
a viewer's. Apart from these three the terminal has the size that a controller requested last.
-/

namespace Lemul.PtySession.Nudge

open List Option System.Outline Lemul.System

/-- No viewer forks the session with a size of its own, and a controller makes a request only
while no earlier one waits for its nudge, a resize also only while no nudge is at work. -/
def undisturbed (s : Terminal) : Label Op Res Empty Request → Prop
  | .thread _ (.create (some .viewer) asked) _ => asked = ⟨0, 0⟩
  | .thread _ (.attach .controller asked true) _ => asked.given = true → s.asking = []
  | .thread _ (.resize .controller z) _ => z.given = true → s.nudgeMu = none ∧ s.asking = []
  | _ => True

instance (s : Terminal) (l : Label Op Res Empty Request) : Decidable (undisturbed s l) := by
  unfold undisturbed
  split <;> infer_instance

/-- Where a terminal is between its nudges. -/
structure Settled (s : Terminal) : Prop where
  settled : s.nudgeMu = none → s.asking = [] → ∀ z, s.requested = some z → s.size = some z
  asking : ∀ tid ∈ s.asking, tid ∈ s.nudges
  holder : ∀ tid, s.nudgeMu = some tid → tid ∈ s.nudges
  forked : ∀ tid ∈ s.nudges, s.size ≠ none
  unforked : s.size = none → s.requested = none
  given : ∀ z, s.size = some z → z.given = true
  viewerSet : s.viewerSet = false

/-- What must be so before a step. -/
def SizePre (tid : Nat) : Op → Terminal → Prop
  | .lockNudge, s => tid ∈ s.nudges
  | .nudgeTo asked _, s => s.nudgeMu = some tid ∧ asked ≠ some .viewer
  | .unlockNudge, s => s.nudgeMu = some tid ∧ tid ∉ s.asking ∧
      (s.asking = [] → ∀ z, s.requested = some z → s.size = some z)
  | _, _ => True

/-- What others leave alone. -/
structure SizeRely (tid : Nat) (s s' : Terminal) : Prop where
  nudges : tid ∈ s'.nudges ↔ tid ∈ s.nudges
  asking : tid ∈ s'.asking ↔ tid ∈ s.asking
  requested : tid ∈ s.asking → s'.requested = s.requested
  holder : s.nudgeMu = some tid → s'.nudgeMu = some tid ∧ s'.size = s.size ∧
    (s'.asking = [] → s.asking = [] ∧ s'.requested = s.requested)

theorem SizeRely.refl (tid : Nat) (s : Terminal) : SizeRely tid s s :=
  ⟨Iff.rfl, Iff.rfl, fun _ => rfl, fun h => ⟨h, rfl, fun hasking => ⟨hasking, rfl⟩⟩⟩

theorem SizeRely.trans {tid : Nat} {s₁ s₂ s₃ : Terminal} (h₁ : SizeRely tid s₁ s₂)
    (h₂ : SizeRely tid s₂ s₃) : SizeRely tid s₁ s₃ where
  nudges := h₂.nudges.trans h₁.nudges
  asking := h₂.asking.trans h₁.asking
  requested h := (h₂.requested (h₁.asking.mpr h)).trans (h₁.requested h)
  holder h := by
    obtain ⟨hmu₂, hsize₂, hquiet₂⟩ := h₁.holder h
    obtain ⟨hmu₃, hsize₃, hquiet₃⟩ := h₂.holder hmu₂
    refine ⟨hmu₃, hsize₃.trans hsize₂, fun hasking => ?_⟩
    obtain ⟨hasking₂, hrequested₃⟩ := hquiet₃ hasking
    obtain ⟨hasking₁, hrequested₂⟩ := hquiet₂ hasking₂
    exact ⟨hasking₁, hrequested₃.trans hrequested₂⟩

/-! ## Steps -/

section Steps

variable {tid : Nat} {s s' : Terminal}

theorem Size.forked_given (z : Size) : z.forked.given = true := by
  unfold Size.forked Size.given
  by_cases hrows : z.rows = 0 <;> by_cases hcols : z.cols = 0 <;> simp [hrows, hcols]

variable {z asked : Size} {who : Option Role}

theorem Size.forked_of_given (h : z.given = true) : z.forked = z := by
  simp only [Size.given, Bool.and_eq_true, decide_eq_true_eq] at h
  unfold Size.forked
  rw [if_neg h.1, if_neg h.2]

/-- A session that is forked has no nudge yet. -/
theorem Settled.unnudged (h : Settled s) (hnone : s.size = none) :
    s.nudges = [] ∧ s.asking = [] ∧ s.nudgeMu = none := by
  have hnudges : s.nudges = [] :=
    eq_nil_iff_forall_not_mem.mpr fun t ht => h.forked t ht hnone
  refine ⟨hnudges, eq_nil_iff_forall_not_mem.mpr fun t ht => ?_,
    eq_none_iff_forall_ne_some.mpr fun t ht => ?_⟩
  · have hmem := h.asking t ht
    rw [hnudges] at hmem
    cases hmem
  · have hmem := h.holder t ht
    rw [hnudges] at hmem
    cases hmem

theorem settled_fork {requested : Option Size} (h : Settled s) (hnone : s.size = none)
    (hrequested : ∀ z, requested = some z → asked.forked = z)
    (hs' : s' = { s with size := some asked.forked, requested := requested }) :
    Settled s' ∧ ∀ other, SizeRely other s s' := by
  obtain ⟨hnudges, hasking, hmu⟩ := h.unnudged hnone
  subst hs'
  refine ⟨⟨fun _ _ z hz => congrArg some (hrequested z hz), h.asking, h.holder,
    fun _ _ => some_ne_none _, fun hsize => absurd hsize (some_ne_none _),
    fun z hz => ?_, h.viewerSet⟩, fun other => ⟨Iff.rfl, Iff.rfl, fun hin => ?_, fun hin => ?_⟩⟩
  · rw [← Option.some.inj hz]
    exact asked.forked_given
  · rw [hasking] at hin
    cases hin
  · cases hmu.symm.trans hin

/-- What `createSession` does when it succeeds. -/
theorem create_eq (hviewer : who = some .viewer → asked = ⟨0, 0⟩)
    (hexec : exec tid (.create who asked) true s = some s') : s.size = none ∧
      s' = { s with
        size := some asked.forked
        requested :=
          if who = some .controller ∧ asked.given = true then some asked else s.requested } := by
  simp only [exec, if_true] at hexec
  split at hexec
  · rename_i hnone
    refine ⟨hnone, (Option.some.inj hexec).symm.trans ?_⟩
    rcases who with _ | _ | _
    · simp [Terminal.fork]
    · by_cases hgiven : asked.given = true <;> simp [Terminal.fork, Terminal.request, hgiven]
    · simp [Terminal.fork, hviewer rfl]
  · cases hexec

theorem settled_create {r : Bool} (h : Settled s)
    (hcond : undisturbed s (.thread tid (.create who asked) r))
    (hexec : exec tid (.create who asked) r s = some s') :
    Settled s' ∧ ∀ other, SizeRely other s s' := by
  cases r with
  | false =>
    cases hexec
    exact ⟨h, fun other => .refl other s⟩
  | true =>
    have hviewer : who = some .viewer → asked = ⟨0, 0⟩ := by
      rintro rfl
      exact hcond
    obtain ⟨hnone, hs'⟩ := create_eq hviewer hexec
    refine settled_fork h hnone (fun z hz => ?_) hs'
    split at hz
    · rename_i hrequest
      rw [← Option.some.inj hz]
      exact Size.forked_of_given hrequest.2
    · rw [h.unforked hnone] at hz
      cases hz

theorem settled_attach {who : Role} {repaint : Bool} (h : Settled s)
    (hcond : undisturbed s (.thread tid (.attach who asked repaint) ()))
    (hexec : exec tid (.attach who asked repaint) () s = some s') :
    Settled s' ∧ ∀ other, other ≠ tid → SizeRely other s s' := by
  simp only [exec] at hexec
  split at hexec
  · cases hexec
  · rename_i hforked
    cases repaint with
    | false =>
      cases hexec
      exact ⟨h, fun other _ => .refl other s⟩
    | true =>
      have hother : ∀ other, other ≠ tid → (other ∈ tid :: s.nudges ↔ other ∈ s.nudges) :=
        fun other hne => ⟨fun hin => (mem_cons.mp hin).resolve_left hne,
          mem_cons_of_mem _⟩
      by_cases hrequest : who = .controller ∧ asked.given = true
      · -- a request: its nudge has to come before the terminal is settled again
        rw [if_pos hrequest] at hexec
        cases hexec
        obtain ⟨rfl, hgiven⟩ := hrequest
        have hasking : s.asking = [] := hcond hgiven
        simp only [Terminal.request, hgiven, and_self, if_true]
        refine ⟨⟨fun _ hnone => ?_, fun t ht => ?_, fun t ht => ?_, fun _ _ => hforked,
          fun hnone => absurd hnone hforked, h.given, h.viewerSet⟩, fun other hne => ?_⟩
        · cases hnone
        · rw [hasking] at ht
          rw [mem_singleton.mp ht]
          exact mem_cons_self
        · exact mem_cons_of_mem _ (h.holder t ht)
        · refine ⟨hother other hne, ?_, fun hin => ?_, fun hmu => ⟨hmu, rfl, fun hnone => ?_⟩⟩
          · exact ⟨fun hin => (mem_cons.mp hin).resolve_left hne, mem_cons_of_mem _⟩
          · rw [hasking] at hin
            cases hin
          · cases hnone
      · rw [if_neg hrequest] at hexec
        cases hexec
        simp only [Terminal.request, if_neg hrequest]
        refine ⟨⟨h.settled, fun t ht => mem_cons_of_mem _ (h.asking t ht),
          fun t ht => mem_cons_of_mem _ (h.holder t ht), fun _ _ => hforked, h.unforked,
          h.given, h.viewerSet⟩, fun other hne => ?_⟩
        exact ⟨hother other hne, Iff.rfl, fun _ => rfl,
          fun hmu => ⟨hmu, rfl, fun hnone => ⟨hnone, rfl⟩⟩⟩

theorem settled_lockNudge (h : Settled s) (hpre : tid ∈ s.nudges)
    (hexec : exec tid .lockNudge () s = some s') :
    Settled s' ∧ ∀ other, other ≠ tid → SizeRely other s s' := by
  simp only [exec] at hexec
  split at hexec <;> cases hexec
  rename_i hfree
  refine ⟨⟨fun hnone => ?_, fun t ht => h.asking t (mem_filter.mp ht).1, fun t ht => ?_,
    h.forked, h.unforked, h.given, h.viewerSet⟩, fun other hne => ?_⟩
  · cases hnone
  · rw [← Option.some.inj ht]
    exact hpre
  · refine ⟨Iff.rfl, ?_, fun _ => rfl, fun hmu => ?_⟩
    · exact ⟨fun hin => (mem_filter.mp hin).1,
        fun hin => mem_filter.mpr ⟨hin, decide_eq_true hne⟩⟩
    · cases hfree.symm.trans hmu

/-- Only the holder of `nudgeMu` sees a change. -/
theorem settled_nudgeTo {asked : Option Role} (h : Settled s)
    (hpre : SizePre tid (.nudgeTo asked z) s)
    (hexec : exec tid (.nudgeTo asked z) () s = some s') :
    Settled s' ∧ ∀ other, other ≠ tid → SizeRely other s s' := by
  obtain ⟨hmu, hasked⟩ := hpre
  simp only [exec, Terminal.resize] at hexec
  split at hexec <;> cases hexec
  · rename_i hgiven
    refine ⟨⟨fun hnone => ?_, h.asking, h.holder, fun _ _ => some_ne_none _,
      fun hnone => absurd hnone (some_ne_none _), fun z' hz => ?_, ?_⟩,
      fun other hne => ⟨Iff.rfl, Iff.rfl, fun _ => rfl, fun hmu' => ?_⟩⟩
    · cases hmu.symm.trans hnone
    · rw [← Option.some.inj hz]
      exact hgiven
    · rw [h.viewerSet, Bool.false_or, decide_eq_false hasked]
    · exact absurd (Option.some.inj (hmu'.symm.trans hmu)) hne
  · exact ⟨h, fun other _ => .refl other s⟩

theorem settled_unlockNudge (h : Settled s) (hpre : SizePre tid .unlockNudge s)
    (hexec : exec tid .unlockNudge () s = some s') :
    Settled s' ∧ ∀ other, other ≠ tid → SizeRely other s s' := by
  obtain ⟨hmu, hbegun, hsize⟩ := hpre
  cases hexec
  have hkept : ∀ t, t ≠ tid → t ∈ s.nudges → t ∈ s.nudges.filter (· ≠ tid) :=
    fun t hne hin => mem_filter.mpr ⟨hin, decide_eq_true hne⟩
  refine ⟨⟨fun _ => hsize, fun t ht => hkept t ?_ (h.asking t ht), fun t ht => ?_,
    fun t ht => h.forked t (mem_filter.mp ht).1, h.unforked, h.given, h.viewerSet⟩,
    fun other hne => ?_⟩
  · rintro rfl
    exact hbegun ht
  · cases ht
  · refine ⟨⟨fun hin => (mem_filter.mp hin).1, hkept other hne⟩, Iff.rfl, fun _ => rfl,
      fun hmu' => ?_⟩
    exact absurd (Option.some.inj (hmu'.symm.trans hmu)) hne

theorem settled_resize {who : Role} (h : Settled s)
    (hcond : undisturbed s (.thread tid (.resize who z) ()))
    (hexec : exec tid (.resize who z) () s = some s') :
    Settled s' ∧ ∀ other, SizeRely other s s' := by
  simp only [exec] at hexec
  split at hexec
  · cases hexec
  · cases who with
    | viewer =>
      cases hexec
      exact ⟨h, fun other => .refl other s⟩
    | controller =>
      by_cases hgiven : z.given = true
      · obtain ⟨hmu, hasking⟩ := hcond hgiven
        obtain rfl : { s with size := some z, requested := some z } = s' := by
          simpa [Terminal.resize, Terminal.request, hgiven] using hexec
        refine ⟨⟨fun _ _ z' hz => hz, h.asking, h.holder, fun _ _ => some_ne_none _,
          fun hnone => absurd hnone (some_ne_none _), fun z' hz => ?_, h.viewerSet⟩,
          fun other => ⟨Iff.rfl, Iff.rfl, fun hin => ?_, fun hmu' => ?_⟩⟩
        · rw [← Option.some.inj hz]
          exact hgiven
        · rw [hasking] at hin
          cases hin
        · cases hmu.symm.trans hmu'
      · obtain rfl : s = s' := by
          simpa [Terminal.resize, Terminal.request, hgiven] using hexec
        exact ⟨h, fun other => .refl other s⟩

/-- Every step keeps the terminal settled. -/
theorem settled_exec {o : Op} {r : Res o} (h : Settled s) (hpre : SizePre tid o s)
    (hcond : undisturbed s (.thread tid o r)) (hexec : exec tid o r s = some s') :
    Settled s' ∧ ∀ other, other ≠ tid → SizeRely other s s' := by
  have unchanged : s = s' → Settled s' ∧ ∀ other, other ≠ tid → SizeRely other s s' := by
    rintro rfl
    exact ⟨h, fun other _ => .refl other s⟩
  cases o with
  | get | size =>
    simp only [exec] at hexec
    split at hexec
    · exact unchanged (Option.some.inj hexec)
    · cases hexec
  | create who asked =>
    have hkept := settled_create h hcond hexec
    exact ⟨hkept.1, fun other _ => hkept.2 other⟩
  | attach who asked repaint => exact settled_attach h hcond hexec
  | lockNudge => exact settled_lockNudge h hpre hexec
  | nudgeTo asked z => exact settled_nudgeTo h hpre hexec
  | unlockNudge => exact settled_unlockNudge h hpre hexec
  | resize who z =>
    have hkept := settled_resize h hcond hexec
    exact ⟨hkept.1, fun other _ => hkept.2 other⟩

/-- Only an attach and the start of its nudge change who is asking. -/
theorem asking_exec {o : Op} {r : Res o}
    (hattach : ∀ who asked repaint, o ≠ .attach who asked repaint) (hlock : o ≠ .lockNudge)
    (hexec : exec tid o r s = some s') : s'.asking = s.asking := by
  cases o with
  | attach who asked repaint => exact absurd rfl (hattach who asked repaint)
  | lockNudge => exact absurd rfl hlock
  | unlockNudge =>
    cases hexec
    rfl
  | nudgeTo asked z =>
    cases hexec
    unfold Terminal.resize
    split <;> rfl
  | get | size =>
    simp only [exec] at hexec
    split at hexec <;> cases hexec
    rfl
  | create who asked =>
    simp only [exec, Terminal.request, Terminal.fork] at hexec
    repeat' split at hexec
    all_goals cases hexec <;> rfl
  | resize who z =>
    simp only [exec, Terminal.resize, Terminal.request] at hexec
    repeat' split at hexec
    all_goals cases hexec <;> rfl

end Steps

/-- Clients side by side. -/
def sizeOutline : Outline terminal undisturbed where
  inv := Settled
  rely := SizeRely
  pre := SizePre
  post tid _ s := tid ∉ s.asking
  rely_refl := SizeRely.refl
  rely_trans _ _ _ _ := SizeRely.trans
  op_ok h hpre hcond hexec := settled_exec h hpre hcond hexec
  env_ok {e} _ _ _ := e.elim

/-! ## Nudges -/

/-- Thread `tid` holds `nudgeMu`; unless a controller asks for another size meanwhile, `goal` is
the one that was requested last. -/
structure Nudging (tid : Nat) (goal : Size) (s : Terminal) : Prop where
  holder : s.nudgeMu = some tid
  begun : tid ∉ s.asking
  aim : s.asking = [] → ∀ z, s.requested = some z → z = goal

section Nudges

variable {tid : Nat} {goal : Size} {s s' : Terminal}

theorem Nudging.rely (h : Nudging tid goal s) (hrely : SizeRely tid s s') :
    Nudging tid goal s' where
  holder := (hrely.holder h.holder).1
  begun hin := h.begun (hrely.asking.mp hin)
  aim hasking z hz := by
    obtain ⟨-, -, hquiet⟩ := hrely.holder h.holder
    obtain ⟨hasking', hrequested⟩ := hquiet hasking
    exact h.aim hasking' z (hrequested ▸ hz)

theorem Nudging.resize (h : Nudging tid goal s) (asked : Option Role) (z : Size) :
    Nudging tid goal (s.resize asked z) := by
  unfold Terminal.resize
  split
  · exact ⟨h.holder, h.begun, h.aim⟩
  · exact h

theorem unlock_safe (h : Nudging tid goal s) (hsize : s.size = some goal) :
    sizeOutline.Safe tid (call .unlockNudge) (fun _ s' => tid ∉ s'.asking) s := by
  intro s₁ hrely _
  have h₁ := h.rely hrely
  have hsize₁ : s₁.size = some goal := (hrely.holder h.holder).2.1.trans hsize
  refine ⟨⟨h₁.holder, h₁.begun, fun hasking z hz => ?_⟩, fun _ s₂ hexec _ _ => ?_⟩
  · rw [hsize₁, h₁.aim hasking z hz]
  · cases hexec
    exact h₁.begun

theorem nudgeTo_safe {asked : Option Role} {z : Size} {f : Unit → Prog Op Res Unit}
    (h : Nudging tid goal s) (hasked : asked ≠ some .viewer)
    (hnext : ∀ s₁ : Terminal, Nudging tid goal (s₁.resize asked z) →
      sizeOutline.Safe tid (f ()) (fun _ s' => tid ∉ s'.asking) (s₁.resize asked z)) :
    sizeOutline.Safe tid (call (.nudgeTo asked z) >>= f) (fun _ s' => tid ∉ s'.asking) s := by
  refine safe_perform_bind fun s₁ hrely _ => ?_
  have h₁ := h.rely hrely
  refine ⟨⟨h₁.holder, hasked⟩, fun _ s₂ hexec _ _ => ?_⟩
  cases hexec
  exact hnext s₁ (h₁.resize asked z)

theorem size_resize {asked : Option Role} {z : Size} (h : z.given = true) :
    (s.resize asked z).size = some z := by
  rw [Terminal.resize, if_pos h]

/-- A nudge leaves the terminal at its goal. -/
theorem nudge_safe {who : Role} {asked : Size} (hwho : asked.given = true → who = .controller)
    (hnudge : tid ∈ s.nudges)
    (hwaits : asked.given = true → tid ∈ s.asking ∧ s.requested = some asked)
    (hidle : asked.given = false → tid ∉ s.asking) :
    sizeOutline.Safe tid (nudge who asked) (fun _ s' => tid ∉ s'.asking) s := by
  refine safe_perform_bind fun s₁ hrely₁ hinv₁ =>
    ⟨hrely₁.nudges.mpr hnudge, fun _ s₂ hlock _ hinv₂ => ?_⟩
  have hlocked : exec tid .lockNudge () s₁ = some s₂ := hlock
  simp only [exec] at hlocked
  split at hlocked <;> cases hlocked
  rename_i hfree
  have hbegun : tid ∉ s₁.asking.filter (· ≠ tid) :=
    fun hin => of_decide_eq_true (mem_filter.mp hin).2 rfl
  -- what is requested by now is the size of this nudge, or the one the terminal has
  have haim : s₁.asking.filter (· ≠ tid) = [] → ∀ z, s₁.requested = some z →
      if asked.given = true then z = asked else s₁.size = some z := by
    intro hasking z hz
    split
    · rename_i hgiven
      obtain ⟨hin, hrequested⟩ := hwaits hgiven
      rw [hrely₁.requested hin, hrequested] at hz
      exact (Option.some.inj hz).symm
    · rename_i hgiven
      have hnone : tid ∉ s₁.asking :=
        fun hin => hidle (Bool.eq_false_iff.mpr hgiven) (hrely₁.asking.mp hin)
      refine hinv₁.settled hfree (eq_nil_iff_forall_not_mem.mpr fun t ht => ?_) z hz
      have hkept : t ∈ s₁.asking.filter (· ≠ tid) :=
        mem_filter.mpr ⟨ht, decide_eq_true fun heq => hnone (heq ▸ ht)⟩
      rw [hasking] at hkept
      cases hkept
  refine safe_perform_bind fun s₃ hrely₃ hinv₃ =>
    ⟨trivial, fun cur s₄ hread _ _ => ?_⟩
  obtain ⟨hsize₃, rfl⟩ : s₃.size = some cur ∧ s₃ = s₄ := by
    have hexec : exec tid .size cur s₃ = some s₄ := hread
    simp only [exec] at hexec
    split at hexec
    · rename_i heq
      exact ⟨heq.symm, Option.some.inj hexec⟩
    · cases hexec
  obtain ⟨hmu₃, hsame, hquiet⟩ := hrely₃.holder rfl
  have h₃ : Nudging tid (if asked.given then asked else cur) s₃ := by
    refine ⟨hmu₃, fun hin => hbegun (hrely₃.asking.mp hin), fun hasking z hz => ?_⟩
    obtain ⟨hasking', hrequested⟩ := hquiet hasking
    have hz' := haim hasking' z (hrequested ▸ hz)
    split at hz'
    · rename_i hgiven
      rw [if_pos hgiven, hz']
    · rename_i hgiven
      rw [if_neg hgiven]
      exact Option.some.inj ((hz'.symm.trans hsame.symm).trans hsize₃)
  have hgoal : (if asked.given then asked else cur).given = true := by
    split
    · rename_i hgiven
      exact hgiven
    · exact hinv₃.given cur hsize₃
  have howner : (if asked.given then some who else none) ≠ some .viewer := by
    split
    · rename_i hgiven
      rw [hwho hgiven]
      decide
    · exact nofun
  dsimp only
  generalize (if asked.given = true then asked else cur) = goal at h₃ hgoal ⊢
  generalize (if asked.given = true then some who else none) = owner at howner ⊢
  split
  · exact nudgeTo_safe h₃ howner fun s₅ h₅ => unlock_safe h₅ (size_resize hgoal)
  · rename_i heq
    split
    · refine nudgeTo_safe h₃ howner fun s₅ h₅ => ?_
      exact nudgeTo_safe h₅ howner fun s₆ h₆ => unlock_safe h₆ (size_resize hgoal)
    · refine unlock_safe h₃ ?_
      rw [hsize₃, not_not.mp heq]

theorem attach_safe {who : Role} {asked : Size} {repaint : Bool} (hfresh : tid ∉ s.asking) :
    sizeOutline.Safe tid (attach who asked repaint) (fun _ s' => tid ∉ s'.asking) s := by
  refine safe_perform_bind fun s₁ hrely₁ _ =>
    ⟨trivial, fun _ s₂ hattach hcond _ => ?_⟩
  have hexec : exec tid (.attach who asked repaint) () s₁ = some s₂ := hattach
  have hfresh₁ : tid ∉ s₁.asking := fun hin => hfresh (hrely₁.asking.mp hin)
  simp only [exec] at hexec
  split at hexec
  · cases hexec
  · cases repaint with
    | false =>
      cases hexec
      exact hfresh₁
    | true =>
      obtain rfl := Option.some.inj hexec
      cases who with
      | viewer =>
        refine nudge_safe nofun mem_cons_self nofun ?_
        intro _ hin
        exact hfresh₁ hin
      | controller =>
        refine nudge_safe (fun _ => rfl) mem_cons_self (fun hgiven => ?_) fun hgiven hin => ?_
        · have hgiven' : asked.given = true := hgiven
          simp only [Terminal.request, hgiven', and_self, if_true]
          exact ⟨mem_cons_self, rfl⟩
        · have hgiven' : asked.given = false := hgiven
          simp only [hgiven', Bool.false_eq_true, and_false, if_false] at hin
          exact hfresh₁ hin

/-- The rule for a step that is neither an attach nor the start of a nudge. -/
theorem plain_safe {o : Op} {f : Res o → Prog Op Res Unit} (hfresh : tid ∉ s.asking)
    (hattach : ∀ who asked repaint, o ≠ .attach who asked repaint) (hlock : o ≠ .lockNudge)
    (hpre : ∀ s₁, SizePre tid o s₁)
    (hnext : ∀ r s₁, tid ∉ s₁.asking →
      sizeOutline.Safe tid (f r) (fun _ s' => tid ∉ s'.asking) s₁) :
    sizeOutline.Safe tid (call o >>= f) (fun _ s' => tid ∉ s'.asking) s := by
  refine safe_perform_bind fun s₁ hrely _ =>
    ⟨hpre s₁, fun r s₂ hexec _ _ => hnext r s₂ fun hin => ?_⟩
  rw [asking_exec hattach hlock hexec] at hin
  exact hfresh (hrely.asking.mp hin)

theorem handle_safe {q : Request} (hfresh : tid ∉ s.asking) :
    sizeOutline.Safe tid (handle q) (fun _ s' => tid ∉ s'.asking) s := by
  cases q with
  | startSession =>
    refine plain_safe hfresh (fun _ _ _ => Op.noConfusion) Op.noConfusion (fun _ => trivial) ?_
    intro found s₁ hfresh₁
    cases found with
    | true => exact hfresh₁
    | false =>
      refine plain_safe hfresh₁ (fun _ _ _ => Op.noConfusion) Op.noConfusion (fun _ => trivial) ?_
      exact fun _ s₂ hfresh₂ => hfresh₂
  | resize who z =>
    refine plain_safe (f := fun _ => .ret ()) hfresh (fun _ _ _ => Op.noConfusion) Op.noConfusion
      (fun _ => trivial) ?_
    exact fun _ s₁ hfresh₁ => hfresh₁
  | attach who asked mayCreate =>
    refine plain_safe hfresh (fun _ _ _ => Op.noConfusion) Op.noConfusion (fun _ => trivial) ?_
    intro found s₁ hfresh₁
    cases found with
    | true => exact attach_safe hfresh₁
    | false =>
      cases mayCreate with
      | false => exact hfresh₁
      | true =>
        refine plain_safe hfresh₁ (fun _ _ _ => Op.noConfusion) Op.noConfusion
          (fun _ => trivial) ?_
        intro created s₂ hfresh₂
        cases created with
        | false => exact hfresh₂
        | true => exact attach_safe hfresh₂

end Nudges

/-! ## Every run -/

abbrev TerminalPool := Pool Op Res Terminal Unit

def boot : TerminalPool := ⟨.new, []⟩

theorem settled_boot : Settled boot.shared where
  settled _ _ _ h := by cases h
  asking _ h := by cases h
  holder _ h := by cases h
  forked _ h := by cases h
  unforked _ := rfl
  given _ h := by cases h
  viewerSet := rfl

/-- In every run in which no viewer forks the session with a size of its own and every request
of a controller comes while no other is being carried out, the terminal has the size that a
controller requested last once all nudges have finished, and no size ever came from a viewer. -/
theorem size_is_last_requested {tr : List (Label Op Res Empty Request)} {pool : TerminalPool}
    (hrun : Path terminal undisturbed boot tr pool) :
    (pool.shared.nudges = [] → ∀ z, pool.shared.requested = some z → pool.shared.size = some z) ∧
      pool.shared.viewerSet = false := by
  have hsettled : Settled pool.shared :=
    (sizeOutline.sound_idle (R := fun (tid : Nat) (s : Terminal) => tid ∉ s.asking)
      (fun _ _ _ h => h) (fun _ _ _ hrely h hin => h (hrely.asking.mp hin))
      (fun q s p tid _ hfresh _ hp => by
        cases hp
        exact handle_safe hfresh)
      ⟨settled_boot, nofun⟩ nofun hrun).1.1
  refine ⟨fun hnudges => hsettled.settled ?_ ?_, hsettled.viewerSet⟩
  · refine eq_none_iff_forall_ne_some.mpr fun t ht => ?_
    have hmem := hsettled.holder t ht
    rw [hnudges] at hmem
    cases hmem
  · refine eq_nil_iff_forall_not_mem.mpr fun t ht => ?_
    have hmem := hsettled.asking t ht
    rw [hnudges] at hmem
    cases hmem

/-! ## A resize that is lost -/

/-- A controller forks the session, a second client views it, and its nudge shrinks the
terminal. -/
def shrunkForViewer : List (Label Op Res Empty Request) :=
  [.spawn (.attach .controller ⟨24, 80⟩ true),
    .thread 0 .get false,
    .thread 0 (.create (some .controller) ⟨24, 80⟩) true,
    .thread 0 (.attach .controller ⟨24, 80⟩ false) (),
    .spawn (.attach .viewer ⟨50, 200⟩ true),
    .thread 1 .get true,
    .thread 1 (.attach .viewer ⟨50, 200⟩ true) (),
    .thread 1 .lockNudge (),
    .thread 1 .size (⟨24, 80⟩ : Size),
    .thread 1 (.nudgeTo none ⟨24, 79⟩) ()]

/-- The end of the nudge. -/
def restored : List (Label Op Res Empty Request) :=
  [.thread 1 (.nudgeTo none ⟨24, 80⟩) (), .thread 1 .unlockNudge ()]

/-- The controller resizes its terminal. -/
def resized : List (Label Op Res Empty Request) :=
  [.spawn (.resize .controller ⟨30, 100⟩), .thread 2 (.resize .controller ⟨30, 100⟩) ()]

/-- The resize comes while the nudge sleeps. -/
def resizeLost : TerminalPool :=
  final terminal anyStep boot (shrunkForViewer ++ resized ++ restored)

/-- A viewer is the first to attach. -/
def forkedByViewer : TerminalPool :=
  final terminal anyStep boot
    [.spawn (.attach .viewer ⟨50, 200⟩ true),
      .thread 0 .get false,
      .thread 0 (.create (some .viewer) ⟨50, 200⟩) true]

theorem size_of_others :
    (∃ tr, Path terminal anyStep boot tr resizeLost ∧
      resizeLost.shared.nudges = [] ∧ resizeLost.shared.requested = some ⟨30, 100⟩ ∧
      resizeLost.shared.size = some ⟨24, 80⟩) ∧
    ∃ tr, Path terminal anyStep boot tr forkedByViewer ∧
      forkedByViewer.shared.size = some ⟨50, 200⟩ ∧ forkedByViewer.shared.viewerSet = true :=
  ⟨⟨_, final_path (by decide +kernel), by decide +kernel, by decide +kernel,
    by decide +kernel⟩, ⟨_, final_path (by decide +kernel), by decide +kernel,
    by decide +kernel⟩⟩

/-- The resize comes after the nudge. -/
def resizeKept : TerminalPool :=
  final terminal undisturbed boot (shrunkForViewer ++ restored ++ resized)

theorem size_is_last_requested_resize :
    resizeKept.shared.size = some ⟨30, 100⟩ ∧ resizeKept.shared.viewerSet = false := by
  have hrun : Path terminal undisturbed boot _ resizeKept :=
    final_path (by decide +kernel)
  obtain ⟨hsize, hviewer⟩ := size_is_last_requested hrun
  exact ⟨hsize (by decide +kernel) _ (by decide +kernel), hviewer⟩

end Lemul.PtySession.Nudge
