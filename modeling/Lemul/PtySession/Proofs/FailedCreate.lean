import Lemul.PtySession.Proofs.Registry

/-!
# What a failed `Create` leaves behind

`Create` checks for the id, forks outside the mutex and checks again (`manager.go:50-76`). The
caller that loses the second check only kills its child: it neither waits for it nor closes the
PTY, which is the work of `finish` (`session.go:186-214`), and no goroutine that would get there
was started.
-/

namespace Lemul.PtySession.Manager

open Function Option

/-- Of a call that has failed, once a child of it has ended, nothing is left: the PTY is closed,
somebody has waited for the child, and no goroutine is under way. -/
def LeavesNothing (s : State) : Prop :=
  ∀ c spec err, s.calls[c]? = some ⟨spec, .returned (.error err)⟩ →
    ∀ (n : Nat) (f : Forked), s.forked[n]? = some f → f.call = c → f.child ≠ .running →
      f.ptmxOpen = false ∧ (∃ code, f.child = .reaped code) ∧
        (f.reader = .unborn ∨ f.reader = .done)

/-- The call has passed its first check and not made the second. -/
def CreatePc.forking : CreatePc → Bool
  | .fork | .register _ => true
  | _ => false

/-- A first check passes only while no call for the same id is between its two checks. -/
def uncontended (s : State) : Label → Bool
  | .check c =>
      match s.calls[c]? with
      | some call =>
          (s.sessions call.spec.id).isSome ||
            s.calls.all fun other => !(other.spec.id == call.spec.id && other.pc.forking)
      | none => true
  | _ => true

/-- The manager, as long as no two calls for one id fork at a time. -/
def uncontendedManager (onExit : Bool) : Lts State Label :=
  (manager onExit).restrict fun s l => uncontended s l = true

/-- A call between its two checks is the only one for its id, and finds the id free. -/
structure Solo (s : State) : Prop where
  registry : Registry s
  only {c d : Nat} {call other : Call} (hcall : s.calls[c]? = some call)
    (hother : s.calls[d]? = some other) (hforking : call.pc.forking) (hforking' : other.pc.forking)
    (hid : call.spec.id = other.spec.id) : c = d
  free {c : Nat} {call : Call} (hcall : s.calls[c]? = some call) (hforking : call.pc.forking) :
    s.sessions call.spec.id = none
  unbeaten {c n : Nat} {spec : Spec} : s.calls[c]? ≠ some ⟨spec, .kill n⟩
  kept {n : Nat} {f : Forked} {spec : Spec} (hforked : s.forked[n]? = some f) :
    s.calls[f.call]? ≠ some ⟨spec, .returned (.error .errExists)⟩

section Steps

variable {onExit : Bool} {s s' : State} {l : Label}

/-- A call that is between its checks was there already, unless this step is its first check. -/
theorem forking_before {c : Nat} {spec : Spec} {pc' : CreatePc}
    (hstep : (manager onExit).step s l = some s') (hcall : s'.calls[c]? = some ⟨spec, pc'⟩)
    (hforking : pc'.forking) :
    ∃ pc, s.calls[c]? = some ⟨spec, pc⟩ ∧ Proceeds s c spec pc l pc' ∧
      (pc.forking ∨ l = .check c ∧ pc = .check ∧ s.sessions spec.id = none) := by
  rcases call_or_created hstep hcall with ⟨pc, hbefore, hproceeds⟩ | rfl
  · refine ⟨pc, hbefore, hproceeds, ?_⟩
    cases hproceeds with
    | same => exact .inl hforking
    | absent habsent => exact .inr ⟨rfl, rfl, habsent⟩
    | forks => exact .inl rfl
    | found | forkFails | loses | registers | kill | start => cases hforking
  · cases hforking

/-- Where a first check passes, nobody else for the id is between the checks. -/
theorem not_forking_of_uncontended {c d : Nat} {call other : Call}
    (h : uncontended s (.check c) = true) (hcall : s.calls[c]? = some call)
    (habsent : s.sessions call.spec.id = none) (hother : s.calls[d]? = some other)
    (hid : other.spec.id = call.spec.id) : other.pc.forking = false := by
  simp only [uncontended, hcall, habsent, isSome_none, Bool.false_or, List.all_eq_true] at h
  have hall := h other (List.mem_of_getElem? hother)
  simpa [hid] using hall

theorem Solo.only_step (h : Solo s) (hcond : uncontended s l = true)
    (hstep : (manager onExit).step s l = some s') {c d : Nat} {call other : Call}
    (hcall : s'.calls[c]? = some call) (hother : s'.calls[d]? = some other)
    (hforking : call.pc.forking) (hforking' : other.pc.forking)
    (hid : call.spec.id = other.spec.id) : c = d := by
  obtain ⟨spec, pc'⟩ := call
  obtain ⟨spec₁, pc₁'⟩ := other
  obtain ⟨pc, hbefore, -, hwas⟩ := forking_before hstep hcall hforking
  obtain ⟨pc₁, hbefore₁, -, hwas₁⟩ := forking_before hstep hother hforking'
  rcases hwas with hwas | ⟨rfl, rfl, habsent⟩
  · rcases hwas₁ with hwas₁ | ⟨rfl, rfl, habsent⟩
    · exact h.only hbefore hbefore₁ hwas hwas₁ hid
    · have hnot := not_forking_of_uncontended hcond hbefore₁ habsent hbefore hid
      cases hwas.symm.trans hnot
  · rcases hwas₁ with hwas₁ | ⟨hl, -, -⟩
    · have hnot := not_forking_of_uncontended hcond hbefore habsent hbefore₁ hid.symm
      cases hwas₁.symm.trans hnot
    · cases hl
      rfl

/-- An id becomes taken only by the call that registers a session. -/
theorem sessions_none_step {id : GoString} (hstep : (manager onExit).step s l = some s')
    (hnone : s.sessions id = none)
    (hother : ∀ c spec n, l = .register c → s.calls[c]? = some ⟨spec, .register n⟩ →
      spec.id ≠ id) : s'.sessions id = none := by
  cases step_rule hstep with
  | @registers c n spec hcall =>
    exact (update_of_ne (Ne.symm (hother c spec n rfl hcall)) _ _).trans hnone
  | @reap n f =>
    by_cases hid : id = f.spec.id
    · rw [hid]
      exact update_self _ _ _
    · exact (update_of_ne hid _ _).trans hnone
  | _ => exact hnone

theorem Solo.free_step (h : Solo s) (hstep : (manager onExit).step s l = some s') {c : Nat}
    {call : Call} (hcall : s'.calls[c]? = some call) (hforking : call.pc.forking) :
    s'.sessions call.spec.id = none := by
  obtain ⟨spec, pc'⟩ := call
  obtain ⟨pc, hbefore, hproceeds, hwas⟩ := forking_before hstep hcall hforking
  rcases hwas with hwas | ⟨rfl, rfl, habsent⟩
  · have hnone : s.sessions spec.id = none := h.free hbefore hwas
    refine sessions_none_step hstep hnone ?_
    rintro d spec₁ n rfl hd hid
    -- the call that registers is this one, which is then past its second check
    obtain rfl := h.only hd hbefore rfl hwas hid
    cases hbefore.symm.trans hd
    cases hproceeds with
    | same hother => exact hother rfl
    | loses | registers => cases hforking
  · exact sessions_none_step hstep habsent nofun

theorem Solo.unbeaten_step (h : Solo s) (hstep : (manager onExit).step s l = some s')
    {c n : Nat} {spec : Spec} : s'.calls[c]? ≠ some ⟨spec, .kill n⟩ := by
  intro hcall
  rcases call_or_created hstep hcall with ⟨pc, hbefore, hproceeds⟩ | hpc
  · cases hproceeds with
    | same => exact h.unbeaten hbefore
    | @loses _ m hfound =>
      have hnone : s.sessions spec.id = none := h.free hbefore rfl
      cases hnone.symm.trans hfound
  · cases hpc

theorem Solo.kept_step (h : Solo s) (hstep : (manager onExit).step s l = some s') {n : Nat}
    {f : Forked} {spec : Spec} (hforked : s'.forked[n]? = some f) :
    s'.calls[f.call]? ≠ some ⟨spec, .returned (.error .errExists)⟩ := by
  intro hcall
  rcases call_or_created hstep hcall with ⟨pc, hbefore, hproceeds⟩ | hpc
  · rcases h.registry.goes_or_newborn hstep hforked with ⟨g, hg, hgoes⟩ | ⟨-, ⟨e, rfl⟩, -⟩
    · rw [hgoes.kept.2] at hbefore hproceeds
      cases hproceeds with
      | same => exact h.kept hg hbefore
      | found => cases (h.registry.phase hg hbefore).2
      | kill => exact h.unbeaten hbefore
    · cases hproceeds with
      | same hother => exact hother rfl
  · cases hpc

theorem Solo.step (h : Solo s) (hstep : (uncontendedManager onExit).step s l = some s') :
    Solo s' := by
  obtain ⟨hcond, hstep⟩ := Lts.restrict_step hstep
  exact ⟨h.registry.step hstep, h.only_step hcond hstep, h.free_step hstep,
    h.unbeaten_step hstep, h.kept_step hstep⟩

end Steps

theorem solo_new : Solo newManager where
  registry := registry_new
  only := nofun
  free := nofun
  unbeaten := nofun
  kept := nofun

/-- In every run in which a first check passes only while no other call for the id is between
its two checks, a call that fails leaves nothing behind. -/
theorem failed_create_leaves_nothing {onExit : Bool} {tr : List Label} {s : State}
    (hrun : (uncontendedManager onExit).Run newManager tr s) : LeavesNothing s := by
  have hsolo : Solo s := hrun.invariant (fun _ _ _ h hstep => h.step hstep) solo_new
  rintro c spec err hcall n f hforked rfl hended
  -- no session is left to a call that failed
  cases (hsolo.registry.phase hforked hcall).2 with
  | lost => exact absurd hcall (hsolo.kept hforked)

/-- One call finds the session that another has put in the map, and a third cannot fork. -/
def oneByOne : List Label :=
  [.create ⟨[97], [[98]], [], 0, 0, [], none⟩, .check 0, .fork 0 none, .register 0,
    .create ⟨[97], [[98]], [], 0, 0, [], none⟩, .check 1,
    .create ⟨[99], [], [], 0, 0, [], none⟩, .check 2, .fork 2 none]

theorem failed_create_leaves_nothing_refused : ∃ s spec spec₁ err,
    (uncontendedManager true).Run newManager oneByOne s ∧
      s.calls[1]? = some ⟨spec, .returned (.error .errExists)⟩ ∧
      s.calls[2]? = some ⟨spec₁, .returned (.error (.fork err))⟩ ∧ LeavesNothing s := by
  have hexec : ((uncontendedManager true).exec newManager oneByOne).isSome := by decide +kernel
  have hrun := Lts.exec_run (some_get hexec).symm
  exact ⟨_, _, _, _, hrun, rfl, rfl, failed_create_leaves_nothing hrun⟩

/-- What the caller that lost the second check has forked, once the child has ended. -/
structure Abandoned (n : Nat) (f : Forked) (s : State) : Prop where
  registry : Registry s
  forked : s.forked[n]? = some f
  failed : ∃ spec, s.calls[f.call]? = some ⟨spec, .returned (.error .errExists)⟩
  zombie : ∃ code, f.child = .exited code

/-- Nobody comes back to it. -/
theorem Abandoned.step {onExit : Bool} {n : Nat} {f : Forked} {s s' : State} {l : Label}
    (h : Abandoned n f s) (hstep : (manager onExit).step s l = some s') : Abandoned n f s' := by
  obtain ⟨spec, hcall⟩ := h.failed
  obtain ⟨code, hzombie⟩ := h.zombie
  obtain ⟨pc', hcall', hproceeds⟩ := step_proceeds hcall hstep
  obtain ⟨f', hforked', hgoes⟩ := h.registry.goes h.forked hstep
  have hunborn : f.reader = .unborn := by
    cases (h.registry.phase h.forked hcall).2 with
    | lost hunborn => exact hunborn
  have hsame : f' = f := by
    cases hgoes with
    | same => rfl
    | start hstart =>
      rw [h.registry.call_eq h.forked hstart rfl, hstart] at hcall
      cases hcall
    | exits hrunning => simp [hzombie] at hrunning
    | readFails hreader | wait hreader | close hreader | reap hreader | onExit hreader =>
      simp [hunborn] at hreader
  subst hsame
  cases hproceeds with
  | same => exact ⟨h.registry.step hstep, hforked', ⟨spec, hcall'⟩, code, hzombie⟩

/-- Two calls for one id fork before either of them has registered its session. The one that
registers second kills its child. -/
def bothFork : List Label :=
  [.create ⟨[97], [[98]], [], 0, 0, [], none⟩, .create ⟨[97], [[98]], [], 0, 0, [], none⟩,
    .check 0, .check 1, .fork 0 none, .fork 1 none, .register 0, .start 0, .register 1, .kill 1,
    .exits 1 (-1)]

/-- After that its child stays a zombie, whatever happens. -/
theorem losing_create_leaks : ∃ s, (manager true).Run newManager bothFork s ∧
    ∀ tr' s', (manager true).Run s tr' s' → ¬LeavesNothing s' := by
  have hexec : ((manager true).exec newManager bothFork).isSome := by decide +kernel
  have hrun := Lts.exec_run (some_get hexec).symm
  refine ⟨_, hrun, fun tr' s' hrun' hnothing => ?_⟩
  have hstart : Abandoned 1 _ _ := ⟨registry_run hrun, rfl, ⟨_, rfl⟩, -1, rfl⟩
  have hlast := hrun'.invariant (fun _ _ _ h hstep => h.step hstep) hstart
  obtain ⟨spec, hcall⟩ := hlast.failed
  obtain ⟨-, ⟨code, hreaped⟩, -⟩ := hnothing 1 spec _ hcall 1 _ hlast.forked rfl nofun
  cases hreaped

end Lemul.PtySession.Manager
