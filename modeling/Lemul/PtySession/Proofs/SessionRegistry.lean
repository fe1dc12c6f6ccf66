import Lemul.PtySession.Proofs.Registry

/-!
# What callers of the manager can rely on

What a call of `Create` answers is true of some moment between its beginning and its return
(`manager.go:50-76`). A session leaves the map when it has ended itself (`manager.go:78-85`), and
its end is told once (`session.go:186-214`), but not before `Read` on its terminal has failed
(`session.go:162-184`): as long as a process that the child has left behind keeps the terminal
open, it is not told at all.
-/

namespace Lemul.PtySession.Manager

open Function Option

/-- Call `c` for `spec` has begun and not returned. -/
def UnderWay (s : State) (c : Nat) (spec : Spec) : Prop :=
  ∃ pc, s.calls[c]? = some ⟨spec, pc⟩ ∧ ∀ r, pc ≠ .returned r

/-- While call `c` is under way, a session of another call is in the map under its id. -/
def Taken (c : Nat) (spec : Spec) (s : State) : Prop :=
  UnderWay s c spec ∧ ∃ m g, s.sessions spec.id = some m ∧ s.forked[m]? = some g ∧ g.call ≠ c

/-- While call `c` is under way, session `n` is in the map under its id. -/
def Entered (c : Nat) (spec : Spec) (n : Nat) (s : State) : Prop :=
  UnderWay s c spec ∧ s.sessions spec.id = some n

section Calls

variable {s s' : State} {l : Label} {tr : List Label} {c n : Nat} {spec : Spec} {pc : CreatePc}

/-- A session in the map was put there by a call that is past that point. -/
theorem Registry.taken (h : Registry s) (hcall : s.calls[c]? = some ⟨spec, pc⟩)
    (hin : s.sessions spec.id = some n) (hrun : ∀ r, pc ≠ .returned r)
    (hstart : ∀ m, pc ≠ .start m) : Taken c spec s := by
  obtain ⟨f, hforked, hid⟩ := h.named hin
  refine ⟨⟨pc, hcall, hrun⟩, n, f, hin, hforked, ?_⟩
  rintro rfl
  have hin : s.sessions f.spec.id = some n := by rw [hid]; exact hin
  cases (h.phase hforked hcall).2 with
  | register _ hout | kill _ hout => exact hout hin
  | lost | serving | gone => exact hrun _ rfl
  | start => exact hstart n rfl

/-- What has been the case at some moment when a call is at `pc`. -/
def Told (tr : List Label) (s : State) (c : Nat) (spec : Spec) : CreatePc → Prop
  | .kill _ | .returned (.error .errExists) =>
      (manager true).Sometime newManager tr s (Taken c spec)
  | .start n | .returned (.ok n) =>
      (manager true).Sometime newManager tr s (Entered c spec n)
  | _ => True

theorem Told.snoc (h : Told tr s c spec pc) (hstep : (manager true).step s l = some s') :
    Told (tr ++ [l]) s' c spec pc := by
  match pc, h with
  | .kill _, h => exact Lts.Sometime.snoc h hstep
  | .returned (.error .errExists), h => exact Lts.Sometime.snoc h hstep
  | .start _, h => exact Lts.Sometime.snoc h hstep
  | .returned (.ok _), h => exact Lts.Sometime.snoc h hstep
  | .check, _ => trivial
  | .fork, _ => trivial
  | .register _, _ => trivial
  | .returned (.error (.fork _)), _ => trivial

theorem sessions_register {onExit : Bool} (hcall : s.calls[c]? = some ⟨spec, .register n⟩)
    (habsent : s.sessions spec.id = none)
    (hstep : (manager onExit).step s (.register c) = some s') : s'.sessions spec.id = some n := by
  simp only [manager, Manager.step, hcall, habsent, Option.some.injEq] at hstep
  rw [← hstep]
  exact update_self _ _ _

theorem told_run (hrun : (manager true).Run newManager tr s)
    (hcall : s.calls[c]? = some ⟨spec, pc⟩) : Told tr s c spec pc := by
  induction hrun generalizing pc with
  | nil => cases hcall
  | @snoc tr mid last l before hstep ih =>
    have hregistry := registry_run before
    rcases call_or_created hstep hcall with ⟨pc₀, hbefore, hproceeds⟩ | rfl
    · cases hproceeds with
      | same | kill | start => exact (ih hbefore).snoc hstep
      | found hfound | loses hfound =>
        exact (Lts.Sometime.now before (hregistry.taken hbefore hfound nofun nofun)).snoc hstep
      | @registers n habsent =>
        refine Lts.Sometime.now (.snoc before hstep) ⟨⟨.start n, hcall, nofun⟩, ?_⟩
        exact sessions_register hbefore habsent hstep
      | absent | forkFails | forks => trivial
    · trivial

/-- How many steps a call has left at most. -/
def CreatePc.left : CreatePc → Nat
  | .check => 4
  | .fork => 3
  | .register _ => 2
  | .kill _ | .start _ => 1
  | .returned _ => 0

def State.leftOf (s : State) (c : Nat) : Nat :=
  (s.calls[c]?.map fun call => call.pc.left).getD 0

theorem Proceeds.left_le {pc' : CreatePc} (h : Proceeds s c spec pc l pc') :
    pc'.left ≤ pc.left := by
  cases h <;> simp [CreatePc.left]

theorem Proceeds.left_lt {pc' : CreatePc} (h : Proceeds s c spec pc l pc') (hown : l.OfCall c) :
    pc'.left < pc.left := by
  cases h with
  | same hother => exact absurd hown hother
  | _ => simp [CreatePc.left]

theorem leftOf_eq (hcall : s.calls[c]? = some ⟨spec, pc⟩) : s.leftOf c = pc.left := by
  simp [State.leftOf, hcall]

/-- A call that has not returned can always go on. -/
theorem Registry.can_proceed (h : Registry s) (hcall : s.calls[c]? = some ⟨spec, pc⟩)
    (hleft : pc.left ≠ 0) : ∃ l s', l.OfCall c ∧ (manager true).step s l = some s' := by
  have hcan : ∃ l, l.OfCall c ∧ ((manager true).step s l).isSome := by
    cases pc with
    | check =>
      refine ⟨.check c, rfl, ?_⟩
      simp only [manager, Manager.step, hcall]
      split <;> rfl
    | fork =>
      refine ⟨.fork c none, rfl, ?_⟩
      simp only [manager, Manager.step, hcall]
      split <;> rfl
    | register n =>
      refine ⟨.register c, rfl, ?_⟩
      simp only [manager, Manager.step, hcall]
      split <;> rfl
    | kill n =>
      refine ⟨.kill c, rfl, ?_⟩
      simp only [manager, Manager.step, hcall]
      rfl
    | start n =>
      obtain ⟨f, hforked, -⟩ := h.forkedBy hcall rfl
      refine ⟨.start c, rfl, ?_⟩
      simp only [manager, Manager.step, hcall, hforked]
      rfl
    | returned r => exact absurd rfl hleft
  obtain ⟨l, hl, hsome⟩ := hcan
  obtain ⟨s', hstep⟩ := isSome_iff_exists.mp hsome
  exact ⟨l, s', hl, hstep⟩

/-- A call that is not put off for ever returns. -/
theorem Registry.create_returns (h : Registry s) (hcall : s.calls[c]? = some ⟨spec, pc⟩)
    (e : (manager true).Endless s) (hfair : e.FairTo (Label.OfCall c)) :
    ∃ j r, (e.state j).calls[c]? = some ⟨spec, .returned r⟩ := by
  let I (s : State) : Prop := Registry s ∧ ∃ pc, s.calls[c]? = some ⟨spec, pc⟩
  have hI : ∀ s l s', I s → (manager true).step s l = some s' → I s' := by
    rintro s l s' ⟨hregistry, pc, hcall⟩ hstep
    obtain ⟨pc', hcall', -⟩ := step_proceeds hcall hstep
    exact ⟨hregistry.step hstep, pc', hcall'⟩
  have hstart : I (e.state 0) := by
    rw [e.start]
    exact ⟨h, pc, hcall⟩
  have hreach : ∃ j, 0 ≤ j ∧ (e.state j).leftOf c = 0 := by
    refine e.reaches_zero (State.leftOf · c) hfair (fun j hj => e.invariant hI hj hstart) ?_ ?_ ?_
    · rintro s l s' ⟨-, pc, hcall⟩ hstep
      obtain ⟨pc', hcall', hproceeds⟩ := step_proceeds hcall hstep
      simpa only [leftOf_eq hcall, leftOf_eq hcall'] using hproceeds.left_le
    · rintro s l s' ⟨-, pc, hcall⟩ - hown hstep
      obtain ⟨pc', hcall', hproceeds⟩ := step_proceeds hcall hstep
      simpa only [leftOf_eq hcall, leftOf_eq hcall'] using hproceeds.left_lt hown
    · rintro s ⟨hregistry, pc, hcall⟩ hleft
      exact hregistry.can_proceed hcall (by rwa [leftOf_eq hcall] at hleft)
  obtain ⟨j, -, hzero⟩ := hreach
  obtain ⟨-, pc', hcall'⟩ := e.invariant hI (Nat.zero_le j) hstart
  have hleft : pc'.left = 0 := (leftOf_eq hcall').symm.trans hzero
  cases pc' with
  | returned r => exact ⟨j, r, hcall'⟩
  | _ => cases hleft

end Calls

section Sessions

variable {s s' : State} {l : Label} {tr : List Label} {n : Nat} {id : GoString} {f : Forked}

/-- Only a session's own goroutine takes it out of the map, when its child is gone. -/
theorem Registry.removed (h : Registry s) (hstep : (manager true).step s l = some s')
    (hin : s.sessions id = some n) (hout : s'.sessions id ≠ some n) :
    l = .reap n ∧ ∃ f, s.forked[n]? = some f ∧ f.spec.id = id ∧ f.reader = .reaping := by
  cases step_rule hstep with
  | @registers c m spec hcall habsent =>
    by_cases hid : id = spec.id
    · rw [hid, habsent] at hin
      cases hin
    · exact absurd ((update_of_ne hid _ _).trans hin) hout
  | @reap m f hforked hreader =>
    by_cases hid : id = f.spec.id
    · have hentry := h.entry_of_reaping hforked hreader
      rw [← hid, hin] at hentry
      cases hentry
      exact ⟨rfl, f, hforked, hid.symm, hreader⟩
    · exact absurd ((update_of_ne hid _ _).trans hin) hout
  | _ => exact absurd hin hout

/-- How many steps a session has left at most. -/
def Reader.left : Reader → Nat
  | .unborn => 6
  | .reading => 5
  | .waiting => 4
  | .closing => 3
  | .reaping => 2
  | .calling => 1
  | .done => 0

def State.sessionLeft (s : State) (n : Nat) : Nat :=
  (s.forked[n]?.map fun f => f.reader.left).getD 0

theorem sessionLeft_eq (hforked : s.forked[n]? = some f) : s.sessionLeft n = f.reader.left := by
  simp [State.sessionLeft, hforked]

/-- The steps of the session's own goroutine and of the call that starts it. -/
def Label.OfSession (n c : Nat) (l : Label) : Prop := l.Moves n c ∧ l ≠ .readFails n

/-- What is assumed of the kernel: `Read` fails when no process has the terminal open. -/
def KernelReports (e : (manager true).Endless s) (n : Nat) : Prop := e.FairTo (· = .readFails n)

/-- No process other than its child keeps the terminal of session `n` open. -/
def LetGo (e : (manager true).Endless s) (n : Nat) : Prop :=
  ∃ k, ∀ j, k ≤ j → (e.state j).held n = false

/-- The code with which a child has ended. -/
def Child.code : Child → Option Int
  | .running => none
  | .exited code | .reaped code => some code

namespace Goes

variable {f' : Forked}

theorem left_le (h : Goes s n f l f') : f'.reader.left ≤ f.reader.left := by
  cases h <;> simp [Reader.left, *]

theorem left_lt (h : Goes s n f l f') (hmoves : l.Moves n f.call) :
    f'.reader.left < f.reader.left := by
  cases h with
  | same hother => exact absurd hmoves hother
  | exits => cases hmoves
  | _ => simp [Reader.left, *]

/-- The code of a child that has ended stays. -/
theorem code_kept {code : Int} (h : Goes s n f l f') (hcode : f.child.code = some code) :
    f'.child.code = some code := by
  cases h with
  | exits hrunning =>
    rw [hrunning] at hcode
    cases hcode
  | wait hreader hexited =>
    rw [hexited] at hcode
    exact hcode
  | _ => exact hcode

end Goes

/-- Call `c` has put session `n` in the map. -/
def Joined (s : State) (n c : Nat) : Prop :=
  ∃ spec pc, s.calls[c]? = some ⟨spec, pc⟩ ∧ (pc = .start n ∨ pc = .returned (.ok n))

theorem Joined.step {c : Nat} (h : Joined s n c) (hstep : (manager true).step s l = some s') :
    Joined s' n c := by
  obtain ⟨spec, pc, hcall, hpc⟩ := h
  obtain ⟨pc', hcall', hproceeds⟩ := step_proceeds hcall hstep
  refine ⟨spec, pc', hcall', ?_⟩
  rcases hpc with rfl | rfl
  · cases hproceeds with
    | same => exact .inl rfl
    | start => exact .inr rfl
  · cases hproceeds with
    | same => exact .inr rfl

theorem Registry.joined (h : Registry s) (hforked : s.forked[n]? = some f)
    (hin : s.sessions f.spec.id = some n) : Joined s n f.call := by
  obtain ⟨⟨spec, pc⟩, hcall, hid, hphase⟩ := h.stands hforked
  refine ⟨spec, pc, hcall, ?_⟩
  cases hphase with
  | start => exact .inl rfl
  | serving | gone => exact .inr rfl
  | register _ hout | kill _ hout | lost _ hout => exact absurd hin hout

/-- A session that was in the map at some moment of a run. -/
theorem joined_of_sometime (hforked : s.forked[n]? = some f)
    (h : (manager true).Sometime newManager tr s fun mid => mid.sessions id = some n) :
    Joined s n f.call := by
  obtain ⟨before, after, mid, -, hbefore, hafter, hin⟩ := h
  have hregistry := registry_run hbefore
  obtain ⟨g, hg, rfl⟩ := hregistry.named hin
  let I (s : State) : Prop := Registry s ∧ Joined s n g.call ∧
    ∃ f, s.forked[n]? = some f ∧ f.call = g.call
  have hlast : I s := by
    refine hafter.invariant (I := I) ?_ ⟨hregistry, hregistry.joined hg hin, g, hg, rfl⟩
    rintro s l s' ⟨hregistry, hjoined, f, hforked, hby⟩ hstep
    obtain ⟨f', hforked', hgoes⟩ := hregistry.goes hforked hstep
    exact ⟨hregistry.step hstep, hjoined.step hstep, f', hforked', hgoes.kept.2.trans hby⟩
  obtain ⟨-, hjoined, f', hforked', hby⟩ := hlast
  cases hforked.symm.trans hforked'
  rw [hby]
  exact hjoined

/-- A session that was in the map and whose child has ended with `code`. -/
structure Ending (n c : Nat) (id : GoString) (code : Int) (s : State) : Prop where
  registry : Registry s
  notified : Notified s
  joined : Joined s n c
  session : ∃ f, s.forked[n]? = some f ∧ f.Ended ∧ f.call = c ∧ f.spec.id = id ∧
    f.child.code = some code

namespace Ending

variable {c : Nat} {code : Int}

theorem step (h : Ending n c id code s) (hstep : (manager true).step s l = some s') :
    Ending n c id code s' := by
  obtain ⟨f, hforked, hended, hby, hid, hcode⟩ := h.session
  obtain ⟨f', hforked', hgoes⟩ := h.registry.goes hforked hstep
  refine ⟨h.registry.step hstep, h.notified.step h.registry hstep, h.joined.step hstep, f',
    hforked', hgoes.ended hended, hgoes.kept.2.trans hby, ?_, hgoes.code_kept hcode⟩
  rw [hgoes.kept.1, hid]

/-- It goes on to the end, except that it waits for `Read` to fail. -/
theorem can_go (h : Ending n c id code s) (hleft : s.sessionLeft n ≠ 0)
    (hread : s.sessionLeft n ≠ 5) :
    ∃ l s', l.OfSession n c ∧ (manager true).step s l = some s' := by
  obtain ⟨f, hforked, hended, rfl, hid, hcode⟩ := h.session
  rw [sessionLeft_eq hforked] at hleft hread
  unfold Forked.Ended at hended
  have hcan : ∃ l : Label, l.OfSession n f.call ∧ ((manager true).step s l).isSome := by
    cases hreader : f.reader with
    | unborn =>
      obtain ⟨spec, pc, hcall, rfl | rfl⟩ := h.joined
      · refine ⟨.start f.call, ⟨rfl, by simp⟩, ?_⟩
        simp [manager, Manager.step, hcall, hforked]
      · cases (h.registry.phase hforked hcall).2 with
        | serving hserving => simp [hreader, Reader.Serving] at hserving
        | gone hgone => simp [hreader] at hgone
    | reading =>
      rw [hreader] at hread
      exact absurd rfl hread
    | waiting =>
      refine ⟨.wait n, ⟨rfl, by simp⟩, ?_⟩
      rw [hreader] at hended
      cases hchild : f.child with
      | running =>
        rw [hchild] at hcode
        cases hcode
      | exited => simp [manager, Manager.step, hforked, hreader, hchild]
      | reaped code => exact absurd hchild (hended.2 code)
    | closing =>
      refine ⟨.close n, ⟨rfl, by simp⟩, ?_⟩
      simp [manager, Manager.step, hforked, hreader]
    | reaping =>
      refine ⟨.reap n, ⟨rfl, by simp⟩, ?_⟩
      simp [manager, Manager.step, hforked, hreader]
    | calling =>
      refine ⟨.onExit n, ⟨rfl, by simp⟩, ?_⟩
      rw [hreader] at hended
      obtain ⟨-, code, hchild⟩ := hended
      simp [manager, Manager.step, hforked, hreader, hchild]
    | done =>
      rw [hreader] at hleft
      exact absurd rfl hleft
  obtain ⟨l, hl, hsome⟩ := hcan
  obtain ⟨s', hstep⟩ := isSome_iff_exists.mp hsome
  exact ⟨l, s', hl, hstep⟩

/-- `Read` can fail as soon as no process has the terminal open. -/
theorem can_fail (h : Ending n c id code s) (hread : s.sessionLeft n = 5)
    (hheld : s.held n = false) : ∃ s', (manager true).step s (.readFails n) = some s' := by
  obtain ⟨f, hforked, -⟩ := h.session
  rw [sessionLeft_eq hforked] at hread
  have hreader : f.reader = .reading := by
    cases hreader : f.reader <;> simp [hreader, Reader.left] at hread
    rfl
  simp [manager, Manager.step, hforked, hreader, hheld]

/-- It comes down to `b` steps, if from `k` on the steps in `own`, which are not put off for
ever, are possible until then. -/
theorem comes_down {own : Label → Prop} {k b : Nat} {e : (manager true).Endless s}
    (hall : ∀ j, k ≤ j → Ending n c id code (e.state j)) (hfair : e.FairTo own)
    (hmoves : ∀ l, own l → l.Moves n c)
    (hcan : ∀ j, k ≤ j → b < (e.state j).sessionLeft n →
      ∃ l s', own l ∧ (manager true).step (e.state j) l = some s') :
    ∃ j, k ≤ j ∧ (e.state j).sessionLeft n ≤ b := by
  let I (s : State) : Prop := Ending n c id code s ∧ (b < s.sessionLeft n →
    ∃ l s', own l ∧ (manager true).step s l = some s')
  have hgoes {s l s'} (hs : I s) (hstep : (manager true).step s l = some s') :
      s'.sessionLeft n ≤ s.sessionLeft n ∧ (own l → s'.sessionLeft n < s.sessionLeft n) := by
    obtain ⟨f, hforked, -, rfl, -⟩ := hs.1.session
    obtain ⟨f', hforked', hgoes⟩ := hs.1.registry.goes hforked hstep
    rw [sessionLeft_eq hforked, sessionLeft_eq hforked']
    exact ⟨hgoes.left_le, fun hown => hgoes.left_lt (hmoves l hown)⟩
  obtain ⟨j, hkj, hj⟩ := e.reaches_zero (I := I) (fun s => s.sessionLeft n - b) hfair
    (fun j hj => ⟨hall j hj, hcan j hj⟩)
    (fun s l s' hs hstep => Nat.sub_le_sub_right (hgoes hs hstep).1 b)
    (fun s l s' hs hleft hown hstep => by have := (hgoes hs hstep).2 hown; omega)
    (fun s hs hleft => hs.2 (by omega))
  exact ⟨j, hkj, by omega⟩

/-- A session that is not put off for ever tells its end, if no other process keeps its terminal
open. -/
theorem tells (h : Ending n c id code s) (e : (manager true).Endless s)
    (hfair : e.FairTo (Label.OfSession n c)) (hkernel : KernelReports e n) (hheld : LetGo e n) :
    ∃ j, (e.state j).callsOf n = [⟨n, id, code⟩] := by
  have hall (j : Nat) : Ending n c id code (e.state j) := by
    refine e.invariant (fun s l s' h hstep => h.step hstep) (Nat.zero_le j) ?_
    rw [e.start]
    exact h
  -- until it reads, until `Read` has failed, and to the end
  obtain ⟨k, hunheld⟩ := hheld
  obtain ⟨k₁, hk₁, hreads⟩ := comes_down (k := k) (b := 5) (fun j _ => hall j) hfair
    (fun l hl => hl.1) fun j _ hleft => (hall j).can_go (by omega) (by omega)
  have hkept {i j b : Nat} (hij : i ≤ j) (hi : (e.state i).sessionLeft n ≤ b) :
      (e.state j).sessionLeft n ≤ b := by
    induction hij with
    | refl => exact hi
    | @step j _ ih =>
      obtain ⟨f, hforked, -⟩ := (hall j).session
      obtain ⟨f', hforked', hgoes⟩ := (hall j).registry.goes hforked (e.next j)
      rw [sessionLeft_eq hforked] at ih
      rw [sessionLeft_eq hforked']
      exact hgoes.left_le.trans ih
  obtain ⟨k₂, hk₂, hwaits⟩ := comes_down (k := k₁) (b := 4) (fun j _ => hall j) hkernel
    (fun l hl => hl ▸ rfl) fun j hj hleft => by
      obtain ⟨s', hstep⟩ := (hall j).can_fail
        (Nat.le_antisymm (hkept hj hreads) hleft) (hunheld j (hk₁.trans hj))
      exact ⟨_, s', rfl, hstep⟩
  obtain ⟨j, -, hzero⟩ := comes_down (k := k₂) (b := 0) (fun j _ => hall j) hfair
    (fun l hl => hl.1) fun j hj hleft =>
      (hall j).can_go (by omega) (by have := hkept hj hwaits; omega)
  obtain ⟨f, hforked, hended, -, rfl, hcode⟩ := (hall j).session
  have hdone : f.reader = .done := by
    rw [sessionLeft_eq hforked] at hzero
    cases hreader : f.reader <;> simp [hreader, Reader.left] at hzero
    rfl
  simp only [Forked.Ended, hdone] at hended
  obtain ⟨-, code', hchild⟩ := hended
  rw [hchild] at hcode
  cases hcode
  refine ⟨j, ?_⟩
  rw [(hall j).notified.calls hforked, if_pos hdone, Forked.exitCall, hchild]

end Ending

end Sessions

/-- What `Create` answers when call `c` for `spec` returns `r`. -/
def Answered (tr : List Label) (s : State) (c : Nat) (spec : Spec) :
    Except CreateError Nat → Prop
  | .error .errExists => (manager true).Sometime newManager tr s (Taken c spec)
  | .error (.fork _) => ∀ (n : Nat) (f : Forked), s.forked[n]? = some f → f.call ≠ c
  | .ok n => (∃ f, s.forked[n]? = some f ∧ f.call = c) ∧
      (manager true).Sometime newManager tr s (Entered c spec n)

/-- Session `n`, which is `f`, tells its end once if it was in the map, and never otherwise. -/
structure ToldOnce (tr : List Label) (s : State) (n : Nat) (f : Forked) : Prop where
  once : (s.callsOf n).length ≤ 1
  only : s.callsOf n ≠ [] → f.child ≠ .running ∧
    (manager true).Sometime newManager tr s fun mid => mid.sessions f.spec.id = some n
  told : (manager true).Sometime newManager tr s (fun mid => mid.sessions f.spec.id = some n) →
    ∀ code, f.child.code = some code →
      ∀ e : (manager true).Endless s, e.FairTo (Label.OfSession n f.call) →
        KernelReports e n → LetGo e n →
          ∃ j, (e.state j).callsOf n = [⟨n, f.spec.id, code⟩]

section Runs

variable {s : State} {tr : List Label} {c n : Nat} {spec : Spec} {f : Forked}
  {r : Except CreateError Nat}

theorem answered_run (hrun : (manager true).Run newManager tr s)
    (hcall : s.calls[c]? = some ⟨spec, .returned r⟩) : Answered tr s c spec r := by
  have htold := told_run hrun hcall
  have hregistry := registry_run hrun
  match r, hcall, htold with
  | .error .errExists, _, htold => exact htold
  | .ok n, hcall, htold => exact ⟨hregistry.forkedBy hcall rfl, htold⟩
  | .error (.fork err), hcall, _ =>
    rintro n f hforked rfl
    cases (hregistry.phase hforked hcall).2

theorem toldOnce_run (hrun : (manager true).Run newManager tr s)
    (hforked : s.forked[n]? = some f) : ToldOnce tr s n f := by
  have hregistry := registry_run hrun
  have hnotified := notified_run hrun
  have hended := ended_run hrun hforked
  refine ⟨?_, fun hcalls => ?_, fun hin code hcode e hfair hkernel hheld => ?_⟩
  · rw [hnotified.calls hforked, Forked.exitCall]
    split
    · split <;> simp
    · simp
  · rw [hnotified.calls hforked] at hcalls
    have hdone : f.reader = .done := by
      by_contra hdone
      rw [if_neg hdone] at hcalls
      exact hcalls rfl
    refine ⟨?_, ?_⟩
    · simp only [Forked.Ended, hdone] at hended
      obtain ⟨-, code, hchild⟩ := hended
      simp [hchild]
    · obtain ⟨⟨spec, pc⟩, hcall, hid, hphase⟩ := hregistry.stands hforked
      obtain ⟨rfl, -⟩ := hphase.of_gone (.inr hdone)
      obtain ⟨before, after, mid, htr, hbefore, hafter, -, hin⟩ := told_run hrun hcall
      exact ⟨before, after, mid, htr, hbefore, hafter, hid ▸ hin⟩
  · have hending : Ending n f.call f.spec.id code s :=
      ⟨hregistry, hnotified, joined_of_sometime hforked hin, f, hforked, hended, rfl, rfl, hcode⟩
    exact hending.tells e hfair hkernel hheld

end Runs

/-- In every interleaving, an entry of the map is a session with its id, and only the end of that
very session removes it; `Create` answers `ErrExists` only when another session was in the map
while the call was under way, and otherwise, unless the fork failed, has put its own session
there and answers it, and it does return; a session that was in the map tells its end once, with
the code of its child, if no other process keeps its terminal open, and no other does. -/
theorem session_registry_consistent {tr : List Label} {s : State}
    (hrun : (manager true).Run newManager tr s) :
    (∀ id n, s.sessions id = some n → ∃ f, s.forked[n]? = some f ∧ f.spec.id = id) ∧
      (∀ l s' id n, (manager true).step s l = some s' → s.sessions id = some n →
        s'.sessions id ≠ some n → l = .reap n ∧
          ∃ f code, s.forked[n]? = some f ∧ f.spec.id = id ∧ f.child = .reaped code) ∧
      (∀ c spec r, s.calls[c]? = some ⟨spec, .returned r⟩ → Answered tr s c spec r) ∧
      (∀ c spec, UnderWay s c spec → ∀ e : (manager true).Endless s,
        e.FairTo (Label.OfCall c) → ∃ j r, (e.state j).calls[c]? = some ⟨spec, .returned r⟩) ∧
      (∀ n f, s.forked[n]? = some f → ToldOnce tr s n f) ∧
      ∀ x ∈ s.exitCalls, ∃ f, s.forked[x.session]? = some f := by
  have hregistry := registry_run hrun
  refine ⟨fun id n => hregistry.named, ?_, fun c spec r => answered_run hrun, ?_,
    fun n f => toldOnce_run hrun, fun x => (notified_run hrun).known⟩
  · intro l s' id n hstep hin hout
    obtain ⟨hl, f, hforked, hid, hreader⟩ := hregistry.removed hstep hin hout
    have hended := ended_run hrun hforked
    simp only [Forked.Ended, hreader] at hended
    obtain ⟨-, code, hchild⟩ := hended
    exact ⟨hl, f, code, hforked, hid, hchild⟩
  · rintro c spec ⟨pc, hcall, -⟩ e hfair
    exact hregistry.create_returns hcall e hfair

/-- A session, the call that is refused because of it, and the exit of its child. A process that
the child has started has the terminal open, and lets it go. -/
def refusedThenExits : List Label :=
  [.create ⟨[97], [[98]], [], 0, 0, [], none⟩, .check 0, .fork 0 none, .register 0, .start 0,
    .create ⟨[97], [[98]], [], 0, 0, [], none⟩, .check 1, .hold 0 true, .exits 0 5, .hold 0 false]

/-- The end of that session. -/
def ends : List Label := [.readFails 0, .wait 0, .close 0, .reap 0, .onExit 0]

/-- Nothing takes the session on. -/
theorem still {s : State} {n c : Nat} {f : Forked} {spec : Spec} {r : Except CreateError Nat}
    (hforked : s.forked[n]? = some f) (hcall : s.calls[c]? = some ⟨spec, .returned r⟩)
    (hreader : f.reader = .done ∨ f.reader = .reading ∧ s.held n = true) {l : Label}
    (hmoves : l.Moves n c) : (manager true).step s l = none := by
  cases l with
  | start i =>
    obtain rfl : i = c := hmoves
    simp [manager, Manager.step, hcall]
  | readFails m | wait m | close m | reap m | onExit m =>
    obtain rfl : m = n := hmoves
    rcases hreader with hreader | ⟨hreader, hheld⟩ <;>
      simp [manager, Manager.step, *]
  | _ => cases hmoves

def exitedState : State :=
  ((manager true).exec newManager refusedThenExits).get (by decide +kernel)

theorem session_registry_consistent_refused : ∃ spec,
    (manager true).Run newManager refusedThenExits exitedState ∧
      exitedState.calls[1]? = some ⟨spec, .returned (.error .errExists)⟩ ∧
      (manager true).Sometime newManager refusedThenExits exitedState (Taken 1 spec) ∧
      ∃ e : (manager true).Endless exitedState, ∃ j, (e.state j).callsOf 0 = [⟨0, [97], 5⟩] := by
  have hrun : (manager true).Run newManager refusedThenExits exitedState :=
    Lts.exec_run (some_get _).symm
  have hends : ((manager true).exec exitedState ends).isSome := by decide +kernel
  obtain ⟨e, he⟩ := Lts.Endless.of_loop (l := .get [97] none) (some_get hends).symm rfl
  have hfair {own : Label → Prop} (hown : ∀ l, own l → l.Moves 0 0) : e.FairTo own := by
    intro k
    refine ⟨k + 5, by omega, .inr fun l hl => ?_⟩
    rw [he _ (by simp [ends])]
    exact still rfl rfl (.inl rfl) (hown l hl)
  obtain ⟨-, -, hanswered, -, htold, -⟩ := session_registry_consistent hrun
  have hin : (manager true).Sometime newManager refusedThenExits exitedState
      fun mid => mid.sessions [97] = some 0 := .now hrun rfl
  refine ⟨_, hrun, rfl, hanswered 1 _ _ rfl, e, (htold 0 _ rfl).told hin 5 rfl e
    (hfair fun l hl => hl.1) (hfair fun l hl => hl ▸ rfl) ⟨5, fun j hj => ?_⟩⟩
  rw [he j hj]
  rfl

/-- A child starts a process that has the terminal open, and exits. -/
def leavesBehind : List Label :=
  [.create ⟨[97], [[98]], [], 0, 0, [], none⟩, .check 0, .fork 0 none, .register 0, .start 0,
    .hold 0 true, .exits 0 7]

def leftState : State := ((manager true).exec newManager leavesBehind).get (by decide +kernel)

/-- As long as that process runs, nobody is told that the child has exited. -/
theorem exit_not_told : (manager true).Run newManager leavesBehind leftState ∧
    leftState.sessions [97] = some 0 ∧
    (leftState.forked[0]?.map (·.child)) = some (.exited 7) ∧
    ∃ e : (manager true).Endless leftState, e.FairTo (Label.OfSession 0 0) ∧ KernelReports e 0 ∧
      ∀ j, (e.state j).callsOf 0 = [] := by
  have hrun : (manager true).Run newManager leavesBehind leftState :=
    Lts.exec_run (some_get _).symm
  have hnil : (manager true).exec leftState [] = some leftState := rfl
  obtain ⟨e, he⟩ := Lts.Endless.of_loop (l := .get [97] (some 0)) hnil rfl
  have hfair {own : Label → Prop} (hown : ∀ l, own l → l.Moves 0 0) : e.FairTo own := by
    intro k
    refine ⟨k, Nat.le_refl k, .inr fun l hl => ?_⟩
    rw [he k (Nat.zero_le k)]
    exact still rfl rfl (.inr ⟨rfl, rfl⟩) (hown l hl)
  refine ⟨hrun, rfl, rfl, e, hfair fun l hl => hl.1, hfair fun l hl => hl ▸ rfl, fun j => ?_⟩
  rw [he j (Nat.zero_le j)]
  rfl

end Lemul.PtySession.Manager
