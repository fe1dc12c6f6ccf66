import Lemul.PtySession.Manager

/-!
# The registry of sessions

`reap` takes a session out of the manager's map by its id (`manager.go:78-85`), and a `Create`
for the same id can come at any time. What keeps the two apart is that a session is in the map
from the moment its `Create` has put it there until its own goroutine takes it out, so nobody
else can be under that id in between.
-/

namespace Lemul.PtySession.Manager

open Function List

/-- The goroutine runs and has yet to take its session out of the map. -/
def Reader.Serving : Reader → Prop
  | .reading | .waiting | .closing | .reaping => True
  | _ => False

/-- Where session `n` can stand when the call that forked it is at some point. `registered`: it
is in the map. -/
inductive Phase (n : Nat) (f : Forked) (registered : Prop) : CreatePc → Prop where
  | register (hunborn : f.reader = .unborn) (hout : ¬registered) :
      Phase n f registered (.register n)
  | kill (hunborn : f.reader = .unborn) (hout : ¬registered) : Phase n f registered (.kill n)
  | lost (hunborn : f.reader = .unborn) (hout : ¬registered) :
      Phase n f registered (.returned (.error .errExists))
  | start (hunborn : f.reader = .unborn) (hin : registered) : Phase n f registered (.start n)
  | serving (hserving : f.reader.Serving) (hin : registered) :
      Phase n f registered (.returned (.ok n))
  | gone (hgone : f.reader = .calling ∨ f.reader = .done) (hout : ¬registered) :
      Phase n f registered (.returned (.ok n))

namespace Phase

variable {n : Nat} {f f' : Forked} {registered : Prop} {pc : CreatePc}

theorem of_serving (h : Phase n f registered pc) (hserving : f.reader.Serving) :
    pc = .returned (.ok n) ∧ registered := by
  cases h with
  | serving _ hin => exact ⟨rfl, hin⟩
  | gone hgone => rcases hgone with hgone | hgone <;> simp [hgone, Reader.Serving] at hserving
  | register hunborn | kill hunborn | lost hunborn | start hunborn =>
    simp [hunborn, Reader.Serving] at hserving

theorem of_gone (h : Phase n f registered pc) (hgone : f.reader = .calling ∨ f.reader = .done) :
    pc = .returned (.ok n) ∧ ¬registered := by
  cases h with
  | gone _ hout => exact ⟨rfl, hout⟩
  | serving hserving => rcases hgone with hgone | hgone <;> simp [hgone, Reader.Serving] at hserving
  | register hunborn | kill hunborn | lost hunborn | start hunborn => simp [hunborn] at hgone

/-- The goroutine goes on, and the session stays in the map. -/
theorem serves_on (h : Phase n f registered pc) (hbefore : f.reader.Serving)
    (hafter : f'.reader.Serving) : Phase n f' registered pc := by
  obtain ⟨rfl, hin⟩ := h.of_serving hbefore
  exact .serving hafter hin

theorem same_reader (h : Phase n f registered pc) (hsame : f'.reader = f.reader) :
    Phase n f' registered pc := by
  cases h with
  | register hunborn hout => exact .register (hsame.trans hunborn) hout
  | kill hunborn hout => exact .kill (hsame.trans hunborn) hout
  | lost hunborn hout => exact .lost (hsame.trans hunborn) hout
  | start hunborn hin => exact .start (hsame.trans hunborn) hin
  | serving hserving hin => exact .serving (hsame ▸ hserving) hin
  | gone hgone hout => exact .gone (hsame ▸ hgone) hout

end Phase

/-- Session `n` stands where the call that forked it has left it. -/
def Stands (s : State) (n : Nat) (f : Forked) : Prop :=
  ∃ call, s.calls[f.call]? = some call ∧ call.spec.id = f.spec.id ∧
    Phase n f (s.sessions f.spec.id = some n) call.pc

/-- The session that a call has forked, as far as it still knows of it. -/
def CreatePc.session : CreatePc → Option Nat
  | .register n | .kill n | .start n | .returned (.ok n) => some n
  | _ => none

/-- What holds of the map, the calls and the sessions in every interleaving. -/
structure Registry (s : State) : Prop where
  stands {n : Nat} {f : Forked} (hforked : s.forked[n]? = some f) : Stands s n f
  forkedBy {c n : Nat} {call : Call} (hcall : s.calls[c]? = some call)
    (hsession : call.pc.session = some n) : ∃ f, s.forked[n]? = some f ∧ f.call = c
  named {id : GoString} {n : Nat} (hin : s.sessions id = some n) :
    ∃ f, s.forked[n]? = some f ∧ f.spec.id = id

section Steps

variable {s s' : State} {c n : Nat} {f f' : Forked} {spec : Spec} {pc pc₀ : CreatePc}

theorem Stands.frame (h : Stands s n f) (hcall : s'.calls[f.call]? = s.calls[f.call]?)
    (hin : s'.sessions f.spec.id = some n ↔ s.sessions f.spec.id = some n) : Stands s' n f := by
  obtain ⟨call, hfound, hid, hphase⟩ := h
  refine ⟨call, hcall.trans hfound, hid, ?_⟩
  rwa [hin]

/-- A session and the call that forked it. -/
theorem Registry.phase (h : Registry s) (hforked : s.forked[n]? = some f)
    (hcall : s.calls[f.call]? = some ⟨spec, pc⟩) :
    spec.id = f.spec.id ∧ Phase n f (s.sessions f.spec.id = some n) pc := by
  obtain ⟨call, hfound, hid, hphase⟩ := h.stands hforked
  cases hcall.symm.trans hfound
  exact ⟨hid, hphase⟩

theorem Registry.call_eq {call : Call} (h : Registry s) (hforked : s.forked[n]? = some f)
    (hcall : s.calls[c]? = some call) (hsession : call.pc.session = some n) : f.call = c := by
  obtain ⟨g, hg, hby⟩ := h.forkedBy hcall hsession
  cases hforked.symm.trans hg
  exact hby

/-- A call goes on, which suits the session it has forked. -/
theorem Registry.moves (h : Registry s) (hcall : s.calls[c]? = some ⟨spec, pc₀⟩)
    (hphase : ∀ {n f registered}, Phase n f registered pc₀ → Phase n f registered pc)
    (hsession : ∀ m, pc.session = some m → pc₀.session = some m) :
    Registry (s.moves c spec pc) where
  stands {n f} hforked := by
    have hforked : s.forked[n]? = some f := hforked
    by_cases hc : f.call = c
    · subst hc
      obtain ⟨hid, hstood⟩ := h.phase hforked hcall
      exact ⟨⟨spec, pc⟩, (calls_moves hcall).trans (if_pos rfl), hid, hphase hstood⟩
    · exact (h.stands hforked).frame ((calls_moves hcall).trans (if_neg hc)) Iff.rfl
  forkedBy {i m call} hfound hm := by
    rw [calls_moves hcall] at hfound
    split at hfound
    · rename_i hi
      cases hfound
      rw [hi]
      exact h.forkedBy hcall (hsession m hm)
    · exact h.forkedBy hfound hm
  named hin := h.named hin

/-- The sessions keep what they are for and who forked them. -/
theorem kept_becomes {m : Nat} {g : Forked} (f' : Forked) (hforked : s.forked[n]? = some f)
    (hspec : f'.spec = f.spec) (hcall : f'.call = f.call) (hm : s.forked[m]? = some g) :
    ∃ g', (s.becomes n f').forked[m]? = some g' ∧ g'.spec = g.spec ∧ g'.call = g.call := by
  rw [forked_becomes hforked]
  split
  · rename_i hmn
    subst hmn
    cases hforked.symm.trans hm
    exact ⟨f', rfl, hspec, hcall⟩
  · exact ⟨g, hm, rfl, rfl⟩

/-- A session changes within its phase. -/
theorem Registry.becomes (h : Registry s) (hforked : s.forked[n]? = some f)
    (hspec : f'.spec = f.spec) (hcall : f'.call = f.call)
    (hphase : ∀ {registered pc}, Phase n f registered pc → Phase n f' registered pc) :
    Registry (s.becomes n f') where
  stands {m g} hm := by
    rw [forked_becomes hforked] at hm
    split at hm
    · rename_i hmn
      cases hm
      subst hmn
      obtain ⟨call, hfound, hid, hstood⟩ := h.stands hforked
      refine ⟨call, ?_, ?_, ?_⟩
      · rw [hcall]
        exact hfound
      · rw [hspec]
        exact hid
      · rw [hspec]
        exact hphase hstood
    · exact h.stands hm
  forkedBy {i m call} hfound hm := by
    obtain ⟨g, hg, hi⟩ := h.forkedBy hfound hm
    obtain ⟨g', hg', -, hby⟩ := kept_becomes f' hforked hspec hcall hg
    exact ⟨g', hg', hby.trans hi⟩
  named {id m} hin := by
    obtain ⟨g, hg, hid⟩ := h.named hin
    obtain ⟨g', hg', hkept, -⟩ := kept_becomes f' hforked hspec hcall hg
    exact ⟨g', hg', by rw [hkept, hid]⟩

theorem Registry.create (h : Registry s) :
    Registry { s with calls := s.calls ++ [⟨spec, .check⟩] } where
  stands {n f} hforked := by
    obtain ⟨call, hfound, hid, hphase⟩ := h.stands hforked
    exact ⟨call, getElem?_concat_old hfound _, hid, hphase⟩
  forkedBy {i m call} hfound hm := by
    rcases of_getElem?_concat hfound with hold | ⟨_, hnew⟩
    · exact h.forkedBy hold hm
    · cases hnew
      cases hm
  named hin := h.named hin

/-- A fork. Nothing under its number was ever in the map. -/
theorem Registry.forks (h : Registry s) (hcall : s.calls[c]? = some ⟨spec, .fork⟩)
    (hid : f.spec.id = spec.id) (hby : f.call = c) (hunborn : f.reader = .unborn) :
    Registry { s.moves c spec (.register s.forked.length) with forked := s.forked ++ [f] } where
  stands {m g} hm := by
    have hmoved : ∀ i, (s.moves c spec (.register s.forked.length)).calls[i]? =
        if i = c then some ⟨spec, .register s.forked.length⟩ else s.calls[i]? :=
      fun i => calls_moves hcall
    rcases of_getElem?_concat hm with hold | ⟨hnew, heq⟩
    · refine (h.stands hold).frame ((hmoved g.call).trans (if_neg fun hc => ?_)) Iff.rfl
      cases (h.phase hold (hc ▸ hcall)).2
    · subst heq hnew
      refine ⟨⟨spec, .register s.forked.length⟩, ?_, hid.symm, .register hunborn fun hin => ?_⟩
      · rw [hby]
        exact (hmoved c).trans (if_pos rfl)
      · obtain ⟨g', hg', -⟩ := h.named hin
        exact absurd (List.getElem?_eq_some_iff.mp hg').1 (Nat.lt_irrefl _)
  forkedBy {i m call} hfound hm := by
    have hfound : (s.moves c spec (.register s.forked.length)).calls[i]? = some call := hfound
    rw [calls_moves hcall] at hfound
    split at hfound
    · rename_i hi
      cases hfound
      cases hm
      exact ⟨f, getElem?_concat_length, hby.trans hi.symm⟩
    · obtain ⟨g, hg, hgi⟩ := h.forkedBy hfound hm
      exact ⟨g, getElem?_concat_old hg _, hgi⟩
  named {id m} hin := by
    obtain ⟨g, hg, hgid⟩ := h.named hin
    exact ⟨g, getElem?_concat_old hg _, hgid⟩

/-- A session enters the map, in which nobody is under its id. -/
theorem Registry.registers (h : Registry s) (hcall : s.calls[c]? = some ⟨spec, .register n⟩)
    (habsent : s.sessions spec.id = none) :
    Registry { s.moves c spec (.start n) with
      sessions := update s.sessions spec.id (some n) } where
  stands {m g} hm := by
    have hm : s.forked[m]? = some g := hm
    by_cases hc : g.call = c
    · subst hc
      obtain ⟨hid, hphase⟩ := h.phase hm hcall
      cases hphase with
      | register hunborn hout =>
        refine ⟨⟨spec, .start n⟩, (calls_moves hcall).trans (if_pos rfl), hid, .start hunborn ?_⟩
        rw [← hid]
        exact update_self _ _ _
    · refine (h.stands hm).frame ((calls_moves hcall).trans (if_neg hc)) ?_
      by_cases hid : g.spec.id = spec.id
      · -- neither before nor after: the entry is `n`, which is of another call
        simp only [hid, habsent, update_self, Option.some.injEq, reduceCtorEq, iff_false]
        rintro rfl
        exact hc (h.call_eq hm hcall rfl)
      · simp only [update_of_ne hid]
  forkedBy {i m call} hfound hm := by
    have hfound : (s.moves c spec (.start n)).calls[i]? = some call := hfound
    rw [calls_moves hcall] at hfound
    split at hfound
    · rename_i hi
      cases hfound
      cases hm
      rw [hi]
      exact h.forkedBy hcall rfl
    · exact h.forkedBy hfound hm
  named {id m} hin := by
    by_cases hid : id = spec.id
    · subst hid
      simp only [update_self, Option.some.injEq] at hin
      subst hin
      obtain ⟨f, hf, hfc⟩ := h.forkedBy hcall rfl
      subst hfc
      exact ⟨f, hf, (h.phase hf hcall).1.symm⟩
    · simp only [update_of_ne hid] at hin
      exact h.named hin

/-- `go s.readLoop(m.reap)`. -/
theorem Registry.starts (h : Registry s) (hcall : s.calls[c]? = some ⟨spec, .start n⟩)
    (hforked : s.forked[n]? = some f) :
    Registry ((s.moves c spec (.returned (.ok n))).becomes n { f with reader := .reading }) := by
  obtain rfl := h.call_eq hforked hcall rfl
  obtain ⟨hid, hphase⟩ := h.phase hforked hcall
  have hin : s.sessions f.spec.id = some n := by
    cases hphase with
    | start hunborn hin => exact hin
  have hbecome : ∀ i g, ((s.moves f.call spec (.returned (.ok n))).becomes n g).forked[i]? =
      if i = n then some g else s.forked[i]? := fun i g => forked_becomes hforked
  have hkept {m : Nat} {g : Forked} (hg : s.forked[m]? = some g) :=
    kept_becomes (s := s.moves f.call spec (.returned (.ok n))) { f with reader := .reading }
      hforked rfl rfl hg
  refine ⟨fun {m g} hm => ?_, fun {i m call} hfound hm => ?_, fun {id m} hid => ?_⟩
  · rw [hbecome] at hm
    split at hm
    · rename_i hmn
      cases hm
      subst hmn
      exact ⟨_, (calls_moves hcall).trans (if_pos rfl), hid, .serving trivial hin⟩
    · rename_i hmn
      refine (h.stands hm).frame ((calls_moves hcall).trans (if_neg fun hc => ?_)) Iff.rfl
      rw [← hc] at hcall
      cases (h.phase hm hcall).2
      exact hmn rfl
  · have hfound : (s.moves f.call spec (.returned (.ok n))).calls[i]? = some call := hfound
    have hold : ∃ g, s.forked[m]? = some g ∧ g.call = i := by
      rw [calls_moves hcall] at hfound
      split at hfound
      · rename_i hi
        cases hfound
        cases hm
        exact ⟨f, hforked, hi.symm⟩
      · exact h.forkedBy hfound hm
    obtain ⟨g, hg, hgi⟩ := hold
    obtain ⟨g', hg', -, hby⟩ := hkept hg
    exact ⟨g', hg', hby.trans hgi⟩
  · obtain ⟨g, hg, hgid⟩ := h.named hid
    obtain ⟨g', hg', hspec, -⟩ := hkept hg
    exact ⟨g', hg', by rw [hspec, hgid]⟩

/-- The session that `reap` removes is the one whose goroutine calls it. -/
theorem Registry.entry_of_reaping (h : Registry s) (hforked : s.forked[n]? = some f)
    (hreader : f.reader = .reaping) : s.sessions f.spec.id = some n := by
  obtain ⟨call, -, -, hphase⟩ := h.stands hforked
  exact (hphase.of_serving (hreader ▸ trivial)).2

theorem Registry.reap (h : Registry s) (hforked : s.forked[n]? = some f)
    (hreader : f.reader = .reaping) :
    Registry { s.becomes n { f with reader := .calling } with
      sessions := update s.sessions f.spec.id none } where
  stands {m g} hm := by
    have hm : (s.becomes n { f with reader := .calling }).forked[m]? = some g := hm
    rw [forked_becomes hforked] at hm
    split at hm
    · rename_i hmn
      cases hm
      subst hmn
      obtain ⟨call, hfound, hid, hphase⟩ := h.stands hforked
      refine ⟨call, hfound, hid, ?_⟩
      rw [(hphase.of_serving (hreader ▸ trivial)).1]
      refine .gone (.inl rfl) ?_
      simp
    · rename_i hmn
      refine (h.stands hm).frame rfl ?_
      by_cases hid : g.spec.id = f.spec.id
      · simp only [hid, update_self, reduceCtorEq, false_iff]
        rw [h.entry_of_reaping hforked hreader]
        simpa using Ne.symm hmn
      · simp only [update_of_ne hid]
  forkedBy {i m call} hfound hm := by
    obtain ⟨g, hg, hi⟩ := h.forkedBy hfound hm
    obtain ⟨g', hg', -, hby⟩ :=
      kept_becomes { f with reader := .calling } hforked rfl rfl hg
    exact ⟨g', hg', hby.trans hi⟩
  named {id m} hin := by
    by_cases hid : id = f.spec.id
    · simp [hid] at hin
    · simp only [update_of_ne hid] at hin
      obtain ⟨g, hg, hgid⟩ := h.named hin
      obtain ⟨g', hg', hkept, -⟩ :=
        kept_becomes { f with reader := .calling } hforked rfl rfl hg
      exact ⟨g', hg', by rw [hkept, hgid]⟩

end Steps

variable {onExit : Bool} {s s' : State} {l : Label} {n : Nat} {f : Forked}

theorem Registry.step (h : Registry s)
    (hstep : (manager onExit).step s l = some s') : Registry s' := by
  cases step_rule hstep with
  | create => exact h.create
  | found hcall | absent hcall | forkFails hcall => exact h.moves hcall nofun nofun
  | forks hcall hnew =>
    obtain ⟨hid, hby, -, -, hunborn⟩ := newSession_eq_ok hnew
    exact h.forks hcall hid hby hunborn
  | loses hcall =>
    refine h.moves hcall (fun hphase => ?_) fun m hm => hm
    cases hphase with
    | register hunborn hout => exact .kill hunborn hout
  | registers hcall habsent => exact h.registers hcall habsent
  | kill hcall =>
    refine h.moves hcall (fun hphase => ?_) nofun
    cases hphase with
    | kill hunborn hout => exact .lost hunborn hout
  | start hcall hforked => exact h.starts hcall hforked
  | exits hforked => exact h.becomes hforked rfl rfl fun hphase => hphase.same_reader rfl
  | readFails hforked hreader | wait hforked hreader | close hforked hreader =>
    exact h.becomes hforked rfl rfl fun hphase =>
      hphase.serves_on (hreader ▸ trivial) trivial
  | reap hforked hreader => exact h.reap hforked hreader
  | @onExit n code f hforked hreader =>
    have hbecomes : Registry (s.becomes n { f with reader := .done }) := by
      refine h.becomes hforked rfl rfl fun hphase => ?_
      obtain ⟨rfl, hout⟩ := hphase.of_gone (.inl hreader)
      exact .gone (.inr rfl) hout
    exact ⟨hbecomes.stands, hbecomes.forkedBy, hbecomes.named⟩
  | hold => exact ⟨h.stands, h.forkedBy, h.named⟩
  | get | stop => exact h

theorem registry_new : Registry newManager where
  stands := nofun
  forkedBy := nofun
  named := nofun

variable {tr : List Label} {f' : Forked}

theorem registry_run (hrun : (manager onExit).Run newManager tr s) : Registry s :=
  hrun.invariant (fun _ _ _ h hstep => h.step hstep) registry_new

/-! ## One session -/

/-- What takes a session on that call `c` has forked as `n`: the steps of its goroutine, the one
with which the call starts it, and the kernel's, which lets `Read` fail. -/
def Label.Moves (n c : Nat) : Label → Prop
  | .start i => i = c
  | .readFails m | .wait m | .close m | .reap m | .onExit m => m = n
  | _ => False

/-- What a step can do to session `n`, which is `f` before it. -/
inductive Goes (s : State) (n : Nat) (f : Forked) : Label → Forked → Prop where
  | same {l : Label} (hother : ¬l.Moves n f.call) : Goes s n f l f
  | start {c : Nat} {spec : Spec} (hcall : s.calls[c]? = some ⟨spec, .start n⟩)
      (hunborn : f.reader = .unborn) : Goes s n f (.start c) { f with reader := .reading }
  | exits {code : Int} (hrunning : f.child = .running) :
      Goes s n f (.exits n code) { f with child := .exited code }
  | readFails (hreader : f.reader = .reading) :
      Goes s n f (.readFails n) { f with reader := .waiting }
  | wait {code : Int} (hreader : f.reader = .waiting) (hexited : f.child = .exited code) :
      Goes s n f (.wait n) { f with reader := .closing, child := .reaped code }
  | close (hreader : f.reader = .closing) :
      Goes s n f (.close n) { f with reader := .reaping, ptmxOpen := false }
  | reap (hreader : f.reader = .reaping) : Goes s n f (.reap n) { f with reader := .calling }
  | onExit {code : Int} (hreader : f.reader = .calling) (hreaped : f.child = .reaped code) :
      Goes s n f (.onExit n) { f with reader := .done }

theorem Registry.unborn_of_start {c : Nat} {spec : Spec} (h : Registry s)
    (hforked : s.forked[n]? = some f)
    (hcall : s.calls[c]? = some ⟨spec, .start n⟩) : f.reader = .unborn := by
  obtain rfl := h.call_eq hforked hcall rfl
  cases (h.phase hforked hcall).2 with
  | start hunborn => exact hunborn

/-- A session keeps what it is for and who forked it. -/
theorem Goes.kept (h : Goes s n f l f') :
    f'.spec = f.spec ∧ f'.call = f.call := by
  cases h <;> exact ⟨rfl, rfl⟩

/-- A session stays, and a step takes it on. -/
theorem Registry.goes (h : Registry s) (hforked : s.forked[n]? = some f)
    (hstep : (manager onExit).step s l = some s') :
    ∃ f', s'.forked[n]? = some f' ∧ Goes s n f l f' := by
  have htouch : ∀ {m : Nat} {g g' : Forked} {t : State}, s.forked[m]? = some g →
      t.forked = s.forked.set m g' → Goes s m g l g' → (m ≠ n → ¬l.Moves n f.call) →
      ∃ f', t.forked[n]? = some f' ∧ Goes s n f l f' := by
    intro m g g' t hg ht htouched hother
    rw [ht, getElem?_set_of hg]
    by_cases hmn : n = m
    · subst hmn
      cases hforked.symm.trans hg
      exact ⟨g', if_pos rfl, htouched⟩
    · exact ⟨f, (if_neg hmn).trans hforked, .same (hother (Ne.symm hmn))⟩
  cases step_rule hstep with
  | forks => exact ⟨f, getElem?_concat_old hforked _, .same nofun⟩
  | @start c m spec g hcall hg =>
    refine htouch hg rfl (.start hcall (h.unborn_of_start hg hcall)) fun hmn hc => ?_
    have hc : c = f.call := hc
    rw [hc] at hcall
    cases (h.phase hforked hcall).2
    exact hmn rfl
  | exits hg hrunning => exact htouch hg rfl (.exits hrunning) nofun
  | readFails hg hreader => exact htouch hg rfl (.readFails hreader) id
  | wait hg hreader hexited => exact htouch hg rfl (.wait hreader hexited) id
  | close hg hreader => exact htouch hg rfl (.close hreader) id
  | reap hg hreader => exact htouch hg rfl (.reap hreader) id
  | onExit hg hreader hreaped => exact htouch hg rfl (.onExit hreader hreaped) id
  | create | found | absent | forkFails | loses | registers | kill | hold | get | stop =>
    exact ⟨f, hforked, .same nofun⟩

/-- A session is one that was there and is taken on, or has just been forked. -/
theorem Registry.goes_or_newborn (h : Registry s) (hstep : (manager onExit).step s l = some s')
    (hforked : s'.forked[n]? = some f') :
    (∃ f, s.forked[n]? = some f ∧ Goes s n f l f') ∨
      n = s.forked.length ∧ (∃ e, l = .fork f'.call e) ∧ s'.exitCalls = s.exitCalls ∧
        f'.ptmxOpen = true ∧ f'.child = .running ∧ f'.reader = .unborn := by
  cases hold : s.forked[n]? with
  | some f =>
    obtain ⟨f₁, hf₁, hgoes⟩ := h.goes hold hstep
    cases hforked.symm.trans hf₁
    exact .inl ⟨f, rfl, hgoes⟩
  | none =>
    have hlength : s.forked.length ≤ n := getElem?_eq_none_iff.mp hold
    have hlt : n < s'.forked.length := (List.getElem?_eq_some_iff.mp hforked).1
    have hsame : s'.forked.length ≠ s.forked.length := by omega
    cases step_rule hstep with
    | forks hcall hnew =>
      rcases of_getElem?_concat hforked with hthere | ⟨hn, rfl⟩
      · cases hold.symm.trans hthere
      · obtain ⟨-, hby, hopen, hrunning, hunborn⟩ := newSession_eq_ok hnew
        exact .inr ⟨hn, ⟨_, by rw [hby]⟩, rfl, hopen, hrunning, hunborn⟩
    | _ => exact absurd (by simp [State.moves, State.becomes]) hsame

/-- What the end of a session has done so far. -/
def Forked.Ended (f : Forked) : Prop :=
  match f.reader with
  | .unborn | .reading | .waiting => f.ptmxOpen = true ∧ ∀ code, f.child ≠ .reaped code
  | .closing => f.ptmxOpen = true ∧ ∃ code, f.child = .reaped code
  | .reaping | .calling | .done => f.ptmxOpen = false ∧ ∃ code, f.child = .reaped code

theorem Goes.ended (h : Goes s n f l f') (hended : f.Ended) : f'.Ended := by
  cases h with
  | same => exact hended
  | start hcall hunborn => simpa only [Forked.Ended, hunborn] using hended
  | exits hrunning =>
    unfold Forked.Ended at hended ⊢
    cases hreader : f.reader <;> simp_all
  | readFails hreader | reap hreader | onExit hreader =>
    simpa only [Forked.Ended, hreader] using hended
  | wait hreader hexited =>
    simp only [Forked.Ended, hreader] at hended
    exact ⟨hended.1, _, rfl⟩
  | close hreader =>
    simp only [Forked.Ended, hreader] at hended
    exact ⟨rfl, hended.2⟩

theorem ended_run (hrun : (manager onExit).Run newManager tr s) (hforked : s.forked[n]? = some f) :
    f.Ended := by
  let I (s : State) : Prop :=
    Registry s ∧ ∀ (n : Nat) (f : Forked), s.forked[n]? = some f → f.Ended
  have hall : I s := by
    refine hrun.invariant (I := I) ?_ ⟨registry_new, nofun⟩
    intro s l s' hs hstep
    refine ⟨hs.1.step hstep, fun n f' hforked' => ?_⟩
    rcases hs.1.goes_or_newborn hstep hforked' with
      ⟨f, hforked, hgoes⟩ | ⟨-, -, -, hopen, hrunning, hunborn⟩
    · exact hgoes.ended (hs.2 n f hforked)
    · unfold Forked.Ended
      rw [hunborn, hrunning]
      exact ⟨hopen, nofun⟩
  exact hall.2 n f hforked

/-! ## The exit callback -/

/-- The calls of the exit callback that session `n` has made. -/
def State.callsOf (s : State) (n : Nat) : List ExitCall :=
  s.exitCalls.filter fun e => e.session = n

/-- The call that session `n` makes. -/
def Forked.exitCall (n : Nat) (f : Forked) : List ExitCall :=
  match f.child with
  | .reaped code => [⟨n, f.spec.id, code⟩]
  | _ => []

theorem callsOf_step (hstep : (manager true).step s l = some s') (hother : l ≠ .onExit n) :
    s'.callsOf n = s.callsOf n := by
  cases step_rule hstep with
  | @onExit m code f =>
    have hmn : m ≠ n := fun hmn => hother (hmn ▸ rfl)
    simp [State.callsOf, hmn]
  | _ => rfl

theorem callsOf_onExit (hforked : s.forked[n]? = some f)
    (hstep : (manager true).step s (.onExit n) = some s') :
    s'.callsOf n = s.callsOf n ++ f.exitCall n := by
  cases step_rule hstep with
  | @onExit m code g hg hreader hreaped =>
    cases hforked.symm.trans hg
    simp [State.callsOf, Forked.exitCall, hreaped]

/-- A session calls the callback with its last step, and the calls made are of sessions. -/
structure Notified (s : State) : Prop where
  calls {n : Nat} {f : Forked} (hforked : s.forked[n]? = some f) :
    s.callsOf n = if f.reader = .done then f.exitCall n else []
  known {e : ExitCall} (he : e ∈ s.exitCalls) : ∃ f, s.forked[e.session]? = some f

theorem Notified.step (h : Notified s) (hregistry : Registry s)
    (hstep : (manager true).step s l = some s') : Notified s' where
  calls {n f'} hforked' := by
    rcases hregistry.goes_or_newborn hstep hforked' with
      ⟨f, hforked, hgoes⟩ | ⟨hn, -, hsame, -, -, hunborn⟩
    · have hcalls := h.calls hforked
      cases hgoes with
      | same hother =>
        rw [callsOf_step hstep fun hl => hother (hl ▸ rfl)]
        exact hcalls
      | exits hrunning =>
        rw [callsOf_step hstep nofun, hcalls]
        simp only [Forked.exitCall, hrunning]
      | onExit hreader hreaped =>
        rw [callsOf_onExit hforked hstep, hcalls, if_neg (by simp [hreader]), if_pos rfl]
        rfl
      | start hcall hunborn =>
        rw [callsOf_step hstep nofun, hcalls, if_neg (by simp [hunborn]), if_neg nofun]
      | readFails hreader | wait hreader | close hreader | reap hreader =>
        rw [callsOf_step hstep nofun, hcalls, if_neg (by simp [hreader]), if_neg nofun]
    · rw [hunborn]
      simp only [State.callsOf, hsame, reduceCtorEq, if_false, filter_eq_nil_iff,
        decide_eq_true_eq]
      intro e he hen
      obtain ⟨g, hg⟩ := h.known he
      exact absurd (List.getElem?_eq_some_iff.mp hg).1 (by omega)
  known {e} he := by
    suffices hold : ∃ f, s.forked[e.session]? = some f by
      obtain ⟨f, hforked⟩ := hold
      obtain ⟨f', hf', -⟩ := hregistry.goes hforked hstep
      exact ⟨f', hf'⟩
    cases step_rule hstep with
    | @onExit n code f hforked =>
      rcases mem_concat.mp he with hold | rfl
      · exact h.known hold
      · exact ⟨f, hforked⟩
    | _ => exact h.known he

theorem notified_run (hrun : (manager true).Run newManager tr s) :
    Notified s := by
  let I (s : State) : Prop := Registry s ∧ Notified s
  have hnew : Notified newManager := ⟨nofun, nofun⟩
  exact (hrun.invariant (I := I)
    (fun _ _ _ h hstep => ⟨h.1.step hstep, h.2.step h.1 hstep⟩) ⟨registry_new, hnew⟩).2

end Lemul.PtySession.Manager
