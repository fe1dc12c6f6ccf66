import Lemul.Driver.Ecs
import Lemul.Misc.LengthPrefix
import Lemul.Misc.Lists
import Lemul.Misc.Lts

/-!
# The local driver

`internal/driver/local/local.go:51-125`: supervisors as processes of the runner's own machine, in
any interleaving of `Start` and `Stop`. What a call does under the mutex is one step. `Start`
forks between two looks at the index, so several calls may have forked for one key; `Stop` takes
its entries out before it signals the process.

A process is its position in `procs`; its pid is what the kernel gave it, and may come again.
-/

namespace Lemul.Driver.Local

open List Function

/-- A supervisor that was forked. -/
structure Proc where
  key : GoString
  pid : Nat
  /-- It was killed, or its group was signalled. -/
  ended : Bool
  deriving DecidableEq, Repr

/-- A call, by how far it has got. -/
inductive Call where
  /-- `Start` found no entry under its key. -/
  | starting (key : GoString)
  | forked (key : GoString) (p : Nat)
  | returned (key ref : GoString)
  | failed (key : GoString)
  /-- `Stop` has deleted the entries of the process it is about to signal. -/
  | stopping (p : Nat)
  | stopped
  deriving DecidableEq, Repr

/-- The call has not returned yet. -/
def Call.inProgress : Call → Bool
  | .starting _ | .forked _ _ | .stopping _ => true
  | _ => false

/-- `Driver` (`local.go:27-38`), the processes and the calls. -/
structure State where
  byKey : GoString → Option GoString
  byRef : GoString → Option Nat
  /-- An `int` of the source, which holds as long as `nextRef_lt` says. -/
  nextRef : Nat
  procs : List Proc
  calls : List Call

/-- `New` (`local.go:40-48`). -/
def new : State := ⟨fun _ => none, fun _ => none, 0, [], []⟩

/-- The reference of the `n`-th placement (`local.go:100`). -/
def refOf (n pid : Nat) : GoString := "local-" ++ decimal n ++ "-pid" ++ decimal pid

inductive Move where
  | start (workspaceID : GoString) (generation : Nat)
  /-- `cmd.Start()`, with the pid if it succeeds. -/
  | fork (i : Nat) (pid : Option Nat)
  | register (i : Nat)
  | stop (ref : GoString)
  | signal (i : Nat)
  deriving DecidableEq, Repr

/-- One step of one call. -/
def step (s : State) : Move → Option State
  | .start name gen =>
      -- `local.go:54-62`
      match s.byKey (idempotencyKey name gen) with
      | some ref => some { s with calls := s.calls ++ [.returned (idempotencyKey name gen) ref] }
      | none => some { s with calls := s.calls ++ [.starting (idempotencyKey name gen)] }
  | .fork i pid =>
      match s.calls[i]?, pid with
      | some (.starting k), none => some { s with calls := s.calls.set i (.failed k) }
      | some (.starting k), some pid =>
          some { s with
            procs := s.procs ++ [⟨k, pid, false⟩]
            calls := s.calls.set i (.forked k s.procs.length) }
      | _, _ => none
  | .register i =>
      -- `local.go:90-107`
      match s.calls[i]? with
      | some (.forked k p) =>
          match s.procs[p]? with
          | some proc =>
              match s.byKey k with
              | some ref =>
                  some { s with
                    procs := s.procs.set p { proc with ended := true }
                    calls := s.calls.set i (.returned k ref) }
              | none =>
                  let ref := refOf (s.nextRef + 1) proc.pid
                  some { s with
                    byKey := update s.byKey k (some ref)
                    byRef := update s.byRef ref (some p)
                    nextRef := s.nextRef + 1
                    calls := s.calls.set i (.returned k ref) }
          | none => none
      | _ => none
  | .stop ref =>
      -- `local.go:110-121`
      match s.byRef ref with
      | some p =>
          some { s with
            byKey := fun k => if s.byKey k = some ref then none else s.byKey k
            byRef := update s.byRef ref none
            calls := s.calls ++ [.stopping p] }
      | none => some { s with calls := s.calls ++ [.stopped] }
  | .signal i =>
      match s.calls[i]? with
      | some (.stopping p) =>
          match s.procs[p]? with
          | some proc =>
              some { s with
                procs := s.procs.set p { proc with ended := true }
                calls := s.calls.set i .stopped }
          | none => none
      | _ => none

def machine : Lts State Move := ⟨step⟩

theorem refOf_inj {m n p q : Nat} (h : refOf m p = refOf n q) : m = n := by
  have hdash : ∀ n, (45 : UInt8) ∉ decimal n := by
    intro n hmem
    exact absurd (all_eq_true.mp (all_isDigit_decimal n) 45 hmem) (by decide)
  simp only [refOf, append_assoc] at h
  have htail := append_cancel_left h
  exact decimal_injective (append_separator_inj (hdash m) (hdash n) htail).1

/-- What the maps and the calls say about each other. -/
structure Sound (s : State) : Prop where
  byKey : ∀ k ref, s.byKey k = some ref →
    ∃ p proc, s.byRef ref = some p ∧ s.procs[p]? = some proc ∧ proc.key = k
  byRef : ∀ ref p, s.byRef ref = some p → ∃ k, s.byKey k = some ref
  numbered : ∀ ref p, s.byRef ref = some p → ∃ n pid, n ≤ s.nextRef ∧ ref = refOf n pid
  forked : ∀ k p, .forked k p ∈ s.calls → ∃ proc, s.procs[p]? = some proc ∧ proc.key = k
  /-- A process that goes on is indexed or in the hands of a call. -/
  owned : ∀ (p : Nat) proc, s.procs[p]? = some proc → proc.ended = false →
    (∃ ref, s.byKey proc.key = some ref ∧ s.byRef ref = some p) ∨
      .forked proc.key p ∈ s.calls ∨ .stopping p ∈ s.calls

theorem sound_new : Sound new := by
  constructor <;> simp [new]

variable {s s' : State}

/-- A call begins, or goes on without a process of its own. -/
theorem Sound.calls (h : Sound s) {calls : List Call}
    (hforked : ∀ k p, .forked k p ∈ calls → .forked k p ∈ s.calls)
    (hkept : ∀ c ∈ s.calls, (∃ k p, c = .forked k p) ∨ (∃ p, c = .stopping p) → c ∈ calls) :
    Sound { s with calls := calls } where
  byKey := h.byKey
  byRef := h.byRef
  numbered := h.numbered
  forked k p hmem := h.forked k p (hforked k p hmem)
  owned p proc hp hlive := by
    rcases h.owned p proc hp hlive with hindex | hfork | hstop
    · exact .inl hindex
    · exact .inr (.inl (hkept _ hfork (.inl ⟨_, _, rfl⟩)))
    · exact .inr (.inr (hkept _ hstop (.inr ⟨_, rfl⟩)))

/-- A process is killed or signalled by the call that has it. -/
theorem Sound.ends (h : Sound s) {i p : Nat} {proc : Proc} {c c' : Call}
    (hc : s.calls[i]? = some c) (hp : s.procs[p]? = some proc)
    (hown : c = .forked proc.key p ∨ c = .stopping p) (hnew : ∀ k q, c' ≠ .forked k q) :
    Sound { s with
      procs := s.procs.set p { proc with ended := true }
      calls := s.calls.set i c' } := by
  have hproc : ∀ (q : Nat) x, s.procs[q]? = some x →
      ∃ y, (s.procs.set p { proc with ended := true })[q]? = some y ∧ y.key = x.key := by
    intro q x hx
    by_cases hq : p = q
    · subst hq
      cases hp.symm.trans hx
      exact ⟨_, getElem?_set_same hp _, rfl⟩
    · exact ⟨x, by rw [getElem?_set_ne hq, hx], rfl⟩
  refine ⟨fun k ref hk => ?_, h.byRef, h.numbered, fun k q hmem => ?_, fun q x hx hlive => ?_⟩
  · obtain ⟨q, x, href, hx, hkey⟩ := h.byKey k ref hk
    obtain ⟨y, hy, hsame⟩ := hproc q x hx
    exact ⟨q, y, href, hy, hsame.trans hkey⟩
  · rcases mem_or_eq_of_mem_set hmem with hmem | heq
    · obtain ⟨x, hx, hkey⟩ := h.forked k q hmem
      obtain ⟨y, hy, hsame⟩ := hproc q x hx
      exact ⟨y, hy, hsame.trans hkey⟩
    · exact absurd heq.symm (hnew k q)
  · rcases of_getElem?_set hx with ⟨rfl, rfl⟩ | ⟨hne, hx⟩
    · cases hlive
    · have hother : ∀ d ∈ s.calls, d = .forked x.key q ∨ d = .stopping q →
          d ∈ s.calls.set i c' := by
        intro d hd hkind
        refine (mem_set_of_mem hd hc c').resolve_left ?_
        rintro rfl
        rcases hown with rfl | rfl
        · rcases hkind with heq | heq
          · exact hne (Call.forked.inj heq).2.symm
          · cases heq
        · rcases hkind with heq | heq
          · cases heq
          · exact hne (Call.stopping.inj heq).symm
      rcases h.owned q x hx hlive with hindex | hfork | hstop
      · exact .inl hindex
      · exact .inr (.inl (hother _ hfork (.inl rfl)))
      · exact .inr (.inr (hother _ hstop (.inr rfl)))

/-- A process is forked. -/
theorem Sound.forks (h : Sound s) {i pid : Nat} {k : GoString}
    (hc : s.calls[i]? = some (.starting k)) :
    Sound { s with
      procs := s.procs ++ [⟨k, pid, false⟩]
      calls := s.calls.set i (.forked k s.procs.length) } := by
  refine ⟨fun k' ref hk' => ?_, h.byRef, h.numbered, fun k' p hmem => ?_, fun p x hx hlive => ?_⟩
  · obtain ⟨p, x, href, hx, hkey⟩ := h.byKey k' ref hk'
    exact ⟨p, x, href, getElem?_concat_old hx _, hkey⟩
  · rcases mem_or_eq_of_mem_set hmem with hmem | heq
    · obtain ⟨x, hx, hkey⟩ := h.forked k' p hmem
      exact ⟨x, getElem?_concat_old hx _, hkey⟩
    · cases heq
      exact ⟨_, getElem?_concat_length, rfl⟩
  · rcases of_getElem?_concat hx with hold | ⟨rfl, rfl⟩
    · rcases h.owned p x hold hlive with hindex | hfork | hstop
      · exact .inl hindex
      · exact .inr (.inl ((mem_set_of_mem hfork hc _).resolve_left nofun))
      · exact .inr (.inr ((mem_set_of_mem hstop hc _).resolve_left nofun))
    · exact .inr (.inl (mem_of_getElem? (getElem?_set_same hc _)))

/-- The first call to come back to the index registers its process. -/
theorem Sound.registers (h : Sound s) {i p : Nat} {k : GoString} {proc : Proc}
    (hc : s.calls[i]? = some (.forked k p)) (hp : s.procs[p]? = some proc) (hkey : proc.key = k)
    (hnone : s.byKey k = none) {ref : GoString} (href : ref = refOf (s.nextRef + 1) proc.pid) :
    Sound { s with
      byKey := update s.byKey k (some ref)
      byRef := update s.byRef ref (some p)
      nextRef := s.nextRef + 1
      calls := s.calls.set i (.returned k ref) } := by
  have hfresh : ∀ r q, s.byRef r = some q → r ≠ ref := by
    rintro r q hr rfl
    obtain ⟨n, pid, hn, heq⟩ := h.numbered r q hr
    have := refOf_inj (href.symm.trans heq)
    omega
  refine ⟨fun k' r hk' => ?_, fun r q hr => ?_, fun r q hr => ?_, fun k' q hmem => ?_,
    fun q x hx hlive => ?_⟩
  · by_cases hkk : k' = k
    · subst hkk
      simp only [update_self, Option.some.injEq] at hk'
      subst hk'
      exact ⟨p, proc, update_self _ _ _, hp, hkey⟩
    · simp only [update_of_ne hkk] at hk'
      obtain ⟨q, x, hr, hx, hxk⟩ := h.byKey k' r hk'
      exact ⟨q, x, by simp only [update_of_ne (hfresh r q hr), hr], hx, hxk⟩
  · by_cases hrr : r = ref
    · exact ⟨k, by simp only [update_self, hrr]⟩
    · simp only [update_of_ne hrr] at hr
      obtain ⟨k', hk'⟩ := h.byRef r q hr
      have hne : k' ≠ k := fun heq => by rw [heq, hnone] at hk'; cases hk'
      exact ⟨k', by simp only [update_of_ne hne, hk']⟩
  · by_cases hrr : r = ref
    · exact ⟨_, _, Nat.le_refl _, hrr.trans href⟩
    · simp only [update_of_ne hrr] at hr
      obtain ⟨n, pid, hn, heq⟩ := h.numbered r q hr
      exact ⟨n, pid, Nat.le_succ_of_le hn, heq⟩
  · rcases mem_or_eq_of_mem_set hmem with hmem | heq
    · exact h.forked k' q hmem
    · cases heq
  · by_cases hq : q = p
    · subst hq
      cases hp.symm.trans hx
      exact .inl ⟨ref, by simp only [hkey, update_self], update_self _ _ _⟩
    · rcases h.owned q x hx hlive with ⟨r, hk', hr⟩ | hfork | hstop
      · have hne : x.key ≠ k := fun heq => by rw [heq, hnone] at hk'; cases hk'
        exact .inl ⟨r, by simp only [update_of_ne hne, hk'],
          by simp only [update_of_ne (hfresh r q hr), hr]⟩
      · refine .inr (.inl ((mem_set_of_mem hfork hc _).resolve_left ?_))
        intro heq
        cases heq
        exact hq rfl
      · exact .inr (.inr ((mem_set_of_mem hstop hc _).resolve_left nofun))

/-- The entries of a process that is to be signalled are deleted. -/
theorem Sound.removes (h : Sound s) {ref : GoString} {p : Nat} (href : s.byRef ref = some p) :
    Sound { s with
      byKey := fun k => if s.byKey k = some ref then none else s.byKey k
      byRef := update s.byRef ref none
      calls := s.calls ++ [.stopping p] } := by
  have hothers : ∀ {r q}, update s.byRef ref none r = some q →
      r ≠ ref ∧ s.byRef r = some q := by
    intro r q hr
    by_cases hrr : r = ref
    · subst hrr
      rw [update_self] at hr
      cases hr
    · rw [update_of_ne hrr] at hr
      exact ⟨hrr, hr⟩
  have hkeys : ∀ {k r}, r ≠ ref → s.byKey k = some r →
      (if s.byKey k = some ref then none else s.byKey k) = some r := by
    intro k r hne hk
    rw [if_neg (by rw [hk]; exact fun heq => hne (Option.some.inj heq)), hk]
  refine ⟨fun k r hk => ?_, fun r q hr => ?_, fun r q hr => ?_, fun k q hmem => ?_,
    fun q x hx hlive => ?_⟩
  · dsimp only at hk
    split at hk
    · cases hk
    · rename_i hne
      obtain ⟨q, x, hr, hrest⟩ := h.byKey k r hk
      have hrr : r ≠ ref := fun heq => hne (heq ▸ hk)
      exact ⟨q, x, by simp only [update_of_ne hrr, hr], hrest⟩
  · obtain ⟨hrr, hr⟩ := hothers hr
    obtain ⟨k, hk⟩ := h.byRef r q hr
    exact ⟨k, hkeys hrr hk⟩
  · exact h.numbered r q (hothers hr).2
  · exact h.forked k q ((mem_concat.mp hmem).resolve_right nofun)
  · rcases h.owned q x hx hlive with ⟨r, hk, hr⟩ | hfork | hstop
    · by_cases hrr : r = ref
      · subst hrr
        cases href.symm.trans hr
        exact .inr (.inr (mem_concat.mpr (.inr rfl)))
      · exact .inl ⟨r, hkeys hrr hk, by simp only [update_of_ne hrr, hr]⟩
    · exact .inr (.inl (mem_append_left _ hfork))
    · exact .inr (.inr (mem_append_left _ hstop))

theorem Sound.step (h : Sound s) {m : Move} (hs : Local.step s m = some s') : Sound s' := by
  have hbegins : ∀ c, (∀ k p, .forked k p ≠ c) → Sound { s with calls := s.calls ++ [c] } :=
    fun c hc => h.calls (fun k p hmem => (mem_concat.mp hmem).resolve_right (hc k p))
      (fun _ hmem _ => mem_append_left _ hmem)
  cases m with simp only [Local.step] at hs
  | start name gen => split at hs <;> cases hs <;> exact hbegins _ nofun
  | fork i pid =>
    split at hs <;> cases hs
    · rename_i hc
      refine h.calls (fun k p hmem => (mem_or_eq_of_mem_set hmem).resolve_right nofun)
        (fun c hmem hkind => (mem_set_of_mem hmem hc _).resolve_left ?_)
      rintro rfl
      rcases hkind with ⟨k, p, heq⟩ | ⟨p, heq⟩ <;> cases heq
    · rename_i hc
      exact h.forks hc
  | register i =>
    split at hs <;> [skip; cases hs]
    rename_i k p hc
    split at hs <;> [skip; cases hs]
    rename_i proc hp
    obtain ⟨x, hx, hkey⟩ := h.forked k p (mem_of_getElem? hc)
    cases hp.symm.trans hx
    split at hs <;> cases hs
    · exact h.ends hc hp (.inl (by rw [hkey])) nofun
    · rename_i hnone
      exact h.registers hc hp hkey hnone rfl
  | stop ref =>
    split at hs <;> cases hs
    · rename_i href
      exact h.removes href
    · exact hbegins _ nofun
  | signal i =>
    (repeat' split at hs) <;> cases hs
    rename_i hc _ _ hp
    exact h.ends hc hp (.inr rfl) nofun

/-- The numbers of the references stay within an `int` as long as fewer than `2 ^ 63` processes have
come to be registered. -/
theorem nextRef_lt {tr : List Move} (hrun : machine.Run new tr s)
    (hfew : tr.countP (· matches .register _) < 2 ^ 63) : s.nextRef < 2 ^ 63 := by
  have hle : s.nextRef ≤ tr.countP (· matches .register _) := by
    refine hrun.traced (P := fun tr s => s.nextRef ≤ tr.countP (· matches .register _))
      (Nat.zero_le _) fun tr s m s' hle hstep => ?_
    rw [countP_append, countP_singleton]
    simp only [machine, Local.step] at hstep
    (repeat' split at hstep) <;> cases hstep <;> simp <;> omega
  omega

/-- Steps other than stopping the task that is placed under `k`. -/
def leaves (k : GoString) (s : State) (m : Move) : Prop :=
  ∀ ref ∈ s.byKey k, m ≠ .stop ref

instance (k : GoString) (s : State) (m : Move) : Decidable (leaves k s m) :=
  inferInstanceAs (Decidable (∀ ref ∈ s.byKey k, _))

/-- What calls have returned for `k` is what stands under it. -/
def Answered (k : GoString) (s : State) : Prop :=
  ∀ ref, .returned k ref ∈ s.calls → s.byKey k = some ref

/-- Until it is stopped, what stands under a key is what every call for it returns. -/
theorem Answered.step {k : GoString} (h : Answered k s) {m : Move}
    (hs : Local.step s m = some s') (hm : leaves k s m) : Answered k s' := by
  have hkept : ∀ ref, s.byKey k = some ref → s'.byKey k = some ref := by
    intro ref hk
    simp only [Local.step] at hs
    (repeat' split at hs) <;> cases hs <;> try exact hk
    · rename_i k' _ _ _ _ _ _ hnone
      have hne : k ≠ k' := fun heq => by rw [heq, hnone] at hk; cases hk
      exact (update_of_ne hne _ _).trans hk
    · exact (if_neg fun heq => hm _ heq rfl).trans hk
  intro ref hmem
  have hnew : .returned k ref ∈ s.calls ∨ s'.byKey k = some ref := by
    simp only [Local.step] at hs
    (repeat' split at hs) <;> cases hs <;> grind [mem_or_eq_of_mem_set]
  exact hnew.elim (fun hold => hkept ref (h ref hold)) id

/-- What is asked of the driver: at rest one process at most goes on for a key, and the maps name
each other's entries. -/
structure OnePerKey (s : State) : Prop where
  single : (∀ c ∈ s.calls, c.inProgress = false) →
    ∀ (p q : Nat) x y, s.procs[p]? = some x → s.procs[q]? = some y → x.ended = false →
      y.ended = false → x.key = y.key → p = q
  named : ∀ k ref, s.byKey k = some ref → (s.byRef ref).isSome = true
  keyed : ∀ ref, (s.byRef ref).isSome = true → ∃! k, s.byKey k = some ref

theorem Sound.onePerKey (h : Sound s) : OnePerKey s where
  single hrest := by
    have hindexed : ∀ (p : Nat) x, s.procs[p]? = some x → x.ended = false →
        ∃ ref, s.byKey x.key = some ref ∧ s.byRef ref = some p := by
      intro p x hx hlive
      rcases h.owned p x hx hlive with hindex | hfork | hstop
      · exact hindex
      · exact absurd (hrest _ hfork) nofun
      · exact absurd (hrest _ hstop) nofun
    intro p q x y hx hy hxlive hylive hkey
    obtain ⟨r, hk, hr⟩ := hindexed p x hx hxlive
    obtain ⟨r', hk', hr'⟩ := hindexed q y hy hylive
    rw [hkey, hk'] at hk
    cases hk
    rw [hr] at hr'
    exact Option.some.inj hr'
  named k ref hk := by
    obtain ⟨p, proc, href, -⟩ := h.byKey k ref hk
    rw [href]
    rfl
  keyed ref href := by
    obtain ⟨p, hp⟩ := Option.isSome_iff_exists.mp href
    obtain ⟨k, hk⟩ := h.byRef ref p hp
    refine ⟨k, hk, fun k' hk' => ?_⟩
    obtain ⟨q, x, hq, hx, rfl⟩ := h.byKey k ref hk
    obtain ⟨q', x', hq', hx', rfl⟩ := h.byKey k' ref hk'
    cases hq.symm.trans hq'
    cases hx.symm.trans hx'
    rfl

/-- In every interleaving one process at most is left for a key when all calls have returned, and
the calls for a key whose task is not stopped return one reference. -/
theorem one_supervisor_per_placement {tr : List Move} (hrun : machine.Run new tr s) :
    OnePerKey s ∧ ∀ k, (machine.restrict (leaves k)).Run new tr s → ∀ ref ref',
      .returned k ref ∈ s.calls → .returned k ref' ∈ s.calls → ref = ref' := by
  have hsound : Sound s := hrun.invariant (fun _ _ _ h hstep => h.step hstep) sound_new
  refine ⟨hsound.onePerKey, fun k hk ref ref' hret hret' => ?_⟩
  have hanswered : Answered k s := hk.invariant
    (fun _ _ _ h hstep => h.step (Lts.restrict_step hstep).2 (Lts.restrict_step hstep).1)
    (by simp [Answered, new])
  exact Option.some.inj ((hanswered ref hret).symm.trans (hanswered ref' hret'))

/-- Two calls fork for one key, and a task of another one is started and stopped. -/
def demoMoves : List Move :=
  [.start "api" 1, .start "api" 1, .fork 0 (some 7), .fork 1 (some 8), .register 1,
    .start "web" 1, .register 0, .fork 2 (some 9), .register 2, .stop (refOf 2 9), .signal 3]

theorem one_supervisor_per_placement_demoMoves : ∃ s, machine.Run new demoMoves s ∧ OnePerKey s ∧
    s.procs.map (·.ended) = [true, false, true] ∧
    s.calls.countP (· matches .returned _ _) = 3 ∧
    ∀ ref, .returned (idempotencyKey "api" 1) ref ∈ s.calls → ref = refOf 1 8 := by
  let others := machine.restrict (leaves (idempotencyKey "api" 1))
  have hleaves : others.Run new demoMoves ((others.exec new demoMoves).get (by decide)) :=
    Lts.exec_run (Option.some_get _).symm
  have hrun := hleaves.of_restrict
  refine ⟨_, hrun, (one_supervisor_per_placement hrun).1, by decide, by decide, fun ref hret => ?_⟩
  exact (one_supervisor_per_placement hrun).2 _ hleaves ref _ hret (by decide)

end Lemul.Driver.Local
