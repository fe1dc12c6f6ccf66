import Lemul.Misc.Lists
import Lemul.Misc.Lts
import Lemul.Registry

/-!
# Waiting for a task to dial in

`AddWorkspace`, `RemoveWorkspace`, `PickWorkspace` and `WaitWorkspace`
(`internal/registry/registry.go:129-222`) in any interleaving. What a call does under the mutex
is one step; between its steps come those of other calls. `AddWorkspace` notifies the waiters it
has taken after it has released the mutex, one after the other, while they may be giving up.

`ch <- t; close(ch)` is one step: the channel is used by its own `WaitWorkspace` call only, which
reads it once. A receive from a closed channel that is empty returns a nil tunnel.
-/

namespace Lemul.Registry

open List Function Option

/-- The channel of a call: made with room for one tunnel, and closed once it was sent. -/
inductive Chan where
  | empty
  | holding (t : Tunnel)
  | drained
  deriving DecidableEq, Repr

/-- How far a `WaitWorkspace` call has got. -/
inductive Phase where
  /-- It returned a tunnel that was registered. -/
  | found (t : Tunnel)
  /-- It is in the `select`. -/
  | waiting
  /-- The `select` took `ctx.Done()`; its channel is not removed yet. -/
  | cancelled
  | received (t : Option Tunnel)
  | gaveUp
  deriving DecidableEq, Repr

/-- Between queueing its channel and removing it. -/
def Phase.inside : Phase → Bool
  | .waiting | .cancelled => true
  | _ => false

/-- What was done to the registered tunnels. -/
inductive Event where
  | added (t : Tunnel)
  | removed (t : Tunnel)
  deriving DecidableEq, Repr

/-- A `WaitWorkspace` call. `since` is how much had been done when it looked for a tunnel. -/
structure Wait where
  key : WsKey
  since : Nat
  chan : Chan
  phase : Phase
  deriving DecidableEq, Repr

/-- An `AddWorkspace` call that has released the mutex, and the channels it has yet to notify. -/
structure Adding where
  tunnel : Tunnel
  left : List Nat
  deriving DecidableEq, Repr

/-- The registry and the calls; the channel of `waits[i]` has the number `i`. -/
structure Hall where
  registry : Registry
  waits : List Wait
  adds : List Adding
  log : List Event

inductive Move where
  | add (t : Tunnel)
  | notify (i : Nat)
  | remove (t : Tunnel)
  | wait (k : WsKey)
  | receive (i : Nat)
  | cancel (i : Nat)
  | leave (i : Nat)
  deriving DecidableEq, Repr

namespace Hall

def start : Hall := ⟨new, [], [], []⟩

/-- One step of one call. -/
def step (s : Hall) : Move → Option Hall
  | .add t =>
      some { s with
        registry := (s.registry.addWorkspace t).2
        adds := s.adds ++ [⟨t, (s.registry.addWorkspace t).1⟩]
        log := s.log ++ [.added t] }
  | .notify i =>
      match s.adds[i]? with
      | some ⟨t, ch :: left⟩ =>
          match s.waits[ch]? with
          | some w =>
              -- a send to a full channel blocks
              if w.chan = .empty then
                some { s with
                  waits := s.waits.set ch { w with chan := .holding t }
                  adds := s.adds.set i ⟨t, left⟩ }
              else none
          | none => none
      | _ => none
  | .remove t =>
      some { s with registry := s.registry.removeWorkspace t, log := s.log ++ [.removed t] }
  | .wait k =>
      match s.registry.pickWorkspace k with
      | some t => some { s with waits := s.waits ++ [⟨k, s.log.length, .empty, .found t⟩] }
      | none =>
          some { s with
            registry := s.registry.addWaiter k s.waits.length
            waits := s.waits ++ [⟨k, s.log.length, .empty, .waiting⟩] }
  | .receive i =>
      match s.waits[i]? with
      | some ⟨k, since, .holding t, .waiting⟩ =>
          some { s with waits := s.waits.set i ⟨k, since, .drained, .received (some t)⟩ }
      | some ⟨k, since, .drained, .waiting⟩ =>
          some { s with waits := s.waits.set i ⟨k, since, .drained, .received none⟩ }
      | _ => none
  | .cancel i =>
      match s.waits[i]? with
      | some ⟨k, since, chan, .waiting⟩ =>
          some { s with waits := s.waits.set i ⟨k, since, chan, .cancelled⟩ }
      | _ => none
  | .leave i =>
      match s.waits[i]? with
      | some ⟨k, since, chan, .cancelled⟩ =>
          some { s with
            registry := s.registry.removeWaiter k i
            waits := s.waits.set i ⟨k, since, chan, .gaveUp⟩ }
      | _ => none

def machine : Lts Hall Move := ⟨step⟩

end Hall

/-! ## What was added -/

/-- The tunnel an event adds for `k`. -/
def Event.adds (k : WsKey) : Event → Option Tunnel
  | .added t => if t.key = k then some t else none
  | .removed _ => none

/-- The first tunnel that was added for the key of a call after the call looked. -/
def Wait.next (w : Wait) (log : List Event) : Option Tunnel :=
  (log.drop w.since).findSome? (Event.adds w.key)

/-- The tunnels that were added for `k` and not removed afterwards, the newest last. -/
def standing (k : WsKey) : List Event → List Tunnel
  | [] => []
  | .added t :: log =>
      if t.key = k ∧ .removed t ∉ log then t :: standing k log else standing k log
  | .removed _ :: log => standing k log

theorem next_concat {w : Wait} {log : List Event} (h : w.since ≤ log.length) (e : Event) :
    w.next (log ++ [e]) = (w.next log).or (e.adds w.key) := by
  rw [Wait.next, drop_append_of_le_length h, findSome?_append, findSome?_singleton]
  rfl

theorem next_of_some {w : Wait} {log : List Event} {t : Tunnel} (h : w.since ≤ log.length)
    (hnext : w.next log = some t) (e : Event) : w.next (log ++ [e]) = some t := by
  rw [next_concat h, hnext]
  rfl

theorem key_of_next {w : Wait} {log : List Event} {t : Tunnel} (h : w.next log = some t) :
    t.key = w.key := by
  obtain ⟨e, -, he⟩ := exists_of_findSome?_eq_some h
  cases e with
  | added u =>
    simp only [Event.adds] at he
    split at he <;> cases he
    rename_i hkey
    exact hkey
  | removed u => cases he

theorem standing_added (k : WsKey) (log : List Event) (t : Tunnel) :
    standing k (log ++ [.added t]) = standing k log ++ if t.key = k then [t] else [] := by
  induction log with
  | nil => simp [standing]
  | cons e log ih =>
    cases e with
    | added u =>
      have hmem : Event.removed u ∉ log ++ [.added t] ↔ .removed u ∉ log := by simp
      simp only [cons_append, standing, hmem, ih]
      split <;> rfl
    | removed u => exact ih

theorem standing_removed (k : WsKey) (log : List Event) (t : Tunnel) :
    standing k (log ++ [.removed t]) = (standing k log).filter (fun x => x ≠ t) := by
  induction log with
  | nil => rfl
  | cons e log ih =>
    cases e with
    | added u =>
      have hmem : Event.removed u ∉ log ++ [.removed t] ↔ .removed u ∉ log ∧ u ≠ t := by simp
      simp only [cons_append, standing, hmem, ih]
      by_cases hu : u.key = k ∧ .removed u ∉ log
      · by_cases ht : u = t
        · rw [if_neg (fun h => h.2.2 ht), if_pos hu, filter_cons_of_neg (by simp [ht])]
        · rw [if_pos ⟨hu.1, hu.2, ht⟩, if_pos hu, filter_cons_of_pos (by simp [ht])]
      · rw [if_neg (fun h => hu ⟨h.1, h.2.1⟩), if_neg hu]
    | removed u => exact ih

theorem key_of_mem_standing {k : WsKey} {log : List Event} {t : Tunnel}
    (h : t ∈ standing k log) : t.key = k := by
  induction log with
  | nil => cases h
  | cons e log ih =>
    cases e with
    | added u =>
      simp only [standing] at h
      split at h
      · rename_i hu
        rcases mem_cons.mp h with rfl | hrest
        · exact hu.1
        · exact ih hrest
      · exact ih h
    | removed u => exact ih h

namespace Hall

/-! ## The invariant -/

/-- What the channel of a call may hold. -/
structure ChanFits (w : Wait) (log : List Event) : Prop where
  since_le : w.since ≤ log.length
  fresh : w.next log = none → w.chan = .empty
  holding : ∀ t, w.chan = .holding t → w.next log = some t
  received : ∀ r, w.phase = .received r →
    w.chan = .drained ∧ ∃ t, r = some t ∧ w.next log = some t
  waiting : w.phase = .waiting → w.chan ≠ .drained

theorem ChanFits.concat {w : Wait} {log : List Event} (h : ChanFits w log) (e : Event) :
    ChanFits w (log ++ [e]) where
  since_le := by
    rw [length_append]
    exact Nat.le_add_right_of_le h.since_le
  fresh hfresh := by
    rw [next_concat h.since_le, or_eq_none_iff] at hfresh
    exact h.fresh hfresh.1
  holding t ht := next_of_some h.since_le (h.holding t ht) e
  received r hr := by
    obtain ⟨hdrained, t, rfl, ht⟩ := h.received r hr
    exact ⟨hdrained, t, rfl, next_of_some h.since_le ht e⟩
  waiting := h.waiting

/-- Where the channels are. -/
structure Sound (s : Hall) : Prop where
  registered : ∀ k, s.registry.workspaces k = standing k s.log
  vacant : ∀ k, s.registry.workspaces k ≠ [] → s.registry.waiters k = []
  chans : ∀ (i : Nat) w, s.waits[i]? = some w → ChanFits w s.log
  /-- Queued are the calls for whose key nothing was added since. -/
  queued : ∀ k i, i ∈ s.registry.waiters k ↔
    ∃ w, s.waits[i]? = some w ∧ w.key = k ∧ w.next s.log = none ∧ w.phase.inside = true
  queuedOnce : ∀ k, (s.registry.waiters k).Nodup
  /-- A channel that is to be notified is empty. -/
  pending : ∀ a ∈ s.adds, ∀ i ∈ a.left,
    ∃ w, s.waits[i]? = some w ∧ w.next s.log = some a.tunnel ∧ w.chan = .empty
  pendingOnce : ∀ a ∈ s.adds, a.left.Nodup
  apart : ∀ (i j : Nat) a b, s.adds[i]? = some a → s.adds[j]? = some b →
    ∀ ch ∈ a.left, ch ∈ b.left → i = j
  taken : ∀ (i : Nat) w t, s.waits[i]? = some w → w.phase = .waiting → w.next s.log = some t →
    w.chan = .empty → ∃ a ∈ s.adds, a.tunnel = t ∧ i ∈ a.left

theorem sound_start : Sound start where
  registered k := rfl
  vacant k h := rfl
  chans := nofun
  queued k i := by simp [start, new]
  queuedOnce k := nodup_nil
  pending := nofun
  pendingOnce := nofun
  apart := nofun
  taken := nofun

variable {s s' : Hall}

/-- The first tunnel of a key that calls wait for takes them all. -/
theorem Sound.add (h : Sound s) (t : Tunnel) {s' : Hall} (hs : s.step (.add t) = some s') :
    Sound s' := by
  cases hs
  have hnext : ∀ {i : Nat} {w}, s.waits[i]? = some w → w.next (s.log ++ [.added t]) =
      (w.next s.log).or (if t.key = w.key then some t else none) :=
    fun hw => next_concat (h.chans _ _ hw).since_le _
  have hwaiters : ∀ k, k ≠ t.key → (s.registry.addWorkspace t).2.waiters k =
      s.registry.waiters k := fun k hk => update_of_ne hk _ _
  have hnone : (s.registry.addWorkspace t).2.waiters t.key = [] := update_self _ _ _
  have hdisjoint : ∀ a ∈ s.adds, ∀ i ∈ a.left, i ∉ s.registry.waiters t.key := by
    intro a ha i hi hqueue
    obtain ⟨w, hw, hsome, -⟩ := h.pending a ha i hi
    obtain ⟨w', hw', -, hfresh, -⟩ := (h.queued t.key i).mp hqueue
    cases hw.symm.trans hw'
    cases hsome.symm.trans hfresh
  refine ⟨fun k => ?_, fun k hk => ?_, fun i w hw => (h.chans i w hw).concat _, fun k i => ?_,
    fun k => ?_, ?_, ?_, ?_, ?_⟩
  · rw [standing_added, ← h.registered k]
    by_cases hk : k = t.key
    · subst hk
      simp [addWorkspace]
    · simp [addWorkspace, hk, Ne.symm hk]
  · by_cases hkey : k = t.key
    · rw [hkey, hnone]
    · rw [hwaiters k hkey]
      exact h.vacant k (by simpa [addWorkspace, hkey] using hk)
  · by_cases hk : k = t.key
    · subst hk
      rw [hnone]
      refine ⟨fun hmem => absurd hmem not_mem_nil, ?_⟩
      rintro ⟨w, hw, hkey, hfresh, -⟩
      rw [hnext hw, if_pos hkey.symm, or_some] at hfresh
      cases hfresh
    · rw [hwaiters k hk, h.queued]
      refine exists_congr fun w => and_congr_right fun hw => and_congr_right fun hkey => ?_
      rw [hnext hw, if_neg (fun h => hk (hkey.symm.trans h.symm)), or_none]
  · by_cases hk : k = t.key
    · rw [hk, hnone]
      exact nodup_nil
    · rw [hwaiters k hk]
      exact h.queuedOnce k
  · intro a ha i hi
    rcases mem_concat.mp ha with hold | rfl
    · obtain ⟨w, hw, hsome, hempty⟩ := h.pending a hold i hi
      exact ⟨w, hw, next_of_some (h.chans i w hw).since_le hsome _, hempty⟩
    · obtain ⟨w, hw, hkey, hfresh, -⟩ := (h.queued t.key i).mp hi
      refine ⟨w, hw, ?_, (h.chans i w hw).fresh hfresh⟩
      rw [hnext hw, hfresh, if_pos hkey.symm]
      rfl
  · intro a ha
    rcases mem_concat.mp ha with hold | rfl
    · exact h.pendingOnce a hold
    · exact h.queuedOnce t.key
  · intro i j a b ha hb ch hcha hchb
    rcases of_getElem?_concat ha with ha | ⟨rfl, rfl⟩
    · rcases of_getElem?_concat hb with hb | ⟨rfl, rfl⟩
      · exact h.apart i j a b ha hb ch hcha hchb
      · exact absurd hchb (hdisjoint a (mem_of_getElem? ha) ch hcha)
    · rcases of_getElem?_concat hb with hb | ⟨rfl, rfl⟩
      · exact absurd hcha (hdisjoint b (mem_of_getElem? hb) ch hchb)
      · rfl
  · intro i w u hw hphase hu hempty
    cases hbefore : w.next s.log with
    | some v =>
      rw [hnext hw, hbefore] at hu
      cases hu
      obtain ⟨a, ha, htunnel, hia⟩ := h.taken i w _ hw hphase hbefore hempty
      exact ⟨a, mem_append_left _ ha, htunnel, hia⟩
    | none =>
      rw [hnext hw, hbefore, none_or] at hu
      split at hu <;> cases hu
      rename_i hkey
      refine ⟨_, mem_append_right _ (mem_singleton.mpr rfl), rfl, ?_⟩
      exact (h.queued _ i).mpr ⟨w, hw, hkey.symm, hbefore, by rw [hphase]; rfl⟩

/-- A call leaves the `select` or the registry; its channel is not filled by that. -/
theorem Sound.leaves (h : Sound s) {i : Nat} {w : Wait} (hw : s.waits[i]? = some w)
    (hin : w.phase.inside = true) (chan : Chan) (phase : Phase)
    (hfits : ChanFits { w with chan := chan, phase := phase } s.log) (hout : phase ≠ .waiting)
    (hchan : w.chan = .empty → chan = .empty) {waiters : WsKey → List Nat}
    (hsub : ∀ k, (waiters k).Sublist (s.registry.waiters k))
    (hqueue : ∀ k j, j ∈ waiters k ↔
      j ∈ s.registry.waiters k ∧ (j = i → phase.inside = true)) :
    Sound { s with
      registry := { s.registry with waiters := waiters }
      waits := s.waits.set i { w with chan := chan, phase := phase } } := by
  have hset := getElem?_set_same hw { w with chan := chan, phase := phase }
  refine ⟨h.registered, fun k hk => ?_, fun j x hx => ?_, fun k j => ?_, fun k => ?_,
    fun a ha j hj => ?_, h.pendingOnce, h.apart, fun j x t hx hphase => ?_⟩
  · exact sublist_nil.mp (h.vacant k hk ▸ hsub k)
  · rcases of_getElem?_set hx with ⟨rfl, rfl⟩ | ⟨-, hx⟩
    · exact hfits
    · exact h.chans j x hx
  · rw [hqueue, h.queued]
    by_cases hj : j = i
    · subst hj
      rw [hset, hw]
      simp only [Option.some.injEq, exists_eq_left', Wait.next, hin, and_true, true_implies,
        and_assoc]
    · simp only [getElem?_set_ne (Ne.symm hj), hj, false_implies, and_true]
  · exact (h.queuedOnce k).sublist (hsub k)
  · obtain ⟨x, hx, hsome, hempty⟩ := h.pending a ha j hj
    by_cases hji : j = i
    · subst hji
      cases hw.symm.trans hx
      exact ⟨_, hset, hsome, hchan hempty⟩
    · exact ⟨x, by rw [getElem?_set_ne (Ne.symm hji), hx], hsome, hempty⟩
  · rcases of_getElem?_set hx with ⟨rfl, rfl⟩ | ⟨-, hx⟩
    · exact absurd hphase hout
    · exact h.taken j x t hx hphase

/-- `AddWorkspace` sends to the next of the channels it has taken. -/
theorem Sound.notify (h : Sound s) {i ch : Nat} {t : Tunnel} {left : List Nat} {w : Wait}
    (hadd : s.adds[i]? = some ⟨t, ch :: left⟩) (hw : s.waits[ch]? = some w) :
    Sound { s with
      waits := s.waits.set ch { w with chan := .holding t }
      adds := s.adds.set i ⟨t, left⟩ } := by
  have hset := getElem?_set_same hw { w with chan := .holding t }
  obtain ⟨x, hx, hsome, hempty⟩ := h.pending _ (mem_of_getElem? hadd) ch mem_cons_self
  cases hw.symm.trans hx
  have hlist : ∀ a ∈ s.adds.set i ⟨t, left⟩, ch ∉ a.left ∧ a.left.Nodup ∧
      ∃ b ∈ s.adds, b.tunnel = a.tunnel ∧ a.left ⊆ b.left := by
    intro a ha
    obtain ⟨j, hj⟩ := mem_iff_getElem?.mp ha
    rcases of_getElem?_set hj with ⟨-, rfl⟩ | ⟨hji, hj⟩
    · obtain ⟨hch, hleft⟩ := nodup_cons.mp (h.pendingOnce _ (mem_of_getElem? hadd))
      exact ⟨hch, hleft, _, mem_of_getElem? hadd, rfl, fun x hx => mem_cons_of_mem _ hx⟩
    · exact ⟨fun hmem => hji (h.apart j i a _ hj hadd ch hmem mem_cons_self),
        h.pendingOnce a (mem_of_getElem? hj), a, mem_of_getElem? hj, rfl, fun x hx => hx⟩
  refine ⟨h.registered, h.vacant, fun j x hx => ?_, fun k j => ?_, h.queuedOnce,
    fun a ha j hj => ?_, fun a ha => (hlist a ha).2.1, fun j l a b hj hl x hxa hxb => ?_,
    fun j x u hx hphase hu hchan => ?_⟩
  · rcases of_getElem?_set hx with ⟨rfl, rfl⟩ | ⟨-, hx⟩
    · have hold := h.chans j w hw
      refine ⟨hold.since_le, fun hfresh => ?_, ?_, fun r hr => ?_, nofun⟩
      · exact absurd (hfresh.symm.trans hsome) nofun
      · rintro u ⟨⟩
        exact hsome
      · rw [(hold.received r hr).1] at hempty
        cases hempty
    · exact h.chans j x hx
  · rw [h.queued]
    by_cases hj : j = ch
    · subst hj
      rw [hset, hw]
      simp only [Option.some.injEq, exists_eq_left', Wait.next]
    · simp only [getElem?_set_ne (Ne.symm hj)]
  · obtain ⟨hch, -, b, hb, htunnel, hsub⟩ := hlist a ha
    obtain ⟨x, hx, hnext, hfree⟩ := h.pending b hb j (hsub hj)
    have hne : ch ≠ j := fun heq => hch (heq ▸ hj)
    exact ⟨x, by rw [getElem?_set_ne hne, hx], by rw [← htunnel, hnext], hfree⟩
  · rcases of_getElem?_set hj with ⟨rfl, rfl⟩ | ⟨-, hold⟩
    · rcases of_getElem?_set hl with ⟨rfl, rfl⟩ | ⟨-, hother⟩
      · rfl
      · exact h.apart _ _ _ b hadd hother x (mem_cons_of_mem _ hxa) hxb
    · rcases of_getElem?_set hl with ⟨rfl, rfl⟩ | ⟨-, hother⟩
      · exact h.apart _ _ a _ hold hadd x hxa (mem_cons_of_mem _ hxb)
      · exact h.apart j l a b hold hother x hxa hxb
  · rcases of_getElem?_set hx with ⟨rfl, rfl⟩ | ⟨hne, hx⟩
    · cases hchan
    · obtain ⟨b, hb, htunnel, hj⟩ := h.taken j x u hx hphase hu hchan
      obtain ⟨l, hl⟩ := mem_iff_getElem?.mp hb
      by_cases hli : l = i
      · subst hli
        cases hadd.symm.trans hl
        exact ⟨⟨t, left⟩, mem_of_getElem? (getElem?_set_same hadd _), htunnel,
          (mem_cons.mp hj).resolve_left hne⟩
      · exact ⟨b, mem_of_getElem? (by rw [getElem?_set_ne (Ne.symm hli), hl]), htunnel, hj⟩

/-- One more call; its channel is queued if it has to wait. -/
theorem Sound.joins (h : Sound s) {k : WsKey} {phase : Phase} (waiters : WsKey → List Nat)
    (hphase : ∀ r, phase ≠ .received r)
    (hvacant : ∀ k', s.registry.workspaces k' ≠ [] → waiters k' = [])
    (hqueue : ∀ k' i, i ∈ waiters k' ↔ i ∈ s.registry.waiters k' ∨
      i = s.waits.length ∧ k' = k ∧ phase.inside = true)
    (honce : ∀ k', (waiters k').Nodup) :
    Sound { s with
      registry := { s.registry with waiters := waiters }
      waits := s.waits ++ [⟨k, s.log.length, .empty, phase⟩] } := by
  have hnew : (⟨k, s.log.length, .empty, phase⟩ : Wait).next s.log = none := by simp [Wait.next]
  refine ⟨h.registered, hvacant, fun i w hw => ?_, fun k' i => ?_, honce, fun a ha i hi => ?_,
    h.pendingOnce, h.apart, fun i w t hw hwaiting hsome => ?_⟩
  · rcases of_getElem?_concat hw with hold | ⟨-, rfl⟩
    · exact h.chans i w hold
    · exact ⟨Nat.le_refl _, fun _ => rfl, nofun, fun r hr => absurd hr (hphase r), nofun⟩
  · rw [hqueue, h.queued]
    constructor
    · rintro (⟨w, hw, hrest⟩ | ⟨rfl, rfl, hinside⟩)
      · exact ⟨w, getElem?_concat_old hw _, hrest⟩
      · exact ⟨_, getElem?_concat_length, rfl, hnew, hinside⟩
    · rintro ⟨w, hw, hkey, hfresh, hinside⟩
      rcases of_getElem?_concat hw with hold | ⟨rfl, rfl⟩
      · exact .inl ⟨w, hold, hkey, hfresh, hinside⟩
      · exact .inr ⟨rfl, hkey.symm, hinside⟩
  · obtain ⟨w, hw, hrest⟩ := h.pending a ha i hi
    exact ⟨w, getElem?_concat_old hw _, hrest⟩
  · rcases of_getElem?_concat hw with hold | ⟨-, rfl⟩
    · exact h.taken i w t hold hwaiting hsome
    · cases hnew.symm.trans hsome

theorem Sound.wait (h : Sound s) {k : WsKey} (hs : s.step (.wait k) = some s') : Sound s' := by
  simp only [step] at hs
  split at hs <;> cases hs
  · exact h.joins s.registry.waiters nofun h.vacant (by simp [Phase.inside])
      h.queuedOnce
  · rename_i hpick
    have hnone : s.registry.workspaces k = [] := getLast?_eq_none_iff.mp hpick
    have hfresh : s.waits.length ∉ s.registry.waiters k := by
      intro hmem
      obtain ⟨w, hw, -⟩ := (h.queued k _).mp hmem
      exact absurd (List.getElem?_eq_some_iff.mp hw).1 (Nat.lt_irrefl _)
    refine h.joins _ nofun (fun k' hk' => ?_) (fun k' i => ?_) (fun k' => ?_)
    · have hne : k' ≠ k := fun heq => hk' (heq ▸ hnone)
      rw [update_of_ne hne]
      exact h.vacant k' hk'
    · by_cases hk' : k' = k
      · subst hk'
        simp [Phase.inside]
      · simp [hk']
    · by_cases hk' : k' = k
      · subst hk'
        rw [update_self, ← concat_eq_append]
        exact (h.queuedOnce k').concat hfresh
      · rw [update_of_ne hk']
        exact h.queuedOnce k'

theorem Sound.remove (h : Sound s) (t : Tunnel) (hs : s.step (.remove t) = some s') :
    Sound s' := by
  cases hs
  have hnext : ∀ {i : Nat} {w}, s.waits[i]? = some w →
      w.next (s.log ++ [.removed t]) = w.next s.log := fun hw => by
    rw [next_concat (h.chans _ _ hw).since_le, Event.adds, or_none]
  refine ⟨fun k => ?_, fun k hk => ?_, fun i w hw => (h.chans i w hw).concat _, fun k i => ?_,
    h.queuedOnce, fun a ha i hi => ?_, h.pendingOnce, h.apart, fun i w u hw hphase hsome => ?_⟩
  · rw [standing_removed, ← h.registered k]
    by_cases hk : k = t.key
    · subst hk
      simp [removeWorkspace]
    · have hothers : ∀ x ∈ s.registry.workspaces k, x ≠ t := by
        rintro x hx rfl
        rw [h.registered] at hx
        exact hk (key_of_mem_standing hx).symm
      rw [filter_eq_self.mpr (by simpa using hothers)]
      simp [removeWorkspace, hk]
  · refine h.vacant k fun hnil => hk ?_
    by_cases hkey : k = t.key
    · subst hkey
      simp [removeWorkspace, hnil]
    · simp [removeWorkspace, hkey, hnil]
  · refine (h.queued k i).trans (exists_congr fun w => and_congr_right fun hw => ?_)
    rw [hnext hw]
  · obtain ⟨w, hw, hsome, hempty⟩ := h.pending a ha i hi
    exact ⟨w, hw, (hnext hw).trans hsome, hempty⟩
  · exact h.taken i w u hw hphase ((hnext hw).symm.trans hsome)

/-- Every step keeps the channels where they belong. -/
theorem Sound.step (h : Sound s) {m : Move} (hs : s.step m = some s') : Sound s' := by
  cases m with
  | add t => exact h.add t hs
  | remove t => exact h.remove t hs
  | wait k => exact h.wait hs
  | notify i =>
    simp only [Hall.step] at hs
    split at hs
    · rename_i hadd
      split at hs
      · rename_i hw
        split at hs <;> cases hs
        exact h.notify hadd hw
      · cases hs
    · cases hs
  | receive i =>
    simp only [Hall.step] at hs
    split at hs
    · rename_i k since t hw
      cases hs
      have hold := h.chans i _ hw
      have hsome := hold.holding t rfl
      refine h.leaves hw rfl .drained (.received (some t))
        ⟨hold.since_le, fun hfresh => absurd (hfresh.symm.trans hsome) nofun, nofun, ?_, nofun⟩
        nofun nofun (fun k => Sublist.refl _) (fun k j => (and_iff_left_of_imp ?_).symm)
      · rintro r ⟨⟩
        exact ⟨rfl, t, rfl, hsome⟩
      · rintro hj rfl
        obtain ⟨w, hwj, -, hfresh, -⟩ := (h.queued k j).mp hj
        cases hw.symm.trans hwj
        exact absurd (hfresh.symm.trans hsome) nofun
    · rename_i hw
      exact absurd rfl ((h.chans i _ hw).waiting rfl)
    · cases hs
  | cancel i =>
    simp only [Hall.step] at hs
    split at hs <;> cases hs
    rename_i hw
    have hold := h.chans i _ hw
    exact h.leaves hw rfl _ .cancelled
      ⟨hold.since_le, hold.fresh, hold.holding, nofun, nofun⟩ nofun id
      (fun k => Sublist.refl _) (fun k j => (and_iff_left fun _ => rfl).symm)
  | leave i =>
    simp only [Hall.step] at hs
    split at hs <;> cases hs
    rename_i k since chan hw
    have hold := h.chans i _ hw
    refine h.leaves hw rfl chan .gaveUp
      ⟨hold.since_le, hold.fresh, hold.holding, nofun, nofun⟩ nofun id (fun k' => ?_)
      (fun k' j => ?_)
    · by_cases hk : k' = k
      · rw [hk, update_self]
        exact filter_sublist
      · rw [update_of_ne hk]
    · by_cases hk : k' = k
      · subst hk
        simp [Phase.inside]
      · rw [update_of_ne hk]
        refine (and_iff_left_of_imp ?_).symm
        rintro hj rfl
        obtain ⟨w, hwj, hkey, -⟩ := (h.queued k' j).mp hj
        cases hw.symm.trans hwj
        exact absurd hkey.symm hk

/-! ## Waiting is exact -/

/-- What is asked of a state: who waits for a key that has a tunnel, what a call that waits will
receive and what one that has received did, that no call is held up by another one, that nothing
is left of a call that gave up, and what `PickWorkspace` returns. -/
structure Exact (s : Hall) : Prop where
  vacant : ∀ k, s.registry.workspaces k ≠ [] → s.registry.waiters k = []
  waiting : ∀ (i : Nat) w, s.waits[i]? = some w → w.phase = .waiting → w.next s.log = none →
    w.chan = .empty ∧ count i (s.registry.waiters w.key) = 1
  /-- The sends that are under way are enough for it to receive. -/
  delivered : ∀ (i : Nat) w t, s.waits[i]? = some w → w.phase = .waiting →
    w.next s.log = some t → t.key = w.key ∧
      ∃ tr mid last, machine.Run s tr mid ∧ (∀ m ∈ tr, ∃ j, m = .notify j) ∧
        mid.step (.receive i) = some last ∧
        last.waits[i]? = some { w with chan := .drained, phase := .received (some t) }
  received : ∀ (i : Nat) w r, s.waits[i]? = some w → w.phase = .received r →
    w.chan = .drained ∧ (∃ t, r = some t ∧ w.next s.log = some t ∧ t.key = w.key) ∧
      ∀ a ∈ s.adds, i ∉ a.left
  sends : ∀ (i : Nat) a, s.adds[i]? = some a → a.left ≠ [] → (s.step (.notify i)).isSome = true
  gone : ∀ (i : Nat) w, s.waits[i]? = some w → w.phase = .gaveUp →
    ∀ k, i ∉ s.registry.waiters k
  newest : ∀ k, s.registry.pickWorkspace k = (standing k s.log).getLast?

/-- The next send of an `AddWorkspace` call can be made. -/
theorem Sound.notify_step (h : Sound s) {j ch : Nat} {t : Tunnel} {left : List Nat}
    (ha : s.adds[j]? = some ⟨t, ch :: left⟩) : ∃ w s', s.waits[ch]? = some w ∧
      s.step (.notify j) = some s' ∧ s'.adds[j]? = some ⟨t, left⟩ ∧
      s'.waits = s.waits.set ch { w with chan := .holding t } := by
  obtain ⟨w, hw, -, hempty⟩ := h.pending _ (mem_of_getElem? ha) ch mem_cons_self
  have hstep : s.step (.notify j) = some { s with
      waits := s.waits.set ch { w with chan := .holding t }
      adds := s.adds.set j ⟨t, left⟩ } := by
    simp only [Hall.step, ha, hw, hempty, if_true]
  exact ⟨w, _, hw, hstep, getElem?_set_same ha _, rfl⟩

/-- Once the sends before it are made, the tunnel is in the channel. -/
theorem Sound.delivers (h : Sound s) {j i : Nat} {t : Tunnel} {left : List Nat} {w : Wait}
    (ha : s.adds[j]? = some ⟨t, left⟩) (hi : i ∈ left) (hw : s.waits[i]? = some w) :
    ∃ tr mid, machine.Run s tr mid ∧ (∀ m ∈ tr, ∃ j, m = .notify j) ∧
      mid.waits[i]? = some { w with chan := .holding t } := by
  induction left generalizing s with
  | nil => cases hi
  | cons ch left ih =>
    obtain ⟨x, mid, hx, hstep, hadd, hwaits⟩ := h.notify_step ha
    by_cases hch : ch = i
    · subst hch
      cases hw.symm.trans hx
      refine ⟨[.notify j], mid, .cons hstep .nil, ?_, ?_⟩
      · exact fun m hm => ⟨j, mem_singleton.mp hm⟩
      · rw [hwaits]
        exact getElem?_set_same hw _
    · have hsame : mid.waits[i]? = some w := by rw [hwaits, getElem?_set_ne hch, hw]
      obtain ⟨tr, last, hrun, hall, hlast⟩ :=
        ih (h.step hstep) hadd ((mem_cons.mp hi).resolve_left (Ne.symm hch)) hsame
      refine ⟨.notify j :: tr, last, .cons hstep hrun, ?_, hlast⟩
      intro m hm
      rcases mem_cons.mp hm with rfl | hm
      · exact ⟨j, rfl⟩
      · exact hall m hm

theorem Sound.exact (h : Sound s) : Exact s where
  vacant := h.vacant
  waiting i w hw hphase hnone :=
    ⟨(h.chans i w hw).fresh hnone, count_eq_one_of_mem (h.queuedOnce _)
      ((h.queued _ i).mpr ⟨w, hw, rfl, hnone, by rw [hphase]; rfl⟩)⟩
  delivered i w t hw hphase hsome := by
    have hold := h.chans i w hw
    refine ⟨key_of_next hsome, ?_⟩
    obtain ⟨tr, mid, hrun, hall, hmid⟩ : ∃ tr mid, machine.Run s tr mid ∧
        (∀ m ∈ tr, ∃ j, m = .notify j) ∧
        mid.waits[i]? = some { w with chan := .holding t } := by
      cases hchan : w.chan with
      | drained => exact absurd hchan (hold.waiting hphase)
      | holding u =>
        have hsame := hold.holding u hchan
        cases hsome.symm.trans hsame
        exact ⟨[], s, .nil, nofun, by rw [hw, ← hchan]⟩
      | empty =>
        obtain ⟨⟨u, left⟩, ha, rfl, hi⟩ := h.taken i w t hw hphase hsome hchan
        obtain ⟨j, hj⟩ := mem_iff_getElem?.mp ha
        exact h.delivers hj hi hw
    obtain ⟨k, since, chan, phase⟩ := w
    cases hphase
    have hstep : mid.step (.receive i) = some { mid with
        waits := mid.waits.set i ⟨k, since, .drained, .received (some t)⟩ } := by
      simp only [Hall.step, hmid]
    exact ⟨tr, mid, _, hrun, hall, hstep, getElem?_set_same hmid _⟩
  received i w r hw hphase := by
    obtain ⟨hdrained, t, rfl, hsome⟩ := (h.chans i w hw).received r hphase
    refine ⟨hdrained, ⟨t, rfl, hsome, key_of_next hsome⟩, fun a ha hi => ?_⟩
    obtain ⟨x, hx, -, hempty⟩ := h.pending a ha i hi
    cases hw.symm.trans hx
    cases hdrained.symm.trans hempty
  sends i a ha hleft := by
    obtain ⟨t, left⟩ := a
    cases left with
    | nil => exact absurd rfl hleft
    | cons ch left =>
      obtain ⟨w, s', -, hstep, -⟩ := h.notify_step ha
      rw [hstep]
      rfl
  gone i w hw hphase k hi := by
    obtain ⟨x, hx, -, -, hinside⟩ := (h.queued k i).mp hi
    rw [hw] at hx
    cases hx
    rw [hphase] at hinside
    cases hinside
  newest k := by rw [pickWorkspace, h.registered]

/-- Waiting is exact in every interleaving. -/
theorem waiting_exact {tr : List Move} (hrun : machine.Run start tr s) : Exact s :=
  (hrun.invariant (fun _ _ _ h hstep => h.step hstep) sound_start).exact

def demoTunnel : Tunnel := ⟨"t", "acme", "api", 1⟩

/-- Two calls wait, one of them gives up while it is being notified. -/
def demoMoves : List Move :=
  [.wait demoTunnel.key, .wait demoTunnel.key, .cancel 0, .add demoTunnel, .leave 0, .notify 0,
    .notify 0, .receive 1]

theorem waiting_exact_demoMoves : ∃ s, machine.Run start demoMoves s ∧ Exact s ∧
    (s.waits[1]?).map (·.phase) = some (.received (some demoTunnel)) := by
  have hrun : machine.Run start demoMoves ((machine.exec start demoMoves).get (by decide)) :=
    Lts.exec_run (some_get _).symm
  exact ⟨_, hrun, waiting_exact hrun, by decide⟩

end Hall

end Lemul.Registry
