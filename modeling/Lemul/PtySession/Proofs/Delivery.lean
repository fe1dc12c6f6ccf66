import Lemul.Misc.Lists
import Lemul.PtySession.Session

/-!
# Attached output is faithful

What `Next` has returned to a client, what is queued for it and what is still to be pushed
to it together are the bytes the attachment was seeded with and everything the reader has
read since (`Faithful.live`), as long as the attachment is open and registered. Closing
cuts the sequence off; only the end of the session closes an attachment that is owed
nothing.
-/

namespace Lemul.PtySession

open Session List Option

/-- The bytes a step returned from `Next` on attachment `id`. -/
def returned (id : Nat) : Label → GoString
  | .next i (.bytes p) => if i = id then p else []
  | _ => []

/-- The bytes a step read from the PTY. -/
def readBytes : Label → GoString
  | .read p _ => p
  | _ => []

/-- All the bytes `Next` on attachment `id` returned in a run. -/
def returnedBy (id : Nat) (tr : List Label) : GoString := tr.flatMap (returned id)

/-- All the output that was read in a run. -/
def readBy (tr : List Label) : GoString := tr.flatMap readBytes

@[simp] theorem returnedBy_append (id : Nat) (tr tr' : List Label) :
    returnedBy id (tr ++ tr') = returnedBy id tr ++ returnedBy id tr' := flatMap_append

@[simp] theorem readBy_append (tr tr' : List Label) :
    readBy (tr ++ tr') = readBy tr ++ readBy tr' := flatMap_append

@[simp] theorem returnedBy_singleton (id : Nat) (l : Label) :
    returnedBy id [l] = returned id l := by simp [returnedBy]

@[simp] theorem readBy_singleton (l : Label) : readBy [l] = readBytes l := by simp [readBy]

/-! ## The locks -/

/-- Who is registered, who is still to be visited, and when. -/
structure Locked (s : Session) : Prop where
  nodup : s.attachments.Nodup
  made : ∀ id ∈ s.attachments, id < s.made.length
  delivering : ∀ p rest, s.holder = .delivering p rest →
    rest.Nodup ∧ (∀ id ∈ rest, id ∈ s.attachments) ∧ s.reader = .reading
  finishing : ∀ rest, s.holder = .finishing rest →
    rest.Nodup ∧ (∀ id ∈ rest, id ∈ s.attachments) ∧ s.reader = .waiting ∧ s.exited = true
  exited : s.exited = true → s.reader ≠ .reading

theorem locked_new (ringBytes : Int) : Locked (newSession ringBytes) where
  nodup := .nil
  made := nofun
  delivering p rest h := by cases h
  finishing rest h := by cases h
  exited h := by cases h

variable {s s' : Session} {seed : GoString} {id : Nat} {tr : List Label} {a : Attachment}
  {l : Label}

/-- With the mutex free nobody is still to be visited. -/
theorem Locked.of_free (hfree : s.holder = .free) (hnodup : s.attachments.Nodup)
    (hmade : ∀ id ∈ s.attachments, id < s.made.length)
    (hexited : s.exited = true → s.reader ≠ .reading) : Locked s where
  nodup := hnodup
  made := hmade
  delivering p rest h := by
    cases hfree.symm.trans h
  finishing rest h := by
    cases hfree.symm.trans h
  exited := hexited

theorem locked_step (s : Session) (l : Label) (s' : Session) (h : Locked s)
    (hstep : session.step s l = some s') : Locked s' := by
  cases step_rule hstep with
  | read hfree hreading hperm =>
    refine ⟨h.nodup, h.made, ?_, ?_, h.exited⟩
    · intro q rest heq
      cases heq
      exact ⟨hperm.nodup_iff.mpr h.nodup, fun id hid => hperm.mem_iff.mp hid, hreading⟩
    · exact nofun
  | @push p id rest hholder =>
    obtain ⟨hnodup, hsub, hreading⟩ := h.delivering p (id :: rest) hholder
    refine ⟨h.nodup, ?_, ?_, ?_, h.exited⟩
    · intro i hi
      rw [length_modify]
      exact h.made i hi
    · intro q rest' heq
      cases heq
      exact ⟨(nodup_cons.mp hnodup).2, fun i hi => hsub i (mem_cons_of_mem _ hi),
        hreading⟩
    · exact nofun
  | unlock hholder => exact .of_free rfl h.nodup h.made h.exited
  | eof hfree hreading =>
    refine .of_free hfree h.nodup h.made ?_
    exact nofun
  | finish hfree hwaiting hperm =>
    refine ⟨h.nodup, h.made, ?_, ?_, ?_⟩
    · intro p rest heq
      cases heq
    · intro rest heq
      cases heq
      exact ⟨hperm.nodup_iff.mpr h.nodup, fun id hid => hperm.mem_iff.mp hid, hwaiting, rfl⟩
    · intro _ hreader
      cases hwaiting.symm.trans hreader
  | @close id rest hholder =>
    obtain ⟨hnodup, hsub, hwaiting, hexited⟩ := h.finishing (id :: rest) hholder
    refine ⟨h.nodup, ?_, ?_, ?_, h.exited⟩
    · intro i hi
      rw [length_modify]
      exact h.made i hi
    · intro p rest' heq
      cases heq
    · intro rest' heq
      cases heq
      exact ⟨(nodup_cons.mp hnodup).2, fun i hi => hsub i (mem_cons_of_mem _ hi),
        hwaiting, hexited⟩
  | finished hholder =>
    refine .of_free rfl .nil ?_ ?_
    · exact nofun
    · exact nofun
  | attach hfree =>
    refine .of_free hfree ?_ ?_ h.exited
    · refine nodup_append.mpr ⟨h.nodup, nodup_singleton _, ?_⟩
      intro i hi j hj heq
      rw [mem_singleton.mp hj] at heq
      exact absurd (h.made i hi) (by omega)
    · intro i hi
      rw [length_append, length_singleton]
      rcases mem_concat.mp hi with hold | rfl
      · exact Nat.lt_succ_of_lt (h.made i hold)
      · exact Nat.lt_succ_self _
  | delete hfree =>
    refine .of_free hfree (h.nodup.filter _) ?_ h.exited
    intro i hi
    exact h.made i (mem_of_mem_filter hi)
  | detached =>
    refine ⟨h.nodup, ?_, h.delivering, h.finishing, h.exited⟩
    intro i hi
    rw [length_modify]
    exact h.made i hi
  | next hmade hnext =>
    refine ⟨h.nodup, ?_, h.delivering, h.finishing, h.exited⟩
    intro i hi
    rw [length_set]
    exact h.made i hi

/-! ## One attachment -/

/-- What attachment `id` is still to be given by the fan-out in progress. -/
def owed (s : Session) (id : Nat) : GoString :=
  match s.holder with
  | .delivering p rest => if id ∈ rest then p else []
  | _ => []

theorem owed_of_free (h : s.holder = .free) (id : Nat) : owed s id = [] := by
  simp [owed, h]

/-- How attachment `a`, number `id`, stands in state `s` after the steps `tr` since it was
made and seeded with `seed`. -/
structure Faithful (seed : GoString) (id : Nat) (tr : List Label) (s : Session)
    (a : Attachment) : Prop where
  /-- Open and registered: nothing is missing. -/
  live : a.closed = false → id ∈ s.attachments →
    returnedBy id tr ++ a.q.flatten ++ owed s id = seed ++ readBy tr
  sofar : returnedBy id tr ++ a.q.flatten <+: seed ++ readBy tr
  overflow : a.closed = true → a.reason = .overflow → a.q = []
  ended : a.closed = true → a.reason = .sessionEnded →
    s.exited = true ∧ returnedBy id tr ++ a.q.flatten = seed ++ readBy tr

/-- A step that neither reads nor returns anything to this client is as good as none. -/
theorem Faithful.silent (h : Faithful seed id tr s a) (hread : readBytes l = [])
    (hreturned : returned id l = []) : Faithful seed id (tr ++ [l]) s a := by
  have htr : returnedBy id (tr ++ [l]) = returnedBy id tr := by simp [hreturned]
  have hout : readBy (tr ++ [l]) = readBy tr := by simp [hread]
  refine ⟨?_, ?_, h.overflow, ?_⟩ <;> rw [htr, hout]
  · exact h.live
  · exact h.sofar
  · exact h.ended

/-- A change that does not touch the attachment. -/
theorem Faithful.of_same (h : Faithful seed id tr s a) (howed : owed s' id = owed s id)
    (hreg : id ∈ s'.attachments → id ∈ s.attachments)
    (hexited : s.exited = true → s'.exited = true) : Faithful seed id tr s' a := by
  refine ⟨fun hopen hmem => ?_, h.sofar, h.overflow, fun hclosed hreason => ?_⟩
  · rw [howed]
    exact h.live hopen (hreg hmem)
  · exact ⟨hexited (h.ended hclosed hreason).1, (h.ended hclosed hreason).2⟩

/-- A closed attachment waits for nothing. -/
theorem Faithful.of_closed (h : Faithful seed id tr s a) (hclosed : a.closed = true)
    (hexited : s'.exited = s.exited) : Faithful seed id tr s' a := by
  refine ⟨fun hopen => ?_, h.sofar, h.overflow, hexited ▸ h.ended⟩
  cases hclosed.symm.trans hopen

section Attachments

variable {s : Session} {id i : Nat} {a : Attachment} {f : Attachment → Attachment}

theorem made_modify_self (h : s.made[id]? = some a) : (s.made.modify id f)[id]? = some (f a) := by
  simp [h]

theorem made_modify_ne (hne : i ≠ id) (h : s.made[id]? = some a) :
    (s.made.modify i f)[id]? = some a := by
  simp [hne, h]

end Attachments

section Step

variable {seed p : GoString} {id : Nat} {tr : List Label} {s s' : Session} {a a' : Attachment}
variable {rest order : List Nat}

/-- A chunk that is read becomes owed to everyone who is registered. -/
theorem Faithful.read (h : Faithful seed id tr s a) (hlock : Locked s)
    (hfree : s.holder = .free) (hreading : s.reader = .reading)
    (hperm : order.Perm s.attachments) (hreg : s'.attachments = s.attachments)
    (hholder : s'.holder = .delivering p order) :
    Faithful seed id (tr ++ [.read p order]) s' a := by
  have htr : returnedBy id (tr ++ [.read p order]) = returnedBy id tr := by simp [returned]
  have hout : readBy (tr ++ [.read p order]) = readBy tr ++ p := by simp [readBytes]
  constructor
  · intro hopen hmem
    rw [hreg] at hmem
    have hbefore := h.live hopen hmem
    have howed : owed s' id = p := by simp [owed, hholder, hperm.mem_iff.mpr hmem]
    rw [owed_of_free hfree, append_nil] at hbefore
    rw [htr, hout, howed, hbefore, append_assoc]
  · rw [htr, hout, ← append_assoc]
    exact h.sofar.trans (prefix_append _ _)
  · exact h.overflow
  · intro hclosed hreason
    exact absurd hreading (hlock.exited (h.ended hclosed hreason).1)

/-- The push of the chunk that is being fanned out, to the attachment itself. -/
theorem Faithful.push (h : Faithful seed id tr s a) (hlock : Locked s)
    (hholder : s.holder = .delivering p (id :: rest)) (hholder' : s'.holder = .delivering p rest)
    (hexited : s'.exited = s.exited) :
    Faithful seed id tr s' (a.push p) := by
  obtain ⟨hnodup, hsub, -⟩ := hlock.delivering p (id :: rest) hholder
  have howed : owed s id = p := by simp [owed, hholder]
  have howed' : owed s' id = [] := by simp [owed, hholder', (nodup_cons.mp hnodup).1]
  cases hclosed : a.closed with
  | true =>
    rw [Attachment.push_of_closed hclosed]
    exact h.of_closed hclosed hexited
  | false =>
    have hwhole := h.live hclosed (hsub id mem_cons_self)
    rw [howed] at hwhole
    rcases Attachment.push_cases (p := p) hclosed with ⟨hopen, hq⟩ | ⟨hclosed', hreason, hq⟩
    · constructor
      · intro _ _
        rw [howed', hq, append_nil, ← append_assoc, hwhole]
      · rw [hq, ← append_assoc, hwhole]
      · intro hclosed'
        cases hopen.symm.trans hclosed'
      · intro hclosed'
        cases hopen.symm.trans hclosed'
    · constructor
      · intro hopen
        cases hclosed'.symm.trans hopen
      · -- what was queued is dropped, so only what was returned counts
        rw [hq, flatten_nil, append_nil]
        exact (prefix_append _ _).trans h.sofar
      · exact fun _ _ => hq
      · intro _ hended
        cases hreason.symm.trans hended

/-- Closing the attachment, at the end of the session or by a `Detach`. -/
theorem Faithful.close {reason : CloseReason} (h : Faithful seed id tr s a)
    (hexited : s'.exited = s.exited) (hreason : reason ≠ .overflow)
    (hended : reason = .sessionEnded → s.exited = true ∧ id ∈ s.attachments ∧ owed s id = []) :
    Faithful seed id tr s' (a.close reason) := by
  cases hclosed : a.closed with
  | true =>
    rw [Attachment.close_of_closed hclosed]
    exact h.of_closed hclosed hexited
  | false =>
    constructor
    · intro hopen
      rw [Attachment.close_closed] at hopen
      cases hopen
    · rw [Attachment.close_q]
      exact h.sofar
    · intro _ hoverflow
      rw [Attachment.close_reason hclosed] at hoverflow
      exact absurd hoverflow hreason
    · intro _ hsession
      rw [Attachment.close_reason hclosed] at hsession
      obtain ⟨hexit, hmem, howed⟩ := hended hsession
      have hwhole := h.live hclosed hmem
      rw [howed, append_nil] at hwhole
      rw [hexited, Attachment.close_q]
      exact ⟨hexit, hwhole⟩

/-- `Next` moves the head of the queue to the client. -/
theorem Faithful.next {r : NextResult} (h : Faithful seed id tr s a)
    (hnext : a.next = some (r, a')) (howed : owed s' id = owed s id)
    (hreg : s'.attachments = s.attachments) (hexited : s'.exited = s.exited) :
    Faithful seed id (tr ++ [.next id r]) s' a' := by
  have hout : readBy (tr ++ [.next id r]) = readBy tr := by simp [readBytes]
  cases r with
  | closed reason =>
    obtain ⟨-, -, -, rfl⟩ := Attachment.next_closed hnext
    exact (h.silent rfl rfl).of_same howed (fun hmem => hreg ▸ hmem) fun hexit => hexited ▸ hexit
  | bytes p =>
    obtain ⟨hq, hclosed, hreason⟩ := Attachment.next_bytes hnext
    have htr : returnedBy id (tr ++ [.next id (.bytes p)]) ++ a'.q.flatten =
        returnedBy id tr ++ a.q.flatten := by simp [returned, hq]
    constructor
    · intro hopen hmem
      rw [htr, hout, howed]
      exact h.live (hclosed ▸ hopen) (hreg ▸ hmem)
    · rw [htr, hout]
      exact h.sofar
    · intro hclosed' hoverflow
      have hempty := h.overflow (hclosed ▸ hclosed') (hreason ▸ hoverflow)
      cases hq.symm.trans hempty
    · intro hclosed' hsession
      rw [htr, hout, hexited]
      exact h.ended (hclosed ▸ hclosed') (hreason ▸ hsession)

end Step

/-- Every step of the session keeps every attachment faithful. -/
theorem faithful_step (hlock : Locked s) (hmade : s.made[id]? = some a)
    (h : Faithful seed id tr s a) (hstep : session.step s l = some s') :
    ∃ a', s'.made[id]? = some a' ∧ Faithful seed id (tr ++ [l]) s' a' := by
  cases step_rule hstep with
  | read hfree hreading hperm => exact ⟨a, hmade, h.read hlock hfree hreading hperm rfl rfl⟩
  | @push p i rest hholder =>
    by_cases hi : i = id
    · subst hi
      exact ⟨a.push p, made_modify_self hmade, (h.silent rfl rfl).push hlock hholder rfl rfl⟩
    · have howed : (if id ∈ rest then p else []) = owed s id := by
        simp [owed, hholder, Ne.symm hi]
      exact ⟨a, made_modify_ne hi hmade, (h.silent rfl rfl).of_same howed (fun hmem => hmem)
        (fun hexit => hexit)⟩
  | unlock hholder =>
    have howed : owed s id = [] := by simp [owed, hholder]
    exact ⟨a, hmade, (h.silent rfl rfl).of_same howed.symm (fun hmem => hmem) (fun hexit => hexit)⟩
  | eof hfree hreading =>
    exact ⟨a, hmade, (h.silent rfl rfl).of_same rfl (fun hmem => hmem) (fun hexit => hexit)⟩
  | finish hfree hwaiting hperm =>
    have howed : owed s id = [] := owed_of_free hfree id
    exact ⟨a, hmade, (h.silent rfl rfl).of_same howed.symm (fun hmem => hmem) (fun _ => rfl)⟩
  | @close i rest hholder =>
    have howed : owed s id = [] := by simp [owed, hholder]
    by_cases hi : i = id
    · subst hi
      obtain ⟨-, hsub, -, hexited⟩ := hlock.finishing (i :: rest) hholder
      refine ⟨a.close .sessionEnded, made_modify_self hmade, (h.silent rfl rfl).close rfl ?_ ?_⟩
      · exact nofun
      · exact fun _ => ⟨hexited, hsub i mem_cons_self, howed⟩
    · exact ⟨a, made_modify_ne hi hmade, (h.silent rfl rfl).of_same howed.symm (fun hmem => hmem)
        (fun hexit => hexit)⟩
  | finished hholder =>
    have howed : owed s id = [] := by simp [owed, hholder]
    refine ⟨a, hmade, (h.silent rfl rfl).of_same howed.symm ?_ (fun hexit => hexit)⟩
    exact nofun
  | attach hfree =>
    have hlt : id < s.made.length := (List.getElem?_eq_some_iff.mp hmade).1
    refine ⟨a, ?_, (h.silent rfl rfl).of_same rfl ?_ (fun hexit => hexit)⟩
    · rw [getElem?_append_left hlt]
      exact hmade
    · intro hmem
      rcases mem_concat.mp hmem with hold | hnew
      · exact hold
      · exact absurd hnew (Nat.ne_of_lt hlt)
  | delete hfree =>
    exact ⟨a, hmade, (h.silent rfl rfl).of_same rfl mem_of_mem_filter (fun hexit => hexit)⟩
  | @detached i =>
    by_cases hi : i = id
    · subst hi
      refine ⟨a.close .detached, made_modify_self hmade, (h.silent rfl rfl).close rfl ?_ ?_⟩
      · exact nofun
      · exact nofun
    · exact ⟨a, made_modify_ne hi hmade, (h.silent rfl rfl).of_same rfl (fun hmem => hmem)
        (fun hexit => hexit)⟩
  | @next i r b b' hother hnext =>
    by_cases hi : i = id
    · subst hi
      cases hmade.symm.trans hother
      refine ⟨b', ?_, h.next hnext rfl rfl rfl⟩
      rw [getElem?_set_self (List.getElem?_eq_some_iff.mp hmade).1]
    · refine ⟨a, ?_, (h.silent rfl ?_).of_same rfl (fun hmem => hmem) (fun hexit => hexit)⟩
      · rw [getElem?_set_ne hi]
        exact hmade
      · cases r <;> simp [returned, hi]

/-! ## From the attach on -/

/-- Seeding queues the prelude and the snapshot, or overflows. -/
theorem seeded_cases (s : Session) (readOnly : Bool) :
    (s.seeded readOnly).closed = false ∧
        (s.seeded readOnly).q.flatten = s.modes.prelude ++ s.ring.snapshot ∨
      (s.seeded readOnly).closed = true ∧ (s.seeded readOnly).reason = .overflow ∧
        (s.seeded readOnly).q = [] := by
  have hnew : (Attachment.new readOnly Attachment.defaultQueueBytes).closed = false := rfl
  rcases Attachment.push_cases (p := s.modes.prelude) hnew with ⟨hopen, hq⟩ | hoverflow
  · rcases Attachment.push_cases (p := s.ring.snapshot) hopen with ⟨hopen', hq'⟩ | hoverflow
    · rw [hq] at hq'
      exact .inl ⟨hopen', hq'⟩
    · exact .inr hoverflow
  · right
    unfold seeded
    rw [Attachment.push_of_closed hoverflow.1]
    exact hoverflow

theorem faithful_seeded {readOnly : Bool} (hholder : s'.holder = .free) :
    Faithful (s.modes.prelude ++ s.ring.snapshot) id [] s' (s.seeded readOnly) := by
  have htr : returnedBy id [] = [] := rfl
  have hout : readBy [] = [] := rfl
  rcases seeded_cases s readOnly with ⟨hopen, hq⟩ | ⟨hclosed, hreason, hq⟩
  · constructor
    · intro _ _
      rw [htr, hout, hq, owed_of_free hholder]
      simp
    · rw [htr, hout, hq, append_nil]
      exact prefix_refl _
    · intro hclosed
      cases hopen.symm.trans hclosed
    · intro hclosed
      cases hopen.symm.trans hclosed
  · constructor
    · intro hopen
      cases hclosed.symm.trans hopen
    · rw [htr, hq]
      exact nil_prefix
    · exact fun _ _ => hq
    · intro _ hended
      cases hreason.symm.trans hended

theorem locked_run (h : session.Run s tr s')
    (hlock : Locked s) : Locked s' := h.invariant locked_step hlock

theorem faithful_run (hrun : session.Run s tr s') (hlock : Locked s) (hmade : s.made[id]? = some a)
    (h : Faithful seed id [] s a) :
    ∃ a', s'.made[id]? = some a' ∧ Faithful seed id tr s' a' := by
  have hall : Locked s' ∧ ∃ a', s'.made[id]? = some a' ∧ Faithful seed id tr s' a' := by
    refine hrun.traced
      (P := fun tr t => Locked t ∧ ∃ b, t.made[id]? = some b ∧ Faithful seed id tr t b)
      ⟨hlock, a, hmade, h⟩ ?_
    rintro tr mid l last ⟨hmid, b, hb, hfaithful⟩ hstep
    exact ⟨locked_step mid l last hmid hstep, faithful_step hmid hb hfaithful hstep⟩
  exact hall.2

/-- What an attach makes, and how it stands from then on. -/
theorem attached_run {s₀ s₁ : Session} {readOnly : Bool} (hlock : Locked s₀)
    (hattach : session.step s₀ (.attach readOnly) = some s₁)
    (hrun : session.Run s₁ tr s) :
    ∃ a, s.made[s₀.made.length]? = some a ∧
      Faithful (s₀.modes.prelude ++ s₀.ring.snapshot) s₀.made.length tr s a := by
  have hlock₁ : Locked s₁ := locked_step _ _ _ hlock hattach
  cases step_rule hattach with
  | attach hfree =>
    have hmade : (s₀.made ++ [s₀.seeded readOnly])[s₀.made.length]? =
        some (s₀.seeded readOnly) := by simp
    exact faithful_run hrun hlock₁ hmade (faithful_seeded hfree)

/-! ## After the end -/

/-- A closed and empty attachment stays as it is, and `Next` has no bytes for it. -/
theorem drained_step (hmade : s.made[id]? = some a) (hclosed : a.closed = true) (hq : a.q = [])
    (hstep : session.step s l = some s') :
    s'.made[id]? = some a ∧ ∀ p, l ≠ .next id (.bytes p) := by
  obtain ⟨a', hmade', htouches⟩ := step_touches hmade hstep
  cases htouches with
  | same hother => exact ⟨hmade', fun p => hother (.bytes p)⟩
  | push hholder =>
    rw [Attachment.push_of_closed hclosed] at hmade'
    exact ⟨hmade', nofun⟩
  | close hother =>
    rw [Attachment.close_of_closed hclosed] at hmade'
    exact ⟨hmade', fun p => hother (.bytes p)⟩
  | @next r _ hnext =>
    cases r with
    | bytes p =>
      rw [(Attachment.next_bytes hnext).1] at hq
      cases hq
    | closed reason =>
      obtain ⟨-, -, -, rfl⟩ := Attachment.next_closed hnext
      exact ⟨hmade', nofun⟩

theorem drained_run (hrun : session.Run s tr s') (hmade : s.made[id]? = some a)
    (hclosed : a.closed = true)
    (hq : a.q = []) (p : GoString) : .next id (.bytes p) ∉ tr := by
  have hall : s'.made[id]? = some a ∧ ∀ p, .next id (.bytes p) ∉ tr := by
    refine hrun.traced
      (P := fun tr t => t.made[id]? = some a ∧ ∀ p, .next id (.bytes p) ∉ tr)
      ⟨hmade, nofun⟩ ?_
    rintro tr mid l last ⟨hmid, hbefore⟩ hstep
    obtain ⟨hlast, hl⟩ := drained_step hmid hclosed hq hstep
    refine ⟨hlast, ?_⟩
    intro p hmem
    rcases mem_concat.mp hmem with hold | hnew
    · exact hbefore p hold
    · exact hl p hnew.symm
  exact hall.2 p

/-- Nothing is read once the session has exited. -/
theorem exited_step (hlock : Locked s) (hexited : s.exited = true)
    (hstep : session.step s l = some s') : s'.exited = true ∧ readBytes l = [] := by
  cases step_rule hstep with
  | read hfree hreading hperm => exact absurd hreading (hlock.exited hexited)
  | _ => exact ⟨by first | exact hexited | rfl, rfl⟩

theorem exited_run (hrun : session.Run s tr s') (hlock : Locked s)
    (hexited : s.exited = true) : readBy tr = [] := by
  have hall : Locked s' ∧ s'.exited = true ∧ readBy tr = [] := by
    refine hrun.traced (P := fun tr t => Locked t ∧ t.exited = true ∧ readBy tr = [])
      ⟨hlock, hexited, rfl⟩ ?_
    rintro tr mid l last ⟨hmid, hexit, hread⟩ hstep
    obtain ⟨hlast, hl⟩ := exited_step hmid hexit hstep
    refine ⟨locked_step mid l last hmid hstep, hlast, ?_⟩
    rw [readBy_append, readBy_singleton, hread, hl]
    rfl
  exact hall.2.2

/-- The state in which `Next` reported the end, and why it did. -/
theorem closed_at {reason : CloseReason}
    (hstep : session.step s (.next id (.closed reason)) = some s') :
    ∃ a, s.made[id]? = some a ∧ a.closed = true ∧ a.reason = reason ∧ a.q = [] := by
  cases step_rule hstep with
  | @next _ _ a a' hmade hnext =>
    obtain ⟨hq, hclosed, hreason, -⟩ := Attachment.next_closed hnext
    exact ⟨a, hmade, hclosed, hreason, hq⟩

/-! ## Attached output -/

/-- Attached output is faithful. Whatever a session did before a client attached and
whatever happens after: what `Next` has returned is a first part of the mode prelude, the
ring's snapshot and the output read since the attach; it is all of that, up to the child's
exit, when `Next` reports the end of the session; no bytes follow a report of an overflow;
and every attachment's counter is the length of its queue and within the limit. -/
theorem attached_output_faithful {ringBytes : Int} {tr₀ tr : List Label} {s₀ s₁ s : Session}
    {readOnly : Bool} (hbefore : session.Run (newSession ringBytes) tr₀ s₀)
    (hattach : session.step s₀ (.attach readOnly) = some s₁) (hrun : session.Run s₁ tr s) :
    returnedBy s₀.made.length tr <+: s₀.modes.prelude ++ s₀.ring.snapshot ++ readBy tr ∧
    (∀ tr₁ tr₂, tr = tr₁ ++ .next s₀.made.length (.closed .sessionEnded) :: tr₂ →
      returnedBy s₀.made.length tr₁ = s₀.modes.prelude ++ s₀.ring.snapshot ++ readBy tr) ∧
    (∀ tr₁ tr₂, tr = tr₁ ++ .next s₀.made.length (.closed .overflow) :: tr₂ →
      ∀ p, .next s₀.made.length (.bytes p) ∉ tr₂) ∧
    (∀ a ∈ s.made, a.queued = queueBytes a.q ∧ a.queued ≤ a.limit) := by
  have hlock₀ : Locked s₀ := locked_run hbefore (locked_new ringBytes)
  have hlock₁ : Locked s₁ := locked_step _ _ _ hlock₀ hattach
  refine ⟨?_, ?_, ?_, ?_⟩
  · obtain ⟨a, -, hfaithful⟩ := attached_run hlock₀ hattach hrun
    exact (prefix_append _ _).trans hfaithful.sofar
  · rintro tr₁ tr₂ rfl
    obtain ⟨mid, hto, hfrom⟩ := hrun.split
    obtain ⟨a, hmade, hfaithful⟩ := attached_run hlock₀ hattach hto
    obtain ⟨mid', hstep, -⟩ := hfrom.first_step
    obtain ⟨b, hmade', hclosed, hreason, hq⟩ := closed_at hstep
    cases hmade.symm.trans hmade'
    obtain ⟨hexited, hwhole⟩ := hfaithful.ended hclosed hreason
    rw [hq, flatten_nil, append_nil] at hwhole
    rw [readBy_append, exited_run hfrom (locked_run hto hlock₁) hexited, append_nil]
    exact hwhole
  · rintro tr₁ tr₂ rfl p
    obtain ⟨mid, hto, hfrom⟩ := hrun.split
    obtain ⟨mid', hstep, hrest⟩ := hfrom.first_step
    obtain ⟨a, hmade, hclosed, -, hq⟩ := closed_at hstep
    exact drained_run hrest (drained_step hmade hclosed hq hstep).1 hclosed hq p
  · exact fun a _ => ⟨a.queued_eq, a.queued_le⟩

/-- A session that has lost its first output when a client attaches, and that ends. -/
def scrolled : List Label :=
  [.read "abc" [], .unlock, .read "\x1b[?25l" [], .unlock, .read "de" [], .unlock]

/-- The client reads along, and to the end. -/
def followed : List Label :=
  [.read "f" [0], .next 0 (.bytes "\x1b[?25l"), .push, .unlock, .eof,
    .finish 0 [0], .next 0 (.bytes "de"), .close, .finished, .next 0 (.bytes "f"),
    .next 0 (.closed .sessionEnded)]

def scrolledState : Session :=
  ((session.exec (newSession 4) scrolled).get (by decide +kernel))

def attachedState : Session := (session.step scrolledState (.attach true)).get (by decide +kernel)

def followedState : Session := (session.exec attachedState followed).get (by decide +kernel)

theorem attached_output_faithful_followed :
    session.Run (newSession 4) scrolled scrolledState ∧
    session.step scrolledState (.attach true) = some attachedState ∧
    session.Run attachedState followed followedState ∧
    returnedBy 0 followed = scrolledState.modes.prelude ++ scrolledState.ring.snapshot ++
      readBy followed := by
  have hbefore : session.Run (newSession 4) scrolled scrolledState :=
    Lts.exec_run (some_get _).symm
  have hattach : session.step scrolledState (.attach true) = some attachedState :=
    (some_get _).symm
  have hrun : session.Run attachedState followed followedState :=
    Lts.exec_run (some_get _).symm
  exact ⟨hbefore, hattach, hrun,
    (attached_output_faithful hbefore hattach hrun).2.1 followed.dropLast [] (by decide +kernel)⟩

end Lemul.PtySession
