import Lemul.Attach.Output
import Lemul.PtySession.Proofs.Delivery
import Lemul.PtySession.Proofs.ModeChanges

/-!
# Every attach gets its seed

Three limits have to agree: a snapshot is one chunk of the queue, of as many bytes as the ring
holds (`session.go:240-242`); the queue holds 4 MiB (`session.go:30`); and a chunk becomes one
frame, of at most 1 MiB (`tunnel/frame.go:24`). The prelude and what is read from the PTY are
short. So it all depends on the size of the ring, for which `-ring` takes any number.
-/

namespace Lemul.Attach

open PtySession List ModeTracker

/-! ## How long a seed is -/

theorem length_renderMode {x : Int × Bool} (hlow : -2 ^ 63 ≤ x.1) (hhigh : x.1 < 2 ^ 63) :
    (ModeTracker.renderMode x).length ≤ 24 := by
  have hlen := length_formatInt hlow hhigh
  rw [renderMode_eq]
  simp only [length_append, length_cons, length_nil]
  omega

theorem length_remembered {of : GoString → Option GoString} {seq : GoString}
    (h : ModeTracker.Remembered of seq) : seq.length ≤ maxPartial + 1 := by
  rcases h with rfl | ⟨hwhole, -⟩
  · exact Nat.zero_le _
  · exact hwhole.length_le

/-- A prelude is no longer than 64 modes and two keyboard protocols. -/
theorem length_prelude {m : ModeTracker} (h : m.Tracked) :
    m.prelude.length ≤ maxTrackedModes * 24 + 2 * (maxPartial + 1) := by
  have hmodes : (m.listed.flatMap renderMode).length ≤ m.listed.length * 24 :=
    length_flatMap_le fun x hx => length_renderMode (h.listed_range hx).1 (h.listed_range hx).2
  have hfew := Nat.mul_le_mul_right 24 h.listed_few
  have hother := length_remembered h.modOther
  have hkitty := length_remembered h.kitty
  have hlength : m.prelude.length = (m.listed.flatMap renderMode).length +
      m.modOther.length + m.kitty.length := by
    unfold prelude
    rw [length_append, length_append]
    rfl
  omega

/-- Whatever a program wrote, the prelude that describes its modes is bounded, and it describes
itself: a terminal that has obeyed it has the same prelude. -/
theorem prelude_round_trip (p : GoString) :
    (new.feed (new.feed p).prelude).prelude = (new.feed p).prelude ∧
      (new.feed p).prelude.length ≤ maxTrackedModes * 24 + 2 * (maxPartial + 1) := by
  have h : (new.feed p).Tracked := tracked_new.feed p
  refine ⟨?_, length_prelude h⟩
  have hkept : (new.feed p).listed.filter (fun x => !transientMode x.1) = (new.feed p).listed := by
    refine filter_eq_self.mpr fun x hx => ?_
    exact (mem_filter.mp ((perm_insertionSort _ _).mem_iff.mp hx)).2
  have hsorted : (new.feed p).listed.insertionSort (fun x y => x.1 ≤ y.1) = (new.feed p).listed :=
    (pairwise_insertionSort _ _).insertionSort_eq
  rw [h.feed_prelude]
  unfold ModeTracker.prelude
  rw [hkept, hsorted]
  rfl

/-- A snapshot is no longer than the ring. -/
theorem length_snapshot (r : Ring) : r.snapshot.length ≤ r.limit := by
  have htotal : ∀ cs : List Chunk, ((cs.dropWhile (fun c => !c.cleanStart)).flatMap
      (fun c => c.b)).length ≤ Chunk.total cs := by
    intro cs
    induction cs with
    | nil => exact Nat.zero_le _
    | cons c cs ih =>
      rw [Chunk.total_cons]
      cases hclean : c.cleanStart with
      | false =>
        rw [dropWhile_cons_of_pos (by rw [hclean]; rfl)]
        omega
      | true =>
        rw [dropWhile_cons_of_neg (by rw [hclean]; decide), flatMap_cons,
          length_append, length_flatMap]
        rfl
  have hbytes := htotal r.chunks
  rw [← r.bytes_eq] at hbytes
  exact Nat.le_trans hbytes r.bytes_le

variable {ringBytes : Int} {s : Session} {l : PtySession.Label}

theorem limit_run {tr : List PtySession.Label} (h : session.Run (newSession ringBytes) tr s) :
    s.ring.limit = (Ring.new ringBytes).limit := by
  refine h.invariant (I := fun s => s.ring.limit = (Ring.new ringBytes).limit) ?_ rfl
  intro s l s' hlimit hstep
  cases step_rule hstep <;> exact hlimit

/-- A seed that is not too long is queued in whole chunks. -/
theorem seeded_queue (readOnly : Bool)
    (h : s.modes.prelude.length + s.ring.snapshot.length ≤ Attachment.defaultQueueBytes) :
    (s.seeded readOnly).closed = false ∧ (s.seeded readOnly).q = seedOf s := by
  have hpush : ∀ (a : Attachment) (p : GoString), a.closed = false →
      a.queued + p.length ≤ a.limit → (a.push p).closed = false ∧
        (a.push p).q = a.q ++ [p].filter (· ≠ []) ∧ (a.push p).limit = a.limit ∧
        (a.push p).queued = a.queued + p.length := by
    intro a p hopen hfits
    by_cases hp : p = []
    · subst hp
      rw [Attachment.push_nil]
      exact ⟨hopen, (append_nil _).symm, rfl, rfl⟩
    · obtain ⟨hq, hclosed, hlimit, hqueued⟩ := Attachment.push_fits hopen hp hfits
      refine ⟨hclosed, ?_, hlimit, hqueued⟩
      rw [hq, filter_cons_of_pos (by simpa using hp), filter_nil]
  let fresh := Attachment.new readOnly Attachment.defaultQueueBytes
  have hlimit : fresh.limit = Attachment.defaultQueueBytes := rfl
  have hqueued : fresh.queued = 0 := rfl
  obtain ⟨hopen, hq, hlimit', hqueued'⟩ := hpush fresh s.modes.prelude rfl (by omega)
  obtain ⟨hopen', hq', -, -⟩ := hpush _ s.ring.snapshot hopen (by omega)
  refine ⟨hopen', ?_⟩
  have hfresh : fresh.q = [] := rfl
  unfold Session.seeded
  rw [hq', hq, hfresh, nil_append]
  exact (filter_append [s.modes.prelude] [s.ring.snapshot]).symm

/-! ## The goroutine -/

/-- How the goroutine of attachment `id`, which is `a`, stands after the steps `tr`. -/
structure Serving (seed : List GoString) (id : Nat) (tr : List PtySession.Label) (s : Session)
    (o : OutputStream) (a : Attachment) : Prop where
  short : ∀ p rest, s.holder = .delivering p rest → p.length ≤ maxFrame
  running : o.loop ≠ .failed
  framed : ∃ fs : List Frame, o.wire = fs.flatMap frames.encode ∧
    (∀ f ∈ fs, f.typ = frameData) ∧ fs.map Frame.payload = takenBy id tr
  queue : ∀ p ∈ a.q, p.length ≤ maxFrame
  order : a.closed = false → seed <+: takenBy id tr ++ a.q

/-- What is read from the PTY fits into a frame. -/
theorem short_step {s' : Session}
    (h : ∀ p rest, s.holder = .delivering p rest → p.length ≤ maxFrame)
    (hstep : session.step s l = some s') :
    ∀ p rest, s'.holder = .delivering p rest → p.length ≤ maxFrame := by
  cases step_rule hstep with
  | @read q order hfree hreading hperm =>
    intro p rest heq
    cases heq
    simp only [session, Session.step] at hstep
    split at hstep
    · rename_i hguard
      exact Nat.le_trans hguard.2.2.2.1 (by decide)
    · cases hstep
  | push hholder =>
    intro p rest heq
    cases heq
    exact h _ _ hholder
  | unlock | finish | close | finished =>
    intro p rest heq
    cases heq
  | _ => exact h

theorem takenBy_concat (id : Nat) (tr : List PtySession.Label) (l : PtySession.Label) :
    takenBy id (tr ++ [l]) = takenBy id tr ++ (takenChunk id l).toList := by
  unfold takenBy
  rw [filterMap_append]
  cases h : takenChunk id l <;> simp [h]

theorem takenChunk_none {id : Nat} (h : ∀ r, l ≠ .next id r) :
    takenChunk id l = none := by
  unfold takenChunk
  split
  · rename_i i p
    exact if_neg fun hi => h (.bytes p) (by rw [hi])
  · rfl

section Steps

variable {seed : List GoString} {id : Nat} {tr : List PtySession.Label} {s s' : Session}
  {o : OutputStream} {a a' : Attachment} {l : PtySession.Label}

/-- A step in which the goroutine takes nothing. -/
theorem Serving.of_other (h : Serving seed id tr s o a) (hstep : session.step s l = some s')
    (hother : ∀ r, l ≠ .next id r) (hqueue : ∀ p ∈ a'.q, p.length ≤ maxFrame)
    (horder : a'.closed = false → seed <+: takenBy id tr ++ a'.q) :
    Serving seed id (tr ++ [l]) s' o a' := by
  have htaken : takenBy id (tr ++ [l]) = takenBy id tr := by
    rw [takenBy_concat, takenChunk_none hother]
    exact append_nil _
  exact ⟨short_step h.short hstep, h.running, htaken ▸ h.framed, hqueue, htaken ▸ horder⟩

theorem Serving.of_push (h : Serving seed id tr s o a) {p : GoString} {rest : List Nat}
    (hholder : s.holder = .delivering p (id :: rest)) :
    (∀ c ∈ (a.push p).q, c.length ≤ maxFrame) ∧
      ((a.push p).closed = false → seed <+: takenBy id tr ++ (a.push p).q) := by
  rcases a.push_queue p with ⟨hq | hq, hclosed⟩ | ⟨hq, hclosed⟩
  · rw [hq, hclosed]
    exact ⟨h.queue, h.order⟩
  · rw [hq, hclosed, ← append_assoc]
    refine ⟨fun c hc => ?_, fun hopen => (h.order hopen).trans (prefix_append _ _)⟩
    rcases mem_concat.mp hc with hc | rfl
    · exact h.queue c hc
    · exact h.short _ _ hholder
  · rw [hq, hclosed]
    exact ⟨nofun, nofun⟩

/-- The goroutine takes a chunk and writes a frame. -/
theorem Serving.of_bytes (h : Serving seed id tr s o a) {p : GoString}
    (hstep : session.step s (.next id (.bytes p)) = some s')
    (hnext : a.next = some (.bytes p, a')) :
    Serving seed id (tr ++ [.next id (.bytes p)]) s' (o.onNext (.bytes p)) a' := by
  obtain ⟨hq, hclosed, -⟩ := Attachment.next_bytes hnext
  have htaken : takenBy id (tr ++ [.next id (.bytes p)]) = takenBy id tr ++ [p] := by
    rw [takenBy_concat]
    simp [takenChunk]
  have hfits : ¬maxFrame < p.length := Nat.not_lt.mpr (h.queue p (hq ▸ mem_cons_self))
  obtain ⟨buffers, hbuffers⟩ : ∃ buffers, writeFrame frameData p = .ok buffers := by
    unfold writeFrame
    rw [if_neg hfits]
    split <;> exact ⟨_, rfl⟩
  obtain ⟨f, htyp, hpayload, hflat⟩ := writeFrame_ok hbuffers
  have honNext : o.onNext (.bytes p) = { o with wire := o.wire ++ buffers.flatten } := by
    simp only [OutputStream.onNext, hbuffers]
  obtain ⟨fs, hwire, hdata, hpayloads⟩ := h.framed
  rw [honNext]
  refine ⟨short_step h.short hstep, h.running, ⟨fs ++ [f], ?_, ?_, ?_⟩, ?_, ?_⟩
  · rw [flatMap_append, flatMap_singleton, ← hwire, ← hflat]
  · intro g hg
    rcases mem_concat.mp hg with hg | rfl
    · exact hdata g hg
    · exact htyp
  · rw [htaken, map_append, hpayloads, map_singleton, hpayload]
  · exact fun c hc => h.queue c (hq ▸ mem_cons_of_mem _ hc)
  · intro hopen
    rw [htaken, append_assoc, singleton_append, ← hq]
    exact h.order (hclosed ▸ hopen)

theorem serving_step {o' : OutputStream} (hmade : s.made[id]? = some a)
    (h : Serving seed id tr s o a) (hserved : (served id).step (s, o) l = some (s', o')) :
    ∃ a', s'.made[id]? = some a' ∧ Serving seed id (tr ++ [l]) s' o' a' := by
  obtain ⟨hstep, hloop⟩ := served_step hserved
  obtain ⟨a', hmade', htouches⟩ := step_touches hmade hstep
  refine ⟨a', hmade', ?_⟩
  rcases hloop with ⟨hother, rfl⟩ | ⟨r, rfl, -, rfl⟩
  · cases htouches with
    | same => exact h.of_other hstep hother h.queue h.order
    | push hholder =>
      obtain ⟨hqueue, horder⟩ := h.of_push hholder
      exact h.of_other hstep hother hqueue horder
    | close =>
      refine h.of_other hstep hother ?_ ?_
      · rw [Attachment.close_q]
        exact h.queue
      · rw [Attachment.close_closed]
        exact nofun
    | next => exact absurd rfl (hother _)
  · cases htouches with
    | same hother | close hother => exact absurd rfl (hother r)
    | next hnext =>
      cases r with
      | bytes p => exact h.of_bytes hstep hnext
      | closed reason =>
        obtain ⟨-, -, -, rfl⟩ := Attachment.next_closed hnext
        have htaken : takenBy id (tr ++ [.next id (.closed reason)]) = takenBy id tr := by
          rw [takenBy_concat]
          exact append_nil _
        refine ⟨short_step h.short hstep, nofun, ?_, h.queue, ?_⟩
        · rw [htaken]
          exact h.framed
        · rw [htaken]
          exact h.order

end Steps

/-! ## The size of the ring -/

/-- With a ring of no more than a frame every attach gets its seed. -/
theorem getsSeed_of_le (hring : ringBytes ≤ maxFrame) {tr₀ : List PtySession.Label}
    {s₀ s₁ : Session} {readOnly : Bool}
    (hbefore : session.Run (newSession ringBytes) tr₀ s₀)
    (hattach : session.step s₀ (.attach readOnly) = some s₁) : GetsSeed s₀ s₁ := by
  have hsnapshot : s₀.ring.snapshot.length ≤ maxFrame := by
    refine Nat.le_trans (length_snapshot s₀.ring) ?_
    rw [limit_run hbefore]
    simp only [Ring.new]
    split
    · decide
    · omega
  have hprelude : s₀.modes.prelude.length ≤ maxTrackedModes * 24 + 2 * (maxPartial + 1) :=
    length_prelude (run_recorded hbefore).1
  have hsum : maxTrackedModes * 24 + 2 * (maxPartial + 1) + maxFrame ≤
      Attachment.defaultQueueBytes := by decide
  obtain ⟨hopen, hq⟩ :=
    seeded_queue readOnly (Nat.le_trans (Nat.add_le_add hprelude hsnapshot) hsum)
  have hstart : s₁.made[s₀.made.length]? = some (s₀.seeded readOnly) ∧ s₁.holder = .free := by
    cases step_rule hattach with
    | attach hfree => exact ⟨by simp, hfree⟩
  have hserving : Serving (seedOf s₀) s₀.made.length [] s₁ .new (s₀.seeded readOnly) := by
    refine ⟨fun p rest heq => ?_, by simp [OutputStream.new], ⟨[], rfl, by simp, rfl⟩,
      fun p hp => ?_, fun _ => ?_⟩
    · cases hstart.2.symm.trans heq
    · rw [hq] at hp
      rcases mem_cons.mp (mem_of_mem_filter hp) with rfl | hp
      · exact Nat.le_trans hprelude (by decide)
      · rw [mem_singleton.mp hp]
        exact hsnapshot
    · rw [hq]
      exact prefix_refl _
  have hall : ∀ tr s o, (served s₀.made.length).Run (s₁, .new) tr (s, o) →
      ∃ a, s.made[s₀.made.length]? = some a ∧ Serving (seedOf s₀) s₀.made.length tr s o a := by
    intro tr s o hrun
    refine hrun.traced (P := fun tr x => ∃ a, x.1.made[s₀.made.length]? = some a ∧
      Serving (seedOf s₀) s₀.made.length tr x.1 x.2 a) ⟨_, hstart.1, hserving⟩ ?_
    rintro tr ⟨s, o⟩ l ⟨s', o'⟩ ⟨a, hmade, h⟩ hstep
    exact serving_step hmade h hstep
  refine ⟨fun a ha => ?_, fun tr s o hrun => ?_, fun tr s o hrun => ?_,
    fun tr s o hrun a ha hopen' hempty => ?_⟩
  · cases hstart.1.symm.trans ha
    exact hopen
  · obtain ⟨a, -, h⟩ := hall tr s o hrun
    exact h.running
  · obtain ⟨a, -, h⟩ := hall tr s o hrun
    exact h.framed
  · obtain ⟨b, hb, h⟩ := hall tr s o hrun
    cases ha.symm.trans hb
    have hprefix := h.order hopen'
    rwa [hempty, append_nil] at hprefix

/-- Text that is read one byte at a time. -/
def letters : Nat → List PtySession.Label
  | 0 => []
  | n + 1 => letters n ++ [.read [97] []] ++ [.unlock]

/-- A session with nothing but that text. -/
structure Typed (limit n : Nat) (s : Session) : Prop where
  modes : s.modes = .new
  made : s.made = []
  attachments : s.attachments = []
  holder : s.holder = .free
  reader : s.reader = .reading
  exited : s.exited = false
  limit_eq : s.ring.limit = limit
  bytes : s.ring.bytes = n
  chunks : s.ring.chunks = List.replicate n ⟨[97], true⟩

/-- All of it stays in a ring that is large enough. -/
theorem typed_run {n : Nat} (hn : n ≤ (Ring.new ringBytes).limit) :
    ∃ s, session.Run (newSession ringBytes) (letters n) s ∧
      Typed (Ring.new ringBytes).limit n s := by
  induction n with
  | zero => exact ⟨_, .nil, ⟨rfl, rfl, rfl, rfl, rfl, rfl, rfl, rfl, rfl⟩⟩
  | succ n ih =>
    obtain ⟨s, hrun, h⟩ := ih (Nat.le_of_succ_le hn)
    have hroom : s.ring.bytes + ([97] : GoString).length ≤ s.ring.limit := by
      rw [h.bytes, h.limit_eq]
      exact hn
    obtain ⟨hchunks, hbytes⟩ := Ring.push_of_le hroom s.modes.atBoundary
    have hperm : ([] : List Nat).Perm s.attachments := by rw [h.attachments]
    have hread : session.step s (.read [97] []) = some { s with
        modes := s.modes.feed [97]
        ring := s.ring.push [97] s.modes.atBoundary
        holder := .delivering [97] [] } :=
      if_pos ⟨h.holder, h.reader, by decide, by decide, hperm⟩
    refine ⟨_, .snoc (.snoc hrun hread) rfl, ?_, h.made, h.attachments, rfl, h.reader, h.exited,
      h.limit_eq, ?_, ?_⟩
    · rw [h.modes]
      rfl
    · rw [hbytes, h.bytes]
      rfl
    · rw [hchunks, h.chunks, h.modes, replicate_succ']
      rfl

theorem Typed.snapshot {limit n : Nat} (h : Typed limit n s) :
    s.ring.snapshot = List.replicate n 97 := by
  have hclean : ∀ k, (replicate k (⟨[97], true⟩ : Chunk)).dropWhile
      (fun c => !c.cleanStart) = replicate k ⟨[97], true⟩ := by
    intro k
    cases k with
    | zero | succ k => rfl
  unfold Ring.snapshot
  rw [h.chunks, hclean]
  rw [flatMap_replicate, flatten_replicate_singleton]

/-- A ring that is larger than a frame can hold a snapshot that the goroutine stops at. -/
theorem overlong_snapshot (hring : maxFrame < ringBytes) :
    ∃ s₀ s₁, session.Run (newSession ringBytes) (letters (maxFrame + 1)) s₀ ∧
      session.step s₀ (.attach false) = some s₁ ∧ ¬GetsSeed s₀ s₁ := by
  have hlimit : maxFrame + 1 ≤ (Ring.new ringBytes).limit := by
    simp only [Ring.new]
    split
    · omega
    · omega
  obtain ⟨s, hrun, h⟩ := typed_run hlimit
  have hlength : s.ring.snapshot.length = maxFrame + 1 := by
    rw [h.snapshot, length_replicate]
  have hprelude : s.modes.prelude = [] := by
    rw [h.modes]
    rfl
  have hseed : seedOf s = [s.ring.snapshot] := by
    have hne : s.ring.snapshot ≠ [] := fun hnil => by
      rw [hnil] at hlength
      cases hlength
    unfold seedOf
    rw [hprelude]
    simp [hne]
  obtain ⟨-, hq⟩ := seeded_queue (s := s) false (by
    rw [hprelude, hlength]
    decide)
  rw [hseed] at hq
  obtain ⟨a', hnext⟩ := Attachment.next_of_cons hq
  have hattach : session.step s (.attach false) = some { s with
      made := s.made ++ [s.seeded false]
      attachments := s.attachments ++ [s.made.length] } := if_pos ⟨h.holder, h.exited⟩
  refine ⟨s, _, hrun, hattach, fun hgets => ?_⟩
  have hmade : (s.made ++ [s.seeded false])[s.made.length]? = some (s.seeded false) := by simp
  refine hgets.goes_on _ _ _ (.snoc .nil (served_next hmade hnext rfl)) (onNext_overlong ?_)
  rw [hlength]
  exact Nat.lt_succ_self _

/-- Whatever the output and whenever a client attaches, it gets its seed and what follows,
exactly if the ring is no larger than a frame. -/
theorem attach_gets_seed_iff (ringBytes : Int) :
    (∀ tr₀ s₀ readOnly s₁, session.Run (newSession ringBytes) tr₀ s₀ →
      session.step s₀ (.attach readOnly) = some s₁ → GetsSeed s₀ s₁) ↔
      ringBytes ≤ maxFrame := by
  constructor
  · intro hall
    by_contra hlarge
    obtain ⟨s₀, s₁, hbefore, hattach, hnot⟩ := overlong_snapshot (Int.not_le.mp hlarge)
    exact hnot (hall _ s₀ false s₁ hbefore hattach)
  · intro hring tr₀ s₀ readOnly s₁ hbefore hattach
    exact getsSeed_of_le hring hbefore hattach

/-- A ring of 2 MiB. -/
theorem attach_loses_seed : ∃ s₀ s₁,
    session.Run (newSession (2 * 2 ^ 20)) (letters (maxFrame + 1)) s₀ ∧
      session.step s₀ (.attach false) = some s₁ ∧ ¬GetsSeed s₀ s₁ :=
  overlong_snapshot (by decide)

end Lemul.Attach
