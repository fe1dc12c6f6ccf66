import Lemul.PtySession.Proofs.Delivery
import Lemul.PtySession.Proofs.ModeReplay

/-!
# Where an attached client starts

After the mode prelude a client is given the ring's snapshot and then the live output
(`session.go:236-243`, `:167-177`). The snapshot begins at a chunk that began between two
escape sequences (`ring.go:48-68`). When the ring holds no such chunk there is no snapshot, and
the live output begins wherever the attach happened to be.
-/

namespace Lemul.PtySession

open ModeTracker List Lts Option

/-- The ring is what was read last, with the trackers before and after it. -/
def Retained (tr : List Label) (s : Session) : Prop :=
  ∃ older, readBy tr = older ++ s.ring.chunks.flatMap (fun c => c.b) ∧
    Replays (ModeTracker.new.feed older) s.ring.chunks s.modes

variable {m last : ModeTracker} {cs : List Chunk} {tr : List Label} {s : Session}

/-- Whatever is dropped from the ring joins what is older. -/
theorem Replays.evict_older (limit bytes : Nat) (h : Replays m cs last) :
    ∃ dropped, cs.flatMap (fun c => c.b) =
        dropped ++ (PtySession.evict limit bytes cs).2.flatMap (fun c => c.b) ∧
      Replays (m.feed dropped) (PtySession.evict limit bytes cs).2 last := by
  induction cs generalizing m bytes with
  | nil => exact ⟨[], rfl, h⟩
  | cons c cs ih =>
    unfold PtySession.evict
    split
    · obtain ⟨dropped, hbytes, hreplays⟩ := ih (bytes - c.b.length) h.2
      refine ⟨c.b ++ dropped, ?_, ?_⟩
      · rw [flatMap_cons, hbytes, append_assoc]
      · rwa [feed_append]
    · exact ⟨[], rfl, h⟩

theorem retained_read {s' : Session} {p : GoString} {order : List Nat} (h : Retained tr s)
    (hmodes : s'.modes = s.modes.feed p)
    (hring : s'.ring = s.ring.push p s.modes.atBoundary) :
    Retained (tr ++ [.read p order]) s' := by
  obtain ⟨older, hread, hreplays⟩ := h
  obtain ⟨dropped, hbytes, hkept⟩ := (hreplays.concat p).evict_older
    s.ring.limit (s.ring.bytes + p.length)
  refine ⟨older ++ dropped, ?_, ?_⟩
  · rw [readBy_append, readBy_singleton, hread, append_assoc, append_assoc, hring]
    refine congrArg _ (Eq.trans ?_ hbytes)
    rw [flatMap_append, flatMap_singleton]
    rfl
  · rw [feed_append, hmodes, hring]
    exact hkept

theorem retained_step {s' : Session} {l : Label} (h : Retained tr s)
    (hstep : session.step s l = some s') : Retained (tr ++ [l]) s' := by
  have hsame : readBytes l = [] → s'.ring = s.ring → s'.modes = s.modes →
      Retained (tr ++ [l]) s' := by
    intro hread hring hmodes
    unfold Retained
    rw [readBy_append, readBy_singleton, hread, append_nil, hring, hmodes]
    exact h
  cases step_rule hstep with
  | read hfree hreading hperm => exact retained_read h rfl rfl
  | _ => exact hsame rfl rfl rfl

theorem retained_run {ringBytes : Int}
    (hrun : session.Run (newSession ringBytes) tr s) : Retained tr s := by
  have hnew : Retained [] (newSession ringBytes) := ⟨[], rfl, rfl⟩
  exact hrun.traced (P := Retained) hnew fun _ _ _ _ h hstep => retained_step h hstep

/-- The chunks before the first that a replay may start from. -/
theorem Replays.skip (h : Replays m cs last) :
    ∃ skipped, cs.flatMap (fun c => c.b) =
        skipped ++ (cs.dropWhile (fun c => !c.cleanStart)).flatMap (fun c => c.b) ∧
      ((m.feed skipped).atBoundary = true ↔
        (∃ c ∈ cs, c.cleanStart = true) ∨ last.atBoundary = true) := by
  induction cs generalizing m with
  | nil =>
    cases h
    refine ⟨[], rfl, ?_⟩
    constructor
    · exact .inr
    · rintro (⟨c, hc, -⟩ | hlast)
      · cases hc
      · exact hlast
  | cons c cs ih =>
    cases hclean : c.cleanStart with
    | true =>
      refine ⟨[], ?_, ?_⟩
      · rw [dropWhile_cons_of_neg (by rw [hclean]; decide)]
        rfl
      · have hat : m.atBoundary = true := h.1 ▸ hclean
        exact iff_of_true hat (.inl ⟨c, mem_cons_self, hclean⟩)
    | false =>
      obtain ⟨skipped, hbytes, hiff⟩ := ih h.2
      refine ⟨c.b ++ skipped, ?_, ?_⟩
      · rw [dropWhile_cons_of_pos (by rw [hclean]; rfl), flatMap_cons, hbytes,
          append_assoc]
      · rw [feed_append, hiff]
        refine or_congr_left ⟨?_, ?_⟩
        · rintro ⟨d, hd, hclean'⟩
          exact ⟨d, mem_cons_of_mem _ hd, hclean'⟩
        · rintro ⟨d, hd, hclean'⟩
          rcases mem_cons.mp hd with rfl | hd
          · cases hclean.symm.trans hclean'
          · exact ⟨d, hd, hclean'⟩

/-- A client that attaches in `s₀`, where `tr₀` has led, and to which `tr` happens: what it is
given after the prelude is the output from some position on, at which the tracker was between
two sequences. -/
def StartsAtBoundary (tr₀ : List Label) (s₀ : Session) (tr : List Label) : Prop :=
  ∃ older newer, readBy tr₀ = older ++ newer ∧ s₀.ring.snapshot = newer ∧
    returnedBy s₀.made.length tr <+: s₀.modes.prelude ++ (newer ++ readBy tr) ∧
    (ModeTracker.new.feed older).atBoundary = true

/-- Whatever a session wrote, however it was read and whenever a client attaches: the client
starts between two sequences exactly if the ring holds a chunk that does, or the output is
between two sequences at that moment. -/
theorem attach_starts_at_boundary_iff {ringBytes : Int} {tr₀ : List Label} {s₀ s₁ : Session}
    {readOnly : Bool} (hbefore : session.Run (newSession ringBytes) tr₀ s₀)
    (hattach : session.step s₀ (.attach readOnly) = some s₁) :
    (∀ tr s, session.Run s₁ tr s → StartsAtBoundary tr₀ s₀ tr) ↔
      (∃ c ∈ s₀.ring.chunks, c.cleanStart = true) ∨ s₀.modes.atBoundary = true := by
  obtain ⟨older, hread, hreplays⟩ := retained_run hbefore
  obtain ⟨skipped, hbytes, hiff⟩ := hreplays.skip
  have hcut : readBy tr₀ = (older ++ skipped) ++ s₀.ring.snapshot := by
    rw [hread, hbytes, append_assoc]
    rfl
  rw [← feed_append] at hiff
  rw [← hiff]
  constructor
  · intro hstarts
    obtain ⟨older', newer, hread', hsnapshot, -, hboundary⟩ := hstarts [] s₁ .nil
    rw [hcut, ← hsnapshot] at hread'
    rw [append_cancel_right hread']
    exact hboundary
  · intro hboundary tr s hrun
    refine ⟨older ++ skipped, s₀.ring.snapshot, hcut, rfl, ?_, hboundary⟩
    have hlock : Locked s₀ := locked_run hbefore (locked_new ringBytes)
    obtain ⟨a, -, hfaithful⟩ := attached_run hlock hattach hrun
    rw [← append_assoc]
    exact (prefix_append _ _).trans hfaithful.sofar

theorem attach_starts_at_boundary_iff_scrolled :
    session.Run (newSession 4) scrolled scrolledState ∧
    session.step scrolledState (.attach true) = some attachedState ∧
    StartsAtBoundary scrolled scrolledState followed := by
  have hbefore : session.Run (newSession 4) scrolled scrolledState :=
    exec_run (some_get _).symm
  have hattach : session.step scrolledState (.attach true) = some attachedState :=
    (some_get _).symm
  have hrun : session.Run attachedState followed followedState :=
    exec_run (some_get _).symm
  have hclean : scrolledState.modes.atBoundary = true := by decide +kernel
  exact ⟨hbefore, hattach,
    (attach_starts_at_boundary_iff hbefore hattach).mpr (.inr hclean) followed _ hrun⟩

/-- A sequence that is read in pieces, of which a small ring keeps the last. -/
def pieces : List Label :=
  [.read "a\x1b[3" [], .unlock, .read "1;4" [], .unlock, .read "2;3" [], .unlock]

/-- The rest of it, which a client is given. -/
def remainder : List Label :=
  [.read "8mred" [0], .push, .unlock, .next 0 (.bytes "8mred")]

def piecesState : Session := (session.exec (newSession 8) pieces).get (by decide +kernel)

def joinedState : Session := (session.step piecesState (.attach false)).get (by decide +kernel)

def remainderState : Session := (session.exec joinedState remainder).get (by decide +kernel)

/-- The client's terminal shows the end of the sequence as text. -/
theorem attach_starts_inside :
    session.Run (newSession 8) pieces piecesState ∧
    session.step piecesState (.attach false) = some joinedState ∧
    session.Run joinedState remainder remainderState ∧
    returnedBy 0 remainder = "8mred" ∧
    ¬StartsAtBoundary pieces piecesState remainder := by
  refine ⟨exec_run (some_get _).symm, (some_get _).symm,
    exec_run (some_get _).symm, by decide +kernel, ?_⟩
  rintro ⟨older, newer, hread, hsnapshot, -, hboundary⟩
  have hnone : piecesState.ring.snapshot = [] := by decide +kernel
  rw [← hsnapshot, hnone, append_nil] at hread
  rw [← hread] at hboundary
  exact absurd hboundary (by decide +kernel)

end Lemul.PtySession
