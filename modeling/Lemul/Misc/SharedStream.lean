import Lemul.Misc.Framing
import Lemul.Misc.Lists

/-!
# Several writers on one stream

Writers that share a stream. Each has one frame to hand over, in several buffers, and nothing
keeps the others away in between; a single write is atomic. `Shared.Delivers` says that what
is on the stream are whole frames, each of a writer that succeeded, and at most one frame in
part. It is kept by every write that is in turn: a frame is begun only while no other is on
the stream in part.
-/

namespace Lemul

open List

/-- One writer: its frame, the buffers that are left of it, and how far it got. -/
structure Writer (α F : Type) where
  frame : F
  pending : List (List α)
  /-- A buffer of it has been written. -/
  begun : Bool
  /-- A write has failed, and the writer has given up. -/
  failed : Bool
  deriving DecidableEq, Repr

namespace Writer

variable {α F : Type}

/-- Its frame is on the stream in part. -/
def halfWritten (w : Writer α F) : Bool := w.begun && !w.pending.isEmpty

/-- No buffer is empty, and before the first one is written they are the whole frame. -/
structure Sound (C : Framing α F) (w : Writer α F) : Prop where
  buffers : ∀ b ∈ w.pending, b ≠ []
  fresh : w.begun = false → w.pending.flatten = C.encode w.frame

theorem Sound.pending_ne_nil {C : Framing α F} {w : Writer α F} (h : w.Sound C)
    (hfresh : w.begun = false) : w.pending ≠ [] := by
  intro hnil
  have hempty := h.fresh hfresh
  rw [hnil] at hempty
  exact C.encode_ne_nil w.frame hempty.symm

end Writer

/-- A stream and those who write on it. -/
structure Shared (α F : Type) where
  /-- Written and not yet read. -/
  wire : List α
  writers : List (Writer α F)
  deriving DecidableEq, Repr

namespace Shared

variable {α F : Type}

/-- A stream nobody has written on. -/
def idle : Shared α F := ⟨[], []⟩

/-- One more writer, with the buffers of its frame. -/
def start (s : Shared α F) (f : F) (buffers : List (List α)) : Shared α F :=
  { s with writers := s.writers ++ [⟨f, buffers, false, false⟩] }

/-- Writer `i` writes its next buffer, or fails to and gives up. -/
def write (s : Shared α F) (i : Nat) (ok : Bool) : Option (Shared α F) :=
  match s.writers[i]? with
  | none => none
  | some w =>
      if w.failed then none
      else
        match w.pending with
        | [] => none
        | b :: rest =>
            if ok then
              some ⟨s.wire ++ b, s.writers.set i { w with pending := rest, begun := true }⟩
            else some { s with writers := s.writers.set i { w with failed := true } }

/-- Every buffer of writer `i` has been written. -/
def succeeded (s : Shared α F) (i : Nat) : Bool :=
  (s.writers[i]?).any fun w => w.pending.isEmpty

/-- No frame is on the stream in part. -/
def clear (s : Shared α F) : Bool := s.writers.all fun w => !w.halfWritten

/-- Writer `i` goes on with the frame it has begun, or begins it while no other is on the
stream in part. -/
def inTurn (s : Shared α F) (i : Nat) : Bool :=
  s.clear || (s.writers[i]?).any fun w => w.begun

/-- The frame of writer `i`. -/
def frameOf (s : Shared α F) (i : Nat) : Option F := (s.writers[i]?).map (·.frame)

/-- What stands behind the whole frames on the stream: nothing, or the first part of the one
frame that is on it in part. -/
def Tail (C : Framing α F) (s : Shared α F) (part : List α) : Prop :=
  s.clear = true ∧ part = [] ∨
    ∃ (i : Nat) (w : Writer α F), s.writers[i]? = some w ∧ w.halfWritten = true ∧
      (∀ (j : Nat) (w' : Writer α F), j ≠ i → s.writers[j]? = some w' →
        w'.halfWritten = false) ∧
      part ++ w.pending.flatten = C.encode w.frame

/-- The writers `sent` have succeeded, in this order. Of their frames `taken` have been read,
and the others are on the stream. -/
structure Delivers (C : Framing α F) (s : Shared α F) (taken : List F) (sent : List Nat) :
    Prop where
  sound : ∀ (i : Nat) (w : Writer α F), s.writers[i]? = some w → w.Sound C
  nodup : sent.Nodup
  sent_iff : ∀ i, i ∈ sent ↔ s.succeeded i = true
  onWire : ∃ queue part, sent.map s.frameOf = (taken ++ queue).map some ∧
    s.wire = queue.flatMap C.encode ++ part ∧ s.Tail C part

theorem delivers_idle (C : Framing α F) : Delivers C idle [] [] where
  sound := nofun
  nodup := nodup_nil
  sent_iff i := by simp [idle, succeeded]
  onWire := ⟨[], [], rfl, rfl, .inl ⟨rfl, rfl⟩⟩

variable {C : Framing α F} {s s' : Shared α F} {taken : List F} {sent : List Nat} {i : Nat}
  {w : Writer α F}

theorem succeeded_iff :
    s.succeeded i = true ↔ ∃ w : Writer α F, s.writers[i]? = some w ∧ w.pending = [] := by
  simp [succeeded, Option.any_eq_true]

theorem clear_iff :
    s.clear = true ↔
      ∀ (i : Nat) (w : Writer α F), s.writers[i]? = some w → w.halfWritten = false := by
  simp only [clear, all_eq_true, Bool.not_eq_true', mem_iff_getElem?]
  constructor
  · intro h i w hw
    exact h w ⟨i, hw⟩
  · rintro h w ⟨i, hw⟩
    exact h i w hw

variable {ok : Bool} {rest part : List α}

/-- What a write does. -/
theorem write_cases (h : s.write i ok = some s') :
    ∃ (w : Writer α F) (b : List α) (rest : List (List α)),
      s.writers[i]? = some w ∧ w.pending = b :: rest ∧
      (ok = true ∧ s' = ⟨s.wire ++ b, s.writers.set i { w with pending := rest, begun := true }⟩ ∨
        ok = false ∧ s' = { s with writers := s.writers.set i { w with failed := true } }) := by
  unfold write at h
  split at h
  · cases h
  · rename_i w hw
    split at h
    · cases h
    · split at h
      · cases h
      · rename_i b rest hpending
        refine ⟨w, b, rest, hw, hpending, ?_⟩
        split at h <;> cases h
        · rename_i hok
          exact .inl ⟨hok, rfl⟩
        · rename_i hok
          exact .inr ⟨Bool.of_not_eq_true hok, rfl⟩

/-- Replacing a writer by one with the same frame changes no frame. -/
theorem frameOf_set {wire : List α} (hw : s.writers[i]? = some w) (w' : Writer α F)
    (hframe : w'.frame = w.frame) :
    frameOf ⟨wire, s.writers.set i w'⟩ = s.frameOf := by
  funext j
  by_cases hj : j = i
  · subst hj
    simp only [frameOf, getElem?_set_same hw, hw, Option.map_some, hframe]
  · simp only [frameOf, getElem?_set_ne (Ne.symm hj)]

theorem write_length (h : s.write i ok = some s') :
    s'.writers.length = s.writers.length := by
  obtain ⟨w, b, rest, -, -, ⟨-, rfl⟩ | ⟨-, rfl⟩⟩ := write_cases h
  · exact length_set
  · exact length_set

theorem write_frameOf (h : s.write i ok = some s') : s'.frameOf = s.frameOf := by
  obtain ⟨w, b, rest, hw, -, ⟨-, rfl⟩ | ⟨-, rfl⟩⟩ := write_cases h
  · exact frameOf_set hw _ rfl
  · exact frameOf_set hw _ rfl

theorem Delivers.start (h : Delivers C s taken sent) {f : F} {buffers : List (List α)}
    (hbuffers : ∀ b ∈ buffers, b ≠ []) (hwhole : buffers.flatten = C.encode f) :
    Delivers C (s.start f buffers) taken sent := by
  have hsound : Writer.Sound C (⟨f, buffers, false, false⟩ : Writer α F) :=
    ⟨hbuffers, fun _ => hwhole⟩
  have hmem : ∀ {j : Nat} {x : Writer α F}, (s.start f buffers).writers[j]? = some x →
      s.writers[j]? = some x ∨ x = ⟨f, buffers, false, false⟩ := by
    intro j x hx
    rcases of_getElem?_concat hx with hx | ⟨-, hx⟩
    · exact .inl hx
    · exact .inr hx
  have hold : ∀ {j : Nat} {x : Writer α F}, s.writers[j]? = some x →
      (s.start f buffers).writers[j]? = some x := fun hx => getElem?_concat_old hx _
  obtain ⟨queue, part, hframes, hwire, htail⟩ := h.onWire
  refine ⟨?_, h.nodup, ?_, queue, part, ?_, hwire, ?_⟩
  · intro j x hx
    rcases hmem hx with hx | rfl
    · exact h.sound j x hx
    · exact hsound
  · intro j
    rw [h.sent_iff, succeeded_iff, succeeded_iff]
    constructor
    · rintro ⟨x, hx, hdone⟩
      exact ⟨x, hold hx, hdone⟩
    · rintro ⟨x, hx, hdone⟩
      rcases hmem hx with hx | rfl
      · exact ⟨x, hx, hdone⟩
      · exact absurd hdone (hsound.pending_ne_nil rfl)
  · rw [← hframes]
    refine map_congr_left fun j hj => ?_
    obtain ⟨x, hx, -⟩ := succeeded_iff.mp ((h.sent_iff j).mp hj)
    simp only [frameOf, hx, hold hx]
  · have hothers : ∀ {j : Nat} {x : Writer α F},
        (s.start f buffers).writers[j]? = some x → x.halfWritten = true →
        s.writers[j]? = some x := by
      intro j x hx hhalf
      rcases hmem hx with hx | rfl
      · exact hx
      · cases hhalf
    rcases htail with ⟨hclear, hpart⟩ | ⟨j, x, hx, hhalf, hrest, hpart⟩
    · refine .inl ⟨clear_iff.mpr fun j x hx => ?_, hpart⟩
      by_contra hhalf
      have hhalf := Bool.of_not_eq_false hhalf
      rw [clear_iff.mp hclear j x (hothers hx hhalf)] at hhalf
      cases hhalf
    · refine .inr ⟨j, x, hold hx, hhalf, fun k y hk hy => ?_, hpart⟩
      by_contra hhalf
      have hhalf := Bool.of_not_eq_false hhalf
      rw [hrest k y hk (hothers hy hhalf)] at hhalf
      cases hhalf

/-- The writer that is in turn writes what is missing behind the whole frames, and nobody
else is half way. -/
theorem Tail.inTurn (h : s.Tail C part) (hturn : s.inTurn i = true) (hw : s.writers[i]? = some w)
    (hsound : w.Sound C) (hpending : w.pending ≠ []) :
    part ++ w.pending.flatten = C.encode w.frame ∧
      ∀ (j : Nat) (w' : Writer α F), j ≠ i → s.writers[j]? = some w' →
        w'.halfWritten = false := by
  have hhalf : w.halfWritten = w.begun := by
    cases hp : w.pending with
    | nil => exact absurd hp hpending
    | cons b rest => simp [Writer.halfWritten, hp]
  rcases h with ⟨hclear, rfl⟩ | ⟨k, x, hx, hk, hothers, hpart⟩
  · have hall := clear_iff.mp hclear
    refine ⟨?_, fun j w' _ hw' => hall j w' hw'⟩
    have hfresh : w.begun = false := by
      rw [← hhalf]
      exact hall i w hw
    exact hsound.fresh hfresh
  · have hclear : s.clear = false := by
      by_contra hclear
      have hnone := clear_iff.mp (Bool.of_not_eq_false hclear) k x hx
      cases hk.symm.trans hnone
    have hbegun : w.begun = true := by
      simpa [Shared.inTurn, hclear, hw] using hturn
    have hik : i = k := by
      by_contra hne
      have hnone := hothers i w hne hw
      rw [hhalf, hbegun] at hnone
      cases hnone
    subst hik
    cases hw.symm.trans hx
    exact ⟨hpart, hothers⟩

/-- A write that fails puts nothing on the stream. -/
theorem Delivers.gives_up (h : Delivers C s taken sent) (hw : s.writers[i]? = some w) :
    Delivers C { s with writers := s.writers.set i { w with failed := true } } taken sent := by
  have hself := getElem?_set_same hw { w with failed := true }
  obtain ⟨queue, part, hframes, hwire, htail⟩ := h.onWire
  refine ⟨?_, h.nodup, ?_, queue, part, ?_, hwire, ?_⟩
  · intro j x hx
    rcases of_getElem?_set hx with ⟨rfl, rfl⟩ | ⟨-, hx⟩
    · exact ⟨(h.sound j w hw).buffers, (h.sound j w hw).fresh⟩
    · exact h.sound j x hx
  · intro j
    rw [h.sent_iff, succeeded_iff, succeeded_iff]
    by_cases hj : j = i
    · subst hj
      simp [hw, hself]
    · simp only [getElem?_set_ne (Ne.symm hj)]
  · rw [frameOf_set hw { w with failed := true } rfl]
    exact hframes
  · rcases htail with ⟨hclear, hpart⟩ | ⟨k, x, hx, hhalf, hothers, hpart⟩
    · refine .inl ⟨clear_iff.mpr fun j y hy => ?_, hpart⟩
      rcases of_getElem?_set hy with ⟨rfl, rfl⟩ | ⟨-, hy⟩
      · exact clear_iff.mp hclear j w hw
      · exact clear_iff.mp hclear j y hy
    · have hrest : ∀ (j : Nat) (y : Writer α F), j ≠ k →
          (s.writers.set i { w with failed := true })[j]? = some y → y.halfWritten = false := by
        intro j y hj hy
        rcases of_getElem?_set hy with ⟨rfl, rfl⟩ | ⟨-, hy⟩
        · exact hothers j w hj hw
        · exact hothers j y hj hy
      by_cases hk : k = i
      · subst hk
        cases hw.symm.trans hx
        exact .inr ⟨k, { w with failed := true }, hself, hhalf, hrest, hpart⟩
      · refine .inr ⟨k, x, ?_, hhalf, hrest, hpart⟩
        rw [getElem?_set_ne (Ne.symm hk), hx]

/-- The last buffer of a frame, written in turn. -/
theorem Delivers.completes (h : Delivers C s taken sent) (hw : s.writers[i]? = some w)
    {b : List α} (hpending : w.pending = [b]) (hturn : s.inTurn i = true) :
    Delivers C ⟨s.wire ++ b, s.writers.set i { w with pending := [], begun := true }⟩ taken
      (sent ++ [i]) := by
  have hself := getElem?_set_same hw { w with pending := [], begun := true }
  obtain ⟨queue, part, hframes, hwire, htail⟩ := h.onWire
  obtain ⟨hpart, hothers⟩ := htail.inTurn hturn hw (h.sound i w hw) (by simp [hpending])
  have hnot : i ∉ sent := by
    intro hmem
    obtain ⟨x, hx, hdone⟩ := succeeded_iff.mp ((h.sent_iff i).mp hmem)
    cases hw.symm.trans hx
    cases hdone.symm.trans hpending
  refine ⟨?_, ?_, ?_, queue ++ [w.frame], [], ?_, ?_, .inl ⟨clear_iff.mpr ?_, rfl⟩⟩
  · intro j x hx
    rcases of_getElem?_set hx with ⟨rfl, rfl⟩ | ⟨-, hx⟩
    · exact ⟨nofun, nofun⟩
    · exact h.sound j x hx
  · rw [nodup_append]
    refine ⟨h.nodup, by simp, fun j hj k hk => ?_⟩
    rw [mem_singleton.mp hk]
    rintro rfl
    exact hnot hj
  · intro j
    rw [mem_append, h.sent_iff, succeeded_iff, succeeded_iff, mem_singleton]
    by_cases hj : j = i
    · subst hj
      simp [hself]
    · simp only [hj, or_false, getElem?_set_ne (Ne.symm hj)]
  · rw [frameOf_set hw { w with pending := [], begun := true } rfl, map_append,
      hframes]
    simp [frameOf, hw]
  · rw [hpending, flatten_singleton] at hpart
    simp only [hwire, flatMap_append, append_assoc, hpart, flatMap_cons,
      flatMap_nil, append_nil]
  · intro j x hx
    rcases of_getElem?_set hx with ⟨rfl, rfl⟩ | ⟨hj, hx⟩
    · rfl
    · exact hothers j x hj hx

/-- A buffer of a frame that others follow, written in turn. -/
theorem Delivers.continues (h : Delivers C s taken sent) (hw : s.writers[i]? = some w)
    {b : List α} {rest : List (List α)} (hpending : w.pending = b :: rest) (hrest : rest ≠ [])
    (hturn : s.inTurn i = true) :
    Delivers C ⟨s.wire ++ b, s.writers.set i { w with pending := rest, begun := true }⟩ taken
      sent := by
  have hself := getElem?_set_same hw { w with pending := rest, begun := true }
  obtain ⟨queue, part, hframes, hwire, htail⟩ := h.onWire
  obtain ⟨hpart, hothers⟩ := htail.inTurn hturn hw (h.sound i w hw) (by simp [hpending])
  refine ⟨?_, h.nodup, ?_, queue, part ++ b, ?_, ?_, .inr ⟨i, _, hself, ?_, ?_, ?_⟩⟩
  · intro j x hx
    rcases of_getElem?_set hx with ⟨rfl, rfl⟩ | ⟨-, hx⟩
    · refine ⟨fun b' hb' => (h.sound j w hw).buffers b' ?_, nofun⟩
      rw [hpending]
      exact mem_cons_of_mem _ hb'
    · exact h.sound j x hx
  · intro j
    rw [h.sent_iff, succeeded_iff, succeeded_iff]
    by_cases hj : j = i
    · subst hj
      simp [hw, hself, hpending, hrest]
    · simp only [getElem?_set_ne (Ne.symm hj)]
  · rw [frameOf_set hw { w with pending := rest, begun := true } rfl]
    exact hframes
  · rw [hwire, append_assoc]
  · simp [Writer.halfWritten, hrest]
  · intro j x hj hx
    rcases of_getElem?_set hx with ⟨hji, -⟩ | ⟨-, hx⟩
    · exact absurd hji hj
    · exact hothers j x hj hx
  · rw [hpending, flatten_cons, ← append_assoc] at hpart
    exact hpart

/-- Every write in turn is such that whole frames are delivered. -/
theorem Delivers.write (h : Delivers C s taken sent) (hwrite : s.write i ok = some s')
    (hturn : s.inTurn i = true) :
    ∃ sent', Delivers C s' taken sent' := by
  obtain ⟨w, b, rest, hw, hpending, ⟨-, rfl⟩ | ⟨-, rfl⟩⟩ := write_cases hwrite
  · by_cases hrest : rest = []
    · subst hrest
      exact ⟨sent ++ [i], h.completes hw hpending hturn⟩
    · exact ⟨sent, h.continues hw hpending hrest hturn⟩
  · exact ⟨sent, h.gives_up hw⟩

/-- The part of a frame that is on the stream does not contain a frame. -/
theorem Tail.no_frame {f : F} (h : s.Tail C part)
    (hsound : ∀ (i : Nat) (w : Writer α F), s.writers[i]? = some w → w.Sound C) :
    part ≠ C.encode f ++ rest := by
  intro heq
  rcases h with ⟨-, rfl⟩ | ⟨i, w, hw, hhalf, -, hpart⟩
  · exact C.encode_ne_nil f (append_eq_nil_iff.mp heq.symm).1
  · -- the frame that is being written would decode to another one, with something left
    rw [heq, append_assoc] at hpart
    have hone := (C.decode_eq_some _ _ _).mpr hpart.symm
    have hall := (C.decode_eq_some (C.encode w.frame) w.frame []).mpr (append_nil _).symm
    rw [hone] at hall
    have hnil : w.pending.flatten = [] :=
      (append_eq_nil_iff.mp (congrArg Prod.snd (Option.some.inj hall))).2
    cases hp : w.pending with
    | nil => simp [Writer.halfWritten, hp] at hhalf
    | cons b bs =>
      rw [hp, flatten_cons] at hnil
      refine (hsound i w hw).buffers b ?_ (append_eq_nil_iff.mp hnil).1
      rw [hp]
      exact mem_cons_self

/-- What is read is the next frame of those that were sent. -/
theorem Delivers.read (h : Delivers C s taken sent) {f : F}
    (hread : C.decode s.wire = some (f, rest)) :
    Delivers C { s with wire := rest } (taken ++ [f]) sent := by
  obtain ⟨queue, part, hframes, hwire, htail⟩ := h.onWire
  have htaken := (C.decode_eq_some _ _ _).mp hread
  cases queue with
  | nil =>
    rw [flatMap_nil, nil_append] at hwire
    rw [hwire] at htaken
    exact absurd htaken (htail.no_frame h.sound)
  | cons g queue =>
    rw [flatMap_cons, append_assoc] at hwire
    have hboth : some (f, rest) = some (g, queue.flatMap C.encode ++ part) := by
      rw [← hread]
      exact (C.decode_eq_some _ _ _).mpr hwire
    obtain ⟨rfl, rfl⟩ := Prod.mk.inj (Option.some.inj hboth)
    refine ⟨h.sound, h.nodup, h.sent_iff, queue, part, ?_, rfl, htail⟩
    rw [append_assoc]
    exact hframes

end Shared

end Lemul
