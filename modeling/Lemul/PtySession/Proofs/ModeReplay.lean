import Lemul.PtySession.Scan
import Lemul.PtySession.Session

/-!
# Modes are restored by a replay

An attacher is sent the tracker's prelude and then the ring's snapshot (`session.go:236-242`).
The prelude puts a terminal into the modes of now, and the snapshot goes over it with mode
changes of before. That does no harm: the snapshot begins between two sequences, so the
terminal finds in it the sequences that the tracker found there, and what the last of them
assigned is what the tracker holds. A mode that the prelude set is known, so the bound on
tracked modes does not refuse it.
-/

namespace Lemul.PtySession

open List

namespace ModeTracker

/-! ## The map of modes -/

section Modes

variable {dec : List (Int × Bool)} {n k : Int} {v set : Bool}

theorem any_eq_true_iff : dec.any (fun x => x.1 = n) = true ↔ n ∈ dec.map Prod.fst := by
  rw [any_eq_true, mem_map]
  simp only [decide_eq_true_eq]

/-- An entry of the map is the value of its mode, whatever the order of the entries. -/
theorem lookup_of_mem (hkeys : (dec.map Prod.fst).Nodup) (h : (n, v) ∈ dec) :
    dec.lookup n = some v := by
  induction dec with
  | nil => cases h
  | cons x dec ih =>
    obtain ⟨hx, hdec⟩ := nodup_cons.mp hkeys
    rcases mem_cons.mp h with rfl | hmem
    · exact lookup_cons_self
    · have hne : (n == x.1) = false := by
        refine beq_eq_false_iff_ne.mpr fun heq => hx ?_
        exact heq ▸ mem_map.mpr ⟨_, hmem, rfl⟩
      rw [lookup_cons, hne]
      exact ih hdec hmem

theorem mem_of_lookup (h : dec.lookup n = some v) : (n, v) ∈ dec := by
  obtain ⟨l₁, l₂, heq, -⟩ := lookup_eq_some_iff.mp h
  rw [heq]
  exact mem_append_right _ mem_cons_self

variable (dec k set) in
/-- An assignment leaves the set of known modes, or adds one to it. -/
theorem keys_setMode :
    (setMode dec k set).map Prod.fst = dec.map Prod.fst ∨
      k ∉ dec.map Prod.fst ∧ dec.length < maxTrackedModes ∧
        setMode dec k set = dec ++ [(k, set)] := by
  unfold setMode
  split
  · refine .inl ?_
    rw [map_map]
    refine map_congr_left fun x _ => ?_
    by_cases hx : x.1 = k
    · simp [hx]
    · simp [hx]
  · rename_i hnew
    split
    · exact .inl rfl
    · rename_i hroom
      exact .inr ⟨fun hmem => hnew (any_eq_true_iff.mpr hmem), Nat.not_le.mp hroom, rfl⟩

/-- Another mode keeps its value. -/
theorem lookup_setMode_ne (h : n ≠ k) : (setMode dec k set).lookup n = dec.lookup n := by
  have hbeq : (n == k) = false := beq_eq_false_iff_ne.mpr h
  unfold setMode
  split
  · clear * - hbeq
    induction dec with
    | nil => rfl
    | cons x dec ih =>
      obtain ⟨j, w⟩ := x
      by_cases hj : j = k
      · subst hj
        simp only [map_cons, if_true, lookup_cons, hbeq, ih]
      · simp only [map_cons, if_neg hj, lookup_cons, ih]
  · split
    · rfl
    · rw [lookup_append, lookup_cons, hbeq]
      exact Option.or_none

/-- A mode that is known takes the value. -/
theorem lookup_setMode_known (h : dec.lookup n = some v) :
    (setMode dec n set).lookup n = some set := by
  have hknown : dec.any (fun x => x.1 = n) = true :=
    any_eq_true_iff.mpr (mem_map.mpr ⟨_, mem_of_lookup h, rfl⟩)
  rw [setMode, if_pos hknown]
  clear hknown
  induction dec with
  | nil => cases h
  | cons x dec ih =>
    obtain ⟨j, w⟩ := x
    by_cases hj : j = n
    · simp only [map_cons, hj, if_true, lookup_cons_self]
    · have hbeq : (n == j) = false := beq_eq_false_iff_ne.mpr (Ne.symm hj)
      rw [lookup_cons, hbeq] at h
      simp only [map_cons, if_neg hj, lookup_cons, hbeq, ih h]

/-- If a mode is known after it was assigned, it has what was assigned. -/
theorem of_lookup_setMode (h : (setMode dec n set).lookup n = some v) : v = set := by
  cases hdec : dec.lookup n with
  | some w =>
    rw [lookup_setMode_known hdec] at h
    exact (Option.some.inj h).symm
  | none =>
    have hmem := mem_of_lookup h
    rcases keys_setMode dec n set with hkeys | ⟨-, -, hadded⟩
    · have hkey : n ∈ dec.map Prod.fst := hkeys ▸ mem_map.mpr ⟨_, hmem, rfl⟩
      obtain ⟨x, hx, rfl⟩ := mem_map.mp hkey
      exact absurd (lookup_eq_none_iff.mp hdec x hx) (by simp)
    · rw [hadded, lookup_append, hdec, Option.none_or, lookup_cons_self] at h
      exact (Option.some.inj h).symm

/-- What an assignment says about the mode `n`. -/
def assigned (n : Int) (x : Int × Bool) : Option Bool := if x.1 = n then some x.2 else none

theorem assign_append (dec xs ys : List (Int × Bool)) :
    assign dec (xs ++ ys) = assign (assign dec xs) ys := foldl_append

/-- A known mode takes every value it is assigned. -/
theorem lookup_assign (h : dec.lookup n = some v) (xs : List (Int × Bool)) :
    (assign dec xs).lookup n = some (overwrite (assigned n) v xs) := by
  induction xs generalizing dec v with
  | nil => exact h
  | cons x xs ih =>
    have hnext : (setMode dec x.1 x.2).lookup n = some ((assigned n x).getD v) := by
      unfold assigned
      by_cases hx : x.1 = n
      · rw [if_pos hx, hx]
        exact lookup_setMode_known h
      · rw [if_neg hx, lookup_setMode_ne (Ne.symm hx)]
        exact h
    exact ih hnext

variable {xs : List (Int × Bool)}

/-- Assigning again what led to a value changes it no more. -/
theorem overwrite_of_lookup (h : (assign dec xs).lookup n = some v) :
    overwrite (assigned n) v xs = v := by
  induction xs using reverseRecOn with
  | nil => rfl
  | append_singleton xs x ih =>
    rw [overwrite_append]
    rw [assign_append] at h
    by_cases hx : x.1 = n
    · subst hx
      rw [of_lookup_setMode h]
      simp only [overwrite, foldl_cons, foldl_nil, assigned, if_true, Option.getD_some]
    · rw [ih (lookup_setMode_ne (Ne.symm hx) ▸ h)]
      simp only [overwrite, foldl_cons, foldl_nil, assigned, if_neg hx,
        Option.getD_none]

/-- Modes that are few and distinct are all taken. -/
theorem assign_nil (hkeys : (xs.map Prod.fst).Nodup)
    (hlen : xs.length ≤ maxTrackedModes) : assign [] xs = xs := by
  induction xs using reverseRecOn with
  | nil => rfl
  | append_singleton xs x ih =>
    rw [map_append, nodup_append] at hkeys
    rw [length_append, length_singleton] at hlen
    rw [assign_append, ih hkeys.1 (Nat.le_of_succ_le hlen)]
    have hnew : ¬(xs.any (fun y => y.1 = x.1) = true) := fun hmem =>
      hkeys.2.2 _ (any_eq_true_iff.mp hmem) _ (mem_map.mpr ⟨x, mem_singleton_self x, rfl⟩)
        rfl
    have hroom : ¬maxTrackedModes ≤ xs.length := Nat.not_le.mpr hlen
    change setMode xs x.1 x.2 = _
    rw [setMode, if_neg hnew, if_neg hroom]

end Modes

/-! ## What a tracker holds -/

/-- A keyboard protocol that is remembered: none, or a whole sequence that chooses it. -/
def Remembered (of : GoString → Option GoString) (seq : GoString) : Prop :=
  seq = [] ∨ Scan.Whole seq ∧ of seq = some seq

/-- What a session's tracker keeps true. -/
structure Tracked (m : ModeTracker) : Prop where
  started : m.scan.Started
  keys : (m.dec.map Prod.fst).Nodup
  few : m.dec.length ≤ maxTrackedModes
  range : ∀ n ∈ m.dec.map Prod.fst, -2 ^ 63 ≤ n ∧ n < 2 ^ 63
  kitty : Remembered kittyOf m.kitty
  modOther : Remembered modOtherOf m.modOther

theorem tracked_new : Tracked .new where
  started := rfl
  keys := nodup_nil
  few := Nat.zero_le _
  range := nofun
  kitty := .inl rfl
  modOther := .inl rfl

variable {x : Int × Bool} {of : GoString → Option GoString}

variable {seq : GoString} {m : ModeTracker} {seqs : List GoString}

/-- The modes named in a sequence are numbers of 64 bits. -/
theorem assigns_range (h : x ∈ assigns seq) :
    -2 ^ 63 ≤ x.1 ∧ x.1 < 2 ^ 63 := by
  have hnamed : ∀ (params : GoString) (set : Bool),
      x ∈ (params.splitOn 59).filterMap (fun f => (atoi f).map (·, set)) →
        -2 ^ 63 ≤ x.1 ∧ x.1 < 2 ^ 63 := by
    intro params set hx
    obtain ⟨f, -, hf⟩ := mem_filterMap.mp hx
    obtain ⟨n, hn, rfl⟩ := Option.map_eq_some_iff.mp hf
    exact atoi_range hn
  unfold assigns at h
  split at h
  · dsimp only at h
    split at h
    · exact hnamed _ _ h
    · split at h
      · exact hnamed _ _ h
      · cases h
  · cases h

/-- The map after some assignments: its modes stay distinct, few and in range. -/
theorem assign_keeps {dec xs : List (Int × Bool)} (hkeys : (dec.map Prod.fst).Nodup)
    (hfew : dec.length ≤ maxTrackedModes)
    (hrange : ∀ n ∈ dec.map Prod.fst, -2 ^ 63 ≤ n ∧ n < 2 ^ 63)
    (hxs : ∀ x ∈ xs, -2 ^ 63 ≤ x.1 ∧ x.1 < 2 ^ 63) :
    ((assign dec xs).map Prod.fst).Nodup ∧ (assign dec xs).length ≤ maxTrackedModes ∧
      ∀ n ∈ (assign dec xs).map Prod.fst, -2 ^ 63 ≤ n ∧ n < 2 ^ 63 := by
  induction xs generalizing dec with
  | nil => exact ⟨hkeys, hfew, hrange⟩
  | cons x xs ih =>
    have hrest : ∀ y ∈ xs, -2 ^ 63 ≤ y.1 ∧ y.1 < 2 ^ 63 :=
      fun y hy => hxs y (mem_cons_of_mem _ hy)
    change ((assign (setMode dec x.1 x.2) xs).map Prod.fst).Nodup ∧
      (assign (setMode dec x.1 x.2) xs).length ≤ maxTrackedModes ∧
      ∀ n ∈ (assign (setMode dec x.1 x.2) xs).map Prod.fst, -2 ^ 63 ≤ n ∧ n < 2 ^ 63
    rcases keys_setMode dec x.1 x.2 with hsame | ⟨hnew, hroom, hadded⟩
    · have hlen : (setMode dec x.1 x.2).length = dec.length := by
        rw [← length_map (f := Prod.fst), hsame, length_map]
      refine ih ?_ ?_ ?_ hrest
      · rwa [hsame]
      · rwa [hlen]
      · rwa [hsame]
    · rw [hadded]
      refine ih ?_ ?_ ?_ hrest
      · rw [map_append, map_singleton]
        exact concat_eq_append ▸ hkeys.concat hnew
      · rwa [length_append, length_singleton]
      · intro n hn
        rw [map_append] at hn
        rcases mem_concat.mp hn with hn | rfl
        · exact hrange n hn
        · exact hxs x mem_cons_self

theorem remembered_overwrite (hof : ∀ seq k, of seq = some k → k = seq) (hseq : Remembered of seq)
    (hseqs : ∀ seq ∈ seqs, Scan.Whole seq) :
    Remembered of (overwrite of seq seqs) := by
  induction seqs generalizing seq with
  | nil => exact hseq
  | cons next seqs ih =>
    have hrest : ∀ seq ∈ seqs, Scan.Whole seq :=
      fun seq h => hseqs seq (mem_cons_of_mem _ h)
    change Remembered of (overwrite of ((of next).getD seq) seqs)
    refine ih ?_ hrest
    cases hnext : of next with
    | none => exact hseq
    | some k =>
      obtain rfl := hof next k hnext
      exact .inr ⟨hseqs k mem_cons_self, hnext⟩

/-- A step of the tracker, whatever the bytes are. -/
theorem Tracked.feed (h : m.Tracked) (p : GoString) : (m.feed p).Tracked := by
  obtain ⟨hstarted, hwhole⟩ := Scan.run_started h.started p
  have hnamed : ∀ x ∈ (m.scan.run p).2.flatMap assigns, -2 ^ 63 ≤ x.1 ∧ x.1 < 2 ^ 63 := by
    intro x hx
    obtain ⟨seq, -, hseq⟩ := mem_flatMap.mp hx
    exact assigns_range hseq
  obtain ⟨hkeys, hfew, hrange⟩ := assign_keeps h.keys h.few h.range hnamed
  refine ⟨?_, ?_, ?_, ?_, ?_, ?_⟩
  · rwa [feed_scan]
  · rwa [feed_dec]
  · rwa [feed_dec]
  · rwa [feed_dec]
  · rw [feed_kitty]
    exact remembered_overwrite (fun _ _ hk => (kittyOf_eq hk).1) h.kitty hwhole
  · rw [feed_modOther]
    exact remembered_overwrite (fun _ _ hk => (modOtherOf_eq hk).1) h.modOther hwhole

/-! ## What a prelude does -/

/-- A digit is neither a final byte nor a separator. -/
theorem isDigit_lt {b : UInt8} (h : isDigit b = true) : b < 64 ∧ b ≠ 59 := by
  simp only [isDigit, Bool.and_eq_true, decide_eq_true_eq] at h
  refine ⟨UInt8.lt_iff_toNat_lt.mpr ?_, ?_⟩
  · exact Nat.lt_of_le_of_lt h.2 (by decide)
  · rintro rfl
    exact absurd h.2 (by decide)

/-- The bytes of a number are below the final bytes of a sequence. -/
theorem formatInt_lt {n : Int} {b : UInt8} (h : b ∈ formatInt n) : b < 64 ∧ b ≠ 59 := by
  have hdigits : ∀ k, b ∈ decimal k → b < 64 ∧ b ≠ 59 := fun k hk =>
    isDigit_lt (all_eq_true.mp (all_isDigit_decimal k) b hk)
  unfold formatInt at h
  split at h
  · rcases mem_cons.mp h with rfl | h
    · exact ⟨by decide, by decide⟩
    · exact hdigits _ h
  · exact hdigits _ h

theorem length_formatInt {n : Int} (hlow : -2 ^ 63 ≤ n) (hhigh : n < 2 ^ 63) :
    (formatInt n).length ≤ 20 := by
  unfold formatInt
  split
  · exact Nat.succ_le_succ (length_decimal_of_lt (k := 19) (by omega) (by decide))
  · exact length_decimal_of_lt (k := 20) (by omega) (by decide)

theorem renderMode_eq (x : Int × Bool) :
    renderMode x = [27, 91] ++ (63 :: formatInt x.1) ++ [if x.2 then 104 else 108] := by
  have hstr : str "\x1b[?" = [27, 91, 63] := by decide
  rw [renderMode, hstr]
  rfl

theorem renderMode_params (x : Int × Bool) :
    ((renderMode x).drop 2).dropLast = 63 :: formatInt x.1 := by
  rw [renderMode_eq]
  exact dropLast_concat

theorem renderMode_final (x : Int × Bool) :
    (renderMode x).getLast? = some (if x.2 then 104 else 108) := by
  rw [renderMode_eq]
  exact getLast?_concat

/-- A mode of the prelude is a whole sequence ... -/
theorem renderMode_whole (hlow : -2 ^ 63 ≤ x.1) (hhigh : x.1 < 2 ^ 63) :
    Scan.Whole (renderMode x) := by
  rw [renderMode_eq]
  refine Scan.whole_csi ?_ ?_ ?_
  · intro b hb
    rcases mem_cons.mp hb with rfl | hb
    · decide
    · exact fun hfinal => absurd hfinal.1 (UInt8.not_le.mpr (formatInt_lt hb).1)
  · have hlen := length_formatInt hlow hhigh
    rw [length_cons]
    unfold maxPartial
    omega
  · cases x.2 <;> decide

/-- ... that assigns this mode ... -/
theorem assigns_renderMode (hlow : -2 ^ 63 ≤ x.1) (hhigh : x.1 < 2 ^ 63) :
    assigns (renderMode x) = [x] := by
  have hsplit : (formatInt x.1).splitOn 59 = [formatInt x.1] :=
    splitOn_eq_singleton fun hmem => (formatInt_lt hmem).2 rfl
  obtain ⟨n, set⟩ := x
  rw [assigns_private (renderMode_params _), renderMode_final, hsplit]
  cases set with
  | true | false => simp [atoi_formatInt hlow hhigh]

/-- ... and leaves the keyboard alone. -/
theorem keyboard_renderMode (x : Int × Bool) :
    kittyOf (renderMode x) = none ∧ modOtherOf (renderMode x) = none := by
  refine ⟨?_, ?_⟩
  · rw [kittyOf_cons (renderMode_params x)]
    exact if_neg fun h => absurd h.1 (by decide)
  · rw [modOtherOf_cons (renderMode_params x)]
    exact if_neg fun h => absurd h.1 (by decide)

/-- The modes of a prelude, in its order. -/
def listed (m : ModeTracker) : List (Int × Bool) :=
  (m.dec.filter (fun x => !transientMode x.1)).insertionSort (fun x y => x.1 ≤ y.1)

/-- A keyboard protocol as the sequences that choose it. -/
def keyboard (seq : GoString) : List GoString := if seq = [] then [] else [seq]

theorem flatten_keyboard (seq : GoString) : (keyboard seq).flatten = seq := by
  unfold keyboard
  split
  · rename_i h
    rw [h]
    rfl
  · exact append_nil seq

/-- The sequences of a prelude. -/
def preludeSeqs (m : ModeTracker) : List GoString :=
  m.listed.map renderMode ++ keyboard m.modOther ++ keyboard m.kitty

theorem flatten_preludeSeqs (m : ModeTracker) : m.preludeSeqs.flatten = m.prelude := by
  unfold preludeSeqs prelude
  rw [flatten_append, flatten_append, flatten_keyboard, flatten_keyboard]
  rfl

theorem mem_listed :
    x ∈ m.listed ↔ x ∈ m.dec ∧ transientMode x.1 = false := by
  unfold listed
  rw [mem_insertionSort, mem_filter]
  simp

theorem Remembered.mem_keyboard {k : GoString} (h : Remembered of k)
    (hseq : seq ∈ keyboard k) : Scan.Whole seq ∧ of seq = some seq := by
  unfold keyboard at hseq
  split at hseq
  · cases hseq
  · rename_i hne
    rw [mem_singleton.mp hseq]
    exact h.resolve_left hne

section Prelude

variable {m : ModeTracker}

theorem Tracked.listed_range (h : m.Tracked) (hx : x ∈ m.listed) :
    -2 ^ 63 ≤ x.1 ∧ x.1 < 2 ^ 63 :=
  h.range x.1 (mem_map.mpr ⟨x, (mem_listed.mp hx).1, rfl⟩)

theorem Tracked.listed_keys (h : m.Tracked) : (m.listed.map Prod.fst).Nodup := by
  have hperm := (perm_insertionSort (fun x y : Int × Bool => x.1 ≤ y.1)
    (m.dec.filter (fun x => !transientMode x.1))).map Prod.fst
  refine hperm.nodup_iff.mpr ?_
  exact Nodup.sublist (Sublist.map _ filter_sublist) h.keys

theorem Tracked.listed_few (h : m.Tracked) : m.listed.length ≤ maxTrackedModes := by
  unfold listed
  rw [length_insertionSort]
  exact Nat.le_trans (length_filter_le _ _) h.few

theorem Tracked.whole_preludeSeqs (h : m.Tracked) : ∀ seq ∈ m.preludeSeqs, Scan.Whole seq := by
  intro seq hseq
  rcases mem_append.mp hseq with hseq | hseq
  · rcases mem_append.mp hseq with hseq | hseq
    · obtain ⟨x, hx, rfl⟩ := mem_map.mp hseq
      obtain ⟨hlow, hhigh⟩ := h.listed_range hx
      exact renderMode_whole hlow hhigh
    · exact (h.modOther.mem_keyboard hseq).1
  · exact (h.kitty.mem_keyboard hseq).1

theorem Tracked.assigns_preludeSeqs (h : m.Tracked) : m.preludeSeqs.flatMap assigns = m.listed := by
  have hmodes : (m.listed.map renderMode).flatMap assigns = m.listed := by
    rw [flatMap_map]
    have hone : ∀ x ∈ m.listed, assigns (renderMode x) = [x] := fun x hx =>
      assigns_renderMode (h.listed_range hx).1 (h.listed_range hx).2
    rw [flatMap_congr hone]
    exact flatMap_singleton' _
  have hother : (keyboard m.modOther).flatMap assigns = [] :=
    flatMap_eq_nil_iff.mpr fun seq hseq =>
      (modOtherOf_eq (h.modOther.mem_keyboard hseq).2).2.1
  have hkitty : (keyboard m.kitty).flatMap assigns = [] :=
    flatMap_eq_nil_iff.mpr fun seq hseq => (kittyOf_eq (h.kitty.mem_keyboard hseq).2).2.1
  unfold preludeSeqs
  rw [flatMap_append, flatMap_append, hmodes, hother, hkitty, append_nil,
    append_nil]

/-- Sequences that do not choose a protocol leave it. -/
theorem overwrite_none (h : ∀ seq ∈ seqs, of seq = none)
    (k : GoString) : overwrite of k seqs = k := by
  induction seqs with
  | nil => rfl
  | cons seq seqs ih =>
    change overwrite of ((of seq).getD k) seqs = k
    rw [h seq mem_cons_self]
    exact ih fun seq hseq => h seq (mem_cons_of_mem _ hseq)

theorem Remembered.overwrite_keyboard {k : GoString}
    (h : Remembered of k) : overwrite of [] (keyboard k) = k := by
  unfold keyboard
  split
  · rename_i hk
    exact hk.symm
  · rename_i hne
    change (of k).getD [] = k
    rw [(h.resolve_left hne).2]
    rfl

/-- A prelude puts a new tracker where the old one is, but for transient modes. -/
theorem Tracked.feed_prelude (h : m.Tracked) :
    new.feed m.prelude = ⟨.ground, [], m.listed, m.kitty, m.modOther⟩ := by
  have hrun : new.scan.run m.prelude = (Scan.ground, m.preludeSeqs) := by
    rw [← flatten_preludeSeqs]
    exact Scan.run_whole h.whole_preludeSeqs
  have hkitty : overwrite kittyOf [] m.preludeSeqs = m.kitty := by
    unfold preludeSeqs
    have hbefore : overwrite kittyOf [] (m.listed.map renderMode ++ keyboard m.modOther) = [] := by
      refine overwrite_none (fun seq hseq => ?_) _
      rcases mem_append.mp hseq with hseq | hseq
      · obtain ⟨x, -, rfl⟩ := mem_map.mp hseq
        exact (keyboard_renderMode x).1
      · exact (modOtherOf_eq (h.modOther.mem_keyboard hseq).2).2.2
    rw [overwrite_append, hbefore, h.kitty.overwrite_keyboard]
  have hother : overwrite modOtherOf [] m.preludeSeqs = m.modOther := by
    unfold preludeSeqs
    have hmodes : overwrite modOtherOf [] (m.listed.map renderMode) = [] := by
      refine overwrite_none (fun seq hseq => ?_) _
      obtain ⟨x, -, rfl⟩ := mem_map.mp hseq
      exact (keyboard_renderMode x).2
    rw [overwrite_append, overwrite_append, hmodes, h.modOther.overwrite_keyboard]
    exact overwrite_none (fun seq hseq => (kittyOf_eq (h.kitty.mem_keyboard hseq).2).2.2) _
  rw [feed_eq, hrun, h.assigns_preludeSeqs]
  simp only [new, hkitty, hother, assign_nil h.listed_keys h.listed_few, Scan.ground]

end Prelude

/-- A tracker `m` that read `p` from a boundary on: its prelude and then `p` again bring its
modes back. -/
theorem Tracked.restores {before : ModeTracker} {p : GoString} (h : m.Tracked)
    (hstart : before.scan = Scan.ground) (hdec : m.dec = (before.feed p).dec)
    (hkitty : m.kitty = (before.feed p).kitty) (hother : m.modOther = (before.feed p).modOther) :
    (∀ n v, transientMode n = false → m.dec.lookup n = some v →
      (new.feed (m.prelude ++ p)).dec.lookup n = some v) ∧
    (new.feed (m.prelude ++ p)).modOther = m.modOther ∧
    (new.feed (m.prelude ++ p)).kitty = m.kitty := by
  have hscan : (new.feed m.prelude).scan = Scan.ground := by
    rw [h.feed_prelude]
    rfl
  rw [feed_append, feed_dec, feed_kitty, feed_modOther, hscan, h.feed_prelude]
  rw [feed_dec, hstart] at hdec
  rw [feed_kitty, hstart] at hkitty
  rw [feed_modOther, hstart] at hother
  refine ⟨fun n v hn hv => ?_, ?_, ?_⟩
  · have hlisted : m.listed.lookup n = some v :=
      lookup_of_mem h.listed_keys (mem_listed.mpr ⟨mem_of_lookup hv, hn⟩)
    rw [hdec] at hv
    rw [lookup_assign hlisted, overwrite_of_lookup hv]
  · dsimp only
    rw [hother, overwrite_idem]
  · dsimp only
    rw [hkitty, overwrite_idem]

end ModeTracker

/-! ## The ring -/

open ModeTracker

/-- The chunks were read one after the other, from the tracker `m` to the tracker `last`, and
each says whether it began at a boundary. -/
def Replays : ModeTracker → List Chunk → ModeTracker → Prop
  | m, [], last => m = last
  | m, c :: cs, last => c.cleanStart = m.atBoundary ∧ Replays (m.feed c.b) cs last

variable {last : ModeTracker} {cs : List Chunk}

theorem Replays.concat {m : ModeTracker} (h : Replays m cs last)
    (p : GoString) : Replays m (cs ++ [⟨p, last.atBoundary⟩]) (last.feed p) := by
  induction cs generalizing m with
  | nil =>
    cases h
    exact ⟨rfl, rfl⟩
  | cons c cs ih => exact ⟨h.1, ih h.2⟩

/-- The oldest chunks may be dropped. -/
theorem Replays.evict {m : ModeTracker} {limit bytes : Nat} (h : Replays m cs last)
    (hm : m.Tracked) :
    ∃ m', m'.Tracked ∧ Replays m' (evict limit bytes cs).2 last := by
  induction cs generalizing m bytes with
  | nil => exact ⟨m, hm, h⟩
  | cons c cs ih =>
    unfold Lemul.PtySession.evict
    split
    · exact ih h.2 (hm.feed c.b)
    · exact ⟨m, hm, h⟩

theorem started_ground {c : Scan} (h : c.Started) (hstate : c.state = .ground) :
    c = Scan.ground := by
  have hbyte : ∀ (c : Scan) (b : UInt8), (c.state = .ground → c = Scan.ground) →
      (c.byte b).1.state = .ground → (c.byte b).1 = Scan.ground := by
    intro c b hc
    unfold Scan.byte
    split
    · rename_i hground
      split
      · exact nofun
      · exact fun _ => hc hground
    · split
      · exact nofun
      · exact fun _ => rfl
    · split
      · exact fun _ => rfl
      · split
        · exact fun _ => rfl
        · exact nofun
  have hrun : ∀ (p : GoString) (c : Scan), (c.state = .ground → c = Scan.ground) →
      (c.run p).1.state = .ground → (c.run p).1 = Scan.ground := by
    intro p
    induction p with
    | nil => exact fun c hc => hc
    | cons b p ih => exact fun c hc => ih _ (hbyte c b hc)
  have hlast := hrun c.partialSeq Scan.ground (fun _ => rfl)
  unfold Scan.Started at h
  rw [h] at hlast
  exact hlast hstate

/-- The snapshot is what was read since some boundary, and the modes are what they became
from there. -/
theorem Replays.snapshot {m : ModeTracker} (h : Replays m cs last) (hm : m.Tracked) :
    ∃ before : ModeTracker, before.scan = Scan.ground ∧
      let read := before.feed ((cs.dropWhile (fun c => !c.cleanStart)).flatMap (fun c => c.b))
      last.dec = read.dec ∧ last.kitty = read.kitty ∧ last.modOther = read.modOther := by
  have hwhole : ∀ {m : ModeTracker} {cs : List Chunk}, Replays m cs last →
      m.feed (cs.flatMap (fun c => c.b)) = last := by
    intro m cs h
    induction cs generalizing m with
    | nil => exact h
    | cons c cs ih =>
      rw [flatMap_cons, feed_append]
      exact ih h.2
  induction cs generalizing m with
  | nil => exact ⟨⟨.ground, [], last.dec, last.kitty, last.modOther⟩, rfl, rfl, rfl, rfl⟩
  | cons c cs ih =>
    cases hclean : c.cleanStart with
    | false =>
      rw [dropWhile_cons_of_pos (by rw [hclean]; rfl)]
      exact ih h.2 (hm.feed c.b)
    | true =>
      rw [dropWhile_cons_of_neg (by rw [hclean]; decide)]
      have hboundary : m.state = .ground := by
        have hat : m.atBoundary = true := h.1 ▸ hclean
        exact of_decide_eq_true hat
      refine ⟨m, started_ground hm.started hboundary, ?_⟩
      rw [hwhole h]
      exact ⟨rfl, rfl, rfl⟩

/-! ## A session -/

/-- The tracker and the ring of a session. -/
def Session.Recorded (s : Session) : Prop :=
  s.modes.Tracked ∧ ∃ m : ModeTracker, m.Tracked ∧ Replays m s.ring.chunks s.modes

theorem step_recorded {s s' : Session} {l : Label} (h : s.Recorded)
    (hstep : session.step s l = some s') : s'.Recorded := by
  obtain ⟨hmodes, m, hm, hreplays⟩ := h
  cases step_rule hstep with
  | read hfree hreading hperm => exact ⟨hmodes.feed _, (hreplays.concat _).evict hm⟩
  | push | unlock | eof | finish | close | finished | attach | delete | detached | next =>
    exact ⟨hmodes, m, hm, hreplays⟩

theorem run_recorded {ringBytes : Int} {tr : List Label} {s : Session}
    (hrun : session.Run (newSession ringBytes) tr s) : s.Recorded :=
  hrun.invariant (fun _ _ _ => step_recorded) ⟨tracked_new, .new, tracked_new, rfl⟩

/-- Unless it overflows at once, a new attachment holds the prelude and the snapshot. -/
theorem seeded_bytes (s : Session) (readOnly : Bool) :
    (s.seeded readOnly).reason = .overflow ∨
      (s.seeded readOnly).q.flatten = s.modes.prelude ++ s.ring.snapshot := by
  unfold Session.seeded
  have hopen : (Attachment.new readOnly Attachment.defaultQueueBytes).closed = false := rfl
  rcases Attachment.push_cases (p := s.modes.prelude) hopen with ⟨hseed, hq⟩ | ⟨hseed, hover, -⟩
  · rcases Attachment.push_cases (p := s.ring.snapshot) hseed with ⟨-, hq'⟩ | ⟨-, hover, -⟩
    · exact .inr (by rw [hq', hq]; rfl)
    · exact .inl hover
  · exact .inl (by rw [Attachment.push_of_closed hseed, hover])

/-- Whatever a session's program wrote and however it was read, an attacher's terminal that
obeys the bytes it is seeded with ends in the modes of the session. -/
theorem seed_restores_modes {ringBytes : Int} {tr : List Label} {s : Session}
    (hrun : session.Run (newSession ringBytes) tr s) :
    let fresh := ModeTracker.new.feed (s.modes.prelude ++ s.ring.snapshot)
    (∀ n v, transientMode n = false → s.modes.dec.lookup n = some v →
      fresh.dec.lookup n = some v) ∧
    fresh.modOther = s.modes.modOther ∧ fresh.kitty = s.modes.kitty ∧
    ∀ readOnly, (s.seeded readOnly).reason = .overflow ∨
      (s.seeded readOnly).q.flatten = s.modes.prelude ++ s.ring.snapshot := by
  obtain ⟨hmodes, m, hm, hreplays⟩ := run_recorded hrun
  obtain ⟨before, hground, hdec, hkitty, hother⟩ := hreplays.snapshot hm
  obtain ⟨hrestored, hrest⟩ := hmodes.restores hground hdec hkitty hother
  exact ⟨hrestored, hrest.1, hrest.2, seeded_bytes s⟩

/-- A read that ends inside a sequence, the rest of it, and a read from a boundary on: the
ring is left with the last two. -/
def switched : List Label :=
  [.read "\x1b[?2004h\x1b[?25" [], .unlock, .read "l\x1b[?1049h" [], .unlock,
    .read "\x1b[>1u\x1b[?2004l" [], .unlock]

def switchedState : Session := (session.exec (newSession 24) switched).get (by decide +kernel)

theorem seed_restores_modes_switched :
    let seed := switchedState.modes.prelude ++ switchedState.ring.snapshot
    seed = "\x1b[?25l\x1b[?1049h\x1b[?2004l\x1b[>1u" ++ "\x1b[>1u\x1b[?2004l" ∧
    (ModeTracker.new.feed seed).dec.lookup 25 = some false ∧
    (ModeTracker.new.feed seed).kitty = "\x1b[>1u" := by
  have hrun : session.Run (newSession 24) switched switchedState :=
    Lts.exec_run (Option.some_get _).symm
  obtain ⟨hmodes, -, hkitty, -⟩ := seed_restores_modes hrun
  refine ⟨by decide +kernel, hmodes 25 false rfl (by decide +kernel), ?_⟩
  rw [hkitty]
  decide +kernel

end Lemul.PtySession
