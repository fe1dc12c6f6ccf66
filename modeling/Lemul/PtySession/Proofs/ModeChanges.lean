import Lemul.PtySession.Proofs.Boundary
import Lemul.PtySession.Proofs.ModeReplay

/-!
# Which mode changes are seen

`commit` (`modes.go:103-143`) against a terminal in which every `ESC` begins a new sequence.
A private-mode sequence is seen if it comes while the tracker is between sequences. Otherwise
its `ESC` ends what the tracker is in, or becomes a part of it that the `[` ends, and the rest
of it is text. Every `CSI > ... m` is taken for the choice of `modifyOtherKeys`, whatever its
first parameter is.
-/

namespace Lemul.PtySession

open Ecma48 List Option

namespace Scan

/-- The bytes held in each state. -/
def Held (c : Scan) : Prop :=
  match c.state with
  | .ground => c.partialSeq = []
  | .esc => c.partialSeq = [27]
  | .csi => ∃ params, c.partialSeq = [27, 91] ++ params ∧ (∀ b ∈ params, isFinal b = false) ∧
      c.partialSeq.length ≤ maxPartial

variable {c : Scan} {seq : GoString}

theorem held_byte (h : c.Held) (b : UInt8) : (c.byte b).1.Held := by
  unfold byte
  split
  · split
    · rename_i hb
      rw [hb]
      rfl
    · exact h
  · rename_i hstate
    split
    · rename_i hb
      simp only [Held, hstate] at h
      refine ⟨[], ?_, nofun, ?_⟩
      · rw [h, hb]
        rfl
      · rw [h, length_append, length_singleton, length_singleton]
        decide
    · rfl
  · rename_i hstate
    split
    · rfl
    · rename_i hfinal
      split
      · rfl
      · rename_i hlen
        simp only [Held, hstate] at h
        obtain ⟨params, hseq, hparams, -⟩ := h
        refine ⟨params ++ [b], ?_, fun x hx => ?_, Nat.not_lt.mp hlen⟩
        · rw [hseq, append_assoc]
        · rcases mem_concat.mp hx with hx | rfl
          · exact hparams x hx
          · exact decide_eq_false hfinal

theorem held_run (h : c.Held) (p : GoString) : (c.run p).1.Held := by
  induction p generalizing c with
  | nil => exact h
  | cons b p ih => exact ih (held_byte h b)

/-- A byte leads back between sequences or is added to the one that is being read. -/
theorem byte_added (h : c.Held) (b : UInt8) : (c.byte b).1.state = .ground ∨
    (c.byte b).1.partialSeq = c.partialSeq ++ [b] ∧ (c.byte b).2 = none := by
  unfold byte
  split
  · rename_i hstate
    split
    · simp only [Held, hstate] at h
      rw [h]
      exact .inr ⟨rfl, rfl⟩
    · exact .inl hstate
  · split
    · exact .inr ⟨rfl, rfl⟩
    · exact .inl rfl
  · split
    · exact .inl rfl
    · split
      · exact .inl rfl
      · exact .inr ⟨rfl, rfl⟩

/-- Only a final byte completes a sequence. -/
theorem byte_eq_some {b : UInt8} (h : (c.byte b).2 = some seq) :
    c.state = .csi ∧ seq = c.partialSeq ++ [b] := by
  unfold byte at h
  split at h
  · split at h <;> cases h
  · split at h <;> cases h
  · rename_i hstate
    split at h
    · cases h
      exact ⟨hstate, rfl⟩
    · split at h <;> cases h

/-- What is completed fits into the buffer and a final byte. -/
theorem length_run_le (h : c.Held) (p : GoString) :
    ∀ seq ∈ (c.run p).2, seq.length ≤ maxPartial + 1 := by
  induction p generalizing c with
  | nil => exact nofun
  | cons b p ih =>
    intro seq hseq
    rcases mem_append.mp hseq with hseq | hseq
    · obtain ⟨hstate, rfl⟩ := byte_eq_some (mem_toList.mp hseq)
      simp only [Held, hstate] at h
      obtain ⟨params, -, -, hlen⟩ := h
      rw [length_append, length_singleton]
      omega
    · exact ih (held_byte h b) seq hseq

theorem Whole.length_le (h : Whole seq) : seq.length ≤ maxPartial + 1 := by
  have hground : ground.Held := rfl
  have hlen := length_run_le hground seq
  unfold Whole at h
  rw [h] at hlen
  exact hlen seq (mem_singleton_self seq)

end Scan

namespace ModeTracker

/-! ## Private modes -/

/-- `ESC [ ?`, numbers and `h` or `l`. -/
def privateMode (fs : List GoString) (set : Bool) : GoString :=
  [27, 91] ++ (63 :: [59].intercalate fs) ++ [if set then 104 else 108]

/-- The mode that a field names. -/
def number (f : GoString) : Int := digitsValue 0 f

/-- Numbers that make a sequence which is not too long for `partial`. -/
structure Numbers (fs : List GoString) : Prop where
  nonempty : fs ≠ []
  digits : ∀ f ∈ fs, f ≠ [] ∧ f.all isDigit = true
  short : ([59].intercalate fs).length + 3 ≤ maxPartial

/-- A mode that is tracked already, or for which there is room when the new ones among those
named `before` it have been added. -/
def TakenUp (dec : List (Int × Bool)) (before : List GoString) (n : Int) : Prop :=
  n ∈ dec.map Prod.fst ∨
    dec.length + ((before.map number).filter (fun k => k ∉ dec.map Prod.fst)).dedup.length <
      maxTrackedModes

/-- However the output `u` and the sequence are cut into chunks, every mode of the sequence that
is taken up has its value in the end. -/
def Obeyed (u : GoString) (fs : List GoString) (set : Bool) : Prop :=
  ∀ chunks : List GoString, chunks.flatten = u ++ privateMode fs set →
    ∀ before f after, fs = before ++ f :: after → TakenUp (new.feed u).dec before (number f) →
      (chunks.foldl feed new).dec.lookup (number f) = some set

/-- Between two sequences: the modes that are taken up are numbers of 64 bits. Inside one: they
have the value already. -/
def Follows (u : GoString) (fs : List GoString) (set : Bool) : Prop :=
  ∀ before f after, fs = before ++ f :: after → TakenUp (new.feed u).dec before (number f) →
    if (new.feed u).atBoundary then number f < 2 ^ 63
    else (new.feed u).dec.lookup (number f) = some set

theorem foldl_feed (m : ModeTracker) (chunks : List GoString) :
    chunks.foldl feed m = m.feed chunks.flatten := foldl_flatten.symm

theorem tracked_feed (u : GoString) : (new.feed u).Tracked := tracked_new.feed u

theorem atoi_number {f : GoString} (hne : f ≠ []) (hdigits : f.all isDigit = true) :
    atoi f = if number f < 2 ^ 63 then some (number f) else none := by
  have hparse : parseDecimal f = some (digitsValue 0 f) := by
    simp only [parseDecimal, hdigits, ne_eq, hne, not_false_eq_true, decide_true, Bool.and_self,
      if_true]
  cases f with
  | nil => exact absurd rfl hne
  | cons b rest =>
    rw [all_cons, Bool.and_eq_true] at hdigits
    have hminus : b ≠ 45 := by
      rintro rfl
      exact absurd hdigits.1 (by decide)
    have hplus : b ≠ 43 := by
      rintro rfl
      exact absurd hdigits.1 (by decide)
    simp only [atoi, if_neg hminus, if_neg hplus, hparse, bind_some]
    have hnumber : number (b :: rest) = (digitsValue 0 (b :: rest) : Nat) := rfl
    by_cases hlt : digitsValue 0 (b :: rest) < 2 ^ 63
    · rw [if_pos hlt, if_pos (by omega), hnumber]
    · rw [if_neg hlt, if_neg (by omega)]

section Fields

variable {fs : List GoString} {set : Bool}

/-- The assignments of the fields that are numbers of 64 bits. -/
def named (fs : List GoString) (set : Bool) : List (Int × Bool) :=
  fs.filterMap fun f => (atoi f).map (·, set)

theorem named_append (fs gs : List GoString) (set : Bool) :
    named (fs ++ gs) set = named fs set ++ named gs set := filterMap_append

theorem mem_named {x : Int × Bool} (h : x ∈ named fs set)
    (hfs : ∀ f ∈ fs, f ≠ [] ∧ f.all isDigit = true) : x.1 ∈ fs.map number ∧ x.2 = set := by
  obtain ⟨f, hf, hx⟩ := mem_filterMap.mp h
  obtain ⟨n, hn, rfl⟩ := map_eq_some_iff.mp hx
  rw [atoi_number (hfs f hf).1 (hfs f hf).2] at hn
  split at hn <;> cases hn
  exact ⟨mem_map_of_mem hf, rfl⟩

theorem mem_intercalate {sep b : UInt8} (h : b ∈ [sep].intercalate fs) :
    b = sep ∨ ∃ f ∈ fs, b ∈ f := by
  induction fs with
  | nil => cases h
  | cons f fs ih =>
    cases fs with
    | nil =>
      rw [intercalate_singleton] at h
      exact .inr ⟨f, mem_cons_self, h⟩
    | cons g fs =>
      rw [intercalate_cons_cons, mem_append, mem_append] at h
      rcases h with (h | h) | h
      · exact .inr ⟨f, mem_cons_self, h⟩
      · exact .inl (mem_singleton.mp h)
      · exact (ih h).imp id fun ⟨f', hf', hb⟩ => ⟨f', mem_cons_of_mem _ hf', hb⟩

/-- Digits and separators are neither an `ESC` nor a final byte. -/
theorem Numbers.params (h : Numbers fs) {b : UInt8} (hb : b ∈ [59].intercalate fs) :
    27 < b ∧ b < 64 := by
  rcases mem_intercalate hb with rfl | ⟨f, hf, hb⟩
  · decide
  · have hdigit := all_eq_true.mp (h.digits f hf).2 b hb
    refine ⟨UInt8.lt_iff_toNat_lt.mpr ?_, (isDigit_lt hdigit).1⟩
    simp only [isDigit, Bool.and_eq_true, decide_eq_true_eq] at hdigit
    exact Nat.lt_of_lt_of_le (by decide) hdigit.1

theorem Numbers.whole (h : Numbers fs) : Scan.Whole (privateMode fs set) := by
  refine Scan.whole_csi ?_ ?_ ?_
  · intro b hb hfinal
    rcases mem_cons.mp hb with rfl | hb
    · exact absurd hfinal.1 (by decide)
    · exact absurd hfinal.1 (UInt8.not_le.mpr (h.params hb).2)
  · have hshort := h.short
    rw [length_cons]
    omega
  · cases set <;> decide

theorem Numbers.assigns_eq (h : Numbers fs) : assigns (privateMode fs set) = named fs set := by
  have hparams : ((privateMode fs set).drop 2).dropLast = 63 :: [59].intercalate fs :=
    dropLast_concat
  have hlast : (privateMode fs set).getLast? = some (if set then 104 else 108) :=
    getLast?_concat
  have hsplit : ([59].intercalate fs).splitOn 59 = fs := by
    refine splitOn_intercalate 59 (fun f hf hmem => ?_) h.nonempty
    exact (isDigit_lt (all_eq_true.mp (h.digits f hf).2 59 hmem)).2 rfl
  rw [assigns_private hparams, hlast, hsplit]
  cases set <;> rfl

end Fields

/-! ## Room for a mode -/

section Room

variable {dec : List (Int × Bool)} {n : Int} {v : Bool}

theorem lookup_setMode_room (hroom : dec.length < maxTrackedModes) :
    (setMode dec n v).lookup n = some v := by
  cases hdec : dec.lookup n with
  | some w => exact lookup_setMode_known hdec
  | none =>
    have hnew : ¬dec.any (fun x => x.1 = n) = true := by
      rw [any_eq_true_iff]
      intro hmem
      obtain ⟨x, hx, rfl⟩ := mem_map.mp hmem
      exact absurd (lookup_eq_none_iff.mp hdec x hx) (by simp)
    rw [setMode, if_neg hnew, if_neg (Nat.not_le.mpr hroom), lookup_append, hdec,
      none_or, lookup_cons_self]

variable {xs : List (Int × Bool)}

/-- An assignment adds no mode but its own. -/
theorem keys_assign {k : Int} (h : k ∈ (assign dec xs).map Prod.fst) :
    k ∈ dec.map Prod.fst ∨ k ∈ xs.map Prod.fst := by
  induction xs generalizing dec with
  | nil => exact .inl h
  | cons x xs ih =>
    change k ∈ (assign (setMode dec x.1 x.2) xs).map Prod.fst at h
    rw [map_cons, mem_cons]
    rcases ih h with hk | hk
    · rcases keys_setMode dec x.1 x.2 with hsame | ⟨-, -, hadded⟩
      · exact .inl (hsame ▸ hk)
      · rw [hadded, map_append, mem_append] at hk
        rcases hk with hk | hk
        · exact .inl hk
        · exact .inr (.inl (mem_singleton.mp hk))
    · exact .inr (.inr hk)

/-- Assignments of one value leave it. -/
theorem overwrite_assigned (h : ∀ x ∈ xs, x.2 = v) :
    overwrite (assigned n) v xs = v := by
  induction xs with
  | nil => rfl
  | cons x xs ih =>
    have hx : (assigned n x).getD v = v := by
      unfold assigned
      split
      · exact h x mem_cons_self
      · rfl
    change overwrite (assigned n) ((assigned n x).getD v) xs = v
    rw [hx]
    exact ih fun y hy => h y (mem_cons_of_mem _ hy)

end Room

section TakenUp

variable {m : ModeTracker} {before after : List GoString} {f : GoString} {set : Bool}

/-- The modes named before another one take no more room than there are new ones among them. -/
theorem Tracked.length_assign (hm : m.Tracked)
    (hfs : ∀ g ∈ before, g ≠ [] ∧ g.all isDigit = true) :
    (assign m.dec (named before set)).length ≤ m.dec.length +
      ((before.map number).filter (fun k => k ∉ m.dec.map Prod.fst)).dedup.length := by
  have hrange : ∀ x ∈ named before set, -2 ^ 63 ≤ x.1 ∧ x.1 < 2 ^ 63 := by
    intro x hx
    obtain ⟨g, -, hg⟩ := mem_filterMap.mp hx
    obtain ⟨n, hn, rfl⟩ := map_eq_some_iff.mp hg
    exact atoi_range hn
  obtain ⟨hkeys, -, -⟩ := assign_keeps hm.keys hm.few hm.range hrange
  have hsubset : (assign m.dec (named before set)).map Prod.fst ⊆ m.dec.map Prod.fst ++
      ((before.map number).filter (fun k => k ∉ m.dec.map Prod.fst)).dedup := by
    intro k hk
    by_cases hold : k ∈ m.dec.map Prod.fst
    · exact mem_append_left _ hold
    · refine mem_append_right _ (mem_dedup.mpr (mem_filter.mpr ?_))
      obtain ⟨x, hx, rfl⟩ := mem_map.mp ((keys_assign hk).resolve_left hold)
      exact ⟨(mem_named hx hfs).1, decide_eq_true hold⟩
  have hlength := (subperm_of_subset hkeys hsubset).length_le
  rwa [length_append, length_map, length_map] at hlength

/-- A mode that is taken up has room when its turn comes. -/
theorem TakenUp.lookup_assign (h : TakenUp m.dec before (number f)) (hm : m.Tracked)
    (hfs : ∀ g ∈ before ++ f :: after, g ≠ [] ∧ g.all isDigit = true)
    (hf : number f < 2 ^ 63) :
    (assign m.dec (named (before ++ f :: after) set)).lookup (number f) = some set := by
  have hbefore : ∀ g ∈ before, g ≠ [] ∧ g.all isDigit = true :=
    fun g hg => hfs g (mem_append_left _ hg)
  have hafter : ∀ g ∈ after, g ≠ [] ∧ g.all isDigit = true :=
    fun g hg => hfs g (mem_append_right _ (mem_cons_of_mem _ hg))
  have hatoi : atoi f = some (number f) := by
    obtain ⟨hne, hdigits⟩ := hfs f (mem_append_right _ mem_cons_self)
    rw [atoi_number hne hdigits, if_pos hf]
  have hnamed : named (f :: after) set = (number f, set) :: named after set :=
    filterMap_cons_some (by rw [hatoi]; rfl)
  have hset : (setMode (assign m.dec (named before set)) (number f) set).lookup (number f) =
      some set := by
    rcases h with hknown | hroom
    · obtain ⟨x, hx, hkey⟩ := mem_map.mp hknown
      have hlookup : m.dec.lookup (number f) = some x.2 := by
        rw [← hkey]
        exact lookup_of_mem hm.keys hx
      exact lookup_setMode_known (ModeTracker.lookup_assign hlookup _)
    · exact lookup_setMode_room (Nat.lt_of_le_of_lt (hm.length_assign hbefore) hroom)
  have hsame : overwrite (assigned (number f)) set (named after set) = set :=
    overwrite_assigned fun x hx => (mem_named hx hafter).2
  rw [named_append, hnamed, assign_append]
  change (assign (setMode _ _ _) (named after set)).lookup (number f) = some set
  rw [ModeTracker.lookup_assign hset, hsame]

end TakenUp

/-! ## What a tracker makes of the sequence -/

section Sequence

variable {m : ModeTracker} {fs : List GoString} {set : Bool}

/-- Between two sequences it is obeyed. -/
theorem Numbers.feed_boundary (h : Numbers fs) (hm : m.Tracked) (hat : m.atBoundary = true) :
    (m.feed (privateMode fs set)).dec = assign m.dec (named fs set) := by
  have hground : m.scan = Scan.ground := started_ground hm.started (of_decide_eq_true hat)
  have hrun : m.scan.run (privateMode fs set) = (Scan.ground, [privateMode fs set]) := by
    rw [hground]
    exact h.whole
  rw [feed_dec, hrun]
  simp only [flatMap_cons, flatMap_nil, append_nil, h.assigns_eq]

/-- No `h` or `l` at the end, no private mode. -/
theorem assigns_of_last {seq : GoString} {b : UInt8} (h : seq.getLast? = some b) (hset : b ≠ 104)
    (hreset : b ≠ 108) : assigns seq = [] := by
  unfold assigns
  split
  · dsimp only
    rw [h, if_neg (mt Option.some.inj hset), if_neg (mt Option.some.inj hreset)]
  · rfl

/-- Inside a sequence it is lost. -/
theorem Numbers.feed_inside (h : Numbers fs) (hat : m.atBoundary = false) :
    (m.feed (privateMode fs set)).dec = m.dec := by
  obtain ⟨state, seq, dec, kitty, modOther⟩ := m
  let rest := (63 :: [59].intercalate fs) ++ [if set then 104 else 108]
  -- what follows the ESC is text once the tracker is between sequences
  have htext : (27 : UInt8) ∉ rest := by
    intro hmem
    rcases mem_concat.mp hmem with hmem | hmem
    · rcases mem_cons.mp hmem with heq | hmem
      · exact absurd heq (by decide)
      · exact absurd (h.params hmem).1 (by decide)
    · cases set <;> exact absurd hmem (by decide)
  have hopened : (27 : UInt8) ∉ 91 :: rest :=
    fun hmem => htext ((mem_cons.mp hmem).resolve_left (by decide))
  have hnone : ((⟨state, seq⟩ : Scan).run (27 :: 91 :: rest)).2.flatMap assigns = [] := by
    cases state with
    | ground => cases hat
    | esc =>
      have hesc : (⟨.esc, seq⟩ : Scan).byte 27 = (Scan.ground, none) := rfl
      rw [Scan.run, hesc, Scan.run_text rfl hopened]
      rfl
    | csi =>
      have hparam : ¬((64 : UInt8) ≤ 27 ∧ (27 : UInt8) ≤ 126) := by decide
      by_cases hlong : maxPartial < (seq ++ [27]).length
      · have hesc : (⟨.csi, seq⟩ : Scan).byte 27 = (Scan.ground, none) := by
          simp only [Scan.byte, if_neg hparam, if_pos hlong]
        rw [Scan.run, hesc, Scan.run_text rfl hopened]
        rfl
      · have hesc : (⟨.csi, seq⟩ : Scan).byte 27 = (⟨.csi, seq ++ [27]⟩, none) := by
          simp only [Scan.byte, if_neg hparam, if_neg hlong]
        have hfinal : (⟨.csi, seq ++ [27]⟩ : Scan).byte 91 =
            (Scan.ground, some (seq ++ [27] ++ [91])) := rfl
        have hlast : assigns (seq ++ [27] ++ [91]) = [] :=
          assigns_of_last getLast?_concat (by decide) (by decide)
        rw [Scan.run, hesc, Scan.run, hfinal, Scan.run_text rfl htext]
        simp only [Option.toList_none, Option.toList_some, nil_append, append_nil,
          flatMap_cons, flatMap_nil, hlast]
  rw [feed_dec]
  change assign dec (((⟨state, seq⟩ : Scan).run (27 :: 91 :: rest)).2.flatMap assigns) = dec
  rw [hnone]
  rfl

/-- Every mode of the sequence gets its value exactly if it is between sequences and all of them
are numbers of 64 bits, or they have it already. -/
theorem Numbers.obeyed_iff (h : Numbers fs) (u : GoString) :
    Obeyed u fs set ↔ Follows u fs set := by
  have hfed : ∀ chunks : List GoString, chunks.flatten = u ++ privateMode fs set →
      chunks.foldl feed new = (new.feed u).feed (privateMode fs set) := by
    intro chunks hchunks
    rw [foldl_feed, hchunks, feed_append]
  have hlast : Obeyed u fs set ↔ ∀ before f after, fs = before ++ f :: after →
      TakenUp (new.feed u).dec before (number f) →
        ((new.feed u).feed (privateMode fs set)).dec.lookup (number f) = some set := by
    constructor
    · intro hobeyed
      have hwhole := hobeyed [u ++ privateMode fs set] (append_nil _)
      rwa [hfed _ (append_nil _)] at hwhole
    · intro hwhole chunks hchunks
      rwa [hfed chunks hchunks]
  rw [hlast]
  refine forall_congr' fun before => forall_congr' fun f => forall_congr' fun after =>
    forall_congr' fun hfs => forall_congr' fun htaken => ?_
  cases hat : (new.feed u).atBoundary with
  | true =>
    rw [if_pos rfl]
    constructor
    · intro hlookup
      have hrange := ((tracked_feed u).feed (privateMode fs set)).range (number f)
      exact (hrange (mem_map_of_mem (mem_of_lookup hlookup))).2
    · intro hf
      have hdigits : ∀ g ∈ before ++ f :: after, g ≠ [] ∧ g.all isDigit = true :=
        fun g hg => h.digits g (hfs ▸ hg)
      rw [h.feed_boundary (tracked_feed u) hat, hfs]
      exact htaken.lookup_assign (tracked_feed u) hdigits hf
  | false =>
    rw [h.feed_inside hat, if_neg Bool.false_ne_true]

end Sequence

/-! ## The keyboard -/

/-- `CSI > rest m`. -/
def keyModifier (rest : GoString) : GoString := [27, 91] ++ (62 :: rest) ++ [109]

/-- `CSI > 4 m`, or `CSI > 4 ;` with more parameters. -/
def ModifyOtherKeys (seq : GoString) : Prop :=
  ∃ rest, seq = keyModifier (52 :: rest) ∧ (rest = [] ∨ rest.head? = some 59) ∧
    ∀ b ∈ rest, b ≠ 27 ∧ isFinal b = false

/-- Whenever a byte of `w` changes what is stored for `modifyOtherKeys`, it ends a sequence that
chooses it. -/
def OnlyModifyOtherKeys (w : GoString) : Prop :=
  ∀ u b v, w = u ++ b :: v → (new.feed (u ++ [b])).modOther ≠ (new.feed u).modOther →
    ∃ seq, seq <:+ u ++ [b] ∧ ModifyOtherKeys seq

/-- A `CSI > ... m` that begins where the tracker is between sequences, and that it has not
stored already, has `4` as its first parameter and no `ESC` in it. -/
def NamesFour (w : GoString) : Prop :=
  ∀ u rest v, w = u ++ keyModifier rest ++ v → (new.feed u).atBoundary = true →
    (∀ b ∈ rest, isFinal b = false) → rest.length + 3 ≤ maxPartial →
    keyModifier rest ≠ (new.feed u).modOther → ModifyOtherKeys (keyModifier rest)

theorem held_feed (u : GoString) : (new.feed u).scan.Held := by
  have hnew : new.scan.Held := rfl
  rw [feed_scan]
  exact Scan.held_run hnew u

theorem feed_concat (m : ModeTracker) (u : GoString) (b : UInt8) :
    m.feed (u ++ [b]) = (m.feed u).feedByte b := by
  rw [feed_append]
  rfl

theorem feedByte_scan (m : ModeTracker) (b : UInt8) : (m.feedByte b).scan = (m.scan.byte b).1 := by
  rw [feedByte_eq]
  rfl

theorem feedByte_modOther (m : ModeTracker) (b : UInt8) :
    (m.feedByte b).modOther = overwrite modOtherOf m.modOther (m.scan.byte b).2.toList := by
  rw [feedByte_eq]

/-- The bytes of the sequence that the tracker is in are the last of the output, it began where
the tracker was between sequences, and nothing was stored since. -/
theorem feed_split (u : GoString) :
    ∃ before, u = before ++ (new.feed u).partialSeq ∧ (new.feed before).atBoundary = true ∧
      (new.feed before).modOther = (new.feed u).modOther := by
  induction u using reverseRecOn with
  | nil => exact ⟨[], rfl, rfl, rfl⟩
  | append_singleton u b ih =>
    have hheld := held_feed (u ++ [b])
    rw [feed_concat, feedByte_scan] at hheld
    rcases Scan.byte_added (held_feed u) b with hground | ⟨hadded, hnone⟩
    · have hempty : ((new.feed u).feedByte b).partialSeq = [] := by
        simp only [Scan.Held, hground] at hheld
        rw [← hheld, ← feedByte_scan]
        rfl
      refine ⟨u ++ [b], ?_, ?_, rfl⟩
      · rw [feed_concat, hempty, append_nil]
      · rw [← feedByte_scan] at hground
        rw [feed_concat]
        exact decide_eq_true hground
    · obtain ⟨before, hu, hat, hother⟩ := ih
      refine ⟨before, ?_, hat, ?_⟩
      · have hpartial : ((new.feed u).feedByte b).partialSeq = (new.feed u).partialSeq ++ [b] := by
          rw [← feedByte_scan] at hadded
          exact hadded
        rw [feed_concat, hpartial, ← append_assoc, ← hu]
      · rw [feed_concat, feedByte_modOther, hnone, hother]
        rfl

/-- Two sequences at the end of the same output, neither of which has a second `[`. -/
theorem csi_suffix_unique {t t' w : GoString} (h : 27 :: 91 :: t <:+ w)
    (h' : 27 :: 91 :: t' <:+ w) (ht : 91 ∉ t) (ht' : 91 ∉ t') : t = t' := by
  have hone : ∀ {t t' : GoString}, 91 ∉ t' → 27 :: 91 :: t <:+ 27 :: 91 :: t' → t = t' := by
    rintro t t' ht' ⟨x, hx⟩
    match x, hx with
    | [], hx =>
      injection hx with _ hx
      injection hx
    | [a], hx =>
      injection hx with _ hx
      injection hx with hbad
      exact absurd hbad (by decide)
    | a :: b :: x, hx =>
      injection hx with _ hx
      injection hx with _ hx
      refine absurd ?_ ht'
      rw [← hx]
      exact mem_append_right _ (mem_cons_of_mem _ mem_cons_self)
  rcases suffix_or_suffix_of_suffix h h' with hs | hs
  · exact hone ht' hs
  · exact (hone ht hs).symm

theorem modOtherOf_keyModifier (rest : GoString) :
    modOtherOf (keyModifier rest) = some (keyModifier rest) := by
  have hparams : ((keyModifier rest).drop 2).dropLast = 62 :: rest := dropLast_concat
  rw [modOtherOf_cons hparams]
  exact if_pos ⟨rfl, getLast?_concat⟩

/-- A sequence that chooses it is one of these. -/
theorem eq_keyModifier {params seq : GoString} {b : UInt8}
    (h : modOtherOf ([27, 91] ++ params ++ [b]) = some seq) :
    ∃ rest, params = 62 :: rest ∧ b = 109 ∧ seq = keyModifier rest := by
  have hparams : (([27, 91] ++ params ++ [b]).drop 2).dropLast = params := dropLast_concat
  cases params with
  | nil =>
    unfold modOtherOf at h
    rw [hparams] at h
    cases h
  | cons c rest =>
    rw [modOtherOf_cons hparams] at h
    split at h
    · rename_i hchosen
      obtain ⟨rfl, hlast⟩ := hchosen
      have hb : some b = some 109 := getLast?_concat.symm.trans hlast
      cases hb
      exact ⟨rest, rfl, rfl, (Option.some.inj h).symm⟩
    · cases h

section KeyModifier

variable {m : ModeTracker} {rest : GoString}

/-- What a tracker that is between sequences makes of it: nothing before its last byte. -/
theorem feed_keyModifier (hm : m.scan = Scan.ground) (hrest : ∀ b ∈ rest, isFinal b = false)
    (hlen : rest.length + 3 ≤ maxPartial) :
    (m.feed ([27, 91] ++ (62 :: rest))).modOther = m.modOther ∧
      (m.feed (keyModifier rest)).modOther = keyModifier rest := by
  have hparams : ∀ b ∈ 62 :: rest, ¬(64 ≤ b ∧ b ≤ 126) := by
    intro b hb
    rcases mem_cons.mp hb with rfl | hb
    · decide
    · exact of_decide_eq_false (hrest b hb)
  have hshort : (62 :: rest).length + 2 ≤ maxPartial := by
    rw [length_cons]
    exact hlen
  refine ⟨?_, ?_⟩
  · have hopened : Scan.ground.run [27, 91] = (⟨.csi, [27, 91]⟩, []) := rfl
    have hfits : ([27, 91] ++ 62 :: rest : GoString).length ≤ maxPartial := by
      rw [length_append]
      exact Nat.add_comm _ _ ▸ hshort
    have hrun := Scan.run_params hparams hfits
    rw [feed_modOther, hm, Scan.run_append, hopened, hrun]
    rfl
  · have hwhole : Scan.ground.run (keyModifier rest) = (Scan.ground, [keyModifier rest]) :=
      Scan.whole_csi hparams hshort (by decide)
    rw [feed_modOther, hm, hwhole]
    change (modOtherOf (keyModifier rest)).getD m.modOther = keyModifier rest
    rw [modOtherOf_keyModifier]
    rfl

/-- There is no second `[` in it. -/
theorem notMem_keyModifier (hrest : ∀ b ∈ rest, isFinal b = false) :
    (91 : UInt8) ∉ (62 :: rest) ++ [109] := by
  intro hmem
  rcases mem_concat.mp hmem with hmem | hmem
  · rcases mem_cons.mp hmem with hmem | hmem
    · exact absurd hmem (by decide)
    · exact absurd (hrest 91 hmem) (by decide)
  · exact absurd hmem (by decide)

end KeyModifier

/-- What is stored for `modifyOtherKeys` changes only on sequences that choose it, exactly if
there are no others of that form. -/
theorem onlyModifyOtherKeys_iff (w : GoString) : OnlyModifyOtherKeys w ↔ NamesFour w := by
  constructor
  · rintro honly u rest v rfl hat hrest hlen hnew
    have hground : (new.feed u).scan = Scan.ground :=
      started_ground (tracked_feed u).started (of_decide_eq_true hat)
    obtain ⟨hbefore, hlast⟩ := feed_keyModifier hground hrest hlen
    have hcut : u ++ keyModifier rest ++ v =
        (u ++ ([27, 91] ++ (62 :: rest))) ++ 109 :: v := by
      simp [keyModifier]
    have hend : (u ++ ([27, 91] ++ (62 :: rest))) ++ [109] = u ++ keyModifier rest := by
      simp [keyModifier]
    have hchange : (new.feed (u ++ ([27, 91] ++ (62 :: rest)) ++ [109])).modOther ≠
        (new.feed (u ++ ([27, 91] ++ (62 :: rest)))).modOther := by
      rw [hend, feed_append, feed_append, hlast, hbefore]
      exact hnew
    obtain ⟨seq, hsuffix, r, rfl, hr, hparams⟩ := honly _ _ _ hcut hchange
    rw [hend] at hsuffix
    have hfour : ∀ b ∈ 52 :: r, isFinal b = false := by
      intro b hb
      rcases mem_cons.mp hb with rfl | hb
      · decide
      · exact (hparams b hb).2
    have heq := csi_suffix_unique hsuffix (suffix_append u (keyModifier rest))
      (notMem_keyModifier hfour) (notMem_keyModifier hrest)
    obtain ⟨hrest', -⟩ := append_inj' heq rfl
    injection hrest' with _ hrest'
    exact ⟨r, by rw [hrest'], hr, hparams⟩
  · rintro hnames u b v rfl hchange
    rw [feed_concat, feedByte_modOther] at hchange
    cases hbyte : ((new.feed u).scan.byte b).2 with
    | none =>
      rw [hbyte] at hchange
      exact absurd rfl hchange
    | some seq =>
      obtain ⟨hstate, rfl⟩ := Scan.byte_eq_some hbyte
      have hheld := held_feed u
      simp only [Scan.Held, hstate] at hheld
      obtain ⟨params, hseq, hparams, hlen⟩ := hheld
      obtain ⟨before, hu, hat, hother⟩ := feed_split u
      rw [hbyte] at hchange
      change (modOtherOf ((new.feed u).scan.partialSeq ++ [b])).getD (new.feed u).modOther ≠
        (new.feed u).modOther at hchange
      rw [hseq] at hchange
      cases hchosen : modOtherOf ([27, 91] ++ params ++ [b]) with
      | none =>
        rw [hchosen] at hchange
        exact absurd rfl hchange
      | some seq =>
        obtain ⟨rest, rfl, rfl, rfl⟩ := eq_keyModifier hchosen
        rw [hchosen, ← hother] at hchange
        have hu' : u = before ++ ([27, 91] ++ (62 :: rest)) := hu.trans (congrArg _ hseq)
        have hend : u ++ [109] = before ++ keyModifier rest := by
          rw [hu']
          simp [keyModifier]
        have hrest : ∀ b ∈ rest, isFinal b = false :=
          fun b hb => hparams b (mem_cons_of_mem _ hb)
        have hshort : rest.length + 3 ≤ maxPartial := by
          rw [hseq] at hlen
          exact hlen
        refine ⟨keyModifier rest, hend ▸ suffix_append _ _, ?_⟩
        refine hnames before rest v ?_ hat hrest hshort hchange
        rw [← hend, append_assoc]
        rfl

/-- No mode change is missed, and `modifyOtherKeys` is not taken for changed, exactly if the
sequence comes between two others, or changes nothing, and every `CSI > ... m` is one that
chooses it. -/
theorem mode_changes_iff (u : GoString) {fs : List GoString} (hfs : Numbers fs) (set : Bool)
    (w : GoString) :
    (Obeyed u fs set ↔ Follows u fs set) ∧ (OnlyModifyOtherKeys w ↔ NamesFour w) :=
  ⟨hfs.obeyed_iff u, onlyModifyOtherKeys_iff w⟩

/-- A program that starts: it switches modes and then the keyboard. -/
theorem mode_changes_iff_started :
    Obeyed [] ["25", "1049"] true ∧ OnlyModifyOtherKeys (keyModifier "4;2") := by
  have hfs : Numbers ["25", "1049"] := ⟨by decide, by decide, by decide⟩
  obtain ⟨hmodes, hkeys⟩ := mode_changes_iff [] hfs true (keyModifier "4;2")
  refine ⟨hmodes.mpr ?_, hkeys.mpr ?_⟩
  · intro before f after heq _
    have hf : f ∈ [str "25", str "1049"] := heq ▸ mem_append_right _ mem_cons_self
    have hsmall : ∀ f ∈ [str "25", str "1049"], number f < 2 ^ 63 := by decide
    exact hsmall f hf
  · intro u rest v heq _ _ _ _
    -- the only ESC is the first byte, and the only final byte after the [ is the last
    have hshape : [] ++ 27 :: (91 :: 62 :: (str "4;2" ++ 109 :: [])) =
        u ++ 27 :: (91 :: 62 :: (rest ++ 109 :: v)) := by
      rw [keyModifier, keyModifier] at heq
      simpa using heq
    have hesc : (27 : UInt8) ∉ 91 :: 62 :: (str "4;2" ++ 109 :: []) := by decide
    obtain ⟨-, -, htail⟩ := (append_cons_inj_of_notMem not_mem_nil hesc).mp hshape
    injection htail with _ htail
    injection htail with _ htail
    have hend : (109 : UInt8) ∉ str "4;2" := by decide
    obtain ⟨rfl, -, -⟩ := (append_cons_inj_of_notMem hend not_mem_nil).mp htail
    exact ⟨";2", by decide, .inr (by decide), by decide +kernel⟩

theorem mode_changes_missed :
    Numbers ["25"] ∧ ¬Obeyed "\x1b" ["25"] false ∧
      ¬OnlyModifyOtherKeys (keyModifier "1") := by
  refine ⟨⟨by decide, by decide, by decide⟩, fun hobeyed => ?_, fun honly => ?_⟩
  · have hlookup := hobeyed ["\x1b" ++ privateMode ["25"] false] rfl [] "25" [] rfl
      (.inr (by decide))
    exact absurd hlookup (by decide)
  · obtain ⟨seq, hsuffix, rest, rfl, -, hrest⟩ :=
      honly "\x1b[>1" 109 [] rfl (by decide)
    have hfour : ∀ b ∈ 52 :: rest, isFinal b = false := by
      intro b hb
      rcases mem_cons.mp hb with rfl | hb
      · decide
      · exact (hrest b hb).2
    have hself : 27 :: 91 :: ((62 :: str "1") ++ [109]) <:+ str "\x1b[>1" ++ [109] := ⟨[], rfl⟩
    have heq := csi_suffix_unique hsuffix hself (notMem_keyModifier hfour) (by decide)
    injection heq with _ heq
    injection heq with heq
    exact absurd heq (by decide)

end ModeTracker

end Lemul.PtySession
