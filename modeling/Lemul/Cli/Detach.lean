import Lemul.Misc.Ecma48
import Lemul.Misc.Lists
import Lemul.Misc.TextFields

/-!
# The detach key

`cmd/lem/detach.go`: `detachIndex` looks for Ctrl-] in what was read from the terminal, as the
byte itself or as one of two control sequences. It takes whatever follows `ESC [` for a control
sequence, up to the first byte that could end one, so that a sequence that is malformed or cut off
hides the keys that it swallows.
-/

namespace Lemul.Cli

open List Ecma48 Option

abbrev detachByte : UInt8 := 0x1d

abbrev bracketKey : Int := 93

/-- `hasCtrl` (`detach.go:118-120`). -/
def hasCtrl (mod : Int) : Bool := 0 < mod && (mod - 1).toNat &&& 4 != 0

/-- `splitParams` (`detach.go:91-113`). -/
def splitParams (params : GoString) : List Int :=
  (params.splitOn 59).map fun field => (atoi (field.takeWhile (· ≠ 58))).getD (-1)

/-- `isDetachSeq` (`detach.go:74-86`). -/
def isDetachSeq (params : GoString) (final : UInt8) : Bool :=
  if final = 117 then
    match splitParams params with
    | key :: mods :: _ => key = bracketKey && hasCtrl mods
    | _ => false
  else if final = 126 then
    match splitParams params with
    | first :: mods :: key :: _ => first = 27 && key = bracketKey && hasCtrl mods
    | _ => false
  else false

/-- `parseCSI` (`detach.go:64-71`) behind `ESC [`: the parameters and the final byte. -/
def parseCSI : GoString → Option (GoString × UInt8)
  | [] => none
  | b :: rest =>
      if isFinal b then some ([], b) else (parseCSI rest).map fun x => (b :: x.1, x.2)

/-- `ESC [`. -/
def opensCSI (p : GoString) : Bool := p.take 2 = [27, 91]

/-- The loop of `detachIndex` at offset `i`, of which the first `skip` bytes are passed over. -/
def detachFrom : Nat → Nat → GoString → Option Nat
  | _, _, [] => none
  | skip + 1, i, _ :: rest => detachFrom skip (i + 1) rest
  | 0, i, b :: rest =>
      if b = detachByte then some i
      else if opensCSI (b :: rest) then
        match parseCSI (rest.drop 1) with
        | none => none
        | some (params, final) =>
            if isDetachSeq params final then some i
            else detachFrom (params.length + 2) (i + 1) rest
      else detachFrom 0 (i + 1) rest

/-- `detachIndex` (`detach.go:36-58`). -/
def detachIndex (p : GoString) : Int :=
  match detachFrom 0 0 p with
  | some i => i
  | none => -1

/-! ## What a terminal sends -/

/-- The parameter bytes of a control sequence. -/
def isParam (b : UInt8) : Bool := 0x30 ≤ b ∧ b ≤ 0x3f

/-- A control sequence that is complete. -/
structure Csi where
  params : GoString
  intermediates : GoString
  final : UInt8
  deriving DecidableEq, Repr

/-- The control sequence at the beginning of a string, if it is well-formed and complete. -/
def readCsi (p : GoString) : Option Csi :=
  if opensCSI p then
    let rest := p.drop 2
    let more := rest.dropWhile isParam
    match more.dropWhile isIntermediate with
    | [] => none
    | final :: _ =>
        if isFinal final then
          some ⟨rest.takeWhile isParam, more.takeWhile isIntermediate, final⟩
        else none
  else none

namespace Csi

def length (c : Csi) : Nat := c.params.length + c.intermediates.length + 3

/-- Parameter `k`, without its sub-parameters. -/
def number (c : Csi) (k : Nat) : Option Int :=
  (c.params.splitOn 59)[k]?.bind fun field => atoi (field.takeWhile (· ≠ 58))

/-- Modifiers are sent as 1 and a set of bits, of which Control is the third. -/
def control (mods : Option Int) : Bool :=
  mods.any fun m => 0 < m && (m - 1).toNat.testBit 2

/-- Ctrl-], as the kitty protocol (`CSI 93 ; mods u`) or as `modifyOtherKeys`
(`CSI 27 ; mods ; 93 ~`) has it. -/
def isKey (c : Csi) : Bool :=
  c.intermediates = [] && (c.final = 117 && c.number 0 = some 93 && control (c.number 1) ||
    c.final = 126 && c.number 0 = some 27 && c.number 2 = some 93 && control (c.number 1))

end Csi

/-- A control sequence or a single byte. -/
inductive Piece where
  | csi (c : Csi)
  | byte (b : UInt8)
  deriving DecidableEq, Repr

def Piece.length : Piece → Nat
  | .csi c => c.length
  | .byte _ => 1

def Piece.isKey : Piece → Bool
  | .csi c => c.isKey
  | .byte b => b = 0x1d

/-- A string is cut from left to right. The first `skip` bytes belong to the piece before. -/
def pieces : Nat → GoString → List Piece
  | _, [] => []
  | skip + 1, _ :: rest => pieces skip rest
  | 0, b :: rest =>
      match readCsi (b :: rest) with
      | some c => .csi c :: pieces (c.length - 1) rest
      | none => .byte b :: pieces 0 rest

/-- Where the first key begins, if the pieces begin at `i`. -/
def firstKey : Nat → List Piece → Option Nat
  | _, [] => none
  | i, q :: qs => if q.isKey then some i else firstKey (i + q.length) qs

/-- The position of the first detach key, or -1. -/
def keyIndex (p : GoString) : Int :=
  match firstKey 0 (pieces 0 p) with
  | some i => i
  | none => -1

/-! ## Where they agree -/

/-- A key begins the string. -/
def keyAt (p : GoString) : Bool := (readCsi p).any Csi.isKey

/-- A control sequence without intermediate bytes begins the string. -/
def plainAt (p : GoString) : Bool := (readCsi p).any fun c => c.intermediates = []

/-- What is read as a control sequence up to `final` is one, without intermediate bytes, or it
passes for no key and hides none: it holds no `0x1d`, and no key begins with its last two bytes. -/
def Fair (p params : GoString) (final : UInt8) : Prop :=
  plainAt p = false → isDetachSeq params final = false ∧ detachByte ∉ params ∧
    ¬ (params.getLast? = some 27 ∧ final = 91 ∧
      keyAt (27 :: 91 :: p.drop (params.length + 3)) = true)

/-- Up to the first key, every `ESC [` is fair, and one that nothing ends has no `0x1d` behind
it. -/
def Legible : Nat → GoString → Prop
  | _, [] => True
  | skip + 1, _ :: rest => Legible skip rest
  | 0, b :: rest =>
      if b = detachByte then True
      else if opensCSI (b :: rest) then
        match parseCSI (rest.drop 1) with
        | none => detachByte ∉ rest
        | some (params, final) =>
            Fair (b :: rest) params final ∧
              (keyAt (b :: rest) = false → Legible (params.length + 2) rest)
      else Legible 0 rest

theorem final_ne : ∀ b : UInt8, isFinal b = true → b ≠ 27 ∧ b ≠ 29 := by
  decide +kernel

theorem param_ne : ∀ b : UInt8, isParam b = true ∨ isIntermediate b = true →
    isFinal b = false ∧ b ≠ 27 ∧ b ≠ 29 := by
  decide +kernel

theorem opensCSI_iff {b : UInt8} {rest : GoString} :
    opensCSI (b :: rest) = true ↔ b = 27 ∧ ∃ tail, rest = 91 :: tail := by
  cases rest with
  | nil => simp [opensCSI]
  | cons c tail => simp [opensCSI]

theorem parseCSI_eq_some {t params : GoString} {final : UInt8}
    (h : parseCSI t = some (params, final)) :
    ∃ rest, t = params ++ final :: rest ∧ (∀ b ∈ params, isFinal b = false) ∧
      isFinal final = true := by
  induction t generalizing params with
  | nil => cases h
  | cons b t ih =>
    rw [parseCSI] at h
    split at h
    · rename_i hb
      cases h
      exact ⟨t, rfl, by simp, hb⟩
    · rename_i hb
      obtain ⟨⟨params', final'⟩, hrest, heq⟩ := map_eq_some_iff.mp h
      cases heq
      obtain ⟨rest, rfl, hparams, hfinal⟩ := ih hrest
      exact ⟨rest, rfl, forall_mem_cons.mpr ⟨Bool.eq_false_iff.mpr hb, hparams⟩, hfinal⟩

theorem parseCSI_append {params : GoString} {final : UInt8}
    (hparams : ∀ b ∈ params, isFinal b = false) (hfinal : isFinal final = true)
    (rest : GoString) :
    parseCSI (params ++ final :: rest) = some (params, final) := by
  induction params with
  | nil => rw [nil_append, parseCSI, if_pos hfinal]
  | cons b params ih =>
    obtain ⟨hb, hparams⟩ := forall_mem_cons.mp hparams
    rw [cons_append, parseCSI, hb, ih hparams]
    rfl

theorem parseCSI_eq_none {t : GoString} (h : parseCSI t = none) : ∀ b ∈ t, isFinal b = false := by
  induction t with
  | nil => simp
  | cons b t ih =>
    rw [parseCSI] at h
    split at h
    · cases h
    · rename_i hb
      exact forall_mem_cons.mpr ⟨Bool.eq_false_iff.mpr hb, ih (map_eq_none_iff.mp h)⟩

/-- A control sequence stands at the beginning of the string that it is read off. -/
theorem readCsi_eq_some {p : GoString} {c : Csi} (h : readCsi p = some c) :
    ∃ rest, p = 27 :: 91 :: ((c.params ++ c.intermediates) ++ c.final :: rest) ∧
      (∀ b ∈ c.params ++ c.intermediates, isParam b = true ∨ isIntermediate b = true) ∧
      isFinal c.final = true := by
  unfold readCsi at h
  split at h
  · rename_i hopen
    dsimp only at h
    split at h
    · cases h
    · rename_i final rest hmore
      split at h <;> cases h
      rename_i hfinal
      refine ⟨rest, ?_, ?_, hfinal⟩
      · rw [append_assoc, ← hmore, takeWhile_append_dropWhile, takeWhile_append_dropWhile]
        have htake := take_append_drop 2 p
        rw [of_decide_eq_true hopen] at htake
        exact htake.symm
      · intro b hb
        rcases mem_append.mp hb with hb | hb
        · exact .inl (mem_takeWhile_imp hb)
        · exact .inr (mem_takeWhile_imp hb)
  · cases h

theorem readCsi_eq_none {b : UInt8} {rest : GoString} (h : ¬ opensCSI (b :: rest) = true) :
    readCsi (b :: rest) = none := if_neg h

theorem control_getD (x : Option Int) : Csi.control x = hasCtrl (x.getD (-1)) := by
  cases x with
  | none => rfl
  | some m =>
    have hbit : (m - 1).toNat &&& 4 = ((m - 1).toNat.testBit 2).toNat * 2 ^ 2 :=
      Nat.and_two_pow _ 2
    simp only [Csi.control, hasCtrl, any_some, getD_some, hbit]
    cases (m - 1).toNat.testBit 2 <;> rfl

/-- A control sequence without intermediate bytes is a key exactly if it is taken for one. -/
theorem isKey_eq {c : Csi} (h : c.intermediates = []) :
    c.isKey = isDetachSeq (c.params ++ c.intermediates) c.final := by
  have hget : ∀ (x : Option Int) (k : Int), k ≠ -1 → (x = some k ↔ x.getD (-1) = k) := by
    rintro (_ | m) k hk
    · simpa using hk.symm
    · simp
  rw [Bool.eq_iff_iff]
  simp only [Csi.isKey, isDetachSeq, splitParams, h, append_nil, control_getD, bracketKey,
    Bool.and_eq_true, Bool.or_eq_true, decide_eq_true_eq]
  simp only [Csi.number]
  generalize c.params.splitOn 59 = fs
  by_cases hu : c.final = 117
  · rcases fs with _ | ⟨x, _ | ⟨y, more⟩⟩ <;> simp [hu, hget _ 93 (by decide), hasCtrl]
  · by_cases ht : c.final = 126
    · rcases fs with _ | ⟨x, _ | ⟨y, _ | ⟨z, more⟩⟩⟩ <;>
        simp [ht, hget _ 93 (by decide), hget _ 27 (by decide), hasCtrl]
    · simp [hu, ht]

/-! ## The bytes that are passed over -/

theorem detachFrom_skip (x y : GoString) (i : Nat) :
    detachFrom x.length i (x ++ y) = detachFrom 0 (i + x.length) y := by
  induction x generalizing i with
  | nil => rfl
  | cons b x ih =>
    rw [length_cons, cons_append, detachFrom, ih, Nat.add_assoc, Nat.add_comm 1]

theorem pieces_skip (x y : GoString) : pieces x.length (x ++ y) = pieces 0 y := by
  induction x with
  | nil => rfl
  | cons b x ih => exact ih

theorem legible_skip (x y : GoString) : Legible x.length (x ++ y) ↔ Legible 0 y := by
  induction x with
  | nil => rfl
  | cons b x ih => exact ih

theorem le_of_detachFrom {p : GoString} {skip i j : Nat} (h : detachFrom skip i p = some j) :
    i ≤ j := by
  induction p generalizing skip i with
  | nil => cases h
  | cons b rest ih =>
    cases skip with
    | succ skip => exact Nat.le_of_succ_le (ih h)
    | zero =>
      rw [detachFrom] at h
      split at h
      · cases h
        exact Nat.le_refl _
      · split at h
        · split at h
          · cases h
          · split at h
            · cases h
              exact Nat.le_refl _
            · exact Nat.le_of_succ_le (ih h)
        · exact Nat.le_of_succ_le (ih h)

theorem le_of_firstKey {qs : List Piece} {i j : Nat} (h : firstKey i qs = some j) : i ≤ j := by
  induction qs generalizing i with
  | nil => cases h
  | cons q qs ih =>
    rw [firstKey] at h
    split at h
    · cases h
      exact Nat.le_refl _
    · exact Nat.le_trans (Nat.le_add_right _ _) (ih h)

theorem firstKey_byte {b : UInt8} {rest : GoString} (h : readCsi (b :: rest) = none) (i : Nat) :
    firstKey i (pieces 0 (b :: rest)) =
      if b = 0x1d then some i else firstKey (i + 1) (pieces 0 rest) := by
  simp only [pieces, h, firstKey, Piece.isKey, Piece.length, decide_eq_true_eq]

theorem firstKey_csi {c : Csi} {rest : GoString}
    (h : readCsi (27 :: 91 :: ((c.params ++ c.intermediates) ++ c.final :: rest)) = some c)
    (i : Nat) :
    firstKey i (pieces 0 (27 :: 91 :: ((c.params ++ c.intermediates) ++ c.final :: rest))) =
      if c.isKey then some i else firstKey (i + c.length) (pieces 0 rest) := by
  have hskip : pieces (c.length - 1) (91 :: ((c.params ++ c.intermediates) ++ c.final :: rest)) =
      pieces 0 rest := by
    have hlen : c.length - 1 = (91 :: ((c.params ++ c.intermediates) ++ [c.final])).length := by
      simp only [Csi.length, length_cons, length_append, length_nil]
      omega
    rw [hlen, ← pieces_skip (91 :: ((c.params ++ c.intermediates) ++ [c.final])) rest]
    simp
  rw [pieces, h]
  simp only [firstKey, Piece.isKey, Piece.length, hskip]

/-- Bytes that are neither a key nor the beginning of a control sequence. -/
theorem firstKey_plain {x : GoString} (hx : ∀ b ∈ x, b ≠ 27 ∧ b ≠ 29) (y : GoString) (i : Nat) :
    firstKey i (pieces 0 (x ++ y)) = firstKey (i + x.length) (pieces 0 y) := by
  induction x generalizing i with
  | nil => rfl
  | cons b x ih =>
    obtain ⟨hb, hx⟩ := forall_mem_cons.mp hx
    have hnone : readCsi (b :: (x ++ y)) = none :=
      readCsi_eq_none fun hopen => hb.1 (opensCSI_iff.mp hopen).1
    rw [cons_append, firstKey_byte hnone, if_neg hb.2, ih hx, length_cons, Nat.add_assoc,
      Nat.add_comm 1]

/-- No control sequence begins before something that does not end one. -/
theorem readCsi_before {b c : UInt8} {rest : GoString} (hc : isFinal c = false) :
    readCsi (b :: c :: rest) = none := by
  refine readCsi_eq_none fun hopen => ?_
  obtain ⟨-, tail, htail⟩ := opensCSI_iff.mp hopen
  cases htail
  exact absurd hc (by decide)

/-- What nothing ends is read byte by byte. -/
theorem firstKey_unended {t : GoString} (ht : ∀ b ∈ t, isFinal b = false) (i : Nat) :
    firstKey i (pieces 0 t) = none ↔ detachByte ∉ t := by
  induction t generalizing i with
  | nil => simp [pieces, firstKey]
  | cons b t ih =>
    obtain ⟨-, ht⟩ := forall_mem_cons.mp ht
    have hnone : readCsi (b :: t) = none := by
      cases t with
      | nil => exact readCsi_eq_none (by simp [opensCSI])
      | cons c t => exact readCsi_before (ht c mem_cons_self)
    rw [firstKey_byte hnone]
    by_cases hb : b = 0x1d
    · simp [hb, detachByte]
    · rw [if_neg hb, ih ht, mem_cons, not_or]
      exact ⟨fun h => ⟨Ne.symm hb, h⟩, fun h => h.2⟩

/-- A key begins with the last of `params` and `final`. -/
def Nested (params : GoString) (final : UInt8) (rest : GoString) : Prop :=
  params.getLast? = some 27 ∧ final = 91 ∧ keyAt (27 :: 91 :: rest) = true

/-- What `parseCSI` swallows, read piece by piece. -/
theorem firstKey_swallowed {params : GoString} {final : UInt8}
    (hparams : ∀ b ∈ params, isFinal b = false) (hfinal : isFinal final = true)
    (rest : GoString) (i : Nat) :
    (detachByte ∈ params ∨ Nested params final rest →
        ∃ j, j < i + params.length ∧ firstKey i (pieces 0 (params ++ final :: rest)) = some j) ∧
      (detachByte ∉ params → ¬ Nested params final rest →
        firstKey i (pieces 0 (params ++ final :: rest)) =
          firstKey (i + params.length + 1) (pieces 0 rest)) := by
  induction params generalizing i with
  | nil =>
    refine ⟨?_, fun _ _ => ?_⟩
    · rintro (h | ⟨h, -⟩)
      · exact absurd h not_mem_nil
      · cases h
    · exact firstKey_plain (x := [final]) (by simpa using final_ne final hfinal) rest i
  | cons b params ih =>
    obtain ⟨hb, hparams⟩ := forall_mem_cons.mp hparams
    by_cases hkey : b = 0x1d
    · have hnone : readCsi (b :: (params ++ final :: rest)) = none :=
        readCsi_eq_none fun hopen => absurd ((opensCSI_iff.mp hopen).1.symm.trans hkey) (by decide)
      refine ⟨fun _ => ⟨i, by simp, ?_⟩, fun hno => absurd ?_ hno⟩
      · rw [cons_append, firstKey_byte hnone, if_pos hkey]
      · rw [hkey]
        exact mem_cons_self
    have hmem : detachByte ∈ b :: params ↔ detachByte ∈ params := by
      rw [mem_cons]
      exact or_iff_right (Ne.symm hkey)
    -- the string goes on byte by byte, unless its last byte opens a control sequence
    cases hread : readCsi (b :: (params ++ final :: rest)) with
    | none =>
      have hnested : Nested (b :: params) final rest ↔ Nested params final rest := by
        cases params with
        | nil =>
          refine ⟨?_, by rintro ⟨⟨⟩, -⟩⟩
          rintro ⟨hlast, rfl, hat⟩
          obtain rfl : b = 27 := by simpa using hlast
          rw [nil_append] at hread
          simp [keyAt, hread] at hat
        | cons c params => rw [Nested, Nested, getLast?_cons_cons]
      rw [cons_append, firstKey_byte hread, if_neg hkey, hmem, hnested, length_cons,
        ← Nat.add_assoc, Nat.add_right_comm i]
      exact ih hparams (i + 1)
    | some c =>
      -- only the last byte can, and then `final` is its second byte
      obtain ⟨rest', heq, hbody, hend⟩ := readCsi_eq_some hread
      obtain ⟨rfl, htail⟩ := cons_eq_cons.mp heq
      obtain rfl : params = [] := by
        cases params with
        | nil => rfl
        | cons d params =>
          obtain ⟨rfl, -⟩ := cons_eq_cons.mp htail
          exact absurd (hparams 91 (mem_cons_of_mem _ mem_cons_self)) (by decide)
      obtain ⟨rfl, rfl⟩ := cons_eq_cons.mp htail
      rw [nil_append] at hread
      have hplain : ∀ d ∈ (c.params ++ c.intermediates) ++ [c.final], d ≠ 27 ∧ d ≠ 29 := by
        intro d hd
        rcases mem_concat.mp hd with hd | rfl
        · exact (param_ne d (hbody d hd)).2
        · exact final_ne _ hend
      have hnested : Nested [27] 91 ((c.params ++ c.intermediates) ++ c.final :: rest') ↔
          c.isKey = true := by
        rw [Nested, keyAt, hread]
        simp
      rw [hnested, singleton_append, firstKey_csi hread]
      refine ⟨?_, fun _ hno => ?_⟩
      · rintro (hno | hyes)
        · exact absurd hno (by decide)
        · exact ⟨i, by simp, if_pos hyes⟩
      · have hpass := firstKey_plain hplain rest' (i + 1 + 1)
        rw [append_assoc, singleton_append] at hpass
        rw [if_neg hno, length_singleton, hpass]
        congr 1
        simp only [Csi.length, length_append, length_singleton]
        omega

/-! ## What `detachIndex` makes of `ESC [` -/

/-- From any offset, the key that is found in `p` is the first one exactly if `p` is legible. -/
def Settled (p : GoString) : Prop :=
  ∀ i, detachFrom 0 i p = firstKey i (pieces 0 p) ↔ Legible 0 p

theorem opensCSI_cons (t : GoString) : opensCSI (27 :: 91 :: t) = true := rfl

theorem escape_ne : (27 : UInt8) ≠ detachByte := by decide

/-- Without a final byte. -/
theorem settled_unended {t : GoString} (hparse : parseCSI t = none) : Settled (27 :: 91 :: t) := by
  intro i
  have hno := parseCSI_eq_none hparse
  have hread : readCsi (27 :: 91 :: t) = none := by
    cases hread : readCsi (27 :: 91 :: t) with
    | none => rfl
    | some c =>
      obtain ⟨rest, heq, -, hend⟩ := readCsi_eq_some hread
      obtain ⟨-, htail⟩ := cons_eq_cons.mp heq
      obtain ⟨-, rfl⟩ := cons_eq_cons.mp htail
      rw [hno c.final (by simp)] at hend
      cases hend
  have hopen := opensCSI_cons t
  have hbytes := firstKey_plain (x := [91]) (by simp) t (i + 1)
  rw [singleton_append] at hbytes
  rw [detachFrom, Legible, if_neg escape_ne, if_neg escape_ne, if_pos hopen, if_pos hopen,
    drop_succ_cons, drop_zero, hparse, firstKey_byte hread, if_neg escape_ne, hbytes, eq_comm,
    firstKey_unended hno, mem_cons, not_or]
  exact ⟨fun h => ⟨by decide, h⟩, fun h => h.2⟩

section Ended

variable {params rest : GoString} {final : UInt8} {i : Nat}

theorem detachFrom_ended (hparams : ∀ b ∈ params, isFinal b = false)
    (hfinal : isFinal final = true) :
    detachFrom 0 i (27 :: 91 :: (params ++ final :: rest)) =
      if isDetachSeq params final then some i else detachFrom 0 (i + 3 + params.length) rest := by
  have hskip := detachFrom_skip (91 :: (params ++ [final])) rest (i + 1)
  simp only [length_cons, length_append, length_nil, cons_append, append_assoc, nil_append] at hskip
  rw [detachFrom, if_neg escape_ne, if_pos (opensCSI_cons _), drop_succ_cons, drop_zero,
    parseCSI_append hparams hfinal,
    show i + 3 + params.length = i + 1 + (params.length + (0 + 1) + 1) by omega, ← hskip]

theorem legible_ended (hparams : ∀ b ∈ params, isFinal b = false) (hfinal : isFinal final = true) :
    Legible 0 (27 :: 91 :: (params ++ final :: rest)) ↔
      (plainAt (27 :: 91 :: (params ++ final :: rest)) = false →
        isDetachSeq params final = false ∧ detachByte ∉ params ∧ ¬ Nested params final rest) ∧
      (keyAt (27 :: 91 :: (params ++ final :: rest)) = false → Legible 0 rest) := by
  have hskip := legible_skip (91 :: (params ++ [final])) rest
  have hdrop : drop (params.length + 3) (27 :: 91 :: (params ++ final :: rest)) = rest := by
    simp [drop_append]
  simp only [length_cons, length_append, length_nil, cons_append, append_assoc, nil_append] at hskip
  rw [Legible, if_neg escape_ne, if_pos (opensCSI_cons _), drop_succ_cons, drop_zero,
    parseCSI_append hparams hfinal]
  dsimp only
  rw [hskip, Fair, hdrop]
  rfl

/-- Where a control sequence stands there: one with intermediate bytes is no key and hides none. -/
theorem settled_wellFormed {c : Csi} {rest : GoString}
    (hread : readCsi (27 :: 91 :: ((c.params ++ c.intermediates) ++ c.final :: rest)) = some c)
    (hbody : ∀ b ∈ c.params ++ c.intermediates, isParam b = true ∨ isIntermediate b = true)
    (hend : isFinal c.final = true) (hnext : Settled rest) :
    Settled (27 :: 91 :: ((c.params ++ c.intermediates) ++ c.final :: rest)) := by
  intro i
  have hparams : ∀ b ∈ c.params ++ c.intermediates, isFinal b = false :=
    fun b hb => (param_ne b (hbody b hb)).1
  have hlen : i + 3 + (c.params ++ c.intermediates).length = i + c.length := by
    simp only [Csi.length, length_append]
    omega
  rw [detachFrom_ended hparams hend, legible_ended hparams hend, keyAt, plainAt, hread,
    firstKey_csi hread, hlen]
  simp only [any_some]
  by_cases hplain : c.intermediates = []
  · rw [← isKey_eq hplain]
    cases c.isKey with
    | true => simp [hplain]
    | false => simpa [hplain] using hnext (i + c.length)
  · have hkey : c.isKey = false := by simp [Csi.isKey, hplain]
    have hlast : ¬ ((c.params ++ c.intermediates).getLast? = some 27) :=
      fun h => (param_ne _ (hbody _ (mem_of_getLast? h))).2.1 rfl
    have hbyte : detachByte ∉ c.params ++ c.intermediates :=
      fun h => (param_ne _ (hbody _ h)).2.2 rfl
    cases isDetachSeq (c.params ++ c.intermediates) c.final with
    | true =>
      refine ⟨fun h => ?_, fun h => absurd (h.1 (decide_eq_false hplain)).1 (by simp)⟩
      rw [hkey] at h
      have hle := le_of_firstKey h.symm
      rw [Csi.length] at hle
      omega
    | false =>
      rw [hkey, if_neg Bool.false_ne_true, if_neg Bool.false_ne_true, hnext]
      exact ⟨fun h => ⟨fun _ => ⟨rfl, hbyte, fun hnested => hlast hnested.1⟩, fun _ => h⟩,
        fun h => h.2 rfl⟩

/-- Where none does: what is swallowed may be a key or hide one. -/
theorem settled_illFormed (hparams : ∀ b ∈ params, isFinal b = false)
    (hfinal : isFinal final = true)
    (hread : readCsi (27 :: 91 :: (params ++ final :: rest)) = none) (hnext : Settled rest) :
    Settled (27 :: 91 :: (params ++ final :: rest)) := by
  intro i
  have hbytes := firstKey_plain (x := [91]) (by simp) (params ++ final :: rest) (i + 1)
  rw [singleton_append] at hbytes
  obtain ⟨hhidden, hshown⟩ := firstKey_swallowed hparams hfinal rest (i + 2)
  rw [detachFrom_ended hparams hfinal, legible_ended hparams hfinal, keyAt, plainAt, hread,
    firstKey_byte hread, if_neg escape_ne, hbytes, any_none, any_none]
  cases isDetachSeq params final with
  | true =>
    refine ⟨fun h => ?_, fun h => absurd (h.1 rfl).1 (by simp)⟩
    have hle := le_of_firstKey h.symm
    omega
  | false =>
    by_cases hhides : detachByte ∈ params ∨ Nested params final rest
    · obtain ⟨j, hj, hfirst⟩ := hhidden hhides
      refine ⟨fun h => ?_, fun h => ?_⟩
      · have hle := le_of_detachFrom (h.trans hfirst)
        omega
      · rcases hhides with hmem | hnested
        · exact absurd hmem (h.1 rfl).2.1
        · exact absurd hnested (h.1 rfl).2.2
    · rw [not_or] at hhides
      have hgo := hshown hhides.1 hhides.2
      rw [show i + 2 + params.length + 1 = i + 3 + params.length by omega] at hgo
      rw [if_neg Bool.false_ne_true]
      exact ((congrArg (_ = ·) hgo).to_iff.trans (hnext _)).trans
        ⟨fun h => ⟨fun _ => ⟨rfl, hhides⟩, fun _ => h⟩, fun h => h.2 rfl⟩

end Ended

theorem settled_opening {t : GoString} (ih : ∀ q, q.length < t.length → Settled q) :
    Settled (27 :: 91 :: t) := by
  cases hparse : parseCSI t with
  | none => exact settled_unended hparse
  | some found =>
    obtain ⟨params, final⟩ := found
    obtain ⟨rest, rfl, hparams, hfinal⟩ := parseCSI_eq_some hparse
    have hnext : Settled rest := ih rest (by simp; omega)
    cases hread : readCsi (27 :: 91 :: (params ++ final :: rest)) with
    | none => exact settled_illFormed hparams hfinal hread hnext
    | some c =>
      obtain ⟨rest', heq, hbody, hend⟩ := readCsi_eq_some hread
      obtain ⟨-, heq⟩ := cons_eq_cons.mp heq
      obtain ⟨-, heq⟩ := cons_eq_cons.mp heq
      have hparse' := parseCSI_append (fun d hd => (param_ne d (hbody d hd)).1) hend rest'
      rw [← heq, hparse] at hparse'
      cases hparse'
      obtain rfl := (cons_eq_cons.mp (append_cancel_left heq)).2
      exact settled_wellFormed hread hbody hend hnext

theorem settled (p : GoString) : Settled p := by
  -- by induction on the length: both readings go on after the same bytes
  induction hn : p.length using Nat.strongRecOn generalizing p with
  | _ n ih =>
    intro i
    cases p with
    | nil => simp [detachFrom, pieces, firstKey, Legible]
    | cons b rest =>
      by_cases hkey : b = detachByte
      · have hnone : readCsi (b :: rest) = none :=
          readCsi_eq_none fun hopen =>
            absurd ((opensCSI_iff.mp hopen).1.symm.trans hkey) (by decide)
        simp only [detachFrom, Legible, if_pos hkey, firstKey_byte hnone]
      by_cases hopen : opensCSI (b :: rest) = true
      · obtain ⟨rfl, t, rfl⟩ := opensCSI_iff.mp hopen
        exact settled_opening (fun q hq => ih q.length (by simp at hn; omega) q rfl) i
      · have hrest := ih rest.length (by simp at hn; omega) rest rfl (i + 1)
        simp only [detachFrom, Legible, if_neg hkey, if_neg hopen,
          firstKey_byte (readCsi_eq_none hopen)]
        exact hrest

/-- `detachIndex` finds the first detach key exactly if what it reads up to there is legible. -/
theorem detachIndex_eq_iff (p : GoString) : detachIndex p = keyIndex p ↔ Legible 0 p := by
  rw [← settled p 0, detachIndex, keyIndex]
  cases detachFrom 0 0 p with
  | none =>
    cases firstKey 0 (pieces 0 p) with
    | none => simp
    | some j => simp
  | some i =>
    cases firstKey 0 (pieces 0 p) with
    | none => simp
    | some j => simp

/-- A key that is swallowed, and one that is made up: behind `ESC [` nothing ends a control
sequence before the `u` or, in the first string, at all. -/
theorem detachIndex_fails :
    (detachIndex [27, 91, 0x1d] = -1 ∧ keyIndex [27, 91, 0x1d] = 2) ∧
      (detachIndex (27 :: "[93;5;" ++ [1, 117]) = 0 ∧
        keyIndex (27 :: "[93;5;" ++ [1, 117]) = -1) := by
  decide +kernel

end Lemul.Cli
