import Lemul.Misc.TextFields
import Lemul.Misc.Whitespace
import Lemul.Supervisor.Procfs

/-!
# Reading `/proc/<pid>/stat`

`parseStat` (`internal/supervisor/procfs.go:180-225`). A process names itself, and its name stands
in the middle of the line: the fields behind it are looked for from the last closing bracket on, so
that a name cannot pass for them.
-/

namespace Lemul.Supervisor.Procfs

open List

/-- `strings.LastIndexByte`. -/
def lastIndexByte (s : GoString) (c : UInt8) : Option Nat :=
  (s.reverse.findIdx? (· = c)).map fun i => s.length - 1 - i

/-- What `strconv.ParseInt` returns beside its error: no number is 0, and a number that is out of
range is the nearest that is not. -/
def parseIntValue (s : GoString) : Int :=
  match s with
  | [] => 0
  | b :: rest =>
      if b = 45 then
        match parseDecimal rest with
        | none => 0
        | some n => if n ≤ 2 ^ 63 then -(n : Int) else -2 ^ 63
      else
        match parseDecimal (if b = 43 then rest else s) with
        | none => 0
        | some n => if n < 2 ^ 63 then n else 2 ^ 63 - 1

/-- The value of an `int64` expression. -/
def int64 (n : Int) : Int := n.bmod (2 ^ 64)

/-- `statFields` (`procfs.go:180-183`). -/
structure StatFields where
  info : ProcInfo
  startTicks : Int
  deriving DecidableEq, Repr

/-- `num` (`procfs.go:208-211`). -/
def num (rest : List GoString) (i : Nat) : Int := parseIntValue (rest.getD i [])

/-- `parseStat` (`procfs.go:191-225`). -/
def parseStat (pagesize : Int) (s : GoString) : Option StatFields :=
  match s.findIdx? (· = 40), lastIndexByte s 41 with
  | some opened, some closed =>
      if closed < opened then none
      else
        match atoi (trimSpace (s.take opened)) with
        | none => none
        | some pid =>
            let name := (s.drop (opened + 1)).take (closed - (opened + 1))
            let rest := fields (s.drop (closed + 1))
            if rest.length < 22 then none
            else
              some {
                info := {
                  pid := pid
                  ppid := num rest 1
                  name := name
                  state := rest.getD 0 []
                  rssKB := (int64 (num rest 21 * pagesize)).tdiv 1024
                  cpuTicks := int64 (num rest 11 + num rest 12)
                  startedAt := []
                  cmdline := []
                  sessionID := [] }
                startTicks := num rest 19 }
  | _, _ => none

/-! ## The line of a process -/

/-- `/proc/<pid>/stat`, with or without the newline at its end. -/
def statLine (pid : Int) (comm : GoString) (state : UInt8) (nums : List Int) (newline : Bool) :
    GoString :=
  formatInt pid ++ str " (" ++ comm ++ str ") " ++
    [32].intercalate ([state] :: nums.map formatInt) ++ if newline then [10] else []

/-- A letter of ASCII. -/
def isLetter (b : UInt8) : Bool :=
  65 ≤ b.toNat && b.toNat ≤ 90 || 97 ≤ b.toNat && b.toNat ≤ 122

/-- The bytes that a numeral is made of. -/
theorem mem_formatInt {n : Int} {b : UInt8} (h : b ∈ formatInt n) : isDigit b ∨ b = 45 := by
  have hdigit : b ∈ decimal n.natAbs → isDigit b = true :=
    all_eq_true.mp (all_isDigit_decimal _) b
  unfold formatInt at h
  split at h
  · rcases mem_cons.mp h with rfl | h
    · exact .inr rfl
    · exact .inl (hdigit h)
  · exact .inl (hdigit h)

theorem formatInt_visible (n : Int) : (formatInt n).all isVisible = true := by
  refine all_eq_true.mpr fun b hb => ?_
  rcases mem_formatInt hb with h | rfl
  · simp only [isDigit, isVisible, Bool.and_eq_true, decide_eq_true_eq] at h ⊢
    omega
  · rfl

theorem formatInt_ne_nil (n : Int) : formatInt n ≠ [] := by
  unfold formatInt
  split
  · exact cons_ne_nil _ _
  · exact decimal_ne_nil _

theorem bracket_notMem_formatInt {c : UInt8} (hc : c = 40 ∨ c = 41) (n : Int) :
    c ∉ formatInt n := by
  intro h
  rcases mem_formatInt h with h | rfl
  · rcases hc with rfl | rfl <;> exact absurd h (by decide)
  · exact absurd hc (by decide)

theorem parseIntValue_formatInt {n : Int} (hlow : -2 ^ 63 ≤ n) (hhigh : n < 2 ^ 63) :
    parseIntValue (formatInt n) = n := by
  unfold formatInt
  split
  · have habs : n.natAbs ≤ 2 ^ 63 := by omega
    simp only [parseIntValue, if_true, parseDecimal_decimal, if_pos habs]
    omega
  · have hparse := parseDecimal_decimal n.natAbs
    cases hd : decimal n.natAbs with
    | nil => exact absurd hd (decimal_ne_nil _)
    | cons b rest =>
      obtain ⟨hminus, hplus⟩ := head_decimal hd
      rw [hd] at hparse
      have habs : n.natAbs < 2 ^ 63 := by omega
      simp only [parseIntValue, if_neg hminus, if_neg hplus, hparse, if_pos habs]
      omega

theorem findIdx?_first {a b : GoString} {c : UInt8} (h : c ∉ a) :
    (a ++ c :: b).findIdx? (· = c) = some a.length := by
  rw [findIdx?_append, findIdx?_eq_none_iff.mpr]
  · simp [findIdx?_cons]
  · intro x hx
    simp only [decide_eq_false_iff_not]
    rintro rfl
    exact h hx

theorem lastIndexByte_last {a b : GoString} {c : UInt8} (h : c ∉ b) :
    lastIndexByte (a ++ c :: b) c = some a.length := by
  have hrev : (a ++ c :: b).reverse = b.reverse ++ c :: a.reverse := by simp
  rw [lastIndexByte, hrev, findIdx?_first (by simpa using h)]
  simp only [Option.map_some, length_append, length_cons, length_reverse, Option.some.injEq]
  omega

/-- The first opening bracket and the last closing one are those around the name. -/
theorem parseStat_brackets (pagesize : Int) {before rest : GoString} {pid : Int}
    (hopened : 40 ∉ before) (hclosed : 41 ∉ rest) (hpid : atoi (trimSpace before) = some pid)
    (hlen : 22 ≤ (fields rest).length) (comm : GoString) :
    parseStat pagesize (before ++ 40 :: (comm ++ 41 :: rest)) = some {
      info := {
        pid := pid
        ppid := num (fields rest) 1
        name := comm
        state := (fields rest).getD 0 []
        rssKB := (int64 (num (fields rest) 21 * pagesize)).tdiv 1024
        cpuTicks := int64 (num (fields rest) 11 + num (fields rest) 12)
        startedAt := []
        cmdline := []
        sessionID := [] }
      startTicks := num (fields rest) 19 } := by
  have hlast : before ++ 40 :: (comm ++ 41 :: rest) = (before ++ 40 :: comm) ++ 41 :: rest := by
    simp
  have hname : (drop (before.length + 1) (before ++ 40 :: (comm ++ 41 :: rest))).take
      ((before ++ 40 :: comm).length - (before.length + 1)) = comm := by
    rw [drop_append, drop_of_length_le (Nat.le_succ _), nil_append, Nat.add_sub_cancel_left,
      drop_succ_cons, drop_zero, length_append, length_cons]
    exact take_left' (by omega)
  have hrest : drop ((before ++ 40 :: comm).length + 1) (before ++ 40 :: (comm ++ 41 :: rest)) =
      rest := by
    rw [hlast, drop_append, drop_of_length_le (Nat.le_succ _), nil_append,
      Nat.add_sub_cancel_left, drop_succ_cons, drop_zero]
  have horder : ¬ (before ++ 40 :: comm).length < before.length := by simp
  have hlast_eq := lastIndexByte_last (a := before ++ 40 :: comm) hclosed
  rw [← hlast] at hlast_eq
  simp only [parseStat, findIdx?_first hopened, hlast_eq, if_neg horder, take_left, hpid, hname,
    hrest, if_neg (Nat.not_lt.mpr hlen)]

/-- A field of the line is the number it was written for. -/
theorem num_line {state : GoString} {nums : List Int} {i : Nat} (hi : i < nums.length)
    (h : -2 ^ 63 ≤ nums.getD i 0 ∧ nums.getD i 0 < 2 ^ 63) :
    num (state :: nums.map formatInt) (i + 1) = nums.getD i 0 := by
  rw [getD_eq_getElem _ _ hi] at h ⊢
  rw [num, getD_cons_succ, getD_eq_getElem _ _ (by simpa using hi), getElem_map,
    parseIntValue_formatInt h.1 h.2]

/-- The numbers that are read: the parent, the two CPU times, the start and the pages. The others
may be anything, and on a kernel's line some are beyond `int64`. -/
def parsed : List Nat := [0, 10, 11, 18, 20]

/-- Whatever a process calls itself, what is read off its line is what the line was written
for. -/
theorem parseStat_statLine (pagesize : Int) {pid : Int} (hpid : -2 ^ 63 ≤ pid ∧ pid < 2 ^ 63)
    (comm : GoString) {state : UInt8} (hstate : isLetter state = true) {nums : List Int}
    (hlen : 22 ≤ ([state] :: nums.map formatInt).length)
    (hnums : ∀ i ∈ parsed, -2 ^ 63 ≤ nums.getD i 0 ∧ nums.getD i 0 < 2 ^ 63) (newline : Bool) :
    parseStat pagesize (statLine pid comm state nums newline) = some {
      info := {
        pid := pid
        ppid := nums.getD 0 0
        name := comm
        state := [state]
        rssKB := (int64 (nums.getD 20 0 * pagesize)).tdiv 1024
        cpuTicks := int64 (nums.getD 10 0 + nums.getD 11 0)
        startedAt := []
        cmdline := []
        sessionID := [] }
      startTicks := nums.getD 18 0 } := by
  simp only [isLetter, Bool.or_eq_true, Bool.and_eq_true, decide_eq_true_eq] at hstate
  have hvisible : ∀ w ∈ [state] :: nums.map formatInt, w.all isVisible = true := by
    refine forall_mem_cons.mpr ⟨?_, forall_mem_map.mpr fun n _ => formatInt_visible n⟩
    simp only [all_cons, all_nil, isVisible, Bool.and_true, Bool.and_eq_true, decide_eq_true_eq]
    omega
  have hne : ∀ w ∈ [state] :: nums.map formatInt, w ≠ [] :=
    forall_mem_cons.mpr ⟨cons_ne_nil _ _, forall_mem_map.mpr fun n _ => formatInt_ne_nil n⟩
  have hbracket : ∀ w ∈ [state] :: nums.map formatInt, (41 : UInt8) ∉ w := by
    refine forall_mem_cons.mpr ⟨?_, forall_mem_map.mpr fun n _ =>
      bracket_notMem_formatInt (.inr rfl) n⟩
    rw [mem_singleton]
    rintro rfl
    exact absurd hstate (by decide)
  have hline : ∃ eol : GoString, (eol = [] ∨ eol = [10]) ∧
      statLine pid comm state nums newline = (formatInt pid ++ [32]) ++ 40 :: (comm ++
        41 :: 32 :: ([32].intercalate ([state] :: nums.map formatInt) ++ eol)) := by
    have hopened : str " (" = [32, 40] := by decide +kernel
    have hclosed : str ") " = [41, 32] := by decide +kernel
    cases newline with
    | false => exact ⟨[], .inl rfl, by simp [statLine, hopened, hclosed]⟩
    | true => exact ⟨[10], .inr rfl, by simp [statLine, hopened, hclosed]⟩
  obtain ⟨eol, heol, hline⟩ := hline
  have hfields : fields (32 :: ([32].intercalate ([state] :: nums.map formatInt) ++ eol)) =
      [state] :: nums.map formatInt := by
    rw [fields_cons_space, fields_joined hne hvisible heol]
  have hopened : (40 : UInt8) ∉ formatInt pid ++ [32] := by
    rw [mem_append, mem_singleton, not_or]
    exact ⟨bracket_notMem_formatInt (.inl rfl) pid, by decide⟩
  have hclosed : (41 : UInt8) ∉
      32 :: ([32].intercalate ([state] :: nums.map formatInt) ++ eol) := by
    rw [mem_cons, mem_append]
    rintro (h | h | h)
    · exact absurd h (by decide)
    · exact notMem_joined (by decide) hbracket h
    · rcases heol with rfl | rfl
      · exact absurd h not_mem_nil
      · exact absurd h (by decide)
  have hatoi : atoi (trimSpace (formatInt pid ++ [32])) = some pid := by
    rw [trimSpace_word (formatInt_visible pid), atoi_formatInt hpid.1 hpid.2]
  rw [hline, parseStat_brackets pagesize hopened hclosed hatoi (by rw [hfields]; exact hlen),
    hfields]
  rw [length_cons, length_map] at hlen
  have hread : ∀ i ∈ parsed, num ([state] :: nums.map formatInt) (i + 1) = nums.getD i 0 := by
    intro i hi
    have hsmall : ∀ i ∈ parsed, i < 21 := by decide
    have := hsmall i hi
    exact num_line (by omega) (hnums i hi)
  rw [hread 0 (by decide), hread 10 (by decide), hread 11 (by decide), hread 18 (by decide),
    hread 20 (by decide)]
  rfl

/-- What a kernel writes behind the state of a process: its limit on memory is 2^64-1. -/
def kernelNums : List Int :=
  [5, 7, 7, 0, -1, 4194560, 142, 0, 0, 0, 3, 2, 0, 0, 20, 0, 1, 0, 5300, 2260992, 640,
    18446744073709551615, 94226816421888, 94226816443517, 140729870190224, 0, 0, 0, 0, 4096, 0, 0,
    0, 0, 17, 1, 0, 0, 0, 0, 0, 94226816457456, 94226816458920, 94227089825792, 140729870196485,
    140729870196494, 140729870196494, 140729870196719, 0]

/-- A process that calls itself `a) R 1 (` does not become a child of process 1. -/
theorem parseStat_statLine_forged :
    (parseStat 4096 (statLine 7 "a) R 1 (" 0x53 kernelNums true)).map
      (fun f => (f.info.pid, f.info.ppid, f.info.name, f.startTicks)) =
        some (7, 5, str "a) R 1 (", 5300) := by
  rw [parseStat_statLine 4096 (by decide) _ (by decide) (by decide) (by decide)]
  rfl

end Lemul.Supervisor.Procfs
