import Lemul.Driver.Ecs
import Lemul.MgmtApi.WorkspaceCrud
import Lemul.Misc.TextFields

/-!
# The keys tasks are found by

`IdempotencyKey` (`driver.go:61-69`) and `startedBy` (`ecs.go:203-213`) cut the name of a
workspace and the number of a placement to 64 and to 36 bytes; the drivers answer a repeated
`Start` with the task they find under the key (`local.go:54-62`, `docker.go:184-191`,
`ecs.go:569-579`). A key that has been cut belongs to several names.
-/

namespace Lemul.Driver

open List MgmtApi

/-- The bytes of accepted names. -/
def nameByte (b : UInt8) : Bool := (97 ≤ b && b ≤ 122) || (48 ≤ b && b ≤ 57) || b == 45 || b == 95

theorem validWorkspaceName_iff {name : GoString} : validWorkspaceName name = none ↔
    name ≠ [] ∧ name.length ≤ 64 ∧ name.head? ≠ some 45 ∧ ∀ b ∈ name, nameByte b = true := by
  unfold validWorkspaceName nameByte
  grind

/-- `Spec` (`driver.go:20-59`), as far as the keys read it, of a workspace whose name was
accepted. -/
@[ext]
structure Spec where
  workspaceID : GoString
  generation : Nat
  valid : validWorkspaceName workspaceID = none
  bounded : generation < 2 ^ 64

/-- `sanitise` (`docker.go:78-89`): the bytes of an accepted name are its runes. -/
def sanitise (s : GoString) : GoString :=
  s.map fun b =>
    if (97 ≤ b && b ≤ 122) || (65 ≤ b && b ≤ 90) || (48 ≤ b && b ≤ 57) || b == 45 || b == 95 then b
    else 45

/-- The drivers of `internal/driver`: `local` runs supervisors as processes. -/
inductive Kind where
  | process
  | docker
  | ecs
  deriving DecidableEq, Repr

/-- What a driver finds a task by: the index `byKey`, `containerName` (`docker.go:74-76`),
`startedBy`. -/
def Kind.key : Kind → GoString → Nat → GoString
  | .process, name, gen => idempotencyKey name gen
  | .docker, name, gen => "lemul-ws-" ++ sanitise (idempotencyKey name gen)
  | .ecs, name, gen => startedBy name gen

/-- A task that was placed and is still there. -/
structure Placed where
  ref : GoString
  spec : Spec

/-- What `Start` returns without placing a task: `tasks` are those of the driver in the order it
lists them. A listing that fails counts as none. -/
def existing (d : Kind) (tasks : Except GoString (List Placed)) (s : Spec) : Option Placed :=
  match tasks with
  | .error _ => none
  | .ok tasks => tasks.find? fun t =>
      d.key t.spec.workspaceID t.spec.generation = d.key s.workspaceID s.generation

/-- The key of `s` is that of no other placement. -/
def Exact (key : GoString → Nat → GoString) (s : Spec) : Prop :=
  ∀ s' : Spec, key s'.workspaceID s'.generation = key s.workspaceID s.generation → s' = s

/-- A driver answers with tasks of the placement itself exactly where the key is exact. -/
theorem existing_exact_iff {d : Kind} {s : Spec} :
    (∀ tasks t, existing d tasks s = some t → t.spec = s) ↔ Exact d.key s := by
  constructor
  · intro h s' hkey
    refine h (.ok [⟨[], s'⟩]) ⟨[], s'⟩ ?_
    simp only [existing, find?_cons, hkey, decide_true]
  · intro h tasks t ht
    cases tasks with
    | error e => cases ht
    | ok tasks =>
      have hkey := find?_some (show find? _ tasks = some t from ht)
      exact h t.spec (of_decide_eq_true hkey)

section Keys

variable {a b name : GoString} {gen : Nat} {s : Spec}

/-- The last dash stands before the number. -/
theorem joined_inj {m n : Nat} (h : a ++ 45 :: decimal m = b ++ 45 :: decimal n) :
    a = b ∧ m = n := by
  have hdash : ∀ n, (45 : UInt8) ∉ (decimal n).reverse := by
    intro n hmem
    exact absurd (all_eq_true.mp (all_isDigit_decimal n) 45 (mem_reverse.mp hmem)) (by decide)
  have hcut := congrArg (fun l => cut 45 l.reverse) h
  simp only [reverse_append, reverse_cons, append_assoc, singleton_append,
    cut_append (hdash _), Option.some.injEq, Prod.mk.injEq, reverse_inj] at hcut
  exact ⟨hcut.2, decimal_injective hcut.1⟩

/-- The number takes at least one byte and at most twenty. -/
theorem Spec.digits (s : Spec) :
    0 < (decimal s.generation).length ∧ (decimal s.generation).length ≤ 20 :=
  ⟨length_pos_iff.mpr (decimal_ne_nil _), length_decimal_of_lt (by grind [s.bounded]) (by decide)⟩

/-- Where two accepted names share the key of `s`, it is not exact. -/
theorem not_exact_of_two {key : GoString → Nat → GoString} (hne : a ≠ b)
    (ha : validWorkspaceName a = none) (hb : validWorkspaceName b = none)
    (hkey : ∀ x, x = a ∨ x = b → key x s.generation = key s.workspaceID s.generation) :
    ¬Exact key s := by
  intro h
  have hsame := fun x hx hvalid => congrArg Spec.workspaceID
    (h ⟨x, s.generation, hvalid, s.bounded⟩ (hkey x hx))
  exact hne ((hsame a (.inl rfl) ha).trans (hsame b (.inr rfl) hb).symm)

/-- `cutTo n` keeps `n` bytes of what is longer. -/
structure Cuts (cutTo : Nat → GoString → GoString) : Prop where
  length : ∀ n l, (cutTo n l).length = min n l.length
  short : ∀ n l, l.length ≤ n → cutTo n l = l

/-- A key that leaves a byte of its `limit` free is exact: one that was cut leaves none. -/
theorem exact_of_short {cutTo : Nat → GoString → GoString} {start : GoString} {limit : Nat}
    {key : GoString → Nat → GoString} (hcut : Cuts cutTo)
    (hkey : ∀ s : Spec, key s.workspaceID s.generation =
      cutTo (limit - (decimal s.generation).length) (start ++ s.workspaceID) ++
        45 :: decimal s.generation)
    (hlimit : 20 ≤ limit)
    (h : start.length + s.workspaceID.length + (decimal s.generation).length < limit) :
    Exact key s := by
  intro s' hsame
  have hdigits := s'.digits
  rw [hkey, hkey] at hsame
  have hlen := congrArg length hsame
  simp only [length_append, length_cons, hcut.length] at hlen
  rw [hcut.short _ _ (by rw [length_append]; omega),
    hcut.short _ _ (by rw [length_append]; omega)] at hsame
  obtain ⟨hname, hgen⟩ := joined_inj hsame
  exact Spec.ext (append_cancel_left hname) hgen

/-- A letter can be put before or after a part of an accepted name that is short enough. -/
theorem valid_padded {kept : GoString} {c : UInt8} (hc : c = 97 ∨ c = 98)
    (hlen : kept.length < 64) (hkept : ∀ x ∈ kept, x ∈ s.workspaceID) :
    validWorkspaceName (c :: kept) = none ∧
      (kept.head? = s.workspaceID.head? → validWorkspaceName (kept ++ [c]) = none) := by
  obtain ⟨hne, -, hhead, hall⟩ := validWorkspaceName_iff.mp s.valid
  have hletter : ∀ x ∈ c :: kept, nameByte x = true := by
    intro x hx
    rcases mem_cons.mp hx with rfl | hx
    · rcases hc with rfl | rfl <;> rfl
    · exact hall x (hkept x hx)
  refine ⟨validWorkspaceName_iff.mpr ⟨by simp, hlen, ?_, hletter⟩, fun hsame =>
    validWorkspaceName_iff.mpr ⟨by simp, by rw [length_append]; exact hlen, ?_, ?_⟩⟩
  · rcases hc with rfl | rfl <;> simp
  · have hcons : kept ≠ [] := by
      rintro rfl
      exact hne (head?_eq_none_iff.mp hsame.symm)
    rw [head?_append_of_ne_nil _ hcons, hsame]
    exact hhead
  · intro x hx
    exact hletter x (by simpa [or_comm] using hx)

theorem startedBy_eq (name : GoString) (gen : Nat) : startedBy name gen =
    (startedByPrefix ++ name).take (35 - (decimal gen).length) ++ 45 :: decimal gen := by
  have hdash : "-" ++ decimal gen = 45 :: decimal gen := rfl
  simp only [startedBy, hdash, length_cons, Nat.reduceSubDiff]
  split
  · rfl
  · rename_i hshort
    rw [take_of_length_le (Nat.not_lt.mp hshort)]

theorem startedBy_exact : Exact startedBy s ↔
    startedByPrefix.length + s.workspaceID.length + (decimal s.generation).length < 35 := by
  have hdigits := s.digits
  refine ⟨fun h => ?_, exact_of_short ⟨by simp, fun _ _ => take_of_length_le⟩
    (fun s => startedBy_eq s.workspaceID s.generation) (by decide)⟩
  have hprefix : startedByPrefix.length = 6 := rfl
  by_contra hlong
  -- what is kept of the name can go on in two ways
  obtain ⟨n, hn⟩ : ∃ n, 35 - (decimal s.generation).length = startedByPrefix.length + n :=
    ⟨29 - (decimal s.generation).length, by omega⟩
  have hlen : (s.workspaceID.take n).length = n := by
    rw [length_take]
    omega
  have hhead : (s.workspaceID.take n).head? = s.workspaceID.head? := by
    rw [head?_take, if_neg (by omega)]
  have hvalid := fun c hc => (valid_padded (c := c) hc (by omega)
    (fun x => mem_of_mem_take)).2 hhead
  refine not_exact_of_two (by simp) (hvalid 97 (.inl rfl)) (hvalid 98 (.inr rfl)) ?_ h
  intro x hx
  have htake : x.take n = s.workspaceID.take n := by
    rcases hx with rfl | rfl <;> rw [take_left' hlen]
  rw [startedBy_eq, startedBy_eq, hn, take_length_add_append, take_length_add_append, htake]

theorem idempotencyKey_eq (hgen : (decimal gen).length ≤ 20) : idempotencyKey name gen =
    name.rtake (63 - (decimal gen).length) ++ 45 :: decimal gen := by
  have hdash : name ++ "-" ++ decimal gen = name ++ 45 :: decimal gen := append_assoc ..
  simp only [idempotencyKey, hdash, length_append, length_cons]
  split
  · rename_i hlong
    rw [drop_append_of_le_length (by omega), rtake]
    congr 2
    omega
  · rw [rtake, Nat.sub_eq_zero_of_le (by omega), drop_zero]

theorem idempotencyKey_exact : Exact idempotencyKey s ↔
    s.workspaceID.length + (decimal s.generation).length < 63 := by
  have hdigits := s.digits
  have hlength : ∀ n (l : GoString), (l.rtake n).length = min n l.length := by
    intro n l
    rw [rtake, length_drop]
    omega
  constructor
  · intro h
    by_contra hlong
    -- what is kept of the name can begin in two ways
    obtain ⟨n, hn⟩ : ∃ n, 63 - (decimal s.generation).length = n := ⟨_, rfl⟩
    have hlen : (s.workspaceID.rtake n).length = n := by
      rw [hlength]
      omega
    have hvalid : ∀ c : UInt8, c = 97 ∨ c = 98 →
        validWorkspaceName (c :: s.workspaceID.rtake n) = none :=
      fun c hc => (valid_padded hc (hlen.trans_lt (by omega)) fun _ => mem_of_mem_drop).1
    refine not_exact_of_two (by simp) (hvalid 97 (.inl rfl)) (hvalid 98 (.inr rfl)) ?_ h
    intro x hx
    have hrtake : x.rtake n = s.workspaceID.rtake n := by
      rcases hx with rfl | rfl <;> rw [rtake, length_cons, hlen, Nat.add_sub_cancel_left] <;> rfl
    rw [idempotencyKey_eq hdigits.2, idempotencyKey_eq hdigits.2, hn, hrtake]
  · have hcut : Cuts fun n (l : GoString) => l.rtake n := by
      refine ⟨hlength, fun n l hl => ?_⟩
      rw [rtake, Nat.sub_eq_zero_of_le hl, drop_zero]
    exact fun h => exact_of_short hcut
      (fun s => (idempotencyKey_eq s.digits.2 :
        _ = ([] ++ s.workspaceID).rtake (63 - (decimal s.generation).length) ++ _))
      (by decide) (by simpa using h)

/-- The bytes of a key are all allowed in the name of a container. -/
theorem sanitise_key (s : Spec) : sanitise (idempotencyKey s.workspaceID s.generation) =
    idempotencyKey s.workspaceID s.generation := by
  obtain ⟨-, -, -, hname⟩ := validWorkspaceName_iff.mp s.valid
  unfold sanitise
  refine (map_congr_left fun b hb => if_pos ?_).trans (map_id _)
  rw [idempotencyKey_eq s.digits.2, mem_append, mem_cons] at hb
  rcases hb with hb | rfl | hb
  · have hbyte := hname b (mem_of_mem_drop hb)
    unfold nameByte at hbyte
    grind
  · rfl
  · have hdigit := all_eq_true.mp (all_isDigit_decimal s.generation) b hb
    simp only [isDigit, Bool.and_eq_true, decide_eq_true_eq] at hdigit
    simp [UInt8.le_iff_toNat_le, hdigit]

theorem containerName_exact : Exact (Kind.key .docker) s ↔ Exact idempotencyKey s := by
  unfold Exact
  simp only [Kind.key, sanitise_key, append_right_inj]

end Keys

/-- The mark of a task is at most 36 bytes long. It is that of one placement only, and what
`Start` of the ECS driver adopts is a task of that placement, exactly where it is shorter. -/
theorem ecs_adopts_own_iff (s : Spec) :
    (startedBy s.workspaceID s.generation).length ≤ 36 ∧
    (Exact startedBy s ↔
      startedByPrefix.length + s.workspaceID.length + (decimal s.generation).length < 35) ∧
    ((∀ tasks t, existing .ecs tasks s = some t → t.spec = s) ↔
      startedByPrefix.length + s.workspaceID.length + (decimal s.generation).length < 35) := by
  refine ⟨?_, startedBy_exact, existing_exact_iff.trans startedBy_exact⟩
  have hdigits := s.digits
  rw [startedBy_eq, length_append, length_take, length_cons]
  omega

/-- The second workspace is answered with the task of the first. -/
theorem ecs_adopts_another :
    ∃ first second : Spec, first.workspaceID = "payments-integration-testing-east" ∧
      second.workspaceID = "payments-integration-testing-west" ∧
      first.generation = 1 ∧ second.generation = 1 ∧
      (existing .ecs (.ok [⟨"arn", first⟩]) second).map (·.ref) = some (str "arn") :=
  ⟨⟨"payments-integration-testing-east", 1, by decide, by decide⟩,
    ⟨"payments-integration-testing-west", 1, by decide, by decide⟩, rfl, rfl, rfl, rfl,
    by decide⟩

/-- The bytes that a driver's key has for the name and the number. -/
def Kind.room : Kind → Nat
  | .process => 63
  | .docker => 63
  | .ecs => 29

/-- The key of a placement is at most 64 bytes long. It is that of one placement only exactly
where it is shorter, and every driver answers a `Start` with a task of the placement itself
exactly where what it finds tasks by has not been filled up. -/
theorem placement_key_own_iff (s : Spec) :
    (idempotencyKey s.workspaceID s.generation).length ≤ 64 ∧
    (Exact idempotencyKey s ↔ s.workspaceID.length + (decimal s.generation).length < 63) ∧
    ∀ d, (∀ tasks t, existing d tasks s = some t → t.spec = s) ↔
      s.workspaceID.length + (decimal s.generation).length < d.room := by
  have hdigits := s.digits
  refine ⟨?_, idempotencyKey_exact, fun d => existing_exact_iff.trans ?_⟩
  · rw [idempotencyKey_eq hdigits.2, length_append, rtake, length_drop, length_cons]
    omega
  · cases d with
    | process => exact idempotencyKey_exact
    | docker => exact containerName_exact.trans idempotencyKey_exact
    | ecs =>
      have hlen : startedByPrefix.length = 6 := rfl
      refine startedBy_exact.trans ?_
      simp only [hlen, Kind.room]
      omega

/-- Two names of 63 bytes that differ in the first: the second workspace is answered with the
task of the first. -/
theorem placement_key_shared :
    ∃ first second : Spec, first.workspaceID ≠ second.workspaceID ∧
      first.generation = 1 ∧ second.generation = 1 ∧
      (existing .process (.ok [⟨"task", first⟩]) second).map (·.ref) = some (str "task") ∧
      (existing .docker (.ok [⟨"task", first⟩]) second).map (·.ref) = some (str "task") :=
  ⟨⟨97 :: replicate 62 120, 1, by decide, by decide⟩,
    ⟨98 :: replicate 62 120, 1, by decide, by decide⟩, by decide, rfl, rfl, by decide +kernel,
    by decide +kernel⟩

end Lemul.Driver
