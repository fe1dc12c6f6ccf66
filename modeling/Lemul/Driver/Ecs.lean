import Lemul.Misc.Decimal
import Lemul.Tunnel.Messages

/-!
# Task drivers

`internal/driver/driver.go` and the parts of `internal/driver/ecs/ecs.go` that decide
which task a placement gets and what becomes of its disk. Answers of the AWS calls are
arguments: `volumeOf` and `createSnapshot` stand for what `DescribeTasks` and
`CreateSnapshot` returned.
-/

namespace Lemul.Driver

/-- `Config` of the ECS driver, as far as `Preserve` reads it: whether `WithEC2` was
called, and `VolumeName`. -/
structure Ecs where
  ec2 : Bool
  volumeName : GoString
  deriving DecidableEq, Repr

end Driver

/-- The driver a runner was started with. `local` and `docker` do not implement
`Snapshotter` (`driver.go:86-102`). -/
inductive Driver where
  | plain
  | ecs (d : Driver.Ecs)
  deriving DecidableEq, Repr

namespace Driver

/-- Whether the driver's tasks have a volume that does not outlive them by itself: ECS
mints one per task when a volume name is configured (`ecs.go:329-332`). -/
def hasVolume : Driver → Bool
  | .plain => false
  | .ecs d => d.volumeName ≠ []

/-- `startedByPrefix` (`ecs.go:79`). -/
def startedByPrefix : GoString := "lemul-"

/-- `startedBy` (`ecs.go:203-213`): the mark a task is adopted by. -/
def startedBy (workspaceID : GoString) (generation : Nat) : GoString :=
  let suffix := "-" ++ decimal generation
  let head := startedByPrefix ++ workspaceID
  let room := 36 - suffix.length
  (if head.length > room then head.take room else head) ++ suffix

/-- `IdempotencyKey` (`driver.go:61-67`): the last 64 bytes of name and generation. -/
def idempotencyKey (workspaceID : GoString) (generation : Nat) : GoString :=
  let k := workspaceID ++ "-" ++ decimal generation
  if k.length > 64 then k.drop (k.length - 64) else k

/-- `Preserve` of the ECS driver (`ecs.go:400-446`). Releasing the volume is best effort
and decides nothing about the result. -/
def Ecs.preserve (d : Ecs) (ref : GoString) (keep : Bool)
    (volumeOf createSnapshot : Except GoString GoString) : Except GoString GoString :=
  if !d.ec2 || d.volumeName = [] || ref = [] then .ok []
  else
    match volumeOf with
    | .error e => .error e
    | .ok volume =>
        if volume = [] then .ok []
        else if keep then
          match createSnapshot with
          | .error e => .error ("ec2 CreateSnapshot " ++ volume ++ ": " ++ e)
          | .ok id => .ok id
        else .ok []

/-- The disk part of a stop (`runner.go:131-138`): a failure to preserve is logged and
answered as `""`. -/
def preserved (d : Driver) (ref : GoString) (keep : Bool)
    (volumeOf createSnapshot : Except GoString GoString) : GoString :=
  match d with
  | .plain => []
  | .ecs e =>
      match e.preserve ref keep volumeOf createSnapshot with
      | .ok id => id
      | .error _ => []

/-- `Preserve` looked for the volume of the task and found that it has none. -/
def findsNone (d : Driver) (ref : GoString) (volumeOf : Except GoString GoString) : Bool :=
  match d, volumeOf with
  | .ecs e, .ok volume => e.ec2 && e.volumeName ≠ [] && ref ≠ [] && volume = []
  | _, _ => false

/-- A stop hands back a snapshot only if one was asked for, made of a volume that was
found, and `CreateSnapshot` named it. -/
theorem preserved_ne_nil {d : Driver} {ref : GoString} {keep : Bool}
    {volumeOf createSnapshot : Except GoString GoString}
    (h : d.preserved ref keep volumeOf createSnapshot ≠ []) :
    keep = true ∧ d.hasVolume = true ∧ (∃ volume, volumeOf = .ok volume ∧ volume ≠ []) ∧
      createSnapshot = .ok (d.preserved ref keep volumeOf createSnapshot) := by
  cases d with
  | plain => exact absurd rfl h
  | ecs e =>
    simp only [preserved, Ecs.preserve, hasVolume] at h ⊢
    split at h
    · rename_i id hid
      split at hid
      · cases hid
        exact absurd rfl h
      · rename_i hconfig
        simp only [Bool.or_eq_true, not_or, Bool.not_eq_true, decide_eq_true_eq] at hconfig
        cases volumeOf with
        | error err => cases hid
        | ok volume =>
          by_cases hvolume : volume = []
          · simp only [hvolume, if_true] at hid
            cases hid
            exact absurd rfl h
          · cases keep with
            | false =>
              simp only [hvolume, if_false, Bool.false_eq_true] at hid
              cases hid
              exact absurd rfl h
            | true =>
              cases createSnapshot with
              | error err => simp [hvolume] at hid
              | ok made =>
                simp only [hvolume, if_false, if_true] at hid
                cases hid
                simp [hconfig, hvolume]
    · exact absurd rfl h

end Driver

end Lemul
