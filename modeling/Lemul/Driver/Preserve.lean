import Lemul.Driver.Ecs
import Lemul.Misc.Lists
import Lemul.Misc.Prog

/-!
# Preserving a disk

`Preserve` of the ECS driver with its calls (`internal/driver/ecs/ecs.go:400-540`): it looks up
the volume on the task, waits for the task to stop, takes a snapshot and releases the volume.
What AWS answers is up to a machine that answers anything; the clock is read by `time.Now` and
passes while the driver sleeps and whenever else it likes.

Every run follows one of a few courses (`Course`), and what is true of the calls is read off
them; a call that is cut short has performed the beginning of one. `Ecs.preserve`, on which the
placement model rests, is the result of such a run.
-/

namespace Lemul.Driver

open List Prog

/-- `types.KeyValuePair` of an attachment's details. -/
structure KeyValuePair where
  name : Option GoString
  value : Option GoString
  deriving DecidableEq, Repr

/-- `types.Attachment`, as far as `volumeOf` reads it. -/
structure Attachment where
  type : Option GoString
  details : List KeyValuePair
  deriving DecidableEq, Repr

/-- `types.Task`, as far as `Preserve` reads it. -/
structure EcsTask where
  lastStatus : Option GoString
  attachments : List Attachment
  deriving DecidableEq, Repr

/-- `Driver` of package `ecs`: the parts of its configuration that `Preserve` reads. -/
structure EcsDriver extends Ecs where
  cluster : GoString
  deriving DecidableEq, Repr

/-- `ebsAttachment`, `volumeIDKey` and `taskStopped` (`ecs.go:69-75`). -/
def ebsAttachment : GoString := "AmazonElasticBlockStorage"
def volumeIDKey : GoString := "volumeId"
def taskStopped : GoString := "STOPPED"

/-- `stopPollInterval` and `stopWaitBudget` (`ecs.go:454-457`), in nanoseconds. -/
def stopPollInterval : Nat := 3000000000
def stopWaitBudget : Nat := 60000000000

/-! ## The calls -/

/-- The calls of `Preserve`. -/
inductive AwsCall where
  | describeTasks (cluster : GoString) (tasks : List GoString)
  | createSnapshot (volumeID description : GoString) (tags : List (GoString × GoString))
  | deleteVolume (volumeID : GoString)
  /-- `time.Now`. -/
  | now
  /-- The `select` between `ctx.Done` and `time.After`; the answer says whether the context was
  done. -/
  | sleep (d : Nat)
  deriving DecidableEq, Repr

/-- What they return: the tasks, the id of the snapshot, the time. -/
abbrev AwsCall.Res : AwsCall → Type
  | .describeTasks _ _ => Except GoString (List EcsTask)
  | .createSnapshot _ _ _ => Except GoString (Option GoString)
  | .deleteVolume _ => Except GoString Unit
  | .now => Nat
  | .sleep _ => Bool

instance (o : AwsCall) : DecidableEq o.Res := by
  cases o <;> infer_instance

abbrev Aws := Prog AwsCall AwsCall.Res

abbrev AwsTrace := Trace AwsCall AwsCall.Res

abbrev awsCall (o : AwsCall) : Aws o.Res := Prog.perform o

/-- The loops of `volumeOf` over what `DescribeTasks` returned (`ecs.go:527-539`). -/
def volumeIn (tasks : List EcsTask) : GoString :=
  (tasks.findSome? fun t => t.attachments.findSome? fun a =>
    if derefOr a.type ≠ ebsAttachment then none
    else a.details.findSome? fun kv =>
      if derefOr kv.name = volumeIDKey then some (derefOr kv.value) else none).getD []

/-- The tags of a snapshot (`ecs.go:417-422`). -/
def snapshotTags : List (GoString × GoString) := [("lemul:managed", "true")]

namespace EcsDriver

/-- `volumeOf` (`ecs.go:519-540`). -/
def volumeOf (d : EcsDriver) (ref : GoString) : Aws (Except GoString GoString) := do
  match ← awsCall (.describeTasks d.cluster [ref]) with
  | .error e => pure (.error ("ecs DescribeTasks " ++ ref ++ ": " ++ e))
  | .ok tasks => pure (.ok (volumeIn tasks))

/-- The loop of `awaitStopped` (`ecs.go:468-489`). It is followed for at most so many polls, and
the result says whether it ended within them. -/
def awaitLoop (d : EcsDriver) (ref : GoString) (deadline : Nat) : Nat → Aws Bool
  | 0 => pure false
  | polls + 1 => do
    match ← awsCall (.describeTasks d.cluster [ref]) with
    | .error _ => pure true
    | .ok [] => pure true
    | .ok (t :: _) =>
        if derefOr t.lastStatus = taskStopped then pure true
        else if deadline < (← awsCall .now) then pure true
        else if ← awsCall (.sleep stopPollInterval) then pure true
        else d.awaitLoop ref deadline polls

/-- `awaitStopped` (`ecs.go:466-490`). -/
def awaitStopped (d : EcsDriver) (ref : GoString) (polls : Nat) : Aws Bool := do
  let start ← awsCall .now
  d.awaitLoop ref (start + stopWaitBudget) polls

/-- `Preserve` from the snapshot on (`ecs.go:411-445`). -/
def release (ref : GoString) (keep : Bool) (volume : GoString) :
    Aws (Except GoString GoString) := do
  if keep then
    match ← awsCall (.createSnapshot volume ("lemul workspace " ++ ref) snapshotTags) with
    | .error e => pure (.error ("ec2 CreateSnapshot " ++ volume ++ ": " ++ e))
    | .ok id =>
        let _ ← awsCall (.deleteVolume volume)
        pure (.ok (derefOr id))
  else
    let _ ← awsCall (.deleteVolume volume)
    pure (.ok [])

/-- `Preserve` (`ecs.go:400-446`); `none` while it still waits for the task. -/
def preserve (d : EcsDriver) (ref : GoString) (keep : Bool) (polls : Nat) :
    Aws (Option (Except GoString GoString)) := do
  if !d.ec2 || d.volumeName = [] || ref = [] then pure (some (.ok []))
  else
    match ← d.volumeOf ref with
    | .error e => pure (some (.error e))
    | .ok volume =>
        if volume = [] then pure (some (.ok []))
        else if ← d.awaitStopped ref polls then
          let r ← release ref keep volume
          pure (some r)
        else pure none

end EcsDriver

/-! ## The machine -/

/-- The clock, and the times at which `DescribeTasks` was called. -/
structure AwsState where
  clock : Nat
  polls : List Nat
  deriving DecidableEq, Repr

/-- Every call may be answered by anything, except that the clock is read and time passes while
the driver sleeps. -/
def AwsState.exec (_ : Nat) : (o : AwsCall) → o.Res → AwsState → Option AwsState
  | .describeTasks _ _, _, s => some { s with polls := s.polls ++ [s.clock] }
  | .createSnapshot _ _ _, _, s => some s
  | .deleteVolume _, _, s => some s
  | .now, t, s => if t = s.clock then some s else none
  | .sleep d, done, s => some (if done then s else { s with clock := s.clock + d })

def aws : Machine AwsCall AwsCall.Res AwsState Nat where
  exec := AwsState.exec
  env d s := some { s with clock := s.clock + d }

/-! ## The courses a call can take -/

/-- What the wait performs. -/
def Waits (d : EcsDriver) (ref : GoString) (o : AwsCall) : Prop :=
  o = .describeTasks d.cluster [ref] ∨ o = .now ∨ o = .sleep stopPollInterval

section Courses

variable {d : EcsDriver} {ref : GoString} {keep : Bool} {polls : Nat} {tr : AwsTrace}

/-- The calls `release` makes for `volume`, and its result. -/
inductive Released (ref : GoString) : Bool → GoString → AwsTrace → Except GoString GoString → Prop
  | failed (volume e : GoString) :
      Released ref true volume
        [⟨.createSnapshot volume ("lemul workspace " ++ ref) snapshotTags, .error e⟩]
        (.error ("ec2 CreateSnapshot " ++ volume ++ ": " ++ e))
  | kept (volume : GoString) (id : Option GoString) (deleted : Except GoString Unit) :
      Released ref true volume
        [⟨.createSnapshot volume ("lemul workspace " ++ ref) snapshotTags, .ok id⟩,
          ⟨.deleteVolume volume, deleted⟩] (.ok (derefOr id))
  | dropped (volume : GoString) (deleted : Except GoString Unit) :
      Released ref false volume [⟨.deleteVolume volume, deleted⟩] (.ok [])

/-- The calls of `preserve` and its result. -/
inductive Course (d : EcsDriver) (ref : GoString) (keep : Bool) :
    AwsTrace → Option (Except GoString GoString) → Prop
  | nothing (h : (!d.ec2 || d.volumeName = [] || ref = []) = true) :
      Course d ref keep [] (some (.ok []))
  | unknown (h : (!d.ec2 || d.volumeName = [] || ref = []) = false) (e : GoString) :
      Course d ref keep [⟨.describeTasks d.cluster [ref], .error e⟩]
        (some (.error ("ecs DescribeTasks " ++ ref ++ ": " ++ e)))
  | detached (h : (!d.ec2 || d.volumeName = [] || ref = []) = false) (tasks : List EcsTask)
      (hnone : volumeIn tasks = []) :
      Course d ref keep [⟨.describeTasks d.cluster [ref], .ok tasks⟩] (some (.ok []))
  | waiting (tasks : List EcsTask) (waited : AwsTrace) (hwaited : ∀ x ∈ waited, Waits d ref x.1) :
      Course d ref keep (⟨.describeTasks d.cluster [ref], .ok tasks⟩ :: waited) none
  | released (h : (!d.ec2 || d.volumeName = [] || ref = []) = false) (tasks : List EcsTask)
      (hvolume : volumeIn tasks ≠ []) (waited : AwsTrace) (hwaited : ∀ x ∈ waited, Waits d ref x.1)
      (rest : AwsTrace) (r : Except GoString GoString)
      (hrest : Released ref keep (volumeIn tasks) rest r) :
      Course d ref keep (⟨.describeTasks d.cluster [ref], .ok tasks⟩ :: (waited ++ rest)) (some r)

theorem awaitLoop_performs (deadline : Nat) :
    (d.awaitLoop ref deadline polls).Performs (fun _ _ => True) (Waits d ref) := by
  induction polls with
  | zero => trivial
  | succ polls ih =>
    refine .perform (.inl rfl) fun described _ => ?_
    split
    · trivial
    · trivial
    · split
      · trivial
      · refine .perform (.inr (.inl rfl)) fun now _ => ?_
        split
        · trivial
        · refine .perform (.inr (.inr rfl)) fun done _ => ?_
          split
          · trivial
          · exact ih

theorem awaitStopped_performs :
    (d.awaitStopped ref polls).Performs (fun _ _ => True) (Waits d ref) :=
  ⟨.inr (.inl rfl), fun start _ => awaitLoop_performs (start + stopWaitBudget)⟩

theorem release_emits {volume : GoString} {r : Except GoString GoString}
    (h : Prog.Emits (EcsDriver.release ref keep volume) tr r) :
    Released ref keep volume tr r := by
  cases keep with
  | true =>
    obtain ⟨made, rest, rfl, hmade⟩ := emits_perform_bind h
    cases made with
    | error e =>
      obtain ⟨rfl, rfl⟩ := emits_ret hmade
      exact .failed volume e
    | ok id =>
      obtain ⟨deleted, rest, rfl, hdeleted⟩ := emits_perform_bind hmade
      obtain ⟨rfl, rfl⟩ := emits_ret hdeleted
      exact .kept volume id deleted
  | false =>
    obtain ⟨deleted, rest, rfl, hdeleted⟩ := emits_perform_bind h
    obtain ⟨rfl, rfl⟩ := emits_ret hdeleted
    exact .dropped volume deleted

variable {r : Option (Except GoString GoString)} {v : GoString}

theorem preserve_emits
    (h : Prog.Emits (d.preserve ref keep polls) tr r) : Course d ref keep tr r := by
  unfold EcsDriver.preserve at h
  split at h
  · rename_i hnothing
    obtain ⟨rfl, rfl⟩ := emits_ret h
    exact .nothing (by simpa using hnothing)
  · rename_i hsome
    have hconfig : (!d.ec2 || d.volumeName = [] || ref = []) = false := by simpa using hsome
    obtain ⟨found, rest, volume, rfl, hfound, hrest⟩ := emits_bind h
    obtain ⟨described, more, rfl, hdescribed⟩ := emits_perform_bind hfound
    cases described with
    | error e =>
      obtain ⟨rfl, rfl⟩ := emits_ret hdescribed
      obtain ⟨rfl, rfl⟩ := emits_ret hrest
      exact .unknown hconfig e
    | ok tasks =>
      obtain ⟨rfl, rfl⟩ := emits_ret hdescribed
      dsimp only at hrest
      split at hrest
      · rename_i hnone
        obtain ⟨rfl, rfl⟩ := emits_ret hrest
        exact .detached hconfig tasks hnone
      · rename_i hvolume
        obtain ⟨waited, rest, ended, rfl, hwait, hended⟩ := emits_bind hrest
        have hwaited := hwait.performs awaitStopped_performs
        cases ended with
        | false =>
          obtain ⟨rfl, rfl⟩ := emits_ret hended
          rw [append_nil]
          exact .waiting tasks waited hwaited
        | true =>
          obtain ⟨rest, last, r, rfl, hrelease, hlast⟩ := emits_bind hended
          obtain ⟨rfl, rfl⟩ := emits_ret hlast
          rw [append_nil]
          exact .released hconfig tasks hvolume waited hwaited rest r (release_emits hrelease)

/-! ## What is true of the calls -/

/-- The call works on volume `v`. -/
def AwsCall.touches (v : GoString) : AwsCall → Prop
  | .createSnapshot volumeID _ _ => volumeID = v
  | .deleteVolume volumeID => volumeID = v
  | _ => False

/-- `DescribeTasks` reported `v` as the volume of an EBS attachment, when asked for task `ref`. -/
def Reports (d : EcsDriver) (ref : GoString) (tr : AwsTrace) (v : GoString) : Prop :=
  ∃ tasks, ⟨.describeTasks d.cluster [ref], .ok tasks⟩ ∈ tr ∧
    ∃ t ∈ tasks, ∃ a ∈ t.attachments, a.type = some ebsAttachment ∧
      ⟨some volumeIDKey, some v⟩ ∈ a.details

theorem eq_some_of_derefOr_eq {p : Option GoString} (h : derefOr p = v)
    (hv : v ≠ []) : p = some v := by
  subst h
  exact eq_some_of_derefOr_ne hv

theorem volumeIn_attached {tasks : List EcsTask} (h : volumeIn tasks ≠ []) :
    ∃ t ∈ tasks, ∃ a ∈ t.attachments, a.type = some ebsAttachment ∧
      ⟨some volumeIDKey, some (volumeIn tasks)⟩ ∈ a.details := by
  have hfound : ∃ v, volumeIn tasks = v ∧ tasks.findSome? (fun t =>
      t.attachments.findSome? fun a =>
        if derefOr a.type ≠ ebsAttachment then none
        else a.details.findSome? fun kv =>
          if derefOr kv.name = volumeIDKey then some (derefOr kv.value) else none) = some v := by
    unfold volumeIn at h ⊢
    cases hsome : tasks.findSome? _ with
    | none => exact absurd (by rw [hsome]; rfl) h
    | some v => exact ⟨v, rfl, rfl⟩
  obtain ⟨v, hv, hfound⟩ := hfound
  rw [hv] at h ⊢
  obtain ⟨t, ht, hfound⟩ := exists_of_findSome?_eq_some hfound
  obtain ⟨a, ha, hfound⟩ := exists_of_findSome?_eq_some hfound
  split at hfound
  · cases hfound
  · rename_i htype
    obtain ⟨⟨name, value⟩, hkv, hvalue⟩ := exists_of_findSome?_eq_some hfound
    split at hvalue
    · rename_i hname
      obtain rfl := eq_some_of_derefOr_eq (Option.some.inj hvalue) h
      obtain rfl := eq_some_of_derefOr_eq hname (by decide)
      exact ⟨t, ht, a, ha, eq_some_of_derefOr_eq (Decidable.not_not.mp htype) (by decide), hkv⟩
    · cases hvalue

/-- The calls on a volume: none before the wait is over, and then those of `release`. -/
theorem Course.touching (h : Course d ref keep tr r) {x : Σ o : AwsCall, o.Res} (hx : x ∈ tr)
    (htouches : x.1.touches v) :
    ∃ tasks waited rest res, volumeIn tasks ≠ [] ∧ (∀ y ∈ waited, Waits d ref y.1) ∧
      Released ref keep (volumeIn tasks) rest res ∧ r = some res ∧
      tr = ⟨.describeTasks d.cluster [ref], .ok tasks⟩ :: (waited ++ rest) ∧ x ∈ rest := by
  have hquiet : ∀ waited : AwsTrace, (∀ y ∈ waited, Waits d ref y.1) → x ∉ waited := by
    intro waited hwaited hmem
    rcases hwaited x hmem with ho | ho | ho <;> rw [ho] at htouches <;> exact htouches
  cases h with
  | nothing => cases hx
  | unknown | detached => exact absurd hx (hquiet _ fun y hy => .inl (by rw [mem_singleton.mp hy]))
  | waiting tasks waited hwaited =>
    refine absurd hx (hquiet _ fun y hy => ?_)
    rcases mem_cons.mp hy with rfl | hy
    · exact .inl rfl
    · exact hwaited y hy
  | released hconfig tasks hvolume waited hwaited rest res hrest =>
    refine ⟨tasks, waited, rest, res, hvolume, hwaited, hrest, rfl, rfl, ?_⟩
    rcases mem_cons.mp hx with rfl | hx
    · exact absurd htouches id
    · exact (mem_append.mp hx).resolve_left (hquiet waited hwaited)

theorem Released.touches {volume : GoString} {rest : AwsTrace} {r : Except GoString GoString}
    (h : Released ref keep volume rest r) {x : Σ o : AwsCall, o.Res}
    (hx : x ∈ rest) (htouches : x.1.touches v) : volume = v := by
  cases h with
  | failed _ e | dropped _ deleted =>
    obtain rfl := mem_singleton.mp hx
    exact htouches
  | kept _ id deleted =>
    rcases mem_cons.mp hx with rfl | hx
    · exact htouches
    · obtain rfl := mem_singleton.mp hx
      exact htouches

/-- At most one volume is touched, one that was reported. -/
theorem Course.one_volume (h : Course d ref keep tr r) {x y : Σ o : AwsCall, o.Res} {u : GoString}
    (hx : x ∈ tr) (hu : x.1.touches u) (hy : y ∈ tr)
    (hv : y.1.touches v) : u = v ∧ Reports d ref tr v := by
  obtain ⟨tasks, waited, rest, res, hvolume, hwaited, hrest, rfl, htr, hx⟩ := h.touching hx hu
  obtain ⟨tasks', waited', rest', res', hvolume', hwaited', hrest', -, htr', hy⟩ := h.touching hy hv
  have htasks : tasks' = tasks := by
    have := htr'.symm.trans htr
    injection this with hdescribe
    injection hdescribe with hcall hanswer
    exact Except.ok.inj hanswer
  subst htasks
  have hu := hrest.touches hx hu
  have hv := hrest'.touches hy hv
  refine ⟨hu.symm.trans hv, tasks', ?_, ?_⟩
  · rw [htr]
    exact mem_cons_self
  · rw [← hv]
    exact volumeIn_attached hvolume

/-- With `keep`, a volume is released only after the snapshot of it was made. -/
theorem Course.snapshot_first (h : Course d ref true tr r) {before after : AwsTrace}
    {x : Except GoString Unit}
    (htr : tr = before ++ ⟨.deleteVolume v, x⟩ :: after) :
    ∃ description tags id, ⟨.createSnapshot v description tags, .ok id⟩ ∈ before := by
  have hmem : (⟨.deleteVolume v, x⟩ : Σ o : AwsCall, o.Res) ∈ tr := by
    rw [htr]
    exact mem_append_right before mem_cons_self
  obtain ⟨tasks, waited, rest, res, -, hwaited, hrest, -, hall, hx⟩ := h.touching hmem rfl
  have hv := hrest.touches hx rfl
  cases hrest with
  | failed _ e => cases mem_singleton.mp hx
  | kept _ id deleted =>
    subst hv
    -- everything up to the snapshot stands before the release
    have hsplit : (⟨.describeTasks d.cluster [ref], .ok tasks⟩ :: (waited ++
        [⟨.createSnapshot (volumeIn tasks) ("lemul workspace " ++ ref) snapshotTags,
          .ok id⟩])) ++ [⟨.deleteVolume (volumeIn tasks), deleted⟩] =
        before ++ ⟨.deleteVolume (volumeIn tasks), x⟩ :: after := by
      rw [← htr, hall]
      simp only [cons_append, append_assoc, nil_append]
    have hstart := isPrefix_of_append_eq hsplit fun hbefore => by
      rcases mem_cons.mp hbefore with heq | hbefore
      · cases heq
      · rcases mem_append.mp hbefore with hwait | hmade
        · rcases hwaited _ hwait with ho | ho | ho <;> cases ho
        · cases mem_singleton.mp hmade
    exact ⟨_, _, id, hstart.subset (mem_cons_of_mem _
      (mem_append_right _ mem_cons_self))⟩

theorem Course.error_releases_nothing {e : GoString} (h : Course d ref keep tr (some (.error e)))
    (v : GoString) (x : Except GoString Unit) : ⟨.deleteVolume v, x⟩ ∉ tr := by
  intro hmem
  obtain ⟨tasks, waited, rest, res, -, -, hrest, hr, -, hx⟩ := h.touching hmem rfl
  obtain rfl := Option.some.inj hr
  cases hrest with
  | failed _ e => cases mem_singleton.mp hx

theorem Course.snapshot_returned (h : Course d ref keep tr r) {description id : GoString}
    {tags : List (GoString × GoString)}
    (hmem : ⟨.createSnapshot v description tags, .ok (some id)⟩ ∈ tr) : r = some (.ok id) := by
  obtain ⟨tasks, waited, rest, res, -, -, hrest, rfl, -, hx⟩ := h.touching hmem rfl
  cases hrest with
  | failed _ e | dropped _ deleted => cases mem_singleton.mp hx
  | kept _ id deleted =>
    rcases mem_cons.mp hx with heq | hx
    · cases heq
      rfl
    · cases mem_singleton.mp hx

/-- The run returns what `Ecs.preserve` makes of the answers that `volumeOf` and
`CreateSnapshot` gave. -/
theorem Course.refines {r : Except GoString GoString} (h : Course d ref keep tr (some r)) :
    ∃ volumeOf createSnapshot, r = d.toEcs.preserve ref keep volumeOf createSnapshot ∧
      (∀ v, volumeOf = .ok v → v ≠ [] → Reports d ref tr v) ∧
      ∀ id, createSnapshot = .ok id → ∃ v description tags answer,
        ⟨.createSnapshot v description tags, .ok answer⟩ ∈ tr ∧ derefOr answer = id := by
  cases h with
  | nothing hconfig =>
    exact ⟨.ok [], .error [], by rw [Ecs.preserve, if_pos hconfig],
      fun v hv hne => absurd (Except.ok.inj hv).symm hne, by simp⟩
  | unknown hconfig e =>
    exact ⟨.error _, .error [], by rw [Ecs.preserve, if_neg (by simp [hconfig])],
      by simp, by simp⟩
  | detached hconfig tasks hnone =>
    exact ⟨.ok [], .error [], by rw [Ecs.preserve, if_neg (by simp [hconfig])]; rfl,
      fun v hv hne => absurd (Except.ok.inj hv).symm hne, by simp⟩
  | released hconfig tasks hvolume waited hwaited rest res hrest =>
    have hreports : ∀ v, Except.ok (volumeIn tasks) = (.ok v : Except GoString GoString) → v ≠ [] →
        Reports d ref (⟨.describeTasks d.cluster [ref], .ok tasks⟩ :: (waited ++ rest)) v := by
      rintro v hv -
      cases hv
      exact ⟨tasks, mem_cons_self, volumeIn_attached hvolume⟩
    have hmem : ∀ x ∈ rest, x ∈ ⟨.describeTasks d.cluster [ref], .ok tasks⟩ :: (waited ++ rest) :=
      fun x hx => mem_cons_of_mem _ (mem_append_right _ hx)
    cases hrest with
    | failed _ e =>
      exact ⟨.ok (volumeIn tasks), .error e,
        by rw [Ecs.preserve, if_neg (by simp [hconfig])]; simp [hvolume],
        hreports, by simp⟩
    | kept _ id deleted =>
      refine ⟨.ok (volumeIn tasks), .ok (derefOr id),
        by rw [Ecs.preserve, if_neg (by simp [hconfig])]; simp [hvolume], hreports, ?_⟩
      intro made hmade
      cases hmade
      exact ⟨_, _, _, id, hmem _ mem_cons_self, rfl⟩
    | dropped _ deleted =>
      exact ⟨.ok (volumeIn tasks), .error [],
        by rw [Ecs.preserve, if_neg (by simp [hconfig])]; simp [hvolume],
        hreports, by simp⟩

end Courses

/-! ## The wait -/

section Wait

variable {d : EcsDriver} {ref : GoString} {keep : Bool} {polls tid : Nat} {s s' : AwsState}
  {tr : AwsTrace}

/-- How often `DescribeTasks` was called after `deadline`. -/
def AwsState.late (deadline : Nat) (s : AwsState) : Nat := s.polls.countP (deadline < ·)

/-- Time passes, and nothing else happens. -/
def AwsState.Passes (s s' : AwsState) : Prop := s'.polls = s.polls ∧ s.clock ≤ s'.clock

theorem AwsState.Passes.env {e : Nat} {s₁ s₂ : AwsState} (h : aws.env e s₁ = some s₂)
    (hs : s.Passes s₁) : s.Passes s₂ := by
  cases h
  exact ⟨hs.1, Nat.le_trans hs.2 (Nat.le_add_right _ _)⟩

theorem AwsState.Passes.refl (s : AwsState) : s.Passes s := ⟨rfl, Nat.le_refl _⟩

/-- The call that comes next, at some later time. -/
theorem runs_call {α : Type} {o : AwsCall} {f : o.Res → Aws α} {a : α}
    (h : Prog.Runs aws tid (awsCall o >>= f) s tr a s') :
    ∃ r s₁ s₂ rest, s.Passes s₁ ∧ AwsState.exec tid o r s₁ = some s₂ ∧ tr = ⟨o, r⟩ :: rest ∧
      Prog.Runs aws tid (f r) s₂ rest a s' :=
  runs_perform_bind (fun _ _ _ hmove hs => hs.env hmove) h (.refl s)

theorem runs_end {α : Type} {a b : α} (h : Prog.Runs aws tid (.ret b) s tr a s') :
    tr = [] ∧ a = b ∧ s.Passes s' :=
  runs_ret (fun _ _ _ hmove hs => hs.env hmove) h (.refl s)

/-- One round of the loop: a poll after which it ends, or one that was in time, and a sleep. -/
theorem awaitLoop_round {deadline : Nat} {ended : Bool}
    (h : Prog.Runs aws tid (d.awaitLoop ref deadline (polls + 1)) s tr ended s') :
    ∃ t, s.clock ≤ t ∧ (ended = true ∧ s'.polls = s.polls ++ [t] ∨
      ∃ s₁ rest, t ≤ deadline ∧ s₁.polls = s.polls ++ [t] ∧
        s.clock + stopPollInterval ≤ s₁.clock ∧
        Prog.Runs aws tid (d.awaitLoop ref deadline polls) s₁ rest ended s') := by
  obtain ⟨described, s₁, s₂, rest, ⟨hpolls, hclock⟩, hexec, rfl, h₂⟩ := runs_call h
  cases hexec
  refine ⟨s₁.clock, hclock, ?_⟩
  have hend : ∀ {rest : AwsTrace} {s₃ : AwsState}, s₃.polls = s₁.polls ++ [s₁.clock] →
      Prog.Runs aws tid (.ret true) s₃ rest ended s' →
      ended = true ∧ s'.polls = s.polls ++ [s₁.clock] := by
    intro rest s₃ hs₃ hret
    obtain ⟨-, hended, hlast, -⟩ := runs_end hret
    exact ⟨hended, by rw [hlast, hs₃, hpolls]⟩
  split at h₂
  · exact .inl (hend rfl h₂)
  · exact .inl (hend rfl h₂)
  · split at h₂
    · exact .inl (hend rfl h₂)
    · obtain ⟨now, s₃, s₄, rest, ⟨hpolls₃, hclock₃⟩, hexec, rfl, h₄⟩ := runs_call h₂
      simp only [AwsState.exec] at hexec
      split at hexec <;> cases hexec
      rename_i hnow
      split at h₄
      · exact .inl (hend hpolls₃ h₄)
      · rename_i hnotLate
        have hintime : s₃.clock ≤ deadline := hnow ▸ Nat.le_of_not_lt hnotLate
        obtain ⟨done, s₅, s₆, rest, ⟨hpolls₅, hclock₅⟩, hexec, rfl, h₆⟩ := runs_call h₄
        cases hexec
        cases done with
        | true => exact .inl (hend (hpolls₅.trans hpolls₃) h₆)
        | false =>
          refine .inr ⟨_, rest, ?_, ?_, ?_, h₆⟩
          · dsimp only at hclock₃
            omega
          · exact (hpolls₅.trans hpolls₃).trans (by rw [hpolls])
          · dsimp only at hclock₃ ⊢
            simp only [Bool.false_eq_true, if_false]
            omega

/-- After the deadline at most one more poll is made. -/
theorem awaitLoop_late {deadline : Nat} {ended : Bool}
    (h : Prog.Runs aws tid (d.awaitLoop ref deadline polls) s tr ended s') :
    s'.late deadline ≤ s.late deadline + 1 := by
  induction polls generalizing s tr with
  | zero =>
    obtain ⟨-, -, hpolls, -⟩ := runs_end h
    rw [AwsState.late, hpolls]
    exact Nat.le_add_right _ _
  | succ polls ih =>
    obtain ⟨t, -, ⟨-, hpolls⟩ | ⟨s₁, rest, hintime, hpolls, -, hrest⟩⟩ := awaitLoop_round h
    · rw [AwsState.late, hpolls, countP_append]
      exact Nat.add_le_add_left countP_le_length _
    · have hsame : s₁.late deadline = s.late deadline := by
        rw [AwsState.late, hpolls, countP_append, countP_singleton,
          if_neg (by simpa using hintime)]
        rfl
      exact hsame ▸ ih hrest

/-- A loop that has not ended has slept between any two polls, and was in time at the last. -/
theorem awaitLoop_unended {deadline : Nat}
    (h : Prog.Runs aws tid (d.awaitLoop ref deadline (polls + 1)) s tr false s') :
    s.clock + polls * stopPollInterval ≤ deadline := by
  induction polls generalizing s tr with
  | zero =>
    obtain ⟨t, hclock, ⟨hended, -⟩ | ⟨s₁, rest, hintime, -⟩⟩ := awaitLoop_round h
    · cases hended
    · omega
  | succ polls ih =>
    obtain ⟨t, hclock, ⟨hended, -⟩ | ⟨s₁, rest, -, -, hslept, hrest⟩⟩ := awaitLoop_round h
    · cases hended
    · have hbound := ih hrest
      rw [Nat.succ_mul]
      omega

/-- The polls that fit into the budget, and the one that finds it passed. -/
def enoughPolls : Nat := stopWaitBudget / stopPollInterval + 2

theorem awaitStopped_ends {ended : Bool} (hpolls : enoughPolls ≤ polls)
    (h : Prog.Runs aws tid (d.awaitStopped ref polls) s tr ended s') : ended = true := by
  cases ended with
  | true => rfl
  | false =>
    obtain ⟨start, s₁, s₂, rest, -, hexec, rfl, hloop⟩ := runs_call h
    simp only [AwsState.exec] at hexec
    split at hexec <;> cases hexec
    rename_i hstart
    obtain ⟨n, rfl⟩ :=
      Nat.exists_eq_add_of_le' (Nat.le_trans (by decide : 1 ≤ enoughPolls) hpolls)
    have hbound := awaitLoop_unended hloop
    rw [hstart] at hbound
    simp only [enoughPolls, stopWaitBudget, stopPollInterval] at hpolls hbound
    omega

/-- The time a call of `time.Now` returned. -/
def clockRead : (Σ o : AwsCall, o.Res) → Option Nat
  | ⟨.now, t⟩ => some t
  | _ => none

/-- The wait begins when the clock is first read, no poll having been made after that. -/
theorem awaitStopped_late {ended : Bool} {t : Nat} (hpolls : s.polls = [t]) (ht : t ≤ s.clock)
    (h : Prog.Runs aws tid (d.awaitStopped ref polls) s tr ended s') :
    ∃ start rest, tr = ⟨.now, start⟩ :: rest ∧ s'.late (start + stopWaitBudget) ≤ 1 := by
  obtain ⟨start, s₁, s₂, rest, ⟨hsame, hclock⟩, hexec, rfl, hloop⟩ := runs_call h
  simp only [AwsState.exec] at hexec
  split at hexec <;> cases hexec
  rename_i hstart
  refine ⟨start, rest, rfl, ?_⟩
  have hnone : s₁.late (start + stopWaitBudget) = 0 := by
    rw [AwsState.late, hsame, hpolls, countP_singleton, if_neg]
    rw [hstart, decide_eq_true_eq]
    omega
  exact Nat.le_trans (awaitLoop_late hloop) (Nat.le_of_eq (by rw [hnone]))

theorem release_performs {volume : GoString} :
    (EcsDriver.release ref keep volume).Performs (fun _ _ => True) (AwsCall.touches volume) := by
  unfold EcsDriver.release
  split
  · refine .perform rfl fun made _ => ?_
    split
    · trivial
    · exact ⟨rfl, fun _ _ => trivial⟩
  · exact ⟨rfl, fun _ _ => trivial⟩

theorem release_polls {volume : GoString} {r : Except GoString GoString}
    (h : Prog.Runs aws tid (EcsDriver.release ref keep volume) s tr r s') : s'.polls = s.polls := by
  refine h.preserves_performed (I := fun t => t.polls = s.polls) release_performs
    (fun _ _ _ _ _ _ => trivial) ?_ ?_ rfl
  · intro o r s₁ s₂ ho hexec hs
    cases o with
    | createSnapshot volumeID description tags | deleteVolume volumeID =>
      cases hexec
      exact hs
    | describeTasks | now | sleep => exact absurd ho id
  · intro e s₁ s₂ hmove hs
    cases hmove
    exact hs

theorem preserve_waits {clock : Nat} {r : Option (Except GoString GoString)}
    (h : Prog.Runs aws tid (d.preserve ref keep polls) ⟨clock, []⟩ tr r s') :
    (enoughPolls ≤ polls → r ≠ none) ∧
      ∀ start, tr.findSome? clockRead = some start → s'.late (start + stopWaitBudget) ≤ 1 := by
  unfold EcsDriver.preserve at h
  split at h
  · obtain ⟨rfl, rfl, -⟩ := runs_end h
    exact ⟨nofun, nofun⟩
  · obtain ⟨found, rest, volume, s₁, rfl, hfound, hrest⟩ := runs_bind h
    obtain ⟨described, s₂, s₃, more, ⟨hpolls, hclock⟩, hexec, rfl, hdescribed⟩ := runs_call hfound
    cases hexec
    have hs₁ : more = [] ∧ s₁.polls = [s₂.clock] ∧ s₂.clock ≤ s₁.clock := by
      split at hdescribed <;>
      · obtain ⟨rfl, -, hsame, hle⟩ := runs_end hdescribed
        exact ⟨rfl, hsame.trans (by rw [hpolls]; rfl), hle⟩
    obtain ⟨rfl, hpolls₁, hclock₁⟩ := hs₁
    split at hrest
    · obtain ⟨rfl, rfl, -⟩ := runs_end hrest
      exact ⟨nofun, nofun⟩
    · split at hrest
      · obtain ⟨rfl, rfl, -⟩ := runs_end hrest
        exact ⟨nofun, nofun⟩
      · obtain ⟨waited, rest, ended, s₄, rfl, hwait, hended⟩ := runs_bind hrest
        obtain ⟨start, waited, rfl, hlate⟩ := awaitStopped_late hpolls₁ hclock₁ hwait
        have hlast : s'.polls = s₄.polls ∧ (enoughPolls ≤ polls → r ≠ none) := by
          cases ended with
          | false =>
            obtain ⟨-, rfl, hsame, -⟩ := runs_end hended
            exact ⟨hsame, fun hpolls => by cases awaitStopped_ends hpolls hwait⟩
          | true =>
            obtain ⟨_, last, res, s₅, _, hrelease, hret⟩ := runs_bind hended
            obtain ⟨-, rfl, hsame, -⟩ := runs_end hret
            exact ⟨hsame.trans (release_polls hrelease), nofun⟩
        refine ⟨hlast.2, fun start' hstart => ?_⟩
        obtain rfl : start = start' := Option.some.inj hstart
        rw [AwsState.late, hlast.1]
        exact hlate

end Wait

/-! ## The only copy -/

/-- Whatever the calls return: with `keep` the volume is released only once a snapshot of it was
made; nothing is released where an error is returned; a snapshot that was made is returned;
only one volume is touched, and it was reported as the task's; and the wait makes at most one
poll past its budget, and ends. -/
theorem preserve_keeps_only_copy (d : EcsDriver) (ref : GoString) (keep : Bool)
    (polls tid clock : Nat) {tr : AwsTrace} {r : Option (Except GoString GoString)} {s' : AwsState}
    (hrun : Prog.Runs aws tid (d.preserve ref keep polls) ⟨clock, []⟩ tr r s')
    (hids : ∀ v description tags, ⟨.createSnapshot v description tags, .ok none⟩ ∉ tr) :
    (keep = true → ∀ before v deleted after, tr = before ++ ⟨.deleteVolume v, deleted⟩ :: after →
      ∃ description tags id, ⟨.createSnapshot v description tags, .ok (some id)⟩ ∈ before) ∧
    (∀ e, r = some (.error e) → ∀ v deleted, ⟨.deleteVolume v, deleted⟩ ∉ tr) ∧
    (∀ v description tags id, ⟨.createSnapshot v description tags, .ok (some id)⟩ ∈ tr →
      r = some (.ok id)) ∧
    (∀ x ∈ tr, ∀ y ∈ tr, ∀ u v, x.1.touches u → y.1.touches v → u = v ∧ Reports d ref tr v) ∧
    (∀ start, tr.findSome? clockRead = some start → s'.late (start + stopWaitBudget) ≤ 1) ∧
    (enoughPolls ≤ polls → r ≠ none) := by
  have hcourse := preserve_emits hrun.emits
  obtain ⟨hends, hlate⟩ := preserve_waits hrun
  refine ⟨?_, ?_, ?_, ?_, hlate, hends⟩
  · intro hkeep before v deleted after htr
    subst hkeep
    obtain ⟨description, tags, made, hmade⟩ := hcourse.snapshot_first htr
    cases made with
    | none => exact absurd (htr ▸ mem_append_left _ hmade) (hids v description tags)
    | some id => exact ⟨description, tags, id, hmade⟩
  · rintro e rfl
    exact hcourse.error_releases_nothing
  · intro v description tags id hmade
    exact hcourse.snapshot_returned hmade
  · intro x hx y hy u v hu hv
    exact hcourse.one_volume hx hu hy hv

/-- A task that does not stop: its disk is preserved after the budget, and the volume cannot be
released. -/
def demoEcs : EcsDriver := ⟨⟨true, "workspace"⟩, "lemul"⟩

def runningTask : EcsTask where
  lastStatus := some "RUNNING"
  attachments := [⟨some ebsAttachment, [⟨some volumeIDKey, some "vol-1"⟩]⟩]

def stuckTask : List (Nat ⊕ (Σ o : AwsCall, o.Res)) :=
  [.inr ⟨.describeTasks "lemul" ["task-1"], .ok [runningTask]⟩,
    .inr ⟨.now, (0 : Nat)⟩,
    .inr ⟨.describeTasks "lemul" ["task-1"], .ok [runningTask]⟩,
    .inr ⟨.now, (0 : Nat)⟩, .inr ⟨.sleep stopPollInterval, false⟩, .inl 60000000000,
    .inr ⟨.describeTasks "lemul" ["task-1"], .ok [runningTask]⟩,
    .inr ⟨.now, (63000000000 : Nat)⟩,
    .inr ⟨.createSnapshot "vol-1" "lemul workspace task-1" snapshotTags,
      .ok (some "snap-1")⟩,
    .inr ⟨.deleteVolume "vol-1", .error "Client.VolumeInUse"⟩]

def stuckRun : AwsTrace × Option (Except GoString GoString) × AwsState :=
  (Prog.follow aws 0 (demoEcs.preserve "task-1" true enoughPolls) ⟨0, []⟩ stuckTask).get
    (by decide +kernel)

/-- Whether an answer that a snapshot was created says which. -/
def namesSnapshot : (Σ o : AwsCall, o.Res) → Bool
  | ⟨.createSnapshot _ _ _, .ok none⟩ => false
  | _ => true

theorem preserve_keeps_only_copy_stuck :
    stuckRun.2.1 = some (.ok "snap-1") ∧ stuckRun.2.2.late stopWaitBudget ≤ 1 := by
  have hrun : Prog.Runs aws 0 (demoEcs.preserve "task-1" true enoughPolls) ⟨0, []⟩
      stuckRun.1 stuckRun.2.1 stuckRun.2.2 := follow_runs (Option.some_get _).symm
  have hnamed : stuckRun.1.all namesSnapshot = true := by
    decide +kernel
  have hids : ∀ v description tags,
      ⟨.createSnapshot v description tags, .ok none⟩ ∉ stuckRun.1 := by
    intro v description tags hmem
    cases all_eq_true.mp hnamed _ hmem
  obtain ⟨-, -, hreturned, -, hlate, -⟩ :=
    preserve_keeps_only_copy demoEcs "task-1" true enoughPolls 0 0 hrun hids
  refine ⟨hreturned "vol-1" "lemul workspace task-1" snapshotTags "snap-1" (by decide +kernel), ?_⟩
  have hpassed := hlate 0 (by decide +kernel)
  rwa [Nat.zero_add] at hpassed

end Lemul.Driver
