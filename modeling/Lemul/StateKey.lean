import Lemul.Misc.Decimal
import Lemul.Misc.Pool
import Lemul.Misc.SlashPath

/-!
# The signing key beside the state

`internal/statekey/statekey.go:47-153`: the Management API finds the key in the state directory
or makes one (`LoadOrCreate`), the relay only finds it (`Load`). Any number of these calls run
at once on one directory; `os.ReadFile` opens and reads, `os.WriteFile` opens with `O_TRUNC` and
writes, and anything may happen in between. There are no I/O errors.

A call that finds no file makes a key of its own and writes it, whatever was written since it
looked. While only one call at a time is doing so, all calls agree.
-/

namespace Lemul.StateKey

open List System.Outline Lemul.System

/-- `creds.MinKeyBytes` (`creds.go:58`). -/
def minKeyBytes : Nat := 32

/-- `Filename` and `Path` (`statekey.go:37-40`). -/
def filename : GoString := "signing.key"
def path (stateDir : GoString) : GoString := SlashPath.clean (stateDir ++ "/" ++ filename)

/-- `checkExplicit` (`statekey.go:130-136`). -/
def checkExplicit (v : GoString) : Except GoString GoString :=
  if v.length < minKeyBytes then
    .error ("-signing-key must be at least " ++ decimal minKeyBytes ++ " bytes, got " ++
      decimal v.length)
  else .ok v

/-- `checkFile` (`statekey.go:138-144`). -/
def checkFile (path key : GoString) : Except GoString GoString :=
  if key.length < minKeyBytes then
    .error (path ++ " holds " ++ decimal key.length ++ " bytes, need at least " ++
      decimal minKeyBytes)
  else .ok key

/-! ## The calls -/

/-- Who asks for the key. -/
inductive Policy where
  | loadOrCreate
  | load
  deriving DecidableEq, Repr

/-- The file operations, and the random key. -/
inductive Op where
  /-- `open` for reading, by a call of this policy; the answer says whether there is a file. -/
  | openRead (who : Policy)
  | read
  | generate
  | mkdirAll
  /-- `open` with `O_WRONLY|O_CREATE|O_TRUNC`. -/
  | openWrite
  | write (key : GoString)
  deriving DecidableEq, Repr

abbrev Res : Op → Type
  | .openRead _ => Bool
  | .read => GoString
  | .generate => GoString
  | .mkdirAll => Unit
  | .openWrite => Unit
  | .write _ => Unit

abbrev Call := Prog Op Res (Policy × Except GoString GoString)

abbrev call (o : Op) : Prog Op Res (Res o) := Prog.perform o

/-- `Load` (`statekey.go:47-69`). -/
def load (explicit stateDir : GoString) : Prog Op Res (Except GoString GoString) := do
  if explicit ≠ [] then pure (checkExplicit explicit)
  else if stateDir = [] then
    pure (.error ("the relay needs the control plane's signing key: pass -signing-key, set " ++
      "LEMUL_SIGNING_KEY, or point -state-dir at the same directory the control plane uses. " ++
      "It cannot generate one, because a key nothing else shares rejects every credential " ++
      "it is handed"))
  else if ← call (.openRead .load) then
    let key ← call .read
    pure (checkFile (path stateDir) key)
  else
    pure (.error (path stateDir ++ " does not exist. Start the control plane with the same " ++
      "-state-dir first; it owns the key and this service only verifies with it"))

/-- `LoadOrCreate` (`statekey.go:86-122`). -/
def loadOrCreate (explicit stateDir : GoString) : Prog Op Res (Except GoString GoString) := do
  if explicit ≠ [] then pure (checkExplicit explicit)
  else if stateDir = [] then
    let key ← call .generate
    pure (.ok key)
  else if ← call (.openRead .loadOrCreate) then
    let key ← call .read
    pure (checkFile (path stateDir) key)
  else
    let key ← call .generate
    call .mkdirAll
    call .openWrite
    call (.write key)
    pure (.ok key)

/-! ## The directory -/

/-- The key file, and the calls that found none and have not yet written theirs. -/
structure State where
  file : Option GoString
  creating : List Nat
  deriving DecidableEq, Repr

def exec (tid : Nat) : (o : Op) → Res o → State → Option State
  | .openRead who, found, s =>
      if found = s.file.isSome then
        some (if who = .loadOrCreate ∧ found = false then
          { s with creating := tid :: s.creating } else s)
      else none
  | .read, content, s => if s.file = some content then some s else none
  | .generate, key, s => if key.length = minKeyBytes then some s else none
  | .mkdirAll, _, s => some s
  | .openWrite, _, s => some { s with file := some [] }
  | .write key, _, s => some
      { file := some (key ++ (s.file.getD []).drop key.length)
        creating := s.creating.filter (· ≠ tid) }

/-- Calls without an explicit key on one state directory. -/
def calls (stateDir : GoString) : System Op Res State Empty Policy
    (Policy × Except GoString GoString) where
  exec := exec
  env e _ := e.elim
  spawn who _ :=
    match who with
    | .loadOrCreate => some (do
        let r ← loadOrCreate [] stateDir
        pure (.loadOrCreate, r))
    | .load => some (do
        let r ← load [] stateDir
        pure (.load, r))

abbrev KeyPool := Pool Op Res State (Policy × Except GoString GoString)

abbrev KeySchedule := List (Label Op Res Empty Policy)

/-- No call has begun; the file may be there or not. -/
def boot (file : Option GoString) : KeyPool := ⟨⟨file, []⟩, []⟩

/-- A call looks for the key only while no other is making one. -/
def createdAlone : State → Label Op Res Empty Policy → Prop
  | s, .thread _ (.openRead .loadOrCreate) _ => s.creating = []
  | _, _ => True

instance (s : State) (l : Label Op Res Empty Policy) : Decidable (createdAlone s l) := by
  unfold createdAlone
  split <;> infer_instance

/-! ## The outline -/

/-- The file holds `key`, and nobody is about to write another. -/
structure Settled (key : GoString) (s : State) : Prop where
  file : s.file = some key
  nobody : s.creating = []

/-- A key that was returned is long enough, and settled. -/
def Agreed (r : Except GoString GoString) (s : State) : Prop :=
  ∀ key, r = .ok key → Settled key s ∧ minKeyBytes ≤ key.length

/-- What must be so before a step. -/
def KeyPre (tid : Nat) : Op → State → Prop
  | .openWrite, s => tid ∈ s.creating
  | .write _, s => tid ∈ s.creating ∧ s.file = some []
  | _, _ => True

/-- What others leave alone: a key that is settled, and the file while one is making it. -/
structure KeyRely (tid : Nat) (s s' : State) : Prop where
  settled : ∀ key, Settled key s → Settled key s'
  mine : tid ∈ s.creating → s'.file = s.file ∧ s'.creating = s.creating

theorem KeyRely.refl (tid : Nat) (s : State) : KeyRely tid s s :=
  ⟨fun _ h => h, fun _ => ⟨rfl, rfl⟩⟩

theorem KeyRely.trans {tid : Nat} {s₁ s₂ s₃ : State} (h₁ : KeyRely tid s₁ s₂)
    (h₂ : KeyRely tid s₂ s₃) : KeyRely tid s₁ s₃ where
  settled key h := h₂.settled key (h₁.settled key h)
  mine h := by
    obtain ⟨hfile, hcreating⟩ := h₁.mine h
    obtain ⟨hfile', hcreating'⟩ := h₂.mine (hcreating ▸ h)
    exact ⟨hfile'.trans hfile, hcreating'.trans hcreating⟩

section Steps

variable {tid : Nat} {o : Op} {r : Res o} {s s' : State} {key : GoString}

/-- What opening the file for reading does. -/
theorem exec_openRead {who : Policy} {found : Bool}
    (h : exec tid (.openRead who) found s = some s') :
    (∃ content, s.file = some content ∧ found = true ∧ s' = s) ∨
      s.file = none ∧ found = false ∧ who = .loadOrCreate ∧
        s' = { s with creating := tid :: s.creating } ∨
      s.file = none ∧ found = false ∧ who = .load ∧ s' = s := by
  simp only [exec] at h
  split at h
  · rename_i hfound
    subst hfound
    cases hfile : s.file with
    | some content =>
      rw [hfile] at h
      cases who <;> cases h <;> exact .inl ⟨content, rfl, rfl, rfl⟩
    | none =>
      rw [hfile] at h
      cases who <;> cases h
      · exact .inr (.inl ⟨rfl, rfl, rfl, rfl⟩)
      · exact .inr (.inr ⟨rfl, rfl, rfl, rfl⟩)
  · cases h

theorem exec_read {content : GoString} (h : exec tid .read content s = some s') :
    s.file = some content ∧ s' = s := by
  simp only [exec] at h
  split at h <;> cases h
  rename_i hfile
  exact ⟨hfile, rfl⟩

theorem exec_generate (h : exec tid .generate key s = some s') :
    key.length = minKeyBytes ∧ s' = s := by
  simp only [exec] at h
  split at h <;> cases h
  rename_i hlength
  exact ⟨hlength, rfl⟩

/-- A key that is settled stays so. -/
theorem settled_step (h : Settled key s) (hpre : KeyPre tid o s)
    (hexec : exec tid o r s = some s') : Settled key s' := by
  have hnobody : tid ∉ s.creating := by
    rw [h.nobody]
    exact not_mem_nil
  cases o with
  | openRead who =>
    rcases exec_openRead hexec with ⟨_, -, -, rfl⟩ | ⟨hnone, -⟩ | ⟨-, -, -, rfl⟩
    · exact h
    · cases h.file.symm.trans hnone
    · exact h
  | read => exact (exec_read hexec).2 ▸ h
  | generate => exact (exec_generate hexec).2 ▸ h
  | mkdirAll =>
    cases hexec
    exact h
  | openWrite => exact absurd hpre hnobody
  | write key => exact absurd hpre.1 hnobody

/-- Only the call that makes the key changes the file or who makes it. -/
theorem mine_step {other : Nat} (hcreating : s.creating.length ≤ 1) (hother : other ∈ s.creating)
    (hne : other ≠ tid) (hpre : KeyPre tid o s) (hcond : createdAlone s (.thread tid o r))
    (hexec : exec tid o r s = some s') : s'.file = s.file ∧ s'.creating = s.creating := by
  have hnot : tid ∉ s.creating := by
    intro htid
    match hlist : s.creating with
    | [] => rw [hlist] at htid; cases htid
    | [x] =>
      rw [hlist] at htid hother
      exact hne ((mem_singleton.mp hother).trans (mem_singleton.mp htid).symm)
    | _ :: _ :: _ => rw [hlist] at hcreating; simp at hcreating
  cases o with
  | openRead who =>
    rcases exec_openRead hexec with ⟨_, -, -, rfl⟩ | ⟨-, -, rfl, -⟩ | ⟨-, -, -, rfl⟩
    · exact ⟨rfl, rfl⟩
    · have hnone : s.creating = [] := hcond
      rw [hnone] at hother
      cases hother
    · exact ⟨rfl, rfl⟩
  | read => rw [(exec_read hexec).2]; exact ⟨rfl, rfl⟩
  | generate => rw [(exec_generate hexec).2]; exact ⟨rfl, rfl⟩
  | mkdirAll =>
    cases hexec
    exact ⟨rfl, rfl⟩
  | openWrite => exact absurd hpre hnot
  | write key => exact absurd hpre.1 hnot

theorem creating_step (hcreating : s.creating.length ≤ 1) (hcond : createdAlone s (.thread tid o r))
    (hexec : exec tid o r s = some s') : s'.creating.length ≤ 1 := by
  cases o with
  | openRead who =>
    rcases exec_openRead hexec with ⟨_, -, -, rfl⟩ | ⟨-, -, rfl, rfl⟩ | ⟨-, -, -, rfl⟩
    · exact hcreating
    · have hnone : s.creating = [] := hcond
      show (tid :: s.creating).length ≤ 1
      rw [hnone]
      exact Nat.le_refl 1
    · exact hcreating
  | read => rwa [(exec_read hexec).2]
  | generate => rwa [(exec_generate hexec).2]
  | mkdirAll | openWrite =>
    cases hexec
    exact hcreating
  | write key =>
    cases hexec
    exact Nat.le_trans (length_filter_le _ _) hcreating

end Steps

def keyOutline (stateDir : GoString) : Outline (calls stateDir) createdAlone where
  inv s := s.creating.length ≤ 1
  rely := KeyRely
  pre := KeyPre
  post _ a s := a.1 = .loadOrCreate → Agreed a.2 s
  rely_refl := KeyRely.refl
  rely_trans _ _ _ _ h₁ h₂ := h₁.trans h₂
  op_ok hinv hpre hcond hexec := ⟨creating_step hinv hcond hexec, fun _ hne =>
    ⟨fun _ h => settled_step h hpre hexec, fun h => mine_step hinv h hne hpre hcond hexec⟩⟩
  env_ok {e} := e.elim

section Safe

variable {stateDir : GoString} {tid : Nat} {s : State}

/-- Reading the file when a key is settled returns that key, if it is long enough. -/
theorem read_safe {content : GoString} (h : Settled content s) :
    (keyOutline stateDir).Safe tid (do
        let key ← call .read
        pure (checkFile (path stateDir) key))
      Agreed s := by
  refine safe_perform_bind fun s₁ hrely _ => ⟨trivial, fun read s₂ hexec _ _ => ?_⟩
  have hsettled : Settled content s₁ := hrely.settled content h
  have hexec : exec tid .read read s₁ = some s₂ := hexec
  obtain ⟨hread, rfl⟩ := exec_read hexec
  cases hsettled.file.symm.trans hread
  intro key hkey
  unfold checkFile at hkey
  split at hkey <;> cases hkey
  rename_i hlong
  exact ⟨hsettled, Nat.le_of_not_lt hlong⟩

/-- The call that makes the key leaves it settled. -/
theorem create_safe (hmine : s.creating = [tid]) :
    (keyOutline stateDir).Safe tid (do
        let key ← call .generate
        call .mkdirAll
        call .openWrite
        call (.write key)
        pure (Except.ok key))
      Agreed s := by
  have hmoved : ∀ {s s' : State}, s.creating = [tid] → KeyRely tid s s' →
      s'.file = s.file ∧ s'.creating = [tid] := fun h hrely => by
    obtain ⟨hfile, hcreating⟩ := hrely.mine (h ▸ mem_singleton_self tid)
    exact ⟨hfile, hcreating.trans h⟩
  refine safe_perform_bind fun s₁ hrely₁ _ => ⟨trivial, fun key s₂ hexec _ _ => ?_⟩
  have hexec : exec tid .generate key s₁ = some s₂ := hexec
  obtain ⟨hlength, rfl⟩ := exec_generate hexec
  refine safe_perform_bind fun s₃ hrely₃ _ => ⟨trivial, fun _ s₄ hexec _ _ => ?_⟩
  cases hexec
  have hmine₃ := (hmoved (hmoved hmine hrely₁).2 hrely₃).2
  refine safe_perform_bind fun s₅ hrely₅ _ => ⟨?_, fun _ s₆ hexec _ _ => ?_⟩
  · show tid ∈ s₅.creating
    rw [(hmoved hmine₃ hrely₅).2]
    exact mem_singleton_self tid
  cases hexec
  have hmine₅ := (hmoved hmine₃ hrely₅).2
  refine safe_perform_bind fun s₇ hrely₇ _ => ⟨?_, fun _ s₈ hexec _ _ => ?_⟩
  · obtain ⟨hfile, hmine₇⟩ := hmoved (s := { s₅ with file := some [] }) hmine₅ hrely₇
    exact ⟨hmine₇ ▸ mem_singleton_self tid, hfile⟩
  obtain ⟨hfile, hmine₇⟩ := hmoved (s := { s₅ with file := some [] }) hmine₅ hrely₇
  cases hexec
  intro key' hkey
  cases hkey
  refine ⟨⟨?_, ?_⟩, Nat.le_of_eq hlength.symm⟩
  · simp [hfile]
  · simp [hmine₇]

/-- A call that looks for the key while nobody makes one returns the key that is settled when
it returns. -/
theorem loadOrCreate_safe (hdir : stateDir ≠ []) :
    (keyOutline stateDir).Safe tid (loadOrCreate [] stateDir)
      Agreed s := by
  unfold loadOrCreate
  rw [if_neg (not_not.mpr rfl), if_neg hdir]
  refine safe_perform_bind fun s₁ _ _ => ⟨trivial, fun found s₂ hexec hcond _ => ?_⟩
  have hnobody : s₁.creating = [] := hcond
  have hexec : exec tid (.openRead .loadOrCreate) found s₁ = some s₂ := hexec
  rcases exec_openRead hexec with
    ⟨content, hfile, rfl, rfl⟩ | ⟨-, rfl, -, rfl⟩ | ⟨-, -, hwho, -⟩
  · exact read_safe ⟨hfile, hnobody⟩
  · apply create_safe
    show tid :: s₁.creating = [tid]
    rw [hnobody]
  · cases hwho

/-- Nothing is asked of the relay's call. -/
theorem load_safe (hdir : stateDir ≠ []) :
    (keyOutline stateDir).Safe tid (load [] stateDir) (fun _ _ => True) s := by
  unfold load
  rw [if_neg (not_not.mpr rfl), if_neg hdir]
  refine safe_perform_bind fun s₁ _ _ => ⟨trivial, fun found s₂ _ _ _ => ?_⟩
  cases found with
  | true => exact safe_perform_bind fun _ _ _ => ⟨trivial, fun _ _ _ _ _ => trivial⟩
  | false => trivial

/-- Every call is safe. -/
theorem spawn_safe (hdir : stateDir ≠ []) {who : Policy} {p : Call}
    (hspawn : (calls stateDir).spawn who s = some p) :
    (keyOutline stateDir).Safe tid p ((keyOutline stateDir).post tid) s := by
  cases who with
  | loadOrCreate =>
    cases hspawn
    refine .bind ((loadOrCreate_safe hdir).mono fun r s' h => ?_)
    exact fun _ => h
  | load =>
    cases hspawn
    refine .bind ((load_safe hdir).mono fun r s' _ => ?_)
    exact nofun

end Safe

/-! ## After a call has succeeded -/

/-- From a settled key on, calls that begin afterwards return it. -/
def settledOutline (stateDir key : GoString) (old : Nat) : Outline (calls stateDir)
    (fun s l => createdAlone s l ∧ (keyOutline stateDir).due s l) where
  inv := Settled key
  rely _ _ _ := True
  pre _ _ _ := True
  post tid a _ := old ≤ tid → a.2 = .ok key
  rely_refl _ _ := trivial
  rely_trans _ _ _ _ _ _ := trivial
  op_ok hinv _ hcond hexec := ⟨settled_step hinv hcond.2 hexec, fun _ _ => trivial⟩
  env_ok {e} := e.elim

section After

variable {stateDir key : GoString} {old tid : Nat} {s : State}

/-- Opening and reading the file finds the settled key. -/
theorem finds_settled (hlong : minKeyBytes ≤ key.length) {who : Policy}
    {missing : Prog Op Res (Except GoString GoString)} :
    (settledOutline stateDir key old).Safe tid (do
        if ← call (.openRead who) then
          let content ← call .read
          pure (checkFile (path stateDir) content)
        else missing)
      (fun r _ => r = .ok key) s := by
  refine safe_perform_bind fun s₁ _ hsettled =>
    ⟨trivial, fun found s₂ hexec _ _ => ?_⟩
  have hexec : exec tid (.openRead who) found s₁ = some s₂ := hexec
  rcases exec_openRead hexec with ⟨_, -, rfl, -⟩ | ⟨hnone, -⟩ | ⟨hnone, -⟩
  · refine safe_perform_bind fun s₃ _ hsettled₃ =>
      ⟨trivial, fun content s₄ hread _ _ => ?_⟩
    have hread : exec tid .read content s₃ = some s₄ := hread
    obtain ⟨hfile, -⟩ := exec_read hread
    cases hsettled₃.file.symm.trans hfile
    exact if_neg (Nat.not_lt.mpr hlong)
  · cases hsettled.file.symm.trans hnone
  · cases hsettled.file.symm.trans hnone

theorem loadOrCreate_finds (hdir : stateDir ≠ []) (hlong : minKeyBytes ≤ key.length) :
    (settledOutline stateDir key old).Safe tid (loadOrCreate [] stateDir)
      (fun r _ => r = .ok key) s := by
  unfold loadOrCreate
  rw [if_neg (not_not.mpr rfl), if_neg hdir]
  exact finds_settled hlong

theorem load_finds (hdir : stateDir ≠ []) (hlong : minKeyBytes ≤ key.length) :
    (settledOutline stateDir key old).Safe tid (load [] stateDir) (fun r _ => r = .ok key) s := by
  unfold load
  rw [if_neg (not_not.mpr rfl), if_neg hdir]
  exact finds_settled hlong

theorem spawn_finds (hdir : stateDir ≠ []) (hlong : minKeyBytes ≤ key.length) {who : Policy}
    {p : Call} (hspawn : (calls stateDir).spawn who s = some p) :
    (settledOutline stateDir key old).Safe tid p
      ((settledOutline stateDir key old).post tid) s := by
  cases who with
  | loadOrCreate =>
    cases hspawn
    refine .bind ((loadOrCreate_finds hdir hlong).mono fun r s' h => ?_)
    exact fun _ => h
  | load =>
    cases hspawn
    refine .bind ((load_finds hdir hlong).mono fun r s' h => ?_)
    exact fun _ => h

end After

section Runs

variable {stateDir key : GoString} {file : Option GoString} {pool₁ pool₂ : KeyPool}
variable {tr₁ tr₂ : KeySchedule}

/-- What a call has returned is settled from then on. -/
theorem returned_agreed (hdir : stateDir ≠ [])
    (hpath : Path (calls stateDir) createdAlone (boot file) tr₁ pool₁) :
    (keyOutline stateDir).Holds pool₁ ∧ ∀ tid r,
      pool₁.result tid = some (.loadOrCreate, r) → Agreed r pool₁.shared := by
  have hrely : ∀ tid a s s', KeyRely tid s s' → (keyOutline stateDir).post tid a s →
      (keyOutline stateDir).post tid a s' := fun tid a s s' hrely hpost hwho k hk => by
    obtain ⟨hsettled, hlong⟩ := hpost hwho k hk
    exact ⟨hrely.settled k hsettled, hlong⟩
  obtain ⟨hholds, hreturned⟩ := (keyOutline stateDir).sound_returned hrely
    (fun _ _ _ _ _ _ hspawn => spawn_safe hdir hspawn) (s := (boot file).shared) (Nat.zero_le 1)
    hpath
  exact ⟨hholds, fun tid r hret => hreturned tid _ (Pool.result_eq_some.mp hret) rfl⟩

/-- Once a key is settled, it stays so, and the calls that begin from then on return it. -/
theorem settled_found (hdir : stateDir ≠ []) (hlong : minKeyBytes ≤ key.length)
    (hholds : (keyOutline stateDir).Holds pool₁) (hsettled : Settled key pool₁.shared)
    (hpath : Path (calls stateDir) createdAlone pool₁ tr₂ pool₂) :
    Settled key pool₂.shared ∧ ∀ tid a, pool₁.threads.length ≤ tid →
      pool₂.threads[tid]? = some (.ret a) → a.2 = .ok key := by
  have hdue := (keyOutline stateDir).path_due
    (fun _ _ _ _ _ _ hspawn => spawn_safe hdir hspawn) hholds hpath
  let O := settledOutline stateDir key pool₁.threads.length
  have hold : ∀ {tid : Nat} {p : Call}, pool₁.threads[tid]? = some p →
      ¬ pool₁.threads.length ≤ tid := fun h =>
    Nat.not_le.mpr (List.getElem?_eq_some_iff.mp h).1
  -- The calls that began before may return anything.
  have hstart : O.Holds pool₁ := ⟨hsettled, fun tid o k hthread =>
    (safe_of_free (O := O) (Q := fun _ _ => True) (fun _ _ => trivial)
      (fun _ _ => trivial) pool₁.shared).mono fun _ _ _ hnew => absurd hnew (hold hthread)⟩
  obtain ⟨hholds₂, hreturned⟩ := O.sound_returned_from (fun _ _ _ _ _ h => h)
    (fun _ _ _ _ _ _ hspawn => spawn_finds hdir hlong hspawn) hstart
    (fun tid a hret hnew => absurd hnew (hold hret)) hdue
  exact ⟨hholds₂.1, fun tid a hnew hret => hreturned tid a hret hnew⟩

end Runs

/-- In a run in which every `LoadOrCreate` looks for the key while no other call is making one:
once a call has returned a key, every call that succeeds returns that key, before or after, and
every `Load` that begins afterwards does. -/
theorem signing_key_agreed {stateDir key : GoString} {file : Option GoString}
    {before after : KeyPool} {tr tr' : KeySchedule} {i : Nat}
    (hdir : stateDir ≠ [])
    (hbefore : Path (calls stateDir) createdAlone (boot file) tr before)
    (hkey : before.result i = some (.loadOrCreate, .ok key))
    (hafter : Path (calls stateDir) createdAlone before tr' after) :
    (∀ j key', after.result j = some (.loadOrCreate, .ok key') → key' = key) ∧
      ∀ j r, before.threads.length ≤ j → after.result j = some (.load, r) → r = .ok key := by
  obtain ⟨hholds, hreturned⟩ := returned_agreed hdir hbefore
  obtain ⟨hsettled, hlong⟩ := hreturned i _ hkey key rfl
  obtain ⟨hsettled', hfound⟩ := settled_found hdir hlong hholds hsettled hafter
  refine ⟨fun j key' hj => ?_, fun j r hnew hj => hfound j _ hnew (Pool.result_eq_some.mp hj)⟩
  obtain ⟨-, hreturned'⟩ := returned_agreed hdir (hbefore.append hafter)
  have hfile := (hreturned' j _ hj key' rfl).1.file
  rw [hsettled'.file] at hfile
  exact (Option.some.inj hfile).symm

/-- The first 32 random bytes two processes might draw. -/
def firstKey : GoString := replicate minKeyBytes 1
def secondKey : GoString := replicate minKeyBytes 2

/-- A call finds no file, makes `key` and writes it. -/
def makes (tid : Nat) (key : GoString) : KeySchedule :=
  [.thread tid (.openRead .loadOrCreate) false, .thread tid .generate key, .thread tid .mkdirAll (),
    .thread tid .openWrite (), .thread tid (.write key) ()]

/-- A call finds `key` in the file. -/
def finds (tid : Nat) (who : Policy) (key : GoString) : KeySchedule :=
  [.thread tid (.openRead who) true, .thread tid .read key]

/-- The Management API starts on an empty state directory, then a second one and the relay. -/
def inTurn : KeySchedule := ([.spawn .loadOrCreate] : KeySchedule) ++ makes 0 firstKey

def afterwards : KeySchedule :=
  ([.spawn .loadOrCreate, .spawn .load] : KeySchedule) ++ finds 1 .loadOrCreate firstKey ++
    finds 2 .load firstKey

def afterFirst : KeyPool := final (calls "state") createdAlone (boot none) inTurn

def afterAll : KeyPool := final (calls "state") createdAlone afterFirst afterwards

theorem signing_key_agreed_in_turn :
    (∀ j key', afterAll.result j = some (.loadOrCreate, .ok key') → key' = firstKey) ∧
      afterAll.result 1 = some (.loadOrCreate, .ok firstKey) ∧
      afterAll.result 2 = some (.load, .ok firstKey) ∧
      ∀ j r, afterFirst.threads.length ≤ j → afterAll.result j = some (.load, r) →
        r = .ok firstKey := by
  have hfirst : Path (calls "state") createdAlone (boot none) inTurn afterFirst :=
    final_path (by decide +kernel)
  have hall : Path (calls "state") createdAlone afterFirst afterwards afterAll :=
    final_path (by decide +kernel)
  have hkey : afterFirst.result 0 = some (.loadOrCreate, .ok firstKey) := by decide +kernel
  have hagreed := signing_key_agreed (by decide) hfirst hkey hall
  refine ⟨hagreed.1, ?_, ?_, hagreed.2⟩
  · decide +kernel
  · decide +kernel

/-- Two Management APIs start on an empty state directory, and each looks before the other has
written. -/
def atOnce : KeySchedule :=
  ([.spawn .loadOrCreate, .spawn .loadOrCreate, .thread 0 (.openRead .loadOrCreate) false,
      .thread 1 (.openRead .loadOrCreate) false, .thread 0 .generate firstKey,
      .thread 0 .mkdirAll (), .thread 0 .openWrite (), .thread 0 (.write firstKey) (),
      .thread 1 .generate secondKey, .thread 1 .mkdirAll (), .thread 1 .openWrite (),
      .thread 1 (.write secondKey) (), .spawn .load] : KeySchedule) ++ finds 2 .load secondKey

/-- Both succeed, with different keys, and the relay goes by the second. -/
theorem signing_key_disagreed : ∃ pool,
    Path (calls "state") anyStep (boot none) atOnce pool ∧
      pool.result 0 = some (.loadOrCreate, .ok firstKey) ∧
      pool.result 1 = some (.loadOrCreate, .ok secondKey) ∧
      pool.result 2 = some (.load, .ok secondKey) ∧ firstKey ≠ secondKey := by
  refine ⟨final (calls "state") anyStep (boot none) atOnce,
    final_path (by decide +kernel), ?_, ?_, ?_, ?_⟩
  all_goals decide +kernel

end Lemul.StateKey
