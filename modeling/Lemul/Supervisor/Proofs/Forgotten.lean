import Lemul.Supervisor.Transcripts

/-!
# Deleting a conversation

`handleDeleteSession` removes the transcript from the supervisor's own config directory
(`supervisor.go:637`). `createSession` looks for it in that of the member (`supervisor.go:485`),
which is another one on a root supervisor that was told who the session is for.
-/

namespace Lemul.Supervisor.Transcripts

open SlashPath

/-- The file is a transcript of the session, below this config directory. -/
def IsTranscript (g : Glob) (h : Host) (configDir id f : GoString) : Prop :=
  resolveDir h configDir ≠ [] ∧
    g.malformed (transcriptPattern (resolveDir h configDir) id) = none ∧
    g.isMatch (transcriptPattern (resolveDir h configDir) id) f = true

section Files

variable {g : Glob} {h : Host} {fails : GoString → Option GoString} {configDir id : GoString}
  {files : List GoString}

theorem transcriptExists_eq_false_iff : transcriptExists g h files configDir id = false ↔
    ∀ f ∈ files, ¬IsTranscript g h configDir id f := by
  unfold transcriptExists IsTranscript Glob.find
  dsimp only
  split
  · rename_i hdir
    simp [hdir]
  · rename_i hdir
    split
    · rename_i err hfind
      split at hfind
      · rename_i err' hmalformed
        simp [hmalformed]
      · cases hfind
    · rename_i found hfind
      split at hfind <;> cases hfind
      rename_i hmalformed
      simp [hdir, hmalformed]

/-- Without an error, exactly the files asked for are gone. -/
theorem removeEach_ok {found : List GoString} (hok : (removeEach fails found files).2 = none)
    (f : GoString) : f ∈ (removeEach fails found files).1 ↔ f ∈ files ∧ f ∉ found := by
  induction found generalizing files with
  | nil => simp [removeEach]
  | cons m rest ih =>
    unfold removeEach at hok ⊢
    split at hok
    · cases hok
    · rw [ih hok, List.mem_filter, decide_eq_true_eq, List.mem_cons, not_or, and_assoc]

/-- Without an error, the transcripts of the session below this config directory are gone, and
nothing else. -/
theorem removeTranscript_ok (hid : id ≠ [])
    (hok : (removeTranscript g h fails files configDir id).2 = none) (f : GoString) :
    f ∈ (removeTranscript g h fails files configDir id).1 ↔
      f ∈ files ∧ ¬IsTranscript g h configDir id f := by
  unfold removeTranscript at hok ⊢
  dsimp only at hok ⊢
  split at hok
  · rename_i hdir
    have hdir := hdir.resolve_right hid
    simp [IsTranscript, hdir]
  · rename_i hdir
    have hdir : resolveDir h configDir ≠ [] := fun h => hdir (.inl h)
    rw [if_neg (by simp [hdir, hid])]
    unfold Glob.find at hok ⊢
    split at hok
    · cases hok
    · rename_i found hfind
      split at hfind <;> cases hfind
      rename_i hmalformed
      rw [removeEach_ok hok]
      refine and_congr_right fun hf => not_congr ?_
      simp [IsTranscript, hdir, hmalformed, hf]

end Files

/-- The session has no conversation left where `createSession` looks for it, and the next process
of it starts a new one. -/
def Forgotten (g : Glob) (h : Host) (id : GoString) (s : State) : Prop :=
  ∀ dir, usedDir h s id = some dir → transcriptExists g h s.files dir id = false ∧
    (sessionArgs g h s.files h.defaultCmd id dir = h.defaultCmd ∨
      sessionArgs g h s.files h.defaultCmd id dir = h.defaultCmd ++ [str "--session-id", id])

theorem sessionArgs_fresh {g : Glob} {h : Host} {files cmd : List GoString} {id dir : GoString}
    (hnone : transcriptExists g h files dir id = false) :
    sessionArgs g h files cmd id dir = cmd ∨
      sessionArgs g h files cmd id dir = cmd ++ [str "--session-id", id] := by
  unfold sessionArgs
  split
  · exact .inl rfl
  · rw [hnone]
    exact .inr rfl

/-- A `delete_session` that replies OK forgets the session if and only if every transcript of it
that `createSession` would find is one below the supervisor's own config directory. -/
theorem deleted_session_forgotten_iff (g : Glob) (h : Host) (fails : GoString → Option GoString)
    (flushed : List GoString) (id : GoString) (s : State)
    (hok : (handleDeleteSession g h fails flushed id s).2 = none) :
    Forgotten g h id (handleDeleteSession g h fails flushed id s).1 ↔
      ∀ dir, usedDir h s id = some dir →
        ∀ f ∈ (if s.running id then s.files ++ flushed else s.files),
          IsTranscript g h dir id f → IsTranscript g h h.options.configDir id f := by
  have hused : usedDir h (handleDeleteSession g h fails flushed id s).1 id = usedDir h s id := rfl
  unfold Forgotten
  rw [hused]
  refine forall₂_congr fun dir hdir => ?_
  have hid : id ≠ [] := by
    rintro rfl
    cases hdir
  have hleft := fun f => removeTranscript_ok hid hok f
  constructor
  · rintro ⟨hnone, -⟩ f hf htranscript
    by_contra hother
    exact transcriptExists_eq_false_iff.mp hnone f ((hleft f).mpr ⟨hf, hother⟩) htranscript
  · intro hcovered
    have hnone : transcriptExists g h (handleDeleteSession g h fails flushed id s).1.files dir id =
        false := by
      refine transcriptExists_eq_false_iff.mpr fun f hf htranscript => ?_
      obtain ⟨hwas, hnot⟩ := (hleft f).mp hf
      exact hnot (hcovered f hwas htranscript)
    exact ⟨hnone, sessionArgs_fresh hnone⟩

/-- `Glob` for patterns whose only special elements are `*`. -/
def starGlob : Glob where
  malformed _ := none
  isMatch pattern f :=
    (elements pattern).length = (elements f).length &&
      ((elements pattern).zip (elements f)).all fun e => e.1 = "*" || e.1 = e.2

/-- The image's configuration (`claudeargs.go:126-129`), with root or without. -/
def imageHost (euid : Nat) : Host where
  options := ⟨euid, 1000, "/workspace/.claude", [], false, [], fun _ => none⟩
  defaultCmd := ["claude"]
  claudeConfigDir := "/workspace/.claude"
  userHomeDir := some "/root"

/-- A member's session, which has ended and left its conversation in this directory. -/
def memberState (transcript : GoString) : State where
  identities id :=
    if id = "s1" then some ⟨2000, "dev", "/home/dev", "/home/dev/.claude"⟩ else none
  running _ := false
  files := [transcript]

theorem deleted_session_forgotten_iff_not_root :
    (handleDeleteSession starGlob (imageHost 1000) (fun _ => none) [] "s1"
        (memberState "/workspace/.claude/projects/-w/s1.jsonl")).2 = none ∧
      Forgotten starGlob (imageHost 1000) "s1"
        (handleDeleteSession starGlob (imageHost 1000) (fun _ => none) [] "s1"
          (memberState "/workspace/.claude/projects/-w/s1.jsonl")).1 := by
  refine ⟨by decide +kernel, (deleted_session_forgotten_iff starGlob (imageHost 1000)
    (fun _ => none) [] "s1" _ (by decide +kernel)).mpr ?_⟩
  intro dir hdir f _ htranscript
  cases hdir
  exact htranscript

/-- The conversation of a member outlives its deletion: it is resumed by the next process. -/
theorem deleted_session_resumed :
    (handleDeleteSession starGlob (imageHost 0) (fun _ => none) [] "s1"
        (memberState "/home/dev/.claude/projects/-h/s1.jsonl")).2 = none ∧
      usedDir (imageHost 0) (handleDeleteSession starGlob (imageHost 0) (fun _ => none) []
        "s1" (memberState "/home/dev/.claude/projects/-h/s1.jsonl")).1 "s1" =
          some (str "/home/dev/.claude") ∧
      sessionArgs starGlob (imageHost 0) (handleDeleteSession starGlob (imageHost 0)
        (fun _ => none) [] "s1"
          (memberState "/home/dev/.claude/projects/-h/s1.jsonl")).1.files
        (imageHost 0).defaultCmd "s1" "/home/dev/.claude" =
          [str "claude", "--resume", "s1"] := by
  refine ⟨by decide +kernel, by decide +kernel, by decide +kernel⟩

end Lemul.Supervisor.Transcripts
