import Lemul.Misc.SlashPath
import Lemul.Supervisor.Sessions

/-!
# Conversations

`internal/supervisor/claudeargs.go:44-140`, `handleDeleteSession` (`supervisor.go:626-643`) and
the part of `createSession` that chooses the command line (`supervisor.go:468-485`). A
conversation is a file `<id>.jsonl` in some project directory below a config directory. Both the
question whether there is one and its removal go by `filepath.Glob`, which is left open here: it
either reports a pattern as malformed or finds the files that match it.
-/

namespace Lemul.Supervisor.Transcripts

open SlashPath

/-- `filepath.Glob`, as far as it depends on the pattern alone. -/
structure Glob where
  /-- The error for a malformed pattern. -/
  malformed : GoString → Option GoString
  isMatch : GoString → GoString → Bool

/-- `filepath.Glob` on a machine with these files. -/
def Glob.find (g : Glob) (files : List GoString) (pattern : GoString) :
    Except GoString (List GoString) :=
  match g.malformed pattern with
  | some err => .error err
  | none => .ok (files.filter (g.isMatch pattern))

/-- What the supervisor was started with and what it finds on its machine. -/
structure Host where
  options : Sessions.Options
  defaultCmd : List GoString
  /-- `os.Getenv("CLAUDE_CONFIG_DIR")`. -/
  claudeConfigDir : GoString
  /-- `os.UserHomeDir`. -/
  userHomeDir : Option GoString

/-- `defaultConfigDir` (`claudeargs.go:130-139`). -/
def defaultConfigDir (h : Host) : GoString :=
  if h.claudeConfigDir ≠ [] then h.claudeConfigDir
  else
    match h.userHomeDir with
    | none => []
    | some home => joinAll [home, ".claude"]

/-- `resumeSupported` (`claudeargs.go:44-50`). -/
def resumeSupported : List GoString → Bool
  | [] => false
  | cmd :: _ => base cmd = "claude" || base cmd = "claude.js"

/-- `hasSessionFlag` (`claudeargs.go:70-80`). -/
def hasSessionFlag (cmd : List GoString) : Bool :=
  cmd.tail.any fun a =>
    a = str "--session-id" || (str "--session-id=").isPrefixOf a ||
      a = str "--resume" || a = str "-r" || (str "--resume=").isPrefixOf a ||
      a = "--continue" || a = "-c"

/-- Where the transcripts of a session are: the config directory, or the default for an empty
one, and what `Glob` is asked. -/
def resolveDir (h : Host) (configDir : GoString) : GoString :=
  if configDir = [] then defaultConfigDir h else configDir

def transcriptPattern (configDir id : GoString) : GoString :=
  joinAll [configDir, "projects", "*", id ++ ".jsonl"]

/-- `transcriptExists` (`claudeargs.go:94-103`). -/
def transcriptExists (g : Glob) (h : Host) (files : List GoString) (configDir id : GoString) :
    Bool :=
  let dir := resolveDir h configDir
  if dir = [] then false
  else
    match g.find files (transcriptPattern dir id) with
    | .error _ => false
    | .ok found => found ≠ []

/-- `sessionArgs` (`claudeargs.go:58-68`). -/
def sessionArgs (g : Glob) (h : Host) (files : List GoString) (cmd : List GoString)
    (id configDir : GoString) : List GoString :=
  if !resumeSupported cmd || id = [] || hasSessionFlag cmd then cmd
  else if transcriptExists g h files configDir id then cmd ++ [str "--resume", id]
  else cmd ++ [str "--session-id", id]

/-- The loop over `os.Remove` (`claudeargs.go:118-122`). `fails`: its error, when it is another
than that there is no such file. -/
def removeEach (fails : GoString → Option GoString) :
    List GoString → List GoString → List GoString × Option GoString
  | [], files => (files, none)
  | m :: rest, files =>
      match fails m with
      | some err => (files, some err)
      | none => removeEach fails rest (files.filter (· ≠ m))

/-- `removeTranscript` (`claudeargs.go:107-124`): the files that are left, and its error. -/
def removeTranscript (g : Glob) (h : Host) (fails : GoString → Option GoString)
    (files : List GoString) (configDir id : GoString) : List GoString × Option GoString :=
  let dir := resolveDir h configDir
  if dir = [] ∨ id = [] then (files, none)
  else
    match g.find files (transcriptPattern dir id) with
    | .error err => (files, some err)
    | .ok found => removeEach fails found files

/-- A supervisor and the files it can see. -/
structure State where
  /-- `ids`. -/
  identities : GoString → Option Sessions.Identity
  /-- The manager has the session. -/
  running : GoString → Bool
  files : List GoString

/-- `handleDeleteSession` (`supervisor.go:626-643`), with what it replies. The process of the
session is killed and waited for; `flushed` are the files it writes until then. -/
def handleDeleteSession (g : Glob) (h : Host) (fails : GoString → Option GoString)
    (flushed : List GoString) (id : GoString) (s : State) : State × Option GoString :=
  let files := if s.running id then s.files ++ flushed else s.files
  let (left, err) := removeTranscript g h fails files h.options.configDir id
  ({ s with running := Function.update s.running id false, files := left }, err)

/-- Who a session runs as, once their home is there (`supervisor.go:530-556`). -/
def whoFor (o : Sessions.Options) (identities : GoString → Option Sessions.Identity)
    (id : GoString) : Option Sessions.Identity :=
  if o.euid ≠ 0 then some ⟨0, [], [], o.configDir⟩
  else
    match identities id with
    | none => if o.sessionUID = 0 then some ⟨0, [], [], o.configDir⟩ else none
    | some who => some who

/-- It is what `identityFor` returns. -/
theorem interp_identityFor {o : Sessions.Options} {id : GoString}
    {identities : GoString → Option Sessions.Identity}
    {answer : (op : Sessions.Op) → Sessions.Res op}
    (hidentity : answer (.identity id) = identities id)
    (hhome : ∀ who, answer (.provisionHome who) = none) :
    ((Sessions.identityFor o id).interp answer).toOption = whoFor o identities id := by
  unfold Sessions.identityFor whoFor
  split
  · rfl
  · rw [Prog.interp_perform_bind, hidentity]
    cases identities id with
    | none =>
      dsimp only
      split <;> rfl
    | some who =>
      dsimp only
      rw [Prog.interp_perform_bind]
      cases answer (.markProvisioned who.uid) with
      | false => rfl
      | true =>
        rw [if_pos rfl, Prog.interp_perform_bind, hhome]
        rfl

/-- The config directory that `createSession` uses for a session. The handlers refuse an empty
id before they get there. -/
def usedDir (h : Host) (s : State) (id : GoString) : Option GoString :=
  if id = [] then none else (whoFor h.options s.identities id).map (·.configDir)

end Lemul.Supervisor.Transcripts
