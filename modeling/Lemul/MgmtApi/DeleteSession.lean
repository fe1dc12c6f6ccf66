import Lemul.MgmtApi.Access.Handlers
import Lemul.Misc.Decimal

/-!
# Deleting a session

`handleDeleteSession` (`lifecycle.go:226-294`) of a caller of the organization, with
`liveSessions` (`api.go:250-270`). Without `force` a session that is still running is not to be
deleted: the task ends what it is told to delete (`internal/supervisor/supervisor.go:626-643`).
Whether it runs is asked of the task, and every failure to find out is the answer that nothing
runs.
-/

namespace Lemul.MgmtApi.Delete

open Store Access

/-- What the handler reads of a `tunnel.SessionInfo`. -/
structure SessionInfo where
  id : GoString
  attachers : Nat
  deriving DecidableEq

/-- What comes of a `command` (`tunnels.go:278-290`): no stream could be opened, the stream
failed or the time ran out, the task answered `MsgError`, or it answered with an envelope, whose
body may not decode. -/
inductive CommandResult (α : Type) where
  | unopened (err : GoString)
  | failed (err : GoString)
  | error (message : GoString)
  | envelope (body : Option α)

/-- What the handler is answered: by the database (`session` is `none` for `ErrNotFound`), by the
registry (the workspace's name, with a tunnel; then whether `liveSessions` finds one), and by the
task. -/
structure Answers where
  session : Option (Except GoString Session)
  access : Except AccessError WsScope
  tunnelForSession : Except GoString GoString
  pickWorkspace : Bool
  list : CommandResult (List SessionInfo)
  delete : CommandResult Unit
  deleteRow : Option GoString

/-- A command that goes to the task. -/
inductive Sent where
  | listSessions
  | deleteSession (sid : GoString)
  deriving DecidableEq

variable {sid : GoString} {a : Answers}

/-- `liveSessions`, looked up for one session: of two entries the later one is in the map. -/
def liveSessions (a : Answers) (sid : GoString) : Option SessionInfo :=
  if a.pickWorkspace then
    match a.list with
    | .envelope (some list) => list.reverse.find? (·.id = sid)
    | _ => none
  else none

/-- The refusal of a session that runs. -/
def stillRunning (info : SessionInfo) : Answer :=
  .refused 409 ("session is still running" ++
    (if 0 < info.attachers then
      " with " ++ decimal info.attachers ++ " attached client(s)" else []) ++
    "; stop it first, or pass ?force=1 to end it and drop the conversation")

/-- The record goes last. -/
def dropRecord (a : Answers) : Answer :=
  match a.deleteRow with
  | some e => .refused 500 e
  | none => .noContent

/-- What the answer to `MsgDeleteSession` comes to. -/
def dropConversation (a : Answers) : Answer :=
  match a.delete with
  | .unopened e => .refused 503 e
  | .failed e => .refused 503 e
  | .error message => .refused 500 message
  | .envelope _ => dropRecord a

/-- The part of a workspace that has a tunnel. -/
def deleteThrough (a : Answers) (force : Bool) (sid : GoString) : Answer × List Sent :=
  let asked := if force then [] else [Sent.listSessions]
  match if force then none else liveSessions a sid with
  | some info => (stillRunning info, asked)
  | none =>
      match a.delete with
      | .unopened _ => (dropConversation a, asked)
      | _ => (dropConversation a, asked ++ [.deleteSession sid])

/-- `handleDeleteSession`: the answer, and the commands that went to the task. -/
def handleDeleteSession (a : Answers) (force : Bool) (sid : GoString) :
    Answer × List Sent :=
  match a.session with
  | none => (.noContent, [])
  | some (.error e) => (.refused 500 e, [])
  | some (.ok sess) =>
      match a.access with
      | .error _ => (.refused 404 "no such session", [])
      | .ok ws =>
          if (⟨ws, sess⟩ : SessScope).isVisible then
            match a.tunnelForSession with
            | .ok _ => deleteThrough a force sid
            | .error _ =>
                if force then (dropRecord a, [])
                else
                  (.refused 409 (str ("workspace is not running, so the conversation cannot be " ++
                    "dropped; pass ?force=1 to delete the record anyway")), [])
          else (.refused 404 "no such session", [])

/-- The task is asked: the session is there, the caller may see it, and its workspace has a
tunnel. -/
def Answers.Asks (a : Answers) : Prop :=
  ∃ sess ws name, a.session = some (.ok sess) ∧ a.access = .ok ws ∧
    (⟨ws, sess⟩ : SessScope).isVisible = true ∧ a.tunnelForSession = .ok name

/-- The task has answered with the sessions it runs. -/
def Answers.Answered (a : Answers) (list : List SessionInfo) : Prop :=
  a.pickWorkspace = true ∧ a.list = .envelope (some list)

/-- The task is told something only where it is asked. -/
theorem asks_of_command {cmd : Sent} (h : cmd ∈ (handleDeleteSession a false sid).2) :
    a.Asks := by
  unfold handleDeleteSession at h
  cases hsess : a.session with
  | none => simp [hsess] at h
  | some r =>
    cases r with
    | error e => simp [hsess] at h
    | ok sess =>
      cases hws : a.access with
      | error e => simp [hsess, hws] at h
      | ok ws =>
        simp only [hsess, hws] at h
        split at h
        · rename_i hvisible
          cases htunnel : a.tunnelForSession with
          | ok name => exact ⟨sess, ws, name, hsess, hws, hvisible, htunnel⟩
          | error e => simp [htunnel] at h
        · cases h

theorem Answers.Asks.handle (h : a.Asks) :
    handleDeleteSession a false sid = deleteThrough a false sid := by
  obtain ⟨sess, ws, name, hsess, hws, hvisible, htunnel⟩ := h
  simp [handleDeleteSession, hsess, hws, hvisible, htunnel]

theorem liveSessions_eq_none : liveSessions a sid = none ↔
    ∀ list, a.Answered list → ∀ info ∈ list, info.id ≠ sid := by
  unfold liveSessions Answers.Answered
  cases a.pickWorkspace with
  | false => simp
  | true =>
    rw [if_pos rfl]
    split
    · rename_i list hlist
      simp [hlist]
    · rename_i hlist
      exact iff_of_true rfl fun list h => absurd h.2 (hlist list)

/-- The session is deleted unless it is known to run. -/
theorem deleteSession_mem : Sent.deleteSession sid ∈ (deleteThrough a false sid).2 ↔
    liveSessions a sid = none ∧ ∀ e, a.delete ≠ .unopened e := by
  unfold deleteThrough
  cases liveSessions a sid with
  | some info => simp
  | none => cases a.delete <;> simp

/-- For every session and whatever the handler is answered: `DeleteSession` goes to the task only
after the task has answered and did not list the session, exactly where the task, if it is
asked, answers. -/
theorem delete_after_answer_iff (a : Answers) (sid : GoString) :
    (∀ delete, Sent.deleteSession sid ∈
        (handleDeleteSession { a with delete := delete } false sid).2 →
      ∃ list, a.Answered list ∧ ∀ info ∈ list, info.id ≠ sid) ↔
    (a.Asks → ∃ list, a.Answered list) := by
  constructor
  · intro h hasks
    by_contra hnone
    have hasks' : { a with delete := .failed [] }.Asks := hasks
    have hlive : liveSessions { a with delete := .failed [] } sid = none :=
      liveSessions_eq_none.mpr fun list hlist => absurd ⟨list, hlist⟩ hnone
    obtain ⟨list, hlist, -⟩ := h (.failed []) (by
      rw [hasks'.handle]
      exact deleteSession_mem.mpr ⟨hlive, nofun⟩)
    exact hnone ⟨list, hlist⟩
  · intro h delete hsent
    have hasks := asks_of_command hsent
    obtain ⟨list, hlist⟩ := h hasks
    rw [hasks.handle] at hsent
    exact ⟨list, hlist, liveSessions_eq_none.mp (deleteSession_mem.mp hsent).1 list hlist⟩

/-- The task of a workspace that runs `s1` takes longer than ten seconds to list its sessions.
`s1` is deleted without `force`, and the task is told to end it. -/
theorem delete_after_timeout : ∃ a : Answers,
    a.Asks ∧ a.pickWorkspace = true ∧ a.list = .failed "i/o timeout" ∧
      handleDeleteSession a false "s1" = (.noContent, [.listSessions, .deleteSession "s1"]) := by
  let sess : Session := ⟨"s1", "w1", "acme", "ana"⟩
  let ws : WsScope := ⟨⟨⟨"acme", "acme-corp", "ana"⟩, .user⟩,
    Workspaces.newWorkspace "w1" "acme" "web" "ana" .owner, .owner⟩
  exact ⟨⟨some (.ok sess), .ok ws, .ok "web", true, .failed "i/o timeout",
    .envelope (some ()), none⟩, ⟨sess, ws, "web", rfl, rfl, rfl, rfl⟩, rfl, rfl, rfl⟩

end Lemul.MgmtApi.Delete
