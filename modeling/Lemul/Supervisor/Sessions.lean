import Lemul.Misc.Decimal
import Lemul.Misc.History

/-!
# The sessions of a task

`internal/supervisor/supervisor.go:468-557` and `:582-717` (`createSession`, `identityFor`,
`handleStartSession` and the first half of `handleAttach`), `internal/ptysession/manager.go`
and the registry of `internal/gateway/proxy.go:122-192`. The manager and the broker each have a
mutex of their own, and a section under one of them is one step. So is each call of the
operating system. The goroutine that reads a PTY goes on where `Create` has started it: it waits
for the child, takes the session out of the manager and calls `onSessionExit`.

A process ends when it likes, which covers `stop_session` and `delete_session`: they only
signal it. The command line, the groups of a credential and what the handlers report about a
session are left out; nothing here depends on them.
-/

namespace Lemul.Supervisor.Sessions

open Prog Function

/-- `identity` (`identity.go:32-41`). -/
structure Identity where
  uid : Nat
  username : GoString
  home : GoString
  configDir : GoString
  deriving DecidableEq, Repr

/-- What the supervisor was started with and what it finds on its machine. -/
structure Options where
  /-- `os.Geteuid`. -/
  euid : Nat
  sessionUID : Nat
  configDir : GoString
  term : GoString
  /-- There is a gateway broker. -/
  gateway : Bool
  /-- `os.Environ`. -/
  environ : List GoString
  /-- `user.LookupId`: home and name. -/
  lookupId : Nat → Option (GoString × GoString)

/-- `SessionProxy` (`proxy.go:91-109`). The number tells apart two proxies that were given the
same port one after the other. -/
structure SessionProxy where
  number : Nat
  sessionID : GoString
  port : Nat
  deriving DecidableEq, Repr

/-- `BaseURL` (`proxy.go:141`). -/
def SessionProxy.baseURL (sp : SessionProxy) : GoString :=
  "http://127.0.0.1:" ++ decimal sp.port

/-- `Spec` (`session.go:42-75`). -/
structure Spec where
  id : GoString
  env : List GoString
  dir : GoString
  rows : Nat
  cols : Nat
  /-- The uid the process is forked at, unless it is the supervisor's. -/
  credential : Option Nat
  deriving DecidableEq, Repr

/-- A process that was forked for a session. -/
structure Process where
  spec : Spec
  running : Bool
  deriving DecidableEq, Repr

/-! ## The environment of a child -/

/-- `strippedFromChild` (`supervisor.go:930-942`). -/
def strippedFromChild : List GoString :=
  ["LEMUL_GATEWAY_KEY=", "LEMUL_TOKEN=", "ANTHROPIC_BASE_URL=",
    "ANTHROPIC_AUTH_TOKEN=", "ANTHROPIC_API_KEY="]

/-- `sessionHome` (`supervisor.go:1003-1016`). -/
def sessionHome (o : Options) (uid : Nat) : GoString × GoString :=
  match o.lookupId uid with
  | none => ("/tmp", decimal uid)
  | some (home, name) =>
      (if home = [] then "/tmp" else home, if name = [] then decimal uid else name)

/-- The variables that `childEnv` does not hand on. -/
def drops (who : Identity) : List GoString :=
  if who.uid ≠ 0 then
    strippedFromChild ++ [str "HOME=", str "USER=", str "LOGNAME=", str "CLAUDE_CONFIG_DIR="]
  else strippedFromChild

/-- The variables that `childEnv` sets for a member. -/
def identityEnv (o : Options) (who : Identity) : List GoString :=
  if who.uid ≠ 0 then
    let home := if who.home = [] then (sessionHome o who.uid).1 else who.home
    let name := if who.username = [] then (sessionHome o who.uid).2 else who.username
    ["HOME=" ++ home, "USER=" ++ name, "LOGNAME=" ++ name] ++
      if who.configDir = [] then [] else ["CLAUDE_CONFIG_DIR=" ++ who.configDir]
  else []

/-- `childEnv` (`supervisor.go:959-999`). -/
def childEnv (o : Options) (term : GoString) (who : Identity) : List GoString :=
  o.environ.filter (fun e => !((str "TERM=").isPrefixOf e || (str "COLORTERM=").isPrefixOf e ||
      (drops who).any fun drop => drop.isPrefixOf e)) ++
    ["TERM=" ++ term, "COLORTERM=truecolor"] ++ identityEnv o who

/-- `PlaceholderToken` (`proxy.go:321`). -/
def placeholderToken : GoString := "sk-lemul-loopback-not-a-secret"

/-- `credential` and `sessionCredential` (`identity.go:51-53`, `sessionuid.go:36-46`). -/
def credential (o : Options) (who : Identity) : Option Nat :=
  if who.uid = 0 ∨ o.euid ≠ 0 then none else some who.uid

/-! ## Steps -/

inductive Op where
  /-- `Manager.Get`. -/
  | get (id : GoString)
  /-- `identities.get`. -/
  | identity (id : GoString)
  | markProvisioned (uid : Nat)
  | provisionHome (who : Identity)
  /-- The first locked section of `Open` (`proxy.go:123-128`). -/
  | proxyOf (id : GoString)
  /-- `net.Listen` and `Serve` (`proxy.go:134-157`). -/
  | listen (id : GoString)
  /-- The second locked section of `Open` (`proxy.go:159-161`). -/
  | setProxy (id : GoString) (sp : SessionProxy)
  /-- The first locked section of `Create` (`manager.go:51-56`). -/
  | registered (id : GoString)
  /-- `newSession`. -/
  | newSession (spec : Spec)
  /-- The second locked section of `Create` (`manager.go:63-72`). -/
  | register (id : GoString) (pid : Nat)
  /-- `Session.Stop(true)`. -/
  | kill (pid : Nat)
  /-- `cmd.Wait` in `finish`. -/
  | wait (pid : Nat)
  /-- The locked section of `reap` (`manager.go:79-81`). -/
  | unregister (id : GoString)
  /-- The locked section of `Broker.Close` (`proxy.go:185-188`). -/
  | takeProxy (id : GoString)
  /-- `srv.Close`. -/
  | closeProxy (sp : SessionProxy)
  /-- `sendEvent` of `session_exited`. -/
  | sessionExited (id : GoString) (code : Int)
  /-- `MsgOK`, or `replyError`. -/
  | reply (err : Option GoString)
  deriving DecidableEq

abbrev Res : Op → Type
  | .get _ => Option Nat
  | .identity _ => Option Identity
  | .markProvisioned _ => Bool
  | .provisionHome _ => Option GoString
  | .proxyOf _ => Option SessionProxy
  | .listen _ => Except GoString SessionProxy
  | .registered _ => Bool
  | .newSession _ => Except GoString Nat
  | .register _ _ => Bool
  | .wait _ => Int
  | .takeProxy _ => Option SessionProxy
  | _ => Unit

/-- Performing one step. -/
abbrev call (o : Op) : Prog Op Res (Res o) := Prog.perform o

/-- `identityFor` (`supervisor.go:530-556`). -/
def identityFor (o : Options) (id : GoString) : Prog Op Res (Except GoString Identity) := do
  if o.euid ≠ 0 then
    pure (.ok ⟨0, [], [], o.configDir⟩)
  else
    match ← call (.identity id) with
    | none =>
        if o.sessionUID = 0 then
          pure (.ok ⟨0, [], [], o.configDir⟩)
        else
          pure (.error ("no identity for session " ++ id ++
            ": the Management API sends one before any attach, " ++
            "so this session cannot be started with a user"))
    | some who =>
        if ← call (.markProvisioned who.uid) then
          match ← call (.provisionHome who) with
          | some err =>
              pure (.error ("provisioning a home for uid " ++ decimal who.uid ++ ": " ++ err))
          | none => pure (.ok who)
        else
          pure (.ok who)

/-- `Open` (`proxy.go:122-163`). -/
def openProxy (id : GoString) : Prog Op Res (Except GoString SessionProxy) := do
  match ← call (.proxyOf id) with
  | some sp => pure (.ok sp)
  | none =>
      match ← call (.listen id) with
      | .error err => pure (.error ("listen: " ++ err))
      | .ok sp =>
          call (.setProxy id sp)
          pure (.ok sp)

/-- `sessionEnv` (`supervisor.go:906-920`). -/
def sessionEnv (o : Options) (id term : GoString) (who : Identity) :
    Prog Op Res (Except GoString (List GoString)) := do
  if o.gateway then
    match ← openProxy id with
    | .error err =>
        pure (.error ("open gateway proxy for session " ++ id ++ ": " ++ err))
    | .ok sp =>
        pure (.ok (childEnv o term who ++ ["ANTHROPIC_BASE_URL=" ++ sp.baseURL,
          "ANTHROPIC_AUTH_TOKEN=" ++ placeholderToken]))
  else
    pure (.ok (childEnv o term who))

/-- `ErrExists` (`session.go:37`). -/
def errExists : GoString := "session already exists"

/-- `Create` (`manager.go:50-76`), with the number of the process it has forked. -/
def create (spec : Spec) : Prog Op Res (Except GoString Nat) := do
  if ← call (.registered spec.id) then
    pure (.error errExists)
  else
    match ← call (.newSession spec) with
    | .error err => pure (.error err)
    | .ok pid =>
        if ← call (.register spec.id pid) then
          pure (.ok pid)
        else
          call (.kill pid)
          pure (.error errExists)

/-- `createSession` (`supervisor.go:468-513`). -/
def createSession (o : Options) (id term : GoString) (rows cols : Nat) :
    Prog Op Res (Except GoString Nat) := do
  match ← identityFor o id with
  | .error err => pure (.error err)
  | .ok who =>
      match ← sessionEnv o id (if term = [] then o.term else term) who with
      | .error err => pure (.error err)
      | .ok env => create ⟨id, env, who.home, rows, cols, credential o who⟩

/-- `Broker.Close` (`proxy.go:184-192`). -/
def closeSession (id : GoString) : Prog Op Res Unit := do
  match ← call (.takeProxy id) with
  | none => pure ()
  | some sp => call (.closeProxy sp)

/-- `onSessionExit` (`supervisor.go:368-379`). -/
def onSessionExit (o : Options) (id : GoString) (code : Int) : Prog Op Res Unit := do
  if o.gateway then
    closeSession id
  call (.sessionExited id code)

/-- The end of `readLoop` (`session.go:186-214`) with `reap` (`manager.go:78-85`). -/
def finish (o : Options) (id : GoString) (pid : Nat) : Prog Op Res Unit := do
  let code ← call (.wait pid)
  call (.unregister id)
  onSessionExit o id code

/-- A handler that has found no session, and the goroutine it starts. -/
def start (o : Options) (id term : GoString) (rows cols : Nat) : Prog Op Res Unit := do
  match ← createSession o id term rows cols with
  | .error err => call (.reply (some err))
  | .ok pid =>
      call (.reply none)
      finish o id pid

/-- `handleStartSession` (`supervisor.go:582-618`). -/
def handleStartSession (o : Options) (id term : GoString) : Prog Op Res Unit := do
  if id = [] then
    call (.reply (some "missing session_id"))
  else
    match ← call (.get id) with
    | some _ => call (.reply none)
    | none => start o id term 0 0

/-- `handleAttach` (`supervisor.go:680-712`) up to the attachment. -/
def handleAttach (o : Options) (id term : GoString) (rows cols : Nat) (mayCreate : Bool) :
    Prog Op Res Unit := do
  if id = [] then
    call (.reply (some "missing session_id"))
  else
    match ← call (.get id) with
    | some _ => call (.reply none)
    | none =>
        if mayCreate then
          start o id term rows cols
        else
          call (.reply (some ("no such session: " ++ id)))

/-- The streams that can fork a session. -/
inductive Request where
  | startSession (id term : GoString)
  | attach (id term : GoString) (rows cols : Nat) (mayCreate : Bool)
  deriving DecidableEq, Repr

def handle (o : Options) : Request → Prog Op Res Unit
  | .startSession id term => handleStartSession o id term
  | .attach id term rows cols mayCreate => handleAttach o id term rows cols mayCreate

/-! ## The state of a supervisor -/

/-- A supervisor and the processes of its task. -/
structure Task where
  /-- `ids`. -/
  identities : GoString → Option Identity
  provisioned : Nat → Bool
  /-- The proxies whose listener is open. -/
  listening : List SessionProxy
  /-- How many proxies have been opened. -/
  opened : Nat
  /-- The broker's `sessions`. -/
  broker : GoString → Option SessionProxy
  /-- The manager's `sessions`. -/
  manager : GoString → Option Nat
  /-- Every process forked so far. Its number is its position here. -/
  processes : List Process

/-- A supervisor that has just been started. -/
def Task.new : Task := ⟨fun _ => none, fun _ => false, [], 0, fun _ => none, fun _ => none, []⟩

/-- A step that reads. -/
def answer {α : Type} [DecidableEq α] (expected r : α) (s : Task) : Option Task :=
  if r = expected then some s else none

def exec : (o : Op) → Res o → Task → Option Task
  | .get id, r, s => answer (s.manager id) r s
  | .identity id, r, s => answer (s.identities id) r s
  | .markProvisioned uid, r, s =>
      if r = !s.provisioned uid then
        some { s with provisioned := update s.provisioned uid true }
      else none
  | .provisionHome _, _, s => some s
  | .proxyOf id, r, s => answer (s.broker id) r s
  | .listen id, r, s =>
      match r with
      | .error _ => some s
      | .ok sp =>
          -- the kernel gives out no port that is in use
          if sp.number = s.opened ∧ sp.sessionID = id ∧ sp.port ∉ s.listening.map (·.port) then
            some { s with listening := sp :: s.listening, opened := s.opened + 1 }
          else none
  | .setProxy id sp, _, s => some { s with broker := update s.broker id (some sp) }
  | .registered id, r, s => answer (s.manager id).isSome r s
  | .newSession spec, r, s =>
      match r with
      | .error _ => some s
      | .ok pid =>
          if pid = s.processes.length then
            some { s with processes := s.processes ++ [⟨spec, true⟩] }
          else none
  | .register id pid, r, s =>
      if r = (s.manager id).isNone then
        some (if r then { s with manager := update s.manager id (some pid) } else s)
      else none
  | .kill _, _, s => some s
  | .wait pid, _, s =>
      match s.processes[pid]? with
      | some p => if p.running then none else some s
      | none => none
  | .unregister id, _, s => some { s with manager := update s.manager id none }
  | .takeProxy id, r, s =>
      if r = s.broker id then some { s with broker := update s.broker id none } else none
  | .closeProxy sp, _, s => some { s with listening := s.listening.erase sp }
  | .sessionExited _ _, _, s => some s
  | .reply _, _, s => some s

/-- What happens beside the handlers. -/
inductive Move where
  /-- A process ends. -/
  | exit (pid : Nat)
  /-- `session_identity` arrives. -/
  | announce (id : GoString) (who : Identity)
  deriving DecidableEq, Repr

def move : Move → Task → Option Task
  | .exit pid, s =>
      match s.processes[pid]? with
      | some p =>
          if p.running then
            some { s with processes := s.processes.set pid { p with running := false } }
          else none
      | none => none
  | .announce id who, s => some { s with identities := update s.identities id (some who) }

/-- What happens in a run, in order. -/
abbrev Schedule := List (Label Op Res Move Request)

/-- A supervisor that is asked to start and attach any sessions. -/
def supervisor (o : Options) : System Op Res Task Move Request Unit where
  exec _ := exec
  env := move
  spawn q _ := some (handle o q)

/-! ## What the steps do -/

section Effects

variable {s s' : Task}

/-- What a step comes to, case by case. -/
inductive Executed (s : Task) : (o : Op) → Res o → Task → Prop
  | get {id : GoString} : Executed s (.get id) (s.manager id) s
  | identity {id : GoString} : Executed s (.identity id) (s.identities id) s
  | markProvisioned {uid : Nat} : Executed s (.markProvisioned uid) (!s.provisioned uid)
      { s with provisioned := update s.provisioned uid true }
  | provisionHome {who : Identity} {err : Option GoString} : Executed s (.provisionHome who) err s
  | proxyOf {id : GoString} : Executed s (.proxyOf id) (s.broker id) s
  | listenFails {id err : GoString} : Executed s (.listen id) (.error err) s
  | listens {id : GoString} {sp : SessionProxy} (hid : sp.sessionID = id) :
      Executed s (.listen id) (.ok sp)
        { s with listening := sp :: s.listening, opened := s.opened + 1 }
  | setProxy {id : GoString} {sp : SessionProxy} : Executed s (.setProxy id sp) ()
      { s with broker := update s.broker id (some sp) }
  | registered {id : GoString} : Executed s (.registered id) (s.manager id).isSome s
  | forkFails {spec : Spec} {err : GoString} : Executed s (.newSession spec) (.error err) s
  | forks {spec : Spec} : Executed s (.newSession spec) (.ok s.processes.length)
      { s with processes := s.processes ++ [⟨spec, true⟩] }
  | registers {id : GoString} {pid : Nat} (hfree : s.manager id = none) :
      Executed s (.register id pid) true
        { s with manager := update s.manager id (some pid) }
  | taken {id : GoString} {pid : Nat} (htaken : s.manager id ≠ none) :
      Executed s (.register id pid) false s
  | kill {pid : Nat} : Executed s (.kill pid) () s
  | wait {pid : Nat} {code : Int} {p : Process} (hp : s.processes[pid]? = some p)
      (hdone : p.running = false) : Executed s (.wait pid) code s
  | unregister {id : GoString} : Executed s (.unregister id) ()
      { s with manager := update s.manager id none }
  | takeProxy {id : GoString} : Executed s (.takeProxy id) (s.broker id)
      { s with broker := update s.broker id none }
  | closeProxy {sp : SessionProxy} : Executed s (.closeProxy sp) ()
      { s with listening := s.listening.erase sp }
  | sessionExited {id : GoString} {code : Int} : Executed s (.sessionExited id code) () s
  | reply {err : Option GoString} : Executed s (.reply err) () s

theorem exec_rule {o : Op} {r : Res o} (h : exec o r s = some s') : Executed s o r s' := by
  cases o with
  | register id pid =>
    cases hid : s.manager id with
    | none =>
      obtain ⟨rfl, rfl⟩ : r = true ∧ _ = s' := by simpa [exec, hid] using h
      exact .registers hid
    | some other =>
      obtain ⟨rfl, rfl⟩ : r = false ∧ _ = s' := by simpa [exec, hid] using h
      exact .taken (by simp [hid])
  | wait pid =>
    simp only [exec] at h
    (repeat' split at h) <;> cases h
    exact .wait ‹_› (Bool.of_not_eq_true ‹_›)
  | _ =>
    simp only [exec, answer] at h
    (repeat' split at h) <;> cases h <;> subst_vars <;> constructor <;> grind

theorem supervisor_rule {options : Options} {tid : Nat} {o : Op} {r : Res o}
    (h : (supervisor options).exec tid o r s = some s') : Executed s o r s' := exec_rule h

/-- No step forgets or changes an identity. -/
theorem exec_identities {o : Op} {r : Res o} (h : exec o r s = some s') :
    s'.identities = s.identities := by
  cases exec_rule h <;> rfl

/-- Only a fork adds a process, and no step changes one. -/
theorem exec_processes {o : Op} {r : Res o} (h : exec o r s = some s') :
    s'.processes = s.processes ∨
      ∃ spec, o = .newSession spec ∧ s'.processes = s.processes ++ [⟨spec, true⟩] := by
  cases exec_rule h with
  | forks => exact .inr ⟨_, rfl, rfl⟩
  | _ => exact .inl rfl

theorem move_exit {pid : Nat} (h : move (.exit pid) s = some s') :
    ∃ p, s.processes[pid]? = some p ∧ p.running = true ∧
      s' = { s with processes := s.processes.set pid { p with running := false } } := by
  simp only [move] at h
  split at h
  · rename_i p hp
    split at h
    · rename_i hrunning
      exact ⟨p, hp, hrunning, (Option.some.inj h).symm⟩
    · cases h
  · cases h

end Effects

/-- A step that forks nothing. -/
def Op.NoFork : Op → Prop
  | .newSession _ => False
  | _ => True

/-- A step of `identityFor`. -/
def Op.Identifies : Op → Prop
  | .identity _ | .markProvisioned _ | .provisionHome _ => True
  | _ => False

/-- A step of `Create` for the session `id`. -/
def Op.Creates (id : GoString) : Op → Prop
  | .registered _ | .register _ _ | .kill _ => True
  | .newSession spec => spec.id = id
  | _ => False

section Forks

variable {o : Options} {id term : GoString} {A : (o : Op) → Res o → Prop}

theorem performs_identityFor : (identityFor o id).Performs A Op.Identifies := by
  unfold identityFor
  split
  · trivial
  · refine .perform trivial fun r _ => ?_
    cases r with
    | none =>
      dsimp only
      split <;> trivial
    | some who =>
      refine .perform trivial fun first _ => ?_
      cases first with
      | false => trivial
      | true =>
        refine .perform trivial fun err _ => ?_
        cases err <;> trivial

theorem noFork_sessionEnv {who : Identity} :
    (sessionEnv o id term who).Performs A Op.NoFork := by
  have hopen : (openProxy id).Performs A Op.NoFork := by
    refine .perform trivial fun r _ => ?_
    cases r with
    | some sp => trivial
    | none =>
      refine .perform trivial fun sp _ => ?_
      cases sp with
      | error err => trivial
      | ok sp => exact .perform trivial fun _ _ => trivial
  unfold sessionEnv
  split
  · refine hopen.bind fun r => ?_
    cases r <;> trivial
  · trivial

theorem noFork_finish {pid : Nat} : (finish o id pid).Performs A Op.NoFork := by
  refine .perform trivial fun code _ => ?_
  refine .perform trivial fun _ _ => ?_
  unfold onSessionExit
  split
  · refine Prog.Performs.bind ?_ fun _ => performs_perform.mpr trivial
    refine .perform trivial fun r _ => ?_
    cases r with
    | none => trivial
    | some sp => exact performs_perform.mpr trivial
  · exact performs_perform.mpr trivial

theorem performs_create {spec : Spec} : (create spec).Performs A (Op.Creates spec.id) := by
  refine .perform trivial fun found _ => ?_
  cases found with
  | true => trivial
  | false =>
    refine .perform rfl fun r _ => ?_
    cases r with
    | error err => trivial
    | ok pid =>
      refine .perform trivial fun won _ => ?_
      cases won with
      | true => trivial
      | false => exact .perform trivial fun _ _ => trivial

end Forks

end Lemul.Supervisor.Sessions
