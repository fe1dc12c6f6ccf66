import Lemul.MgmtApi.Access.Machine
import Lemul.MgmtApi.WorkspaceCrud
import Lemul.Tunnel.Envelope

/-!
# Who may use a workspace

`accessTo` and the `require` helpers (`workspaces.go:41-223`, `principal.go:231-281`), and
the handlers that change who may use a workspace or start something in it: create, PATCH,
the membership verbs, session create, endpoint negotiation and resume. A PATCH is one
without `policy`, whose columns are not in the cell. Log lines are left out, and so is
`OrgBySlug`: a request names its organization by both slug and id.
-/

namespace Lemul.MgmtApi.Access

open Store

/-- `scope` with the caller's role in the organization (`principal.go:42-51`). -/
structure OrgScope extends Scope where
  role : Role
  deriving DecidableEq, Repr

/-- `wsScope` (`workspaces.go:41-47`). -/
structure WsScope where
  scope : OrgScope
  ws : Workspace
  role : Role
  deriving DecidableEq, Repr

/-- `sessScope` (`workspaces.go:54-57`). -/
structure SessScope where
  wsScope : WsScope
  sess : Session
  deriving DecidableEq, Repr

/-- What a request is answered with. -/
inductive Answer where
  | refused (code : Nat) (body : GoString)
  | workspace (code : Nat) (ws : Workspace)
  | member (userID : GoString) (role : Role) (me : Bool)
  | noContent
  /-- `createSessionResponse`. -/
  | sessionCreated (id workspaceName : GoString)
  /-- `sessionStateResponse`, running. -/
  | sessionRunning (id workspaceID : GoString)
  /-- `endpointResponse`, with the transport `relay`. -/
  | endpoint (address credential mode : GoString)
  deriving DecidableEq, Repr

/-- Why a caller gets no standing in a workspace: `errNoWorkspace`, or a failed read. -/
inductive AccessError where
  | noWorkspace
  | failed
  deriving DecidableEq, Repr

def OrgScope.isOwner (sc : OrgScope) : Bool := sc.role = .owner

def WsScope.isOwner (a : WsScope) : Bool := a.role = .owner

/-- `isMine` (`workspaces.go:63`). -/
def SessScope.isMine (a : SessScope) : Bool := a.sess.userID = a.wsScope.scope.userID

/-- `isVisible` (`workspaces.go:70`). -/
def SessScope.isVisible (a : SessScope) : Bool := a.isMine || a.wsScope.isOwner

/-- `accessTo` (`workspaces.go:110-146`). -/
def accessTo (sc : OrgScope) (ws : Workspace) : Api (Except AccessError WsScope) :=
  if sc.isOwner then pure (.ok ⟨sc, ws, .owner⟩)
  else do
    match ← call (.getMembership ws.id sc.userID sc.tenantID) with
    -- an explicit membership row wins
    | .ok m => pure (.ok ⟨sc, ws, m.role⟩)
    | .error .notFound =>
        if ws.accessScope = .org then pure (.ok ⟨sc, ws, .user⟩) else pure (.error .noWorkspace)
    | .error _ => pure (.error .failed)

/-- `workspaceScope` (`workspaces.go:74-82`). -/
def workspaceScope (sc : OrgScope) (name : GoString) : Api (Except AccessError WsScope) := do
  match ← call (.getWorkspaceByName sc.tenantID name) with
  | .ok ws => accessTo sc ws
  | .error .notFound => pure (.error .noWorkspace)
  | .error _ => pure (.error .failed)

/-- `workspaceScopeByID` (`workspaces.go:89-102`). -/
def workspaceScopeByID (sc : OrgScope) (id : GoString) : Api (Except AccessError WsScope) := do
  match ← call (.getWorkspace sc.tenantID id) with
  | .ok ws => accessTo sc ws
  | .error .notFound => pure (.error .noWorkspace)
  | .error _ => pure (.error .failed)

/-- `requireOrg` (`principal.go:269-281`). -/
def requireOrg (sc : Scope) : Api (Except Answer OrgScope) := do
  match ← call (.getOrgMembership sc.tenantID sc.userID) with
  | .ok m => pure (.ok ⟨sc, m.role⟩)
  | .error .notFound => pure (.error (.refused 404 "no such organization"))
  | .error _ => pure (.error (.refused 500 "could not resolve the organization"))

/-- `requireWorkspace` (`workspaces.go:160-167`), with `writeWorkspaceError`. -/
def requireWorkspace (sc : Scope) (wid : GoString) : Api (Except Answer WsScope) := do
  match ← requireOrg sc with
  | .error e => pure (.error e)
  | .ok org =>
      match ← workspaceScope org wid with
      | .ok a => pure (.ok a)
      | .error .noWorkspace => pure (.error (.refused 404 "no such workspace"))
      | .error .failed => pure (.error (.refused 500 "could not resolve the workspace"))

/-- `requireWorkspaceOwner` (`workspaces.go:175-186`). -/
def requireWorkspaceOwner (sc : Scope) (wid : GoString) : Api (Except Answer WsScope) := do
  match ← requireWorkspace sc wid with
  | .error e => pure (.error e)
  | .ok a =>
      if a.isOwner then pure (.ok a)
      else
        pure (.error (.refused 403 ("this requires the owner role on workspace " ++ a.ws.name)))

/-- `requireSession` (`workspaces.go:191-223`). -/
def requireSession (sc : Scope) (sid : GoString) : Api (Except Answer SessScope) := do
  match ← requireOrg sc with
  | .error e => pure (.error e)
  | .ok org =>
      match ← call (.getSession org.tenantID sid) with
      | .error _ => pure (.error (.refused 404 "no such session"))
      | .ok sess =>
          match ← workspaceScopeByID org sess.workspaceID with
          | .error .noWorkspace => pure (.error (.refused 404 "no such session"))
          | .error .failed =>
              pure (.error (.refused 500 "could not resolve the session"))
          | .ok a =>
              if (⟨a, sess⟩ : SessScope).isVisible then pure (.ok ⟨a, sess⟩)
              else pure (.error (.refused 404 "no such session"))

/-! ## Creating and rescoping -/

/-- `mayCreateWorkspace` (`orgsettings.go:66-89`): the refusal, if there is one. -/
def mayCreateWorkspace (sc : OrgScope) : Api (Option Answer) :=
  if sc.isOwner then pure none
  else do
    match ← call (.readOrgSettings sc.tenantID) with
    | .error _ => pure (some (.refused 500 "could not read the organization settings"))
    | .ok true => pure none
    | .ok false =>
        pure (some (.refused 403 ("only an owner of " ++ sc.orgSlug ++
          str (" may create workspaces here; " ++
            "an owner can allow this under the organization's settings"))))

/-- The loop of `createGeneratedWorkspace` (`workspacecrud.go:160-178`). -/
def createGenerated (sc : OrgScope) (access : AccessScope) (generate : Nat → GoString) :
    Nat → Api (Except TxError Workspace)
  | 0 => pure (.error .uniqueViolation)
  | n + 1 => do
      match ← call (.createWorkspace sc.tenantID (generate n) sc.userID access) with
      | .ok ws => pure (.ok ws)
      | .error .uniqueViolation => createGenerated sc access generate n
      | .error e => pure (.error e)

/-- The end of a create: place the task and answer 202. -/
def created (ws : Workspace) : Api Answer := do
  let _ ← call (.outside .startPlacement)
  pure (.workspace 202 ws)

/-- `handleCreateWorkspace` (`workspacecrud.go:83-149`). -/
def handleCreateWorkspace (sc : Scope) (access : GoString) (name : NameField)
    (generate : Nat → GoString) : Api Answer := do
  match ← requireOrg sc with
  | .error e => pure e
  | .ok org =>
      match ← mayCreateWorkspace org with
      | some e => pure e
      | none =>
          match parseAccessScope (if access = [] then "owner" else access) with
          | none =>
              pure (.refused 400 "\"access_scope\" must be one of: owner, members, org")
          | some scope =>
              match name with
              | .absent =>
                  pure (.refused 400 "\"name\" is required; send null to have one generated")
              | .null => do
                  match ← createGenerated org scope generate nameAttempts with
                  | .error _ => pure (.refused 500 "could not create the workspace")
                  | .ok ws => created ws
              | .value n =>
                  match validWorkspaceName n with
                  | some e => pure (.refused 400 e)
                  | none => do
                      match ← call (.createWorkspace org.tenantID n org.userID scope) with
                      | .error .uniqueViolation =>
                          pure (.refused 409 ("a workspace called " ++ n ++ " already exists here"))
                      | .error _ => pure (.refused 500 "could not create the workspace")
                      | .ok ws => created ws

/-- The end of `handleRenameWorkspace` (`workspacecrud.go:340-369`), once the access scope
has been dealt with. -/
def renamed (a : WsScope) (ws : Workspace) (name : GoString) : Api Answer :=
  if name = [] ∨ name = ws.name then pure (.workspace 200 ws)
  else do
    match ← call (.outside .pickWorkspace) with
    | .ok _ =>
        pure (.refused 409 (str ("this workspace has a running task, and everything outside " ++
          "the database addresses it by name; stop its sessions and let the task go before " ++
          "renaming")))
    | .error _ =>
        if ws.status ≠ .stopped then
          pure (.refused 409 ("this workspace is " ++ statusText ws.status ++
            "; renaming is only safe while it is stopped"))
        else do
          match ← call (.renameWorkspace a.scope.tenantID ws.id name) with
          | .error .uniqueViolation =>
              pure (.refused 409 ("a workspace called " ++ name ++ " already exists here"))
          | .error _ => pure (.refused 500 "could not rename the workspace")
          | .ok ws => pure (.workspace 200 ws)

/-- `handleRenameWorkspace` (`workspacecrud.go:279-369`): a PATCH of the name, the access
scope or both. Everything is validated before anything is applied. -/
def handleRenameWorkspace (sc : Scope) (wid name access : GoString) : Api Answer := do
  match ← requireWorkspaceOwner sc wid with
  | .error e => pure e
  | .ok a =>
      if name = [] ∧ access = [] then
        pure (.refused 400 "send \"name\", \"access_scope\", \"policy\", or any combination")
      else
        match (if name = [] then none else validWorkspaceName name) with
        | some e => pure (.refused 400 e)
        | none =>
            if access = [] then renamed a a.ws name
            else
              match parseAccessScope access with
              | none =>
                  pure (.refused 400 "\"access_scope\" must be one of: owner, members, org")
              | some scope =>
                  if scope = a.ws.accessScope then renamed a a.ws name
                  else do
                    match ← call (.setAccessScope a.scope.tenantID a.ws.id scope) with
                    | .error _ => pure (.refused 500 "could not change the access scope")
                    | .ok ws => renamed a ws name

/-! ## Members -/

/-- The role a PUT asks for (`members.go:129-136`); empty means `user`. -/
def parseRole (role : GoString) : Option Role :=
  if role = [] ∨ role = "user" then some .user
  else if role = "owner" then some .owner
  else none

/-- `handlePutWorkspaceMember` (`members.go:116-162`). `body` is the role the request sent,
if its body could be read. -/
def handlePutWorkspaceMember (sc : Scope) (wid userID : GoString) (body : Option GoString) :
    Api Answer := do
  match ← requireWorkspaceOwner sc wid with
  | .error e => pure e
  | .ok a =>
      match body with
      | none => pure (.refused 400 "bad request")
      | some sent =>
          match parseRole sent with
          | none => pure (.refused 400 "role must be owner or user")
          | some role =>
              match ← call (.putMember a.scope.tenantID a.ws.id userID role) with
              | .error .notFound =>
                  pure (.refused 404 (str ("that user is not a member of this organization; " ++
                    "invite them to it first")))
              | .error _ => pure (.refused 500 "could not add the member")
              | .ok _ => pure (.member userID role (userID = a.scope.userID))

/-- `handleDeleteWorkspaceMember` (`members.go:170-200`). -/
def handleDeleteWorkspaceMember (sc : Scope) (wid userID : GoString) : Api Answer := do
  match ← requireWorkspaceOwner sc wid with
  | .error e => pure e
  | .ok a =>
      if userID = a.ws.ownerUserID then
        pure (.refused 409 "this is the workspace's owner, who cannot be removed from it")
      else
        match ← call (.removeMember a.scope.tenantID a.ws.id userID) with
        | .error _ => pure (.refused 500 "could not remove the member")
        | .ok _ => pure .noContent

/-! ## Sessions -/

/-- What `err.Error()` says where a session could not be recorded. -/
def errorText : TxError → GoString
  | .notFound => "no rows in result set"
  | .uniqueViolation =>
      str ("ERROR: duplicate key value violates unique constraint \"session_pkey\" " ++
        "(SQLSTATE 23505)")
  | .other message => message

/-- `handleCreateSession` (`api.go:41-96`). -/
def handleCreateSession (sc : Scope) (wid : GoString) : Api Answer := do
  match ← requireWorkspace sc wid with
  | .error e => pure e
  | .ok a =>
      match ← call (.outside .admitSession) with
      | .error reason => pure (.refused 503 reason)
      | .ok _ =>
          match ← call (.outside .ensureWorkspace) with
          | .error e => pure (.refused 503 e)
          | .ok _ =>
              match ← call (.outside .checkPreflight) with
              | .error e => pure (.refused 424 e)
              | .ok _ =>
                  match ← call (.createSession a.scope.tenantID a.ws.id a.scope.userID) with
                  | .error e => pure (.refused 500 (errorText e))
                  | .ok sess => pure (.sessionCreated sess.id a.ws.name)

/-- `memberIdentity` (`sessionidentity.go:49-53`). -/
structure MemberIdentity where
  uid : Nat
  username : GoString
  home : GoString
  deriving DecidableEq, Repr

/-- `uidBase` (`sessionidentity.go:36`). -/
def uidBase : Nat := 2000

/-- `unixName` (`sessionidentity.go:140`). -/
def unixName (uid : Nat) : GoString := "lem" ++ decimal uid

/-- What `resolveIdentity` makes of the row (`sessionidentity.go:117-131`). -/
def identityOf (ws : Workspace) (userID : GoString) (row : WorkspaceMember) :
    Except GoString MemberIdentity :=
  match row.uid with
  | none =>
      .error ("no uid allocated for user " ++ userID ++ " in workspace " ++ ws.name)
  | some uid =>
      if uid < uidBase then
        .error ("uid " ++ decimal uid ++ " is below the reserved floor " ++ decimal uidBase)
      else .ok ⟨uid, unixName uid, "/workspace/homes/" ++ unixName uid⟩

/-- `prepareSession` (`sessionidentity.go:184-191`), with `resolveIdentity` of `userID`, who
is the session's owner and not the caller. The announcement may fail. -/
def prepareSession (a : WsScope) (userID : GoString) : Api Bool := do
  match ← call (.resolveIdentity a.scope.tenantID a.ws.id userID) with
  | .error _ => pure false
  | .ok row =>
      match identityOf a.ws userID row with
      | .error _ => pure false
      | .ok _ => do
          let _ ← call (.outside .announceIdentity)
          pure true

/-- `clientURL` (`api.go:641-649`). -/
def clientURL (cfg : Config) (host : GoString) : GoString :=
  if cfg.relayURL ≠ [] then cfg.relayURL
  else if cfg.agentURL ≠ [] then cfg.agentURL
  else "ws://" ++ host

/-- `handleEndpoint` (`api.go:536-624`). `query` is the mode the client asked for. -/
def handleEndpoint (cfg : Config) (sc : Scope) (sid query host : GoString) : Api Answer := do
  match ← requireSession sc sid with
  | .error e => pure e
  | .ok a =>
      let mode := if query = modeViewer then modeViewer else modeControl
      -- reaching this with another's session means owning the workspace
      if !a.isMine && mode ≠ modeViewer then
        pure (.refused 403 "this session belongs to another user; attach with --viewer to watch it")
      else
        match ← call (.outside .ensureWorkspace) with
        | .error e => pure (.refused 503 e)
        | .ok _ =>
            match ← call (.outside .checkPreflight) with
            | .error e => pure (.refused 424 e)
            | .ok _ =>
                if ← prepareSession a.wsScope a.sess.userID then
                  let org := a.wsScope.scope
                  match ← call (.attachToken org.userID a.sess.id org.tenantID a.wsScope.ws.name
                    org.orgSlug mode) with
                  | .error e => pure (.refused 500 e)
                  | .ok (random, now) =>
                      let credential := cfg.signer.attachToken a.sess.id org.tenantID
                        a.wsScope.ws.name org.orgSlug mode Creds.attachTTL random now
                      pure (.endpoint (clientURL cfg host ++ "/v1/sessions/" ++ a.sess.id ++
                        "/attach") credential mode)
                else pure (.refused 500 "could not resolve who this session runs as")

/-- `handleResumeSession` (`lifecycle.go:148-212`). -/
def handleResumeSession (sc : Scope) (sid : GoString) : Api Answer := do
  match ← requireSession sc sid with
  | .error e => pure e
  | .ok a =>
      match ← call (.outside .ensureWorkspace) with
      | .error e => pure (.refused 503 e)
      | .ok _ =>
          match ← call (.outside .checkPreflight) with
          | .error e => pure (.refused 424 e)
          | .ok _ =>
              if ← prepareSession a.wsScope a.sess.userID then
                match ← call (.startSession a.sess.id) with
                | .error e => pure (.refused 503 e)
                | .ok (.error message) => pure (.refused 409 message)
                | .ok (.ok _) => pure (.sessionRunning a.sess.id a.sess.workspaceID)
              else pure (.refused 500 "could not resolve who this session runs as")

/-! ## The system -/

/-- A request, with the caller it was authenticated as. -/
inductive Request where
  | createWorkspace (sc : Scope) (access : GoString) (name : NameField)
      (generate : Nat → GoString)
  | patchWorkspace (sc : Scope) (wid name access : GoString)
  | putMember (sc : Scope) (wid userID : GoString) (body : Option GoString)
  | deleteMember (sc : Scope) (wid userID : GoString)
  | createSession (sc : Scope) (wid : GoString)
  | endpoint (sc : Scope) (sid mode host : GoString)
  | resume (sc : Scope) (sid : GoString)

/-- The handler a request is routed to. -/
def handler (cfg : Config) : Request → Api Answer
  | .createWorkspace sc access name generate => handleCreateWorkspace sc access name generate
  | .patchWorkspace sc wid name access => handleRenameWorkspace sc wid name access
  | .putMember sc wid userID body => handlePutWorkspaceMember sc wid userID body
  | .deleteMember sc wid userID => handleDeleteWorkspaceMember sc wid userID
  | .createSession sc wid => handleCreateSession sc wid
  | .endpoint sc sid mode host => handleEndpoint cfg sc sid mode host
  | .resume sc sid => handleResumeSession sc sid

/-- What happens in a run, in order. -/
abbrev Schedule := List (Label Op Res EnvMove Request)

/-- Any number of requests, interleaved transaction by transaction. -/
def system (cfg : Config) : System Op Res State EnvMove Request Answer where
  toMachine := machine
  spawn q _ := some (handler cfg q)

end Lemul.MgmtApi.Access
