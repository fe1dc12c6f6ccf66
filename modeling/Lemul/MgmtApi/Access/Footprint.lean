import Lemul.MgmtApi.Access.Handlers

/-!
# Which handler performs what

The checks only look; of what changes the cell or hands something out, each handler performs
its own. A property of the text of the handlers (`workspacecrud.go`, `members.go`, `api.go`,
`lifecycle.go`), whatever they are answered.
-/

namespace Lemul.MgmtApi.Access

open Store Prog

/-- Nothing is asked of an answer. -/
def AnyAnswer (o : Op) (_ : Res o) : Prop := True

/-- Operations that read the cell. -/
def Looks : Op → Prop
  | .getOrgMembership _ _ => True
  | .getWorkspaceByName _ _ => True
  | .getWorkspace _ _ => True
  | .getMembership _ _ _ => True
  | .getSession _ _ => True
  | .readOrgSettings _ => True
  | _ => False

/-- What the handler of a request may perform. -/
def MayPerform (q : Request) : Op → Prop
  | .createWorkspace _ _ _ _ =>
      ∃ sc access name generate, q = .createWorkspace sc access name generate
  | .setAccessScope _ _ _ => ∃ sc wid name access, q = .patchWorkspace sc wid name access
  | .renameWorkspace _ _ _ => ∃ sc wid name access, q = .patchWorkspace sc wid name access
  | .putMember _ _ userID _ => ∃ sc wid body, q = .putMember sc wid userID body
  | .removeMember _ _ userID => ∃ sc wid, q = .deleteMember sc wid userID
  | .createSession _ _ _ => ∃ sc wid, q = .createSession sc wid
  | .resolveIdentity _ _ _ =>
      (∃ sc sid mode host, q = .endpoint sc sid mode host) ∨ ∃ sc sid, q = .resume sc sid
  | .startSession _ => ∃ sc sid, q = .resume sc sid
  | .attachToken userID _ _ _ _ _ =>
      ∃ sc sid mode host, q = .endpoint sc sid mode host ∧ sc.userID = userID
  | _ => True

theorem Looks.mayPerform {q : Request} (o : Op) (h : Looks o) : MayPerform q o := by
  cases o <;> trivial

/-- The program only looks. -/
abbrev LooksOnly {α : Type} (p : Api α) : Prop := p.Performs AnyAnswer Looks

/-! ## The checks -/

section Checks

variable {sc : OrgScope}

theorem accessTo_looks (ws : Workspace) : LooksOnly (accessTo sc ws) := by
  unfold accessTo
  split
  · trivial
  · refine .perform trivial fun r _ => ?_
    rcases r with (_ | _ | _) | m
    · dsimp only
      split <;> trivial
    all_goals trivial

theorem workspaceScope_looks (name : GoString) : LooksOnly (workspaceScope sc name) := by
  refine .perform trivial fun r _ => ?_
  rcases r with (_ | _ | _) | ws
  · trivial
  · trivial
  · trivial
  · exact accessTo_looks ws

theorem workspaceScopeByID_looks (id : GoString) : LooksOnly (workspaceScopeByID sc id) := by
  refine .perform trivial fun r _ => ?_
  rcases r with (_ | _ | _) | ws
  · trivial
  · trivial
  · trivial
  · exact accessTo_looks ws

theorem requireOrg_looks (sc : Scope) : LooksOnly (requireOrg sc) := by
  refine .perform trivial fun r _ => ?_
  rcases r with (_ | _ | _) | m <;> trivial

theorem requireWorkspace_looks (sc : Scope) (wid : GoString) :
    LooksOnly (requireWorkspace sc wid) := by
  refine (requireOrg_looks sc).bind fun org => ?_
  rcases org with e | org
  · trivial
  · refine (workspaceScope_looks wid).bind fun found => ?_
    rcases found with (_ | _) | a <;> trivial

theorem requireWorkspaceOwner_looks (sc : Scope) (wid : GoString) :
    LooksOnly (requireWorkspaceOwner sc wid) := by
  refine (requireWorkspace_looks sc wid).bind fun found => ?_
  rcases found with e | a
  · trivial
  · dsimp only
    split <;> trivial

theorem requireSession_looks (sc : Scope) (sid : GoString) : LooksOnly (requireSession sc sid) := by
  refine (requireOrg_looks sc).bind fun org => ?_
  rcases org with e | org
  · trivial
  · refine .perform trivial fun r _ => ?_
    rcases r with e | sess
    · trivial
    · refine (workspaceScopeByID_looks sess.workspaceID).bind fun found => ?_
      rcases found with (_ | _) | a
      · trivial
      · trivial
      · dsimp only
        split <;> trivial

theorem mayCreateWorkspace_looks : LooksOnly (mayCreateWorkspace sc) := by
  unfold mayCreateWorkspace
  split
  · trivial
  · refine .perform trivial fun r _ => ?_
    rcases r with e | _ | _ <;> trivial

end Checks

/-! ## What the checks hand on -/

theorem accessTo_scope (sc : OrgScope) (ws : Workspace) :
    (accessTo sc ws).Returns fun r => ∀ a, r = .ok a → a.scope = sc := by
  unfold accessTo
  split
  · rintro a ⟨⟩
    rfl
  · intro r
    rcases r with (_ | _ | _) | m
    · dsimp only
      split <;> rintro a ⟨⟩
      rfl
    · exact nofun
    · rintro a ⟨⟩
    · rintro a ⟨⟩
      rfl

theorem workspaceScopeByID_scope (sc : OrgScope) (id : GoString) :
    (workspaceScopeByID sc id).Returns fun r => ∀ a, r = .ok a → a.scope = sc := by
  intro r
  rcases r with (_ | _ | _) | ws
  · exact nofun
  · exact nofun
  · exact nofun
  · exact accessTo_scope sc ws

theorem requireOrg_scope (sc : Scope) :
    (requireOrg sc).Returns fun r => ∀ org, r = .ok org → org.toScope = sc := by
  intro r
  rcases r with (_ | _ | _) | m
  · exact nofun
  · exact nofun
  · rintro org ⟨⟩
  · rintro org ⟨⟩
    rfl

/-- Who `requireSession` lets through is the caller. -/
theorem requireSession_scope (sc : Scope) (sid : GoString) :
    (requireSession sc sid).Returns fun r => ∀ a, r = .ok a → a.wsScope.scope.toScope = sc := by
  refine (requireOrg_scope sc).bind fun org horg => ?_
  rcases org with e | org
  · exact nofun
  · intro r
    rcases r with e | sess
    · exact nofun
    · refine (workspaceScopeByID_scope org sess.workspaceID).bind fun found hfound => ?_
      rcases found with (_ | _) | a
      · exact nofun
      · exact nofun
      · dsimp only
        split
        · rintro b ⟨⟩
          rw [hfound a rfl]
          exact horg org rfl
        · exact nofun

/-! ## The handlers -/

section Handlers

variable {q : Request}

/-- A check before anything else is performed. -/
theorem performs_check {α β : Type} {p : Api α} {f : α → Api β} (hp : LooksOnly p)
    (hf : ∀ a, (f a).Performs AnyAnswer (MayPerform q)) :
    (p >>= f).Performs AnyAnswer (MayPerform q) :=
  (hp.mono Looks.mayPerform).bind hf

theorem createGenerated_performs {sc : OrgScope} (hq : ∃ sc access name generate,
    q = .createWorkspace sc access name generate) (access : AccessScope)
    (generate : Nat → GoString) (n : Nat) :
    (createGenerated sc access generate n).Performs AnyAnswer (MayPerform q) := by
  induction n with
  | zero => trivial
  | succ n ih =>
    refine .perform hq fun r _ => ?_
    rcases r with (_ | _ | _) | ws
    · trivial
    · exact ih
    · trivial
    · trivial

theorem created_performs (ws : Workspace) : (created ws).Performs AnyAnswer (MayPerform q) :=
  ⟨trivial, fun _ _ => trivial⟩

theorem handleCreateWorkspace_performs (sc : Scope) (access : GoString) (name : NameField)
    (generate : Nat → GoString) :
    (handleCreateWorkspace sc access name generate).Performs AnyAnswer
      (MayPerform (.createWorkspace sc access name generate)) := by
  refine performs_check (requireOrg_looks sc) fun org => ?_
  rcases org with e | org
  · trivial
  · refine performs_check mayCreateWorkspace_looks fun refused => ?_
    rcases refused with _ | e
    · dsimp only
      split
      · trivial
      · cases name with
        | absent => trivial
        | null =>
          refine (createGenerated_performs ⟨_, _, _, _, rfl⟩ _ generate nameAttempts).bind
            fun ws => ?_
          rcases ws with e | ws
          · trivial
          · exact created_performs ws
        | value n =>
          dsimp only
          split
          · trivial
          · refine .perform ⟨_, _, _, _, rfl⟩ fun r _ => ?_
            rcases r with (_ | _ | _) | ws
            · trivial
            · trivial
            · trivial
            · exact created_performs ws
    · trivial

theorem renamed_performs {a : WsScope}
    (hq : ∃ sc wid name access, q = .patchWorkspace sc wid name access) (ws : Workspace)
    (name : GoString) : (renamed a ws name).Performs AnyAnswer (MayPerform q) := by
  unfold renamed
  split
  · trivial
  · refine .perform trivial fun r _ => ?_
    rcases r with e | _
    · dsimp only
      split
      · trivial
      · refine .perform hq fun r _ => ?_
        rcases r with (_ | _ | _) | ws <;> trivial
    · trivial

theorem handleRenameWorkspace_performs (sc : Scope) (wid name access : GoString) :
    (handleRenameWorkspace sc wid name access).Performs AnyAnswer
      (MayPerform (.patchWorkspace sc wid name access)) := by
  refine performs_check (requireWorkspaceOwner_looks sc wid) fun found => ?_
  rcases found with e | a
  · trivial
  · dsimp only
    split
    · trivial
    · split
      · trivial
      · split
        · exact renamed_performs ⟨_, _, _, _, rfl⟩ _ _
        · split
          · trivial
          · split
            · exact renamed_performs ⟨_, _, _, _, rfl⟩ _ _
            · refine .perform ⟨_, _, _, _, rfl⟩ fun r _ => ?_
              rcases r with e | ws
              · trivial
              · exact renamed_performs ⟨_, _, _, _, rfl⟩ _ _

theorem handlePutWorkspaceMember_performs (sc : Scope) (wid userID : GoString)
    (body : Option GoString) :
    (handlePutWorkspaceMember sc wid userID body).Performs AnyAnswer
      (MayPerform (.putMember sc wid userID body)) := by
  refine performs_check (requireWorkspaceOwner_looks sc wid) fun found => ?_
  rcases found with e | a
  · trivial
  · cases body with
    | none => trivial
    | some sent =>
      dsimp only
      split
      · trivial
      · refine .perform ⟨_, _, _, rfl⟩ fun r _ => ?_
        rcases r with (_ | _ | _) | _ <;> trivial

theorem handleDeleteWorkspaceMember_performs (sc : Scope) (wid userID : GoString) :
    (handleDeleteWorkspaceMember sc wid userID).Performs AnyAnswer
      (MayPerform (.deleteMember sc wid userID)) := by
  refine performs_check (requireWorkspaceOwner_looks sc wid) fun found => ?_
  rcases found with e | a
  · trivial
  · dsimp only
    split
    · trivial
    · refine .perform ⟨_, _, rfl⟩ fun r _ => ?_
      rcases r with e | _ <;> trivial

theorem handleCreateSession_performs (sc : Scope) (wid : GoString) :
    (handleCreateSession sc wid).Performs AnyAnswer (MayPerform (.createSession sc wid)) := by
  refine performs_check (requireWorkspace_looks sc wid) fun found => ?_
  rcases found with e | a
  · trivial
  · refine .perform trivial fun r _ => ?_
    rcases r with e | _
    · trivial
    · refine .perform trivial fun r _ => ?_
      rcases r with e | _
      · trivial
      · refine .perform trivial fun r _ => ?_
        rcases r with e | _
        · trivial
        · refine .perform ⟨_, _, rfl⟩ fun r _ => ?_
          rcases r with e | sess <;> trivial

/-- What starting a session performs: a uid is allocated and announced. -/
def Prepares : Op → Prop
  | .resolveIdentity _ _ _ => True
  | .outside _ => True
  | _ => False

theorem prepareSession_performs (a : WsScope) (userID : GoString) :
    (prepareSession a userID).Performs AnyAnswer Prepares := by
  refine .perform trivial fun r _ => ?_
  rcases r with e | row
  · trivial
  · dsimp only
    split
    · trivial
    · exact ⟨trivial, fun _ _ => trivial⟩

theorem Prepares.mayPerform (hq : (∃ sc sid mode host, q = .endpoint sc sid mode host) ∨
    ∃ sc sid, q = .resume sc sid) (o : Op) (h : Prepares o) : MayPerform q o := by
  cases o <;> trivial

theorem handleEndpoint_performs (cfg : Config) (sc : Scope) (sid query host : GoString) :
    (handleEndpoint cfg sc sid query host).Performs AnyAnswer
      (MayPerform (.endpoint sc sid query host)) := by
  refine ((requireSession_looks sc sid).mono Looks.mayPerform).bind_returns
    (requireSession_scope sc sid) fun found hfound => ?_
  rcases found with e | a
  · trivial
  · dsimp only
    generalize (if query = modeViewer then modeViewer else modeControl) = mode
    split
    · trivial
    · refine .perform trivial fun r _ => ?_
      rcases r with e | _
      · trivial
      · refine .perform trivial fun r _ => ?_
        rcases r with e | _
        · trivial
        · refine ((prepareSession_performs a.wsScope a.sess.userID).mono
            (Prepares.mayPerform (.inl ⟨_, _, _, _, rfl⟩))).bind fun ready => ?_
          cases ready with
          | false => trivial
          | true =>
            have hcaller : sc.userID = a.wsScope.scope.userID := by rw [← hfound a rfl]
            refine .perform ⟨sc, sid, query, host, rfl, hcaller⟩ ?_
            rintro (e | ⟨random, now⟩) _ <;> trivial

theorem handleResumeSession_performs (sc : Scope) (sid : GoString) :
    (handleResumeSession sc sid).Performs AnyAnswer (MayPerform (.resume sc sid)) := by
  refine performs_check (requireSession_looks sc sid) fun found => ?_
  rcases found with e | a
  · trivial
  · refine .perform trivial fun r _ => ?_
    rcases r with e | _
    · trivial
    · refine .perform trivial fun r _ => ?_
      rcases r with e | _
      · trivial
      · refine ((prepareSession_performs a.wsScope a.sess.userID).mono
          (Prepares.mayPerform (.inr ⟨_, _, rfl⟩))).bind fun ready => ?_
        cases ready with
        | false => trivial
        | true =>
          refine .perform ⟨_, _, rfl⟩ fun r _ => ?_
          rcases r with e | e | _ <;> trivial

end Handlers

/-- Every handler performs its own. -/
theorem handler_performs (cfg : Config) (q : Request) :
    (handler cfg q).Performs AnyAnswer (MayPerform q) := by
  cases q with
  | createWorkspace sc access name generate =>
    exact handleCreateWorkspace_performs sc access name generate
  | patchWorkspace sc wid name access => exact handleRenameWorkspace_performs sc wid name access
  | putMember sc wid userID body => exact handlePutWorkspaceMember_performs sc wid userID body
  | deleteMember sc wid userID => exact handleDeleteWorkspaceMember_performs sc wid userID
  | createSession sc wid => exact handleCreateSession_performs sc wid
  | endpoint sc sid mode host => exact handleEndpoint_performs cfg sc sid mode host
  | resume sc sid => exact handleResumeSession_performs sc sid

end Lemul.MgmtApi.Access
