import Lemul.MgmtApi.Access.Footprint
import Lemul.MgmtApi.Proofs.AccessScope

/-!
# The owner's own row

`createWorkspace` writes the owner a row with the owner role (`state.go:70-98`),
`resolveIdentity` leaves existing rows alone (`sessionidentity.go:68-131`), and
`handleDeleteWorkspaceMember` refuses to remove the owner (`members.go:170-180`).
`handlePutWorkspaceMember` does not look whom it is about (`members.go:116-162`): it gives the
owner the role `user` as it would anybody, and that is the role an empty body asks for.

In the runs without such a PUT every workspace keeps its owner's row.
-/

namespace Lemul.MgmtApi.Access

open Store System.Outline Workspaces Lemul.System

/-- The role `user` is given only to somebody who is not the workspace's owner. -/
def sparesOwner (s : State) : Label Op Res EnvMove Request → Prop
  | .thread _ (.putMember _ workspaceID userID .user) _ =>
      ∀ w ∈ s.cell.workspaces.rows, w.id = workspaceID → w.ownerUserID ≠ userID
  | _ => True

instance (s : State) (l : Label Op Res EnvMove Request) : Decidable (sparesOwner s l) := by
  induction l using Label.casesOn with
  | thread tid o r =>
    induction o using Op.casesOn with
    | putMember tenantID workspaceID userID role =>
      induction role using Role.casesOn <;> dsimp only [sparesOwner] <;> infer_instance
    | _ => exact isTrue trivial
  | _ => exact isTrue trivial

/-- The row of a workspace's owner, with the owner role. -/
def IsOwnerRow (w : Workspace) (m : WorkspaceMember) : Prop :=
  m.workspaceID = w.id ∧ m.userID = w.ownerUserID ∧ m.tenantID = w.tenantID ∧ m.role = .owner

/-- Every workspace has its owner's row. -/
def OwnersKept (c : Cell) : Prop :=
  ∀ w ∈ c.workspaces.rows, ∃ m ∈ c.members.rows, IsOwnerRow w m

/-- What a removal asks for: it is not of the owner. -/
def mayRemove (s : State) : Op → Prop
  | .removeMember _ workspaceID userID =>
      ∀ w ∈ s.cell.workspaces.rows, w.id = workspaceID → w.ownerUserID ≠ userID
  | _ => True

/-- A workspace that was read is still there, with its owner. -/
def Recorded (ws : Workspace) (s : State) : Prop :=
  ∃ w ∈ s.cell.workspaces.rows, SameRecord ws w

theorem SameRecord.refl (w : Workspace) : SameRecord w w := ⟨rfl, rfl, rfl⟩

theorem SameRecord.trans {u v w : Workspace} (h₁ : SameRecord u v) (h₂ : SameRecord v w) :
    SameRecord u w := ⟨h₁.1.trans h₂.1, h₁.2.1.trans h₂.2.1, h₁.2.2.trans h₂.2.2⟩

/-! ## One step -/

section Step

variable {c c' : Cell} {s s' : State} {o : Op}

theorem IsOwnerRow.of_sameRecord {v w : Workspace} {m : WorkspaceMember} (h : IsOwnerRow v m)
    (hsame : SameRecord v w) : IsOwnerRow w m := by
  obtain ⟨hid, htenant, howner⟩ := hsame
  obtain ⟨hm, hu, ht, hrole⟩ := h
  exact ⟨hm.trans hid, hu.trans howner, ht.trans htenant, hrole⟩

/-- Rows of workspaces that are only rewritten, and rows of owners that are kept. -/
theorem OwnersKept.of_kept (h : OwnersKept c)
    (hw : RowsKept SameRecord c.workspaces c'.workspaces)
    (hm : ∀ w ∈ c.workspaces.rows, ∀ m ∈ c.members.rows, IsOwnerRow w m →
      ∃ m' ∈ c'.members.rows, IsOwnerRow w m') : OwnersKept c' := by
  intro w hrow
  obtain ⟨v, hv, hsame⟩ := hw.back w hrow
  obtain ⟨m, hmem, howner⟩ := h v hv
  obtain ⟨m', hm', howner'⟩ := hm v hv m hmem howner
  exact ⟨m', hm', howner'.of_sameRecord hsame⟩

/-- A workspace that is created gets its owner's row, since no row is about it yet. -/
theorem ownersKept_created (h : OwnersKept c) {w : Workspace}
    (hcreate : c.workspaces.createWorkspace w = some c'.workspaces)
    (hmembers : c'.members = c.members.addMember w.id w.ownerUserID w.tenantID .owner) :
    OwnersKept c' := by
  have hfresh : ∀ v ∈ c.workspaces.rows, v.id ≠ w.id := by
    intro v hv hid
    unfold createWorkspace at hcreate
    split at hcreate
    · cases hcreate
    · rename_i hnone
      exact hnone ⟨v, hv, .inl hid⟩
  intro v hv
  rw [hmembers]
  rw [createWorkspace_rows hcreate] at hv
  rcases mem_concat.mp hv with hold | rfl
  · obtain ⟨m, hm, hid, huser, htenant, hrole⟩ := h v hold
    obtain ⟨m', hm', hid', huser', htenant', hrole'⟩ := Members.kept_addMember hm
    refine ⟨m', hm', hid'.trans hid, huser'.trans huser, htenant'.trans htenant, ?_⟩
    rcases hrole' with hkept | ⟨-, hgiven⟩
    · exact hkept.trans hrole
    · exact hgiven
  · refine ⟨_, Members.mem_addMember_new ?_, rfl, rfl, rfl, rfl⟩
    rintro ⟨m, hm, hkey⟩
    obtain ⟨v, hv, hid⟩ := c.member_workspace m hm
    exact hfresh v hv (hid.trans (WorkspaceMember.hasKey_iff.mp hkey).1)

/-- A change keeps the rows of the workspaces, and adds to them. -/
theorem Change.recorded (h : Change s s' o) :
    ∀ v ∈ s.cell.workspaces.rows, ∃ w ∈ s'.cell.workspaces.rows, SameRecord v w := by
  intro v hv
  cases h with
  | none hworkspaces hmembers | put hmembers hworkspaces | removed hmembers hworkspaces =>
    exact ⟨v, hworkspaces ▸ hv, .refl v⟩
  | created hcreate hmembers =>
    rw [createWorkspace_rows hcreate]
    exact ⟨v, List.mem_append_left _ hv, .refl v⟩
  | rescoped hrows hmembers | renamed hrows hmembers =>
    exact (rowsKept_rewrite hrows .refl fun _ => ⟨rfl, rfl, rfl⟩).forth v hv
  | resolved htx => exact (resolveIdentityTx_ok htx).2.1.forth v hv

/-- Every change but a PUT of the role `user` and a removal keeps the rows of the owners; those
two keep them if they are not about an owner. -/
theorem ownersKept_change {tid : Nat} {r : Res o} (h : OwnersKept s.cell)
    (hpre : mayRemove s o) (hcond : sparesOwner s (.thread tid o r))
    (hchange : Change s s' o) : OwnersKept s'.cell := by
  cases hchange with
  | none hworkspaces hmembers =>
    refine h.of_kept (hworkspaces ▸ .refl .refl _) fun _ _ m hm howner => ?_
    exact ⟨m, hmembers ▸ hm, howner⟩
  | created hcreate hmembers => exact ownersKept_created h hcreate hmembers
  | rescoped hrows hmembers | renamed hrows hmembers =>
    refine h.of_kept (rowsKept_rewrite hrows .refl fun _ => ⟨rfl, rfl, rfl⟩) ?_
    exact fun _ _ m hm howner => ⟨m, hmembers ▸ hm, howner⟩
  | @put tenantID workspaceID userID role hmembers hworkspaces =>
    refine h.of_kept (hworkspaces ▸ .refl .refl _) fun w hw m hm howner => ?_
    obtain ⟨hid, huser, htenant, hrole⟩ := howner
    obtain ⟨m', hm', hid', huser', htenant', hrole'⟩ := Members.kept_addMember hm
    rw [hmembers]
    refine ⟨m', hm', hid'.trans hid, huser'.trans huser, htenant'.trans htenant, ?_⟩
    rcases hrole' with hkept | ⟨hkey, hgiven⟩
    · exact hkept.trans hrole
    · cases role with
      | owner => exact hgiven
      | user =>
        obtain ⟨hkeyid, hkeyuser⟩ := WorkspaceMember.hasKey_iff.mp hkey
        exact absurd (huser.symm.trans hkeyuser) (hcond w hw (hid.symm.trans hkeyid))
  | removed hmembers hworkspaces =>
    refine h.of_kept (hworkspaces ▸ .refl .refl _) fun w hw m hm howner => ?_
    rw [hmembers]
    refine ⟨m, Members.mem_removeMember.mpr ⟨hm, ?_⟩, howner⟩
    rintro ⟨hkey, -⟩
    obtain ⟨hkeyid, hkeyuser⟩ := WorkspaceMember.hasKey_iff.mp hkey
    exact hpre w hw (howner.1.symm.trans hkeyid) (howner.2.1.symm.trans hkeyuser)
  | resolved htx =>
    obtain ⟨hmembers, hworkspaces, -⟩ := resolveIdentityTx_ok htx
    refine h.of_kept hworkspaces fun w _ m hm howner => ?_
    rcases hmembers with hrows | ⟨uid, hfree, hrows⟩
    · rw [hrows]
      exact ⟨m, Members.kept_ensureMember hm, howner⟩
    · rw [hrows]
      obtain ⟨v, hv, hid, huser, htenant, hrole⟩ :=
        Members.kept_setMemberUID (h := hfree) (Members.kept_ensureMember hm)
      refine ⟨v, hv, hid.symm.trans howner.1, huser.symm.trans howner.2.1, ?_, ?_⟩
      · exact htenant.symm.trans howner.2.2.1
      · exact hrole.symm.trans howner.2.2.2

end Step

/-! ## Every run -/

theorem system_change {cfg : Config} {tid : Nat} {o : Op} {r : Res o} {s s' : State}
    (h : (system cfg).exec tid o r s = some s') : Change s s' o := exec_change tid h

/-- Workspaces stay on record, and whoever removes a member has seen that it is not the owner. -/
def ownerOutline (cfg : Config) : Outline (system cfg) sparesOwner where
  inv s := OwnersKept s.cell
  rely _ s s' := ∀ v ∈ s.cell.workspaces.rows, ∃ w ∈ s'.cell.workspaces.rows, SameRecord v w
  pre _ o s := mayRemove s o
  post _ _ _ := True
  rely_refl _ _ := fun v hv => ⟨v, hv, .refl v⟩
  rely_trans _ _ _ _ h₁ h₂ := by
    intro v hv
    obtain ⟨w, hw, hsame⟩ := h₁ v hv
    obtain ⟨x, hx, hsame'⟩ := h₂ w hw
    exact ⟨x, hx, hsame.trans hsame'⟩
  op_ok hinv hpre hcond hexec :=
    ⟨ownersKept_change hinv hpre hcond (system_change hexec),
      fun _ _ => (system_change hexec).recorded⟩
  env_ok hinv _ hmove := by
    obtain ⟨hworkspaces, hmembers⟩ := env_tables hmove
    refine ⟨?_, ?_⟩
    · unfold OwnersKept
      rw [hworkspaces, hmembers]
      exact hinv
    · rw [hworkspaces]
      exact fun _ v hv => ⟨v, hv, .refl v⟩

theorem accessTo_ws (sc : OrgScope) (ws : Workspace) :
    (accessTo sc ws).Returns fun r => ∀ a, r = .ok a → a.ws = ws := by
  unfold accessTo
  split
  · rintro a ⟨⟩
    rfl
  · intro r
    rcases r with (_ | _ | _) | m
    · dsimp only
      split <;> rintro a ⟨⟩
      rfl
    · exact nofun
    · rintro a ⟨⟩
    · rintro a ⟨⟩
      rfl

theorem Looks.mayRemove {s : State} (o : Op) (h : Looks o) : mayRemove s o := by
  cases o <;> trivial

section Safe

variable {cfg : Config} {tid : Nat} {β : Type} {s s' : State} {ws : Workspace}

theorem Recorded.of_rely (h : Recorded ws s)
    (hrely : ∀ v ∈ s.cell.workspaces.rows, ∃ w ∈ s'.cell.workspaces.rows, SameRecord v w) :
    Recorded ws s' := by
  obtain ⟨v, hv, hsame⟩ := h
  obtain ⟨w, hw, hsame'⟩ := hrely v hv
  exact ⟨w, hw, hsame.trans hsame'⟩

/-- Looking is safe, and what was on record stays there. -/
theorem LooksOnly.safe_recorded {p : Api β} (hp : LooksOnly p) (h : Recorded ws s) :
    (ownerOutline cfg).Safe tid p (fun _ s' => Recorded ws s') s :=
  safe_of_performs (O := ownerOutline cfg) (K := Recorded ws) hp
    (fun _ _ hrely hws => hws.of_rely hrely) (fun _ _ _ _ _ => trivial)
    (fun o _ ho _ _ => Looks.mayRemove o ho)
    (fun _ _ _ _ _ hexec hws => hws.of_rely (system_change hexec).recorded) h

theorem LooksOnly.safe_owner {p : Api β} (hp : LooksOnly p) :
    (ownerOutline cfg).Safe tid p (fun _ _ => True) s :=
  safe_of_performs (O := ownerOutline cfg) (K := fun _ => True) hp
    (fun _ _ _ _ => trivial) (fun _ _ _ _ _ => trivial)
    (fun o _ ho _ _ => Looks.mayRemove o ho) (fun _ _ _ _ _ _ _ => trivial) trivial

/-- The workspace a caller is let into is on record. -/
theorem workspaceScope_recorded (sc : OrgScope) (name : GoString) :
    (ownerOutline cfg).Safe tid (workspaceScope sc name)
      (fun r s' => ∀ a, r = .ok a → Recorded a.ws s') s := by
  refine safe_perform_bind fun s₁ _ _ => ⟨trivial, fun r s₂ hexec _ _ => ?_⟩
  rcases r with (_ | _ | _) | ws
  · exact nofun
  · exact nofun
  · exact nofun
  · obtain ⟨c, htx, rfl⟩ := run_ok (s := s₁) hexec
    obtain ⟨hrow, rfl⟩ := Tx.one_ok htx
    have hrecorded : Recorded ws s₁ :=
      ⟨ws, (getWorkspaceByName_eq_some.mp hrow).1, .refl ws⟩
    refine (((accessTo_looks ws).safe_recorded hrecorded).and_returns (accessTo_ws sc ws)).mono ?_
    rintro r s₃ ⟨hws, hkept⟩ a ha
    rw [hws a ha]
    exact hkept

theorem requireWorkspaceOwner_recorded (sc : Scope) (wid : GoString) :
    (ownerOutline cfg).Safe tid (requireWorkspaceOwner sc wid)
      (fun r s' => ∀ a, r = .ok a → Recorded a.ws s') s := by
  refine .bind (.bind ?_)
  refine ((requireOrg_looks sc).safe_owner).mono ?_
  rintro (e | org) s₁ -
  · exact nofun
  · refine .bind ((workspaceScope_recorded org wid).mono ?_)
    rintro ((_ | _) | a) s₂ hrecorded
    · exact nofun
    · exact nofun
    · show (ownerOutline cfg).Safe tid (if a.isOwner = true then _ else _) _ s₂
      split
      · rintro b ⟨⟩
        exact hrecorded a rfl
      · exact nofun

/-- A removal is not of the owner: the owner that was read is the owner still. -/
theorem handleDeleteWorkspaceMember_safe (sc : Scope) (wid userID : GoString) :
    (ownerOutline cfg).Safe tid (handleDeleteWorkspaceMember sc wid userID)
      (fun _ _ => True) s := by
  refine .bind ((requireWorkspaceOwner_recorded sc wid).mono ?_)
  rintro (e | a) s₁ hrecorded
  · trivial
  · dsimp only
    split
    · trivial
    · rename_i hne
      refine safe_perform_bind fun s₂ hrely _ => ⟨?_, ?_⟩
      · intro w hw hid howner
        obtain ⟨v, hv, hsame⟩ := (hrecorded a rfl).of_rely hrely
        rw [eq_of_id hw hv (hid.trans hsame.1)] at howner
        exact hne (howner.symm.trans hsame.2.2.symm)
      · rintro (e | _) s₃ _ _ _ <;> trivial

theorem handler_spares (q : Request) : (ownerOutline cfg).Safe tid (handler cfg q)
    (fun _ _ => True) s := by
  by_cases hq : ∃ sc wid userID, q = .deleteMember sc wid userID
  · obtain ⟨sc, wid, userID, rfl⟩ := hq
    exact handleDeleteWorkspaceMember_safe sc wid userID
  · refine safe_of_performs (O := ownerOutline cfg) (K := fun _ => True)
      (handler_performs cfg q) (fun _ _ _ _ => trivial) (fun _ _ _ _ _ => trivial)
      (fun o _ ho _ _ => ?_) (fun _ _ _ _ _ _ _ => trivial) trivial
    cases o with
    | removeMember tenantID workspaceID userID =>
      obtain ⟨sc, wid, rfl⟩ := ho
      exact absurd ⟨sc, wid, userID, rfl⟩ hq
    | _ => trivial

end Safe

/-- In every run whose steps meet the condition, in every state reached, every workspace has a
membership row of its owner with the owner role. -/
theorem owner_keeps_role (cfg : Config) (orgMembers : OrgMembers)
    {tr : Schedule} {pool : Pool Op Res State Answer}
    (hrun : Path (system cfg) sparesOwner ⟨.init orgMembers, []⟩ tr pool) :
    ∀ w ∈ pool.shared.cell.workspaces.rows, ∃ m ∈ pool.shared.cell.members.rows,
      m.workspaceID = w.id ∧ m.userID = w.ownerUserID ∧ m.tenantID = w.tenantID ∧
        m.role = .owner := by
  have hstart : (ownerOutline cfg).Holds ⟨.init orgMembers, []⟩ := by
    refine ⟨fun w hw => ?_, fun tid o k hthread => ?_⟩
    · cases hw
    · cases hthread
  refine ((ownerOutline cfg).sound ?_ hstart hrun).1
  rintro q s p tid - - ⟨⟩
  exact handler_spares q

/-- Ana shares a workspace with Ben, and removes Ben again. -/
def sharedAndTakenBack : Schedule :=
  sharing ++
  [.spawn (.deleteMember ana "team" "ben"),
    .thread 3 (.getOrgMembership "acme" "ana") (.ok ⟨"acme", "ana", .owner⟩),
    .thread 3 (.getWorkspaceByName "acme" "team") (.ok team),
    .thread 3 (.removeMember "acme" "w1" "ben") (.ok ())]

def takenBack : Pool Op Res State Answer :=
  final (system demoConfig) sparesOwner ⟨.init colleagues, []⟩ sharedAndTakenBack

theorem owner_keeps_role_taken_back : team ∈ takenBack.shared.cell.workspaces.rows ∧
    ∃ m ∈ takenBack.shared.cell.members.rows,
      m.workspaceID = team.id ∧ m.userID = team.ownerUserID ∧ m.tenantID = team.tenantID ∧
        m.role = .owner := by
  have hrun : Path (system demoConfig) sparesOwner ⟨.init colleagues, []⟩
      sharedAndTakenBack takenBack := final_path (by decide +kernel)
  have hteam : team ∈ takenBack.shared.cell.workspaces.rows := by decide +kernel
  exact ⟨hteam, owner_keeps_role demoConfig colleagues hrun team hteam⟩

/-- Ana creates a workspace and PUTs Ana as a member of it, with an empty body. -/
def selfDemotion : Schedule :=
  [.spawn (.createWorkspace ana "members" (.value "team") (fun _ => "blue-fox")),
    .thread 0 (.getOrgMembership "acme" "ana") (.ok ⟨"acme", "ana", .owner⟩),
    .thread 0 (.createWorkspace "acme" "team" "ana" .members) (.ok team),
    .thread 0 (.outside .startPlacement) (.ok ()),
    .spawn (.putMember ana "team" "ana" (some [])),
    .thread 1 (.getOrgMembership "acme" "ana") (.ok ⟨"acme", "ana", .owner⟩),
    .thread 1 (.getWorkspaceByName "acme" "team") (.ok team),
    .thread 1 (.putMember "acme" "w1" "ana" .user) (.ok ())]

/-- The owner of the workspace is a plain user of it, and nobody is an owner. -/
theorem owner_demoted : ∃ tr pool,
    Path (system demoConfig) anyStep ⟨.init colleagues, []⟩ tr pool ∧
      team ∈ pool.shared.cell.workspaces.rows ∧
      pool.shared.cell.members.rows = [⟨team.id, team.ownerUserID, team.tenantID, .user, none⟩] :=
  ⟨selfDemotion, final (system demoConfig) anyStep ⟨.init colleagues, []⟩
    selfDemotion, final_path (by decide +kernel), by decide +kernel, by decide +kernel⟩

end Lemul.MgmtApi.Access
