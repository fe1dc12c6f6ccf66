import Lemul.MgmtApi.Access.Listing
import Lemul.MgmtApi.Proofs.OwnerRole

/-!
# Whether listing and access agree

In one state of the cell, for one caller in an organization: what `listOrgSessions` lists and
what `requireSession` lets through are both reduced to rows (`listed_org_iff`, `admits_iff`), and
compared. `listSessions` of a workspace always is the part of the organization-wide listing that
belongs to it.
-/

namespace Lemul.MgmtApi.Access

open Store Lemul.System List

section Rows

variable {c : Cell} {sc : OrgScope} {ws : Workspace} {x : Session}

/-- The caller has a membership row of the workspace. -/
def HasRow (c : Cell) (sc : OrgScope) (workspaceID : GoString) : Prop :=
  ∃ m ∈ c.members.rows, m.hasKey workspaceID sc.userID = true ∧ m.tenantID = sc.tenantID

/-- The row has the owner role. -/
def HasOwnerRow (c : Cell) (sc : OrgScope) (workspaceID : GoString) : Prop :=
  ∃ m ∈ c.members.rows, m.hasKey workspaceID sc.userID = true ∧ m.tenantID = sc.tenantID ∧
    m.role = .owner

theorem getMembership_none :
    c.members.getMembership ws.id sc.userID sc.tenantID = none ↔ ¬HasRow c sc ws.id := by
  unfold Members.getMembership HasRow
  rw [find?_eq_none]
  constructor
  · rintro h ⟨m, hm, hkey, htenant⟩
    exact h m hm (by rw [hkey, htenant, Bool.true_and, decide_eq_true rfl])
  · intro h m hm hrow
    rw [Bool.and_eq_true, decide_eq_true_eq] at hrow
    exact h ⟨m, hm, hrow⟩

/-- A membership that is found is the only one. -/
theorem hasOwnerRow_iff {m : WorkspaceMember}
    (h : c.members.getMembership ws.id sc.userID sc.tenantID = some m) :
    HasOwnerRow c sc ws.id ↔ m.role = .owner := by
  obtain ⟨hm, hw, hu, ht⟩ := Members.getMembership_eq_some h
  have hkey : m.hasKey ws.id sc.userID = true := WorkspaceMember.hasKey_iff.mpr ⟨hw, hu⟩
  constructor
  · rintro ⟨v, hv, hvkey, -, hrole⟩
    rw [Members.eq_of_hasKey hm hv hkey hvkey]
    exact hrole
  · exact fun hrole => ⟨m, hm, hkey, ht, hrole⟩

theorem HasOwnerRow.hasRow {workspaceID : GoString} (h : HasOwnerRow c sc workspaceID) :
    HasRow c sc workspaceID := by
  obtain ⟨m, hm, hkey, htenant, -⟩ := h
  exact ⟨m, hm, hkey, htenant⟩

/-- Who has standing in a workspace. -/
theorem standing_isSome : (standing c sc ws).isSome = true ↔
    sc.role = .owner ∨ HasRow c sc ws.id ∨ ws.accessScope = .org := by
  unfold standing OrgScope.isOwner
  by_cases howner : sc.role = .owner
  · rw [if_pos (decide_eq_true howner)]
    exact iff_of_true rfl (.inl howner)
  · rw [if_neg (by simpa using howner), or_iff_right howner]
    cases hrow : c.members.getMembership ws.id sc.userID sc.tenantID with
    | some m =>
      refine iff_of_true rfl (.inl ?_)
      by_contra hno
      rw [getMembership_none.mpr hno] at hrow
      cases hrow
    | none =>
      rw [or_iff_right (getMembership_none.mp hrow)]
      dsimp only
      split
      · rename_i horg
        exact iff_of_true rfl horg
      · rename_i horg
        exact iff_of_false Bool.false_ne_true horg

/-- Who has it as an owner. -/
theorem standing_eq_owner : standing c sc ws = some .owner ↔
    sc.role = .owner ∨ HasOwnerRow c sc ws.id := by
  unfold standing OrgScope.isOwner
  by_cases howner : sc.role = .owner
  · rw [if_pos (decide_eq_true howner)]
    exact iff_of_true rfl (.inl howner)
  · rw [if_neg (by simpa using howner), or_iff_right howner]
    cases hrow : c.members.getMembership ws.id sc.userID sc.tenantID with
    | some m =>
      rw [hasOwnerRow_iff hrow]
      exact ⟨fun h => Option.some.inj h, fun h => congrArg some h⟩
    | none =>
      refine iff_of_false ?_ fun h => getMembership_none.mp hrow h.hasRow
      dsimp only
      split <;> exact nofun

/-! ## The listings -/

theorem listed_many {rows : Cell → List Session} : Listed (Tx.many rows) c x ↔ x ∈ rows c := by
  constructor
  · rintro ⟨l, hl, hx⟩
    cases hl
    exact hx
  · exact fun h => ⟨_, rfl, h⟩

theorem listed_org_iff : Listed (listOrgSessions sc) c x ↔
    x ∈ c.sessions.rows ∧ x.tenantID = sc.tenantID ∧
      (sc.role = .owner ∨ x.userID = sc.userID ∨ HasOwnerRow c sc x.workspaceID) := by
  unfold listOrgSessions OrgScope.isOwner
  by_cases howner : sc.role = .owner
  · rw [if_pos (decide_eq_true howner), listed_many]
    simp [Sessions.listOrgSessions, howner]
  · rw [if_neg (by simpa using howner), listed_many, or_iff_right howner]
    simp [Cell.listOrgSessionsVisible, HasOwnerRow, and_assoc]

theorem ownsWorkspace_eq : ownsWorkspace sc ws.id c =
    .ok (decide (standing c sc ws = some .owner), c) := by
  unfold ownsWorkspace standing
  split
  · rfl
  · simp only [Tx.getMembership, Tx.one]
    cases c.members.getMembership ws.id sc.userID sc.tenantID with
    | some m => simp
    | none =>
      dsimp only
      split <;> rfl

/-- The listing of a workspace: everything for its owners, and their own for the others. -/
theorem listed_iff : Listed (listSessions sc ws.id) c x ↔
    x ∈ c.sessions.rows ∧ x.workspaceID = ws.id ∧ x.tenantID = sc.tenantID ∧
      (standing c sc ws = some .owner ∨ x.userID = sc.userID) := by
  have hrun : listSessions sc ws.id c = (if standing c sc ws = some .owner then
      Tx.many fun c => c.sessions.listSessions ws.id sc.tenantID
      else Tx.many fun c => c.sessions.listSessionsForUser ws.id sc.tenantID sc.userID) c := by
    show (ownsWorkspace sc ws.id c).bind (fun y => (if y.1 = true then _ else _ : Tx _) y.2) = _
    rw [ownsWorkspace_eq]
    simp only [Except.bind, decide_eq_true_eq]
  unfold Listed
  rw [hrun]
  change Listed _ c x ↔ _
  split
  · rename_i howner
    rw [listed_many]
    simp [Sessions.listSessions, howner]
  · rename_i howner
    rw [listed_many]
    simp [Sessions.listSessionsForUser, howner, and_assoc]

/-- For every state of the cell and every caller in an organization: `listWorkspaces` lists the
workspaces of the organization `accessTo` admits the caller to, each of them once. -/
theorem workspaces_listed_once (c : Cell) (sc : OrgScope) :
    ∃ rows, listWorkspaces sc c = .ok (rows, c) ∧ rows.Nodup ∧
      ∀ w, w ∈ rows ↔ w ∈ c.workspaces.rows ∧ w.tenantID = sc.tenantID ∧
        ∃ a, check c (accessTo sc w) = .ok a := by
  have honce : c.workspaces.rows.Nodup :=
    c.workspaces.unique.imp fun hdistinct heq => hdistinct.1 (congrArg Workspace.id heq)
  have hadmits : ∀ w, (∃ a, check c (accessTo sc w) = .ok a) ↔
      sc.role = .owner ∨ HasRow c sc w.id ∨ w.accessScope = .org := fun w => by
    rw [← standing_isSome, check_accessTo, standingIn]
    cases standing c sc w with
    | none | some role => simp
  simp only [hadmits]
  unfold listWorkspaces OrgScope.isOwner
  by_cases howner : sc.role = .owner
  · rw [if_pos (decide_eq_true howner)]
    refine ⟨_, rfl, honce.filter _, fun w => ?_⟩
    simp [Cell.listWorkspaces, howner]
  · rw [if_neg (by simpa using howner)]
    refine ⟨_, rfl, honce.filter _, fun w => ?_⟩
    simp only [Cell.listWorkspacesForUser, howner, false_or, HasRow, mem_filter,
      Bool.and_eq_true, Bool.or_eq_true, decide_eq_true_eq, any_eq_true]
    grind

/-! ## `requireSession` -/

/-- A session is let through if its workspace is in the organization and the caller has standing
there, and the session is the caller's or the workspace is. -/
theorem admits_iff {caller : Scope} {m : OrgMember}
    (hm : c.orgMembers.getOrgMembership caller.tenantID caller.userID = some m) :
    (∃ a, check c (requireSession caller x.id) = .ok a ∧ a.sess = x) ↔
      x ∈ c.sessions.rows ∧ x.tenantID = caller.tenantID ∧
        ∃ ws ∈ c.workspaces.rows, ws.id = x.workspaceID ∧ ws.tenantID = caller.tenantID ∧
          ∃ role, standing c ⟨caller, m.role⟩ ws = some role ∧
            (x.userID = caller.userID ∨ role = .owner) := by
  have hvisible : ∀ a : SessScope, a.isVisible = true ↔
      a.sess.userID = a.wsScope.scope.userID ∨ a.wsScope.role = .owner := fun a => by
    unfold SessScope.isVisible SessScope.isMine WsScope.isOwner
    rw [Bool.or_eq_true, decide_eq_true_eq, decide_eq_true_eq]
  constructor
  · rintro ⟨a, hcheck, rfl⟩
    obtain ⟨hsess, hws, hscope, hrole, hsees⟩ := (check_requireSession hm _ a).mp hcheck
    obtain ⟨hrow, -, htenant⟩ := Sessions.getSession_eq_some hsess
    obtain ⟨hwrow, hid, hwtenant⟩ := Workspaces.getWorkspace_eq_some.mp hws
    rw [hvisible, hscope] at hsees
    exact ⟨hrow, htenant, _, hwrow, hid, hwtenant, _, hrole, hsees⟩
  · rintro ⟨hrow, htenant, ws, hwrow, hid, hwtenant, role, hrole, hsees⟩
    refine ⟨⟨⟨⟨caller, m.role⟩, ws, role⟩, x⟩, (check_requireSession hm _ _).mpr ?_, rfl⟩
    have hsess := Sessions.getSession_of_mem hrow
    rw [htenant] at hsess
    exact ⟨hsess, Workspaces.getWorkspace_eq_some.mpr ⟨hwrow, hid, hwtenant⟩, rfl, hrole,
      (hvisible _).mpr hsees⟩

end Rows

/-! ## The comparison -/

/-- Sessions the caller started, or has the say over, are filed under a workspace of the
organization; and unless the caller owns the organization, the workspaces of the caller's own
sessions still admit the caller, by a membership row or by being open to the organization. -/
def AdmittedToOwn (c : Cell) (sc : OrgScope) : Prop :=
  ∀ x ∈ c.sessions.rows, x.tenantID = sc.tenantID → ∀ w ∈ c.workspaces.rows, w.id = x.workspaceID →
    (sc.role = .owner ∨ x.userID = sc.userID ∨ HasOwnerRow c sc w.id → w.tenantID = sc.tenantID) ∧
    (sc.role ≠ .owner → x.userID = sc.userID → HasRow c sc w.id ∨ w.accessScope = .org)

/-- For every state of the cell and every caller in an organization: the organization-wide
listing is what `requireSession` lets through, and the listing of each workspace the caller
reaches is its part of it, exactly if the caller is still admitted to their own sessions'
workspaces. -/
theorem listing_agrees_iff (c : Cell) (caller : Scope) {m : OrgMember}
    (hm : c.orgMembers.getOrgMembership caller.tenantID caller.userID = some m) :
    ((∀ x, Listed (listOrgSessions ⟨caller, m.role⟩) c x ↔
        ∃ a, check c (requireSession caller x.id) = .ok a ∧ a.sess = x) ∧
      ∀ wid a, check c (requireWorkspace caller wid) = .ok a →
        ∀ x, Listed (listSessions a.scope a.ws.id) c x ↔
          Listed (listOrgSessions ⟨caller, m.role⟩) c x ∧ x.workspaceID = a.ws.id) ↔
      AdmittedToOwn c ⟨caller, m.role⟩ := by
  constructor
  · rintro ⟨hagree, -⟩ x hx htenant w hw hid
    -- a session that is listed is let through, and then its workspace admits the caller
    have hadmitted : (m.role = .owner ∨ x.userID = caller.userID ∨
        HasOwnerRow c ⟨caller, m.role⟩ w.id) → w.tenantID = caller.tenantID ∧
          (standing c ⟨caller, m.role⟩ w).isSome = true := fun hsays => by
      rw [hid] at hsays
      obtain ⟨-, -, v, hv, hvid, hvtenant, role, hrole, -⟩ :=
        (admits_iff hm).mp ((hagree x).mp (listed_org_iff.mpr ⟨hx, htenant, hsays⟩))
      rw [Workspaces.eq_of_id hw hv (hid.trans hvid.symm), hrole]
      exact ⟨hvtenant, rfl⟩
    refine ⟨fun hsays => (hadmitted hsays).1, fun hnot hown => ?_⟩
    have hstands := standing_isSome.mp (hadmitted (.inr (.inl hown))).2
    rw [or_iff_right hnot] at hstands
    exact hstands
  · intro hown
    refine ⟨fun x => ?_, fun wid a ha x => ?_⟩
    · rw [listed_org_iff, admits_iff hm]
      constructor
      · rintro ⟨hx, htenant, hsays⟩
        obtain ⟨w, hw, hid⟩ := c.session_workspace x hx
        obtain ⟨hfiled, hadmitted⟩ := hown x hx htenant w hw hid
        refine ⟨hx, htenant, w, hw, hid, hfiled (hid ▸ hsays), ?_⟩
        rw [← hid] at hsays
        by_cases howner : standing c ⟨caller, m.role⟩ w = some .owner
        · exact ⟨.owner, howner, .inr rfl⟩
        · -- not as an owner, so it is the caller's own
          rw [standing_eq_owner, not_or] at howner
          have hmine : x.userID = caller.userID := by
            rcases hsays with h | h | h
            · exact absurd h howner.1
            · exact h
            · exact absurd h howner.2
          have hstands := standing_isSome.mpr (.inr (hadmitted howner.1 hmine))
          obtain ⟨role, hrole⟩ := Option.isSome_iff_exists.mp hstands
          exact ⟨role, hrole, .inl hmine⟩
      · rintro ⟨hx, htenant, w, hw, hid, -, role, hrole, hsees⟩
        refine ⟨hx, htenant, ?_⟩
        rcases hsees with hmine | rfl
        · exact .inr (.inl hmine)
        · rw [← hid]
          exact (standing_eq_owner.mp hrole).imp id .inr
    · obtain ⟨hscope, hw, hrole⟩ := check_requireWorkspace hm ha
      rw [hscope, listed_iff, listed_org_iff, standing_eq_owner]
      constructor
      · rintro ⟨hx, hid, htenant, hsees⟩
        refine ⟨⟨hx, htenant, ?_⟩, hid⟩
        rw [hid]
        rcases hsees with (hrole | hrow) | hmine
        · exact .inl hrole
        · exact .inr (.inr hrow)
        · exact .inr (.inl hmine)
      · rintro ⟨⟨hx, htenant, hsees⟩, hid⟩
        refine ⟨hx, hid, htenant, ?_⟩
        rw [hid] at hsees
        rcases hsees with hrole | hmine | hrow
        · exact .inl (.inl hrole)
        · exact .inr hmine
        · exact .inl (.inr hrow)

/-- Before Ben is removed Ben's listing and access agree. -/
theorem listing_agrees_iff_shared :
    shared.shared.cell.orgMembers.getOrgMembership ben.tenantID ben.userID =
        some ⟨"acme", "ben", .user⟩ ∧
      Listed (listOrgSessions ⟨ben, .user⟩) shared.shared.cell benSession ∧
      ∃ a, check shared.shared.cell (requireSession ben benSession.id) = .ok a ∧
        a.sess = benSession := by
  have hm : shared.shared.cell.orgMembers.getOrgMembership ben.tenantID ben.userID =
      some ⟨"acme", "ben", .user⟩ := by decide +kernel
  have hown : AdmittedToOwn shared.shared.cell ⟨ben, .user⟩ := by
    unfold AdmittedToOwn HasOwnerRow HasRow
    decide +kernel
  have hlisted : Listed (listOrgSessions ⟨ben, .user⟩) shared.shared.cell benSession :=
    ⟨[benSession], rfl, mem_singleton_self _⟩
  have hagrees := ((listing_agrees_iff shared.shared.cell ben hm).mpr hown).1 benSession
  exact ⟨hm, hlisted, hagrees.mp hlisted⟩

/-- Ana has removed Ben from the workspace. Ben's session in it is listed to Ben, and there is no
such session when Ben asks for it. -/
theorem removed_member_listed : ∃ tr pool,
    Path (system demoConfig) anyStep ⟨.init colleagues, []⟩ tr pool ∧
      pool.shared.cell.orgMembers.getOrgMembership ben.tenantID ben.userID =
        some ⟨"acme", "ben", .user⟩ ∧
      Listed (listOrgSessions ⟨ben, .user⟩) pool.shared.cell benSession ∧
      check pool.shared.cell (requireSession ben benSession.id) =
        .error (.refused 404 "no such session") := by
  refine ⟨sharedAndTakenBack, reachedBy sharedAndTakenBack, final_path (by decide +kernel),
    by decide +kernel, ⟨[benSession], ?_, mem_singleton_self _⟩, by decide +kernel⟩
  rfl

end Lemul.MgmtApi.Access
