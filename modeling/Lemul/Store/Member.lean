import Lemul.Misc.Lists
import Lemul.Store.Workspace

/-!
# Members and sessions

The tables `org_member`, `workspace_member` and `session`
(`internal/store/schema.sql:51-57`, `:206-256`) and the statements of `queries.sql` that
read and write them. A `Cell` holds them together with `workspace`, with the foreign keys
between them. `app_user` is left out: no modelled statement reads it, and a user id is
whatever the directory handed out. So are `created_at` and a session's idle timeout.
-/

namespace Lemul.Store

open List

/-- `role`, of an organization's and of a workspace's member (`schema.sql:54`, `:212`). -/
inductive Role where
  | owner
  | user
  deriving DecidableEq, Repr

/-- One row of `org_member`. -/
structure OrgMember where
  tenantID : GoString
  userID : GoString
  role : Role
  deriving DecidableEq, Repr

/-- One row of `workspace_member`. -/
structure WorkspaceMember where
  workspaceID : GoString
  userID : GoString
  tenantID : GoString
  role : Role
  uid : Option Nat
  deriving DecidableEq, Repr

/-- One row of `session`. -/
structure Session where
  id : GoString
  workspaceID : GoString
  tenantID : GoString
  userID : GoString
  deriving DecidableEq, Repr

/-! ## `org_member` -/

/-- Rows that respect the primary key `(tenant_id, user_id)`. -/
structure OrgMembers where
  rows : List OrgMember
  unique : rows.Pairwise (fun a b => ¬(a.tenantID = b.tenantID ∧ a.userID = b.userID))

namespace OrgMembers

/-- `GetOrgMembership` (`queries.sql:55-56`). -/
def getOrgMembership (c : OrgMembers) (tenantID userID : GoString) : Option OrgMember :=
  c.rows.find? (fun m => m.tenantID = tenantID && m.userID = userID)

/-- `JoinOrg` (`queries.sql:47-50`): an existing role is not overwritten. -/
def joinOrg (c : OrgMembers) (tenantID userID : GoString) (role : Role) : OrgMembers :=
  if h : ∃ m ∈ c.rows, m.tenantID = tenantID ∧ m.userID = userID then c
  else {
    rows := c.rows ++ [⟨tenantID, userID, role⟩]
    unique := by
      refine pairwise_append.mpr ⟨c.unique, pairwise_singleton _ _, ?_⟩
      intro a ha b hb
      rw [mem_singleton.mp hb]
      exact fun hkey => h ⟨a, ha, hkey⟩ }

end OrgMembers

/-! ## `workspace_member` -/

namespace WorkspaceMember

/-- Two rows that the primary key `(workspace_id, user_id)` and
`UNIQUE (workspace_id, uid)` admit side by side; any number of uids may be NULL. -/
def Distinct (a b : WorkspaceMember) : Prop :=
  a.workspaceID = b.workspaceID → a.userID ≠ b.userID ∧ (a.uid = b.uid → a.uid = none)

instance : Std.Symm Distinct where
  symm _ _ h hworkspace :=
    ⟨(h hworkspace.symm).1.symm, fun huid => huid.trans ((h hworkspace.symm).2 huid.symm)⟩

/-- The columns of the primary key. -/
def hasKey (workspaceID userID : GoString) (m : WorkspaceMember) : Bool :=
  m.workspaceID = workspaceID && m.userID = userID

theorem hasKey_iff {workspaceID userID : GoString} {m : WorkspaceMember} :
    m.hasKey workspaceID userID = true ↔ m.workspaceID = workspaceID ∧ m.userID = userID := by
  simp [hasKey]

/-- Two rows that say the same about access: all columns but the uid. -/
def SameGrant (a b : WorkspaceMember) : Prop :=
  a.workspaceID = b.workspaceID ∧ a.userID = b.userID ∧ a.tenantID = b.tenantID ∧
    a.role = b.role

theorem SameGrant.refl (m : WorkspaceMember) : m.SameGrant m := ⟨rfl, rfl, rfl, rfl⟩

end WorkspaceMember

/-- Rows that respect the unique constraints and the range check of the uid
(`schema.sql:229-235`). -/
structure Members where
  rows : List WorkspaceMember
  unique : rows.Pairwise WorkspaceMember.Distinct
  uid_range : ∀ m ∈ rows, ∀ n, m.uid = some n → 2000 ≤ n

namespace Members

/-- `GetMembership` (`queries.sql:233-234`). -/
def getMembership (c : Members) (workspaceID userID tenantID : GoString) :
    Option WorkspaceMember :=
  c.rows.find? (fun m => m.hasKey workspaceID userID && m.tenantID = tenantID)

variable {workspaceID userID : GoString} {m : WorkspaceMember}

theorem getMembership_eq_some {c : Members} {tenantID : GoString}
    (h : c.getMembership workspaceID userID tenantID = some m) :
    m ∈ c.rows ∧ m.workspaceID = workspaceID ∧ m.userID = userID ∧ m.tenantID = tenantID := by
  have hprops := find?_some h
  rw [Bool.and_eq_true, WorkspaceMember.hasKey_iff, decide_eq_true_eq] at hprops
  exact ⟨mem_of_find?_eq_some h, hprops.1.1, hprops.1.2, hprops.2⟩

theorem eq_of_hasKey {c : Members} {v : WorkspaceMember} (hm : m ∈ c.rows) (hv : v ∈ c.rows)
    (hmkey : m.hasKey workspaceID userID = true)
    (hvkey : v.hasKey workspaceID userID = true) : m = v := by
  by_contra hne
  obtain ⟨hmw, hmu⟩ := WorkspaceMember.hasKey_iff.mp hmkey
  obtain ⟨hvw, hvu⟩ := WorkspaceMember.hasKey_iff.mp hvkey
  exact (c.unique.forall hm hv hne (hmw.trans hvw.symm)).1 (hmu.trans hvu.symm)

/-- A new row, without a uid, under a key that no row has. -/
def insert (c : Members) (workspaceID userID tenantID : GoString) (role : Role)
    (h : ¬∃ m ∈ c.rows, m.hasKey workspaceID userID = true) : Members where
  rows := c.rows ++ [⟨workspaceID, userID, tenantID, role, none⟩]
  unique := by
    refine pairwise_append.mpr ⟨c.unique, pairwise_singleton _ _, ?_⟩
    intro a ha b hb
    rw [mem_singleton.mp hb]
    intro hworkspace
    refine ⟨fun huser => h ⟨a, ha, ?_⟩, fun huid => huid⟩
    exact WorkspaceMember.hasKey_iff.mpr ⟨hworkspace, huser⟩
  uid_range := by
    intro m hm n hn
    rcases mem_concat.mp hm with hold | rfl
    · exact c.uid_range m hold n hn
    · cases hn

/-- A rewriting of rows that changes roles only. -/
def setRole (c : Members) (workspaceID userID : GoString) (role : Role) : Members where
  rows := c.rows.map (fun m => if m.hasKey workspaceID userID then { m with role := role } else m)
  unique := by
    refine pairwise_map.mpr (c.unique.imp ?_)
    intro a b hab
    unfold WorkspaceMember.Distinct
    split <;> split <;> exact hab
  uid_range := by
    intro m hm n hn
    obtain ⟨v, hv, rfl⟩ := mem_map.mp hm
    refine c.uid_range v hv n ?_
    split at hn <;> exact hn

/-- `AddMember` (`queries.sql:222-226`): an existing row takes the new role. -/
def addMember (c : Members) (workspaceID userID tenantID : GoString) (role : Role) : Members :=
  if h : ∃ m ∈ c.rows, m.hasKey workspaceID userID = true then c.setRole workspaceID userID role
  else c.insert workspaceID userID tenantID role h

/-- `EnsureMember` (`queries.sql:296-299`): an existing row is left alone. -/
def ensureMember (c : Members) (workspaceID userID tenantID : GoString) (role : Role) :
    Members :=
  if h : ∃ m ∈ c.rows, m.hasKey workspaceID userID = true then c
  else c.insert workspaceID userID tenantID role h

/-- `RemoveMember` (`queries.sql:228-229`). -/
def removeMember (c : Members) (workspaceID userID tenantID : GoString) : Members where
  rows := c.rows.filter (fun m => !(m.hasKey workspaceID userID && m.tenantID = tenantID))
  unique := c.unique.filter _
  uid_range := fun m hm => c.uid_range m (mem_of_mem_filter hm)

/-- The predicate of `SetMemberUID`: the row, as long as it has no uid. -/
def awaitsUID (workspaceID userID tenantID : GoString) (m : WorkspaceMember) : Bool :=
  m.hasKey workspaceID userID && m.tenantID = tenantID && m.uid = none

/-- The uid is one the constraints of the table accept in this workspace. -/
def uidFree (c : Members) (workspaceID : GoString) (uid : Nat) : Prop :=
  2000 ≤ uid ∧ ∀ m ∈ c.rows, m.workspaceID = workspaceID → m.uid ≠ some uid

instance (c : Members) (workspaceID : GoString) (uid : Nat) :
    Decidable (c.uidFree workspaceID uid) := inferInstanceAs (Decidable (_ ∧ _))

/-- `SetMemberUID` (`queries.sql:319-322`). -/
def setMemberUID (c : Members) (workspaceID userID tenantID : GoString) (uid : Nat)
    (h : c.uidFree workspaceID uid) : Members where
  rows := c.rows.map (fun m =>
    if awaitsUID workspaceID userID tenantID m then { m with uid := some uid } else m)
  unique := by
    have hawaits : ∀ m : WorkspaceMember, awaitsUID workspaceID userID tenantID m = true →
        m.workspaceID = workspaceID ∧ m.userID = userID := by
      intro m hm
      simp only [awaitsUID, Bool.and_eq_true] at hm
      exact WorkspaceMember.hasKey_iff.mp hm.1.1
    refine pairwise_map.mpr (c.unique.imp_of_mem ?_)
    intro a b ha hb hab
    unfold WorkspaceMember.Distinct
    split
    · rename_i hra
      obtain ⟨haw, hau⟩ := hawaits a hra
      split
      · rename_i hrb
        obtain ⟨hbw, hbu⟩ := hawaits b hrb
        exact fun hworkspace => absurd (hau.trans hbu.symm) (hab hworkspace).1
      · intro hworkspace
        refine ⟨(hab hworkspace).1, fun huid => ?_⟩
        exact absurd huid.symm (h.2 b hb (hworkspace.symm.trans haw))
    · split
      · rename_i hrb
        obtain ⟨hbw, hbu⟩ := hawaits b hrb
        intro hworkspace
        refine ⟨(hab hworkspace).1, fun huid => ?_⟩
        exact absurd huid (h.2 a ha (hworkspace.trans hbw))
      · exact hab
  uid_range := by
    intro m hm n hn
    obtain ⟨v, hv, rfl⟩ := mem_map.mp hm
    split at hn
    · cases hn
      exact h.1
    · exact c.uid_range v hv n hn

section Rows

variable {c : Members} {workspaceID userID tenantID : GoString} {role : Role}
  {m : WorkspaceMember}

theorem mem_insert {h : ¬∃ m ∈ c.rows, m.hasKey workspaceID userID = true} :
    m ∈ (c.insert workspaceID userID tenantID role h).rows ↔
      m ∈ c.rows ∨ m = ⟨workspaceID, userID, tenantID, role, none⟩ := by
  simp only [insert, mem_append, mem_singleton]

/-- A row after an upsert is an old one under another key, the old one under this key with
the new role, or a new one. -/
theorem mem_addMember (h : m ∈ (c.addMember workspaceID userID tenantID role).rows) :
    m ∈ c.rows ∧ m.hasKey workspaceID userID = false ∨
      (∃ v ∈ c.rows, v.hasKey workspaceID userID = true ∧ m = { v with role := role }) ∨
      m = ⟨workspaceID, userID, tenantID, role, none⟩ := by
  unfold addMember at h
  split at h
  · obtain ⟨v, hv, rfl⟩ := mem_map.mp h
    split
    · rename_i hkey
      exact .inr (.inl ⟨v, hv, hkey, rfl⟩)
    · rename_i hkey
      exact .inl ⟨hv, Bool.of_not_eq_true hkey⟩
  · rename_i hnone
    rcases mem_insert.mp h with hold | rfl
    · exact .inl ⟨hold, Bool.of_not_eq_true fun hkey => hnone ⟨m, hold, hkey⟩⟩
    · exact .inr (.inr rfl)

/-- The rows under the key of an upsert have its role. -/
theorem role_of_mem_addMember (h : m ∈ (c.addMember workspaceID userID tenantID role).rows) :
    m ∈ c.rows ∨ m.workspaceID = workspaceID ∧ m.role = role := by
  rcases mem_addMember h with ⟨hold, -⟩ | ⟨v, -, hkey, rfl⟩ | rfl
  · exact .inl hold
  · exact .inr ⟨(WorkspaceMember.hasKey_iff.mp hkey).1, rfl⟩
  · exact .inr ⟨rfl, rfl⟩

/-- Nothing changes where the row exists. -/
theorem ensureMember_of_exists (h : ∃ m ∈ c.rows, m.hasKey workspaceID userID = true) :
    c.ensureMember workspaceID userID tenantID role = c := dif_pos h

theorem mem_ensureMember (h : m ∈ (c.ensureMember workspaceID userID tenantID role).rows) :
    m ∈ c.rows ∨ m = ⟨workspaceID, userID, tenantID, role, none⟩ := by
  unfold ensureMember at h
  split at h
  · exact .inl h
  · exact mem_insert.mp h

theorem mem_removeMember :
    m ∈ (c.removeMember workspaceID userID tenantID).rows ↔
      m ∈ c.rows ∧ ¬(m.hasKey workspaceID userID = true ∧ m.tenantID = tenantID) := by
  simp only [removeMember, mem_filter, Bool.not_eq_true', Bool.and_eq_false_iff,
    decide_eq_false_iff_not, not_and_or, Bool.not_eq_true]

/-- A row survives an upsert, and keeps its role unless the upsert is of its key. -/
theorem kept_addMember (h : m ∈ c.rows) :
    ∃ v ∈ (c.addMember workspaceID userID tenantID role).rows,
      v.workspaceID = m.workspaceID ∧ v.userID = m.userID ∧ v.tenantID = m.tenantID ∧
        (v.role = m.role ∨ m.hasKey workspaceID userID = true ∧ v.role = role) := by
  unfold addMember
  split
  · refine ⟨_, mem_map_of_mem h, ?_⟩
    split
    · rename_i hkey
      exact ⟨rfl, rfl, rfl, .inr ⟨hkey, rfl⟩⟩
    · exact ⟨rfl, rfl, rfl, .inl rfl⟩
  · exact ⟨m, mem_insert.mpr (.inl h), rfl, rfl, rfl, .inl rfl⟩

/-- The row of an upsert under a new key. -/
theorem mem_addMember_new (h : ¬∃ m ∈ c.rows, m.hasKey workspaceID userID = true) :
    ⟨workspaceID, userID, tenantID, role, none⟩ ∈
      (c.addMember workspaceID userID tenantID role).rows := by
  unfold addMember
  rw [dif_neg h]
  exact mem_insert.mpr (.inr rfl)

theorem kept_ensureMember (h : m ∈ c.rows) :
    m ∈ (c.ensureMember workspaceID userID tenantID role).rows := by
  unfold ensureMember
  split
  · exact h
  · exact mem_insert.mpr (.inl h)

theorem kept_setMemberUID {uid : Nat} {h : c.uidFree workspaceID uid} (hm : m ∈ c.rows) :
    ∃ v ∈ (c.setMemberUID workspaceID userID tenantID uid h).rows, m.SameGrant v := by
  refine ⟨_, mem_map_of_mem hm, ?_⟩
  split
  · exact ⟨rfl, rfl, rfl, rfl⟩
  · exact .refl m

/-- Numbering a member leaves what the row says about access. -/
theorem mem_setMemberUID {uid : Nat} {h : c.uidFree workspaceID uid}
    (hm : m ∈ (c.setMemberUID workspaceID userID tenantID uid h).rows) :
    ∃ v ∈ c.rows, v.SameGrant m := by
  obtain ⟨v, hv, rfl⟩ := mem_map.mp hm
  refine ⟨v, hv, ?_⟩
  split
  · exact ⟨rfl, rfl, rfl, rfl⟩
  · exact .refl v

end Rows

end Members

/-! ## `session` -/

/-- Rows that respect the primary key. -/
structure Sessions where
  rows : List Session
  unique : rows.Pairwise (fun a b => a.id ≠ b.id)

namespace Sessions

/-- `GetSession` (`queries.sql:249-250`). -/
def getSession (c : Sessions) (tenantID id : GoString) : Option Session :=
  c.rows.find? (fun s => s.id = id && s.tenantID = tenantID)

/-- `CreateSession` (`queries.sql:244-247`), refused by the primary key. -/
def createSession (c : Sessions) (s : Session) : Option Sessions :=
  if h : ∃ v ∈ c.rows, v.id = s.id then none
  else some {
    rows := c.rows ++ [s]
    unique := by
      refine pairwise_append.mpr ⟨c.unique, pairwise_singleton _ _, ?_⟩
      intro a ha b hb
      rw [mem_singleton.mp hb]
      exact fun hid => h ⟨a, ha, hid⟩ }

/-- `ListSessions` (`queries.sql:253-254`); the order is left out. -/
def listSessions (c : Sessions) (workspaceID tenantID : GoString) : List Session :=
  c.rows.filter (fun s => s.workspaceID = workspaceID && s.tenantID = tenantID)

/-- `ListSessionsForUser` (`queries.sql:259-262`). -/
def listSessionsForUser (c : Sessions) (workspaceID tenantID userID : GoString) : List Session :=
  c.rows.filter (fun s =>
    s.workspaceID = workspaceID && s.tenantID = tenantID && s.userID = userID)

/-- `ListOrgSessions` (`queries.sql:265-266`). -/
def listOrgSessions (c : Sessions) (tenantID : GoString) : List Session :=
  c.rows.filter (fun s => s.tenantID = tenantID)

variable {c : Sessions} {s : Session}

theorem getSession_eq_some {tenantID id : GoString} (h : c.getSession tenantID id = some s) :
    s ∈ c.rows ∧ s.id = id ∧ s.tenantID = tenantID := by
  have hprops := find?_some h
  rw [Bool.and_eq_true, decide_eq_true_eq, decide_eq_true_eq] at hprops
  exact ⟨mem_of_find?_eq_some h, hprops⟩

instance : Std.Symm (fun a b : Session => a.id ≠ b.id) where
  symm _ _ h := h.symm

theorem eq_of_id {a b : Session} (ha : a ∈ c.rows) (hb : b ∈ c.rows)
    (hid : a.id = b.id) : a = b := by
  by_contra hne
  exact c.unique.forall ha hb hne hid

theorem getSession_of_mem (h : s ∈ c.rows) :
    c.getSession s.tenantID s.id = some s := by
  cases hfind : c.getSession s.tenantID s.id with
  | none =>
    have hno := find?_eq_none.mp hfind s h
    simp at hno
  | some v =>
    obtain ⟨hv, hid, -⟩ := getSession_eq_some hfind
    rw [eq_of_id hv h hid]

theorem createSession_rows {c' : Sessions} (h : c.createSession s = some c') :
    c'.rows = c.rows ++ [s] := by
  unfold createSession at h
  split at h <;> cases h
  rfl

end Sessions

end Lemul.Store
