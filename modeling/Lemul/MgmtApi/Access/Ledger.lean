import Lemul.MgmtApi.Access.Effects
import Lemul.MgmtApi.Access.Handlers

/-!
# Session records and the credentials minted for them

The authorising handlers once more, with a ledger of every session record there ever was:
handlers that are not modelled here delete sessions and workspaces, and a credential can
outlive the record it was minted for. Nobody but `handleCreateSession` makes a record.

The machine is told two things about what Go values are: a session id is ASCII, being the
text of a UUID (`isASCII_newUUID`), and the strings and times of a credential have an `int`
length and an `int64` of seconds.
-/

namespace Lemul.MgmtApi.Access

open Store

/-- A digit of `hex.EncodeToString`. -/
def hexDigit (n : UInt8) : UInt8 := if n < 10 then 48 + n else 87 + n

def hexEncode (b : GoString) : GoString :=
  b.flatMap fun (x : UInt8) => [hexDigit (x >>> 4), hexDigit (x &&& 0x0f)]

/-- `newUUID` (`tunnels.go:308-315`), which `newSessionID` returns, with the sixteen random
bytes it drew. -/
def newUUID (random : GoString) : GoString :=
  let b := random.set 6 ((random.getD 6 0 &&& 0x0f) ||| 0x40)
  let b := b.set 8 ((b.getD 8 0 &&& 0x3f) ||| 0x80)
  let h := hexEncode b
  h.take 8 ++ "-" ++ (h.drop 8).take 4 ++ "-" ++ (h.drop 12).take 4 ++ "-" ++
    (h.drop 16).take 4 ++ "-" ++ (h.drop 20).take 12

/-- The session record an operation made, if it did. -/
def recorded : (o : Op) → Res o → List Session
  | .createSession _ _ _, .ok x => [x]
  | _, _ => []

/-- The credential an operation handed out, if it did. -/
def mintedBy : (o : Op) → Res o → List Minted
  | .attachToken userID sessionID tenantID workspaceName orgSlug mode, .ok (random, now) =>
      [⟨Creds.newClaims sessionID tenantID workspaceName orgSlug mode Creds.attachTTL random now,
        userID⟩]
  | _, _ => []

/-- Claims whose encoding a Go program can hold too. -/
def Encodable (c : Creds.AttachClaims) : Prop :=
  c.Representable ∧ FitsInt (Creds.encodeAttach c)

instance (c : Creds.AttachClaims) : Decidable c.Representable :=
  decidable_of_iff ((∀ f ∈ c.fields, FitsInt f) ∧ -2 ^ 63 ≤ c.unix ∧ c.unix < 2 ^ 63)
    ⟨fun h => ⟨h.1, h.2.1, h.2.2⟩, fun h => ⟨h.fits, h.unix_low, h.unix_high⟩⟩

instance (c : Creds.AttachClaims) : Decidable (Encodable c) :=
  inferInstanceAs (Decidable (_ ∧ _))

/-- The state of the control plane, and every session record there ever was. -/
structure Ledger where
  state : State
  records : List Session

namespace Ledger

def init (orgMembers : OrgMembers) : Ledger := ⟨.init orgMembers, []⟩

/-- An operation, on the books. -/
def exec (tid : Nat) (o : Op) (r : Res o) (s : Ledger) : Option Ledger :=
  if (∀ x ∈ recorded o r, isASCII x.id = true) ∧ ∀ m ∈ mintedBy o r, Encodable m.claims then
    (Access.exec tid o r s.state).map fun state => ⟨state, recorded o r ++ s.records⟩
  else none

/-- What happens without these handlers: somebody joins an organization, or another
handler changes the cell. -/
inductive Move where
  | joins (e : EnvMove)
  | other (c : Cell)

/-- A change of the cell makes no session record. -/
def envStep : Move → Ledger → Option Ledger
  | .joins e, s => (Access.envStep e s.state).map fun state => { s with state := state }
  | .other c, s =>
      if ∀ x ∈ c.sessions.rows, x ∈ s.state.cell.sessions.rows then
        some { s with state := { s.state with cell := c } }
      else none

end Ledger

/-- Any number of requests, interleaved transaction by transaction, on the books. -/
def ledger (cfg : Config) : System Op Res Ledger Ledger.Move Request Answer where
  exec := Ledger.exec
  env := Ledger.envStep
  spawn q _ := some (handler cfg q)

/-! ## What an operation does to the books -/

/-- A transaction that leaves the `session` table alone. -/
def KeepsSessions {α : Type} (tx : Tx α) : Prop :=
  ∀ c a c', tx c = .ok (a, c') → c'.sessions = c.sessions

section Keeps

variable {α β : Type}

theorem keepsSessions_bind {x : Tx α} {f : α → Tx β} (hx : KeepsSessions x)
    (hf : ∀ a, KeepsSessions (f a)) : KeepsSessions (x >>= f) := by
  intro c b c' h
  obtain ⟨a, c₁, hfirst, hrest⟩ := Tx.bind_ok h
  rw [hf a _ _ _ hrest, hx _ _ _ hfirst]

theorem keepsSessions_pure (a : α) : KeepsSessions (pure a : Tx α) := by
  intro c b c' h
  cases h
  rfl

theorem keepsSessions_one (row : Cell → Option α) : KeepsSessions (Tx.one row) := by
  intro c a c' h
  rw [(Tx.one_ok h).2]

variable (tenantID workspaceID userID id : GoString) (role : Role)

theorem keepsSessions_updateWorkspace (f : Workspace → Workspace) (hf : KeepsKey f) :
    KeepsSessions (Tx.updateWorkspace tenantID id f hf) := by
  intro c w c' h
  unfold Tx.updateWorkspace at h
  split at h <;> cases h
  rfl

theorem keepsSessions_renameWorkspace (name : GoString) :
    KeepsSessions (Tx.renameWorkspace tenantID id name) := by
  intro c w c' h
  unfold Tx.renameWorkspace at h
  split at h <;> cases h
  rfl

theorem keepsSessions_addMember :
    KeepsSessions (Tx.addMember workspaceID userID tenantID role) := by
  intro c x c' h
  unfold Tx.addMember at h
  split at h <;> cases h
  rfl

theorem keepsSessions_ensureMember :
    KeepsSessions (Tx.ensureMember workspaceID userID tenantID role) := by
  intro c x c' h
  unfold Tx.ensureMember at h
  split at h <;> cases h
  rfl

theorem keepsSessions_setMemberUID (uid : Nat) :
    KeepsSessions (Tx.setMemberUID workspaceID userID tenantID uid) := by
  intro c x c' h
  unfold Tx.setMemberUID at h
  split at h
  · cases h
    rfl
  · split at h <;> cases h
    rfl

theorem keepsSessions_createWorkspace (w : Workspace) :
    KeepsSessions (createWorkspaceTx w) := by
  refine keepsSessions_bind ?_ fun w' => ?_
  · intro c v c' h
    unfold Tx.createWorkspace at h
    split at h <;> cases h
    rfl
  · exact keepsSessions_bind (keepsSessions_addMember _ _ _ _) fun _ => keepsSessions_pure _

theorem keepsSessions_nextWorkspaceUID : KeepsSessions (Tx.nextWorkspaceUID tenantID id) := by
  refine keepsSessions_bind (keepsSessions_updateWorkspace _ _ _ _) fun w => ?_
  split
  · exact keepsSessions_pure _
  · exact nofun

theorem keepsSessions_resolveIdentity :
    KeepsSessions (resolveIdentityTx tenantID workspaceID userID) := by
  refine keepsSessions_bind (keepsSessions_ensureMember _ _ _ _) fun _ => ?_
  refine keepsSessions_bind (keepsSessions_one _) fun m => ?_
  split
  · exact keepsSessions_pure _
  · refine keepsSessions_bind (keepsSessions_nextWorkspaceUID _ _) fun next => ?_
    refine keepsSessions_bind (keepsSessions_setMemberUID _ _ _ _) fun claimed => ?_
    cases claimed with
    | none => exact keepsSessions_one _
    | some m => exact keepsSessions_pure _

end Keeps

/-- What an operation leaves of the books: the `session` table, and what was minted. -/
structure Booked (o : Op) (r : Res o) (s s' : State) : Prop where
  sessions : ∀ x ∈ s'.cell.sessions.rows, x ∈ s.cell.sessions.rows ∨ x ∈ recorded o r
  minted : s'.minted = mintedBy o r ++ s.minted

theorem booked_run {o : Op} {r : Res o} {α : Type} [DecidableEq α] {tx : Tx α}
    {x : Except TxError α} {s s' : State} (htx : KeepsSessions tx) (hminted : mintedBy o r = [])
    (h : s.run tx x = some s') : Booked o r s s' := by
  rcases run_cases h with rfl | ⟨a, c, -, hrun, rfl⟩
  · exact ⟨fun y hy => .inl hy, by rw [hminted]; rfl⟩
  · refine ⟨fun y hy => .inl ?_, by rw [hminted]; rfl⟩
    rw [← htx _ _ _ hrun]
    exact hy

theorem booked_runAct {o : Op} {r : Res o} {α : Type} [DecidableEq α] {tx : Tx α}
    {x : Except TxError α} {act : Act} {s s' : State} (htx : KeepsSessions tx)
    (hminted : mintedBy o r = []) (h : s.runAct tx x act = some s') : Booked o r s s' := by
  rcases runAct_cases h with rfl | ⟨a, c, -, hrun, rfl⟩
  · exact ⟨fun y hy => .inl hy, by rw [hminted]; rfl⟩
  · refine ⟨fun y hy => .inl ?_, by rw [hminted]; rfl⟩
    rw [← htx _ _ _ hrun]
    exact hy

theorem booked_same {o : Op} {r : Res o} {s : State} (hminted : mintedBy o r = []) :
    Booked o r s s := ⟨fun _ hy => .inl hy, by rw [hminted]; rfl⟩

theorem exec_booked {tid : Nat} {o : Op} {r : Res o} {s s' : State}
    (h : exec tid o r s = some s') : Booked o r s s' := by
  cases o with
  | getOrgMembership tenantID userID | getWorkspaceByName tenantID name
  | getWorkspace tenantID id | getMembership workspaceID userID tenantID
  | getSession tenantID id => exact booked_run (keepsSessions_one _) rfl h
  | createWorkspace tenantID name owner access =>
    cases r with
    | error e =>
      cases h
      exact booked_same rfl
    | ok w =>
      simp only [exec] at h
      split at h
      · exact booked_runAct (keepsSessions_createWorkspace w) rfl h
      · cases h
  | setAccessScope tenantID id access =>
    exact booked_run (keepsSessions_updateWorkspace _ _ _ _) rfl h
  | renameWorkspace tenantID id name =>
    exact booked_run (keepsSessions_renameWorkspace _ _ _) rfl h
  | putMember tenantID workspaceID userID role =>
    refine booked_runAct (keepsSessions_bind (keepsSessions_one _) fun _ => ?_) rfl h
    exact keepsSessions_addMember _ _ _ _
  | removeMember tenantID workspaceID userID =>
    refine booked_runAct ?_ rfl h
    intro c x c' hrun
    cases hrun
    rfl
  | createSession tenantID workspaceID userID =>
    cases r with
    | error e =>
      cases h
      exact booked_same rfl
    | ok x =>
      simp only [exec] at h
      split at h
      · obtain ⟨c, htx, rfl⟩ := run_ok h
        obtain ⟨hcreate, -⟩ := createSession_ok htx
        refine ⟨?_, rfl⟩
        intro y hy
        rw [Sessions.createSession_rows hcreate] at hy
        exact List.mem_append.mp hy
      · cases h
  | resolveIdentity tenantID workspaceID userID =>
    exact booked_run (keepsSessions_resolveIdentity _ _ _) rfl h
  | readOrgSettings tenantID | outside a | startSession sessionID =>
    cases h
    exact booked_same rfl
  | attachToken userID sessionID tenantID workspaceName orgSlug mode =>
    cases r with
    | error e =>
      cases h
      exact booked_same rfl
    | ok x =>
      cases h
      exact ⟨fun _ hy => .inl hy, rfl⟩

end Lemul.MgmtApi.Access
