import Lemul.MgmtApi.Admission
import Lemul.MgmtApi.WorkspaceCrud

/-!
# Changing a workspace

`handleRenameWorkspace` (`workspacecrud.go:279-369`) after the caller has been admitted: a PATCH
may name the policy, the access scope and the name. Up to three statements are executed one
after the other, each in a transaction of its own (`state.go:168-186`,
`workspacecrud.go:576-600`), and after each of them the request can still be refused.
-/

namespace Lemul.MgmtApi.Patch

open Store

/-- The conversion `int32(n)`. -/
def int32 (n : Int) : Int := n.bmod (2 ^ 32)

/-- The policy columns of `workspace`. -/
structure Policy where
  idleTimeoutSecs : Int
  warmHoldSecs : Int
  admissionPolicy : AdmissionKind
  maxSessions : Int
  minFreeMemoryPct : Int
  deriving DecidableEq

/-- Their CHECKs (`schema.sql:314-341`). -/
def Policy.Valid (p : Policy) : Prop :=
  0 ≤ p.idleTimeoutSecs ∧ 0 ≤ p.warmHoldSecs ∧ 0 < p.maxSessions ∧
    0 ≤ p.minFreeMemoryPct ∧ p.minFreeMemoryPct ≤ 100

instance (p : Policy) : Decidable p.Valid := by
  unfold Policy.Valid
  infer_instance

/-- The columns that the handler reads or writes. -/
structure Row where
  name : GoString
  accessScope : AccessScope
  status : WorkspaceStatus
  policy : Policy
  valid : policy.Valid

/-- `workspacePolicyDoc` (`console.go:82-88`): what is absent is left alone. -/
structure PolicyDoc where
  idleTimeoutSecs : Option Int
  warmHoldSecs : Option Int
  admissionPolicy : Option GoString
  maxSessions : Option Int
  minFreeMemoryPct : Option Int
  deriving DecidableEq

/-- `validAdmissionPolicies` (`workspacecrud.go:266-270`). -/
def parseAdmission (policy : GoString) : Option AdmissionKind :=
  if policy = "unlimited" then some .unlimited
  else if policy = "max_sessions" then some .maxSessions
  else if policy = "min_free_memory_pct" then some .minFreeMemoryPct
  else none

/-- A number with a lower bound. -/
def number (low : Int) (refusal : GoString) (old : Int) : Option Int → Except GoString Int
  | none => .ok old
  | some n => if n < low then .error refusal else .ok (int32 n)

/-- The admission policy of a body (`workspacecrud.go:242-247`). -/
def admission (old : AdmissionKind) : Option GoString → Except GoString AdmissionKind
  | none => .ok old
  | some policy =>
      match parseAdmission policy with
      | some kind => .ok kind
      | none => .error (str ("\"admission_policy\" must be one of: unlimited, max_sessions, " ++
          "min_free_memory_pct"))

/-- Its percentage (`workspacecrud.go:254-259`). -/
def percentage (old : Int) : Option Int → Except GoString Int
  | none => .ok old
  | some n =>
      if n < 0 ∨ 100 < n then .error "\"min_free_memory_pct\" must be between 0 and 100"
      else .ok (int32 n)

/-- `applyTo` (`workspacecrud.go:226-261`). -/
def PolicyDoc.applyTo (p : PolicyDoc) (ws : Policy) : Except GoString Policy := do
  let idle ← number 0 "\"idle_timeout_secs\" cannot be negative; 0 disables the idle stop"
    ws.idleTimeoutSecs p.idleTimeoutSecs
  let warm ← number 0 "\"warm_hold_secs\" cannot be negative" ws.warmHoldSecs p.warmHoldSecs
  let policy ← admission ws.admissionPolicy p.admissionPolicy
  let max ← number 1 "\"max_sessions\" must be at least 1" ws.maxSessions p.maxSessions
  let pct ← percentage ws.minFreeMemoryPct p.minFreeMemoryPct
  pure ⟨idle, warm, policy, max, pct⟩

/-- `patchWorkspaceRequest` (`workspacecrud.go:213-220`), with the name `strings.TrimSpace`
left. -/
structure PatchRequest where
  name : GoString
  accessScope : GoString
  policy : Option PolicyDoc

/-- What the statements and the registry answer: `running` is whether `PickWorkspace` finds a
tunnel. -/
structure Answers where
  policyFails : Bool
  scopeFails : Bool
  running : Bool
  rename : Option StoreError

/-- Everything that is checked before anything is written; what is left is the policy to
write. -/
def PatchRequest.validate (q : PatchRequest) (ws : Row) : Except GoString Policy :=
  if q.name = [] ∧ q.accessScope = [] ∧ q.policy = none then
    .error "send \"name\", \"access_scope\", \"policy\", or any combination"
  else
    match if q.name = [] then none else validWorkspaceName q.name with
    | some e => .error e
    | none =>
        if q.accessScope ≠ [] ∧ parseAccessScope q.accessScope = none then
          .error "\"access_scope\" must be one of: owner, members, org"
        else
          match q.policy with
          | none => .ok ws.policy
          | some doc => doc.applyTo ws.policy

/-- `setWorkspacePolicy` (`state.go:170-186`). -/
def setWorkspacePolicy (fails : Bool) (ws : Row) (want : Policy) : Option Row :=
  if h : want.Valid then if fails then none else some { ws with policy := want, valid := h }
  else none

/-- The scope that is asked for, where it is another than that of `ws`. -/
def PatchRequest.rescopes (q : PatchRequest) (ws : Row) : Option AccessScope :=
  (parseAccessScope q.accessScope).filter (· ≠ ws.accessScope)

/-- The last part (`workspacecrud.go:341-368`). -/
def renameTo (a : Answers) (ws : Row) (name : GoString) : Outcome × Row :=
  if name = [] ∨ name = ws.name then (.done, ws)
  else if a.running then
    (.refused 409 (str ("this workspace has a running task, and everything outside the " ++
      "database addresses it by name; stop its sessions and let the task go before renaming")), ws)
  else if ws.status ≠ .stopped then
    (.refused 409 ("this workspace is " ++ statusText ws.status ++
      "; renaming is only safe while it is stopped"), ws)
  else
    match a.rename with
    | some .uniqueViolation =>
        (.refused 409 ("a workspace called " ++ name ++ " already exists here"), ws)
    | some (.other _) => (.refused 500 "could not rename the workspace", ws)
    | none => (.done, { ws with name := name })

/-- `handleRenameWorkspace`: the answer, and the row it leaves. -/
def handleRenameWorkspace (a : Answers) (q : PatchRequest) (ws : Row) : Outcome × Row :=
  match q.validate ws with
  | .error bad => (.refused 400 bad, ws)
  | .ok want =>
      match if q.policy.isSome then setWorkspacePolicy a.policyFails ws want else some ws with
      | none => (.refused 500 "could not change the policy", ws)
      | some ws =>
          match q.rescopes ws with
          | none => renameTo a ws q.name
          | some scope =>
              if a.scopeFails then (.refused 500 "could not change the access scope", ws)
              else renameTo a { ws with accessScope := scope } q.name

end Lemul.MgmtApi.Patch
