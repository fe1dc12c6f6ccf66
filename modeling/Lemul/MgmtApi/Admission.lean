import Lemul.MgmtApi.TunnelServer
import Lemul.Misc.TextFields

/-!
# Admission

Whether a workspace takes another session (`admission.go:22-130`): `admits` on the latest
report of its task, and `fresh` (`activity.go:70-79`).
-/

namespace Lemul.MgmtApi

/-- `fresh` (`activity.go:77-79`), in seconds. -/
def fresh (r : ActivityReport) (now interval : Nat) : Bool := now - r.receivedAt ≤ 3 * interval

/-- `admission_policy`, with the values its CHECK admits (`schema.sql:191-193`). -/
inductive AdmissionKind where
  | unlimited
  | maxSessions
  | minFreeMemoryPct
  deriving DecidableEq, Repr

/-- `admissionPolicy` (`admission.go:41-45`). -/
structure AdmissionPolicy where
  policy : AdmissionKind
  maxSessions : Int
  minFreePct : Int
  deriving DecidableEq, Repr

/-- `minFreeFloorMB` (`admission.go:38`). -/
def minFreeFloorMB : Int := 768

/-- `verdict` (`admission.go:51-54`). -/
structure AdmissionVerdict where
  admits : Bool
  reason : GoString
  deriving DecidableEq, Repr

/-- `byCount` of `admits` (`admission.go:72-79`). -/
def byCount (p : AdmissionPolicy) (report : Headroom) : AdmissionVerdict :=
  if report.sessions ≥ p.maxSessions then
    ⟨false, "this workspace already has " ++ formatInt report.sessions ++ " of " ++
      formatInt p.maxSessions ++ " sessions; stop one, or raise max_sessions"⟩
  else ⟨true, []⟩

/-- `admits` (`admission.go:62-115`). The product is taken in 64 bits. -/
def admits (p : AdmissionPolicy) (report : Headroom) (known fresh : Bool) : AdmissionVerdict :=
  if p.policy = .unlimited then ⟨true, []⟩
  else if known = false then ⟨true, []⟩
  else if p.policy = .maxSessions then byCount p report
  else if report.memLimitMB = 0 then ⟨true, []⟩
  else if fresh = false then byCount p report
  else
    let share := ((report.memLimitMB * p.minFreePct).bmod (2 ^ 64)).tdiv 100
    let required := if share < minFreeFloorMB then minFreeFloorMB else share
    if report.memFreeMB < required then
      ⟨false, "this workspace has " ++ formatInt report.memFreeMB ++
        " MB free and needs " ++ formatInt required ++ " MB to take another session (" ++
        formatInt p.minFreePct ++ "% of " ++ formatInt report.memLimitMB ++
        " MB, floored at " ++ formatInt minFreeFloorMB ++
        " MB); stop a session or use a larger instance"⟩
    else ⟨true, []⟩

/-- `admitSession` (`admission.go:119-122`), given the entry of the activity store. -/
def admitSession (p : AdmissionPolicy) (entry : Option ActivityReport) (now interval : Nat) :
    AdmissionVerdict :=
  match entry with
  | none => admits p ⟨[], 0, 0, 0, []⟩ false false
  | some rep => admits p rep.headroom true (fresh rep now interval)

end Lemul.MgmtApi
