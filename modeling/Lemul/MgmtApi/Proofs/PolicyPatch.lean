import Lemul.MgmtApi.PatchWorkspace
import Lemul.Misc.Lists
import Lemul.Misc.Lts

/-!
# What a PATCH leaves behind

"Everything is validated before anything is applied, so a bad pair cannot leave a workspace
renamed but not rescoped" (`workspacecrud.go:297-298`). What is refused after the first
statement has been executed leaves its change behind.
-/

namespace Lemul.MgmtApi.Patch

open Store List Option

section Refused

variable {a : Answers} {q : PatchRequest} {ws ws' : Row} {want : Policy} {name : GoString}

/-- How many of policy, access scope and name `q` would change, where it asks for the policy
`want`. -/
def PatchRequest.changes (q : PatchRequest) (ws : Row) (want : Policy) : Nat :=
  (if want = ws.policy then 0 else 1) + (if q.rescopes ws = none then 0 else 1) +
    (if q.name = [] ∨ q.name = ws.name then 0 else 1)

/-- The row with the policy `want`. -/
def Row.withPolicy (ws : Row) (want : Policy) (h : want.Valid) : Row :=
  { ws with policy := want, valid := h }

theorem Row.withPolicy_eq {h : want.Valid} : ws.withPolicy want h = ws ↔ want = ws.policy := by
  constructor
  · exact fun heq => congrArg Row.policy heq
  · rintro rfl
    rfl

/-- Without a policy in the body there is none to write. -/
theorem validate_none (h : q.validate ws = .ok want) (hnone : q.policy = none) :
    want = ws.policy := by
  simp only [PatchRequest.validate, hnone] at h
  (repeat' split at h) <;> cases h
  rfl

/-- What a request comes to whose policy has been written. -/
theorem handle_of_stored (h : q.validate ws = .ok want) (hvalid : want.Valid)
    (hstored : a.policyFails = false ∨ q.policy = none) : handleRenameWorkspace a q ws =
      match q.rescopes ws with
      | none => renameTo a (ws.withPolicy want hvalid) q.name
      | some scope =>
          if a.scopeFails then
            (.refused 500 "could not change the access scope", ws.withPolicy want hvalid)
          else renameTo a { ws.withPolicy want hvalid with accessScope := scope } q.name := by
  cases hpolicy : q.policy with
  | none =>
    obtain rfl := validate_none h hpolicy
    simp only [handleRenameWorkspace, h, hpolicy, isSome_none]
    rfl
  | some doc =>
    have hfails : a.policyFails = false := by
      rcases hstored with hfails | hnone
      · exact hfails
      · cases hpolicy.symm.trans hnone
    simp only [handleRenameWorkspace, h, hpolicy, isSome_some, if_true, setWorkspacePolicy,
      dif_pos hvalid, hfails]
    rfl

/-- A refused rename leaves the row alone. -/
theorem renameTo_refused {code : Nat} {body : GoString}
    (h : (renameTo a ws name).1 = .refused code body) :
    (renameTo a ws name).2 = ws ∧ ¬(name = [] ∨ name = ws.name) := by
  by_cases hsame : name = [] ∨ name = ws.name
  · rw [renameTo, if_pos hsame] at h
    cases h
  refine ⟨?_, hsame⟩
  rw [renameTo, if_neg hsame] at h ⊢
  split
  · rfl
  split
  · rfl
  split
  · rfl
  · rfl
  · simp_all

/-- A rename is refused while a tunnel is registered. -/
theorem renameTo_running (ws : Row) (h : ¬(name = [] ∨ name = ws.name))
    (hrunning : a.running = true) :
    ∃ code body, renameTo a ws name = (.refused code body, ws) := by
  rw [renameTo, if_neg h, if_pos hrunning]
  exact ⟨_, _, rfl⟩

/-- For every row and every body: whatever the statements and the registry answer, a refused
PATCH leaves the row as it was, exactly where it is refused for what it asks or asks for at most
one change. -/
theorem refused_patch_unchanged_iff (q : PatchRequest) (ws : Row) :
    (∀ a code body, (handleRenameWorkspace a q ws).1 = .refused code body →
      (handleRenameWorkspace a q ws).2 = ws) ↔
    ∀ want, q.validate ws = .ok want → want.Valid → q.changes ws want ≤ 1 := by
  unfold PatchRequest.changes
  constructor
  · intro h want hwant hvalid
    by_contra hmany
    by_cases hname : q.name = [] ∨ q.name = ws.name
    · -- the policy is written, and the scope is not
      have hrun := handle_of_stored (a := ⟨false, true, false, none⟩) hwant hvalid (.inl rfl)
      have hkept := h ⟨false, true, false, none⟩
      cases hscope : q.rescopes ws with
      | none => grind
      | some scope =>
        rw [hscope] at hrun
        rw [hrun] at hkept
        have hsame := Row.withPolicy_eq.mp (hkept _ _ rfl)
        grind
    · -- a tunnel is found after the rest has been written
      have hrun := handle_of_stored (a := ⟨false, false, true, none⟩) hwant hvalid (.inl rfl)
      cases hscope : q.rescopes ws with
      | none =>
        simp only [hscope] at hrun
        obtain ⟨code, body, hrename⟩ := renameTo_running (a := ⟨false, false, true, none⟩)
          (ws.withPolicy want hvalid) hname rfl
        have hkept := h _ code body (by rw [hrun, hrename])
        rw [hrun, hrename] at hkept
        have hsame := Row.withPolicy_eq.mp hkept
        grind
      | some scope =>
        simp only [hscope, Bool.false_eq_true, if_false] at hrun
        obtain ⟨code, body, hrename⟩ := renameTo_running (a := ⟨false, false, true, none⟩)
          { ws.withPolicy want hvalid with accessScope := scope } hname rfl
        have hkept := h _ code body (by rw [hrun, hrename])
        rw [hrun, hrename] at hkept
        have hsame : scope = ws.accessScope := congrArg Row.accessScope hkept
        have hother := (Option.filter_eq_some_iff.mp hscope).2
        exact absurd hsame (of_decide_eq_true hother)
  · intro h a code body hrefused
    cases hwant : q.validate ws with
    | error e => simp only [handleRenameWorkspace, hwant]
    | ok want =>
      by_cases hstored : want.Valid ∧ (a.policyFails = false ∨ q.policy = none)
      · have hfew := h want hwant hstored.1
        rw [handle_of_stored hwant hstored.1 hstored.2] at hrefused ⊢
        cases hscope : q.rescopes ws with
        | none =>
          simp only [hscope] at hrefused ⊢
          obtain ⟨hrow, hname⟩ := renameTo_refused hrefused
          have hname : ¬(q.name = [] ∨ q.name = ws.name) := hname
          refine hrow.trans (Row.withPolicy_eq.mpr ?_)
          grind
        | some scope =>
          simp only [hscope] at hrefused ⊢
          split at hrefused
          · rename_i hfails
            rw [if_pos hfails]
            refine Row.withPolicy_eq.mpr ?_
            grind
          · obtain ⟨-, hname⟩ := renameTo_refused hrefused
            have hname : ¬(q.name = [] ∨ q.name = ws.name) := hname
            grind
      · -- the policy is not written
        cases hpolicy : q.policy with
        | none => exact absurd ⟨validate_none hwant hpolicy ▸ ws.valid, .inr hpolicy⟩ hstored
        | some doc =>
          have hnone : setWorkspacePolicy a.policyFails ws want = none := by
            unfold setWorkspacePolicy
            grind
          simp only [handleRenameWorkspace, hwant, hpolicy, isSome_some, if_true, hnone]

end Refused

/-- The columns of a workspace that has just been created (`schema.sql:314-341`). -/
def demoPolicy : Policy := ⟨7200, 3600, .minFreeMemoryPct, 4, 20⟩

def demoRow : Row := ⟨"api", .owner, .active, demoPolicy, by decide⟩

/-- A body that names fields of the policy only by number. -/
def policyDoc (idle warm max : Option Int) : PolicyDoc := ⟨idle, warm, none, max, none⟩

/-- A PATCH of the policy and the name, while the task runs: it is refused, and the idle stop has
been switched off. -/
theorem refused_patch_changed :
    ∃ (a : Answers) (q : PatchRequest) (code : Nat) (body : GoString),
      (handleRenameWorkspace a q demoRow).1 = .refused code body ∧
      demoRow.policy.idleTimeoutSecs = 7200 ∧
      (handleRenameWorkspace a q demoRow).2.policy.idleTimeoutSecs = 0 :=
  ⟨⟨false, false, true, none⟩, ⟨"web", [], some (policyDoc (some 0) none none)⟩, _, _,
    by rfl, rfl, by decide⟩

/-! ## Numbers -/

section Numbers

variable {doc : PolicyDoc} {ws : Row} {n low : Int}

/-- `handlePatchSession` (`lifecycle.go:93-123`), with the CHECK on the column
(`schema.sql:346-349`): the answer, and the timeout it leaves. -/
def handlePatchSession (fails : Bool) (idleTimeoutSecs : Option Int) (inherit : Bool)
    (old : Option Int) : Outcome × Option Int :=
  if idleTimeoutSecs = none ∧ inherit = false then
    (.refused 400 "send \"idle_timeout_secs\" or \"inherit_idle_timeout\"", old)
  else if inherit then
    if fails then (.refused 500 "could not change the idle timeout", old) else (.done, none)
  else
    match number 0 "\"idle_timeout_secs\" cannot be negative; 0 disables the idle stop" 0
        idleTimeoutSecs with
    | .error e => (.refused 400 e, old)
    | .ok secs =>
        if fails ∨ secs < 0 then (.refused 500 "could not change the idle timeout", old)
        else (.done, some secs)

/-- One hour, in the nanoseconds of a `time.Duration`. -/
def hour : Int := 3600000000000

/-- The expiry `handleCreateInvite` stores (`orgs.go:139-154`): `now` is in nanoseconds, the
column in microseconds. -/
def inviteExpiry (now expiresInHours : Int) : Int :=
  (now + if 0 < expiresInHours then (expiresInHours * hour).bmod (2 ^ 64) else 7 * 24 * hour) / 1000

/-- A number that passes the check of the request and, converted, the CHECK of the column. -/
def Accepted (low n : Int) : Prop := low ≤ n ∧ low ≤ int32 n

/-- Every field of the body is accepted. -/
structure PolicyDoc.Accepted (doc : PolicyDoc) : Prop where
  idle : ∀ n, doc.idleTimeoutSecs = some n → Patch.Accepted 0 n
  warm : ∀ n, doc.warmHoldSecs = some n → Patch.Accepted 0 n
  max : ∀ n, doc.maxSessions = some n → Patch.Accepted 1 n
  pct : ∀ n, doc.minFreeMemoryPct = some n → 0 ≤ n ∧ n ≤ 100
  admission : ∀ s, doc.admissionPolicy = some s → parseAdmission s ≠ none

/-- Every number of the body has the property `P`. -/
def PolicyDoc.Numbers (doc : PolicyDoc) (P : Int → Prop) : Prop :=
  (∀ n, doc.idleTimeoutSecs = some n → P n) ∧ (∀ n, doc.warmHoldSecs = some n → P n) ∧
    ∀ n, doc.maxSessions = some n → P n

/-- The columns hold the numbers that were sent. -/
def Stored (doc : PolicyDoc) (p : Policy) : Prop :=
  (∀ n, doc.idleTimeoutSecs = some n → p.idleTimeoutSecs = n) ∧
    (∀ n, doc.warmHoldSecs = some n → p.warmHoldSecs = n) ∧
    ∀ n, doc.maxSessions = some n → p.maxSessions = n

/-- A non-negative number is converted to itself exactly where it fits. -/
theorem int32_eq_iff (h : 0 ≤ n) : int32 n = n ↔ n < 2 ^ 31 := by
  unfold int32
  rw [Int.bmod_def]
  omega

theorem number_eq_ok {refusal : GoString} {old v : Int} {sent : Option Int} :
    number low refusal old sent = .ok v ↔
      (∀ n, sent = some n → low ≤ n) ∧ v = (sent.map int32).getD old := by
  cases sent with
  | none | some n => grind [number]

/-- What `applyTo` makes of a policy. -/
structure Applied (doc : PolicyDoc) (p want : Policy) : Prop where
  idle : want.idleTimeoutSecs = (doc.idleTimeoutSecs.map int32).getD p.idleTimeoutSecs
  warm : want.warmHoldSecs = (doc.warmHoldSecs.map int32).getD p.warmHoldSecs
  admission : want.admissionPolicy =
    (doc.admissionPolicy.bind parseAdmission).getD p.admissionPolicy
  max : want.maxSessions = (doc.maxSessions.map int32).getD p.maxSessions
  pct : want.minFreeMemoryPct = (doc.minFreeMemoryPct.map int32).getD p.minFreeMemoryPct

theorem applyTo_eq_ok {p want : Policy} : doc.applyTo p = .ok want ↔
    Applied doc p want ∧ (∀ n, doc.idleTimeoutSecs = some n → 0 ≤ n) ∧
      (∀ n, doc.warmHoldSecs = some n → 0 ≤ n) ∧ (∀ n, doc.maxSessions = some n → 1 ≤ n) ∧
      (∀ n, doc.minFreeMemoryPct = some n → 0 ≤ n ∧ n ≤ 100) ∧
      ∀ s, doc.admissionPolicy = some s → parseAdmission s ≠ none := by
  have hbind : ∀ {α β : Type} {x : Except GoString α} {f : α → Except GoString β} {b : β},
      (x >>= f) = .ok b ↔ ∃ a, x = .ok a ∧ f a = .ok b := by
    intro α β x f b
    cases x with
    | error e => exact ⟨nofun, fun ⟨_, h, _⟩ => nomatch h⟩
    | ok a => exact ⟨fun h => ⟨a, rfl, h⟩, fun ⟨_, h, hf⟩ => Except.ok.inj h ▸ hf⟩
  simp only [PolicyDoc.applyTo, hbind, number_eq_ok]
  constructor
  · rintro ⟨_, ⟨hidle, rfl⟩, _, ⟨hwarm, rfl⟩, kind, hkind, _, ⟨hmax, rfl⟩, pct, hpct, heq⟩
    cases heq
    refine ⟨⟨rfl, rfl, ?_, rfl, ?_⟩, hidle, hwarm, hmax, ?_, ?_⟩ <;>
      grind [admission.eq_def, percentage.eq_def]
  · rintro ⟨⟨hidle, hwarm, hadmission, hmax, hpct⟩, hi, hw, hm, hp, ha⟩
    refine ⟨_, ⟨hi, hidle⟩, _, ⟨hw, hwarm⟩, want.admissionPolicy, ?_, _, ⟨hm, hmax⟩,
      want.minFreeMemoryPct, ?_, rfl⟩ <;> grind [admission.eq_def, percentage.eq_def]

/-- A converted percentage is the percentage. -/
theorem int32_percentage (h : 0 ≤ n ∧ n ≤ 100) : int32 n = n := (int32_eq_iff h.1).mpr (by omega)

/-- What holds of the stored number and of the one sent holds of the one written. -/
theorem written {P : Int → Prop} {sent : Option Int} {old : Int}
    (hsent : ∀ n, sent = some n → P (int32 n)) (hold : P old) :
    P ((sent.map int32).getD old) := by
  cases sent with
  | none => exact hold
  | some n => exact hsent n rfl

/-- A body is accepted exactly where there is a policy to write. -/
theorem accepted_iff (ws : Row) :
    doc.Accepted ↔ ∃ want, doc.applyTo ws.policy = .ok want ∧ want.Valid := by
  obtain ⟨hidle, hwarm, hmax, hpct⟩ := ws.valid
  constructor
  · intro h
    refine ⟨⟨_, _, _, _, _⟩, applyTo_eq_ok.mpr ⟨⟨rfl, rfl, rfl, rfl, rfl⟩,
      fun n hn => (h.idle n hn).1, fun n hn => (h.warm n hn).1, fun n hn => (h.max n hn).1,
      h.pct, h.admission⟩, ?_⟩
    exact ⟨written (P := (0 ≤ ·)) (fun n hn => (h.idle n hn).2) hidle,
      written (P := (0 ≤ ·)) (fun n hn => (h.warm n hn).2) hwarm,
      written (P := (0 < ·)) (fun n hn => (h.max n hn).2) hmax,
      written (P := fun n => 0 ≤ n ∧ n ≤ 100)
        (fun n hn => by rw [int32_percentage (h.pct n hn)]; exact h.pct n hn) hpct⟩
  · rintro ⟨want, happly, hi', hw', hm', -⟩
    obtain ⟨happlied, hi, hw, hm, hp, ha⟩ := applyTo_eq_ok.mp happly
    refine ⟨fun n hn => ⟨hi n hn, ?_⟩, fun n hn => ⟨hw n hn, ?_⟩, fun n hn => ⟨hm n hn, ?_⟩, hp, ha⟩
    · simpa [happlied.idle, hn] using hi'
    · simpa [happlied.warm, hn] using hw'
    · have hpos : 0 < int32 n := by simpa [happlied.max, hn] using hm'
      exact hpos

/-- What is written is what was sent exactly where it fits. -/
theorem stored_iff {want : Policy} (h : doc.applyTo ws.policy = .ok want) :
    Stored doc want ↔ doc.Numbers (· < 2 ^ 31) := by
  obtain ⟨happlied, hi, hw, hm, -⟩ := applyTo_eq_ok.mp h
  have hfits : ∀ {low : Int} {v old : Int} {sent : Option Int}, 0 ≤ low →
      (∀ n, sent = some n → low ≤ n) → v = (sent.map int32).getD old →
      ((∀ n, sent = some n → v = n) ↔ ∀ n, sent = some n → n < 2 ^ 31) := by
    intro low v old sent hlow hsent hv
    cases sent with
    | none => grind
    | some n =>
      have hn := hsent n rfl
      have hiff := int32_eq_iff (n := n) (by omega)
      grind
  exact and_congr (hfits (by decide) hi happlied.idle) (and_congr
    (hfits (by decide) hw happlied.warm) (hfits (by decide) hm happlied.max))

theorem applyTo_of_validate {q : PatchRequest} {doc : PolicyDoc} {want : Policy}
    (h : q.validate ws = .ok want) (hpolicy : q.policy = some doc) :
    doc.applyTo ws.policy = .ok want := by
  simp only [PatchRequest.validate, hpolicy] at h
  (repeat' split at h) <;> first | exact h | cases h

/-- The request `r` answers was refused and left `old` as it was, or has stored what it was
sent. -/
def RefusedOr {α : Type} (r : Outcome × α) (old : α) (stored : α → Prop) : Prop :=
  ((∃ code body, r.1 = .refused code body) ∧ r.2 = old) ∨ stored r.2

/-- `q` asks for no other policy and no other scope than the row has, and its other name is refused
because the workspace is not stopped. -/
def PatchRequest.Fruitless (q : PatchRequest) (ws : Row) (want : Policy) : Prop :=
  want = ws.policy ∧ q.rescopes ws = none ∧ ¬(q.name = [] ∨ q.name = ws.name) ∧ ws.status ≠ .stopped

theorem renameTo_policy (a : Answers) (ws : Row) (name : GoString) :
    (renameTo a ws name).2.policy = ws.policy := by
  unfold renameTo
  (repeat' split) <;> rfl

/-- What follows the policy leaves it alone. -/
theorem handle_policy {a : Answers} {q : PatchRequest} {want : Policy}
    (h : q.validate ws = .ok want) (hvalid : want.Valid) (hfails : a.policyFails = false) :
    (handleRenameWorkspace a q ws).2.policy = want := by
  rw [handle_of_stored h hvalid (.inl hfails)]
  split
  · exact renameTo_policy ..
  · split
    · rfl
    · exact renameTo_policy ..

/-- Where every statement is executed, only the status can stand in the way of a name. -/
theorem handle_unchanged {q : PatchRequest} {want : Policy} {code : Nat} {body : GoString}
    (h : q.validate ws = .ok want) (hvalid : want.Valid)
    (hrefused : (handleRenameWorkspace ⟨false, false, false, none⟩ q ws).1 = .refused code body)
    (hrow : (handleRenameWorkspace ⟨false, false, false, none⟩ q ws).2 = ws) :
    q.Fruitless ws want := by
  have hpolicy : want = ws.policy :=
    (handle_policy (a := ⟨false, false, false, none⟩) h hvalid rfl).symm.trans
      (congrArg Row.policy hrow)
  rw [handle_of_stored h hvalid (.inl rfl)] at hrefused hrow
  cases hscope : q.rescopes ws with
  | some scope =>
    simp only [hscope, Bool.false_eq_true, if_false] at hrefused hrow
    obtain ⟨hleft, -⟩ := renameTo_refused hrefused
    rw [hleft] at hrow
    have hsame : scope = ws.accessScope := congrArg Row.accessScope hrow
    exact absurd hsame (of_decide_eq_true (Option.filter_eq_some_iff.mp hscope).2)
  | none =>
    simp only [hscope] at hrefused
    obtain ⟨-, hname⟩ := renameTo_refused hrefused
    refine ⟨hpolicy, hscope, hname, fun hstopped => ?_⟩
    have hstopped : (ws.withPolicy want hvalid).status = .stopped := hstopped
    simp [renameTo, hname, hstopped] at hrefused

theorem policy_stored_iff {name scope : GoString} :
    (∀ a, RefusedOr (handleRenameWorkspace a ⟨name, scope, some doc⟩ ws) ws (Stored doc ·.policy)) ↔
      ∀ want, PatchRequest.validate ⟨name, scope, some doc⟩ ws = .ok want → doc.Accepted →
        doc.Numbers (· < 2 ^ 31) ∨ PatchRequest.Fruitless ⟨name, scope, some doc⟩ ws want := by
  constructor
  · intro h want hvalidate haccepted
    have happly := applyTo_of_validate hvalidate rfl
    obtain ⟨want', happly', hvalid⟩ := (accepted_iff ws).mp haccepted
    obtain rfl := Except.ok.inj (happly'.symm.trans happly)
    rcases h ⟨false, false, false, none⟩ with ⟨⟨code, body, hrefused⟩, hrow⟩ | hstored
    · exact .inr (handle_unchanged hvalidate hvalid hrefused hrow)
    · rw [handle_policy hvalidate hvalid rfl] at hstored
      exact .inl ((stored_iff happly).mp hstored)
  · intro h a
    cases hvalidate : PatchRequest.validate ⟨name, scope, some doc⟩ ws with
    | error bad => exact .inl (by simp [handleRenameWorkspace, hvalidate])
    | ok want =>
      have happly := applyTo_of_validate hvalidate rfl
      by_cases hvalid : want.Valid
      · cases hfails : a.policyFails with
        | true =>
          exact .inl (by
            simp [handleRenameWorkspace, hvalidate, setWorkspacePolicy, hvalid, hfails])
        | false =>
          rcases h want hvalidate ((accepted_iff ws).mpr ⟨want, happly, hvalid⟩) with
            hnumbers | ⟨rfl, hscope, hname, hstatus⟩
          · refine .inr (?_ : Stored doc (handleRenameWorkspace a _ ws).2.policy)
            rw [handle_policy hvalidate hvalid hfails]
            exact (stored_iff happly).mpr hnumbers
          · left
            rw [handle_of_stored hvalidate hvalid (.inl hfails), hscope]
            have hname : ¬(name = [] ∨ name = (ws.withPolicy ws.policy hvalid).name) := hname
            have hstatus : (ws.withPolicy ws.policy hvalid).status ≠ .stopped := hstatus
            simp only [renameTo, if_neg hname, if_pos hstatus]
            split
            · exact ⟨⟨_, _, rfl⟩, rfl⟩
            · exact ⟨⟨_, _, rfl⟩, rfl⟩
      · exact .inl (by simp [handleRenameWorkspace, hvalidate, setWorkspacePolicy, hvalid])

theorem session_stored_iff {sent : Option Int} {inherit : Bool} {old : Option Int} :
    (∀ fails, RefusedOr (handlePatchSession fails sent inherit old) old
        (· = if inherit then none else sent)) ↔
      (inherit = false → ∀ n, sent = some n → Patch.Accepted 0 n → n < 2 ^ 31) := by
  constructor
  · rintro h rfl n rfl ⟨hlow, hcheck⟩
    have hstored := h false
    simp [handlePatchSession, number, RefusedOr, Int.not_lt.mpr hlow, Int.not_lt.mpr hcheck]
      at hstored
    exact (int32_eq_iff hlow).mp hstored
  · intro h fails
    cases inherit with
    | true => cases fails <;> simp [handlePatchSession, RefusedOr]
    | false =>
      cases sent with
      | none => simp [handlePatchSession, RefusedOr]
      | some n =>
        have hfits := fun hlow hcheck => (int32_eq_iff hlow).mpr (h rfl n rfl ⟨hlow, hcheck⟩)
        simp only [handlePatchSession, number, RefusedOr]
        grind

/-- Every number in a PATCH of a workspace, in a PATCH of a session and in a new invitation is
stored as it was sent, or refused with nothing changed, exactly where it is refused or fits: into
32 bits, and in hours into the 63 bits of a duration. A PATCH of a workspace that would change
nothing may also be refused for its name. A session that is to inherit its timeout keeps none,
whatever number is sent along. -/
theorem numbers_stored_iff (ws : Row) (name scope : GoString) (doc : PolicyDoc) (sent : Option Int)
    (inherit : Bool) (old : Option Int) (now hours : Int) :
    ((∀ a, RefusedOr (handleRenameWorkspace a ⟨name, scope, some doc⟩ ws) ws
        (Stored doc ·.policy)) ↔
      ∀ want, PatchRequest.validate ⟨name, scope, some doc⟩ ws = .ok want → doc.Accepted →
        doc.Numbers (· < 2 ^ 31) ∨ PatchRequest.Fruitless ⟨name, scope, some doc⟩ ws want) ∧
    ((∀ fails, RefusedOr (handlePatchSession fails sent inherit old) old
        (· = if inherit then none else sent)) ↔
      (inherit = false → ∀ n, sent = some n → Patch.Accepted 0 n → n < 2 ^ 31)) ∧
    ((0 < hours → inviteExpiry now hours = (now + hours * hour) / 1000) ↔
      hours * hour < 2 ^ 63) := by
  refine ⟨policy_stored_iff, session_stored_iff, ?_⟩
  by_cases hpos : 0 < hours
  · rw [inviteExpiry, if_pos hpos, Int.bmod_def]
    unfold hour
    omega
  · unfold hour
    grind

/-- An idle timeout of `2 ^ 32` seconds is stored as 0, which is that of no idle stop at all. -/
theorem long_timeout_disables :
    ∃ (a : Answers) (doc : PolicyDoc), doc.idleTimeoutSecs = some 4294967296 ∧
      (handleRenameWorkspace a ⟨[], [], some doc⟩ demoRow).1 = .done ∧
      (handleRenameWorkspace a ⟨[], [], some doc⟩ demoRow).2.policy.idleTimeoutSecs = 0 :=
  ⟨⟨false, false, false, none⟩, policyDoc (some 4294967296) none none, rfl, by rfl, by decide⟩

end Numbers

/-! ## Requests at the same time -/

section Concurrent

/-- The columns of a policy. -/
inductive Field where
  | idleTimeoutSecs | warmHoldSecs | admissionPolicy | maxSessions | minFreeMemoryPct
deriving DecidableEq

/-- The value of a column. -/
def Policy.get (p : Policy) : Field → Int ⊕ AdmissionKind
  | .idleTimeoutSecs => .inl p.idleTimeoutSecs
  | .warmHoldSecs => .inl p.warmHoldSecs
  | .admissionPolicy => .inr p.admissionPolicy
  | .maxSessions => .inl p.maxSessions
  | .minFreeMemoryPct => .inl p.minFreeMemoryPct

/-- Whether a body names a column. -/
def PolicyDoc.names (doc : PolicyDoc) : Field → Bool
  | .idleTimeoutSecs => doc.idleTimeoutSecs.isSome
  | .warmHoldSecs => doc.warmHoldSecs.isSome
  | .admissionPolicy => doc.admissionPolicy.isSome
  | .maxSessions => doc.maxSessions.isSome
  | .minFreeMemoryPct => doc.minFreeMemoryPct.isSome

/-- A workspace under any number of requests: each pending one with the row
`requireWorkspaceOwner` read for it, and the policies written, the last one first. -/
structure Patching where
  row : Row
  pending : List (PatchRequest × Row)
  commits : List (PolicyDoc × Policy)

/-- A request is admitted, with the row as it is; one writes its policy. -/
inductive Move where
  | admitted (q : PatchRequest)
  | wrote (i : Nat) (fails : Bool)

/-- The requests, in any order. -/
def patches : Lts Patching Move where
  step s
    | .admitted q => some { s with pending := s.pending ++ [(q, s.row)] }
    | .wrote i fails => do
        let (q, copy) ← s.pending[i]?
        let rest := s.pending.eraseIdx i
        match q.validate copy, q.policy with
        | .ok want, some doc =>
            match setWorkspacePolicy fails s.row want with
            | some row => some ⟨row, rest, (doc, want) :: s.commits⟩
            | none => some { s with pending := rest }
        | _, _ => some { s with pending := rest }

/-- The value of a column the last request that named it wrote. -/
def lastNamed (f : Field) (old : Int ⊕ AdmissionKind) :
    List (PolicyDoc × Policy) → Int ⊕ AdmissionKind
  | [] => old
  | (doc, p) :: commits => if doc.names f then p.get f else lastNamed f old commits

/-- No column the request does not name has changed since its row was read. -/
def Move.UpToDate (s : Patching) : Move → Prop
  | .admitted _ => True
  | .wrote i _ => ∀ r ∈ s.pending[i]?, ∀ doc ∈ r.1.policy, ∀ f, doc.names f = false →
      r.2.policy.get f = s.row.policy.get f

instance {P : Field → Prop} [DecidablePred P] : Decidable (∀ f, P f) :=
  decidable_of_iff (P .idleTimeoutSecs ∧ P .warmHoldSecs ∧ P .admissionPolicy ∧ P .maxSessions ∧
    P .minFreeMemoryPct) ⟨fun h f => by cases f <;> grind, fun h => ⟨h _, h _, h _, h _, h _⟩⟩

instance (s : Patching) : DecidablePred (Move.UpToDate s)
  | .admitted _ => .isTrue trivial
  | .wrote i _ => by
      unfold Move.UpToDate
      infer_instance

variable {s s' : Patching} {ws : Row} {l : Move} {tr : List Move}

theorem Applied.get_of_unnamed {doc : PolicyDoc} {p want : Policy} {f : Field}
    (h : Applied doc p want) (hf : doc.names f = false) : want.get f = p.get f := by
  cases f <;> simp_all [PolicyDoc.names, Policy.get, h.idle, h.warm, h.admission, h.max, h.pct]

/-- A step writes nothing, or the policy of a request, folded onto the row that was read for
it. -/
theorem patches_step (h : patches.step s l = some s') :
    s'.row.policy = s.row.policy ∧ s'.commits = s.commits ∨
      ∃ i fails r doc want, l = .wrote i fails ∧ s.pending[i]? = some r ∧ r.1.policy = some doc ∧
        doc.applyTo r.2.policy = .ok want ∧ s'.row.policy = want ∧
        s'.commits = (doc, want) :: s.commits := by
  cases l with
  | admitted q =>
    cases h
    exact .inl ⟨rfl, rfl⟩
  | wrote i fails =>
    simp only [patches] at h
    obtain ⟨⟨q, copy⟩, hr, h⟩ := bind_eq_some_iff.mp h
    split at h
    · rename_i want doc hvalidate hpolicy
      split at h <;> cases h
      · rename_i row hset
        refine .inr ⟨i, fails, (q, copy), doc, want, rfl, hr, hpolicy,
          applyTo_of_validate hvalidate hpolicy, ?_, rfl⟩
        grind [setWorkspacePolicy]
      · exact .inl ⟨rfl, rfl⟩
    · cases h
      exact .inl ⟨rfl, rfl⟩

/-- In every run in which a policy is written only where no column its request does not name has
changed since the row was read, each column has the value that the last request to name it
wrote. -/
theorem column_of_last_named
    (h : (patches.restrict Move.UpToDate).Run ⟨ws, [], []⟩ tr s) (f : Field) :
    s.row.policy.get f = lastNamed f (ws.policy.get f) s.commits := by
  refine h.invariant (I := fun s => s.row.policy.get f = lastNamed f (ws.policy.get f) s.commits)
    (fun s l s' hinv hstep => ?_) rfl
  obtain ⟨hcond, hstep⟩ := Lts.restrict_step hstep
  rcases patches_step hstep with ⟨hrow, hcommits⟩ |
    ⟨i, fails, r, doc, want, rfl, hr, hpolicy, happly, hrow, hcommits⟩
  · rw [hrow, hcommits, hinv]
  · rw [hrow, hcommits, lastNamed]
    split
    · rfl
    · rename_i hnames
      have hunnamed := Bool.eq_false_iff.mpr hnames
      calc want.get f
        _ = r.2.policy.get f := (applyTo_eq_ok.mp happly).1.get_of_unnamed hunnamed
        _ = s.row.policy.get f := hcond r hr doc hpolicy f hunnamed
        _ = lastNamed f (ws.policy.get f) s.commits := hinv

/-- Two requests: one switches the idle stop off, the other one changes the warm hold. -/
def demoPatches : List PatchRequest :=
  [⟨[], [], some (policyDoc (some 0) none none)⟩, ⟨[], [], some (policyDoc none (some 60) none)⟩]

/-- Two requests that overlap: the one that writes last names the column the other one changes. -/
theorem column_of_last_named_overlapping : ∃ (tr : List Move) (s : Patching),
    (patches.restrict Move.UpToDate).Run ⟨demoRow, [], []⟩ tr s ∧ s.commits.length = 2 ∧
      s.row.policy.get .idleTimeoutSecs = .inl 900 ∧
      ∀ f, s.row.policy.get f = lastNamed f (demoRow.policy.get f) s.commits := by
  let tr : List Move := [.admitted ⟨[], [], some (policyDoc (some 0) none none)⟩,
    .admitted ⟨[], [], some (policyDoc (some 900) (some 60) none)⟩, .wrote 0 false, .wrote 0 false]
  have hrun : (patches.restrict Move.UpToDate).Run ⟨demoRow, [], []⟩ tr
      (((patches.restrict Move.UpToDate).exec ⟨demoRow, [], []⟩ tr).get (by decide +kernel)) :=
    Lts.exec_run (some_get _).symm
  exact ⟨tr, _, hrun, by decide +kernel, by decide +kernel, column_of_last_named hrun⟩

/-- Where both read the row before either writes, the second puts the old idle timeout back. -/
theorem named_column_lost : ∃ (tr : List Move) (s : Patching),
    patches.Run ⟨demoRow, [], []⟩ tr s ∧ s.pending = [] ∧
      lastNamed .idleTimeoutSecs (demoRow.policy.get .idleTimeoutSecs) s.commits = .inl 0 ∧
      s.row.policy.get .idleTimeoutSecs = .inl 7200 := by
  let tr := demoPatches.map Move.admitted ++ [.wrote 0 false, .wrote 0 false]
  exact ⟨tr, (patches.exec ⟨demoRow, [], []⟩ tr).get (by decide +kernel),
    Lts.exec_run (some_get _).symm, List.isEmpty_iff.mp (by decide +kernel),
    by decide +kernel, by decide +kernel⟩

end Concurrent

end Lemul.MgmtApi.Patch
