import Lemul.Attach.Service

/-!
# Redemptions side by side

`redeemAttach` (`relay/relay.go:287-300`) step by step. `VerifyAttach` reads the clock
(`creds.go:282`), `use` reads it again before it takes its mutex (`relay.go:271-272`), and
inside the mutex it drops the entries that have expired by then, looks the nonce up and
records it (`relay.go:274-283`). Any number of redemptions run at once and time passes
between any two steps.
-/

namespace Lemul.Attach.Redemption

open Creds (AttachClaims CredsError Signer)

/-- The steps of a redemption. -/
inductive Op where
  /-- `VerifyAttach`, at the time it reads. -/
  | verifyAttach (tok : GoString)
  | now
  /-- `use` inside its mutex, with the time it read before. -/
  | use (nonce : GoString) (expires now : Int)
  deriving DecidableEq

abbrev Res : Op → Type
  | .verifyAttach _ => Except CredsError AttachClaims
  | .now => Int
  | .use _ _ _ => Bool

/-- Performing one step. -/
abbrev call (o : Op) : Prog Op Res (Res o) := Prog.perform o

/-- `redeemAttach` (`relay.go:287-300`). -/
def redeemAttach (tok : GoString) : Prog Op Res (Option AttachClaims) := do
  match ← call (.verifyAttach tok) with
  | .error _ => pure none
  | .ok c =>
      let now ← call .now
      let unspent ← call (.use c.nonce c.expiresAt now)
      if unspent then pure (some c) else pure none

/-- A nonce that was accepted: by whom, with which expiry and when. -/
structure Acceptance where
  tid : Nat
  nonce : GoString
  expires : Int
  time : Int
  deriving DecidableEq, Repr

/-- A relay. -/
structure Relay where
  clock : Int
  seen : UsedAttachNonces
  /-- The redemptions that have verified their credential and not yet used it, each with its
  expiry. -/
  pending : List (Nat × Int)
  /-- Every acceptance there has been. -/
  accepted : List Acceptance

def exec (signer : Signer) (tid : Nat) : (o : Op) → Res o → Relay → Option Relay
  | .verifyAttach tok, r, s =>
      if signer.verifyAttach s.clock tok = r then
        match r with
        | .error _ => some s
        | .ok c => some { s with pending := (tid, c.expiresAt) :: s.pending }
      else none
  | .now, r, s => if r = s.clock then some s else none
  | .use nonce expires now, r, s =>
      let used := s.seen.use nonce expires now
      if used.1 = r then
        some { s with
          seen := used.2
          pending := s.pending.erase (tid, expires)
          accepted := if r then s.accepted ++ [⟨tid, nonce, expires, s.clock⟩] else s.accepted }
      else none

/-- The clock never goes backwards. -/
def pass (d : Nat) (s : Relay) : Option Relay := some { s with clock := s.clock + d }

/-- A relay that is presented any tokens. -/
def relay (signer : Signer) : System Op Res Relay Nat GoString (Option AttachClaims) where
  exec := exec signer
  env := pass
  spawn tok _ := some (redeemAttach tok)

abbrev RelayPool := Pool Op Res Relay (Option AttachClaims)

/-- A relay that has just been started. -/
def boot (clock : Int) : RelayPool := ⟨⟨clock, [], [], []⟩, []⟩

/-! ## One redemption on its own -/

/-- Time alone leaves the used set as it is. -/
theorem pass_later {s s₀ s₁ : Relay} {d : Nat} (hmove : pass d s₀ = some s₁)
    (h : s₀.seen = s.seen ∧ s.clock ≤ s₀.clock) : s₁.seen = s.seen ∧ s.clock ≤ s₁.clock := by
  cases hmove
  exact ⟨h.1, h.2.trans (Int.le_add_of_nonneg_right (Int.natCast_nonneg d))⟩

variable {signer : Signer} {tid : Nat} {tok : GoString} {s s' : Relay}

theorem runs_step {o : Op} {f : Res o → Prog Op Res (Option AttachClaims)} {tr : Trace Op Res}
    {out : Option AttachClaims}
    (h : Prog.Runs (relay signer).toMachine tid (call o >>= f) s tr out s') :
    ∃ r s₁ s₂ rest, (s₁.seen = s.seen ∧ s.clock ≤ s₁.clock) ∧ exec signer tid o r s₁ = some s₂ ∧
      Prog.Runs (relay signer).toMachine tid (f r) s₂ rest out s' := by
  obtain ⟨r, s₁, s₂, rest, hlater, hexec, -, hrest⟩ :=
    Prog.runs_perform_bind (I := fun s₁ => s₁.seen = s.seen ∧ s.clock ≤ s₁.clock)
      (fun _ _ _ hmove h => pass_later hmove h) h ⟨rfl, le_rfl⟩
  exact ⟨r, s₁, s₂, rest, hlater, hexec, hrest⟩

theorem runs_end {a out : Option AttachClaims} {tr : Trace Op Res}
    (h : Prog.Runs (relay signer).toMachine tid (.ret a) s tr out s') :
    out = a ∧ s'.seen = s.seen ∧ s.clock ≤ s'.clock :=
  (Prog.runs_ret (I := fun s₁ => s₁.seen = s.seen ∧ s.clock ≤ s₁.clock)
    (fun _ _ _ hmove h => pass_later hmove h) h ⟨rfl, le_rfl⟩).2

/-- However time passes, a redemption that no other interrupts ends as `redeemAttach` of the
service does at two times between its start and its end, and leaves the same used set. -/
theorem redeemAttach_alone {tr : Trace Op Res} {out : Option AttachClaims}
    (h : Prog.Runs (relay signer).toMachine tid (redeemAttach tok) s tr out s') :
    ∃ now later, s.clock ≤ now ∧ now ≤ later ∧ later ≤ s'.clock ∧
      Attach.redeemAttach signer s.seen tok now later = (out, s'.seen) := by
  unfold redeemAttach at h
  obtain ⟨verified, s₁, s₂, tr₁, ⟨hseen₁, hclock₁⟩, hverify, hrest⟩ := runs_step h
  simp only [exec] at hverify
  split at hverify
  case isFalse => cases hverify
  case isTrue hverified =>
    cases verified with
    | error e =>
      cases hverify
      obtain ⟨rfl, hseen, hclock⟩ := runs_end hrest
      refine ⟨s₁.clock, s₁.clock, hclock₁, le_rfl, hclock, ?_⟩
      simp only [Attach.redeemAttach, hverified, hseen, hseen₁]
    | ok c =>
      cases hverify
      obtain ⟨now, s₃, s₄, tr₂, ⟨hseen₃, hclock₃⟩, hnow, hused⟩ := runs_step hrest
      obtain ⟨rfl, hsame⟩ := Option.ite_none_right_eq_some.mp hnow
      cases hsame
      obtain ⟨unspent, s₅, s₆, tr₃, ⟨hseen₅, hclock₅⟩, huse, hend⟩ := runs_step hused
      obtain ⟨hunspent, hafter⟩ := Option.ite_none_right_eq_some.mp huse
      have hret : Prog.Runs (relay signer).toMachine tid
          (.ret (if unspent then some c else none)) s₆ tr₃ out s' := by
        cases unspent
        · exact hend
        · exact hend
      cases hafter
      obtain ⟨rfl, hseen, hclock⟩ := runs_end hret
      refine ⟨s₁.clock, s₃.clock, hclock₁, hclock₃, hclock₅.trans hclock, ?_⟩
      rw [hseen₅, hseen₃, hseen₁] at hunspent hseen
      simp only [Attach.redeemAttach, hverified, hunspent, hseen]

def demoSigner : Signer := MgmtApi.demoConfig.signer

/-- A credential minted at the time 0 for one minute, with all random bytes zero. -/
def demoToken : GoString :=
  demoSigner.attachToken "s1" "acme" "api" "acme" "control" 0 (List.replicate 12 0) 0

def demoClaims : AttachClaims :=
  Creds.newClaims "s1" "acme" "api" "acme" "control" 0 (List.replicate 12 0) 0

/-- A redemption during which time passes twice. -/
def demoMoves : List (Nat ⊕ (Σ o : Op, Res o)) :=
  [.inl 5, .inr ⟨.verifyAttach demoToken, .ok demoClaims⟩, .inl 7, .inr ⟨.now, (12 : Int)⟩,
    .inr ⟨.use demoClaims.nonce demoClaims.expiresAt 12, true⟩]

theorem redeemAttach_alone_demoMoves : ∃ now later, 0 ≤ now ∧ now ≤ later ∧ later ≤ 12 ∧
    Attach.redeemAttach demoSigner [] demoToken now later =
      (some demoClaims, [(demoClaims.nonce, demoClaims.expiresAt)]) := by
  have hfollow : (Prog.follow (relay demoSigner).toMachine 0 (redeemAttach demoToken)
      ⟨0, [], [], []⟩ demoMoves).map (fun x => (x.2.1, x.2.2.clock, x.2.2.seen)) =
      some (some demoClaims, 12, [(demoClaims.nonce, demoClaims.expiresAt)]) := by decide +kernel
  obtain ⟨x, hx, hfinal⟩ := Option.map_eq_some_iff.mp hfollow
  obtain ⟨hout, hclock, hseen⟩ : x.2.1 = _ ∧ x.2.2.clock = _ ∧ x.2.2.seen = _ := by
    simpa only [Prod.mk.injEq] using hfinal
  obtain ⟨now, later, hnow, hlater, hend, heq⟩ := redeemAttach_alone (Prog.follow_runs hx)
  exact ⟨now, later, hnow, hlater, hclock ▸ hend, by rw [heq, hout, hseen]⟩

end Lemul.Attach.Redemption
