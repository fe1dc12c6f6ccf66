import Lemul.Attach.Redemption

/-!
# An attach credential is used once

An entry of the used set is dropped once its credential has expired (`relay.go:274-278`), on
the ground that `VerifyAttach` refuses the credential from then on. That is so as long as no
credential expires between its verification and the look-up of its nonce. Otherwise the entry
of an earlier redemption may be gone, and the credential is accepted again.
-/

namespace Lemul.Attach.Redemption

open List Lemul.System

open Creds (AttachClaims Signer)

/-- Time passes only as far as no credential expires while it is being redeemed. -/
def redeemedInTime (s : Relay) : Lemul.Label Op Res Nat GoString → Prop
  | .env d => ∀ p ∈ s.pending, s.clock + d ≤ p.2
  | _ => True

instance (s : Relay) (l : Lemul.Label Op Res Nat GoString) : Decidable (redeemedInTime s l) := by
  unfold redeemedInTime
  split <;> infer_instance

/-- Two acceptances that are not of one credential. -/
def Acceptance.Apart (a b : Acceptance) : Prop := ¬(a.nonce = b.nonce ∧ a.expires = b.expires)

instance : Std.Symm Acceptance.Apart where
  symm _ _ h heq := h ⟨heq.1.symm, heq.2.symm⟩

/-- What the used set knows. -/
structure Tracked (s : Relay) : Prop where
  live : ∀ p ∈ s.pending, s.clock ≤ p.2
  seen : ∀ a ∈ s.accepted, s.clock ≤ a.expires → (a.nonce, a.expires) ∈ s.seen
  once : s.accepted.Pairwise Acceptance.Apart
  inTime : ∀ a ∈ s.accepted, a.time ≤ a.expires

/-- What must be so before a step. -/
def RedeemPre (tid : Nat) : Op → Relay → Prop
  | .use _ expires now, s => (tid, expires) ∈ s.pending ∧ now ≤ s.clock
  | _, _ => True

/-- What others leave alone. -/
structure RedeemRely (tid : Nat) (s s' : Relay) : Prop where
  clock : s.clock ≤ s'.clock
  pending : ∀ expires, (tid, expires) ∈ s.pending → (tid, expires) ∈ s'.pending
  accepted : ∀ a ∈ s.accepted, a ∈ s'.accepted

/-- The acceptance that a redemption's result rests on. -/
def Accepted (tid : Nat) (result : Option AttachClaims) (s : Relay) : Prop :=
  ∀ c, result = some c → ∃ a ∈ s.accepted, a.tid = tid ∧ a.nonce = c.nonce ∧
    a.expires = c.expiresAt

/-! ## Steps -/

section Steps

variable {signer : Signer} {tid : Nat} {s s' : Relay}

variable {seen : UsedAttachNonces} {nonce : GoString} {expires : Int}

theorem mem_use {n : GoString} {now e : Int} (h : (n, e) ∈ seen)
    (hlive : now ≤ e) : (n, e) ∈ (seen.use nonce expires now).2 := by
  have hkept : (n, e) ∈ seen.filter fun x => ¬x.2 < now :=
    mem_filter.mpr ⟨h, decide_eq_true (Int.not_lt.mpr hlive)⟩
  unfold UsedAttachNonces.use
  dsimp only
  split
  · exact hkept
  · exact mem_cons_of_mem _ hkept

/-- A nonce that is still in the set is not accepted. -/
theorem use_spent {now e : Int} (h : (nonce, e) ∈ seen)
    (hlive : now ≤ e) : (seen.use nonce expires now).1 = false := by
  have hkept : (nonce, e) ∈ seen.filter fun x => ¬x.2 < now :=
    mem_filter.mpr ⟨h, decide_eq_true (Int.not_lt.mpr hlive)⟩
  unfold UsedAttachNonces.use
  dsimp only
  rw [if_pos (any_eq_true.mpr ⟨_, hkept, decide_eq_true rfl⟩)]

theorem use_unspent {now : Int} (h : (seen.use nonce expires now).1 = true) : (nonce, expires)
    ∈ (seen.use nonce expires now).2 := by
  unfold UsedAttachNonces.use at h ⊢
  dsimp only at h ⊢
  split
  · rename_i hspent
    rw [if_pos hspent] at h
    cases h
  · exact mem_cons_self

theorem tracked_use {now : Int} {r : Bool} (h : Tracked s)
    (hpre : RedeemPre tid (.use nonce expires now) s)
    (hexec : exec signer tid (.use nonce expires now) r s = some s') : Tracked s' := by
  obtain ⟨hpending, hnow⟩ := hpre
  have hlive := h.live _ hpending
  simp only [exec] at hexec
  split at hexec <;> cases hexec
  rename_i hr
  have hold : ∀ a ∈ s.accepted, s.clock ≤ a.expires →
      (a.nonce, a.expires) ∈ (s.seen.use nonce expires now).2 :=
    fun a ha hlive => mem_use (h.seen a ha hlive) (Int.le_trans hnow hlive)
  cases r with
  | false =>
    exact ⟨fun p hp => h.live p (mem_of_mem_erase hp), hold, h.once, h.inTime⟩
  | true =>
    refine ⟨fun p hp => h.live p (mem_of_mem_erase hp), fun a ha hlive => ?_, ?_,
      fun a ha => ?_⟩
    · rcases mem_concat.mp ha with ha | rfl
      · exact hold a ha hlive
      · exact use_unspent hr
    · refine pairwise_append.mpr ⟨h.once, pairwise_singleton _ _, ?_⟩
      rintro a ha b hb ⟨hnonce, hexpires⟩
      obtain rfl := mem_singleton.mp hb
      -- the entry of the earlier acceptance would still be there
      have hin := h.seen a ha (hexpires ▸ hlive)
      rw [hnonce, hexpires] at hin
      rw [use_spent hin (Int.le_trans hnow hlive)] at hr
      cases hr
    · rcases mem_concat.mp ha with ha | rfl
      · exact h.inTime a ha
      · exact hlive

theorem tracked_exec {o : Op} {r : Res o} (h : Tracked s) (hpre : RedeemPre tid o s)
    (hexec : exec signer tid o r s = some s') :
    Tracked s' ∧ ∀ other, other ≠ tid → RedeemRely other s s' := by
  cases o with
  | verifyAttach tok =>
    simp only [exec] at hexec
    split at hexec
    · rename_i hverify
      cases r with
      | error e =>
        cases hexec
        exact ⟨h, fun _ _ => ⟨Int.le_refl _, fun _ hp => hp, fun _ ha => ha⟩⟩
      | ok c =>
        cases hexec
        obtain ⟨-, -, -, -, -, -, -, hlive⟩ := Signer.verifyAttach_ok hverify
        refine ⟨⟨fun p hp => ?_, h.seen, h.once, h.inTime⟩, fun _ _ => ?_⟩
        · rcases mem_cons.mp hp with rfl | hp
          · exact hlive
          · exact h.live p hp
        · exact ⟨Int.le_refl _, fun _ hp => mem_cons_of_mem _ hp, fun _ ha => ha⟩
    · cases hexec
  | now =>
    simp only [exec] at hexec
    split at hexec <;> cases hexec
    exact ⟨h, fun _ _ => ⟨Int.le_refl _, fun _ hp => hp, fun _ ha => ha⟩⟩
  | use nonce expires now =>
    refine ⟨tracked_use h hpre hexec, fun other hother => ?_⟩
    simp only [exec] at hexec
    split at hexec <;> cases hexec
    refine ⟨Int.le_refl _, fun e hp => ?_, fun a ha => ?_⟩
    · exact (mem_erase_of_ne fun heq => hother (congrArg Prod.fst heq)).mpr hp
    · dsimp only
      split
      · exact mem_append_left _ ha
      · exact ha

theorem tracked_pass {d : Nat} (h : Tracked s) (hcond : redeemedInTime s (.env d))
    (henv : pass d s = some s') : Tracked s' ∧ ∀ tid, RedeemRely tid s s' := by
  cases henv
  have hle : s.clock ≤ s.clock + d := Int.le_add_of_nonneg_right (Int.natCast_nonneg d)
  refine ⟨⟨hcond, fun a ha hlive => h.seen a ha (Int.le_trans hle hlive), h.once, h.inTime⟩,
    fun _ => ?_⟩
  exact ⟨hle, fun _ hp => hp, fun _ ha => ha⟩

end Steps

/-- Redemptions side by side. -/
def redeemOutline (signer : Signer) : Outline (relay signer) redeemedInTime where
  inv := Tracked
  rely := RedeemRely
  pre := RedeemPre
  post := Accepted
  rely_refl _ _ := ⟨Int.le_refl _, fun _ hp => hp, fun _ ha => ha⟩
  rely_trans _ _ _ _ h₁ h₂ := ⟨Int.le_trans h₁.clock h₂.clock,
    fun e hp => h₂.pending e (h₁.pending e hp), fun a ha => h₂.accepted a (h₁.accepted a ha)⟩
  op_ok h hpre _ hexec := tracked_exec h hpre hexec
  env_ok h hcond henv := tracked_pass h hcond henv

theorem redeemAttach_accepted {signer : Signer} {tid : Nat} {tok : GoString} {s : Relay} :
    (redeemOutline signer).Safe tid (redeemAttach tok) (Accepted tid) s := by
  refine Outline.safe_perform_bind fun s₁ _ _ => ⟨trivial, fun r s₂ hverify _ _ => ?_⟩
  cases r with
  | error e => exact nofun
  | ok c =>
    have hpending : (tid, c.expiresAt) ∈ s₂.pending := by
      have hexec : exec signer tid (.verifyAttach tok) (.ok c) s₁ = some s₂ := hverify
      simp only [exec] at hexec
      split at hexec <;> cases hexec
      exact mem_cons_self
    refine Outline.safe_perform_bind fun s₃ hrely₃ _ => ⟨trivial, fun now s₄ hnow _ _ => ?_⟩
    obtain ⟨rfl, rfl⟩ : now = s₃.clock ∧ s₃ = s₄ := by
      have hexec : exec signer tid .now now s₃ = some s₄ := hnow
      simp only [exec] at hexec
      split at hexec
      · rename_i heq
        cases hexec
        exact ⟨heq, rfl⟩
      · cases hexec
    refine Outline.safe_perform_bind fun s₅ hrely₅ _ =>
      ⟨⟨hrely₅.pending _ (hrely₃.pending _ hpending), hrely₅.clock⟩, fun r s₆ huse _ _ => ?_⟩
    have hexec : exec signer tid (.use c.nonce c.expiresAt s₃.clock) r s₅ = some s₆ := huse
    cases r with
    | false => exact nofun
    | true =>
      intro c' hc'
      obtain rfl := Option.some.inj hc'
      simp only [exec] at hexec
      split at hexec <;> cases hexec
      exact ⟨_, mem_append_right _ (mem_singleton_self _), rfl, rfl, rfl⟩

theorem tracked_boot (clock : Int) : Tracked (boot clock).shared where
  live := nofun
  seen := nofun
  once := .nil
  inTime := nofun

/-! ## Every run -/

/-- In every run of a relay in which no credential expires while it is being redeemed, a
credential is accepted by at most one redemption, and at a time not after its expiry. -/
theorem attach_accepted_once (signer : Signer) (clock : Int)
    {tr : List (Lemul.Label Op Res Nat GoString)} {pool : RelayPool}
    (hrun : Path (relay signer) redeemedInTime (boot clock) tr pool) :
    (∀ tid₁ tid₂ c, pool.result tid₁ = some (some c) → pool.result tid₂ = some (some c) →
      tid₁ = tid₂) ∧
    ∀ tid c, pool.result tid = some (some c) → ∃ a ∈ pool.shared.accepted, a.tid = tid ∧
      a.nonce = c.nonce ∧ a.expires = c.expiresAt ∧ a.time ≤ c.expiresAt := by
  obtain ⟨hholds, hreturned⟩ := (redeemOutline signer).sound_returned
    (fun tid result s s' hrely hpost c hc => by
      obtain ⟨a, ha, heq⟩ := hpost c hc
      exact ⟨a, hrely.accepted a ha, heq⟩)
    (fun tok s p tid _ _ hp => by
      cases hp
      exact redeemAttach_accepted) (tracked_boot clock) hrun
  have htracked : Tracked pool.shared := hholds.1
  have hentry : ∀ tid c, pool.result tid = some (some c) → ∃ a ∈ pool.shared.accepted,
      a.tid = tid ∧ a.nonce = c.nonce ∧ a.expires = c.expiresAt :=
    fun tid c hret => hreturned tid (some c) (Pool.result_eq_some.mp hret) c rfl
  refine ⟨fun tid₁ tid₂ c h₁ h₂ => ?_, fun tid c hret => ?_⟩
  · obtain ⟨a, ha, rfl, hnonce, hexpires⟩ := hentry tid₁ c h₁
    obtain ⟨b, hb, rfl, hnonce', hexpires'⟩ := hentry tid₂ c h₂
    by_contra hne
    have hapart := htracked.once.forall ha hb fun heq => hne (congrArg Acceptance.tid heq)
    exact hapart ⟨hnonce.trans hnonce'.symm, hexpires.trans hexpires'.symm⟩
  · obtain ⟨a, ha, htid, hnonce, hexpires⟩ := hentry tid c hret
    exact ⟨a, ha, htid, hnonce, hexpires, hexpires ▸ htracked.inTime a ha⟩

/-! ## A credential that expires while it is being redeemed -/

/-- Two redemptions have verified the credential, and the first has used it. -/
def verifiedTwice : List (Lemul.Label Op Res Nat GoString) :=
  [.spawn demoToken, .spawn demoToken,
    .thread 0 (.verifyAttach demoToken) (.ok demoClaims),
    .thread 1 (.verifyAttach demoToken) (.ok demoClaims),
    .thread 0 .now (0 : Int),
    .thread 0 (.use demoClaims.nonce demoClaims.expiresAt 0) true]

/-- The second goes on a nanosecond after the expiry: it drops the entry of the first before it
looks for it. -/
def acceptedTwice : RelayPool :=
  final (relay demoSigner) anyStep (boot 0) (verifiedTwice ++
    ([.env 60000000001, .thread 1 .now (60000000001 : Int),
       .thread 1 (.use demoClaims.nonce demoClaims.expiresAt 60000000001) true] :
      List (Lemul.Label Op Res Nat GoString)))

theorem attach_accepted_twice :
    ∃ tr, Path (relay demoSigner) anyStep (boot 0) tr acceptedTwice ∧
      acceptedTwice.result 0 = some (some demoClaims) ∧
      acceptedTwice.result 1 = some (some demoClaims) :=
  ⟨_, final_path (by decide +kernel), by decide +kernel, by decide +kernel⟩

/-- The second goes on at the last moment. -/
def refusedAgain : RelayPool :=
  final (relay demoSigner) redeemedInTime (boot 0) (verifiedTwice ++
    ([.env 60000000000, .thread 1 .now (60000000000 : Int),
       .thread 1 (.use demoClaims.nonce demoClaims.expiresAt 60000000000) false] :
      List (Lemul.Label Op Res Nat GoString)))

theorem attach_accepted_once_of_two :
    refusedAgain.result 0 = some (some demoClaims) ∧
      refusedAgain.result 1 ≠ some (some demoClaims) := by
  have hrun : Path (relay demoSigner) redeemedInTime (boot 0) _ refusedAgain :=
    final_path (by decide +kernel)
  have hfirst : refusedAgain.result 0 = some (some demoClaims) := by decide +kernel
  refine ⟨hfirst, fun hsecond => ?_⟩
  exact absurd ((attach_accepted_once demoSigner 0 hrun).1 0 1 demoClaims hfirst hsecond)
    (by decide)

end Lemul.Attach.Redemption
