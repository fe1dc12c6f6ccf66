import Lemul.Creds.Signer
import Lemul.Misc.TextFields

/-!
# Attach credentials

`AttachClaims`, `AttachToken`, `VerifyAttach` and their payload encoding
(`internal/creds/creds.go:195-343`). A credential is the encoded claims and a MAC over
them, both in base64 and joined by a full stop; unlike a workspace credential it says in
itself what it is for.

Times are nanoseconds since the epoch. `rand.Read` and `time.Now` are arguments.
-/

namespace Lemul.Creds

open List

/-- `AttachClaims` (`creds.go:201-219`). -/
structure AttachClaims where
  sessionID : GoString
  tenantID : GoString
  workspaceName : GoString
  orgSlug : GoString
  mode : GoString
  expiresAt : Int
  nonce : GoString
  deriving DecidableEq, Repr

/-- Why a credential is refused (`creds.go:61-63`). -/
inductive CredsError where
  | malformed
  | signature
  | expired
  deriving DecidableEq, Repr

/-- `AttachTTL` (`creds.go:228`): one minute. -/
def attachTTL : Int := 60 * 10 ^ 9

/-- `attachFields` (`creds.go:295`). -/
def attachFields : Nat := 7

namespace AttachClaims

/-- `ExpiresAt.Unix()`: whole seconds, rounded down. -/
def unix (c : AttachClaims) : Int := c.expiresAt / 10 ^ 9

/-- The fields of the payload, in order (`creds.go:299-302`). -/
def fields (c : AttachClaims) : List GoString :=
  [c.sessionID, c.tenantID, c.workspaceName, c.orgSlug, c.mode, formatInt c.unix, c.nonce]

/-- The claims with the expiry cut to whole seconds. -/
def truncated (c : AttachClaims) : AttachClaims := { c with expiresAt := c.unix * 10 ^ 9 }

/-- Claims a Go program can hold: every string has an `int` length, and the expiry an
`int64` number of seconds. -/
structure Representable (c : AttachClaims) : Prop where
  fits : ∀ f ∈ c.fields, FitsInt f
  unix_low : -2 ^ 63 ≤ c.unix
  unix_high : c.unix < 2 ^ 63

end AttachClaims

/-- `encodeAttach` (`creds.go:297-308`). -/
def encodeAttach (c : AttachClaims) : GoString := textFields c.fields

/-- `decodeAttach` (`creds.go:310-343`). -/
def decodeAttach (s : GoString) : Except CredsError AttachClaims :=
  match readFields attachFields s with
  | some [sessionID, tenantID, workspaceName, orgSlug, mode, expires, nonce] =>
      match atoi expires with
      | none => .error .malformed
      | some exp =>
          .ok ⟨sessionID, tenantID, workspaceName, orgSlug, mode, exp * 10 ^ 9, nonce⟩
  | _ => .error .malformed

/-- The claims `AttachToken` signs (`creds.go:232-247`). -/
def newClaims (sessionID tenantID workspaceName orgSlug mode : GoString) (ttl : Int)
    (random : GoString) (now : Int) : AttachClaims :=
  ⟨sessionID, tenantID, workspaceName, orgSlug, mode,
    now + (if ttl ≤ 0 then attachTTL else ttl), base64Encode random⟩

namespace Signer

/-- What the MAC of an attach credential is taken over. -/
def attachMessage (payload : GoString) : GoString := macInput domainAttach [payload]

/-- The token of given claims (`creds.go:248-251`). -/
def attachSecret (s : Signer) (c : AttachClaims) : GoString :=
  base64Encode (encodeAttach c) ++ 46 :: base64Encode (s.mac domainAttach [encodeAttach c])

/-- `AttachToken` (`creds.go:231-252`) with the random bytes it drew and the time it read. -/
def attachToken (s : Signer) (sessionID tenantID workspaceName orgSlug mode : GoString)
    (ttl : Int) (random : GoString) (now : Int) : GoString :=
  s.attachSecret (newClaims sessionID tenantID workspaceName orgSlug mode ttl random now)

/-- `VerifyAttach` (`creds.go:261-286`) at time `now`. The signature is checked before the
payload is parsed. -/
def verifyAttach (s : Signer) (now : Int) (tok : GoString) : Except CredsError AttachClaims :=
  match cut 46 tok with
  | none => .error .malformed
  | some (rawPayload, rawMAC) =>
      match base64Decode rawPayload, base64Decode rawMAC with
      | some payload, some sig =>
          if s.mac domainAttach [payload] = sig then
            match decodeAttach payload with
            | .error e => .error e
            | .ok c => if c.expiresAt < now then .error .expired else .ok c
          else .error .signature
      | _, _ => .error .malformed

end Signer

/-! ## Claims survive the wire -/

theorem length_fields (c : AttachClaims) : c.fields.length = attachFields := rfl

theorem decodeAttach_encodeAttach {c : AttachClaims} (hc : c.Representable) :
    decodeAttach (encodeAttach c) = .ok c.truncated := by
  have hfields := readFields_textFields hc.fits (Nat.le_of_eq (length_fields c))
  simp only [decodeAttach, encodeAttach, hfields]
  simp only [AttachClaims.fields, atoi_formatInt hc.unix_low hc.unix_high]
  rfl

namespace Signer

/-- A token that is accepted carries the MAC of a payload that decodes to the claims. -/
theorem verifyAttach_ok {s : Signer} {now : Int} {tok : GoString} {c : AttachClaims}
    (h : s.verifyAttach now tok = .ok c) :
    ∃ rawPayload rawMAC payload, cut 46 tok = some (rawPayload, rawMAC) ∧
      base64Decode rawPayload = some payload ∧
      base64Decode rawMAC = some (s.mac domainAttach [payload]) ∧
      decodeAttach payload = .ok c ∧ now ≤ c.expiresAt := by
  unfold verifyAttach at h
  split at h
  · cases h
  · rename_i rawPayload rawMAC hcut
    split at h
    · rename_i payload sig hpayload hsig
      split at h
      · rename_i hmac
        split at h
        · cases h
        · rename_i claims hdecode
          split at h <;> cases h
          rename_i hlive
          rw [← hmac] at hsig
          exact ⟨rawPayload, rawMAC, payload, hcut, hpayload, hsig, hdecode,
            Int.not_lt.mp hlive⟩
      · cases h
    · cases h

/-- A minted token gives its claims back until they expire. -/
theorem verifyAttach_attachSecret {s : Signer} {c : AttachClaims} (hc : c.Representable)
    (now : Int) : s.verifyAttach now (s.attachSecret c) =
      if now ≤ c.truncated.expiresAt then .ok c.truncated else .error .expired := by
  have hcut := cut_append (b := base64Encode (s.mac domainAttach [encodeAttach c]))
    (dot_notMem_base64Encode (encodeAttach c))
  simp only [verifyAttach, attachSecret, hcut, base64Decode_base64Encode, if_true,
    decodeAttach_encodeAttach hc]
  by_cases hnow : now ≤ c.truncated.expiresAt
  · rw [if_neg (Int.not_lt.mpr hnow), if_pos hnow]
  · rw [if_pos (Int.not_le.mp hnow), if_neg hnow]

/-- Claims are determined by their encoding, up to the part of a second the expiry is cut by;
and a minted token is accepted exactly until the second that is encoded in it, for the claims
it was minted for. -/
theorem attach_claims_survive (s : Signer) {c : AttachClaims} (hc : c.Representable) :
    decodeAttach (encodeAttach c) = .ok c.truncated ∧
      (∀ c' : AttachClaims, c'.Representable → encodeAttach c' = encodeAttach c →
        c'.truncated = c.truncated) ∧
      ∀ (sessionID tenantID workspaceName orgSlug mode : GoString) (ttl : Int)
        (random : GoString) (minted : Int),
        c = newClaims sessionID tenantID workspaceName orgSlug mode ttl random minted →
        ∀ now, s.verifyAttach now
            (s.attachToken sessionID tenantID workspaceName orgSlug mode ttl random minted) =
          if now ≤ c.truncated.expiresAt then .ok c.truncated else .error .expired := by
  refine ⟨decodeAttach_encodeAttach hc, ?_, ?_⟩
  · intro c' hc' heq
    have hboth := decodeAttach_encodeAttach hc'
    rw [heq, decodeAttach_encodeAttach hc] at hboth
    exact (Except.ok.inj hboth).symm
  · rintro sessionID tenantID workspaceName orgSlug mode ttl random minted rfl now
    exact verifyAttach_attachSecret hc now

/-- A signer whose MAC is the message behind one byte. -/
def plainSigner : Signer where
  key := replicate 32 0
  hmac _ m := 1 :: m
  key_length := by decide
  hmac_ne_nil _ m := cons_ne_nil 1 m

def demoClaims : AttachClaims :=
  newClaims "1:s" "acme" "api" "acme" "control" 0 [7, 8, 9] (10 ^ 9 / 2)

theorem attach_claims_survive_demoClaims : demoClaims.Representable ∧
    plainSigner.verifyAttach (60 * 10 ^ 9) (plainSigner.attachSecret demoClaims) =
      .ok demoClaims.truncated := by
  have hc : demoClaims.Representable := ⟨by decide, by decide, by decide⟩
  have hall := (attach_claims_survive plainSigner hc).2.2 "1:s" "acme" "api"
    "acme" "control" 0 [7, 8, 9] (10 ^ 9 / 2) rfl (60 * 10 ^ 9)
  exact ⟨hc, hall.trans (if_pos (by decide))⟩

/-! ## Credentials are unambiguous -/

/-- What is asked of derived credentials: the input of the MAC says what they are for, those
that are MACs alone are accepted for that only, and none is accepted as one of another kind. -/
structure Unambiguous (s : Signer) : Prop where
  input : ∀ d ∈ domains, ∀ d' ∈ domains, ∀ fs gs : List GoString, (∀ f ∈ fs, FitsInt f) →
    (∀ g ∈ gs, FitsInt g) → macInput d fs = macInput d' gs → d = d' ∧ fs = gs
  workspace : ∀ t n t' n' g g', FitsInt t → FitsInt n → FitsInt t' → FitsInt n' → g < 2 ^ 64 →
    g' < 2 ^ 64 →
    (s.verifyWorkspace t' n' g' (s.workspaceToken t n g) = true ↔ t' = t ∧ n' = n ∧ g' = g)
  runner : ∀ t t', FitsInt t → FitsInt t' → (s.verifyRunner t' (s.runnerToken t) = true ↔ t' = t)
  workspace_runner : ∀ t n g t', FitsInt t → FitsInt n → g < 2 ^ 64 → FitsInt t' →
    s.verifyRunner t' (s.workspaceToken t n g) = false ∧
      s.verifyWorkspace t n g (s.runnerToken t') = false
  attach : ∀ c t n g, s.verifyWorkspace t n g (s.attachSecret c) = false ∧
    s.verifyRunner t (s.attachSecret c) = false
  not_attach : ∀ t n g now, s.verifyAttach now (s.workspaceToken t n g) = .error .malformed ∧
    s.verifyAttach now (s.runnerToken t) = .error .malformed

theorem verifyAttach_base64Encode (s : Signer) (now : Int) (b : GoString) :
    s.verifyAttach now (base64Encode b) = .error .malformed := by
  simp only [verifyAttach, cut_eq_none (dot_notMem_base64Encode b)]

theorem attachSecret_ne (s : Signer) (c : AttachClaims) (b : GoString) :
    s.attachSecret c ≠ base64Encode b := by
  intro h
  apply dot_notMem_base64Encode b
  rw [← h, attachSecret]
  exact mem_append_right _ mem_cons_self

/-- With a MAC that has no collisions, derived credentials are unambiguous. -/
theorem credentials_unambiguous {s : Signer} (hs : s.CollisionFree) : s.Unambiguous where
  input d hd d' hd' fs gs hfs hgs h :=
    mac_inj hs hd hd' hfs hgs (congrArg (fun m => base64Encode (s.hmac s.key m)) h)
  workspace t n t' n' g g' ht hn ht' hn' hg hg' := by
    rw [verifyWorkspace_iff]
    constructor
    · intro h
      obtain ⟨htenant, hname, hgen⟩ := workspaceToken_inj hs ht ht' hn hn' hg hg' h
      exact ⟨htenant.symm, hname.symm, hgen.symm⟩
    · rintro ⟨rfl, rfl, rfl⟩
      rfl
  runner t t' ht ht' := by
    rw [verifyRunner_iff]
    constructor
    · intro h
      have hfields := (mac_inj hs (by decide) (by decide) (forall_mem_singleton.mpr ht)
        (forall_mem_singleton.mpr ht') h).2
      exact (cons.inj hfields).1.symm
    · rintro rfl
      rfl
  workspace_runner t n g t' ht hn hg ht' := by
    have hne : s.workspaceToken t n g ≠ s.runnerToken t' := by
      intro h
      have hdomain := (mac_inj hs (by decide) (by decide) (workspace_fields_fit ht hn hg)
        (forall_mem_singleton.mpr ht') h).1
      exact absurd hdomain (by decide)
    exact ⟨Bool.eq_false_iff.mpr fun h => hne (verifyRunner_iff.mp h),
      Bool.eq_false_iff.mpr fun h => hne (verifyWorkspace_iff.mp h).symm⟩
  attach c t n g :=
    ⟨Bool.eq_false_iff.mpr fun h => attachSecret_ne s c _ (verifyWorkspace_iff.mp h),
      Bool.eq_false_iff.mpr fun h => attachSecret_ne s c _ (verifyRunner_iff.mp h)⟩
  not_attach t n g now :=
    ⟨verifyAttach_base64Encode s now _, verifyAttach_base64Encode s now _⟩

theorem credentials_unambiguous_plainSigner :
    plainSigner.CollisionFree ∧ plainSigner.Unambiguous := by
  have hfree : plainSigner.CollisionFree := fun a b h => (cons.inj h).2
  exact ⟨hfree, credentials_unambiguous hfree⟩

end Signer

end Lemul.Creds
