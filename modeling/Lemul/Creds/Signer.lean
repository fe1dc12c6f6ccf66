import Lemul.Misc.Base64
import Lemul.Misc.Decimal
import Lemul.Misc.LengthPrefix

/-!
# Derived credentials

`internal/creds/creds.go`: the signer, the canonical encoding its MAC is taken over,
and the workspace and runner credentials, which are derived from durable state
rather than stored.

HMAC-SHA256 is a parameter of the signer. All that is asked of it in general is that
it returns something; where a result needs more, it asks for `Signer.CollisionFree`.
-/

namespace Lemul.Creds

open List

/-- `MinKeyBytes` (`creds.go:58`). -/
def minKeyBytes : Nat := 32

def domainWorkspace : GoString := "lemul-workspace-v1"
def domainAttach : GoString := "lemul-attach-v1"
def domainRunner : GoString := "lemul-runner-v1"

/-- `Signer` (`creds.go:83-85`), with the keyed hash it computes. -/
structure Signer where
  key : GoString
  /-- HMAC-SHA256: the key, then the message. -/
  hmac : GoString → GoString → GoString
  key_length : minKeyBytes ≤ key.length
  hmac_ne_nil : ∀ k m, hmac k m ≠ []

/-- `NewSigner` (`creds.go:94-102`): a short key is refused. -/
def newSigner (hmac : GoString → GoString → GoString) (hne : ∀ k m, hmac k m ≠ [])
    (key : GoString) : Except GoString Signer :=
  if h : key.length < minKeyBytes then
    .error ("creds: signing key must be at least " ++ decimal minKeyBytes ++
      " bytes, got " ++ decimal key.length)
  else .ok ⟨key, hmac, Nat.le_of_not_lt h, hne⟩

namespace Signer

/-- No two messages have the same MAC under the signer's key. -/
def CollisionFree (s : Signer) : Prop := Function.Injective (s.hmac s.key)

/-- What `mac` feeds to HMAC (`creds.go:352-363`): the domain, a zero byte, and every
field behind its length in eight bytes. -/
def macInput (domain : GoString) (fields : List GoString) : GoString :=
  domain ++ 0 :: lengthPrefixed 8 fields

/-- `mac` (`creds.go:352-363`). -/
def mac (s : Signer) (domain : GoString) (fields : List GoString) : GoString :=
  s.hmac s.key (macInput domain fields)

/-- `WorkspaceToken` (`creds.go:137-140`). -/
def workspaceToken (s : Signer) (tenantID workspaceName : GoString) (generation : Nat) :
    GoString :=
  base64Encode (s.mac domainWorkspace [tenantID, workspaceName, decimal generation])

/-- `VerifyWorkspace` (`creds.go:144-150`). -/
def verifyWorkspace (s : Signer) (tenantID workspaceName : GoString) (generation : Nat)
    (tok : GoString) : Bool :=
  if tok = [] then false else s.workspaceToken tenantID workspaceName generation = tok

/-- `RunnerToken` (`creds.go:173-176`). -/
def runnerToken (s : Signer) (tenantID : GoString) : GoString :=
  base64Encode (s.mac domainRunner [tenantID])

/-- `VerifyRunner` (`creds.go:179-185`). -/
def verifyRunner (s : Signer) (tenantID tok : GoString) : Bool :=
  if tok = [] then false else s.runnerToken tenantID = tok

/-! ## The encoding is unambiguous -/

/-- The domain and the fields can be read off the bytes the MAC is taken over. -/
theorem macInput_inj {d d' : GoString} {fs gs : List GoString} (hd : (0 : UInt8) ∉ d)
    (hd' : (0 : UInt8) ∉ d') (hfs : ∀ f ∈ fs, f.length < 256 ^ 8)
    (hgs : ∀ g ∈ gs, g.length < 256 ^ 8) (h : macInput d fs = macInput d' gs) :
    d = d' ∧ fs = gs := by
  obtain ⟨hdomain, hfields⟩ := append_separator_inj hd hd' h
  exact ⟨hdomain, lengthPrefixed_injOn (by decide) hfs hgs hfields⟩

/-- The tags in use (`creds.go:71-75`). -/
def domains : List GoString := [domainWorkspace, domainAttach, domainRunner]

theorem zero_notMem_domains : ∀ d ∈ domains, (0 : UInt8) ∉ d := by decide

theorem length_lt_of_fitsInt {s : GoString} (h : FitsInt s) : s.length < 256 ^ 8 :=
  Nat.lt_trans h (by decide)

theorem fitsInt_decimal {n : Nat} (h : n < 2 ^ 64) : FitsInt (decimal n) := by
  have hle : (decimal n).length ≤ 20 :=
    length_decimal_of_lt (Nat.lt_trans h (by decide)) (by decide)
  exact Nat.lt_of_le_of_lt hle (by decide)

/-- Credentials that are MACs alone determine what they were derived from. -/
theorem mac_inj {s : Signer} (hs : s.CollisionFree) {d d' : GoString} {fs gs : List GoString}
    (hd : d ∈ domains) (hd' : d' ∈ domains) (hfs : ∀ f ∈ fs, FitsInt f)
    (hgs : ∀ g ∈ gs, FitsInt g)
    (h : base64Encode (s.mac d fs) = base64Encode (s.mac d' gs)) : d = d' ∧ fs = gs :=
  macInput_inj (zero_notMem_domains d hd) (zero_notMem_domains d' hd')
    (fun f hf => length_lt_of_fitsInt (hfs f hf)) (fun g hg => length_lt_of_fitsInt (hgs g hg))
    (hs (base64Encode_injective h))

theorem workspace_fields_fit {t n : GoString} {g : Nat} (ht : FitsInt t) (hn : FitsInt n)
    (hg : g < 2 ^ 64) : ∀ f ∈ [t, n, decimal g], FitsInt f := by
  simp only [forall_mem_cons]
  exact ⟨ht, hn, fitsInt_decimal hg, forall_mem_nil _⟩

/-- A workspace credential determines the organization, the name and the generation it
was derived for. -/
theorem workspaceToken_inj {s : Signer} (hs : s.CollisionFree) {t t' n n' : GoString}
    {g g' : Nat} (ht : FitsInt t) (ht' : FitsInt t') (hn : FitsInt n) (hn' : FitsInt n')
    (hg : g < 2 ^ 64) (hg' : g' < 2 ^ 64)
    (h : s.workspaceToken t n g = s.workspaceToken t' n' g') : t = t' ∧ n = n' ∧ g = g' := by
  have hfields := (mac_inj hs (by decide) (by decide) (workspace_fields_fit ht hn hg)
    (workspace_fields_fit ht' hn' hg') h).2
  simp only [cons.injEq, and_true] at hfields
  exact ⟨hfields.1, hfields.2.1, decimal_injective hfields.2.2⟩

theorem base64Encode_ne_nil {b : GoString} (h : b ≠ []) : base64Encode b ≠ [] := by
  intro hnil
  apply h
  apply base64Encode_injective
  rw [hnil]
  rfl

/-- `VerifyWorkspace` and `VerifyRunner`: nothing is refused for being empty, since no
derived credential is. -/
theorem verify_iff {s : Signer} {d : GoString} {fs : List GoString} {tok : GoString} :
    (if tok = [] then false else decide (base64Encode (s.mac d fs) = tok)) = true ↔
      tok = base64Encode (s.mac d fs) := by
  split
  · rename_i hnil
    simp only [Bool.false_eq_true, false_iff]
    intro heq
    exact base64Encode_ne_nil (s.hmac_ne_nil _ _) (heq.symm.trans hnil)
  · rw [decide_eq_true_eq, eq_comm]

/-- Verification accepts exactly the derived value. -/
theorem verifyWorkspace_iff {s : Signer} {t n : GoString} {g : Nat} {tok : GoString} :
    s.verifyWorkspace t n g tok = true ↔ tok = s.workspaceToken t n g :=
  verify_iff

theorem verifyRunner_iff {s : Signer} {t tok : GoString} :
    s.verifyRunner t tok = true ↔ tok = s.runnerToken t :=
  verify_iff

end Signer

end Lemul.Creds
