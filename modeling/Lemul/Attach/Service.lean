import Lemul.Attach.Join
import Lemul.MgmtApi.Access.Ledger

/-!
# Management API, relay and supervisors together

The Management API hands out attach credentials (`Lemul.MgmtApi.Access.Ledger`), the relay
redeems them (`relay/attach.go:41-106`, `relay/relay.go:240-300`), and every redeemed one is
an attach of its own (`Lemul.Attach.Join`). Anybody may present any token to the relay at
any time, as often as they like.

Only these services hold the key, and HMAC cannot be forged: a token that carries the right
MAC for its payload carries one that a service computed (`unforged`). The services also
derive workspace and runner credentials from the same key, which is why the domains matter.

Nothing but the relay sends `MsgAttach`, and nothing but `Attachment.Write` writes to a PTY.
-/

namespace Lemul.Attach

open MgmtApi (Config)
open MgmtApi.Access (Ledger Answer Request ledger)
open Creds (AttachClaims Signer domainAttach domainWorkspace domainRunner encodeAttach)

/-! ## The relay -/

/-- `usedAttachNonces` (`relay.go:261-264`): each nonce with its expiry. -/
abbrev UsedAttachNonces := List (GoString × Int)

/-- `use` (`relay.go:270-284`) at time `now`: whether the nonce was new, and what is seen
afterwards. -/
def UsedAttachNonces.use (seen : UsedAttachNonces) (nonce : GoString) (expires now : Int) :
    Bool × UsedAttachNonces :=
  let kept := seen.filter fun e => ¬e.2 < now
  if kept.any (fun e => e.1 = nonce) then (false, kept) else (true, (nonce, expires) :: kept)

/-- `redeemAttach` (`relay.go:287-300`). The clock is read twice. -/
def redeemAttach (signer : Signer) (seen : UsedAttachNonces) (tok : GoString) (now later : Int) :
    Option AttachClaims × UsedAttachNonces :=
  match signer.verifyAttach now tok with
  | .error _ => (none, seen)
  | .ok c =>
      let used := seen.use c.nonce c.expiresAt later
      (if used.1 then some c else none, used.2)

/-- A credential that was redeemed, and the attach it was redeemed for. -/
structure Attaching where
  claims : AttachClaims
  join : Join

/-- The request the relay makes of the claims (`attach.go:79-106`). -/
def attachRequest (claims : AttachClaims) (sid : GoString) (rows cols : UInt16) : Attach :=
  ⟨sid, rows, cols, if claims.mode ≠ modeViewer then modeControl else modeViewer, true, []⟩

/-- What a client presents (`attach.go:42-55`). -/
structure Presented where
  sid : GoString
  token : GoString
  rows : UInt16
  cols : UInt16
  deriving DecidableEq, Repr

/-- `handleAttach` (`attach.go:41-106`) up to its request. `live` is whether the workspace of
the claims has a tunnel on which a stream could be opened. -/
def handleAttach (signer : Signer) (seen : UsedAttachNonces) (p : Presented) (now later : Int)
    (live : Bool) : Option Attaching × UsedAttachNonces :=
  let redeemed := redeemAttach signer seen p.token now later
  (match redeemed.1 with
    | none => none
    | some claims =>
        if claims.sessionID = p.sid ∧ live then
          some ⟨claims, .new (attachRequest claims p.sid p.rows p.cols)⟩
        else none, redeemed.2)

/-! ## What has been signed -/

/-- The other credentials that are derived from the key (`creds.go:137-185`). -/
inductive Derived where
  | workspace (tenantID workspaceName : GoString) (generation : Nat)
  | runner (tenantID : GoString)
  deriving DecidableEq, Repr

/-- What their MAC is taken over. -/
def Derived.message : Derived → GoString
  | .workspace tenantID name generation =>
      Signer.macInput domainWorkspace [tenantID, name, decimal generation]
  | .runner tenantID => Signer.macInput domainRunner [tenantID]

/-- A token that nobody forged: if it carries the MAC of its payload, a service signed that.
The payload is a Go string. -/
def unforged (signer : Signer) (signed : List GoString) (tok : GoString) : Bool :=
  match cut 46 tok with
  | none => true
  | some (rawPayload, rawMAC) =>
      match base64Decode rawPayload, base64Decode rawMAC with
      | some payload, some sig =>
          decide (FitsInt payload) && (signer.mac domainAttach [payload] ≠ sig ||
            signed.contains (Signer.attachMessage payload))
      | _, _ => true

/-! ## The system -/

structure Service where
  api : Pool MgmtApi.Access.Op MgmtApi.Access.Res Ledger Answer
  derived : List Derived
  nonces : UsedAttachNonces
  /-- Every attach there has been. -/
  attaches : List Attaching

namespace Service

def init (orgMembers : Store.OrgMembers) : Service := ⟨⟨.init orgMembers, []⟩, [], [], []⟩

/-- Every message a service has handed out the MAC of. -/
def signed (s : Service) : List GoString :=
  (s.api.shared.state.minted.map fun m => Signer.attachMessage (encodeAttach m.claims)) ++
    s.derived.map Derived.message

/-- One step of a service. -/
inductive Label where
  | api (l : Lemul.Label MgmtApi.Access.Op MgmtApi.Access.Res Ledger.Move Request)
  /-- Another credential is derived. -/
  | derive (d : Derived)
  | present (p : Presented) (now later : Int) (live : Bool)
  | join (i : Nat) (l : Attach.Label)

/-- The attach `i` takes a step. -/
def joinStep (J : Json) (s : Service) (i : Nat) (l : Attach.Label) : Option Service :=
  match s.attaches[i]? with
  | none => none
  | some a =>
      ((join J).step a.join l).map fun j =>
        { s with attaches := s.attaches.set i { a with join := j } }

def step (cfg : Config) (J : Json) (s : Service) : Label → Option Service
  | .api l => ((ledger cfg).step s.api l).map fun pool => { s with api := pool }
  | .derive d => some { s with derived := d :: s.derived }
  | .present p now later live =>
      if unforged cfg.signer s.signed p.token then
        let handled := handleAttach cfg.signer s.nonces p now later live
        some { s with
          nonces := handled.2
          attaches := s.attaches ++ handled.1.toList }
      else none
  | .join i l => s.joinStep J i l

end Service

/-- The services, in any interleaving. -/
def service (cfg : Config) (J : Json) : Lts Service Service.Label := ⟨Service.step cfg J⟩

end Lemul.Attach
