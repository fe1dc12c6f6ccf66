import Lemul.Gateway.Forward

/-!
# Only allowlisted requests are sent

The path that is checked is the cleaned one. What is sent is derived from it and from the
encoding that the client chose, which counts only as long as it decodes to the path. So whatever
a request looked like, the two agree; and the names that carry the broker's key and its
attribution hold the broker's values alone.
-/

namespace Lemul.Gateway

open Option

open HeaderMap (Header Token)
open SlashPath (clean dot dotdot elements rooted)
open UrlPath (Url unescape)

/-! ## Paths -/

theorem rooted_of_allows {o : Options} {method p : GoString} (h : allows o method p = true) :
    rooted p = true := by
  unfold allows at h
  split at h
  · rename_i hmessages
    rcases hmessages with rfl | rfl <;> decide +kernel
  · split at h
    · rename_i hmodels
      rw [hmodels]
      decide +kernel
    · simp only [Bool.and_eq_true] at h
      obtain ⟨rest, rfl⟩ := List.isPrefixOf_iff_prefix.mp h.2
      have hhead : "/v1/models/" = SlashPath.slash :: "v1/models/" := by decide +kernel
      rw [hhead]
      rfl

/-- A request whose path may be allowed has asked for a rooted path, and if the URL keeps
another encoding of it then that is rooted too. -/
theorem rooted_of_parse {t : Target} {url : Url} (h : t.parse = some url)
    (hclean : rooted (clean url.path) = true) :
    rooted url.path = true ∧ (url.rawPath ≠ [] → rooted url.rawPath = true) := by
  have hempty : rooted (clean []) = false := by decide +kernel
  have hstar : rooted (clean "*") = false := by decide +kernel
  cases t with
  | asterisk =>
    cases h
    exact absurd (hstar.symm.trans hclean) Bool.false_ne_true
  | rootless query =>
    cases h
    exact absurd (hempty.symm.trans hclean) Bool.false_ne_true
  | path p query =>
    simp only [Target.parse] at h
    split at h
    · rename_i hp
      obtain ⟨parts, hset, rfl⟩ := map_eq_some_iff.mp h
      obtain ⟨path, hpath, rfl⟩ := map_eq_some_iff.mp hset
      rcases hp with rfl | hp
      · cases hpath
        exact absurd (hempty.symm.trans hclean) Bool.false_ne_true
      · refine ⟨UrlPath.rooted_unescape hp hpath, fun hraw => ?_⟩
        dsimp only at hraw ⊢
        split
        · rename_i hdefault
          rw [if_pos hdefault] at hraw
          exact absurd rfl hraw
        · exact hp
    · cases h

/-! ## Headers -/

/-- The names that `Rewrite` sets are different ones. -/
theorem names_differ : HeaderMap.canonical litellmTags ≠ HeaderMap.canonical authorization ∧
    HeaderMap.canonical litellmEndUserID ≠ HeaderMap.canonical authorization ∧
    HeaderMap.canonical litellmTags ≠ HeaderMap.canonical litellmEndUserID ∧
    HeaderMap.canonical userAgent ≠ HeaderMap.canonical authorization ∧
    HeaderMap.canonical userAgent ≠ HeaderMap.canonical litellmTags ∧
    HeaderMap.canonical userAgent ≠ HeaderMap.canonical litellmEndUserID := by decide +kernel

theorem rewriteHeader_authorization (o : Options) (sessionID : GoString) (h : Header) :
    (rewriteHeader o sessionID h).values authorization = ["Bearer " ++ o.apiKey] := by
  obtain ⟨htags, huser, -⟩ := names_differ
  unfold rewriteHeader
  rw [Header.values_set_of_ne htags]
  split
  · rw [Header.values_del_of_ne huser, Header.values_del_of_ne htags, Header.values_set_self]
  · rw [Header.values_set_of_ne huser, Header.values_del_of_ne huser,
      Header.values_del_of_ne htags, Header.values_set_self]

theorem rewriteHeader_tags (o : Options) (sessionID : GoString) (h : Header) :
    (rewriteHeader o sessionID h).values litellmTags = [tags o sessionID] :=
  Header.values_set_self

theorem rewriteHeader_endUserID (o : Options) (sessionID : GoString) (h : Header) :
    (rewriteHeader o sessionID h).values litellmEndUserID =
      if o.userID = [] then [] else [o.userID] := by
  obtain ⟨-, -, htags, -⟩ := names_differ
  unfold rewriteHeader
  rw [Header.values_set_of_ne htags]
  split
  · exact Header.values_del_self
  · exact Header.values_set_self

/-- The last step of the proxy touches none of them. -/
theorem values_userAgent {h : Header} {name : Token}
    (hname : HeaderMap.canonical userAgent ≠ HeaderMap.canonical name) :
    (if h.values userAgent = [] then h.set userAgent [] else h).values name = h.values name := by
  split
  · exact Header.values_set_of_ne hname
  · rfl

/-! ## Every request -/

/-- What is sent for a request: the steps of the handler. -/
theorem handler_eq_some {lib : Library} {o : Options} {sessionID : GoString} {r : Request}
    {out : Outgoing} (h : handler lib o sessionID r = some out) :
    ∃ url header prepared, r.target.parse = some url ∧ Header.read r.fields = some header ∧
      allows o r.method (clean url.path) = true ∧ outHeader lib header = some prepared ∧
      out.method = r.method ∧
      out.url = setURL ⟨clean url.path, url.rawPath, lib.cleanQueryParams url.rawQuery⟩
        o.upstream ∧
      out.header = (if (rewriteHeader o sessionID prepared).values userAgent = [] then
        (rewriteHeader o sessionID prepared).set userAgent []
        else rewriteHeader o sessionID prepared) := by
  unfold handler at h
  obtain ⟨url, hurl, h⟩ := bind_eq_some_iff.mp h
  obtain ⟨header, hheader, h⟩ := bind_eq_some_iff.mp h
  dsimp only at h
  split at h
  · rename_i hallows
    obtain ⟨prepared, hprepared, hout⟩ := bind_eq_some_iff.mp h
    cases hout
    exact ⟨url, header, prepared, hurl, hheader, hallows, hprepared, rfl, rfl, rfl⟩
  · cases h

/-- Whatever a client sends: if a request goes upstream, then its path is the upstream's
followed by a clean path without dot segments that is allowed for its method, its escaped form
decodes to that path, and the headers of the key and the attribution have the broker's values
and no others, in whatever capitalization. -/
theorem forwards_only_allowed (lib : Library) (o : Options) (sessionID : GoString) (r : Request)
    (out : Outgoing) (h : handler lib o sessionID r = some out) :
    (∃ url, r.target.parse = some url ∧
      (∀ e ∈ elements (clean url.path), e ≠ dot ∧ e ≠ dotdot) ∧
      allows o out.method (clean url.path) = true ∧ out.method = r.method ∧
      out.url.path = o.upstream.joined (clean url.path)) ∧
    unescape out.url.escapedPath = some out.url.path ∧
    out.header.valuesOf "Authorization" = ["Bearer " ++ o.apiKey] ∧
    out.header.valuesOf "x-litellm-tags" = [tags o sessionID] ∧
    out.header.valuesOf "x-litellm-end-user-id" =
      if o.userID = [] then [] else [o.userID] := by
  obtain ⟨url, header, prepared, hurl, -, hallows, -, hmethod, hsent, hheader⟩ := handler_eq_some h
  obtain ⟨-, -, -, hagent, hagent', hagent''⟩ := names_differ
  have hclean := rooted_of_allows hallows
  obtain ⟨hrooted, hraw⟩ := rooted_of_parse hurl hclean
  refine ⟨⟨url, hurl, fun e he => SlashPath.elements_clean hrooted he, ?_, hmethod, ?_⟩,
    UrlPath.unescape_escapedPath out.url, ?_, ?_, ?_⟩
  · rw [hmethod]
    exact hallows
  · rw [hsent]
    exact UrlPath.joinURLPath_fst hclean hraw
  · refine (Header.valuesOf_eq_values _ authorization).trans ?_
    rw [hheader, values_userAgent hagent]
    exact rewriteHeader_authorization o sessionID prepared
  · refine (Header.valuesOf_eq_values _ litellmTags).trans ?_
    rw [hheader, values_userAgent hagent']
    exact rewriteHeader_tags o sessionID prepared
  · refine (Header.valuesOf_eq_values _ litellmEndUserID).trans ?_
    rw [hheader, values_userAgent hagent'']
    exact rewriteHeader_endUserID o sessionID prepared

/-! ## A request that is encoded in an unusual way -/

def demoLibrary : Library where
  cleanQueryParams := id
  teTrailers _ := false
  upgradeType _ := []
  isPrint _ := true

def demoOptions : Options where
  upstream := ⟨"/llm/", [], []⟩
  apiKey := "sk-real"
  workspaceID := "api"
  userID := "u1"
  allowModelDiscovery := false

/-- Dot segments and slashes are encoded, and the client brings a key and tags of its own. -/
def demoRequest : Request where
  method := "POST"
  target := .path "/v1/models/%2e%2e%2Fmessages" "beta=true"
  fields := [("AUTHORIZATION", "Bearer other"), ("X-LiteLLM-Tags", "session:s2"),
    ("connection", "x-litellm-tags")]

theorem forwards_only_allowed_encoded :
    ∃ out, handler demoLibrary demoOptions "s1" demoRequest = some out ∧
      out.url.path = "/llm/v1/messages" ∧
      out.header.valuesOf "Authorization" = [str "Bearer sk-real"] ∧
      out.header.valuesOf "x-litellm-tags" = [str "workspace:api,session:s1,user:u1"] := by
  obtain ⟨out, hout⟩ := isSome_iff_exists.mp
    (show (handler demoLibrary demoOptions "s1" demoRequest).isSome = true by decide +kernel)
  obtain ⟨⟨url, hurl, -, -, -, hpath⟩, -, hkey, htags, -⟩ :=
    forwards_only_allowed demoLibrary demoOptions "s1" demoRequest out hout
  have hparsed : demoRequest.target.parse =
      some ⟨"/v1/models/../messages", "/v1/models/%2e%2e%2Fmessages", "beta=true"⟩ := by
    decide +kernel
  obtain rfl := Option.some.inj (hparsed.symm.trans hurl)
  refine ⟨out, hout, hpath.trans ?_, hkey.trans ?_, htags.trans ?_⟩
  all_goals decide +kernel

end Lemul.Gateway
