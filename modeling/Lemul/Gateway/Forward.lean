import Lemul.Misc.HeaderMap
import Lemul.Misc.UrlPath

/-!
# What the gateway proxy forwards

`internal/gateway/proxy.go:207-314`: the handler of a session's loopback listener, with
`httputil.ReverseProxy` around its `Rewrite`. The handler decides on the cleaned path and puts it
into the URL of the request, whose other encoding of the path stays; `Rewrite` makes the
request that is sent.

The body, the host and the scheme are left out. Of the libraries, what the proxy puts back
after it has removed the hop-by-hop headers, and which query parameters it drops, is arbitrary.
-/

namespace Lemul.Gateway

open HeaderMap (Header Token)
open UrlPath (Url)

/-- `Options` (`proxy.go:48-65`) with the parsed upstream. -/
structure Options where
  /-- `target`. -/
  upstream : Url
  apiKey : GoString
  workspaceID : GoString
  userID : GoString
  allowModelDiscovery : Bool

/-- `allows` (`proxy.go:219-232`). -/
def allows (o : Options) (method cleanPath : GoString) : Bool :=
  if cleanPath = "/v1/messages" ∨ cleanPath = "/v1/messages/count_tokens" then
    method = "POST"
  else if cleanPath = "/v1/models" then
    o.allowModelDiscovery && method = "GET"
  else
    o.allowModelDiscovery && method = str "GET" && (str "/v1/models/").isPrefixOf cleanPath

/-! ## Requests -/

/-- What a request line may ask for. -/
inductive Target where
  /-- An absolute path, or the path of an absolute URI, and the query. -/
  | path (p query : GoString)
  /-- `*`. -/
  | asterisk
  /-- An absolute URI whose path has no root, such as `mailto:someone`. -/
  | rootless (query : GoString)
  deriving DecidableEq, Repr

/-- `url.ParseRequestURI`. -/
def Target.parse : Target → Option Url
  | .path p query =>
      if p = [] ∨ SlashPath.rooted p = true then
        (UrlPath.setPath p).map fun parts => ⟨parts.1, parts.2, query⟩
      else none
  | .asterisk => some ⟨"*", [], []⟩
  | .rootless query => some ⟨[], [], query⟩

/-- A request of a session. -/
structure Request where
  method : GoString
  target : Target
  fields : List (GoString × GoString)
  deriving DecidableEq, Repr

/-- A request that is sent upstream. -/
structure Outgoing where
  method : GoString
  url : Url
  header : Header

/-! ## The reverse proxy -/

/-- What is left open of the libraries. -/
structure Library where
  /-- `cleanQueryParams`. -/
  cleanQueryParams : GoString → GoString
  /-- `Te` contains the token `trailers`. -/
  teTrailers : Header → Bool
  upgradeType : Header → GoString
  isPrint : GoString → Bool

/-- `hopHeaders`. -/
def hopHeaders : List GoString :=
  ["Connection", "Proxy-Connection", "Keep-Alive", "Proxy-Authenticate",
    "Proxy-Authorization", "Te", "Trailer", "Transfer-Encoding", "Upgrade"]

def isSpace (c : UInt8) : Bool := c == 32 || c == 9 || c == 10 || c == 13

/-- `textproto.TrimString`. -/
def trimString (s : GoString) : GoString :=
  ((s.dropWhile isSpace).reverse.dropWhile isSpace).reverse

/-- `removeHopByHopHeaders`: those that `Connection` lists, and those that always are. -/
def removeHopByHopHeaders (h : Header) : Header :=
  let listed := ((h.values "Connection").flatMap fun f => (f.splitOn 44).map trimString)
  (listed.filter (· ≠ []) ++ hopHeaders).foldl Header.del h

def te : Token := ⟨"Te", by decide +kernel⟩

def connection : Token := ⟨"Connection", by decide +kernel⟩

def upgrade : Token := ⟨"Upgrade", by decide +kernel⟩

def userAgent : Token := ⟨"User-Agent", by decide +kernel⟩

/-- The header of the request before `Rewrite`. It is not sent if the upgrade is not printable. -/
def outHeader (lib : Library) (h : Header) : Option Header :=
  let upgradeType := lib.upgradeType h
  if lib.isPrint upgradeType then
    let out := removeHopByHopHeaders h
    let out := if lib.teTrailers h then out.set te "trailers" else out
    let out :=
      if upgradeType ≠ [] then (out.set connection "Upgrade").set upgrade upgradeType else out
    some ([str "Forwarded", str "X-Forwarded-For", str "X-Forwarded-Host",
      str "X-Forwarded-Proto"].foldl Header.del out)
  else none

/-- `SetURL`. -/
def setURL (u upstream : Url) : Url :=
  let joined := UrlPath.joinURLPath upstream u
  ⟨joined.1, joined.2,
    if upstream.rawQuery = [] ∨ u.rawQuery = [] then upstream.rawQuery ++ u.rawQuery
    else upstream.rawQuery ++ "&" ++ u.rawQuery⟩

def authorization : Token := ⟨"Authorization", by decide +kernel⟩

def xAPIKey : Token := ⟨"x-api-key", by decide +kernel⟩

def litellmTags : Token := ⟨"x-litellm-tags", by decide +kernel⟩

def litellmEndUserID : Token := ⟨"x-litellm-end-user-id", by decide +kernel⟩

/-- The tags of a session's requests (`proxy.go:253-260`). -/
def tags (o : Options) (sessionID : GoString) : GoString :=
  (str ",").intercalate
    ([str "workspace:" ++ o.workspaceID, str "session:" ++ sessionID] ++
      if o.userID = [] then [] else ["user:" ++ o.userID])

/-- `Rewrite` (`proxy.go:237-262`), what it does to the header. -/
def rewriteHeader (o : Options) (sessionID : GoString) (h : Header) : Header :=
  let h := (h.del authorization).del xAPIKey
  let h := h.set authorization ("Bearer " ++ o.apiKey)
  let h := (h.del litellmTags).del litellmEndUserID
  let h := if o.userID = [] then h else h.set litellmEndUserID o.userID
  h.set litellmTags (tags o sessionID)

/-- `ReverseProxy.ServeHTTP` up to the transport. -/
def serveHTTP (lib : Library) (o : Options) (sessionID method : GoString) (url : Url)
    (header : Header) : Option Outgoing := do
  let out ← outHeader lib header
  let out := rewriteHeader o sessionID out
  let url := setURL { url with rawQuery := lib.cleanQueryParams url.rawQuery } o.upstream
  some ⟨method, url, if out.values userAgent = [] then out.set userAgent [] else out⟩

/-- `handler` (`proxy.go:234-314`) behind the server that reads the request: what is sent
upstream, if anything is. -/
def handler (lib : Library) (o : Options) (sessionID : GoString) (r : Request) :
    Option Outgoing := do
  let url ← r.target.parse
  let header ← Header.read r.fields
  let clean := SlashPath.clean url.path
  if allows o r.method clean then
    serveHTTP lib o sessionID r.method { url with path := clean } header
  else none

end Lemul.Gateway
