import Rcurl.Http.Message

/-!
# URLs and proxies

The operations of the `url` crate the engine uses, as a parameter, and `http::proxy`: which proxy the
environment asks for, and which hosts go around it.
-/

namespace Rcurl

open ShellWords (Text)

/-- The `url` crate. -/
structure UrlOps (Url : Type) where
  /-- `Url::parse`. -/
  parse : Text → Option Url
  /-- `Url::join`. -/
  join : Url → Text → Option Url
  /-- The text of a URL, parsed as a `hyper::Uri`. -/
  toUri : Url → Option Uri
  /-- `Url::scheme`. -/
  scheme : Url → Text
  /-- `Url::host_str`. -/
  hostStr : Url → Option Text
  /-- `Url::port`: none for the default port of the scheme. -/
  port : Url → Option UInt16

/-- The environment: what `std::env::var` finds. -/
abbrev Vars := Text → Option Text

/-- The first variable that is set. -/
def firstVar (vars : Vars) (names : List Text) : Option Text := names.findSome? vars

/-- The variables that name a proxy for a scheme, in order. -/
def proxyVars (scheme : Text) : List Text :=
  if scheme = "https".toList then
    ["HTTPS_PROXY".toList, "https_proxy".toList, "ALL_PROXY".toList, "all_proxy".toList]
  else ["HTTP_PROXY".toList, "http_proxy".toList, "ALL_PROXY".toList, "all_proxy".toList]

/-- `host:port`. -/
def hostPort (name : Text) (port : UInt16) : Text := name ++ ':' :: RustText.decimal port.toNat

/-- `get_proxy_from_env`: the address of the proxy for a scheme. -/
def getProxyFromEnv {Url : Type} (urls : UrlOps Url) (vars : Vars) (scheme : Text) : Option Text :=
  (firstVar vars (proxyVars scheme)).bind fun value =>
    match urls.parse value with
    | some url =>
      if urls.scheme url = "http".toList then
        (urls.hostStr url).map fun name => hostPort name ((urls.port url).getD 80)
      else if urls.scheme url = "https".toList then
        (urls.hostStr url).map fun name => hostPort name ((urls.port url).getD 443)
      else none
    | none => some value

/-- One entry of `NO_PROXY` matches a host. -/
def bypassPattern (name pattern : Text) : Bool :=
  if pattern.head? = some '.' then pattern.isSuffixOf name || name == pattern.tail
  else name == pattern

/-- `should_bypass_proxy`. -/
def shouldBypassProxy (vars : Vars) (name : Option Text) : Bool :=
  match name, firstVar vars ["NO_PROXY".toList, "no_proxy".toList] with
  | some name, some noProxy =>
    (noProxy.splitOn ',').any fun entry =>
      let pattern := RustText.trim entry
      pattern != [] && bypassPattern name pattern
  | _, _ => false

/-! ## URLs with nothing to normalize -/

/-- A host with an optional port. -/
def parseAuthority (text : Text) : Option Authority :=
  let parts := (RustText.splitTwo ':' text).getD (text, [])
  if visible : parts.1 ≠ [] ∧ ∀ c ∈ parts.1, 33 ≤ c.toNat ∧ c.toNat < 127 then
    some { host := parts.1, port := (RustText.parseUnsigned 16 parts.2).map UInt16.ofNat, visible }
  else none

/-- A URL of a given scheme, with a host and a path. -/
def parseUnder (scheme text : Text) : Option Uri :=
  if (scheme ++ "://".toList).isPrefixOf text then
    let rest := text.drop (scheme ++ "://".toList).length
    (parseAuthority (rest.takeWhile (· ≠ '/'))).map fun authority =>
      { scheme := some scheme, authority := some authority, query := none,
        path := if rest.dropWhile (· ≠ '/') = [] then ['/'] else rest.dropWhile (· ≠ '/') }
  else none

/-- URLs of the two web schemes that need no normalization, and absolute targets. -/
def plainUrls : UrlOps Uri where
  parse text := (parseUnder "http".toList text).or (parseUnder "https".toList text)
  join _ text := (parseUnder "http".toList text).or (parseUnder "https".toList text)
  toUri uri := some uri
  scheme uri := uri.scheme.getD []
  hostStr uri := uri.host
  port uri := uri.port

end Rcurl
