/-
  UploadGate/Http/Framework.lean
  ==============================
  **What the web framework decides about URLs and headers.**

  A request does not hold its own URL: the framework puts it together from the
  header that names the host, the path and the query, and cuts it up again.  A
  request whose host or query is malformed has none, and whoever asks for it
  fails.  How this is done, and what becomes of several values of one header,
  differs between the releases of the framework.  So the server is given it as a
  `Framework`; `Framework.splitting` is the one that cuts URLs up as `Url.split` does.
-/
import UploadGate.Http.Location
import UploadGate.Http.Message
import UploadGate.Text.Percent

namespace UploadGate.Http

open BasePath (slash)

/-! ### The URL of a request -/

/-- The data from which the URL of a request is put together. -/
structure RequestUrl where
  isSecure : Bool
  /-- The host that the request names, with a port or without. -/
  host? : Option Text
  server? : Option (Text × Int)
  path : Text
  query : Bytes
deriving DecidableEq, Repr

def Request.url (request : Request) : RequestUrl :=
  ⟨request.isSecure, request.headers.first? (Text.of "host"), request.server?, request.path, request.query⟩

namespace RequestUrl

def scheme (url : RequestUrl) : Text := if url.isSecure then Text.of "https" else Text.of "http"

/-- The port that a scheme has no need to name. -/
def defaultPort (url : RequestUrl) : Int := if url.isSecure then 443 else 80

/-- Scheme and host, nothing if neither the request nor the server names a host. -/
def root (url : RequestUrl) : Text :=
  match url.host?, url.server? with
  | some host, _ => url.scheme ++ Text.of "://" ++ host
  | none, some (host, port) =>
    url.scheme ++ Text.of "://" ++ host
      ++ if port = url.defaultPort then [] else .ofChar ':' :: Text.ofInt port
  | none, none => []

/-- The URL with a path in the place of its own, if the query is UTF-8. -/
def textWith (url : RequestUrl) (path : Text) : Except ValueFault Text :=
  if url.query.isEmpty then .ok (url.root ++ Location.withoutMarks path)
  else
    match Utf8.decode? url.query with
    | some query => .ok (url.root ++ Location.withoutMarks path ++ .ofChar '?' :: query)
    | none => .error .undecodable

end RequestUrl

/-! ### The framework -/

/-- What stays of the values of a header that gets one more: releases differ. -/
inductive VaryRule where
  | first
  | all
deriving DecidableEq, Repr

def VaryRule.kept : VaryRule → List Text → List Text
  | .first, values => values.head?.toList
  | .all, values => values

/-- The behaviour of a web framework as far as the server depends on it. -/
structure Framework where
  vary : VaryRule
  /-- The path of a request, as its URL shows it. -/
  shownPath : RequestUrl → Except ValueFault Text
  /-- The URL of a path, at the host of a request. -/
  urlFor : RequestUrl → Text → Except ValueFault Text
  /-- Where a request is sent on to for another path. -/
  redirection : RequestUrl → Text → Except ValueFault Text

namespace Framework

/-- The URL of a path at the host of a request.  The host is cut out of a URL, so it ends
    at the first mark in it, and what stands behind a slash comes before the path. -/
def urlAtHost (url : RequestUrl) (path : Text) : Except ValueFault Text :=
  (Url.split (url.root ++ [slash])).map fun base =>
    let secure := base.scheme = Text.of "https" || base.scheme = Text.of "wss"
    Url.text ⟨if secure then Text.of "https" else Text.of "http", base.authority,
      Text.dropRightWhile (· = slash) base.path ++ Location.ofUpload path⟩

/-- The framework that cuts URLs up as `Url.split` does, and keeps all values of a header. -/
def splitting : Framework where
  vary := .all
  shownPath url := (url.textWith url.path).bind fun t => (Url.split t).map Url.path
  urlFor := urlAtHost
  redirection url path := (url.textWith path).bind fun t =>
    (Text.percentEncoded? urlMarks t).elim (.error .unencodable) .ok

end Framework

end UploadGate.Http
