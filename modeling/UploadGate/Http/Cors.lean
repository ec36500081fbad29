/-
  UploadGate/Http/Cors.lean
  =========================
  **Which origins a browser lets read the answers.**

  An origin is allowed if it is literally in a list.  A request from any other
  origin is served all the same, without the header that names the origin, and
  the browser keeps the answer from the page.  A preflight is answered before
  the request reaches a route.  The headers of an answer are looked for by names
  in small letters, and a name in other letters is passed over.
-/
import UploadGate.Http.Framework

namespace UploadGate.Http.Cors

/-! ### Header names and values -/

def allowOrigin : Text := Text.of "access-control-allow-origin"

/-- The header that lists what a page may read. -/
def exposeHeaders : Text := Text.of "access-control-expose-headers"

/-- The header that lists what an answer depends on. -/
def vary : Text := Text.of "vary"

/-- The request header that an answer depends on. -/
def origin : Text := Text.of "Origin"

def exposed : Text := Text.of "Upload-Offset, Location, Upload-Length, Upload-Metadata"

/-- What a preflight is told about methods, headers and time. -/
def preflightHeaders : Headers :=
  [(Text.of "access-control-allow-methods", Text.of "POST, GET, HEAD, PATCH, DELETE, OPTIONS"),
    (Text.of "access-control-allow-headers",
      Text.of "Authorization, Origin, X-Requested-With, Content-Type, Upload-Length, Upload-Offset, Upload-Metadata"),
    (Text.of "access-control-max-age", Text.of "86400"),
    (vary, origin)]

/-! ### Answers -/

def allowed? (origins : List Text) (request : Request) : Option Text :=
  (request.headers.first? (Text.of "origin")).filter origins.contains

def isPreflight (request : Request) : Bool :=
  request.method = Text.of "OPTIONS"
    && (request.headers.first? (Text.of "access-control-request-method")).any (!·.isEmpty)

def preflight (allowed? : Option Text) : Response :=
  ⟨204, (allowed?.map fun o => (allowOrigin, o)).toList ++ preflightHeaders, []⟩

/-- The headers of an answer with the allowed origin and what is exposed to it. -/
def grant (headers : Headers) : Option Text → Headers
  | none => headers.erase allowOrigin
  | some o => (headers.set allowOrigin o).set exposeHeaders exposed

def decorate (rule : VaryRule) (allowed? : Option Text) (response : Response) : Response :=
  let depends := Text.join (Text.of ", ") (rule.kept (response.headers.values vary) ++ [origin])
  { response with headers := (grant response.headers allowed?).set vary depends }

/-- The answer to a request for which the routes have an answer. -/
def answer (rule : VaryRule) (origins : List Text) (request : Request) (inner : Response) : Response :=
  if isPreflight request then preflight (allowed? origins request)
  else decorate rule (allowed? origins request) inner

end UploadGate.Http.Cors
