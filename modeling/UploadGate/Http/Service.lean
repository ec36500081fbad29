/-
  UploadGate/Http/Service.lean
  ============================
  **The upload server as a function from requests to responses.**

  A request is routed, its endpoint works on the deployment, and the answer
  passes the check of origins.  A request that is refused for a stated reason is
  answered with the status and the detail of that reason, once its path is logged;
  any other failure has no answer.  When the answer is ready, the events of the
  request are worked off.
-/
import UploadGate.Deployment
import UploadGate.Http.Cors
import UploadGate.Http.Route

namespace UploadGate.Http

structure Service where
  deployment : Deployment
  mount : Mount
  framework : Framework

namespace Service

/-! ### Header names -/

def uploadLength : Text := Text.of "Upload-Length"

def uploadOffset : Text := Text.of "Upload-Offset"

def uploadMetadata : Text := Text.of "Upload-Metadata"

def forwardedFor : Text := Text.of "X-Forwarded-For"

def header? (request : Request) (name : Text) : Option Text :=
  request.headers.first? (name.map CodePoint.lowerAscii)

def numberHeader (request : Request) (name : Text) : Except UploadError Int :=
  match header? request name with
  | none => .error (.missingHeader name)
  | some value =>
    match NumberReader.integer? value with
    | none => .error (.invalidHeader name)
    | some n => if n < 0 then .error (.invalidHeader name) else .ok n

/-! ### Outcomes -/

abbrev Outcome := Deployment.Outcome Response

def outcome (d : Deployment) (answer : Except Failure Response) : Outcome := ⟨answer, d, []⟩

def respond (o : Deployment.Outcome α) (response : α → Except Failure Response) : Outcome :=
  ⟨o.answer.bind response, o.deployment, o.logs⟩

/-! ### Endpoints -/

def uploadRequest (request : Request) : UploadRequest :=
  ⟨header? request uploadMetadata, Client.address request.client?, header? request forwardedFor⟩

def created (f : Framework) (m : Mount) (url : RequestUrl) (info : UploadInfo) : Except Failure Response := do
  let path ← (m.address (BasePath.slash :: info.id)).mapError Failure.value
  let location ← (f.urlFor url path).mapError Failure.value
  Response.checked ⟨201,
    Headers.ofList [(Text.of "Location", location), (uploadOffset, Text.ofNat info.offset)], []⟩

def create (s : Service) (now : Moment) (request : Request) : Outcome :=
  match numberHeader request uploadLength with
  | .error e => outcome s.deployment (.error (.upload e))
  | .ok length =>
    respond (s.deployment.create now (uploadRequest request) length)
      (created s.framework s.mount request.url)

/-- The metadata of an upload as a response header, if there is any. -/
def metadataHeaders (m : Metadata) : Except Failure Headers :=
  if m.isEmpty then .ok [] else (Metadata.encode m).map fun header => [(uploadMetadata, header)]

def described (info : UploadInfo) : Except Failure Response := do
  let metadata ← metadataHeaders info.metadata
  Response.checked ⟨200,
    Headers.ofList ([(uploadOffset, Text.ofNat info.offset), (uploadLength, Text.ofNat info.size),
      (Text.of "Cache-Control", Text.of "no-store")] ++ metadata), []⟩

def head (d : Deployment) (id : Text) : Outcome := respond (d.afterReply (d.engine.info id)) described

def written (info : UploadInfo) : Except Failure Response :=
  .ok ⟨204, Headers.ofList [(uploadOffset, Text.ofNat info.offset)], []⟩

def patch (d : Deployment) (id : Text) (request : Request) : Outcome :=
  match numberHeader request uploadOffset with
  | .error e => outcome d (.error (.upload e))
  | .ok offset => respond (d.write id offset request.body) written

def delete (d : Deployment) (id : Text) : Outcome := respond (d.terminate id) fun _ => .ok ⟨204, [], []⟩

def get (d : Deployment) (id : Text) : Outcome :=
  respond (d.afterReply (d.engine.read id)) fun data =>
    .ok ⟨200, [(Text.of "content-type", Text.of "application/octet-stream")], data⟩

def runOn (d : Deployment) (request : Request) (id : Text) : Route → Outcome
  | .head => head d id
  | .patch => patch d id request
  | .delete => delete d id
  | _ => get d id

/-- What is wrong with a request that lacks the id of an upload. -/
def missingId : Json :=
  .array [.object [(Text.of "type", .text (Text.of "missing")),
    (Text.of "loc", .array [.text (Text.of "query"), .text (Text.of "upload_id")]),
    (Text.of "msg", .text (Text.of "Field required")), (Text.of "input", .null)]]

def run (s : Service) (now : Moment) (request : Request) (id : Text) (r : Route) : Outcome :=
  match r with
  | .create => s.create now request
  | .createSlash => s.create now request
  | _ =>
    if s.mount.hidesParameter then outcome s.deployment (Response.ofDetail 422 missingId [])
    else runOn s.deployment request id r

/-! ### Answers -/

def redirect (f : Framework) (request : Request) (path : Text) : Except Failure Response :=
  ((f.redirection request.url path).mapError Failure.value).map fun location =>
    ⟨307, [(Text.of "location", location)], []⟩

/-- The record about a refused request for a path. -/
def refusalRecord (method path : Text) (e : UploadError) : LogRecord :=
  if e.isExposed then
    ⟨.info, Text.of "Rejected " ++ method ++ Text.of " " ++ path ++ Text.of ": " ++ e.message⟩
  else
    ⟨.error, Text.of "Internal error on " ++ method ++ Text.of " " ++ path ++ Text.of ": " ++ e.message⟩

/-- Answers a refusal with its status and detail.  The record comes first, and needs the
    path that the URL of the request shows. -/
def refused (f : Framework) (request : Request) (o : Outcome) : Outcome :=
  match o.answer with
  | .error (.upload e) =>
    match f.shownPath request.url with
    | .error fault => { o with answer := .error (.value fault) }
    | .ok path =>
      ⟨Response.detail e.status e.detail [], o.deployment, o.logs ++ [refusalRecord request.method path e]⟩
  | _ => o

def dispatch (s : Service) (now : Moment) (request : Request) : Outcome :=
  match Route.find s.mount request.method request.path with
  | .endpoint r id => refused s.framework request (s.run now request id r)
  | .otherMethod method =>
    outcome s.deployment (Response.detail 405 (Text.of "Method Not Allowed") [(Text.of "allow", method)])
  | .otherPath path => outcome s.deployment (redirect s.framework request path)
  | .nowhere => outcome s.deployment (Response.detail 404 (Text.of "Not Found") [])

def answer (s : Service) (now : Moment) (request : Request) : Outcome :=
  let allowed? := Cors.allowed? s.deployment.config.corsOrigins request
  if Cors.isPreflight request then outcome s.deployment (.ok (Cors.preflight allowed?))
  else
    let o := s.dispatch now request
    { o with answer := o.answer.map (Cors.decorate s.framework.vary allowed?) }

/-! ### The server -/

/-- Answers a request and does all the work that it leaves. -/
def handle (s : Service) (now : Moment) (request : Request) : Except Failure Response × Service × List LogRecord :=
  let o := s.answer now request
  let (d, logs) := o.deployment.settle
  (o.answer, { s with deployment := d }, o.logs ++ logs)

/-- A server that is not started. -/
def ofConfig (framework : Framework) (config : Config) : Except Failure Service := do
  let deployment ← Deployment.ofConfig config
  let mount ← ((BasePath.routePrefix config.basePath).bind Mount.parse).mapError Failure.value
  .ok ⟨deployment, mount, framework⟩

def start (s : Service) : Except Failure Service :=
  let o := s.deployment.start
  o.answer.map fun _ => { s with deployment := o.deployment }

end Service

end UploadGate.Http
