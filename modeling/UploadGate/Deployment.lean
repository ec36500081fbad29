/-
  UploadGate/Deployment.lean
  ==========================
  **A server put together: engine, authorization and the two consumers of events.**

  While requests are served, the distributor hands out events, the consumers take
  them, and the writes of addresses end, each at its own pace.  These are the
  small steps `distribute`, `consume` and `endWrite`, which may come in any
  order; `settle` takes them until nothing is left to do.  Starting subscribes
  both consumers before the first event can be handed out.  Shutting down closes
  the broadcaster first and the store last, so no event and no write is lost.
-/
import UploadGate.Activity
import UploadGate.Authorization
import UploadGate.BasePath
import UploadGate.Engine.Operations
import UploadGate.Provenance

namespace UploadGate

/-- What a request meets: the seconds since 1970 that tokens are compared with, the
    time that rows are stamped with, and how deeply the stack lets a token nest. -/
structure Moment where
  seconds : Number
  stamp : Timestamp
  depth : Nat
deriving DecidableEq, Repr

/-- What a subscriber does with the events. -/
inductive Consumer where
  | activity
  | provenance
deriving DecidableEq, Repr

def Consumer.name : Consumer → Text
  | .activity => Text.of "activity"
  | .provenance => Text.of "provenance"

structure Deployment where
  config : Config
  engine : Engine
  journal : Activity.Journal := Activity.Journal.empty
  /-- The writes of addresses that have not ended. -/
  pending : Provenance.Pending := []
  /-- The consumers, each of the subscription at its position. -/
  consumers : List Consumer := []
  /-- The first failure of a write that was no refusal by the store. -/
  writeFailure? : Option Failure := none
deriving DecidableEq, Repr

namespace Deployment

/-- A server that is not started. -/
def ofConfig (config : Config) : Except Failure Deployment :=
  ((Engine.ofConfig config).mapError Failure.value).map fun engine => { config := config, engine := engine }

/-! ### Outcomes -/

/-- What an operation answers, the server after it, and its records. -/
structure Outcome (α : Type) where
  answer : Except Failure α
  deployment : Deployment
  logs : List LogRecord := []

/-- The outcome of an operation of the engine. -/
def afterReply (d : Deployment) (r : Engine.Reply α) : Outcome α := ⟨r.answer, { d with engine := r.engine }, r.logs⟩

def setBroadcaster (d : Deployment) (b : Broadcaster) : Deployment :=
  { d with engine := { d.engine with broadcaster := b } }

def setStore (d : Deployment) (s : Store) : Deployment := { d with engine := { d.engine with store := s } }

def setTelemetry (d : Deployment) (t : Telemetry) : Deployment :=
  { d with engine := { d.engine with telemetry := t } }

/-! ### Small steps -/

def distribute (d : Deployment) : Deployment × List LogRecord :=
  let (b, logs) := d.engine.broadcaster.distributeOne
  (d.setBroadcaster b, logs)

def take (d : Deployment) (e : Event) : Consumer → Deployment × List LogRecord
  | .activity =>
    let (journal, telemetry, logs) := Activity.handle d.journal d.engine.telemetry e
    ({ d with journal }.setTelemetry telemetry, logs)
  | .provenance => ({ d with pending := Provenance.accept d.pending e }, [])

/-- The consumer at a position takes the next signal of its subscription. -/
def consume (i : Nat) (d : Deployment) : Deployment × List LogRecord :=
  let (receipt, b) := d.engine.broadcaster.receive i
  let d := d.setBroadcaster b
  match receipt, d.consumers[i]? with
  | .event e, some consumer => d.take e consumer
  | _, _ => (d, [])

def endWrite (i : Nat) (d : Deployment) : Deployment × List LogRecord :=
  match d.pending[i]? with
  | none => (d, [])
  | some e =>
    let r := Provenance.record d.engine.store d.engine.telemetry e
    let d := { d with pending := d.pending.eraseIdx i, writeFailure? := d.writeFailure?.or r.failure? }
    ((d.setStore r.store).setTelemetry r.telemetry, r.logs)

/-! ### Settling -/

def times (step : Deployment → Deployment × List LogRecord) : Nat → Deployment → Deployment × List LogRecord
  | 0, d => (d, [])
  | n + 1, d =>
    let (d, logs) := step d
    let (d, more) := times step n d
    (d, logs ++ more)

def distributeAll (d : Deployment) : Deployment × List LogRecord :=
  times distribute d.engine.broadcaster.source.length d

def consumeAll (d : Deployment) (i : Nat) : Deployment × List LogRecord :=
  times (consume i) ((d.engine.broadcaster.subscriptions[i]?.map (·.queue.length)).getD 0) d

def consumeEach (d : Deployment) : Deployment × List LogRecord :=
  (List.range d.consumers.length).foldl
    (fun (d, logs) i => let (d, more) := d.consumeAll i; (d, logs ++ more)) (d, [])

/-- All writes end, in the order in which they began. -/
def endWrites (d : Deployment) : Deployment × List LogRecord := times (endWrite 0) d.pending.length d

def settle (d : Deployment) : Deployment × List LogRecord :=
  let (d, logs₁) := d.distributeAll
  let (d, logs₂) := d.consumeEach
  let (d, logs₃) := d.endWrites
  (d, logs₁ ++ logs₂ ++ logs₃)

/-! ### Start and shutdown -/

def subscribe (d : Deployment) (c : Consumer) : Except ClosedUse Deployment :=
  (d.engine.broadcaster.listen c.name).map fun b =>
    { d.setBroadcaster b with consumers := d.consumers ++ [c] }

def startRecord (config : Config) (routePrefix : Text) : LogRecord :=
  ⟨.info, Text.of "Upload server started (route_prefix=" ++ routePrefix ++ Text.of ", trusted_ranges="
    ++ Text.ofNat config.trustedRanges.length ++ Text.of ", issuers="
    ++ Text.ofNat config.secrets.length ++ Text.of ")"⟩

/-- Connects the store, subscribes the consumers and starts the distributor. -/
def start (d : Deployment) : Outcome Unit :=
  let d := d.setStore d.engine.store.connect
  match (d.subscribe .activity).bind (·.subscribe .provenance) with
  | .error use => ⟨.error (.closed use), d, []⟩
  | .ok d =>
    let d := d.setBroadcaster d.engine.broadcaster.start
    match BasePath.routePrefix d.config.basePath with
    | .error fault => ⟨.error (.value fault), d, []⟩
    | .ok routePrefix => ⟨.ok (), d, [startRecord d.config routePrefix]⟩

def stopRecords (metrics : Nat) : List LogRecord :=
  [⟨.debug, Text.of "Flushing " ++ Text.ofNat metrics ++ Text.of " buffered metrics"⟩,
    ⟨.info, Text.of "Upload server stopped"⟩]

/-- Closes the broadcaster, lets all work end, and closes the store. -/
def shutdown (d : Deployment) : Outcome Unit :=
  let (b, logs₁) := d.engine.broadcaster.requestClose
  let (d, logs₂) := (d.setBroadcaster b).settle
  let d := d.setStore d.engine.store.close
  let records := stopRecords d.engine.telemetry.metrics.entries.length
  ⟨.ok (), d.setTelemetry d.engine.telemetry.flush, logs₁ ++ logs₂ ++ records⟩

/-! ### Requests -/

def authorize (d : Deployment) (now : Moment) (request : UploadRequest) : Outcome AuthorizedUpload :=
  let decision := Authorization.decide d.config now.depth now.seconds d.engine.telemetry request
  ⟨decision.result, d.setTelemetry decision.telemetry, decision.logs⟩

/-- The first half of a creation: the checks and, if the request passes them, the row. -/
def enroll (d : Deployment) (now : Moment) (request : UploadRequest) (id : Text) (length : Int) :
    Outcome (AuthorizedUpload × UploadInfo) :=
  let decided := d.authorize now request
  match decided.answer with
  | .error failure => ⟨.error failure, decided.deployment, decided.logs⟩
  | .ok authorized =>
    let d := decided.deployment
    let made := d.afterReply (d.engine.enroll d.config id (some authorized.header) length now.stamp)
    ⟨made.answer.map fun info => (authorized, info), made.deployment, decided.logs ++ made.logs⟩

/-- The second half of a creation, which may begin any time after the first. -/
def register (d : Deployment) (info : UploadInfo) : Outcome UploadInfo :=
  d.afterReply (d.engine.register d.config info)

/-- Creates an upload for a request that passes the checks. -/
def create (d : Deployment) (now : Moment) (request : UploadRequest) (length : Int) : Outcome UploadInfo :=
  let begun := d.enroll now request (Engine.drawnId d.engine.drawn) length
  match begun.answer with
  | .error failure => ⟨.error failure, begun.deployment, begun.logs⟩
  | .ok (_, info) =>
    let made := begun.deployment.register info
    { made with logs := begun.logs ++ made.logs }

def write (d : Deployment) (id : Text) (offset : Int) (data : Bytes) : Outcome UploadInfo :=
  d.afterReply (d.engine.write d.config id offset data)

def terminate (d : Deployment) (id : Text) : Outcome UploadInfo := d.afterReply (d.engine.terminate id)

end Deployment

end UploadGate
