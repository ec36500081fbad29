/-
  UploadGate/Engine/Basic.lean
  ============================
  **The uploads in memory, and the parts of the server they touch.**

  The engine knows each upload's size, offset and metadata, holds the octets
  received so far, and lists the complete uploads in the order in which they
  became complete.  It writes rows to the store, publishes events and leaves
  notices.  An operation may fail after it has changed the engine, so a reply
  carries the engine in both cases.
-/
import UploadGate.Broadcast.Broadcaster
import UploadGate.Config.Basic
import UploadGate.Store
import UploadGate.Telemetry

namespace UploadGate

/-! ### Uploads -/

structure UploadInfo where
  id : Text
  size : Nat
  offset : Nat := 0
  metadata : Metadata
deriving DecidableEq, Repr

namespace UploadInfo

/-- Whether all octets have arrived. -/
def isComplete (info : UploadInfo) : Bool := info.size ≤ info.offset

/-- The snapshot of an upload at a step of its life. -/
def event (info : UploadInfo) (kind : EventKind) : Event :=
  ⟨kind, info.id, info.metadata, info.size, info.offset⟩

end UploadInfo

/-! ### The engine -/

structure Engine where
  uploads : OrderedMap Text UploadInfo := []
  buffers : OrderedMap Text Bytes := []
  /-- The complete uploads, the first to become complete in front. -/
  completed : List Text := []
  /-- The number of ids drawn so far. -/
  drawn : Nat := 0
  store : Store
  broadcaster : Broadcaster
  telemetry : Telemetry
deriving DecidableEq, Repr

namespace Engine

/-- An engine without uploads, with a closed store and an idle distributor. -/
def ofConfig (config : Config) : Except ValueFault Engine :=
  (Telemetry.ofCapacity config.telemetryBufferSize).map fun telemetry =>
    { store := Store.atPath config.databasePath,
      broadcaster := { queueLimit := config.subscriberQueueSize },
      telemetry := telemetry }

/-- The id that is drawn when a number of ids have been drawn before. -/
def drawnId (drawn : Nat) : Text := Text.of "u" ++ Text.ofNat (drawn + 1)

/-! ### Replies -/

/-- What an operation answers, the engine it leaves behind, and the records it
    writes. -/
structure Reply (α : Type) where
  answer : Except Failure α
  engine : Engine
  logs : List LogRecord := []

namespace Reply

/-- Goes on with an answer, and stops at a failure. -/
def andThen (r : Reply α) (next : α → Engine → Reply β) : Reply β :=
  match r.answer with
  | .error failure => ⟨.error failure, r.engine, r.logs⟩
  | .ok a =>
    let r' := next a r.engine
    ⟨r'.answer, r'.engine, r.logs ++ r'.logs⟩

end Reply

/-- An answer that changes nothing. -/
def reply (e : Engine) (answer : Except Failure α) : Reply α := ⟨answer, e, []⟩

/-! ### Notices and events -/

def notify (e : Engine) (message : String) (id : Text) : Engine :=
  let attributes : Labels := [(Text.of "upload_id", id), (Text.of "service", Text.of "UploadEngine")]
  { e with telemetry := e.telemetry.addNotice (Text.of message) (some attributes) }

def publish (e : Engine) (kind : EventKind) (info : UploadInfo) : Reply Unit :=
  match e.broadcaster.publish (info.event kind) with
  | .ok b => ⟨.ok (), { e with broadcaster := b }, []⟩
  | .error use => e.reply (.error (.closed use))

end Engine

end UploadGate
