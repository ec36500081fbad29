/-
  UploadGate/Provenance.lean
  ==========================
  **Recording where each upload came from.**

  When an upload is created, the address in its metadata is written to its row.
  The writes are detached from the events: they wait in a pool, may end in any
  order, and outlive the subscription.  A write that the store refuses is logged
  and counted and affects no other.  One that fails for another reason is neither;
  its failure is handed on.
-/
import UploadGate.Broadcast.Subscription
import UploadGate.Store
import UploadGate.Telemetry

namespace UploadGate.Provenance

/-! ### One write -/

structure Recording where
  store : Store
  telemetry : Telemetry
  logs : List LogRecord
  /-- What kept the write from its end, other than a refusal by the store. -/
  failure? : Option Failure := none
deriving Repr

def missingRecord (e : Event) : LogRecord :=
  ⟨.warning, Text.of "Created upload " ++ e.uploadId ++ Text.of " carries no " ++ Metadata.remoteIpKey
    ++ Text.of " metadata"⟩

def beginRecord (e : Event) (ip : Text) : LogRecord :=
  ⟨.debug, Text.of "Recording uploader IP (id=" ++ e.uploadId ++ Text.of ", ip=" ++ ip ++ Text.of ")"⟩

def failureRecord (e : Event) (error : UploadError) : LogRecord :=
  ⟨.error, Text.of "Failed to record uploader IP for upload " ++ e.uploadId ++ Text.of ": " ++ error.message⟩

def write (store : Store) (t : Telemetry) (e : Event) (ip : Text) : Recording :=
  let logs := [beginRecord e ip]
  match store.setUploaderIp e.uploadId ip with
  | .ok store => ⟨store, t.increment "provenance.recorded" [], logs, none⟩
  | .error (.upload error) =>
    ⟨store, t.increment "provenance.failures" [], logs ++ [failureRecord e error], none⟩
  | .error failure => ⟨store, t, logs, some failure⟩

def record (store : Store) (t : Telemetry) (e : Event) : Recording :=
  match e.metadata.get? Metadata.remoteIpKey with
  | none => ⟨store, t, [missingRecord e], none⟩
  | some [] => ⟨store, t, [missingRecord e], none⟩
  | some ip => write store t e ip

/-! ### The pool of writes -/

abbrev Pending := List Event

/-- The pool after an event has been taken. -/
def accept (pending : Pending) (e : Event) : Pending :=
  if e.kind = .created then pending ++ [e] else pending

def recordAll (store : Store) (t : Telemetry) : List Event → Recording
  | [] => ⟨store, t, [], none⟩
  | e :: rest =>
    let r := record store t e
    let r' := recordAll r.store r.telemetry rest
    ⟨r'.store, r'.telemetry, r.logs ++ r'.logs, r.failure?.or r'.failure?⟩

def process (store : Store) (t : Telemetry) (e : Event) : Recording := recordAll store t (accept [] e)

end UploadGate.Provenance
