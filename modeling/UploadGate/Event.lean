/-
  UploadGate/Event.lean
  =====================
  **What happens in the life of an upload.**

  An event is a snapshot: it holds the metadata, size and offset that the upload
  had when the event was published.
-/
import UploadGate.Metadata.Basic

namespace UploadGate

inductive EventKind where
  | created
  | progress
  | completed
  | terminated
deriving DecidableEq, Repr

def EventKind.name : EventKind → Text
  | .created => Text.of "created"
  | .progress => Text.of "progress"
  | .completed => Text.of "completed"
  | .terminated => Text.of "terminated"

def EventKind.all : List EventKind := [.created, .progress, .completed, .terminated]

structure Event where
  kind : EventKind
  uploadId : Text
  metadata : Metadata
  size : Int
  offset : Int
deriving DecidableEq, Repr

/-- What travels through the queues: events, and one last signal that no more
    will come. -/
inductive Signal where
  | event (e : Event)
  | closing
deriving DecidableEq, Repr

def Signal.event? : Signal → Option Event
  | .event e => some e
  | .closing => none

end UploadGate
