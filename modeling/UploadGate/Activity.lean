/-
  UploadGate/Activity.lean
  ========================
  **The log of what happens to uploads.**

  The last events are kept for inspection, every event is counted by its kind,
  and each makes a record, one of lesser weight if it is mere progress.
-/
import UploadGate.Event
import UploadGate.Log
import UploadGate.Telemetry

namespace UploadGate.Activity

/-- The events that are kept. -/
abbrev Journal := Recent Event

def Journal.empty : Journal := { capacity := 200 }

def eventRecord (e : Event) : LogRecord :=
  ⟨if e.kind = .progress then .debug else .info,
    Text.of "Upload " ++ e.kind.name ++ Text.of " (id=" ++ e.uploadId ++ Text.of ", offset="
      ++ Text.ofInt e.offset ++ Text.of ", size=" ++ Text.ofInt e.size ++ Text.of ")"⟩

/-- Keeps, counts and logs an event. -/
def handle (journal : Journal) (t : Telemetry) (e : Event) : Journal × Telemetry × List LogRecord :=
  (journal.push e, t.increment "uploads.events" [(Text.of "type", e.kind.name)], [eventRecord e])

def handleAll (journal : Journal) (t : Telemetry) : List Event → Journal × Telemetry × List LogRecord
  | [] => (journal, t, [])
  | e :: rest =>
    let (journal, t, logs) := handle journal t e
    let (journal, t, more) := handleAll journal t rest
    (journal, t, logs ++ more)

end UploadGate.Activity
