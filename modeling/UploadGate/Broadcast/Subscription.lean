/-
  UploadGate/Broadcast/Subscription.lean
  ======================================
  **The receiving side of one subscriber: a queue that may be bounded.**

  An event that finds the queue full is dropped, counted and reported.  The
  closing signal is never dropped: it takes the place of the oldest item, so the
  subscriber always learns of the end.
-/
import UploadGate.Event
import UploadGate.Log

namespace UploadGate

structure Subscription where
  name : Text
  /-- The most items in the queue; not positive for no limit. -/
  limit : Int
  queue : List Signal := []
  /-- The number of events that found the queue full. -/
  dropped : Nat := 0
  /-- Whether the subscriber has taken a closing signal. -/
  hasEnded : Bool := false
deriving DecidableEq, Repr

namespace Subscription

def isFull (s : Subscription) : Bool := 0 < s.limit && s.limit ≤ s.queue.length

/-- The record about an event that found the queue full. -/
def dropRecord (s : Subscription) (e : Event) : LogRecord :=
  ⟨.warning, Text.of "Subscriber " ++ s.name ++ Text.of " queue full, dropping " ++ e.kind.name
    ++ Text.of " event for upload " ++ e.uploadId⟩

/-- Puts an event at the end of the queue, or drops it. -/
def offerEvent (s : Subscription) (e : Event) : Subscription × List LogRecord :=
  if s.isFull then ({ s with dropped := s.dropped + 1 }, [s.dropRecord e])
  else ({ s with queue := s.queue ++ [.event e] }, [])

/-- Puts the closing signal at the end of the queue, in place of the oldest item
    when the queue is full. -/
def offerClosing (s : Subscription) : Subscription :=
  if s.isFull then { s with queue := s.queue.tail ++ [.closing] }
  else { s with queue := s.queue ++ [.closing] }

def offer (s : Subscription) : Signal → Subscription × List LogRecord
  | .event e => s.offerEvent e
  | .closing => (s.offerClosing, [])

/-- What a subscriber gets when it asks for the next event. -/
inductive Receipt where
  | event (e : Event)
  /-- The queue is empty; the subscriber has to wait. -/
  | waiting
  /-- There will be no more events. -/
  | ended
deriving DecidableEq, Repr

def receive (s : Subscription) : Receipt × Subscription :=
  if s.hasEnded then (.ended, s)
  else
    match s.queue with
    | [] => (.waiting, s)
    | .event e :: rest => (.event e, { s with queue := rest })
    | .closing :: rest => (.ended, { s with queue := rest, hasEnded := true })

end Subscription

end UploadGate
