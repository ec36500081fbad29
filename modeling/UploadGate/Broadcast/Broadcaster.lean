/-
  UploadGate/Broadcast/Broadcaster.lean
  =====================================
  **One source of events, and a queue for each subscriber.**

  Publishing puts an event onto the source, which is not bounded, and never
  waits.  A single distributor takes the signals from the source one by one and
  offers each to all subscribers.  It ends with the closing signal.  Each
  operation is one step of a state, so any interleaving of publishers, the
  distributor and subscribers is a sequence of these steps.
-/
import UploadGate.Broadcast.Subscription
import UploadGate.Failure

namespace UploadGate

inductive Distributor where
  | idle
  | running
  | finished
deriving DecidableEq, Repr

structure Broadcaster where
  /-- The limit of each subscriber's queue. -/
  queueLimit : Int
  source : List Signal := []
  subscriptions : List Subscription := []
  distributor : Distributor := .idle
  isClosed : Bool := false
deriving DecidableEq, Repr

namespace Broadcaster

/-! ### Publishers and subscribers -/

/-- Adds a subscriber; its number is the count of those before it. -/
def listen (b : Broadcaster) (name : Text) : Except ClosedUse Broadcaster :=
  if b.isClosed then .error .listen
  else .ok { b with subscriptions := b.subscriptions ++ [{ name := name, limit := b.queueLimit }] }

def publish (b : Broadcaster) (e : Event) : Except ClosedUse Broadcaster :=
  if b.isClosed then .error .publish else .ok { b with source := b.source ++ [.event e] }

def setSubscription (b : Broadcaster) (i : Nat) (s : Subscription) : Broadcaster :=
  { b with subscriptions := b.subscriptions.set i s }

/-- A subscriber takes the next event; one that does not exist gets none. -/
def receive (b : Broadcaster) (i : Nat) : Subscription.Receipt × Broadcaster :=
  match b.subscriptions[i]? with
  | none => (.ended, b)
  | some s => (s.receive.1, b.setSubscription i s.receive.2)

/-- A subscriber takes up to a number of events, and stops at the first answer
    that is none. -/
def receiveUpTo (b : Broadcaster) (i : Nat) : Nat → List Subscription.Receipt × Broadcaster
  | 0 => ([], b)
  | n + 1 =>
    match b.receive i with
    | (.event e, b) => let (more, b) := b.receiveUpTo i n; (.event e :: more, b)
    | (receipt, b) => ([receipt], b)

/-! ### Distribution -/

def fanOut (b : Broadcaster) (signal : Signal) : Broadcaster × List LogRecord :=
  ({ b with subscriptions := b.subscriptions.map fun s => (s.offer signal).1 },
    b.subscriptions.flatMap fun s => (s.offer signal).2)

/-- Starts the distributor, unless it was started before. -/
def start (b : Broadcaster) : Broadcaster :=
  if b.distributor = .idle then { b with distributor := .running } else b

def distributeOne (b : Broadcaster) : Broadcaster × List LogRecord :=
  if b.distributor ≠ .running then (b, [])
  else
    match b.source with
    | [] => (b, [])
    | signal :: rest =>
      let taken := { b with source := rest, distributor := if signal = Signal.closing then .finished else .running }
      taken.fanOut signal

def distribute : Nat → Broadcaster → Broadcaster × List LogRecord
  | 0, b => (b, [])
  | n + 1, b =>
    let (b, logs) := b.distributeOne
    let (b, more) := distribute n b
    (b, logs ++ more)

/-- The distributor takes all there is. -/
def settle (b : Broadcaster) : Broadcaster × List LogRecord := distribute b.source.length b

/-! ### Closing -/

/-- Refuses further use and sends the closing signal, past the source if the
    distributor was never started. -/
def requestClose (b : Broadcaster) : Broadcaster × List LogRecord :=
  if b.isClosed then (b, [])
  else
    let b := { b with isClosed := true, source := b.source ++ [.closing] }
    if b.distributor = .idle then b.fanOut .closing else (b, [])

/-- Closes, and waits for the distributor to end if it was started. -/
def close (b : Broadcaster) : Broadcaster × List LogRecord :=
  if b.isClosed then (b, [])
  else
    let (b, logs) := b.requestClose
    let (b, more) := b.settle
    (b, logs ++ more)

end Broadcaster

end UploadGate
