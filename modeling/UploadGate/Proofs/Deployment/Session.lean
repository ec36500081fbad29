/-
  UploadGate/Proofs/Deployment/Session.lean
  =========================================
  **Everything that may happen between the start of a server and its end.**

  A session is a server with the creations in progress.  Its actions are the
  small steps of the deployment and the requests, and any of them may come next:
  the row of an upload may be there long before the upload is registered, and
  other requests, the distributor, the consumers and the writes of addresses go
  on in between.  Shutting down is a number of such steps as well.  The only
  order that is imposed is the one of the shutdown: the store is closed when the
  broadcaster is closed, the distributor and the consumers have ended, and no
  write waits.
-/
import UploadGate.Deployment

namespace UploadGate

/-- The creation of an upload whose row is there. -/
structure Creation where
  request : UploadRequest
  /-- The length that was declared. -/
  length : Int
  authorized : AuthorizedUpload
  info : UploadInfo

structure Session where
  deployment : Deployment
  created : List Creation := []
  /-- The creations whose second half has not begun. -/
  suspended : List Creation := []
  /-- The creations that have answered. -/
  returned : List Creation := []

inductive Action where
  | enroll (now : Moment) (request : UploadRequest) (id : Text) (length : Int)
  /-- The suspended creation at a position goes on. -/
  | register (i : Nat)
  | write (id : Text) (offset : Int) (data : Bytes)
  | terminate (id : Text)
  | distribute
  | consume (i : Nat)
  | endWrite (i : Nat)
  | requestClose
  | closeStore

/-- Whether the broadcaster is closed and all work is done. -/
def Deployment.isDrained (d : Deployment) : Bool :=
  d.engine.broadcaster.isClosed && d.engine.broadcaster.distributor = .finished
    && d.engine.broadcaster.subscriptions.all (·.hasEnded) && d.pending.isEmpty

namespace Session

def step (s : Session) : Action → Session
  | .enroll now request id length =>
    let begun := s.deployment.enroll now request id length
    match begun.answer with
    | .error _ => { s with deployment := begun.deployment }
    | .ok (authorized, info) =>
      let creation := ⟨request, length, authorized, info⟩
      { s with
        deployment := begun.deployment
        created := s.created ++ [creation]
        suspended := s.suspended ++ [creation] }
  | .register i =>
    match s.suspended[i]? with
    | none => s
    | some creation =>
      let made := s.deployment.register creation.info
      { s with
        deployment := made.deployment
        suspended := s.suspended.eraseIdx i
        returned := if made.answer.isOk then s.returned ++ [creation] else s.returned }
  | .write id offset data => { s with deployment := (s.deployment.write id offset data).deployment }
  | .terminate id => { s with deployment := (s.deployment.terminate id).deployment }
  | .distribute => { s with deployment := s.deployment.distribute.1 }
  | .consume i => { s with deployment := (s.deployment.consume i).1 }
  | .endWrite i => { s with deployment := (s.deployment.endWrite i).1 }
  | .requestClose =>
    { s with deployment := s.deployment.setBroadcaster s.deployment.engine.broadcaster.requestClose.1 }
  | .closeStore =>
    if s.deployment.isDrained then
      { s with deployment := s.deployment.setStore s.deployment.engine.store.close }
    else s

def run (s : Session) (actions : List Action) : Session := actions.foldl step s

end Session

/-- A server that is about to be started: nobody has subscribed, and no write waits. -/
structure Deployment.IsFresh (d : Deployment) : Prop where
  broadcaster : d.engine.broadcaster = { queueLimit := d.config.subscriberQueueSize }
  consumers : d.consumers = []
  pending : d.pending = []

end UploadGate
