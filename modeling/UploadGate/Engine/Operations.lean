/-
  UploadGate/Engine/Operations.lean
  =================================
  **Creating, writing, reading and ending uploads.**

  Creation has two halves, since the server may do other work while the row is
  being written: `enroll` checks the length and adds the row under the id that was
  drawn, and `register` puts the upload into memory and publishes it.  An upload that
  becomes complete may push older complete ones out of memory; their rows stay
  and nothing is published about it.
-/
import UploadGate.Engine.Basic
import UploadGate.Metadata.Header

namespace UploadGate.Engine

/-! ### Memory -/

def forget (e : Engine) (id : Text) : Engine :=
  { e with
    uploads := e.uploads.erase id
    buffers := e.buffers.erase id
    completed := e.completed.filter (· ≠ id) }

def evictionRecord (id : Text) : LogRecord :=
  ⟨.debug, Text.of "Evicted completed upload " ++ id ++ Text.of " from memory"⟩

/-- Removes the oldest complete uploads beyond a number.  A negative number is not
    reached, not even when all are removed. -/
def evict (retained : Int) (e : Engine) : Reply Unit :=
  let surplus := e.completed.take (e.completed.length - retained.toNat)
  let answer := if retained < 0 then .error (.value .nothingToEvict) else .ok ()
  ⟨answer, surplus.foldl forget e, surplus.map evictionRecord⟩

/-- Publishes that an upload is complete, and makes room. -/
def complete (config : Config) (e : Engine) (info : UploadInfo) : Reply Unit :=
  ((e.notify "upload_completed" info.id).publish .completed info).andThen fun _ e =>
    evict config.retainedUploads { e with completed := e.completed ++ [info.id] }

def completeIfDone (config : Config) (e : Engine) (info : UploadInfo) : Reply UploadInfo :=
  if info.isComplete then (e.complete config info).andThen fun _ e => e.reply (.ok info)
  else e.reply (.ok info)

/-! ### Creating -/

def checkLength (config : Config) (length : Int) : Except UploadError Unit :=
  if length < 0 then .error .negativeLength
  else if config.maximumUploadSize < length then .error (.uploadTooLarge length config.maximumUploadSize)
  else .ok ()

/-- Reads the metadata and adds the row of the id that was drawn. -/
def insertRow (e : Engine) (id : Text) (header? : Option Text) (size : Nat) (createdAt : Timestamp) :
    Reply UploadInfo :=
  let e := { e with drawn := e.drawn + 1 }
  match Metadata.decode header? with
  | .error fault => e.reply (.error (.upload (.metadata fault)))
  | .ok metadata =>
    match e.store.create id size createdAt with
    | .error failure => e.reply (.error failure)
    | .ok store => ⟨.ok ⟨id, size, 0, metadata⟩, { e with store }, []⟩

/-- The first half of a creation, up to the row. -/
def enroll (config : Config) (e : Engine) (id : Text) (header? : Option Text) (length : Int)
    (createdAt : Timestamp) : Reply UploadInfo :=
  match checkLength config length with
  | .error error => e.reply (.error (.upload error))
  | .ok () => e.insertRow id header? length.toNat createdAt

/-- The second half of a creation, from the row on. -/
def register (config : Config) (e : Engine) (info : UploadInfo) : Reply UploadInfo :=
  let e := { e with uploads := e.uploads.set info.id info, buffers := e.buffers.set info.id [] }
  ((e.notify "upload_created" info.id).publish .created info).andThen fun _ e =>
    e.completeIfDone config info

def create (config : Config) (e : Engine) (header? : Option Text) (length : Int) (createdAt : Timestamp) :
    Reply UploadInfo :=
  (e.enroll config (drawnId e.drawn) header? length createdAt).andThen fun info e =>
    e.register config info

/-! ### Looking up -/

def find (e : Engine) (id : Text) : Except Failure UploadInfo :=
  (e.uploads.get? id).elim (.error (.upload (.notFound id))) .ok

def info (e : Engine) (id : Text) : Reply UploadInfo := e.reply (e.find id)

def read (e : Engine) (id : Text) : Reply Bytes :=
  (e.info id).andThen fun _ e => e.reply (.ok ((e.buffers.get? id).getD []))

/-! ### Writing and ending -/

def append (e : Engine) (info : UploadInfo) (data : Bytes) : Reply UploadInfo :=
  let info := { info with offset := info.offset + data.length }
  let buffer := (e.buffers.get? info.id).getD [] ++ data
  let e := { e with uploads := e.uploads.set info.id info, buffers := e.buffers.set info.id buffer }
  (e.publish .progress info).andThen fun _ e => e.reply (.ok info)

/-- Writes octets at an offset, which must be the end of what has arrived. -/
def write (config : Config) (e : Engine) (id : Text) (offset : Int) (data : Bytes) : Reply UploadInfo :=
  (e.info id).andThen fun info e =>
    if offset ≠ info.offset then e.reply (.error (.upload (.offsetMismatch offset info.offset)))
    else if info.size < info.offset + data.length then e.reply (.error (.upload .chunkTooLarge))
    else if data.isEmpty then e.reply (.ok info)
    else (e.append info data).andThen fun info e => e.completeIfDone config info

/-- Ends an upload before or after it is complete. -/
def terminate (e : Engine) (id : Text) : Reply UploadInfo :=
  (e.info id).andThen fun info e =>
    (((e.forget id).notify "upload_terminated" id).publish .terminated info).andThen fun _ e =>
      e.reply (.ok info)

end UploadGate.Engine
