/-
  UploadGate/Store.lean
  =====================
  **The table of uploads: a row for each id, which outlives the upload.**

  The store must be connected before it is used.  A durable store keeps its rows
  while it is closed; one in memory loses them.  A row is added with its size
  and learns the uploader's address later; no operation removes a row.
-/
import UploadGate.Failure
import UploadGate.OrderedMap
import UploadGate.Text.Utf8
import UploadGate.Timestamp.Basic

namespace UploadGate

structure Row where
  size : Int
  createdAt : Timestamp
  uploaderIp? : Option Text := none
deriving DecidableEq, Repr

structure Store where
  /-- Whether rows survive closing. -/
  isDurable : Bool
  isConnected : Bool := false
  rows : OrderedMap Text Row := []
deriving DecidableEq, Repr

namespace Store

/-! ### Connection -/

/-- A store at a path, not connected.  The rows of a store in memory, or of one
    without a path, are not durable. -/
def atPath (path : Text) : Store := { isDurable := !path.isEmpty && path ≠ Text.of ":memory:" }

def connect (s : Store) : Store := { s with isConnected := true }

def close (s : Store) : Store := { s with isConnected := false, rows := if s.isDurable then s.rows else [] }

/-! ### What can be stored -/

/-- Whether a text can be stored: it must have a UTF-8 form. -/
def isStorable (t : Text) : Bool := !t.any CodePoint.isSurrogate

/-- Whether a size can be stored: it must fit into 64 bits with a sign. -/
def isStorableSize (size : Int) : Bool := -0x8000000000000000 ≤ size && size < 0x8000000000000000

/-- Refuses use of a store that is not connected, and texts that cannot be stored. -/
def require (s : Store) (texts : List Text) : Except Failure Unit :=
  if !s.isConnected then .error (.upload (.persistence .notConnected))
  else if texts.all isStorable then .ok ()
  else .error (.value .unencodable)

/-! ### Rows -/

def create (s : Store) (id : Text) (size : Int) (createdAt : Timestamp) : Except Failure Store := do
  s.require [id]
  if !isStorableSize size then .error (.value .outOfRange)
  else if s.rows.has id then .error (.upload (.persistence .duplicateId))
  else .ok { s with rows := s.rows ++ [(id, ⟨size, createdAt, none⟩)] }

def setUploaderIp (s : Store) (id ip : Text) : Except Failure Store := do
  s.require [ip, id]
  match s.rows.get? id with
  | none => .error (.upload (.persistence (.noSuchRow id)))
  | some row => .ok { s with rows := s.rows.set id { row with uploaderIp? := some ip } }

def find? (s : Store) (id : Text) : Except Failure (Option Row) :=
  (s.require [id]).map fun _ => s.rows.get? id

end Store

end UploadGate
