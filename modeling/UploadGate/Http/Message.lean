/-
  UploadGate/Http/Message.lean
  ============================
  **Requests and responses.**

  Header names are kept in small letters, and values in Latin-1; where a request
  names a header more than once, the first value counts.
-/
import UploadGate.Json.Writer
import UploadGate.Peer
import UploadGate.Text.Latin1
import UploadGate.Text.Utf8

namespace UploadGate.Http

/-! ### Headers -/

abbrev Headers := List (Text × Text)

namespace Headers

def ofList (headers : List (Text × Text)) : Headers := headers.map fun h => (h.1.map CodePoint.lowerAscii, h.2)

def values (headers : Headers) (name : Text) : List Text := (headers.filter (·.1 = name)).map Prod.snd

def first? (headers : Headers) (name : Text) : Option Text := (headers.values name).head?

def erase (headers : Headers) (name : Text) : Headers := headers.filter (·.1 ≠ name)

/-- The headers with one value for a name, in the place of the first that it had. -/
def set (headers : Headers) (name value : Text) : Headers :=
  match headers with
  | [] => [(name, value)]
  | h :: rest => if h.1 = name then (name, value) :: erase rest name else h :: set rest name value

end Headers

/-! ### Messages -/

structure Request where
  method : Text
  path : Text
  headers : Headers := []
  body : Bytes := []
  client? : Option Client := none
  /-- The octets behind the question mark. -/
  query : Bytes := []
  isSecure : Bool := false
  /-- The host and the port at which the server was reached. -/
  server? : Option (Text × Int) := none
deriving DecidableEq, Repr

structure Response where
  status : Nat
  headers : Headers := []
  body : Bytes := []
deriving DecidableEq, Repr

namespace Response

/-- A response, if its header values can be sent. -/
def checked (response : Response) : Except Failure Response :=
  if response.headers.all fun h => Latin1.isEncodable h.2 then .ok response
  else .error (.value .unencodable)

/-- A response whose body is an object with a detail, if the detail can be sent. -/
def ofDetail (status : Nat) (detail : Json) (headers : Headers) : Except Failure Response :=
  match Utf8.encode? (Json.object [(Text.of "detail", detail)]).write with
  | none => .error (.value .unencodable)
  | some body => .ok ⟨status, headers ++ [(Text.of "content-type", Text.of "application/json")], body⟩

def detail (status : Nat) (detail : Text) (headers : Headers) : Except Failure Response :=
  ofDetail status (.text detail) headers

end Response

end UploadGate.Http
