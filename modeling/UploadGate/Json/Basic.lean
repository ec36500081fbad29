/-
  UploadGate/Json/Basic.lean
  ==========================
  **JSON values.**

  Integers and floating point numbers are told apart, and objects keep the order
  of their members.  A text may hold lone surrogates, which JSON can escape.
-/
import UploadGate.Number.Basic
import UploadGate.OrderedMap
import UploadGate.Text.Basic

namespace UploadGate

inductive Json where
  | null
  | bool (b : Bool)
  | number (n : Number)
  | text (t : Text)
  | array (items : List Json)
  | object (members : List (Text × Json))
deriving Repr

namespace Json

def text? : Json → Option Text
  | .text t => some t
  | _ => none

def object? : Json → Option (OrderedMap Text Json)
  | .object members => some members
  | _ => none

def array? : Json → Option (List Json)
  | .array items => some items
  | _ => none

def number? : Json → Option Number
  | .number n => some n
  | _ => none

def bool? : Json → Option Bool
  | .bool b => some b
  | _ => none

def member? (j : Json) (name : Text) : Option Json := j.object?.bind (OrderedMap.get? · name)

end Json

end UploadGate
