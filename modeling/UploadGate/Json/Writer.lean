/-
  UploadGate/Json/Writer.lean
  ===========================
  **Writing JSON values: compact JSON, and the bracketed form of messages.**

  The compact form has no space and leaves code points outside ASCII as they
  are.  The bracketed form is the one that messages show: a text at the top
  stands as it is, and inside brackets it is quoted.
-/
import UploadGate.Json.Basic
import UploadGate.Number.Shortest
import UploadGate.Text.Quoted

namespace UploadGate.Json

/-! ### Compact JSON -/

/-- A code point inside a JSON text. -/
def escapedPoint (c : CodePoint) : Text :=
  match c.val with
  | 0x22 => Text.of "\\\""
  | 0x5C => Text.of "\\\\"
  | 0x08 => Text.of "\\b"
  | 0x0C => Text.of "\\f"
  | 0x0A => Text.of "\\n"
  | 0x0D => Text.of "\\r"
  | 0x09 => Text.of "\\t"
  | n => if n < 0x20 then Text.of "\\u" ++ Text.ofHexWidth 4 n else [c]

def quote (t : Text) : Text := .ofChar '"' :: t.flatMap escapedPoint ++ [.ofChar '"']

/-- A number in JSON, with the three words for what is no finite number. -/
def numberText : Number → Text
  | .integer n => Text.ofInt n
  | .real .nan => Text.of "NaN"
  | .real (.infinite negative) => if negative then Text.of "-Infinity" else Text.of "Infinity"
  | .real x => x.text

mutual

def write : Json → Text
  | .null => Text.of "null"
  | .bool b => if b then Text.of "true" else Text.of "false"
  | .number n => numberText n
  | .text t => quote t
  | .array items => .ofChar '[' :: Text.join (Text.of ",") (writeItems items) ++ [.ofChar ']']
  | .object members =>
    .ofChar '\x7b' :: Text.join (Text.of ",") (writeMembers members) ++ [.ofChar '\x7d']

def writeItems : List Json → List Text
  | [] => []
  | item :: items => write item :: writeItems items

def writeMembers : List (Text × Json) → List Text
  | [] => []
  | (name, j) :: members => (quote name ++ .ofChar ':' :: write j) :: writeMembers members

end

/-! ### The bracketed form -/

/-- A number as messages show it. -/
def shownNumber : Number → Text
  | .integer n => Text.ofInt n
  | .real x => x.text

mutual

/-- A value inside brackets. -/
def inner : Json → Text
  | .null => Text.of "None"
  | .bool b => if b then Text.of "True" else Text.of "False"
  | .number n => shownNumber n
  | .text t => t.quoted
  | .array items => .ofChar '[' :: Text.join (Text.of ", ") (innerItems items) ++ [.ofChar ']']
  | .object members =>
    .ofChar '\x7b' :: Text.join (Text.of ", ") (innerMembers members) ++ [.ofChar '\x7d']

def innerItems : List Json → List Text
  | [] => []
  | item :: items => inner item :: innerItems items

def innerMembers : List (Text × Json) → List Text
  | [] => []
  | (name, j) :: members => (name.quoted ++ Text.of ": " ++ inner j) :: innerMembers members

end

/-- A value as messages show it. -/
def shown : Json → Text
  | .text t => t
  | j => inner j

end UploadGate.Json
