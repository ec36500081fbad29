/-
  UploadGate/Http/Mount.lean
  ==========================
  **The path behind which all routes hang.**

  The prefix of the routes is a template: a name in braces stands for any text of
  a class, one segment if no class is named.  Braces that hold no name stand for
  themselves.  A prefix with parameters is matched like any other, but no address
  can be given behind it, since nothing says what its parameters are.
-/
import UploadGate.BasePath

namespace UploadGate.Http

/-! ### Classes of texts -/

/-- What a parameter of a template stands for. -/
inductive ParameterClass where
  /-- One segment. -/
  | segment
  /-- Any text on one line. -/
  | path
  /-- Digits. -/
  | integer
  /-- Digits, with or without a point and more digits. -/
  | decimal
  /-- The 32 hexadecimal digits of a universal identifier, with or without each
      of its hyphens. -/
  | uuid
deriving DecidableEq, Repr

namespace ParameterClass

def ofName? (name : Text) : Option ParameterClass :=
  if name = Text.of "str" then some .segment
  else if name = Text.of "path" then some .path
  else if name = Text.of "int" then some .integer
  else if name = Text.of "float" then some .decimal
  else if name = Text.of "uuid" then some .uuid
  else none

def isDigits (t : Text) : Bool := !t.isEmpty && t.all CodePoint.isAsciiDigit

def isDecimal (t : Text) : Bool :=
  match t.cut? (.ofChar '.') with
  | some (whole, part) => isDigits whole && isDigits part
  | none => isDigits t

/-- Whether a text is groups of hexadecimal digits of given lengths, with or
    without a hyphen between two groups. -/
def isHexGroups : List Nat → Text → Bool
  | [], t => t.isEmpty
  | n :: lengths, t =>
    let t := (Text.dropFront? (Text.of "-") t).getD t
    (t.take n).length = n && (t.take n).all (·.hexValue?.isSome) && isHexGroups lengths (t.drop n)

def accepts : ParameterClass → Text → Bool
  | .segment, t => !t.isEmpty && !t.contains BasePath.slash
  | .path, t => !t.contains (.ofChar '\n')
  | .integer, t => isDigits t
  | .decimal, t => isDecimal t
  | .uuid, t => t.head? ≠ some (.ofChar '-') && isHexGroups [8, 4, 4, 4, 12] t

end ParameterClass

/-! ### Templates -/

inductive TemplatePart where
  | literal (t : Text)
  | parameter (name : Text) (c : ParameterClass)
deriving DecidableEq, Repr

namespace TemplatePart

def name? : TemplatePart → Option Text
  | .literal _ => none
  | .parameter name _ => some name

/-- Whether a text is a name: letters, digits and underscores, no digit in front. -/
def isName : Text → Bool
  | [] => false
  | c :: rest =>
    let isLetter (c : CodePoint) := c.isAsciiLetter || c = .ofChar '_'
    isLetter c && rest.all fun c => isLetter c || c.isAsciiDigit

def declaration? (inside : Text) : Option (Text × Text) :=
  match inside.cut? (.ofChar ':') with
  | none => if isName inside then some (inside, Text.of "str") else none
  | some (name, className) => if isName name && isName className then some (name, className) else none

/-- The parts of a text that follows an opening brace. -/
def ofPiece (piece : Text) : Except ValueFault (List TemplatePart) :=
  let plain := [.literal (.ofChar '{' :: piece)]
  match piece.cut? (.ofChar '}') with
  | none => .ok plain
  | some (inside, rest) =>
    match declaration? inside with
    | none => .ok plain
    | some (name, className) =>
      (ParameterClass.ofName? className).elim (.error .unknownClass) fun c =>
        .ok [.parameter name c, .literal rest]

def fit : List TemplatePart → Text → Bool
  | [], t => t.isEmpty
  | .literal front :: parts, t => (Text.dropFront? front t).any (fit parts)
  | .parameter _ c :: parts, t =>
    (List.range (t.length + 1)).any fun n => c.accepts (t.take n) && fit parts (t.drop n)

end TemplatePart

/-! ### The mount -/

structure Mount where
  path : Text
  parts : List TemplatePart
deriving DecidableEq, Repr

namespace Mount

def names (m : Mount) : List Text := m.parts.filterMap TemplatePart.name?

def routeNames : List Text := [Text.of "upload_id", Text.of "filename"]

/-- Reads a prefix.  No name may be used twice, by the prefix or by a route. -/
def parse (path : Text) : Except ValueFault Mount := do
  let pieces := path.splitOn (.ofChar '{')
  let parts ← (pieces.drop 1).mapM TemplatePart.ofPiece
  let mount : Mount := ⟨path, .literal (pieces.headD []) :: parts.flatten⟩
  if (mount.names ++ routeNames).Nodup then .ok mount else .error .repeatedName

def fits (m : Mount) (path : Text) : Bool := TemplatePart.fit m.parts path

/-- Whether a brace of the prefix is still open where the route begins.  The first
    parameter of the route is then missed, and no request has it. -/
def hidesParameter (m : Mount) : Bool :=
  (m.path.reverse.takeWhile (· ≠ .ofChar '}')).contains (.ofChar '{')

/-- The path behind the prefix of a route without parameters. -/
def address (m : Mount) (rest : Text) : Except ValueFault Text :=
  if m.names.isEmpty then .ok (m.path ++ rest) else .error .unknownParameter

end Mount

end UploadGate.Http
