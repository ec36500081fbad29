/-
  UploadGate/Http/Route.lean
  ==========================
  **Which endpoint a method and a path lead to.**

  Routes are tried in order.  A path that fits a route with another method is
  answered with that method; a path that fits none, but would with a slash more
  or less at its end, leads there.  A parameter is one segment that is not empty.
  A path without parameters of its own also fits with a line feed behind it.
-/
import UploadGate.Http.Mount

namespace UploadGate.Http

open BasePath (slash)

/-! ### Routes -/

inductive Route where
  /-- Creation at the prefix itself. -/
  | create
  /-- Creation at the prefix with a slash. -/
  | createSlash
  | head
  | patch
  | delete
  | get
  /-- Download under a file name, which does not matter. -/
  | getNamed
deriving DecidableEq, Repr

namespace Route

def method : Route → Text
  | .create => Text.of "POST"
  | .createSlash => Text.of "POST"
  | .head => Text.of "HEAD"
  | .patch => Text.of "PATCH"
  | .delete => Text.of "DELETE"
  | .get => Text.of "GET"
  | .getNamed => Text.of "GET"

/-- The routes in the order in which they are tried.  Without a prefix, creation
    is at the slash alone. -/
def table (m : Mount) : List Route :=
  (if m.path.isEmpty then [] else [.create]) ++ [.createSlash, .head, .patch, .delete, .get, .getNamed]

/-! ### Paths -/

/-- A path without a line feed at its end. -/
def withoutLineFeed (path : Text) : Text := (Text.dropEnd? (Text.of "\n") path).getD path

def isPrefix (m : Mount) (path : Text) : Bool := m.fits path || m.fits (withoutLineFeed path)

/-- Whether a path is the prefix and a slash, with or without a line feed behind
    them. -/
def isSlashedPrefix (m : Mount) (path : Text) : Bool :=
  (Text.dropEnd? [slash] (withoutLineFeed path)).any m.fits

/-- The path before the last segment, and this segment if it is not empty. -/
def lastSegment? (path : Text) : Option (Text × Text) :=
  (path.cutLast? slash).filter fun (_, segment) => !segment.isEmpty

def segment? (m : Mount) (path : Text) : Option Text :=
  (lastSegment? path).bind fun (front, id) => if m.fits front then some id else none

/-- The first of two segments behind the prefix. -/
def firstSegment? (m : Mount) (path : Text) : Option Text :=
  (lastSegment? path).bind fun (front, _) => segment? m front

/-- The id in a path that fits a route, empty for a creation. -/
def matchPath? (m : Mount) (path : Text) : Route → Option Text
  | .create => if isPrefix m path then some [] else none
  | .createSlash => if isSlashedPrefix m path then some [] else none
  | .getNamed => firstSegment? m path
  | _ => segment? m path

def fitsAny (m : Mount) (path : Text) : Bool := (table m).any fun r => (r.matchPath? m path).isSome

/-! ### Finding a route -/

inductive Target where
  | endpoint (r : Route) (id : Text)
  /-- The path fits, but with this method. -/
  | otherMethod (method : Text)
  /-- The path fits with a slash more or less. -/
  | otherPath (path : Text)
  | nowhere
deriving DecidableEq, Repr

/-- A path with its slashes at the end removed, or with one added. -/
def toggleSlash (path : Text) : Text :=
  if path.getLast? = some slash then Text.dropRightWhile (· = slash) path else path ++ [slash]

/-- Where a path leads that fits no route. -/
def elsewhere (m : Mount) (path : Text) : Target :=
  if path ≠ [slash] && fitsAny m (toggleSlash path) then .otherPath (toggleSlash path)
  else .nowhere

def find (m : Mount) (method path : Text) : Target :=
  let fitting := (table m).filterMap fun r => (r.matchPath? m path).map (r, ·)
  match fitting.find? fun f => f.1.method = method with
  | some (r, id) => .endpoint r id
  | none =>
    match fitting with
    | (r, _) :: _ => .otherMethod r.method
    | [] => elsewhere m path

end Route

end UploadGate.Http
