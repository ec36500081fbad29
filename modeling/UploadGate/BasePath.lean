/-
  UploadGate/BasePath.lean
  ========================
  **Where the routes of the server begin.**

  The base path may be given as a path or as a URL.  Routes are put behind its
  path, which starts with a slash and ends without one, so that the prefix of
  the root is empty.
-/
import UploadGate.Url

namespace UploadGate.BasePath

def slash : CodePoint := .ofChar '/'

/-- A path with a slash in front and none behind. -/
def trimmed (path : Text) : Text :=
  let rooted := if path.head? = some slash then path else slash :: path
  Text.dropRightWhile (· = slash) rooted

def routePrefix (basePath : Text) : Except ValueFault Text :=
  (Url.parse basePath).map fun url => trimmed url.path

end UploadGate.BasePath
