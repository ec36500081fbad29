/-
  UploadGate/Http/Location.lean
  =============================
  **Paths inside URLs.**

  A path must stay a path wherever a client puts it.  That of a new upload is
  given as it is, except for what a client may take for the mark of a host: a
  second slash in front, and any backslash.  The path of a request is given
  without the marks of a query and of a fragment.
-/
import UploadGate.BasePath

namespace UploadGate.Http.Location

open BasePath (slash)

/-! ### New uploads -/

/-- A path whose second code point is not read as a slash. -/
def withoutDoubleSlash (path : Text) : Text :=
  match Text.dropFront? [slash, slash] path with
  | some rest => slash :: Text.of "%2F" ++ rest
  | none => path

def ofUpload (path : Text) : Text :=
  (withoutDoubleSlash path).flatMap fun c => if c = .ofChar '\\' then Text.of "%5C" else [c]

/-! ### Other paths -/

/-- A path without the marks that begin a query and a fragment. -/
def withoutMarks (path : Text) : Text :=
  path.flatMap fun c =>
    if c = .ofChar '?' then Text.of "%3F" else if c = .ofChar '#' then Text.of "%23" else [c]

end UploadGate.Http.Location
