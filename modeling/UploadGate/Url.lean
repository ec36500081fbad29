/-
  UploadGate/Url.lean
  ===================
  **Scheme, authority and path of a URL or of a relative reference.**

  Control characters and spaces in front are dropped, tabs and line ends
  everywhere.  A scheme is cut off before the first colon, an authority behind a
  double slash, the fragment and the query at their marks.  Schemes whose paths
  take parameters lose those of the last path segment.  The one thing that can
  be wrong is the authority: an unmatched bracket, a bracketed host that is no
  address, or a code point that a compatibility mapping turns into a delimiter.
-/
import UploadGate.Address.Parser
import UploadGate.Failure

namespace UploadGate

structure Url where
  scheme : Text
  authority : Text
  path : Text
deriving DecidableEq, Repr

namespace Url

/-! ### Cutting off the parts -/

/-- A reference without the code points that URLs never hold. -/
def cleaned (t : Text) : Text :=
  (t.dropWhile fun c => c.val ≤ 0x20).filter fun c => c.val ≠ 9 && c.val ≠ 0x0A && c.val ≠ 0x0D

def isSchemePoint (c : CodePoint) : Bool :=
  c.isAsciiLetter || c.isAsciiDigit || c = .ofChar '+' || c = .ofChar '-' || c = .ofChar '.'

/-- The scheme in small letters, empty if there is none, and what follows. -/
def cutScheme (t : Text) : Text × Text :=
  match t.cut? (.ofChar ':') with
  | some (c :: name, rest) =>
    if c.isAsciiLetter && name.all isSchemePoint then ((c :: name).map CodePoint.lowerAscii, rest)
    else ([], t)
  | _ => ([], t)

def endsAuthority (c : CodePoint) : Bool := c = .ofChar '/' || c = .ofChar '?' || c = .ofChar '#'

def cutAuthority (t : Text) : Text × Text :=
  match Text.dropFront? (Text.of "//") t with
  | some rest => (rest.takeWhile (!endsAuthority ·), rest.dropWhile (!endsAuthority ·))
  | none => ([], t)

/-- The text before the first occurrence of a code point, all of it if there is
    none. -/
def before (mark : CodePoint) (t : Text) : Text := t.takeWhile (· ≠ mark)

/-- The schemes whose path segments take parameters behind a semicolon; so does a
    reference without a scheme. -/
def parameterSchemes : List Text :=
  ["", "ftp", "hdl", "prospero", "http", "imap", "https", "shttp", "rtsp", "rtspu", "sip",
    "sips", "mms", "sftp", "tel"].map Text.of

def dropParameters (path : Text) : Text :=
  match path.cutLast? (.ofChar '/') with
  | some (front, segment) => front ++ .ofChar '/' :: before (.ofChar ';') segment
  | none => before (.ofChar ';') path

/-! ### Authorities -/

/-- Code points that a compatibility mapping turns into a delimiter of URLs. -/
def delimiterLookalikes : List Nat :=
  [0x2047, 0x2048, 0x2049, 0x2100, 0x2101, 0x2105, 0x2106, 0x2A74, 0xFE13, 0xFE16, 0xFE55, 0xFE56,
    0xFE5F, 0xFE6B, 0xFF03, 0xFF0F, 0xFF1A, 0xFF1F, 0xFF20]

/-- Whether a text may stand between brackets: a long address, or the form `v`,
    hexadecimal digits, a point and something more. -/
def isBracketHost (host : Text) : Bool :=
  match host with
  | c :: rest =>
    if c = .ofChar 'v' then
      match Text.cut? (.ofChar '.') rest with
      | some (version, more) =>
        !version.isEmpty && version.all (·.hexValue?.isSome) && !more.isEmpty
      | none => false
    else
      match Address.parse? host with
      | some (.v6 ..) => true
      | _ => false
  | [] => false

/-- The host and the port of an authority, behind the name of a user. -/
def hostAndPort (authority : Text) : Text :=
  match authority.cutLast? (.ofChar '@') with
  | some (_, hostAndPort) => hostAndPort
  | none => authority

/-- The host of an authority with brackets.  Brackets go around all of it, so
    nothing but a port may follow them; they may also be in the name of a user.
    Releases of the runtime before 3.11.12 look for the brackets alone, and accept
    text around them. -/
def bracketHost? (authority : Text) : Option Text :=
  let t := hostAndPort authority
  match t.cut? (.ofChar '[') with
  | none => some (before (.ofChar ':') t)
  | some (front, inside) =>
    let port := (inside.dropWhile (· ≠ .ofChar ']')).drop 1
    if front.isEmpty && (port.isEmpty || port.head? = some (.ofChar ':')) then
      some (before (.ofChar ']') inside)
    else none

/-- Whether an authority with brackets has both kinds and a host to go with them. -/
def hasGoodBrackets (authority : Text) : Bool :=
  match authority.contains (.ofChar '['), authority.contains (.ofChar ']') with
  | false, false => true
  | true, true => (bracketHost? authority).any isBracketHost
  | _, _ => false

def isGoodAuthority (authority : Text) : Bool :=
  hasGoodBrackets authority && !authority.any fun c => delimiterLookalikes.contains c.val

/-! ### Whole URLs -/

/-- The parts of a URL, with its path as it stands. -/
def split (t : Text) : Except ValueFault Url :=
  let (scheme, rest) := cutScheme (cleaned t)
  let (authority, rest) := cutAuthority rest
  if !isGoodAuthority authority then .error .malformedHost
  else .ok ⟨scheme, authority, before (.ofChar '?') (before (.ofChar '#') rest)⟩

/-- A URL whose path has lost the parameters that its scheme allows for. -/
def withoutParameters (url : Url) : Url :=
  if parameterSchemes.contains url.scheme then { url with path := dropParameters url.path } else url

def parse (t : Text) : Except ValueFault Url := (split t).map withoutParameters

/-- A URL put together.  Two slashes stand before the authority, also before an empty
    one unless the path begins with two itself. -/
def text (url : Url) : Text :=
  let rooted :=
    if url.path.isEmpty || url.path.head? = some (.ofChar '/') then url.path else .ofChar '/' :: url.path
  let marked := !url.authority.isEmpty || (Text.dropFront? (Text.of "//") url.path).isNone
  url.scheme ++ .ofChar ':' :: if marked then Text.of "//" ++ url.authority ++ rooted else url.path

end Url

end UploadGate
