/-
  UploadGate/Token/Segments.lean
  ==============================
  **Signed tokens: a header, a payload and a signature between points.**

  Header and payload are JSON objects in UTF-8 in Base64 for URLs.  The header
  names the hash function of the signature; only keyed hashes are known, so a
  token cannot choose to be unsigned or to use a public key.
-/
import UploadGate.Base64
import UploadGate.Digest.Hmac
import UploadGate.Failure
import UploadGate.Json.Reader
import UploadGate.Json.Writer
import UploadGate.Text.Utf8

namespace UploadGate.Token

/-! ### Segments -/

structure Segments where
  header : Text
  payload : Text
  signature : Text
deriving DecidableEq, Repr

/-- Cuts a token at its points, of which there must be two. -/
def Segments.parse (token : Text) : Except UploadError Segments :=
  match token.splitOn (.ofChar '.') with
  | [header, payload, signature] => .ok ⟨header, payload, signature⟩
  | _ => .error (.token .notThreeSegments)

def Segments.signedBytes (s : Segments) : Bytes :=
  (s.header ++ .ofChar '.' :: s.payload).flatMap Utf8.octets

/-! ### Objects -/

abbrev Claims := OrderedMap Text Json

def segmentText? (segment : Text) : Option Text := (Base64.decodeSegment? segment).bind Utf8.decode?

/-- How far the reader of tokens goes, with a depth that its stack leaves. -/
def limits (depth : Nat) : Json.Limits := ⟨some NumberReader.digitLimit, some depth⟩

/-- What ends the reading of a part.  Only malformed JSON is a fault of the token's form. -/
def failureOf (part : TokenPart) : Json.ReadError → Failure
  | .malformed => .upload (.token (.unreadable part))
  | .integerTooLong => .value .tooManyDigits
  | .nestedTooDeep => .value .nestedTooDeep

def readObject (depth : Nat) (part : TokenPart) (segment : Text) : Except Failure Claims :=
  match segmentText? segment with
  | none => .error (.upload (.token (.unreadable part)))
  | some t =>
    match Json.read (limits depth) t with
    | .error e => .error (failureOf part e)
    | .ok j =>
      match j.object? with
      | some members => .ok members
      | none => .error (.upload (.token (.unreadable part)))

/-! ### The signing algorithm -/

def algorithms : List (Text × HashFunction) :=
  [(Text.of "HS256", .sha256), (Text.of "HS384", .sha384), (Text.of "HS512", .sha512)]

def algorithm? (header : Claims) : Option HashFunction :=
  (header.get? (Text.of "alg")).bind fun j => j.text?.bind (OrderedMap.get? algorithms)

def shownAlgorithm (header : Claims) : Text := ((header.get? (Text.of "alg")).getD .null).shown

end UploadGate.Token
