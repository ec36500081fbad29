/-
  UploadGate/Token/Verification.lean
  ==================================
  **What a token says about the account that uploads.**

  A request without a token goes on without an identity, and so does one whose
  token names an issuer that is not configured: its signature cannot be checked,
  and nothing it claims is used.  Every other token must be signed by its issuer
  and be within its times.
-/
import UploadGate.Config.Basic
import UploadGate.Token.TimeClaims

namespace UploadGate.Token

/-! ### Results -/

/-- The result of looking at a token that is not refused. -/
inductive Verification where
  /-- There was no token. -/
  | skipped
  /-- The token is signed by its issuer. -/
  | verified (issuer : Text) (account? : Option Text)
  /-- The issuer of the token is not configured. -/
  | degraded (issuer : Text)
deriving DecidableEq, Repr

namespace Verification

def identity? : Verification → Option (Text × Text)
  | .verified issuer (some account) => some (issuer, account)
  | _ => none

def warning? : Verification → Option Text
  | .degraded issuer => some (Text.of "Issuer " ++ issuer.quoted ++ Text.of " not configured")
  | _ => none

end Verification

/-! ### Verifying -/

def issuerOf (payload : Claims) : Except UploadError Text :=
  match payload.get? (Text.of "iss") with
  | none => .error .missingIssuer
  | some (.text issuer) => .ok issuer
  | some _ => .error (.token .issuerNotText)

def isSignedBy (s : Segments) (h : HashFunction) (key : Bytes) : Bool :=
  Base64.decodeSegment? s.signature = some (h.hmac key s.signedBytes)

def verifySigned (s : Segments) (h : HashFunction) (payload : Claims) (issuer : Text) (key : Bytes)
    (now : Number) : Except UploadError Verification :=
  if !isSignedBy s h key then .error (.signature issuer)
  else do
    let times ← TimeClaims.read payload
    times.check now
    .ok (.verified issuer ((payload.get? (Text.of "account")).bind Json.text?))

/-- Looks at a token that is not empty, with a stack of some depth for its objects. -/
def verifyPresent (registry : Registry) (depth : Nat) (now : Number) (token : Text) :
    Except Failure Verification := do
  let segments ← (Segments.parse token).mapError Failure.upload
  let header ← readObject depth .header segments.header
  match algorithm? header with
  | none => .error (.upload (.signingMethod (shownAlgorithm header)))
  | some h =>
    let payload ← readObject depth .payload segments.payload
    let issuer ← (issuerOf payload).mapError Failure.upload
    match registry.get? issuer with
    | none => .ok (.degraded issuer)
    | some key => (verifySigned segments h payload issuer key now).mapError Failure.upload

/-- Looks at the token of a request, empty if it has none. -/
def verify (registry : Registry) (depth : Nat) (now : Number) (token : Text) : Except Failure Verification :=
  if token.isEmpty then .ok .skipped else verifyPresent registry depth now token

end UploadGate.Token
