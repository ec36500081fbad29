/-
  UploadGate/UploadError.lean
  ===========================
  **The reasons for which an upload request is refused.**

  Every reason is a cause with the data that its message needs.  From the cause
  follow the status of the answer, the label under which refusals are counted,
  and whether the client may see the message: an error that is the server's own
  is answered without its text.
-/
import UploadGate.Text.Quoted

namespace UploadGate

/-! ### Causes -/

/-- What is wrong with a metadata header, or with metadata to be written. -/
inductive MetadataFault where
  | emptyEntry (position : Nat)
  | surplusFields (position : Nat)
  | duplicateKey (key : Text)
  | undecodableValue (key : Text)
  | unwritableKey (key : Text)
deriving DecidableEq, Repr

/-- What is wrong with a peer address of the form `host:port`. -/
inductive AddressFault where
  | missingClosingBracket
  | missingPort
  | textAfterHost
  | surplusColon
  | strayBracket
deriving DecidableEq, Repr

inductive TokenPart where
  | header
  | payload
deriving DecidableEq, Repr

/-- What is wrong with a token before and apart from its signature. -/
inductive TokenFault where
  | notThreeSegments
  | unreadable (part : TokenPart)
  | issuerNotText
  | registeredClaims (count : Nat)
deriving DecidableEq, Repr

/-- Why the store did not carry out an operation. -/
inductive StoreFault where
  | notConnected
  | duplicateId
  | noSuchRow (id : Text)
deriving DecidableEq, Repr

inductive UploadError where
  | metadata (fault : MetadataFault)
  | reservedField (key : Text)
  | address (fault : AddressFault) (given : Text)
  | forwardedAddress (client : Text)
  | signingMethod (shown : Text)
  | missingIssuer
  | token (fault : TokenFault)
  | tokenExpired
  | tokenPremature
  | signature (issuer : Text)
  | persistence (fault : StoreFault)
  | notFound (id : Text)
  | offsetMismatch (given current : Int)
  | uploadTooLarge (size limit : Int)
  | chunkTooLarge
  | negativeLength
  | missingHeader (name : Text)
  | invalidHeader (name : Text)
deriving DecidableEq, Repr

/-! ### Messages -/

def MetadataFault.message : MetadataFault → Text
  | .emptyEntry n => Text.of "Empty metadata entry at position " ++ Text.ofNat n
  | .surplusFields n =>
    Text.of "Metadata entry at position " ++ Text.ofNat n ++ Text.of " has too many fields"
  | .duplicateKey key => Text.of "Duplicate metadata key " ++ key.quoted
  | .undecodableValue key => Text.of "Invalid base64 value for metadata key " ++ key.quoted
  | .unwritableKey key => Text.of "Metadata key " ++ key.quoted ++ Text.of " cannot be encoded"

def AddressFault.message : AddressFault → Text
  | .missingClosingBracket => Text.of "missing ']' in address "
  | .missingPort => Text.of "missing port in address "
  | .textAfterHost => Text.of "unexpected text after host in address "
  | .surplusColon => Text.of "too many colons in address "
  | .strayBracket => Text.of "unexpected bracket in address "

def TokenPart.name : TokenPart → Text
  | .header => Text.of "header"
  | .payload => Text.of "payload"

def TokenFault.message : TokenFault → Text
  | .notThreeSegments => Text.of "Malformed JWT"
  | .unreadable part => Text.of "Malformed JWT " ++ part.name
  | .issuerNotText => Text.of "Failed to coerce issuer to string"
  | .registeredClaims n =>
    Text.of "Invalid registered claims: " ++ Text.ofNat n ++ Text.of " error(s)"

def StoreFault.message : StoreFault → Text
  | .notConnected => Text.of "Upload store is not connected"
  | .duplicateId => Text.of "UNIQUE constraint failed: uploads.id"
  | .noSuchRow id =>
    Text.of "Expected to update 1 upload row for " ++ id ++ Text.of ", updated 0"

namespace UploadError

def message : UploadError → Text
  | .metadata fault => fault.message
  | .reservedField key =>
    Text.of "Metadata field " ++ key.quoted ++ Text.of " cannot be set by client"
  | .address fault given => fault.message ++ given.quoted
  | .forwardedAddress _ => Text.of "Failed to parse IP from X-Forwarded-For header"
  | .signingMethod shown => Text.of "Unexpected signing method: " ++ shown
  | .missingIssuer => Text.of "Issuer field 'iss' missing from JWT"
  | .token fault => fault.message
  | .tokenExpired => Text.of "Token is expired"
  | .tokenPremature => Text.of "Token is not valid yet"
  | .signature _ => Text.of "signature is invalid"
  | .persistence fault => fault.message
  | .notFound id => Text.of "Upload " ++ id ++ Text.of " not found"
  | .offsetMismatch given current =>
    Text.of "Upload-Offset " ++ Text.ofInt given ++ Text.of " does not match current offset "
      ++ Text.ofInt current
  | .uploadTooLarge size limit =>
    Text.of "Upload size " ++ Text.ofInt size ++ Text.of " exceeds maximum upload size "
      ++ Text.ofInt limit
  | .chunkTooLarge => Text.of "Chunk exceeds declared upload length"
  | .negativeLength => Text.of "Upload-Length must not be negative"
  | .missingHeader name => Text.of "Missing " ++ name ++ Text.of " header"
  | .invalidHeader name => Text.of "Invalid " ++ name ++ Text.of " header"

/-! ### What the client sees -/

def status : UploadError → Nat
  | .address .. => 500
  | .forwardedAddress _ => 406
  | .signature _ => 401
  | .persistence _ => 500
  | .notFound _ => 404
  | .offsetMismatch .. => 409
  | .uploadTooLarge .. => 413
  | .chunkTooLarge => 413
  | _ => 400

def isExposed : UploadError → Bool
  | .address .. => false
  | .persistence _ => false
  | _ => true

/-- The label under which a refusal is counted. -/
def reason : UploadError → Text
  | .metadata _ => Text.of "malformed_metadata"
  | .reservedField _ => Text.of "reserved_field"
  | .address .. => Text.of "address_parse"
  | .forwardedAddress _ => Text.of "invalid_forwarded_for"
  | .signingMethod _ => Text.of "unexpected_signing_method"
  | .missingIssuer => Text.of "missing_issuer"
  | .token _ => Text.of "malformed_claim"
  | .tokenExpired => Text.of "claim_expired"
  | .tokenPremature => Text.of "claim_expired"
  | .signature _ => Text.of "signature_invalid"
  | .persistence _ => Text.of "persistence"
  | .notFound _ => Text.of "not_found"
  | .offsetMismatch .. => Text.of "offset_mismatch"
  | .uploadTooLarge .. => Text.of "too_large"
  | .chunkTooLarge => Text.of "too_large"
  | .negativeLength => Text.of "invalid_length"
  | .missingHeader _ => Text.of "upload_error"
  | .invalidHeader _ => Text.of "upload_error"

def detail (e : UploadError) : Text :=
  match e with
  | .signature _ =>
    Text.of "Failed to process EXTJWT: " ++ e.message ++ Text.of ". Configured secret may be incorrect."
  | _ => if e.isExposed then e.message else Text.of "Internal Server Error"

end UploadError

end UploadGate
