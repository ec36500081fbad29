/-
  UploadGate/Config/Environment.lean
  ==================================
  **Settings from environment variables.**

  Every variable is optional, and an empty one counts as absent except for the
  two paths.  The first setting that cannot be used decides the fault; the order
  is trusted ranges, upload size, retained uploads, secrets, telemetry buffer.
-/
import UploadGate.Config.Basic
import UploadGate.Config.Size
import UploadGate.Text.Utf8

namespace UploadGate

abbrev Environment := OrderedMap Text Text

namespace Config

/-! ### Lists -/

def comma : CodePoint := .ofChar ','

/-- The items between commas, without the blanks around them and without the
    items that hold nothing else. -/
def items (t : Text) : List Text := ((t.splitOn comma).map Text.strip).filter (!·.isEmpty)

def parseRange (t : Text) : Except ConfigFault Network :=
  match Network.parse? t with
  | some network => .ok network
  | none => .error (.trustedRange t)

def parseTrustedRanges (values : List Text) : Except ConfigFault (List Network) :=
  ((values.map Text.strip).filter (!·.isEmpty)).mapM parseRange

/-! ### Secrets -/

/-- Reads an issuer and its secret.  Blanks around the issuer are dropped, those
    of the secret are kept. -/
def parseIssuerSecret (entry : Text) : Except ConfigFault (Text × Text) :=
  match entry.cut? (.ofChar '=') with
  | none => .error (.issuerSecret entry)
  | some (issuer, secret) =>
    if issuer.strip.isEmpty || secret.isEmpty then .error (.issuerSecret entry)
    else .ok (issuer.strip, secret)

/-- Reads issuers and secrets; the last secret of an issuer counts, at the place
    of its first. -/
def parseIssuerSecrets (t : Text) : Except ConfigFault (OrderedMap Text Text) :=
  ((items t).mapM parseIssuerSecret).map (OrderedMap.setAll [])

def secretKey (secret : Text) : Except Failure Bytes :=
  match Utf8.encode? secret with
  | some key => .ok key
  | none => .error (.value .unencodable)

def registryOf (secrets : OrderedMap Text Text) : Except Failure Registry :=
  secrets.mapM fun (issuer, secret) => (secretKey secret).map (issuer, ·)

/-! ### Counts -/

def parseCount (name value : Text) : Except ConfigFault Int :=
  match NumberReader.integer? value with
  | none => .error (.count name value)
  | some n => if n < 1 then .error (.countBelowOne name) else .ok n

/-! ### The environment -/

def value? (env : Environment) (name : String) : Option Text :=
  env.get? (Text.of "FILEUPLOADER_" ++ Text.of name)

/-- The value of a variable that is set and not empty. -/
def nonempty? (env : Environment) (name : String) : Option Text :=
  (value? env name).filter (!·.isEmpty)

/-- A setting that a variable may replace. -/
def setting (env : Environment) (name : String) (default : α) (parse : Text → Except Failure α) :
    Except Failure α :=
  match nonempty? env name with
  | some value => parse value
  | none => .ok default

def reading (parse : Text → Except ConfigFault α) (t : Text) : Except Failure α :=
  (parse t).mapError Failure.config

def countSetting (env : Environment) (name : String) (default : Int) : Except Failure Int :=
  setting env name default (reading (parseCount (Text.of name)))

def ofEnvironment (env : Environment) : Except Failure Config := do
  let base : Config := {}
  let ranges ← setting env "TRUSTED_PROXY_RANGES" [] (reading fun t => parseTrustedRanges (items t))
  let size ← setting env "MAX_UPLOAD_SIZE" base.maximumUploadSize Size.parse
  let retained ← countSetting env "RETAINED_UPLOADS" base.retainedUploads
  let secrets ← setting env "JWT_SECRETS" [] (reading parseIssuerSecrets)
  let registry ← registryOf secrets
  let buffer ← countSetting env "TELEMETRY_BUFFER_SIZE" base.telemetryBufferSize
  .ok
    { base with
      basePath := (value? env "BASE_PATH").getD base.basePath
      corsOrigins := items ((value? env "CORS_ORIGINS").getD [])
      trustedRanges := ranges
      maximumUploadSize := size
      retainedUploads := retained
      databasePath := (value? env "DB_PATH").getD base.databasePath
      secrets := registry
      logLevel := ((nonempty? env "LOG_LEVEL").getD base.logLevel).upper
      telemetryBufferSize := buffer }

end Config

end UploadGate
