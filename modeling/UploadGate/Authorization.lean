/-
  UploadGate/Authorization.lean
  =============================
  **The trust checks of an upload request, and the metadata that they vouch for.**

  A client may not name its own address, issuer or account.  The server adds the
  address that it resolved, and the issuer and account of a verified token, so
  whoever reads these entries later can rely on them.  Every request that is
  refused for a stated reason, and every one that is let through, is counted.
-/
import UploadGate.Metadata.Header
import UploadGate.ProxyTrust
import UploadGate.Telemetry
import UploadGate.Token.Verification

namespace UploadGate

structure UploadRequest where
  /-- The metadata header. -/
  metadata? : Option Text
  /-- The address of the peer, with its port. -/
  peer : Text
  /-- The forwarding header. -/
  forwarded? : Option Text
deriving DecidableEq, Repr

structure AuthorizedUpload where
  metadata : Metadata
  /-- The metadata as a header. -/
  header : Text
  remoteIp : Text
  issuer? : Option Text
  account? : Option Text
deriving DecidableEq, Repr

structure Decision where
  result : Except Failure AuthorizedUpload
  telemetry : Telemetry
  logs : List LogRecord
deriving Repr

namespace Authorization

/-! ### Metrics and records -/

/-- Refuses a request.  Only refusals for a stated reason are counted. -/
def refuse (t : Telemetry) (logs : List LogRecord) (failure : Failure) : Decision :=
  match failure with
  | .upload e => ⟨.error failure, t.increment "uploads.rejected" [(Text.of "reason", e.reason)], logs⟩
  | _ => ⟨.error failure, t, logs⟩

/-- The metrics after a token has been looked at. -/
def countDegraded (t : Telemetry) : Token.Verification → Telemetry
  | .degraded issuer => t.increment "uploads.claims_degraded" [(Text.of "issuer", issuer)]
  | _ => t

def degradedRecords (v : Token.Verification) : List LogRecord :=
  match v.warning? with
  | some warning => [⟨.warning, Text.of "Failed to process EXTJWT: " ++ warning⟩]
  | none => []

def identityRecords (v : Token.Verification) : List LogRecord :=
  match v.identity? with
  | some (issuer, account) =>
    [⟨.info, Text.of "Upload metadata updated with verified identity (account=" ++ account
      ++ Text.of ", issuer=" ++ issuer ++ Text.of ")"⟩]
  | none => []

/-! ### Metadata -/

/-- The first key of an identity that a client has set itself. -/
def claimedKey? (m : Metadata) : Option Text := [Metadata.accountKey, Metadata.issuerKey].find? fun k => m.has k

/-- The metadata of a client with what the server vouches for behind it. -/
def vouched (m : Metadata) (remoteIp : Text) (identity? : Option (Text × Text)) : Metadata :=
  m ++ (Metadata.remoteIpKey, remoteIp)
    :: identity?.elim [] fun (issuer, account) =>
      [(Metadata.issuerKey, issuer), (Metadata.accountKey, account)]

/-! ### The checks -/

/-- Writes the header of a request that passed all checks, and counts it. -/
def approve (t : Telemetry) (logs : List LogRecord) (m : Metadata) (remoteIp : Text)
    (identity? : Option (Text × Text)) : Decision :=
  let metadata := vouched m remoteIp identity?
  match Metadata.encode metadata with
  | .error failure => refuse t logs failure
  | .ok header =>
    let authenticated := if identity?.isSome then Text.of "true" else Text.of "false"
    ⟨.ok ⟨metadata, header, remoteIp, identity?.map Prod.fst, identity?.map Prod.snd⟩,
      t.increment "uploads.authorized" [(Text.of "authenticated", authenticated)], logs⟩

def checkToken (registry : Registry) (depth : Nat) (now : Number) (t : Telemetry) (logs : List LogRecord)
    (m : Metadata) (remoteIp : Text) : Decision :=
  match Token.verify registry depth now ((m.get? Metadata.tokenKey).getD []) with
  | .error failure => refuse t logs failure
  | .ok v =>
    approve (countDegraded t v) (logs ++ degradedRecords v ++ identityRecords v) m remoteIp v.identity?

def decide (config : Config) (depth : Nat) (now : Number) (t : Telemetry) (request : UploadRequest) : Decision :=
  match Metadata.decode request.metadata? with
  | .error fault => refuse t [] (.upload (.metadata fault))
  | .ok m =>
    if m.has Metadata.remoteIpKey then refuse t [] (.upload (.reservedField Metadata.remoteIpKey))
    else
      let resolution := ProxyTrust.resolve config.trustedRanges request.peer request.forwarded?
      match resolution.result with
      | .error error => refuse t resolution.logs (.upload error)
      | .ok remoteIp =>
        match claimedKey? m with
        | some key => refuse t resolution.logs (.upload (.reservedField key))
        | none => checkToken config.secrets depth now t resolution.logs m remoteIp

end Authorization

end UploadGate
