/-
  UploadGate/Config/Basic.lean
  ============================
  **The settings of an upload server.**

  A configuration is built once and handed to every part.  Its fields have the
  values of a server for development; no field is checked here.
-/
import UploadGate.Address.Network
import UploadGate.OrderedMap

namespace UploadGate

/-- The keys of the issuers whose tokens are accepted. -/
abbrev Registry := OrderedMap Text Bytes

structure Config where
  /-- The path, or the URL, under which the server is reached. -/
  basePath : Text := Text.of "/files/"
  /-- The origins that a browser may send requests from. -/
  corsOrigins : List Text := []
  /-- The ranges of the reverse proxies whose forwarding header counts. -/
  trustedRanges : List Network := []
  maximumUploadSize : Int := 52428800
  /-- The number of complete uploads kept for download. -/
  retainedUploads : Int := 100
  databasePath : Text := Text.of ":memory:"
  secrets : Registry := []
  logLevel : Text := Text.of "INFO"
  /-- The most items in the queue of a subscriber; not positive for no limit. -/
  subscriberQueueSize : Int := 0
  /-- The number of the latest metrics, and of the latest events, that are kept. -/
  telemetryBufferSize : Int := 1000
deriving DecidableEq, Repr

end UploadGate
