/-
  UploadGate/Peer.lean
  ====================
  **Addresses of peers: a host and a port.**

  A peer is written `host:port`, and with brackets around the host when it holds
  a colon.  Reading cuts such a text into its two parts and refuses colons and
  brackets in any other place; it does not look at what the parts mean.
-/
import UploadGate.Failure

namespace UploadGate

structure HostPort where
  host : Text
  port : Text
deriving DecidableEq, Repr

namespace HostPort

def opening : CodePoint := .ofChar '['

def closing : CodePoint := .ofChar ']'

def colon : CodePoint := .ofChar ':'

def parseBracketed (inside : Text) : Except AddressFault HostPort :=
  match inside.cut? closing with
  | none => .error .missingClosingBracket
  | some (_, []) => .error .missingPort
  | some (host, c :: port) =>
    if c ≠ colon then .error .textAfterHost
    else if host.contains opening || port.contains closing || port.contains opening then
      .error .strayBracket
    else .ok ⟨host, port⟩

def parsePlain (address : Text) : Except AddressFault HostPort :=
  match address.cutLast? colon with
  | none => .error .missingPort
  | some (host, port) =>
    if host.contains colon then .error .surplusColon
    else if address.contains opening || address.contains closing then .error .strayBracket
    else .ok ⟨host, port⟩

def parse (address : Text) : Except UploadError HostPort :=
  let parsed :=
    match address with
    | c :: inside => if c = opening then parseBracketed inside else parsePlain address
    | [] => parsePlain []
  match parsed with
  | .ok hp => .ok hp
  | .error fault => .error (.address fault address)

def text (hp : HostPort) : Text :=
  if hp.host.contains colon then opening :: hp.host ++ closing :: colon :: hp.port
  else hp.host ++ colon :: hp.port

end HostPort

structure Client where
  host : Text
  port : Int
deriving DecidableEq, Repr

/-- The address of a client, or an empty text for an unknown one. -/
def Client.address : Option Client → Text
  | none => []
  | some client => (HostPort.mk client.host (Text.ofInt client.port)).text

end UploadGate
