/-
  UploadGate/ProxyTrust.lean
  ==========================
  **Which address an upload came from, behind reverse proxies.**

  The host of the peer counts, unless a forwarding header is present and the
  host is a trusted proxy.  Then the first address of the header counts: a
  trusted proxy that passes on the header it received vouches for the hops
  before it, so those are not checked.
-/
import UploadGate.Address.Network
import UploadGate.Log
import UploadGate.Peer
import UploadGate.Text.Blank

namespace UploadGate.ProxyTrust

/-- The address that a text denotes, a wrapped short address unwrapped. -/
def addressOf? (t : Text) : Option Address := (Address.parse? t).map Address.unwrapped

def isTrusted (ranges : List Network) (host : Text) : Bool :=
  match addressOf? host with
  | some address => ranges.any fun range => range.contains address
  | none => false

/-- The first address of a forwarding header, without the blanks around it. -/
def firstHop (forwarded : Text) : Text := ((forwarded.splitOn (.ofChar ',')).headD []).strip

structure Resolution where
  result : Except UploadError Text
  logs : List LogRecord := []
deriving Repr

def untrustedRecord (host forwarded : Text) : LogRecord :=
  ⟨.warning, Text.of "Untrusted remote attempted to override stored IP (remote_ip=" ++ host
    ++ Text.of ", x_forwarded_for=" ++ forwarded ++ Text.of ")"⟩

def unusableRecord (client host : Text) : LogRecord :=
  ⟨.error, Text.of "Couldn't use trusted X-Forwarded-For header (client=" ++ client
    ++ Text.of ", remote_ip=" ++ host ++ Text.of ")"⟩

def resolve (ranges : List Network) (peer : Text) (forwarded? : Option Text) : Resolution :=
  match HostPort.parse peer with
  | .error e =>
    ⟨.error e, [⟨.error, Text.of "Could not split address into host and port: " ++ e.message⟩]⟩
  | .ok hp =>
    match forwarded? with
    | none => ⟨.ok hp.host, []⟩
    | some [] => ⟨.ok hp.host, []⟩
    | some forwarded =>
      if !isTrusted ranges hp.host then ⟨.ok hp.host, [untrustedRecord hp.host forwarded]⟩
      else
        let client := firstHop forwarded
        match addressOf? client with
        | some address => ⟨.ok address.text, []⟩
        | none => ⟨.error (.forwardedAddress client), [unusableRecord client hp.host]⟩

end UploadGate.ProxyTrust
