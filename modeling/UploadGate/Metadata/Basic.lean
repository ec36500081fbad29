/-
  UploadGate/Metadata/Basic.lean
  ==============================
  **The metadata of an upload.**

  Metadata is an ordered map from keys to values.  A value stands for octets: it
  is the text that the escaping UTF-8 reading gives of them, so that octets
  outside UTF-8 survive as escapes.
-/
import UploadGate.Failure
import UploadGate.OrderedMap
import UploadGate.Text.Utf8

namespace UploadGate

/-- The metadata of an upload, in the order of its header. -/
abbrev Metadata := OrderedMap Text Text

namespace Metadata

/-! ### Keys with a meaning -/

/-- The key of the address that the upload came from. -/
def remoteIpKey : Text := Text.of "RemoteIP"

def issuerKey : Text := Text.of "issuer"

/-- The key of the account that uploads. -/
def accountKey : Text := Text.of "account"

def tokenKey : Text := Text.of "extjwt"

/-! ### Values as octets -/

def valueOfBytes (bytes : Bytes) : Text := Utf8.decodeEscaped bytes

def valueToBytes (value : Text) : Except Failure Bytes :=
  match Utf8.encodeEscaped? value with
  | some bytes => .ok bytes
  | none => .error (.value .unencodable)

end Metadata

end UploadGate
