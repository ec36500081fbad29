/-
  UploadGate/Text/Latin1.lean
  ===========================
  **Latin-1: one octet for each of the first 256 code points.**

  Header values travel in this encoding, so a response whose header holds any
  other code point cannot be sent.
-/
import UploadGate.Text.Basic

namespace UploadGate.Latin1

/-- Whether a text has a Latin-1 form. -/
def isEncodable (t : Text) : Bool := t.all fun c => c.val < 0x100

end UploadGate.Latin1
