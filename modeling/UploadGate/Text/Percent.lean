/-
  UploadGate/Text/Percent.lean
  ============================
  **Percent-encoding of URLs.**

  Letters, digits and chosen marks stay as they are; every octet of the UTF-8 form
  of any other code point is written as two hexadecimal digits behind a percent
  sign.
-/
import UploadGate.Text.Utf8

namespace UploadGate

/-- The marks of URLs, the percent sign among them. -/
def urlMarks : Text := Text.of ":/%#?=@[]!$&'()*+,;_.-~"

def capitalHexDigit (n : Nat) : CodePoint :=
  if h : n < 10 then ⟨0x30 + n, by omega⟩ else ⟨0x41 + (n - 10) % 6, by omega⟩

def percentOctet (b : UInt8) : Text := [.ofChar '%', capitalHexDigit (b.toNat / 16), capitalHexDigit (b.toNat % 16)]

/-- A code point in percent-encoding, as it is if it is one of some marks. -/
def CodePoint.percentEncoded? (marks : Text) (c : CodePoint) : Option Text :=
  if c.isAsciiLetter || c.isAsciiDigit || marks.contains c then some [c]
  else (Utf8.octets? c).map fun octets => octets.flatMap percentOctet

/-- A text in percent-encoding except for some marks, if all of it has a UTF-8
    form. -/
def Text.percentEncoded? (marks t : Text) : Option Text :=
  (t.mapM (CodePoint.percentEncoded? marks)).map List.flatten

end UploadGate
