/-
  UploadGate/Text/Quoted.lean
  ===========================
  **Texts quoted inside messages.**

  A quoted text stands between single quotes, or between double quotes when it
  holds a single quote and no double one.  The backslash, the quote in use, and
  every code point that is not printable are escaped, so a message never breaks
  a log line.
-/
import UploadGate.Text.Printable

namespace UploadGate

/-- The quote that a text is put between. -/
def Text.quoteMark (t : Text) : CodePoint :=
  if t.contains (.ofChar '\'') && !t.contains (.ofChar '"') then .ofChar '"' else .ofChar '\''

/-- A code point as it stands between quotes of a kind. -/
def CodePoint.escaped (mark c : CodePoint) : Text :=
  if c = mark || c = .ofChar '\\' then [.ofChar '\\', c]
  else if c.val = 0x09 then Text.of "\\t"
  else if c.val = 0x0A then Text.of "\\n"
  else if c.val = 0x0D then Text.of "\\r"
  else if c.isPrintable then [c]
  else if c.val < 0x100 then Text.of "\\x" ++ Text.ofHexWidth 2 c.val
  else if c.val < 0x10000 then Text.of "\\u" ++ Text.ofHexWidth 4 c.val
  else Text.of "\\U" ++ Text.ofHexWidth 8 c.val

def Text.quoted (t : Text) : Text :=
  let mark := t.quoteMark
  mark :: t.flatMap (CodePoint.escaped mark) ++ [mark]

end UploadGate
