/-
  UploadGate/Text/Blank.lean
  ==========================
  **Blanks: the code points that separate words.**

  The class is the Unicode property White_Space together with the four
  information separators U+001C to U+001F, 29 code points in all.  Metadata
  entries, configuration lists and forwarded addresses are trimmed and cut at
  blanks of this class.
-/
import UploadGate.Text.Basic

namespace UploadGate

/-! ### The class -/

/-- A blank: White_Space of Unicode, or one of U+001C to U+001F. -/
def CodePoint.isBlank (c : CodePoint) : Bool :=
  let n := c.val
  (0x09 ≤ n && n ≤ 0x0D) || (0x1C ≤ n && n ≤ 0x20) || n == 0x85 || n == 0xA0 || n == 0x1680
    || (0x2000 ≤ n && n ≤ 0x200A) || n == 0x2028 || n == 0x2029 || n == 0x202F || n == 0x205F
    || n == 0x3000

/-! ### Trimming and cutting -/

def Text.strip (t : Text) : Text := Text.dropRightWhile CodePoint.isBlank (t.dropWhile CodePoint.isBlank)

def Text.isBlank (t : Text) : Bool := t.all CodePoint.isBlank

/-- The pieces of a text between its blanks, empty ones included. -/
def Text.blankPieces : Text → List Text
  | [] => [[]]
  | c :: rest =>
    match Text.blankPieces rest with
    | [] => [[c]]
    | piece :: pieces => if c.isBlank then [] :: piece :: pieces else (c :: piece) :: pieces

/-- The words of a text: its longest stretches without a blank. -/
def Text.words (t : Text) : List Text := (Text.blankPieces t).filter fun w => !w.isEmpty

end UploadGate
