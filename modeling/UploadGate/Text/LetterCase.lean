/-
  UploadGate/Text/LetterCase.lean
  ===============================
  **Small and capital forms of whole texts.**

  Both mappings are the full ones of Unicode: a letter may become several, as
  ß becomes SS, and a capital sigma becomes the final small sigma where it ends
  a word, that is where a cased letter stands before it and none behind it.
-/
import UploadGate.Text.Basic
import UploadGate.Text.LetterCase.Table

namespace UploadGate

/-! ### Single code points -/

def CodePoint.ofNat? (n : Nat) : Option CodePoint := if h : n < 0x110000 then some ⟨n, h⟩ else none

def CodePoint.moveBy (runs : List CaseRun) (c : CodePoint) : CodePoint :=
  match runs.find? fun r => r.holds c.val with
  | some r => (CodePoint.ofNat? (c.val + r.shift).toNat).getD c
  | none => c

def CodePoint.isIn (ranges : List (Nat × Nat)) (c : CodePoint) : Bool :=
  ranges.any fun range => range.1 ≤ c.val && c.val ≤ range.2

/-! ### Texts -/

/-- Whether the first code point that counts, reading away from a position, is a
    cased letter. -/
def Text.meetsCased (t : Text) : Bool :=
  match t.dropWhile (CodePoint.isIn caseIgnorableRanges) with
  | c :: _ => c.isIn casedRanges
  | [] => false

/-- The small form of a code point between `before`, read backwards, and `after`. -/
def CodePoint.lowerIn (before : Text) (c : CodePoint) (after : Text) : Text :=
  if c.val < 0x80 then [c.moveBy lowerRuns]
  else if c.val = 0x3A3 then
    if before.meetsCased && !after.meetsCased then [.ofChar 'ς'] else [.ofChar 'σ']
  else if c.val = 0x130 then [.ofChar 'i', .ofChar '\u0307']
  else [c.moveBy lowerRuns]

/-- The small form of a text behind `before`, read backwards. -/
def Text.lowerAfter (before : Text) : Text → Text
  | [] => []
  | c :: rest => c.lowerIn before rest ++ Text.lowerAfter (c :: before) rest

def Text.lower (t : Text) : Text := Text.lowerAfter [] t

def CodePoint.upper (c : CodePoint) : Text :=
  match upperExpansions.find? fun e => e.1 == c.val with
  | some e => e.2.filterMap CodePoint.ofNat?
  | none => [c.moveBy upperRuns]

def Text.upper (t : Text) : Text := t.flatMap CodePoint.upper

end UploadGate
