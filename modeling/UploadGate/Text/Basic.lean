/-
  UploadGate/Text/Basic.lean
  ==========================
  **Text as a list of code points, and the few operations every reader needs.**

  Headers, tokens and stored values may carry code points that are no
  characters: a lone surrogate written as an escape in a token, or the escape
  that stands for a byte outside UTF-8.  A `Text` is therefore a list of *code
  points*, all 0x110000 of them, and not a `String`.  Splitting keeps every
  piece, also the empty ones, so that `join sep (splitOn sep t) = t`.
-/

namespace UploadGate

/-! ### Code points and texts -/

/-- A code point, surrogates included. -/
abbrev CodePoint := Fin 0x110000

/-- A sequence of code points. -/
abbrev Text := List CodePoint

abbrev Bytes := List UInt8

theorem charCode_lt (c : Char) : c.toNat < 0x110000 := by
  have h := c.valid
  unfold UInt32.isValidChar Nat.isValidChar at h
  show c.val.toNat < 0x110000
  omega

def CodePoint.ofChar (c : Char) : CodePoint := ⟨c.toNat, charCode_lt c⟩

def CodePoint.isSurrogate (c : CodePoint) : Bool := 0xD800 ≤ c.val && c.val < 0xE000

def CodePoint.isAsciiDigit (c : CodePoint) : Bool := 0x30 ≤ c.val && c.val ≤ 0x39

def CodePoint.isAsciiLetter (c : CodePoint) : Bool :=
  (0x41 ≤ c.val && c.val ≤ 0x5A) || (0x61 ≤ c.val && c.val ≤ 0x7A)

/-- A capital of ASCII made small; any other code point stays. -/
def CodePoint.lowerAscii (c : CodePoint) : CodePoint :=
  if h : 0x41 ≤ c.val ∧ c.val ≤ 0x5A then ⟨c.val + 0x20, by omega⟩ else c

def Text.of (s : String) : Text := s.toList.map CodePoint.ofChar

def CodePoint.toChar? (c : CodePoint) : Option Char :=
  if h : c.val.isValidChar then some (Char.ofNatAux c.val h) else none

def Text.toString? (t : Text) : Option String := (t.mapM CodePoint.toChar?).map String.ofList

/-! ### Cutting and joining -/

/-- The pieces of a text between the occurrences of a separator: always one more
    than there are separators. -/
def Text.splitOn (sep : CodePoint) : Text → List Text
  | [] => [[]]
  | c :: rest =>
    match Text.splitOn sep rest with
    | [] => [[c]]
    | piece :: pieces => if c = sep then [] :: piece :: pieces else (c :: piece) :: pieces

def Text.join (sep : Text) : List Text → Text
  | [] => []
  | [piece] => piece
  | piece :: pieces => piece ++ sep ++ Text.join sep pieces

/-- There is always at least one piece. -/
theorem Text.splitOn_ne_nil (sep : CodePoint) (t : Text) : Text.splitOn sep t ≠ [] := by
  cases t with
  | nil => simp [Text.splitOn]
  | cons c rest =>
    rw [Text.splitOn]
    split
    · simp
    · split <;> simp

/-- **Cutting loses nothing**: the pieces joined by the separator are the text. -/
theorem Text.join_splitOn (sep : CodePoint) (t : Text) : Text.join [sep] (Text.splitOn sep t) = t := by
  induction t with
  | nil => rfl
  | cons c rest ih =>
    rw [Text.splitOn]
    split
    · rename_i h
      exact absurd h (Text.splitOn_ne_nil sep rest)
    · rename_i piece pieces h
      rw [h] at ih
      by_cases hc : c = sep
      · simp [hc, Text.join, ih]
      · rw [if_neg hc, ← ih]
        cases pieces <;> simp [Text.join]

/-- The text before and after the first occurrence of a code point. -/
def Text.cut? (sep : CodePoint) : Text → Option (Text × Text)
  | [] => none
  | c :: rest =>
    if c = sep then some ([], rest)
    else (Text.cut? sep rest).map fun p => (c :: p.1, p.2)

/-- The text before and after the last occurrence of a code point. -/
def Text.cutLast? (sep : CodePoint) : Text → Option (Text × Text)
  | [] => none
  | c :: rest =>
    match Text.cutLast? sep rest with
    | some (before, after) => some (c :: before, after)
    | none => if c = sep then some ([], rest) else none

def Text.dropFront? : Text → Text → Option Text
  | [], t => some t
  | _ :: _, [] => none
  | a :: front, c :: t => if a = c then Text.dropFront? front t else none

def Text.dropEnd? (ending t : Text) : Option Text :=
  (Text.dropFront? ending.reverse t.reverse).map List.reverse

def Text.dropRightWhile (p : CodePoint → Bool) (t : Text) : Text :=
  (t.reverse.dropWhile p).reverse

/-! ### Decimal and hexadecimal -/

/-- A natural number in decimal, without leading zeros. -/
def Text.ofNat (n : Nat) : Text := (Nat.toDigits 10 n).map CodePoint.ofChar

def Text.ofInt : Int → Text
  | .ofNat n => Text.ofNat n
  | .negSucc n => CodePoint.ofChar '-' :: Text.ofNat (n + 1)

def Text.ofHex (n : Nat) : Text := (Nat.toDigits 16 n).map CodePoint.ofChar

/-- A natural number in lowercase hexadecimal, filled with zeros to a width. -/
def Text.ofHexWidth (width n : Nat) : Text :=
  let digits := Text.ofHex n
  List.replicate (width - digits.length) (CodePoint.ofChar '0') ++ digits

/-- The number that ASCII digits write, if the text holds only such digits and at
    least one. -/
def Text.decimal? (t : Text) : Option Nat :=
  if t.isEmpty || !t.all CodePoint.isAsciiDigit then none
  else some (t.foldl (fun n c => n * 10 + (c.val - 0x30)) 0)

def CodePoint.hexValue? (c : CodePoint) : Option Nat :=
  if c.isAsciiDigit then some (c.val - 0x30)
  else if 0x61 ≤ c.val && c.val ≤ 0x66 then some (c.val - 0x61 + 10)
  else if 0x41 ≤ c.val && c.val ≤ 0x46 then some (c.val - 0x41 + 10)
  else none

end UploadGate
