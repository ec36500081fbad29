/-
  UploadGate/Failure.lean
  =======================
  **Everything that can keep an operation from its result.**

  Beside the refusals of `UploadError` stand three kinds of failure that no
  client caused in an orderly way: a configuration that cannot be used, an event
  sent to a broadcaster that is closed, and values that have no place where they
  are to be used.
-/
import UploadGate.UploadError

namespace UploadGate

inductive ConfigFault where
  | size (value : Text)
  | trustedRange (value : Text)
  | issuerSecret (entry : Text)
  | count (name value : Text)
  | countBelowOne (name : Text)
deriving DecidableEq, Repr

def ConfigFault.message : ConfigFault → Text
  | .size value => Text.of "Invalid size " ++ value.quoted
  | .trustedRange value => Text.of "Invalid trusted proxy range " ++ value.quoted
  | .issuerSecret entry =>
    Text.of "Invalid issuer secret entry " ++ entry.quoted ++ Text.of ", expected issuer=secret"
  | .count name value => Text.of "Invalid " ++ name ++ Text.of " " ++ value.quoted
  | .countBelowOne name => name ++ Text.of " must be at least 1"

/-- What was asked of a closed broadcaster. -/
inductive ClosedUse where
  | publish
  | listen
deriving DecidableEq, Repr

def ClosedUse.message : ClosedUse → Text
  | .publish => Text.of "Cannot publish on a closed broadcaster"
  | .listen => Text.of "Broadcaster is closed"

/-- A value that cannot be used where it stands. -/
inductive ValueFault where
  /-- A number beyond the range of its representation. -/
  | outOfRange
  /-- A text with a surrogate that no octets stand for. -/
  | unencodable
  /-- Octets that are no text. -/
  | undecodable
  /-- An integer of a token with more digits than are read. -/
  | tooManyDigits
  /-- An object of a token that nests deeper than the stack reaches. -/
  | nestedTooDeep
  /-- A base path whose host part is not well formed. -/
  | malformedHost
  /-- A buffer that is to hold fewer than no entries. -/
  | negativeCapacity
  /-- A metric whose value is a text that is no number. -/
  | notNumeric
  /-- A label with the name of something else that is counted by. -/
  | reservedLabel
  /-- A text that is no timestamp. -/
  | malformedTime
  /-- Room that is to be made where nothing is left to remove. -/
  | nothingToEvict
  /-- A parameter of a class that is not known. -/
  | unknownClass
  /-- Two parameters of one name in a path. -/
  | repeatedName
  /-- An address behind a path whose parameters are not known. -/
  | unknownParameter
deriving DecidableEq, Repr

/-- Why an operation has no result. -/
inductive Failure where
  | upload (e : UploadError)
  | config (fault : ConfigFault)
  | closed (use : ClosedUse)
  | value (fault : ValueFault)
deriving DecidableEq, Repr

end UploadGate
