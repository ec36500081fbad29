/-
  UploadGate/Metadata/Header.lean
  ===============================
  **The metadata header: entries between commas, each a key and a Base64 value.**

  An entry is one word, the key, or two, the key and its value in padded Base64.
  Reading refuses an empty entry, a third word, a key that came before and a
  value that is no Base64; an absent header and one of blanks alone hold no
  entries.  Writing puts one space inside an entry and none around it.
-/
import UploadGate.Base64
import UploadGate.Metadata.Basic
import UploadGate.Text.Blank

namespace UploadGate.Metadata

/-! ### Reading -/

def comma : CodePoint := .ofChar ','

/-- Reads the entry at a position, behind the entries `before`. -/
def readEntry (before : Metadata) (position : Nat) (entry : Text) : Except MetadataFault (Text × Text) :=
  match entry.words with
  | [] => .error (.emptyEntry position)
  | _ :: _ :: _ :: _ => .error (.surplusFields position)
  | key :: fields =>
    if before.has key then .error (.duplicateKey key)
    else
      match fields with
      | [] => .ok (key, [])
      | value :: _ =>
        match Base64.decodePadded? value with
        | some bytes => .ok (key, valueOfBytes bytes)
        | none => .error (.undecodableValue key)

/-- Reads the entries from a position on, behind the entries `before`. -/
def readEntries (before : Metadata) (position : Nat) : List Text → Except MetadataFault Metadata
  | [] => .ok before
  | entry :: entries =>
    match readEntry before position entry with
    | .error fault => .error fault
    | .ok e => readEntries (before ++ [e]) (position + 1) entries

def decode (header? : Option Text) : Except MetadataFault Metadata :=
  match header? with
  | none => .ok []
  | some header => if header.isBlank then .ok [] else readEntries [] 0 (header.splitOn comma)

/-! ### Writing -/

def isWritableKey (key : Text) : Bool := !key.isEmpty && !key.contains comma && !key.any CodePoint.isBlank

def writeEntry (e : Text × Text) : Except Failure Text :=
  if !isWritableKey e.1 then .error (.upload (.metadata (.unwritableKey e.1)))
  else if e.2.isEmpty then .ok e.1
  else (valueToBytes e.2).map fun bytes => e.1 ++ .ofChar ' ' :: Base64.encode bytes

def encode (m : Metadata) : Except Failure Text :=
  (m.mapM writeEntry).map (Text.join [comma])

end UploadGate.Metadata
