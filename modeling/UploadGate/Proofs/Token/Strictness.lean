/-
  UploadGate/Proofs/Token/Strictness.lean
  =======================================
  **The segments of a token are read strictly.**

  A text is read as a segment just when it is well formed, which its checks tell: what
  passes them is read without fail, even by a lenient reader, and what does not makes
  the header or the payload malformed and the signature invalid.
-/
import UploadGate.Proofs.Base64.Lenient
import UploadGate.Token.Verification

namespace UploadGate.Token

open Base64

variable {t : Text}

theorem readObject_of_decodeSegment?_eq_none (h : decodeSegment? t = none) (depth : Nat) (part : TokenPart) :
    readObject depth part t = .error (.upload (.token (.unreadable part))) := by
  have htext : segmentText? t = none := by rw [segmentText?, h, Option.bind_none]
  rw [readObject, htext]

theorem verifySigned_of_decodeSegment?_eq_none (h : decodeSegment? t = none) (header payload : Text)
    (f : HashFunction) (claims : Claims) (issuer : Text) (key : Bytes) (now : Number) :
    verifySigned ⟨header, payload, t⟩ f claims issuer key now = .error (.signature issuer) := by
  have hsigned : isSignedBy ⟨header, payload, t⟩ f key = false := by
    rw [isSignedBy, h]
    rfl
  rw [verifySigned, hsigned, Bool.not_false, if_pos rfl]

/-- **Segments are read strictly.**  A text reads as octets just when it is well formed and its data
    stands for them.  It is well formed just when it passes the checks, and then the lenient reader
    does not fail on it, padded; any other text is refused wherever a segment stands.  What is
    written is read, padded and bare. -/
theorem segment_read_strictly (t : Text) :
    (∀ bytes, decodeSegment? t = some bytes ↔ ∃ data, IsWellFormed t data ∧ urlSafe.Encodes data bytes)
      ∧ ((∃ data, IsWellFormed t data) ∧ PassesChecks t
          ∧ (∃ bytes, decodeLenient? (t ++ completion t) = some bytes ∧ decodeSegment? t = some bytes)
        ∨ (¬ ∃ data, IsWellFormed t data) ∧ ¬ PassesChecks t
          ∧ (∀ depth part, readObject depth part t = .error (.upload (.token (.unreadable part))))
          ∧ ∀ header payload f claims issuer key now,
            verifySigned ⟨header, payload, t⟩ f claims issuer key now = .error (.signature issuer))
      ∧ (∀ bytes, ∃ data, encodeWith urlSafe bytes = data ++ completion data ∧ decodeSegment? data = some bytes
        ∧ decodeSegment? (data ++ completion data) = some bytes)
      ∧ ∀ c v, urlSafe.value? c = some v ↔ urlTable[v.toNat]? = some c := by
  refine ⟨fun _ => decodeSegment?_eq_some_iff_isWellFormed, ?_, exists_decodeSegment?_encodeWith,
    fun _ _ => value?_urlSafe_eq_some_iff⟩
  rw [← passesChecks_iff]
  rcases decodeSegment?_cases t with ⟨hchecks, hread⟩ | ⟨hchecks, hnone⟩
  · exact Or.inl ⟨hchecks, hchecks, hread⟩
  · right
    refine ⟨hchecks, hchecks, readObject_of_decodeSegment?_eq_none hnone, ?_⟩
    exact verifySigned_of_decodeSegment?_eq_none hnone

end UploadGate.Token
