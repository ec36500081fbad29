/-
  UploadGate/Proofs/Metadata/Values.lean
  ======================================
  **Values and octets correspond.**

  Any octets have a value, and the value has these octets and no others: what is no
  UTF-8 stands in it as escapes.  A value is the value of some octets just when none of
  its surrogates is anything but an escape and no escapes side by side are the octets
  of a character (`valueOfBytes_eq_iff`).  So the reading is determined by the writing,
  which is the UTF-8 of strings (`octets_ofChar`).
-/
import UploadGate.Proofs.Metadata.RoundTrip
import UploadGate.Proofs.Text.Surrogates

namespace UploadGate

/-! ### The octets of strings -/

namespace Utf8

theorem octets_ofChar (c : Char) : octets (.ofChar c) = String.utf8EncodeChar c := by
  have hval : (CodePoint.ofChar c).val = c.val.toNat := rfl
  have hlt : c.val.toNat < 0x110000 := charCode_lt c
  simp only [octets, hval, String.utf8EncodeChar]
  -- the ranges of the code point, one for each length of a sequence
  by_cases hone : c.val.toNat < 0x80
  · rw [if_pos hone, if_pos (by omega)]
  by_cases htwo : c.val.toNat < 0x800
  · rw [if_neg hone, if_pos htwo, if_neg (by omega), if_pos (by omega),
      Nat.mod_eq_of_lt (a := c.val.toNat / 64) (by omega)]
    simp only [Nat.add_comm]
  by_cases hthree : c.val.toNat < 0x10000
  · rw [if_neg hone, if_neg htwo, if_pos hthree, if_neg (by omega), if_neg (by omega), if_pos (by omega),
      Nat.mod_eq_of_lt (a := c.val.toNat / 4096) (by omega)]
    simp only [Nat.add_comm]
  · rw [if_neg hone, if_neg htwo, if_neg hthree, if_neg (by omega), if_neg (by omega), if_neg (by omega),
      Nat.mod_eq_of_lt (a := c.val.toNat / 262144) (by omega)]
    simp only [Nat.add_comm]

theorem flatMap_octets_of (s : String) : (Text.of s).flatMap octets = s.toUTF8.data.toList := by
  have hstring : s.toUTF8.data.toList = s.toList.flatMap String.utf8EncodeChar := by
    rw [String.toUTF8_eq_toByteArray, ← String.ofList_toList (s := s), String.toByteArray_ofList,
      String.ofList_toList, List.utf8Encode, List.toList_data_toByteArray]
  rw [hstring, Text.of, List.flatMap_map]
  exact congrArg (fun f => s.toList.flatMap f) (funext octets_ofChar)

end Utf8

namespace Metadata

variable {value : Text} {bytes : Bytes}

/-! ### Values that have octets -/

theorem valueToBytes_eq_ok_iff : valueToBytes value = .ok bytes ↔ Utf8.encodeEscaped? value = some bytes := by
  unfold valueToBytes
  cases Utf8.encodeEscaped? value <;> simp

theorem exists_valueToBytes_iff : (∃ bytes, valueToBytes value = .ok bytes) ↔ ¬ Utf8.HasNoOctets value := by
  rw [← Utf8.encodeEscaped?_eq_none_iff, ← ne_eq, Option.ne_none_iff_exists']
  simp only [valueToBytes_eq_ok_iff]

theorem not_hasNoOctets_valueOfBytes (bytes : Bytes) : ¬ Utf8.HasNoOctets (valueOfBytes bytes) :=
  exists_valueToBytes_iff.mp ⟨bytes, valueToBytes_valueOfBytes bytes⟩

theorem valueToBytes_of_not_isSurrogate (h : value.any CodePoint.isSurrogate = false) :
    valueToBytes value = .ok (value.flatMap Utf8.octets) :=
  valueToBytes_eq_ok_iff.mpr (Utf8.encodeEscaped?_of_not_isSurrogate h)

/-! ### Values of octets -/

/-- **The value of octets** is the one that has them and hides no character. -/
theorem valueOfBytes_eq_iff :
    valueOfBytes bytes = value ↔ valueToBytes value = .ok bytes ∧ ¬ Utf8.HidesCharacter value := by
  constructor
  · rintro rfl
    have hbytes := valueToBytes_valueOfBytes bytes
    exact ⟨hbytes, (Utf8.decodeEscaped_eq_self_iff (valueToBytes_eq_ok_iff.mp hbytes)).mp rfl⟩
  · rintro ⟨hbytes, hhides⟩
    exact (Utf8.decodeEscaped_eq_self_iff (valueToBytes_eq_ok_iff.mp hbytes)).mpr hhides

theorem map_valueOfBytes_eq_ok_iff :
    (valueToBytes value).map valueOfBytes = .ok value ↔ ∃ bytes, value = valueOfBytes bytes := by
  constructor
  · intro h
    obtain ⟨bytes, -, hvalue⟩ := map_eq_ok_iff.mp h
    exact ⟨bytes, hvalue.symm⟩
  · rintro ⟨bytes, rfl⟩
    rw [valueToBytes_valueOfBytes]
    rfl

/-- **Values and octets correspond**: octets are kept in their value, characters in their octets,
    and escapes in theirs just where they are the value of octets. -/
theorem values_correspond :
    (∀ bytes, valueToBytes (valueOfBytes bytes) = .ok bytes ∧ ¬ Utf8.HasNoOctets (valueOfBytes bytes))
      ∧ (∀ s : String, valueToBytes (Text.of s) = .ok s.toUTF8.data.toList)
      ∧ (∀ value : Text, value.any CodePoint.isSurrogate = false →
        (valueToBytes value).map valueOfBytes = .ok value)
      ∧ (∀ value, (∃ bytes, valueToBytes value = .ok bytes) ↔ ¬ Utf8.HasNoOctets value)
      ∧ (∀ value, (valueToBytes value).map valueOfBytes = .ok value ↔ ∃ bytes, value = valueOfBytes bytes)
      ∧ ∀ bytes value, valueOfBytes bytes = value ↔
        valueToBytes value = .ok bytes ∧ ¬ Utf8.HidesCharacter value := by
  refine ⟨?_, ?_, ?_, fun _ => exists_valueToBytes_iff, fun _ => map_valueOfBytes_eq_ok_iff,
    fun _ _ => valueOfBytes_eq_iff⟩
  · intro bytes
    exact ⟨valueToBytes_valueOfBytes bytes, not_hasNoOctets_valueOfBytes bytes⟩
  · intro s
    rw [valueToBytes_of_not_isSurrogate (Text.any_isSurrogate_of s), Utf8.flatMap_octets_of]
  · intro value h
    rw [valueToBytes_of_not_isSurrogate h]
    exact congrArg Except.ok (Utf8.decodeEscaped_flatMap_octets h)

/-- A sequence cut short by a letter, one that is too long, a surrogate, a number beyond the last
    code point, and a character before another sequence that is cut short. -/
def malformedBytes : Bytes :=
  [0xE2, 0x82, 0x41, 0xC0, 0x80, 0xED, 0xA0, 0x80, 0xF4, 0x90, 0x80, 0x80, 0xC3, 0xA9, 0xF0, 0x9F]

def malformedValue : Text :=
  List.map Utf8.escape [0xE2, 0x82] ++ .ofChar 'A' :: List.map Utf8.escape [0xC0, 0x80, 0xED, 0xA0, 0x80]
    ++ List.map Utf8.escape [0xF4, 0x90, 0x80, 0x80] ++ .ofChar 'é' :: List.map Utf8.escape [0xF0, 0x9F]

/-- What is malformed stands in escapes, and escapes of a character are read as the character. -/
theorem values_correspond_malformed :
    valueOfBytes malformedBytes = malformedValue ∧ valueToBytes malformedValue = .ok malformedBytes
      ∧ ¬ Utf8.HidesCharacter malformedValue
      ∧ (valueToBytes (List.map Utf8.escape [0xC3, 0xA9])).map valueOfBytes = .ok (Text.of "é")
      ∧ List.any (Text.of "é€") CodePoint.isSurrogate = false
      ∧ (valueToBytes (Text.of "é€")).map valueOfBytes = .ok (Text.of "é€") := by
  have hread : valueOfBytes malformedBytes = malformedValue := by decide
  have hclean : List.any (Text.of "é€") CodePoint.isSurrogate = false := by decide
  obtain ⟨-, -, hcharacters, -, -, hvalue⟩ := values_correspond
  obtain ⟨hbytes, hhides⟩ := (hvalue malformedBytes malformedValue).mp hread
  exact ⟨hread, hbytes, hhides, by decide, hclean, hcharacters _ hclean⟩

end Metadata

end UploadGate
