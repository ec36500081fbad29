/-
  UploadGate/Proofs/Text/LetterCase.lean
  ======================================
  **Small letters of texts in ASCII.**

  A text of ASCII and blanks is made small code point by code point
  (`Text.lower_eq_map`); digits and blanks stay as they are.
-/
import UploadGate.Text.Blank
import UploadGate.Text.LetterCase

namespace UploadGate

/-! ### Digits, letters and blanks -/

namespace CodePoint

variable {c : CodePoint}

theorem lt_of_isAsciiDigit (h : c.isAsciiDigit = true) : c.val < 0x80 := by
  simp only [isAsciiDigit, Bool.and_eq_true, decide_eq_true_eq] at h
  omega

theorem lt_of_isAsciiLetter (h : c.isAsciiLetter = true) : c.val < 0x80 := by
  simp only [isAsciiLetter, Bool.or_eq_true, Bool.and_eq_true, decide_eq_true_eq] at h
  omega

theorem isBlank_eq_false_of_isAsciiDigit (h : c.isAsciiDigit = true) : c.isBlank = false := by
  simp only [isAsciiDigit, Bool.and_eq_true, decide_eq_true_eq] at h
  rw [← Bool.not_eq_true]
  simp only [isBlank, Bool.or_eq_true, Bool.and_eq_true, decide_eq_true_eq, beq_iff_eq]
  omega

theorem isAsciiLetter_eq_false (h : c.isAsciiDigit = true ∨ c.isBlank = true) : c.isAsciiLetter = false := by
  rw [← Bool.not_eq_true]
  simp only [isAsciiDigit, isBlank, isAsciiLetter, Bool.or_eq_true, Bool.and_eq_true, decide_eq_true_eq,
    beq_iff_eq] at h ⊢
  omega

theorem lowerAscii_eq_self (h : c.isAsciiLetter = false) : c.lowerAscii = c := by
  rw [← Bool.not_eq_true] at h
  simp only [isAsciiLetter, Bool.or_eq_true, Bool.and_eq_true, decide_eq_true_eq] at h
  exact dif_neg fun hcapital => h (Or.inl hcapital)

theorem isAsciiLetter_of_lowerAscii (h : c.lowerAscii.isAsciiLetter = true) : c.isAsciiLetter = true := by
  cases hletter : c.isAsciiLetter with
  | true => rfl
  | false =>
    rw [lowerAscii_eq_self hletter, hletter] at h
    exact h

end CodePoint

/-! ### Small letters -/

def wideBlanks : List Nat :=
  [0x85, 0xA0, 0x1680] ++ List.range' 0x2000 11 ++ [0x2028, 0x2029, 0x202F, 0x205F, 0x3000]

theorem mem_wideBlanks {c : CodePoint} (h : c.isBlank = true) (hwide : 0x80 ≤ c.val) : c.val ∈ wideBlanks := by
  simp only [CodePoint.isBlank, Bool.or_eq_true, Bool.and_eq_true, decide_eq_true_eq, beq_iff_eq] at h
  simp only [wideBlanks, List.mem_append, List.mem_cons, List.not_mem_nil, List.mem_range'_1]
  omega

/-- In ASCII a code point is made small by itself, and blanks are small anywhere. -/
theorem CodePoint.lowerIn_eq {c : CodePoint} (h : c.val < 0x80 ∨ c.isBlank = true) (before after : Text) :
    c.lowerIn before after = [c.lowerAscii] := by
  by_cases hascii : c.val < 0x80
  · have hall : ∀ n : Fin 0x80, CodePoint.moveBy lowerRuns (n.castLE (by decide))
        = CodePoint.lowerAscii (n.castLE (by decide)) := by
      decide +kernel
    rw [lowerIn, if_pos hascii]
    exact congrArg (fun d => [d]) (hall ⟨c.val, hascii⟩)
  · have hblank : c.isBlank = true := h.resolve_left hascii
    have hall : ∀ n ∈ wideBlanks, lowerRuns.find? (fun r => r.holds n) = none ∧ n ≠ 0x3A3 ∧ n ≠ 0x130 := by
      decide +kernel
    obtain ⟨hnone, hsigma, hdotted⟩ := hall c.val (mem_wideBlanks hblank (Nat.le_of_not_lt hascii))
    rw [lowerIn, if_neg hascii, if_neg hsigma, if_neg hdotted, moveBy, hnone, lowerAscii, dif_neg (by omega)]

theorem Text.lower_eq_map {t : Text} (h : ∀ c ∈ t, c.val < 0x80 ∨ c.isBlank = true) :
    t.lower = t.map CodePoint.lowerAscii := by
  have hafter : ∀ before, Text.lowerAfter before t = t.map CodePoint.lowerAscii := by
    induction t with
    | nil => exact fun _ => rfl
    | cons c t ih =>
      rw [List.forall_mem_cons] at h
      intro before
      rw [Text.lowerAfter, CodePoint.lowerIn_eq h.1, ih h.2, List.map_cons, List.singleton_append]
  exact hafter []

end UploadGate
