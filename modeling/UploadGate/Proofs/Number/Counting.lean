/-
  UploadGate/Proofs/Number/Counting.lean
  ======================================
  **Counts are exact in floating point, up to 2^53.**

  A natural number up to 2^53 is a floating point number of the same value
  (`value?_whole`), and the sum of two of them is rounded once, as the natural number
  that it is (`add_whole`).  So whatever is counted in floating point is counted as it
  is with natural numbers.
-/
import UploadGate.Proofs.Number.Rounding

namespace UploadGate.Binary64

variable {m n : Nat}

/-- The floating point number that a natural number is read as. -/
def whole (n : Nat) : Binary64 := ofQuotient false n 1

theorem whole_zero : whole 0 = zero false := rfl

theorem exists_whole_eq (h : n ≤ 2 ^ 53) : ∃ m e, whole n = .finite false m e ∧ (m * 2 ^ e : Rat) = n := by
  rcases Nat.eq_zero_or_pos n with rfl | hpos
  · exact ⟨0, -1074, rfl, by rw [Nat.cast_zero, zero_mul]⟩
  · obtain ⟨m, e, hnormal, hvalue, hread⟩ := exists_ofQuotient_one (Nat.ne_of_gt hpos) false
    have hexact : rounded n = n := (isRounded_rounded n).eq_iff_isShort.mpr (isShort_of_le h)
    rw [hexact] at hvalue
    have hlarge : n < 2 ^ 1024 := h.trans_lt (pow_lt_pow_right₀ Nat.one_lt_two (by decide))
    have hexponent := hnormal.exponent_le hvalue hlarge
    exact ⟨m, e, hread.trans (if_neg (Int.not_lt.mpr hexponent)), hvalue⟩

theorem value?_whole (h : n ≤ 2 ^ 53) : (whole n).value? = some (n : Rat) := by
  obtain ⟨m, e, hwhole, hvalue⟩ := exists_whole_eq h
  rw [hwhole, value?, signed, if_neg Bool.false_ne_true, hvalue]

theorem ofInt?_natCast (h : n ≤ 2 ^ 53) : ofInt? n = some (whole n) := by
  obtain ⟨m, e, hwhole, -⟩ := exists_whole_eq h
  have hsign : decide ((n : Int) < 0) = false := decide_eq_false (Int.not_lt.mpr (Int.natCast_nonneg n))
  have hread : ofQuotient (decide ((n : Int) < 0)) (n : Int).natAbs 1 = whole n := by
    rw [hsign, Int.natAbs_natCast, whole]
  rw [ofInt?, hread, hwhole]

theorem ofRat_natCast (n : Nat) : ofRat false n = whole n := by
  by_cases h : n = 0
  · subst h
    rfl
  · have hne : (n : Rat) ≠ 0 := Nat.cast_ne_zero.mpr h
    have hsign : decide ((n : Rat).num < 0) = false := decide_eq_false (by simp)
    rw [ofRat, if_neg hne, hsign, Rat.num_natCast, Rat.den_natCast, Int.natAbs_natCast, whole]

/-- **A sum is rounded once**, as the natural number that it is. -/
theorem add_whole (hm : m ≤ 2 ^ 53) (hn : n ≤ 2 ^ 53) : (whole m).add (whole n) = whole (m + n) := by
  obtain ⟨a, e, hfirst, hvalue⟩ := exists_whole_eq hm
  obtain ⟨b, f, hsecond, hvalue'⟩ := exists_whole_eq hn
  rw [hfirst, hsecond, add, signed, signed, if_neg Bool.false_ne_true, if_neg Bool.false_ne_true, hvalue,
    hvalue', ← Nat.cast_add, Bool.and_self, ofRat_natCast]

end UploadGate.Binary64
