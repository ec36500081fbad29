/-
  UploadGate/Proofs/Config/Size.lean
  ==================================
  **Which sizes a text may write, beyond those that can be used.**

  A size is computed as a floating point number of octets (`amount?`) before its
  fraction is dropped.  That number may be infinite, and then there is no
  integer; and it may be negative, which is left of it from minus one downwards.
-/
import Mathlib.Algebra.Order.Field.Basic
import Mathlib.Algebra.Order.Field.Power
import Mathlib.Data.Rat.Cast.Order
import Mathlib.Tactic.Linarith
import UploadGate.Config.Size

namespace UploadGate

namespace Binary64

/-- Something is left of a number without its fraction just when it is one or more. -/
theorem one_le_magnitude_iff (mantissa : Nat) (exponent : Int) :
    1 ≤ (if 0 ≤ exponent then mantissa * Nat.pow 2 exponent.toNat
        else mantissa / Nat.pow 2 (-exponent).toNat)
      ↔ (1 : Rat) ≤ mantissa * 2 ^ exponent := by
  by_cases h : 0 ≤ exponent
  · obtain ⟨k, rfl⟩ := Int.eq_ofNat_of_zero_le h
    rw [if_pos h, Int.toNat_natCast, zpow_natCast, Nat.pow_eq]
    exact_mod_cast Iff.rfl
  · obtain ⟨k, hk⟩ := Int.eq_ofNat_of_zero_le (a := -exponent) (by omega)
    obtain rfl : exponent = -(k : Int) := by omega
    have hpos : (0 : Rat) < 2 ^ k := by positivity
    rw [if_neg h, neg_neg, Int.toNat_natCast, Nat.pow_eq, Nat.one_le_div_iff (by positivity), zpow_neg,
      zpow_natCast, ← div_eq_mul_inv, one_le_div hpos]
    exact_mod_cast Iff.rfl

/-- What is left of a number without its fraction is negative just for the numbers up to
    minus one. -/
theorem truncate?_neg_iff {x : Binary64} {n : Int} (h : x.truncate? = some n) :
    n < 0 ↔ ∃ q, x.value? = some q ∧ q ≤ -1 := by
  cases x with
  | nan => cases h
  | infinite negative => cases h
  | finite negative mantissa exponent =>
    have hnonneg : (0 : Rat) ≤ mantissa * 2 ^ exponent := by positivity
    have hone := one_le_magnitude_iff mantissa exponent
    simp only [truncate?, Option.some.injEq] at h
    simp only [value?, signed, Option.some.injEq, exists_eq_left']
    cases negative with
    | false =>
      simp only [Bool.false_eq_true, if_false] at h ⊢
      apply iff_of_false
      · omega
      · intro hle
        linarith
    | true =>
      simp only [if_true] at h ⊢
      rw [neg_le_neg_iff, ← hone]
      omega

end Binary64

namespace Size

def amount? (t : Text) : Option Binary64 :=
  (NumberReader.binary64? (cutUnit t.strip.lower).1).map (·.scaleUp (cutUnit t.strip.lower).2)

def IsInfinite (t : Text) : Prop := ∃ negative, amount? t = some (.infinite negative)

/-- A text writes at most minus one octet. -/
def IsNegative (t : Text) : Prop := ∃ x q, amount? t = some x ∧ x.value? = some q ∧ q ≤ -1

theorem parse_eq (t : Text) :
    parse t = match amount? t with
      | none => .error (.config (.size t.strip.lower))
      | some .nan => .error (.config (.size t.strip.lower))
      | some (.infinite _) => .error (.value .outOfRange)
      | some y => .ok (y.truncate?.getD 0) := by
  unfold parse amount?
  cases hfigures : NumberReader.binary64? (cutUnit t.strip.lower).1 with
  | none => simp only [hfigures, Option.map_none]
  | some x =>
    simp only [hfigures, Option.map_some]
    cases x.scaleUp (cutUnit t.strip.lower).2 with
    | nan => rfl
    | infinite negative => rfl
    | finite negative mantissa exponent => rfl

/-- **A size is read, refused or infinite.**  A size that is read is negative just when the text
    writes at most minus one octet. -/
theorem parse_cases (t : Text) :
    (¬ IsInfinite t ∧ ∃ fault, parse t = .error (.config fault))
      ∨ (IsInfinite t ∧ parse t = .error (.value .outOfRange))
      ∨ (¬ IsInfinite t ∧ ∃ n, parse t = .ok n ∧ (n < 0 ↔ IsNegative t)) := by
  rw [parse_eq]
  unfold IsInfinite IsNegative
  cases amount? t with
  | none => exact Or.inl ⟨by simp, _, rfl⟩
  | some x =>
    cases x with
    | nan => exact Or.inl ⟨by simp, _, rfl⟩
    | infinite negative => exact Or.inr (Or.inl ⟨⟨negative, rfl⟩, rfl⟩)
    | finite negative mantissa exponent =>
      refine Or.inr (Or.inr ⟨by simp, _, rfl, ?_⟩)
      obtain ⟨n, hn⟩ : ∃ n, (Binary64.finite negative mantissa exponent).truncate? = some n := ⟨_, rfl⟩
      rw [hn, Option.getD_some, Binary64.truncate?_neg_iff hn]
      simp

end Size

end UploadGate
