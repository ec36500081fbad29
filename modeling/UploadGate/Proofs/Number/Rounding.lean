/-
  UploadGate/Proofs/Number/Rounding.lean
  ======================================
  **A natural number is rounded once, to the nearest of 53 bits.**

  The numbers of 53 bits are spaced evenly from one power of two to the next
  (`spacing_dvd_or_lt`), and rounding picks the nearest multiple of the spacing
  (`isRounded_rounded`).  What is picked is a floating point number as it is, and
  so is its product with a power of two (`ofQuotient_scaled`), unless the exponent
  runs out.
-/
import Mathlib.Algebra.Order.Field.Basic
import Mathlib.Data.Nat.Dist
import Mathlib.Data.Nat.Prime.Basic
import Mathlib.Data.Rat.Cast.Order
import Mathlib.Tactic.Ring
import UploadGate.Number.Binary64

namespace UploadGate.Binary64

variable {n r s : Nat}

/-! ### The nearest number -/

/-- A natural number of at most 53 bits, with zeros behind them or none. -/
def IsShort (n : Nat) : Prop := ∃ m k, m < 2 ^ 53 ∧ n = m * 2 ^ k

/-- The short number that is nearest to a natural number; of two that are equally near, the one
    with more zeros behind its bits. -/
structure IsRounded (n r : Nat) : Prop where
  short : IsShort r
  nearest : ∀ s, IsShort s → Nat.dist n r ≤ Nat.dist n s
  even : ∀ s, IsShort s → s ≠ r → Nat.dist n s = Nat.dist n r → ∀ k, 2 ^ k ∣ s → 2 ^ (k + 1) ∣ r

theorem isShort_of_le (h : n ≤ 2 ^ 53) : IsShort n := by
  rcases Nat.lt_or_eq_of_le h with hlt | rfl
  · exact ⟨n, 0, hlt, (Nat.mul_one n).symm⟩
  · exact ⟨1, 53, by decide, (Nat.one_mul _).symm⟩

/-- A number has no more than one nearest. -/
theorem IsRounded.unique {r' : Nat} (h : IsRounded n r) (h' : IsRounded n r') : r = r' := by
  by_contra hne
  have hdist : Nat.dist n r = Nat.dist n r' := Nat.le_antisymm (h.nearest r' h'.short) (h'.nearest r h.short)
  -- Each of two would have more zeros than the other.
  have hzeros : ∀ k, 2 ^ k ∣ r ∧ 2 ^ k ∣ r' := by
    intro k
    induction k with
    | zero => exact ⟨Nat.one_dvd r, Nat.one_dvd r'⟩
    | succ k ih => exact ⟨h.even r' h'.short (Ne.symm hne) hdist.symm k ih.2, h'.even r h.short hne hdist k ih.1⟩
  have hzero : r = 0 := Nat.eq_zero_of_dvd_of_lt (hzeros r).1 Nat.lt_two_pow_self
  have hzero' : r' = 0 := Nat.eq_zero_of_dvd_of_lt (hzeros r').2 Nat.lt_two_pow_self
  exact hne (hzero.trans hzero'.symm)

theorem IsRounded.eq_iff_isShort (h : IsRounded n r) : r = n ↔ IsShort n := by
  constructor
  · rintro rfl
    exact h.short
  · intro hshort
    have hnear := h.nearest n hshort
    rw [Nat.dist_self, Nat.le_zero] at hnear
    exact (Nat.eq_of_dist_eq_zero hnear).symm

/-- Rounding does not pass a short number. -/
theorem IsRounded.lt (h : IsRounded n r) (hs : IsShort s) (hlt : r < s) : n < s := by
  have hnear := h.nearest s hs
  simp only [Nat.dist] at hnear
  omega

/-! ### The nearest multiple -/

section Multiples

variable {num den c : Nat}

theorem two_mul_dist_nearestEven_le (num : Nat) (hden : 0 < den) :
    2 * Nat.dist num (nearestEven num den * den) ≤ den
      ∧ (2 * Nat.dist num (nearestEven num den * den) = den → nearestEven num den % 2 = 0) := by
  have hnum := Nat.div_add_mod' num den
  have hmod := Nat.mod_lt num hden
  have hup : (num / den + 1) * den = num / den * den + den := Nat.succ_mul _ _
  unfold nearestEven
  simp only [Nat.dist]
  split
  · omega
  · split
    · rw [hup]
      omega
    · rcases Nat.mod_two_eq_zero_or_one (num / den) with heven | hodd
      · rw [heven, Nat.add_zero]
        omega
      · rw [hodd, hup]
        omega

theorem nearestEven_mul (m : Nat) (hden : 0 < den) : nearestEven (m * den) den = m := by
  unfold nearestEven
  rw [Nat.mul_mod_left, Nat.mul_div_cancel _ hden, Nat.mul_zero]
  exact if_pos hden

theorem div_le_nearestEven (num den : Nat) : num / den ≤ nearestEven num den := by
  unfold nearestEven
  simp only
  split
  · exact Nat.le_refl _
  · split
    · exact Nat.le_succ _
    · exact Nat.le_add_right _ _

/-- Different multiples are a whole spacing apart. -/
theorem le_dist_mul {a b : Nat} (hne : a ≠ b) (den : Nat) : den ≤ Nat.dist (a * den) (b * den) := by
  rw [Nat.dist_mul_right]
  apply Nat.le_mul_of_pos_left
  exact Nat.dist_pos_of_ne hne

/-- No multiple is nearer, and one that is as near is odd and on the other side of a tie. -/
theorem dist_nearestEven_le (num c : Nat) (hden : 0 < den) :
    Nat.dist num (nearestEven num den * den) ≤ Nat.dist num (c * den)
      ∧ (c ≠ nearestEven num den → Nat.dist num (c * den) = Nat.dist num (nearestEven num den * den) →
        nearestEven num den % 2 = 0 ∧ c % 2 = 1) := by
  obtain ⟨hnear, heven⟩ := two_mul_dist_nearestEven_le num hden
  generalize nearestEven num den = q at hnear heven ⊢
  rcases eq_or_ne c q with rfl | hne
  · exact ⟨Nat.le_refl _, fun h => absurd rfl h⟩
  · have happart := le_dist_mul hne den
    have htriangle := Nat.dist.triangle_inequality (c * den) num (q * den)
    rw [Nat.dist_comm (c * den) num] at htriangle
    refine ⟨by omega, fun _ htie => ?_⟩
    have hq := heven (by omega)
    -- The two are neighbours, so they are not both even.
    have hone : Nat.dist c q = 1 := by
      have hpos := Nat.dist_pos_of_ne hne
      have hle : Nat.dist c q * den ≤ 1 * den := by
        rw [← Nat.dist_mul_right]
        omega
      have hle := Nat.le_of_mul_le_mul_right hle hden
      omega
    simp only [Nat.dist] at hone
    exact ⟨hq, by omega⟩

end Multiples

/-! ### Rounding to 53 bits -/

/-- The distance between the numbers of 53 bits around a natural number. -/
def spacing (n : Nat) : Nat := 2 ^ (Nat.log2 n - 52)

def rounded (n : Nat) : Nat := nearestEven n (spacing n) * spacing n

theorem spacing_pos (n : Nat) : 0 < spacing n := Nat.two_pow_pos _

theorem lt_mul_spacing (n : Nat) : n < 2 ^ 53 * spacing n := by
  have hlt : n < 2 ^ (n.log2 + 1) := Nat.lt_log2_self
  have hle : 2 ^ (n.log2 + 1) ≤ 2 ^ (53 + (n.log2 - 52)) := Nat.pow_le_pow_right (by decide) (by omega)
  exact Nat.lt_of_lt_of_le hlt (hle.trans_eq (Nat.pow_add 2 53 _))

/-- A short number lies on the grid of a natural number, or below its highest bit, which does. -/
theorem spacing_dvd_or_lt (n : Nat) (hs : IsShort s) :
    spacing n ∣ s ∨ s < 2 ^ n.log2 ∧ 2 ^ n.log2 ≤ n ∧ spacing n ∣ 2 ^ n.log2 := by
  obtain ⟨m, k, hm, rfl⟩ := hs
  rcases Nat.lt_or_ge k (n.log2 - 52) with hk | hk
  · right
    have hne : n ≠ 0 := by
      rintro rfl
      rw [Nat.log2_zero] at hk
      omega
    refine ⟨?_, Nat.log2_self_le hne, Nat.pow_dvd_pow 2 (Nat.sub_le _ _)⟩
    calc m * 2 ^ k < 2 ^ 53 * 2 ^ k := Nat.mul_lt_mul_of_pos_right hm (Nat.two_pow_pos k)
      _ = 2 ^ (53 + k) := (Nat.pow_add 2 53 k).symm
      _ ≤ 2 ^ n.log2 := Nat.pow_le_pow_right (by decide) (by omega)
  · left
    exact Nat.dvd_mul_left_of_dvd (Nat.pow_dvd_pow 2 hk) m

theorem nearestEven_spacing_le (n : Nat) : nearestEven n (spacing n) ≤ 2 ^ 53 := by
  have hnear := (two_mul_dist_nearestEven_le n (spacing_pos n)).1
  have hlt := lt_mul_spacing n
  have hpos := spacing_pos n
  by_contra hgt
  have hbeyond : (2 ^ 53 + 1) * spacing n ≤ nearestEven n (spacing n) * spacing n :=
    Nat.mul_le_mul_right _ (Nat.lt_of_not_le hgt)
  rw [Nat.succ_mul] at hbeyond
  simp only [Nat.dist] at hnear
  omega

theorem isShort_rounded (n : Nat) : IsShort (rounded n) := by
  rcases Nat.lt_or_eq_of_le (nearestEven_spacing_le n) with hlt | heq
  · exact ⟨nearestEven n (spacing n), n.log2 - 52, hlt, rfl⟩
  · refine ⟨1, 53 + (n.log2 - 52), by decide, ?_⟩
    rw [rounded, heq, Nat.one_mul, Nat.pow_add]
    rfl

/-- **Rounding picks the nearest short number.** -/
theorem isRounded_rounded (n : Nat) : IsRounded n (rounded n) := by
  have hpos := spacing_pos n
  have hbelow : ∀ s, s < 2 ^ n.log2 → 2 ^ n.log2 ≤ n → spacing n ∣ 2 ^ n.log2 →
      Nat.dist n (rounded n) < Nat.dist n s := by
    intro s hlt hle hdvd
    obtain ⟨c, hc⟩ := hdvd
    have hnear := (dist_nearestEven_le n c hpos).1
    rw [Nat.mul_comm c, ← hc, ← rounded] at hnear
    simp only [Nat.dist] at hnear ⊢
    omega
  refine ⟨isShort_rounded n, ?_, ?_⟩
  · intro s hs
    rcases spacing_dvd_or_lt n hs with ⟨c, rfl⟩ | ⟨hlt, hle, hdvd⟩
    · rw [Nat.mul_comm]
      exact (dist_nearestEven_le n c hpos).1
    · exact Nat.le_of_lt (hbelow s hlt hle hdvd)
  · intro s hs hne htie k hk
    rcases spacing_dvd_or_lt n hs with ⟨c, rfl⟩ | ⟨hlt, hle, hdvd⟩
    · rw [Nat.mul_comm (spacing n) c] at hne htie hk
      have hother : c ≠ nearestEven n (spacing n) := by
        rintro rfl
        exact hne rfl
      obtain ⟨heven, hodd⟩ := (dist_nearestEven_le n c hpos).2 hother htie
      -- An odd multiple of the spacing has no more zeros than the spacing.
      have hcoprime : Nat.Coprime (2 ^ k) c := Nat.Coprime.pow_left k (Nat.coprime_two_left.mpr (Nat.odd_iff.mpr hodd))
      have hle : 2 ^ k ∣ spacing n := hcoprime.dvd_of_dvd_mul_left hk
      rw [Nat.pow_succ, Nat.mul_comm]
      exact Nat.mul_dvd_mul (Nat.dvd_of_mod_eq_zero heven) hle
    · exact absurd htie (Nat.ne_of_gt (hbelow s hlt hle hdvd))

theorem isRounded_iff : IsRounded n r ↔ r = rounded n := by
  constructor
  · intro h
    exact h.unique (isRounded_rounded n)
  · rintro rfl
    exact isRounded_rounded n

/-! ### The floating point numbers that are picked -/

/-- A mantissa of 53 bits and an exponent that is not too small. -/
structure IsNormal (m : Nat) (e : Int) : Prop where
  le : 2 ^ 52 ≤ m
  lt : m < 2 ^ 53
  least : -1074 ≤ e

theorem log2_mul_two_pow {m : Nat} (hm : m ≠ 0) (k : Nat) : (m * 2 ^ k).log2 = m.log2 + k := by
  rw [Nat.log2_eq_iff (Nat.mul_ne_zero hm (Nat.two_pow_pos k).ne')]
  rw [Nat.pow_add, Nat.add_right_comm, Nat.pow_add]
  constructor
  · exact Nat.mul_le_mul_right _ (Nat.log2_self_le hm)
  · exact Nat.mul_lt_mul_of_pos_right Nat.lt_log2_self (Nat.two_pow_pos k)

theorem IsNormal.log2_eq {m : Nat} {e : Int} (h : IsNormal m e) : m.log2 = 52 := by
  rw [Nat.log2_eq_iff (by have := h.le; omega)]
  exact ⟨h.le, h.lt⟩

/-- Over a power of two the highest bits decide about the exponent. -/
theorem exponentOf_two_pow (hn : n ≠ 0) (b : Nat) :
    exponentOf n (2 ^ b) = max ((n.log2 : Int) - b - 52) (-1074) := by
  have hlow := Nat.log2_self_le hn
  unfold exponentOf scaled
  simp only [Nat.log2_two_pow, Nat.pow_eq]
  by_cases hguess : (0 : Int) ≤ (n.log2 : Int) - b - 53
  · obtain ⟨g, hg⟩ := Int.eq_ofNat_of_zero_le hguess
    have hbits : 2 ^ 53 * (2 ^ b * 2 ^ g) = 2 ^ n.log2 := by
      rw [← Nat.pow_add, ← Nat.pow_add]
      congr 1
      omega
    simp only [hg, if_pos (Int.natCast_nonneg g), Int.toNat_natCast, hbits, if_pos hlow]
    omega
  · obtain ⟨g, hg⟩ := Int.eq_ofNat_of_zero_le (a := -((n.log2 : Int) - b - 53)) (by omega)
    have hbits : 2 ^ 53 * 2 ^ b ≤ n * 2 ^ g := by
      calc 2 ^ 53 * 2 ^ b = 2 ^ n.log2 * 2 ^ g := by
            rw [← Nat.pow_add, ← Nat.pow_add]
            congr 1
            omega
        _ ≤ n * 2 ^ g := Nat.mul_le_mul_right _ hlow
    simp only [if_neg hguess, hg, Int.toNat_natCast, if_pos hbits]
    omega

theorem scaled_neg (m : Nat) (e : Int) : scaled m 1 (-e) = (m * 2 ^ e.toNat, 2 ^ (-e).toNat) := by
  unfold scaled
  simp only [Nat.pow_eq, neg_neg, Nat.one_mul]
  by_cases h : 0 ≤ -e
  · have hzero : e.toNat = 0 := by omega
    rw [if_pos h, hzero, Nat.pow_zero, Nat.mul_one]
  · have hzero : (-e).toNat = 0 := by omega
    rw [if_neg h, hzero, Nat.pow_zero]

/-- **A number of 53 bits is its own nearest**, whatever power of two it is multiplied with, up
    to where the exponent runs out. -/
theorem ofQuotient_scaled {m : Nat} {e : Int} (h : IsNormal m e) (negative : Bool) :
    ofQuotient negative (scaled m 1 (-e)).1 (scaled m 1 (-e)).2
      = if 971 < e then .infinite negative else .finite negative m e := by
  have hm : m ≠ 0 := by
    have := h.le
    omega
  have hnum : m * 2 ^ e.toNat ≠ 0 := Nat.mul_ne_zero hm (Nat.two_pow_pos _).ne'
  have hexponent : exponentOf (m * 2 ^ e.toNat) (2 ^ (-e).toNat) = e := by
    have hleast := h.least
    rw [exponentOf_two_pow hnum, log2_mul_two_pow hm, h.log2_eq]
    omega
  have hmantissa : nearestEven (scaled (m * 2 ^ e.toNat) (2 ^ (-e).toNat) e).1
      (scaled (m * 2 ^ e.toNat) (2 ^ (-e).toNat) e).2 = m := by
    unfold scaled
    by_cases he : 0 ≤ e
    · have hzero : (-e).toNat = 0 := by omega
      simp only [if_pos he, hzero, Nat.pow_zero, Nat.one_mul, Nat.pow_eq]
      exact nearestEven_mul m (Nat.two_pow_pos _)
    · have hzero : e.toNat = 0 := by omega
      simp only [if_neg he, hzero, Nat.pow_zero, Nat.mul_one, Nat.pow_eq]
      exact nearestEven_mul m (Nat.two_pow_pos _)
  have hnot : m ≠ Nat.pow 2 53 := Nat.ne_of_lt h.lt
  unfold ofQuotient
  rw [scaled_neg, if_neg hnum]
  simp only [hexponent, hmantissa, if_neg hnot]

/-- A number of fewer than 53 bits gets a mantissa of 53 by zeros behind them. -/
theorem mantissa_of_lt (hn : n ≠ 0) {j : Nat} (hj : n.log2 + j = 52) :
    2 ^ 52 ≤ n * 2 ^ j ∧ n * 2 ^ j < 2 ^ 53 ∧ rounded n = n := by
  have hbits : (n * 2 ^ j).log2 = 52 := by
    rw [log2_mul_two_pow hn, hj]
  have hne : n * 2 ^ j ≠ 0 := Nat.mul_ne_zero hn (Nat.two_pow_pos j).ne'
  obtain ⟨hle, hlt⟩ := (Nat.log2_eq_iff hne).mp hbits
  have hsmall : n < 2 ^ 53 := Nat.lt_of_le_of_lt (Nat.le_mul_of_pos_right n (Nat.two_pow_pos j)) hlt
  have hshort : IsShort n := isShort_of_le (Nat.le_of_lt hsmall)
  exact ⟨hle, hlt, (isRounded_rounded n).eq_iff_isShort.mpr hshort⟩

/-- The mantissa that is picked for a natural number has 53 bits, or is the next power of two. -/
theorem exists_mantissa (hn : n ≠ 0) :
    ∃ m, nearestEven (scaled n 1 ((n.log2 : Int) - 52)).1 (scaled n 1 ((n.log2 : Int) - 52)).2 = m
      ∧ 2 ^ 52 ≤ m ∧ m ≤ 2 ^ 53 ∧ (m * 2 ^ ((n.log2 : Int) - 52) : Rat) = rounded n := by
  rcases Nat.lt_or_ge n.log2 52 with hfew | hmany
  · obtain ⟨j, hj⟩ := Nat.exists_eq_add_of_le (Nat.le_of_lt hfew)
    obtain ⟨hle, hlt, hrounded⟩ := mantissa_of_lt hn hj.symm
    have hexponent : (n.log2 : Int) - 52 = -(j : Int) := by omega
    have hzero : (-(j : Int)).toNat = 0 := by omega
    have hself := nearestEven_mul (n * 2 ^ j) Nat.one_pos
    rw [Nat.mul_one] at hself
    rw [hexponent, scaled_neg, Int.toNat_natCast, hzero, Nat.pow_zero]
    refine ⟨n * 2 ^ j, hself, hle, Nat.le_of_lt hlt, ?_⟩
    rw [hrounded, zpow_neg, zpow_natCast, Nat.cast_mul, Nat.cast_pow, Nat.cast_ofNat,
      mul_inv_cancel_right₀ (pow_ne_zero j two_ne_zero)]
  · obtain ⟨k, hk⟩ := Nat.exists_eq_add_of_le hmany
    have hexponent : (n.log2 : Int) - 52 = -(-(k : Int)) := by omega
    have hzero : (-(k : Int)).toNat = 0 := by omega
    have hspacing : spacing n = 2 ^ k := by
      rw [spacing, hk, Nat.add_sub_cancel_left]
    rw [hexponent, scaled_neg, neg_neg, Int.toNat_natCast, hzero, Nat.pow_zero, Nat.mul_one, ← hspacing]
    refine ⟨_, rfl, ?_, nearestEven_spacing_le n, ?_⟩
    · apply Nat.le_trans _ (div_le_nearestEven n (spacing n))
      rw [Nat.le_div_iff_mul_le (spacing_pos n), hspacing, ← Nat.pow_add, ← hk]
      exact Nat.log2_self_le hn
    · rw [zpow_natCast, rounded, hspacing, Nat.cast_mul, Nat.cast_pow, Nat.cast_ofNat]

/-- **A natural number is read as its nearest**, up to where the exponent runs out. -/
theorem exists_ofQuotient_one (hn : n ≠ 0) (negative : Bool) :
    ∃ m e, IsNormal m e ∧ (m * 2 ^ e : Rat) = rounded n
      ∧ ofQuotient negative n 1 = if 971 < e then .infinite negative else .finite negative m e := by
  have hexponent : exponentOf n 1 = (n.log2 : Int) - 52 := by
    have h := exponentOf_two_pow hn 0
    rw [Nat.pow_zero] at h
    omega
  obtain ⟨m, hpicked, hle, hge, hvalue⟩ := exists_mantissa hn
  by_cases hfull : m = 2 ^ 53
  · refine ⟨2 ^ 52, (n.log2 : Int) - 52 + 1, ⟨by decide, by decide, by omega⟩, ?_, ?_⟩
    · rw [← hvalue, hfull, zpow_add_one₀ two_ne_zero]
      push_cast
      ring
    · unfold ofQuotient
      simp only [if_neg hn, hexponent, hpicked, Nat.pow_eq, if_pos hfull]
  · refine ⟨m, (n.log2 : Int) - 52, ⟨hle, by omega, by omega⟩, hvalue, ?_⟩
    unfold ofQuotient
    simp only [if_neg hn, hexponent, hpicked, Nat.pow_eq, if_neg hfull]

/-! ### Products with powers of two -/

theorem IsNormal.add {m : Nat} {e : Int} (h : IsNormal m e) (power : Nat) : IsNormal m (e + power) :=
  ⟨h.le, h.lt, h.least.trans (Int.le_add_of_nonneg_right (Int.natCast_nonneg power))⟩

theorem scaleUp_finite {m : Nat} {e : Int} (h : IsNormal m e) (negative : Bool) (power : Nat) :
    (finite negative m e).scaleUp power
      = if 971 < e + power then .infinite negative else .finite negative m (e + power) :=
  ofQuotient_scaled (h.add power) negative

theorem scaleUp_zero (negative : Bool) (power : Nat) : (zero negative).scaleUp power = zero negative := by
  have hnum : (scaled 0 1 (-(-1074 + power))).1 = 0 := by
    rw [scaled_neg, Nat.zero_mul]
  unfold zero scaleUp ofQuotient
  simp only [hnum, if_true, zero]

/-- The exponent does not run out below 2^1024. -/
theorem IsNormal.exponent_le {m : Nat} {e : Int} (h : IsNormal m e) (hvalue : (m * 2 ^ e : Rat) = n)
    (hn : n < 2 ^ 1024) : e ≤ 971 := by
  by_cases he : 0 ≤ e
  · obtain ⟨k, rfl⟩ := Int.eq_ofNat_of_zero_le he
    rw [zpow_natCast] at hvalue
    have hnat : m * 2 ^ k = n := by exact_mod_cast hvalue
    have hpow : 2 ^ (52 + k) ≤ n := by
      rw [← hnat, Nat.pow_add]
      exact Nat.mul_le_mul_right _ h.le
    have hbits := (Nat.pow_lt_pow_iff_right (by decide)).mp (Nat.lt_of_le_of_lt hpow hn)
    omega
  · omega

/-- A natural number has no fraction to drop. -/
theorem truncate?_finite {m : Nat} {e : Int} (h : (m * 2 ^ e : Rat) = n) :
    (finite false m e).truncate? = some (n : Int) := by
  have hmagnitude : (if 0 ≤ e then m * Nat.pow 2 e.toNat else m / Nat.pow 2 (-e).toNat) = n := by
    by_cases he : 0 ≤ e
    · obtain ⟨k, rfl⟩ := Int.eq_ofNat_of_zero_le he
      rw [zpow_natCast] at h
      rw [if_pos he, Int.toNat_natCast, Nat.pow_eq]
      exact_mod_cast h
    · obtain ⟨k, hk⟩ := Int.eq_ofNat_of_zero_le (a := -e) (by omega)
      have hexponent : e = -(k : Int) := by omega
      rw [hexponent, zpow_neg, zpow_natCast, ← div_eq_mul_inv, div_eq_iff (pow_ne_zero k two_ne_zero)] at h
      have hnat : m = n * 2 ^ k := by exact_mod_cast h
      rw [if_neg he, hk, Int.toNat_natCast, Nat.pow_eq, hnat, Nat.mul_div_cancel _ (Nat.two_pow_pos k)]
  simp only [truncate?, hmagnitude, Bool.false_eq_true, if_false]

/-- The figures of a natural number that is not too long are read without a look at their count. -/
theorem ofDecimal_natural (h : (Nat.toDigits 10 n).length ≤ 400) (negative : Bool) :
    ofDecimal negative n 0 = if n = 0 then zero negative else ofQuotient negative n 1 := by
  have hfew : ¬ (400 : Int) < (Nat.toDigits 10 n).length + 0 := by omega
  have hsome : ¬ ((Nat.toDigits 10 n).length + 0 : Int) < -400 := by omega
  unfold ofDecimal
  simp only [hfew, hsome, decide_false, Bool.or_false, decide_eq_true_eq, if_false, Int.le_refl, if_true,
    Int.toNat_zero, Nat.pow_eq, Nat.pow_zero, Nat.mul_one]

/-- **The rounded number is multiplied without further rounding**, up to where the exponent runs
    out. -/
theorem exists_scaleUp_ofDecimal {power : Nat} (h : rounded n * 2 ^ power < 2 ^ 1024) :
    ∃ m e, (ofDecimal false n 0).scaleUp power = .finite false m e
      ∧ (finite false m e).truncate? = some ((rounded n * 2 ^ power : Nat) : Int) := by
  have hrounded : rounded n < 2 ^ 1024 :=
    Nat.lt_of_le_of_lt (Nat.le_mul_of_pos_right _ (Nat.two_pow_pos power)) h
  have hlength : (Nat.toDigits 10 n).length ≤ 400 := by
    have hshort : IsShort (2 ^ 1024) := ⟨1, 1024, by decide, (Nat.one_mul _).symm⟩
    have hn := (isRounded_rounded n).lt hshort hrounded
    exact (Nat.length_toDigits_le_iff (by decide) (by decide)).mpr (hn.trans (by decide +kernel))
  rw [ofDecimal_natural hlength]
  by_cases hzero : n = 0
  · have hnone : rounded 0 = 0 := (isRounded_rounded 0).eq_iff_isShort.mpr (isShort_of_le (Nat.zero_le _))
    refine ⟨0, -1074, ?_, ?_⟩
    · rw [if_pos hzero, scaleUp_zero, zero]
    · apply truncate?_finite
      rw [hzero, hnone, Nat.zero_mul, Nat.cast_zero, zero_mul]
  · obtain ⟨m, e, hnormal, hvalue, hread⟩ := exists_ofQuotient_one hzero false
    have hproduct : (m * 2 ^ (e + power) : Rat) = (rounded n * 2 ^ power : Nat) := by
      rw [zpow_add₀ two_ne_zero, ← mul_assoc, hvalue, zpow_natCast, Nat.cast_mul, Nat.cast_pow, Nat.cast_ofNat]
    have hread' : ofQuotient false n 1 = .finite false m e := by
      rw [hread, if_neg (Int.not_lt.mpr (hnormal.exponent_le hvalue hrounded))]
    refine ⟨m, e + power, ?_, truncate?_finite hproduct⟩
    rw [if_neg hzero, hread', scaleUp_finite hnormal,
      if_neg (Int.not_lt.mpr ((hnormal.add power).exponent_le hproduct h))]

end UploadGate.Binary64
