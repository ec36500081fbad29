/-
  UploadGate/Proofs/Text/Numerals.lean
  ====================================
  **Numbers in decimal and hexadecimal, written and read.**

  A decimal text is read as a number just when it is what is written for that
  number, zeros in front aside (`decimal?_eq_some_iff`).  Hexadecimal digits that
  are written for a number are read as that number (`exists_hexDigits_ofHex`).
  Both go by the last digit, as the writing does.
-/
import Mathlib.Data.List.Induction
import Mathlib.Data.Nat.Digits.Defs
import UploadGate.Proofs.Outcome
import UploadGate.Text.Basic

namespace UploadGate.Text

/-! ### Digits -/

def digit (d : Nat) : CodePoint := .ofChar d.digitChar

theorem val_digit {d : Nat} (h : d < 10) : (digit d).val = 0x30 + d := by
  have hall : ∀ d < 10, (digit d).val = 0x30 + d := by decide
  exact hall d h

theorem isAsciiDigit_digit {d : Nat} (h : d < 10) : (digit d).isAsciiDigit = true := by
  simp only [CodePoint.isAsciiDigit, val_digit h, Bool.and_eq_true, decide_eq_true_eq]
  omega

/-- A digit of ASCII is written for the number that it is read as. -/
theorem eq_digit_of_isAsciiDigit {c : CodePoint} (h : c.isAsciiDigit = true) :
    c.val - 0x30 < 10 ∧ c = digit (c.val - 0x30) := by
  simp only [CodePoint.isAsciiDigit, Bool.and_eq_true, decide_eq_true_eq] at h
  have hlt : c.val - 0x30 < 10 := by omega
  refine ⟨hlt, Fin.ext ?_⟩
  rw [val_digit hlt]
  omega

theorem hexValue?_digit {d : Nat} (h : d < 16) : (digit d).hexValue? = some d := by
  have hall : ∀ d < 16, (digit d).hexValue? = some d := by decide
  exact hall d h

theorem lt_of_hexValue? {c : CodePoint} {d : Nat} (h : c.hexValue? = some d) : d < 16 := by
  unfold CodePoint.hexValue? at h
  split at h
  · rename_i hdigit
    have hlt := (eq_digit_of_isAsciiDigit hdigit).1
    obtain rfl := Option.some.inj h
    omega
  · split at h
    · rename_i hsmall
      obtain rfl := Option.some.inj h
      simp only [Bool.and_eq_true, decide_eq_true_eq] at hsmall
      omega
    · split at h
      · rename_i hcapital
        obtain rfl := Option.some.inj h
        simp only [Bool.and_eq_true, decide_eq_true_eq] at hcapital
        omega
      · cases h

/-! ### Decimal -/

theorem ofNat_of_lt {n : Nat} (h : n < 10) : Text.ofNat n = [digit n] := by
  rw [Text.ofNat, Nat.toDigits_of_lt_base h]
  rfl

theorem ofNat_of_le {n : Nat} (h : 10 ≤ n) : Text.ofNat n = Text.ofNat (n / 10) ++ [digit (n % 10)] := by
  rw [Text.ofNat, Nat.toDigits_eq_if (by decide), if_neg (by omega), List.map_append]
  rfl

theorem ofNat_ne_nil (n : Nat) : Text.ofNat n ≠ [] := by
  rcases Nat.lt_or_ge n 10 with h | h
  · rw [ofNat_of_lt h]
    exact List.cons_ne_nil _ _
  · rw [ofNat_of_le h]
    exact List.append_ne_nil_of_right_ne_nil _ (List.cons_ne_nil _ _)

def decimalValue (t : Text) : Nat := t.foldl (fun n c => n * 10 + (c.val - 0x30)) 0

theorem decimalValue_append_digit (t : Text) {d : Nat} (h : d < 10) :
    decimalValue (t ++ [digit d]) = decimalValue t * 10 + d := by
  rw [decimalValue, List.foldl_append, List.foldl_cons, List.foldl_nil, val_digit h,
    Nat.add_sub_cancel_left]
  rfl

theorem decimal?_eq_some_iff_decimalValue {t : Text} {n : Nat} :
    Text.decimal? t = some n ↔ t ≠ [] ∧ (∀ c ∈ t, c.isAsciiDigit = true) ∧ decimalValue t = n := by
  rw [Text.decimal?]
  split
  · rename_i h
    rw [Bool.or_eq_true, List.isEmpty_iff, Bool.not_eq_true', List.all_eq_false] at h
    refine iff_of_false nofun ?_
    rintro ⟨hne, hdigits, -⟩
    rcases h with h | ⟨c, hc, hdigit⟩
    · exact hne h
    · exact hdigit (hdigits c hc)
  · rename_i h
    rw [Bool.or_eq_true, not_or, List.isEmpty_iff, Bool.not_eq_true', Bool.not_eq_false,
      List.all_eq_true] at h
    rw [Option.some.injEq]
    exact ⟨fun hvalue => ⟨h.1, h.2, hvalue⟩, fun hvalue => hvalue.2.2⟩

/-- A number is written in decimal, with zeros in front or none. -/
def IsNumeral (t : Text) (n : Nat) : Prop :=
  ∃ zeros, t = List.replicate zeros (digit 0) ++ Text.ofNat n

theorem isAsciiDigit_of_mem_ofNat {n : Nat} {c : CodePoint} (h : c ∈ Text.ofNat n) : c.isAsciiDigit = true := by
  obtain ⟨d, hd, rfl⟩ := List.mem_map.mp h
  have hdigit := Nat.isDigit_of_mem_toDigits (by decide) (by decide) hd
  rw [Char.isDigit, Bool.and_eq_true, decide_eq_true_eq, decide_eq_true_eq] at hdigit
  exact Bool.and_eq_true_iff.mpr ⟨decide_eq_true hdigit.1, decide_eq_true hdigit.2⟩

theorem isAsciiDigit_or_eq_of_mem_ofInt {n : Int} {c : CodePoint} (h : c ∈ Text.ofInt n) :
    c.isAsciiDigit = true ∨ c = .ofChar '-' := by
  cases n with
  | ofNat n => exact Or.inl (isAsciiDigit_of_mem_ofNat h)
  | negSucc n =>
    rcases List.mem_cons.mp h with rfl | hdigit
    · exact Or.inr rfl
    · exact Or.inl (isAsciiDigit_of_mem_ofNat hdigit)

/-- What is written for a number is read as it. -/
theorem decimalValue_ofNat (n : Nat) : decimalValue (Text.ofNat n) = n := by
  induction n using Nat.strong_induction_on with
  | _ n ih =>
    rcases Nat.lt_or_ge n 10 with h | h
    · have hempty : decimalValue [] = 0 := rfl
      rw [ofNat_of_lt h, ← List.nil_append [digit n], decimalValue_append_digit [] h, hempty]
      omega
    · rw [ofNat_of_le h, decimalValue_append_digit _ (Nat.mod_lt n (by decide)), ih (n / 10) (by omega)]
      omega

theorem decimalValue_zeros_append (zeros : Nat) (t : Text) :
    decimalValue (List.replicate zeros (digit 0) ++ t) = decimalValue t := by
  induction zeros with
  | zero => rfl
  | succ zeros ih => exact ih

/-- Digits are a numeral of the number that they are read as. -/
theorem isNumeral_decimalValue {t : Text} (hne : t ≠ []) (h : ∀ c ∈ t, c.isAsciiDigit = true) :
    IsNumeral t (decimalValue t) := by
  induction t using List.reverseRecOn with
  | nil => exact absurd rfl hne
  | append_singleton t c ih =>
    obtain ⟨hlt, hc⟩ := eq_digit_of_isAsciiDigit (h c (by simp))
    rw [hc, decimalValue_append_digit t hlt]
    by_cases ht : t = []
    · subst ht
      have hempty : decimalValue [] = 0 := rfl
      rw [hempty, Nat.zero_mul, Nat.zero_add]
      exact ⟨0, (ofNat_of_lt hlt).symm⟩
    · obtain ⟨zeros, hzeros⟩ := ih ht fun c' hc' => h c' (List.mem_append_left _ hc')
      -- Digits behind zeros alone: the last of the zeros is a zero in front too.
      rcases Nat.eq_zero_or_pos (decimalValue t) with hzero | hpos
      · refine ⟨zeros + 1, ?_⟩
        rw [hzero, Nat.zero_mul, Nat.zero_add, ofNat_of_lt hlt, List.replicate_succ']
        rw [hzero, ofNat_of_lt (by decide)] at hzeros
        rw [← hzeros]
      · refine ⟨zeros, ?_⟩
        rw [ofNat_of_le (by omega), ← List.append_assoc]
        rw [show (decimalValue t * 10 + (c.val - 0x30)) / 10 = decimalValue t by omega,
          show (decimalValue t * 10 + (c.val - 0x30)) % 10 = c.val - 0x30 by omega, ← hzeros]

/-- **What is read as a number** is what is written for it, with zeros in front or none. -/
theorem decimal?_eq_some_iff {t : Text} {n : Nat} : Text.decimal? t = some n ↔ IsNumeral t n := by
  rw [decimal?_eq_some_iff_decimalValue]
  constructor
  · rintro ⟨hne, hdigits, rfl⟩
    exact isNumeral_decimalValue hne hdigits
  · rintro ⟨zeros, rfl⟩
    refine ⟨List.append_ne_nil_of_right_ne_nil _ (ofNat_ne_nil n), ?_, ?_⟩
    · intro c hc
      rcases List.mem_append.mp hc with hc | hc
      · rw [List.eq_of_mem_replicate hc]
        exact isAsciiDigit_digit (by decide)
      · exact isAsciiDigit_of_mem_ofNat hc
    · rw [decimalValue_zeros_append, decimalValue_ofNat]

theorem decimal?_ofNat (n : Nat) : Text.decimal? (Text.ofNat n) = some n :=
  decimal?_eq_some_iff.mpr ⟨0, rfl⟩

/-- Digits are read as a number below the power of ten that follows. -/
theorem decimalValue_lt {t : Text} (h : ∀ c ∈ t, c.isAsciiDigit = true) : decimalValue t < 10 ^ t.length := by
  induction t using List.reverseRecOn with
  | nil => decide
  | append_singleton t c ih =>
    obtain ⟨hlt, hc⟩ := eq_digit_of_isAsciiDigit (h c (by simp))
    have hfront := ih fun c' hc' => h c' (List.mem_append_left _ hc')
    rw [hc, decimalValue_append_digit t hlt, List.length_append, List.length_singleton, Nat.pow_succ]
    omega

theorem lt_of_decimal? {t : Text} {n : Nat} (h : Text.decimal? t = some n) : n < 10 ^ t.length := by
  obtain ⟨-, hdigits, rfl⟩ := decimal?_eq_some_iff_decimalValue.mp h
  exact decimalValue_lt hdigits

theorem isAsciiDigit_of_isNumeral {t : Text} {n : Nat} (h : IsNumeral t n) : ∀ c ∈ t, c.isAsciiDigit = true :=
  (decimal?_eq_some_iff_decimalValue.mp (decimal?_eq_some_iff.mpr h)).2.1

/-! ### Hexadecimal -/

theorem ofHex_of_lt {n : Nat} (h : n < 16) : Text.ofHex n = [digit n] := by
  rw [Text.ofHex, Nat.toDigits_of_lt_base h]
  rfl

theorem ofHex_of_le {n : Nat} (h : 16 ≤ n) : Text.ofHex n = Text.ofHex (n / 16) ++ [digit (n % 16)] := by
  rw [Text.ofHex, Nat.toDigits_eq_if (by decide), if_neg (by omega), List.map_append]
  rfl

theorem ofHex_ne_nil (n : Nat) : Text.ofHex n ≠ [] := by
  rcases Nat.lt_or_ge n 16 with h | h
  · rw [ofHex_of_lt h]
    exact List.cons_ne_nil _ _
  · rw [ofHex_of_le h]
    exact List.append_ne_nil_of_right_ne_nil _ (List.cons_ne_nil _ _)

/-- Hexadecimal digits of either case, the values of the last first. -/
def HexDigits (t : Text) (digits : List Nat) : Prop :=
  List.Forall₂ (fun c d => CodePoint.hexValue? c = some d) t digits.reverse

theorem forall_mem_of_forall₂_hexValue? {t : Text} {values : List Nat}
    (h : List.Forall₂ (fun c d => CodePoint.hexValue? c = some d) t values) :
    (∀ c ∈ t, ∃ d, c.hexValue? = some d) ∧ ∀ d ∈ values, d < 16 := by
  induction h with
  | nil => exact ⟨List.forall_mem_nil _, List.forall_mem_nil _⟩
  | cons hc _ ih =>
    exact ⟨List.forall_mem_cons.mpr ⟨⟨_, hc⟩, ih.1⟩, List.forall_mem_cons.mpr ⟨lt_of_hexValue? hc, ih.2⟩⟩

theorem HexDigits.lt {t : Text} {digits : List Nat} (h : HexDigits t digits) : ∀ d ∈ digits, d < 16 :=
  fun d hd => (forall_mem_of_forall₂_hexValue? h).2 d (List.mem_reverse.mpr hd)

theorem HexDigits.exists_hexValue {t : Text} {digits : List Nat} (h : HexDigits t digits) :
    ∀ c ∈ t, ∃ d, c.hexValue? = some d :=
  (forall_mem_of_forall₂_hexValue? h).1

theorem exists_hexDigits_ofHex (n : Nat) : ∃ digits, HexDigits (Text.ofHex n) digits ∧ Nat.ofDigits 16 digits = n := by
  induction n using Nat.strong_induction_on with
  | _ n ih =>
    rcases Nat.lt_or_ge n 16 with h | h
    · refine ⟨[n], ?_, by simp⟩
      rw [ofHex_of_lt h]
      exact .cons (hexValue?_digit h) .nil
    · obtain ⟨digits, hdigits, hvalue⟩ := ih (n / 16) (by omega)
      refine ⟨n % 16 :: digits, ?_, ?_⟩
      · rw [ofHex_of_le h, HexDigits, List.reverse_cons]
        exact List.rel_append hdigits (.cons (hexValue?_digit (Nat.mod_lt n (by decide))) .nil)
      · rw [Nat.ofDigits_cons, hvalue]
        exact Nat.mod_add_div n 16

end UploadGate.Text
