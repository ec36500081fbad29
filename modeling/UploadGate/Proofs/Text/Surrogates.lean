/-
  UploadGate/Proofs/Text/Surrogates.lean
  ======================================
  **Which texts hold no surrogate.**

  No character is a surrogate, so neither words nor numerals hold one; and a text
  that is quoted shows those it holds by their numbers.
-/
import UploadGate.Text.Quoted

namespace UploadGate

theorem CodePoint.isSurrogate_ofChar (c : Char) : (CodePoint.ofChar c).isSurrogate = false := by
  have hvalid : c.toNat < 0xD800 ∨ 0xDFFF < c.toNat ∧ c.toNat < 0x110000 := c.valid
  change (decide (0xD800 ≤ c.toNat) && decide (c.toNat < 0xE000)) = false
  rw [Bool.and_eq_false_iff, decide_eq_false_iff_not, decide_eq_false_iff_not]
  omega

theorem CodePoint.isSurrogate_of_lt {c : CodePoint} (h : c.val < 0x80) : c.isSurrogate = false := by
  rw [isSurrogate, Bool.and_eq_false_iff, decide_eq_false_iff_not]
  omega

theorem CodePoint.isPrintable_of_isSurrogate {c : CodePoint} (h : c.isSurrogate = true) :
    c.isPrintable = false := by
  have hrange : (0xD7FC, 0xF8FF) ∈ unprintableRanges := by decide +kernel
  simp only [isSurrogate, Bool.and_eq_true, decide_eq_true_eq] at h
  have hbeyond : ¬ c.val < 0x7F := by omega
  unfold isPrintable
  rw [if_neg hbeyond, Bool.not_eq_false', List.any_eq_true]
  refine ⟨_, hrange, ?_⟩
  simp only [Bool.and_eq_true, decide_eq_true_eq]
  omega

namespace Text

theorem any_isSurrogate_map_ofChar (characters : List Char) :
    List.any (characters.map CodePoint.ofChar) CodePoint.isSurrogate = false := by
  rw [List.any_map, List.any_eq_false]
  intro c _
  simp [CodePoint.isSurrogate_ofChar]

@[simp] theorem any_isSurrogate_of (s : String) : (Text.of s).any CodePoint.isSurrogate = false :=
  any_isSurrogate_map_ofChar s.toList

/-! ### Numerals -/

@[simp] theorem any_isSurrogate_ofNat (n : Nat) : (Text.ofNat n).any CodePoint.isSurrogate = false :=
  any_isSurrogate_map_ofChar _

@[simp] theorem any_isSurrogate_ofInt (n : Int) : (Text.ofInt n).any CodePoint.isSurrogate = false := by
  cases n with
  | ofNat n => exact any_isSurrogate_ofNat n
  | negSucc n =>
    unfold Text.ofInt
    rw [List.any_cons, CodePoint.isSurrogate_ofChar, any_isSurrogate_ofNat]
    rfl

@[simp] theorem any_isSurrogate_ofHexWidth (width n : Nat) :
    (Text.ofHexWidth width n).any CodePoint.isSurrogate = false := by
  have hdigits : (Text.ofHex n).any CodePoint.isSurrogate = false := any_isSurrogate_map_ofChar _
  unfold Text.ofHexWidth
  simp only [List.any_append, hdigits, Bool.or_false, List.any_eq_false]
  intro c hc
  rw [List.eq_of_mem_replicate hc, CodePoint.isSurrogate_ofChar]
  decide

/-! ### Quoted texts -/

theorem any_isSurrogate_escaped {mark : CodePoint} (hmark : mark.isSurrogate = false) (c : CodePoint) :
    (CodePoint.escaped mark c).any CodePoint.isSurrogate = false := by
  unfold CodePoint.escaped
  split
  · rename_i h
    have hc : c.isSurrogate = false := by
      rcases Bool.or_eq_true_iff.mp h with h | h
      · rw [of_decide_eq_true h, hmark]
      · rw [of_decide_eq_true h, CodePoint.isSurrogate_ofChar]
    simp [hc, CodePoint.isSurrogate_ofChar]
  split
  · exact any_isSurrogate_of _
  split
  · exact any_isSurrogate_of _
  split
  · exact any_isSurrogate_of _
  split
  · rename_i h
    cases hc : c.isSurrogate with
    | false => simp [hc]
    | true =>
      rw [CodePoint.isPrintable_of_isSurrogate hc] at h
      cases h
  split
  · simp
  · split <;> simp

@[simp] theorem any_isSurrogate_quoted (t : Text) : t.quoted.any CodePoint.isSurrogate = false := by
  have hmark : t.quoteMark.isSurrogate = false := by
    unfold quoteMark
    split <;> exact CodePoint.isSurrogate_ofChar _
  have hinside : List.any (t.flatMap (CodePoint.escaped t.quoteMark)) CodePoint.isSurrogate = false := by
    rw [List.any_flatMap, List.any_eq_false]
    intro c _
    simp [any_isSurrogate_escaped hmark c]
  simp [quoted, hmark, hinside]

end Text

end UploadGate
