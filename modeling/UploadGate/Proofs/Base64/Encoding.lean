/-
  UploadGate/Proofs/Base64/Encoding.lean
  ======================================
  **What is written in Base64 is read back.**

  The characters of an alphabet and the values of six bits correspond
  (`value?_char`), and three octets are the three that their four values pack.
  Hence the padded form of any octets reads as these octets
  (`decodePadded?_encode`).  It holds no blank and no comma, so it can stand in
  a header.
-/
import UploadGate.Base64
import UploadGate.Text.Blank

namespace UploadGate.Base64

/-! ### Alphabets -/

/-- What makes a pair of characters fit to complete an alphabet: each stands for its
    value, and the padding sign for none. -/
structure Alphabet.IsProper (α : Alphabet) : Prop where
  value?_char62 : α.value? α.char62 = some 62
  value?_char63 : α.value? α.char63 = some 63
  value?_pad : α.value? pad = none

theorem isProper_standard : standard.IsProper := ⟨by decide, by decide, by decide⟩

theorem isProper_urlSafe : urlSafe.IsProper := ⟨by decide, by decide, by decide⟩

/-- A character stands for the value that it is the character of. -/
theorem Alphabet.IsProper.value?_char {α : Alphabet} (hα : α.IsProper) (v : BitVec 6) :
    α.value? (α.char v) = some v := by
  have hv : v.toNat < 64 := v.isLt
  have hvalue : ∀ n, n = v.toNat → BitVec.ofNat 6 n = v := by
    rintro n rfl
    rw [BitVec.ofNat_toNat, BitVec.setWidth_eq]
  unfold Alphabet.char
  simp only
  split
  · simp only [Alphabet.value?]
    rw [if_pos (by simp; omega), hvalue _ (by omega)]
  split
  · simp only [Alphabet.value?]
    rw [if_neg (by simp; omega), if_pos (by simp; omega), hvalue _ (by omega)]
  split
  · simp only [Alphabet.value?]
    rw [if_neg (by simp; omega), if_neg (by simp; omega), if_pos (by simp; omega),
      hvalue _ (by omega)]
  split
  · rw [hα.value?_char62, ← hvalue 62 (by omega)]
    rfl
  · rw [hα.value?_char63, ← hvalue 63 (by omega)]
    rfl

/-! ### Groups -/

theorem octet1_ofNat {a : UInt8} {m n : Nat} (hm : m % 64 = a.toNat / 4)
    (hn : n % 64 / 16 = a.toNat % 4) : octet1 (.ofNat 6 m) (.ofNat 6 n) = a := by
  have ha := a.toNat_lt
  apply UInt8.toNat_inj.mp
  simp only [octet1, BitVec.toNat_ofNat, UInt8.toNat_ofNat']
  omega

theorem octet2_ofNat {b : UInt8} {m n : Nat} (hm : m % 16 = b.toNat / 16)
    (hn : n % 64 / 4 = b.toNat % 16) : octet2 (.ofNat 6 m) (.ofNat 6 n) = b := by
  have hb := b.toNat_lt
  apply UInt8.toNat_inj.mp
  simp only [octet2, BitVec.toNat_ofNat, UInt8.toNat_ofNat']
  omega

theorem octet3_ofNat {c : UInt8} {m n : Nat} (hm : m % 4 = c.toNat / 64)
    (hn : n % 64 = c.toNat % 64) : octet3 (.ofNat 6 m) (.ofNat 6 n) = c := by
  have hc := c.toNat_lt
  apply UInt8.toNat_inj.mp
  simp only [octet3, BitVec.toNat_ofNat, UInt8.toNat_ofNat']
  omega

theorem encodeWith_group (α : Alphabet) (a b c : UInt8) (rest : Bytes) :
    encodeWith α (a :: b :: c :: rest) = encodeWith α [a, b, c] ++ encodeWith α rest := rfl

/-! ### Reading what was written -/

/-- Three octets are read from the front, and then the rest is. -/
theorem decodePaddedFrom_group {α : Alphabet} (hα : α.IsProper) (inside : Bool) (a b c : UInt8) (t : Text) :
    decodePaddedFrom α inside (encodeWith α [a, b, c] ++ t)
      = (decodePaddedFrom α true t).map ([a, b, c] ++ ·) := by
  have ha := a.toNat_lt
  have hb := b.toNat_lt
  have hc := c.toNat_lt
  simp only [encodeWith, List.cons_append, List.nil_append, decodePaddedFrom, hα.value?_char]
  rw [octet1_ofNat (a := a) (by omega) (by omega), octet2_ofNat (b := b) (by omega) (by omega),
    octet3_ofNat (c := c) (by omega) (by omega)]

theorem decodePaddedFrom_encodeWith {α : Alphabet} (hα : α.IsProper) (inside : Bool) (bytes : Bytes) :
    decodePaddedFrom α inside (encodeWith α bytes) = some bytes := by
  fun_induction encodeWith α bytes generalizing inside with
  | case1 => rfl
  | case2 a n =>
    have ha := a.toNat_lt
    simp only [decodePaddedFrom, hα.value?_char, hα.value?_pad, decide_true, List.isEmpty_nil,
      Bool.and_self, if_true]
    rw [octet1_ofNat (a := a) (by omega) (by omega)]
  | case3 a b n =>
    have ha := a.toNat_lt
    have hb := b.toNat_lt
    simp only [decodePaddedFrom, hα.value?_char, hα.value?_pad, decide_true, List.isEmpty_nil,
      Bool.and_self, if_true]
    rw [octet1_ofNat (a := a) (by omega) (by omega), octet2_ofNat (b := b) (by omega) (by omega)]
  | case4 a b c rest n ih => exact (decodePaddedFrom_group hα inside a b c _).trans (by rw [ih true]; rfl)

/-- **Written octets are read back.** -/
theorem decodePadded?_encode (bytes : Bytes) : decodePadded? (encode bytes) = some bytes :=
  decodePaddedFrom_encodeWith isProper_standard false bytes

theorem decodeBare_group {α : Alphabet} (hα : α.IsProper) (a b c : UInt8) (t : Text) :
    decodeBare α (encodeWith α [a, b, c] ++ t) = (decodeBare α t).map ([a, b, c] ++ ·) := by
  have ha := a.toNat_lt
  have hb := b.toNat_lt
  have hc := c.toNat_lt
  simp only [encodeWith, List.cons_append, List.nil_append, decodeBare, hα.value?_char, Option.bind_eq_bind,
    Option.bind_some, Option.map_eq_bind]
  rw [octet1_ofNat (a := a) (by omega) (by omega), octet2_ofNat (b := b) (by omega) (by omega),
    octet3_ofNat (c := c) (by omega) (by omega)]
  rfl

/-- Octets that fill complete groups are written without padding. -/
theorem decodeBare_encodeWith {α : Alphabet} (hα : α.IsProper) {bytes : Bytes} (h : bytes.length % 3 = 0) :
    decodeBare α (encodeWith α bytes) = some bytes := by
  fun_induction encodeWith α bytes with
  | case1 => rfl
  | case2 a n => cases h
  | case3 a b n => cases h
  | case4 a b c rest n ih =>
    have hrest : rest.length % 3 = 0 := by
      simp only [List.length_cons] at h
      omega
    exact (decodeBare_group hα a b c _).trans (by rw [ih hrest]; rfl)

/-! ### The characters of the written form -/

theorem mem_encodeWith {α : Alphabet} {bytes : Bytes} {c : CodePoint} (h : c ∈ encodeWith α bytes) :
    c = pad ∨ ∃ v, c = α.char v := by
  fun_induction encodeWith α bytes with
  | case1 => cases h
  | case2 a n =>
    simp only [List.mem_cons, List.not_mem_nil, or_false] at h
    rcases h with rfl | rfl | rfl | rfl
    · exact Or.inr ⟨_, rfl⟩
    · exact Or.inr ⟨_, rfl⟩
    · exact Or.inl rfl
    · exact Or.inl rfl
  | case3 a b n =>
    simp only [List.mem_cons, List.not_mem_nil, or_false] at h
    rcases h with rfl | rfl | rfl | rfl
    · exact Or.inr ⟨_, rfl⟩
    · exact Or.inr ⟨_, rfl⟩
    · exact Or.inr ⟨_, rfl⟩
    · exact Or.inl rfl
  | case4 a b c rest n ih =>
    simp only [List.mem_cons] at h
    rcases h with rfl | rfl | rfl | rfl | h
    · exact Or.inr ⟨_, rfl⟩
    · exact Or.inr ⟨_, rfl⟩
    · exact Or.inr ⟨_, rfl⟩
    · exact Or.inr ⟨_, rfl⟩
    · exact ih h

theorem char_standard_ne (v : BitVec 6) :
    (standard.char v).isBlank = false ∧ standard.char v ≠ .ofChar ',' := by
  revert v
  decide

/-- The written form is made of signs that are neither blanks nor commas. -/
theorem isBlank_eq_false_of_mem_encode {bytes : Bytes} {c : CodePoint} (h : c ∈ encode bytes) :
    c.isBlank = false ∧ c ≠ .ofChar ',' := by
  rcases mem_encodeWith h with rfl | ⟨v, rfl⟩
  · decide
  · exact char_standard_ne v

theorem encode_ne_nil {bytes : Bytes} (h : bytes ≠ []) : encode bytes ≠ [] := by
  intro hnil
  have hread := decodePadded?_encode bytes
  rw [hnil] at hread
  exact h (Option.some.inj hread).symm

end UploadGate.Base64
