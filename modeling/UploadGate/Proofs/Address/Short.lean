/-
  UploadGate/Proofs/Address/Short.lean
  ====================================
  **Short addresses: one text for each, and no other is read.**

  An octet is read from the decimal text that is written for it and from no other,
  as zeros in front are refused.  So a short address is read just from its
  canonical text (`bits4?_eq_some_iff`).
-/
import UploadGate.Address.Parser
import UploadGate.Address.Printer
import UploadGate.Proofs.Text.Cutting
import UploadGate.Proofs.Text.Numerals

namespace UploadGate

/-! ### Octets -/

theorem Text.ofNat_head?_ne_zero {n : Nat} (h : 0 < n) : (Text.ofNat n).head? ≠ some (Text.digit 0) := by
  induction n using Nat.strong_induction_on with
  | _ n ih =>
    rcases Nat.lt_or_ge n 10 with hlt | hge
    · rw [Text.ofNat_of_lt hlt]
      intro hhead
      have hval := congrArg Fin.val (Option.some.inj hhead)
      rw [Text.val_digit hlt, Text.val_digit (by decide)] at hval
      omega
    · rw [Text.ofNat_of_le hge, List.head?_append_of_ne_nil _ (Text.ofNat_ne_nil _)]
      exact ih (n / 10) (by omega) (by omega)

theorem Text.length_ofNat_le {n k : Nat} (hk : 0 < k) : (Text.ofNat n).length ≤ k ↔ n < 10 ^ k := by
  rw [Text.ofNat, List.length_map]
  exact Nat.length_toDigits_le_iff (by decide) hk

namespace Address

/-- **An octet is read from the text that is written for it**, and from no other. -/
theorem octet?_eq_some_iff {t : Text} {x : BitVec 8} : octet? t = some x ↔ t = Text.ofNat x.toNat := by
  have hzero : CodePoint.ofChar '0' = Text.digit 0 := rfl
  unfold octet?
  constructor
  · intro h
    split at h
    · cases h
    · rename_i hform
      simp only [Bool.or_eq_true, Bool.and_eq_true, decide_eq_true_eq, not_or, not_and] at hform
      split at h
      · rename_i n hn
        split at h
        · rename_i hlt
          obtain rfl := Option.some.inj h
          obtain ⟨zeros, rfl⟩ := Text.decimal?_eq_some_iff.mp hn
          rw [BitVec.toNat_ofNat, Nat.mod_eq_of_lt hlt]
          -- A zero in front would stand in front of at least one digit.
          cases zeros with
          | zero => rfl
          | succ zeros =>
            have hpos := List.length_pos_iff.mpr (Text.ofNat_ne_nil n)
            have hlong : 1 < (List.replicate (zeros + 1) (Text.digit 0) ++ Text.ofNat n).length := by
              rw [List.length_append, List.length_replicate]
              omega
            exact absurd rfl (hform.2 hlong)
        · cases h
      · cases h
  · rintro rfl
    have hshort : ¬ 3 < (Text.ofNat x.toNat).length := by
      rw [Nat.not_lt, Text.length_ofNat_le (by decide)]
      exact Nat.lt_trans x.isLt (by decide)
    have hfront : ¬ (1 < (Text.ofNat x.toNat).length ∧ (Text.ofNat x.toNat).head? = some (.ofChar '0')) := by
      rintro ⟨hlong, hhead⟩
      refine Text.ofNat_head?_ne_zero ?_ hhead
      rw [← Nat.not_le, Text.length_ofNat_le (by decide)] at hlong
      omega
    rw [if_neg (by simpa [hshort] using hfront), Text.decimal?_ofNat]
    simp only [x.isLt, if_true, BitVec.ofNat_toNat, BitVec.setWidth_eq]

/-! ### Four octets -/

theorem toNat_append_octets (a b c d : BitVec 8) :
    (a ++ b ++ c ++ d : BitVec 32).toNat
      = ((a.toNat * 256 + b.toNat) * 256 + c.toNat) * 256 + d.toNat := by
  have happend : ∀ {w : Nat} (x : BitVec w) (y : BitVec 8), (x ++ y).toNat = x.toNat * 256 + y.toNat := by
    intro w x y
    rw [BitVec.toNat_append, ← Nat.shiftLeft_add_eq_or_of_lt y.isLt, Nat.shiftLeft_eq]
  rw [happend, happend, happend]

def octets (bits : BitVec 32) : List (BitVec 8) :=
  [24, 16, 8, 0].map fun shift => .ofNat 8 ((bits >>> shift).toNat % 256)

/-- Four octets make an address just when they are its octets. -/
theorem append_octets_eq_iff {a b c d : BitVec 8} {bits : BitVec 32} :
    a ++ b ++ c ++ d = bits ↔ octets bits = [a, b, c, d] := by
  have ha := a.isLt
  have hb := b.isLt
  have hc := c.isLt
  have hd := d.isLt
  have hbits := bits.isLt
  simp only [← BitVec.toNat_inj, toNat_append_octets, octets, List.map_cons, List.map_nil,
    List.cons.injEq, and_true, BitVec.toNat_ofNat, BitVec.toNat_ushiftRight, Nat.shiftRight_eq_div_pow]
  omega

theorem text4_eq (bits : BitVec 32) :
    text4 bits = Text.join (Text.of ".") ((octets bits).map fun x => Text.ofNat x.toNat) := by
  have hsmall : ∀ n, n % 256 % 2 ^ 8 = n % 256 := fun n => Nat.mod_mod n 256
  simp only [text4, octets, List.map_cons, List.map_nil, BitVec.toNat_ofNat, hsmall]

theorem point_not_mem_ofNat (n : Nat) : CodePoint.ofChar '.' ∉ Text.ofNat n := by
  intro h
  have hdigit := Text.isAsciiDigit_of_mem_ofNat h
  revert hdigit
  decide

theorem splitOn_text4 (bits : BitVec 32) :
    (text4 bits).splitOn (.ofChar '.') = (octets bits).map fun x => Text.ofNat x.toNat := by
  refine (Text.splitOn_eq_iff (by simp [octets])).mpr ⟨(text4_eq bits).symm, ?_⟩
  intro piece hpiece
  obtain ⟨x, -, rfl⟩ := List.mem_map.mp hpiece
  exact point_not_mem_ofNat x.toNat

/-- **A short address is read from its canonical text**, and from no other. -/
theorem bits4?_eq_some_iff {t : Text} {bits : BitVec 32} : bits4? t = some bits ↔ t = text4 bits := by
  constructor
  · intro h
    unfold bits4? at h
    split at h
    · rename_i a b c d hpieces
      simp only [Option.bind_eq_bind, Option.bind_eq_some_iff, octet?_eq_some_iff, Option.some.injEq] at h
      obtain ⟨x, rfl, y, rfl, z, rfl, w, rfl, hbits⟩ := h
      rw [text4_eq, append_octets_eq_iff.mp hbits, ← Text.join_splitOn (.ofChar '.') t, hpieces]
      rfl
    · cases h
  · rintro rfl
    have hsplit := splitOn_text4 bits
    obtain ⟨a, b, c, d, hoctets⟩ : ∃ a b c d, octets bits = [a, b, c, d] := ⟨_, _, _, _, rfl⟩
    rw [hoctets] at hsplit
    simp only [bits4?, hsplit, List.map_cons, List.map_nil, octet?_eq_some_iff.mpr rfl,
      Option.bind_eq_bind, Option.bind_some, append_octets_eq_iff.mpr hoctets]

theorem bits4?_text4 (bits : BitVec 32) : bits4? (text4 bits) = some bits := bits4?_eq_some_iff.mpr rfl

theorem isAsciiDigit_or_eq_of_mem_text4 {bits : BitVec 32} {c : CodePoint} (h : c ∈ text4 bits) :
    c.isAsciiDigit = true ∨ c = .ofChar '.' := by
  rw [text4_eq] at h
  rcases Text.mem_or_exists_mem_of_mem_join h with hpoint | ⟨piece, hpiece, hmem⟩
  · exact Or.inr (List.mem_singleton.mp hpoint)
  · obtain ⟨x, -, rfl⟩ := List.mem_map.mp hpiece
    exact Or.inl (Text.isAsciiDigit_of_mem_ofNat hmem)

theorem not_mem_text4 {bits : BitVec 32} {c : CodePoint} (hc : c.hexValue? = none)
    (hpoint : c ≠ .ofChar '.') : c ∉ text4 bits := by
  intro hmem
  rcases isAsciiDigit_or_eq_of_mem_text4 hmem with hdigit | heq
  · simp [CodePoint.hexValue?, hdigit] at hc
  · exact hpoint heq

end Address

end UploadGate
