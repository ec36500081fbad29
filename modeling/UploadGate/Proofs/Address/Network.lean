/-
  UploadGate/Proofs/Address/Network.lean
  ======================================
  **Ranges of addresses: which texts are read, and what lies inside.**

  `Denotes` says how a range may be written: an address, and behind a slash the
  length of a prefix or, in the short family, a mask that stands for it.  Bits of
  the address behind the prefix may be set, as they are cleared; so reading a
  range (`parse?_eq_some_iff`) comes down to an address and a length, and an
  address lies inside just when it agrees with that address in the prefix
  (`contains_ofPrefix_iff`).
-/
import UploadGate.Address.Network
import UploadGate.Proofs.Address.Canonical

namespace UploadGate

/-! ### Prefixes -/

namespace Address

def width : Address → Nat
  | .v4 _ => 32
  | .v6 _ _ => 128

/-- Two addresses are of one family, and their first `k` bits coincide; scopes do not count. -/
def SharesPrefix (k : Nat) : Address → Address → Prop
  | .v4 a, .v4 b => ∀ i < k, a.getMsbD i = b.getMsbD i
  | .v6 a _, .v6 b _ => ∀ i < k, a.getMsbD i = b.getMsbD i
  | _, _ => False

end Address

namespace Network

section Masks

variable {w k k' : Nat}

theorem getMsbD_mask (hk : k ≤ w) (i : Nat) : (mask w k).getMsbD i = decide (i < k) := by
  rw [mask, BitVec.getMsbD_shiftLeft, BitVec.getMsbD_allOnes, decide_eq_decide]
  omega

theorem eq_mask_iff (hk : k ≤ w) {bits : BitVec w} :
    bits = mask w k ↔ ∀ i < w, bits.getMsbD i = decide (i < k) := by
  constructor
  · rintro rfl i -
    exact getMsbD_mask hk i
  · intro h
    refine BitVec.eq_of_getMsbD_eq ?_
    intro i hi
    rw [h i hi, getMsbD_mask hk]

theorem mask_inj (hk : k ≤ w) (hk' : k' ≤ w) (h : mask w k = mask w k') : k = k' := by
  have hbit : ∀ i, i < k ↔ i < k' := by
    intro i
    rw [← decide_eq_decide, ← getMsbD_mask hk, ← getMsbD_mask hk', h]
  have hle := hbit k'
  have hge := hbit k
  omega

/-- Clearing what is behind a prefix leaves the prefix and nothing else. -/
theorem and_mask_eq_and_mask_iff (hk : k ≤ w) {a b : BitVec w} :
    a &&& mask w k = b &&& mask w k ↔ ∀ i < k, a.getMsbD i = b.getMsbD i := by
  constructor
  · intro h i hi
    have hbit := congrArg (fun bits => BitVec.getMsbD bits i) h
    simpa only [BitVec.getMsbD_and, getMsbD_mask hk, hi, decide_true, Bool.and_true] using hbit
  · intro h
    refine BitVec.eq_of_getMsbD_eq ?_
    intro i _
    rw [BitVec.getMsbD_and, BitVec.getMsbD_and, getMsbD_mask hk]
    by_cases hi : i < k
    · rw [h i hi]
    · rw [decide_eq_false hi, Bool.and_false, Bool.and_false]

theorem maskLength?_eq_some_iff {bits : BitVec w} :
    maskLength? bits = some k ↔ k ≤ w ∧ ∀ i < w, bits.getMsbD i = decide (i < k) := by
  rw [maskLength?, List.find?_range_eq_some, List.mem_range, decide_eq_true_eq]
  constructor
  · rintro ⟨hmask, hlt, -⟩
    have hk := Nat.le_of_lt_succ hlt
    exact ⟨hk, (eq_mask_iff hk).mp hmask.symm⟩
  · rintro ⟨hk, hbits⟩
    have hmask := (eq_mask_iff hk).mpr hbits
    refine ⟨hmask.symm, Nat.lt_succ_of_le hk, ?_⟩
    intro j hj
    rw [Bool.not_eq_true', decide_eq_false_iff_not, hmask]
    intro hsame
    have heq := mask_inj (Nat.le_trans (Nat.le_of_lt hj) hk) hk hsame
    omega

end Masks

/-! ### How ranges are written -/

def IsNetmask (bits : BitVec 32) (k : Nat) : Prop := k ≤ 32 ∧ ∀ i < 32, bits.getMsbD i = decide (i < k)

/-- A mask of `k` zeros and then ones.  Zeros alone and ones alone are no masks of this kind:
    these are read as masks of ones and then zeros. -/
def IsHostmask (bits : BitVec 32) (k : Nat) : Prop :=
  (0 < k ∧ k < 32) ∧ ∀ i < 32, bits.getMsbD i = decide (k ≤ i)

/-- The ways to write the length of a prefix of an address. -/
inductive SpellsLength : Address → Text → Nat → Prop
  | digits {p : Address} {s : Text} {k : Nat} (numeral : Text.IsNumeral s k)
      (within : s.length ≤ NumberReader.digitLimit) (fits : k ≤ p.width) : SpellsLength p s k
  | netmask {p m : BitVec 32} {k : Nat} (isMask : IsNetmask m k) : SpellsLength (.v4 p) (Address.text4 m) k
  | hostmask {p m : BitVec 32} {k : Nat} (isMask : IsHostmask m k) : SpellsLength (.v4 p) (Address.text4 m) k

abbrev slash : CodePoint := .ofChar '/'

/-- A text denotes the range of the addresses that have the first `k` bits of `p`. -/
inductive Denotes : Text → Address → Nat → Prop
  | alone {t : Text} {p : Address} (spelled : Address.Spells t p) : Denotes t p p.width
  | cut {t s : Text} {p : Address} {k : Nat} (spelled : Address.Spells t p) (length : SpellsLength p s k) :
      Denotes (t ++ slash :: s) p k

theorem SpellsLength.le_width {p : Address} {s : Text} {k : Nat} (h : SpellsLength p s k) : k ≤ p.width := by
  cases h with
  | digits _ _ hfits => exact hfits
  | netmask hmask => exact hmask.1
  | hostmask hmask => exact Nat.le_of_lt hmask.1.2

theorem Denotes.le_width {t : Text} {p : Address} {k : Nat} (h : Denotes t p k) : k ≤ p.width := by
  cases h with
  | alone _ => exact Nat.le_refl _
  | cut _ hlength => exact hlength.le_width

/-! ### Reading lengths -/

theorem prefixLength?_eq_some_iff {w k : Nat} {s : Text} :
    prefixLength? w s = some k ↔ Text.IsNumeral s k ∧ s.length ≤ NumberReader.digitLimit ∧ k ≤ w := by
  unfold prefixLength?
  split
  · rename_i hlong
    refine iff_of_false nofun ?_
    rintro ⟨-, hshort, -⟩
    omega
  · rename_i hshort
    rw [Option.filter_eq_some_iff, Text.decimal?_eq_some_iff, decide_eq_true_eq]
    exact ⟨fun ⟨hnumeral, hfits⟩ => ⟨hnumeral, Nat.le_of_not_lt hshort, hfits⟩,
      fun ⟨hnumeral, _, hfits⟩ => ⟨hnumeral, hfits⟩⟩

theorem prefixLength?_text4 (w : Nat) (m : BitVec 32) : prefixLength? w (Address.text4 m) = none := by
  cases hlength : prefixLength? w (Address.text4 m) with
  | none => rfl
  | some k =>
    have hdigit := Text.isAsciiDigit_of_isNumeral (prefixLength?_eq_some_iff.mp hlength).1 _
      (Address.point_mem_text4 m)
    exact absurd hdigit (by decide)

theorem maskLength?_of_isHostmask {m : BitVec 32} {k : Nat} (h : IsHostmask m k) : maskLength? m = none := by
  obtain ⟨⟨hpos, hlt⟩, hbits⟩ := h
  cases hlength : maskLength? m with
  | none => rfl
  | some n =>
    -- The first bit is a zero, so the mask has no ones, but the last bit is a one.
    obtain ⟨-, hmask⟩ := maskLength?_eq_some_iff.mp hlength
    have hfirst := (hmask 0 (by decide)).symm.trans (hbits 0 (by decide))
    have hlast := (hmask 31 (by decide)).symm.trans (hbits 31 (by decide))
    rw [decide_eq_decide] at hfirst hlast
    omega

theorem isHostmask_of_maskLength?_not {m : BitVec 32} {k : Nat} (hnot : maskLength? m = none)
    (h : maskLength? (~~~m) = some k) : IsHostmask m k := by
  obtain ⟨hk, hbits⟩ := maskLength?_eq_some_iff.mp h
  have hmask : ∀ i < 32, m.getMsbD i = decide (k ≤ i) := by
    intro i hi
    have hbit := hbits i hi
    rw [BitVec.getMsbD_not, decide_eq_true hi, Bool.true_and, Bool.not_eq_eq_eq_not] at hbit
    rw [hbit, ← decide_not, decide_eq_decide, Nat.not_lt]
  have hnetmask : ∀ n, n ≤ 32 → ¬ ∀ i < 32, m.getMsbD i = decide (i < n) := by
    intro n hn hones
    rw [maskLength?_eq_some_iff.mpr ⟨hn, hones⟩] at hnot
    cases hnot
  refine ⟨⟨?_, ?_⟩, hmask⟩
  · rw [Nat.pos_iff_ne_zero]
    rintro rfl
    refine hnetmask 32 (Nat.le_refl _) ?_
    intro i hi
    rw [hmask i hi, decide_eq_decide]
    omega
  · refine Nat.lt_of_le_of_ne hk ?_
    rintro rfl
    refine hnetmask 0 (Nat.zero_le _) ?_
    intro i hi
    rw [hmask i hi, decide_eq_decide]
    omega

theorem maskLength?_not_of_isHostmask {m : BitVec 32} {k : Nat} (h : IsHostmask m k) :
    maskLength? (~~~m) = some k := by
  obtain ⟨⟨-, hlt⟩, hbits⟩ := h
  refine maskLength?_eq_some_iff.mpr ⟨Nat.le_of_lt hlt, ?_⟩
  intro i hi
  rw [BitVec.getMsbD_not, decide_eq_true hi, Bool.true_and, hbits i hi, ← decide_not, decide_eq_decide, Nat.not_le]

theorem length4?_eq_some_iff {s : Text} {k : Nat} (p : BitVec 32) :
    length4? s = some k ↔ SpellsLength (.v4 p) s k := by
  unfold length4?
  constructor
  · intro h
    split at h
    · rename_i n hn
      obtain rfl := Option.some.inj h
      obtain ⟨hnumeral, hwithin, hfits⟩ := prefixLength?_eq_some_iff.mp hn
      exact .digits hnumeral hwithin hfits
    · split at h
      · cases h
      · rename_i m hm
        rw [Address.bits4?_eq_some_iff.mp hm]
        split at h
        · rename_i n hn
          obtain rfl := Option.some.inj h
          exact .netmask (maskLength?_eq_some_iff.mp hn)
        · rename_i hnot
          exact .hostmask (isHostmask_of_maskLength?_not hnot h)
  · intro h
    cases h with
    | digits hnumeral hwithin hfits =>
      have hlength : prefixLength? 32 s = some k := prefixLength?_eq_some_iff.mpr ⟨hnumeral, hwithin, hfits⟩
      rw [hlength]
    | netmask hmask =>
      simp only [prefixLength?_text4, Address.bits4?_text4, maskLength?_eq_some_iff.mpr hmask]
    | hostmask hmask =>
      simp only [prefixLength?_text4, Address.bits4?_text4, maskLength?_of_isHostmask hmask,
        maskLength?_not_of_isHostmask hmask]

theorem prefixLength?_128_eq_some_iff {s : Text} {k : Nat} (bits : BitVec 128) (scope? : Option Text) :
    prefixLength? 128 s = some k ↔ SpellsLength (.v6 bits scope?) s k := by
  rw [prefixLength?_eq_some_iff]
  constructor
  · rintro ⟨hnumeral, hwithin, hfits⟩
    exact .digits hnumeral hwithin hfits
  · intro h
    cases h with
    | digits hnumeral hwithin hfits => exact ⟨hnumeral, hwithin, hfits⟩

/-! ### Reading ranges -/

def ofPrefix : Address → Nat → Network
  | .v4 bits, k => .v4 (bits &&& mask 32 k) k
  | .v6 bits scope?, k => .v6 (bits &&& mask 128 k) (if bits &&& mask 128 k = bits then scope? else none) k

/-- The length behind an address, whose width it is where nothing stands behind it. -/
def SpellsEnd (p : Address) (s? : Option Text) (k : Nat) : Prop :=
  s?.elim (k = p.width) fun s => SpellsLength p s k

theorem parse4?_eq_some_iff {t : Text} {s? : Option Text} {n : Network} :
    parse4? t s? = some n ↔
      ∃ bits k, t = Address.text4 bits ∧ SpellsEnd (.v4 bits) s? k ∧ ofPrefix (.v4 bits) k = n := by
  have hlength : ∀ bits k, s?.elim (some 32) length4? = some k ↔ SpellsEnd (.v4 bits) s? k := by
    intro bits k
    cases s? with
    | none => exact Option.some_inj.trans eq_comm
    | some s => exact length4?_eq_some_iff bits
  unfold parse4?
  simp only [Option.bind_eq_bind, Option.bind_eq_some_iff, Address.bits4?_eq_some_iff, Option.some_inj]
  constructor
  · rintro ⟨bits, ht, k, hk, hn⟩
    exact ⟨bits, k, ht, (hlength bits k).mp hk, hn⟩
  · rintro ⟨bits, k, ht, hk, hn⟩
    exact ⟨bits, ht, k, (hlength bits k).mpr hk, hn⟩

theorem parse6?_eq_some_iff {t : Text} {s? : Option Text} {n : Network} :
    parse6? t s? = some n ↔ ∃ bits scope? k, Address.Spells t (.v6 bits scope?)
      ∧ SpellsEnd (.v6 bits scope?) s? k ∧ ofPrefix (.v6 bits scope?) k = n := by
  have hlength : ∀ bits scope? k,
      s?.elim (some 128) (prefixLength? 128) = some k ↔ SpellsEnd (.v6 bits scope?) s? k := by
    intro bits scope? k
    cases s? with
    | none => exact Option.some_inj.trans eq_comm
    | some s => exact prefixLength?_128_eq_some_iff bits scope?
  unfold parse6?
  simp only [Option.bind_eq_bind, Option.bind_eq_some_iff, Option.some_inj, Prod.exists,
    Address.long?_eq_some_iff]
  constructor
  · rintro ⟨bits, scope?, ht, k, hk, hn⟩
    exact ⟨bits, scope?, k, ht, (hlength bits scope? k).mp hk, hn⟩
  · rintro ⟨bits, scope?, k, ht, hk, hn⟩
    exact ⟨bits, scope?, ht, k, (hlength bits scope? k).mpr hk, hn⟩

/-- The family is told by the text of the address. -/
theorem parse4?_or_parse6?_eq_some_iff {t : Text} {s? : Option Text} {n : Network} :
    (parse4? t s?).or (parse6? t s?) = some n ↔
      ∃ p k, Address.Spells t p ∧ SpellsEnd p s? k ∧ ofPrefix p k = n := by
  rw [Option.or_eq_some_iff]
  constructor
  · rintro (h4 | ⟨-, h6⟩)
    · obtain ⟨bits, k, rfl, hk, hn⟩ := parse4?_eq_some_iff.mp h4
      exact ⟨.v4 bits, k, .short bits, hk, hn⟩
    · obtain ⟨bits, scope?, k, ht, hk, hn⟩ := parse6?_eq_some_iff.mp h6
      exact ⟨.v6 bits scope?, k, ht, hk, hn⟩
  · rintro ⟨p, k, ht, hk, hn⟩
    cases p with
    | v4 bits =>
      cases ht
      exact Or.inl (parse4?_eq_some_iff.mpr ⟨bits, k, rfl, hk, hn⟩)
    | v6 bits scope? =>
      -- The long family is tried only where the short one fails.
      refine Or.inr ⟨?_, parse6?_eq_some_iff.mpr ⟨bits, scope?, k, ht, hk, hn⟩⟩
      rw [parse4?, Address.bits4?_of_colon_mem ht.colon_mem]
      rfl

theorem join_slash (t s : Text) : Text.join [slash] [t, s] = t ++ slash :: s := List.append_assoc t [slash] s

theorem SpellsLength.slash_not_mem {p : Address} {s : Text} {k : Nat} (h : SpellsLength p s k) : slash ∉ s := by
  cases h with
  | digits hnumeral _ _ =>
    intro hmem
    exact absurd (Text.isAsciiDigit_of_isNumeral hnumeral _ hmem) (by decide)
  | netmask _ => exact Address.not_mem_text4 rfl (by decide)
  | hostmask _ => exact Address.not_mem_text4 rfl (by decide)

/-- **A range is read from the texts that denote it**, and from no others. -/
theorem parse?_eq_some_iff {t : Text} {n : Network} :
    parse? t = some n ↔ ∃ p k, Denotes t p k ∧ ofPrefix p k = n := by
  unfold parse?
  constructor
  · intro h
    have hjoin := Text.join_splitOn slash t
    split at h
    · rename_i address hsplit
      rw [hsplit] at hjoin
      obtain rfl : address = t := hjoin
      obtain ⟨p, k, hspelled, rfl, hn⟩ := parse4?_or_parse6?_eq_some_iff.mp h
      exact ⟨p, p.width, .alone hspelled, hn⟩
    · rename_i address length hsplit
      rw [hsplit] at hjoin
      obtain ⟨p, k, hspelled, hlength, hn⟩ := parse4?_or_parse6?_eq_some_iff.mp h
      refine ⟨p, k, ?_, hn⟩
      rw [← hjoin, join_slash]
      exact .cut hspelled hlength
    · cases h
  · rintro ⟨p, k, hdenotes, hn⟩
    cases hdenotes with
    | alone hspelled =>
      have hsplit : t.splitOn slash = [t] :=
        (Text.splitOn_eq_iff (List.cons_ne_nil _ _)).mpr ⟨rfl, by simpa using hspelled.slash_not_mem⟩
      rw [hsplit]
      exact parse4?_or_parse6?_eq_some_iff.mpr ⟨p, _, hspelled, rfl, hn⟩
    | cut hspelled hlength =>
      rename_i address s
      have hsplit : (address ++ slash :: s).splitOn slash = [address, s] := by
        refine (Text.splitOn_eq_iff (List.cons_ne_nil _ _)).mpr ⟨join_slash address s, ?_⟩
        simpa using ⟨hspelled.slash_not_mem, hlength.slash_not_mem⟩
      rw [hsplit]
      exact parse4?_or_parse6?_eq_some_iff.mpr ⟨p, k, hspelled, hlength, hn⟩

/-! ### What lies inside -/

/-- **An address lies in a range** just when it agrees with the address of the range in the
    prefix. -/
theorem contains_ofPrefix_iff {p a : Address} {k : Nat} (hk : k ≤ p.width) :
    (ofPrefix p k).contains a = true ↔ a.SharesPrefix k p := by
  cases p with
  | v4 bits =>
    cases a with
    | v4 address => exact decide_eq_true_iff.trans (and_mask_eq_and_mask_iff hk)
    | v6 address scope? => exact iff_of_false Bool.false_ne_true id
  | v6 bits scope? =>
    cases a with
    | v4 address => exact iff_of_false Bool.false_ne_true id
    | v6 address scope? => exact decide_eq_true_iff.trans (and_mask_eq_and_mask_iff hk)

end Network

end UploadGate
