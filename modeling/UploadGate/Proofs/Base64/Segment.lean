/-
  UploadGate/Proofs/Base64/Segment.lean
  =====================================
  **Which texts are segments of a token, and of which octets.**

  What a segment stands for is said bit by bit: the bits of its characters in
  order are the bits of its octets in order, and fewer than six more, which mean
  nothing.  That leaves no number of characters that is one more than a multiple
  of four.  The padding is absent, or completes the last group of four.  The
  reader of segments accepts just these texts (`decodeSegment?_eq_some_iff`).
-/
import UploadGate.Base64

namespace UploadGate.Base64

/-! ### Bits -/

def digits (weights : List Nat) (n : Nat) : List Bool := weights.map fun weight => n / weight % 2 = 1

def sixBits (v : BitVec 6) : List Bool := digits [32, 16, 8, 4, 2, 1] v.toNat

def octetBits (b : UInt8) : List Bool := digits [128, 64, 32, 16, 8, 4, 2, 1] b.toNat

/-- Characters of an alphabet stand for octets: the bits agree, but for fewer than
    six behind the last octet. -/
def Alphabet.Encodes (α : Alphabet) (data : Text) (bytes : Bytes) : Prop :=
  ∃ (values : List (BitVec 6)) (spare : List Bool), data.map α.value? = values.map some
    ∧ values.flatMap sixBits = bytes.flatMap octetBits ++ spare ∧ spare.length < 6

/-- The padding signs that complete the last group of four. -/
def completion (data : Text) : Text := List.replicate ((4 - data.length % 4) % 4) pad

/-- A text is the segment of a token that stands for octets, padded or bare. -/
def IsSegment (t : Text) (bytes : Bytes) : Prop :=
  ∃ data, urlSafe.Encodes data bytes ∧ (t = data ∨ t = data ++ completion data)

/-! ### Groups of bits -/

@[simp] theorem length_sixBits (v : BitVec 6) : (sixBits v).length = 6 := rfl

@[simp] theorem length_octetBits (b : UInt8) : (octetBits b).length = 8 := rfl

theorem sixBits_two (x y : BitVec 6) :
    sixBits x ++ sixBits y = octetBits (octet1 x y) ++ (sixBits y).drop 2 := by
  have hx := x.isLt
  have hy := y.isLt
  simp only [sixBits, octetBits, digits, octet1, UInt8.toNat_ofNat', List.map_cons, List.map_nil,
    List.drop_succ_cons, List.drop_zero, List.cons_append, List.nil_append, List.cons.injEq,
    decide_eq_decide, and_true]
  omega

theorem sixBits_drop_two (y z : BitVec 6) :
    (sixBits y).drop 2 ++ sixBits z = octetBits (octet2 y z) ++ (sixBits z).drop 4 := by
  have hy := y.isLt
  have hz := z.isLt
  simp only [sixBits, octetBits, digits, octet2, UInt8.toNat_ofNat', List.map_cons, List.map_nil,
    List.drop_succ_cons, List.drop_zero, List.cons_append, List.nil_append, List.cons.injEq,
    decide_eq_decide, and_true]
  omega

theorem sixBits_drop_four (z w : BitVec 6) :
    (sixBits z).drop 4 ++ sixBits w = octetBits (octet3 z w) := by
  have hz := z.isLt
  have hw := w.isLt
  simp only [sixBits, octetBits, digits, octet3, UInt8.toNat_ofNat', List.map_cons, List.map_nil,
    List.drop_succ_cons, List.drop_zero, List.cons_append, List.nil_append, List.cons.injEq,
    decide_eq_decide, and_true]
  omega

theorem foldl_digits_octet :
    ∀ n < 256, (digits [128, 64, 32, 16, 8, 4, 2, 1] n).foldl (fun m bit => 2 * m + bit.toNat) 0 = n := by
  decide +kernel

/-- An octet is known by its bits. -/
theorem octetBits_injective {a b : UInt8} (h : octetBits a = octetBits b) : a = b := by
  apply UInt8.toNat_inj.mp
  rw [← foldl_digits_octet a.toNat a.toNat_lt, ← foldl_digits_octet b.toNat b.toNat_lt]
  exact congrArg _ h

/-! ### One text, one meaning -/

/-- Octets with less than an octet behind them are known by the bits of the whole. -/
theorem flatMap_octetBits_injective {as bs : Bytes} {r s : List Bool}
    (h : as.flatMap octetBits ++ r = bs.flatMap octetBits ++ s) (hr : r.length < 8)
    (hs : s.length < 8) : as = bs := by
  induction as generalizing bs with
  | nil =>
    cases bs with
    | nil => rfl
    | cons b bs =>
      have hlength := congrArg List.length h
      simp only [List.flatMap_nil, List.flatMap_cons, List.length_append, length_octetBits,
        List.nil_append] at hlength
      omega
  | cons a as ih =>
    cases bs with
    | nil =>
      have hlength := congrArg List.length h
      simp only [List.flatMap_nil, List.flatMap_cons, List.length_append, length_octetBits,
        List.nil_append] at hlength
      omega
    | cons b bs =>
      rw [List.flatMap_cons, List.flatMap_cons, List.append_assoc, List.append_assoc] at h
      obtain ⟨hhead, htail⟩ := List.append_inj h rfl
      rw [octetBits_injective hhead, ih htail]

theorem map_some_injective {vs ws : List (BitVec 6)} (h : vs.map some = ws.map some) : vs = ws :=
  (List.map_inj_right fun _ _ => Option.some.inj).mp h

theorem Alphabet.Encodes.unique {α : Alphabet} {data : Text} {as bs : Bytes} (ha : α.Encodes data as)
    (hb : α.Encodes data bs) : as = bs := by
  obtain ⟨vs, r, hvs, hr, hrlt⟩ := ha
  obtain ⟨ws, s, hws, hs, hslt⟩ := hb
  obtain rfl := map_some_injective (hvs.symm.trans hws)
  exact flatMap_octetBits_injective (hr.symm.trans hs) (by omega) (by omega)

/-! ### Reading bare text -/

theorem Alphabet.Encodes.cons {α : Alphabet} {a b c d : CodePoint} {x y z w : BitVec 6}
    (ha : α.value? a = some x) (hb : α.value? b = some y) (hc : α.value? c = some z)
    (hd : α.value? d = some w) {data : Text} {bytes : Bytes} (h : α.Encodes data bytes) :
    α.Encodes (a :: b :: c :: d :: data) (octet1 x y :: octet2 y z :: octet3 z w :: bytes) := by
  obtain ⟨values, spare, hvalues, hbits, hspare⟩ := h
  refine ⟨x :: y :: z :: w :: values, spare, ?_, ?_, hspare⟩
  · simp only [List.map_cons, ha, hb, hc, hd, hvalues]
  · calc (x :: y :: z :: w :: values).flatMap sixBits
        = (sixBits x ++ sixBits y) ++ sixBits z ++ sixBits w ++ values.flatMap sixBits := by
          simp only [List.flatMap_cons, List.append_assoc]
      _ = octetBits (octet1 x y) ++ octetBits (octet2 y z) ++ octetBits (octet3 z w)
            ++ values.flatMap sixBits := by
          rw [sixBits_two, List.append_assoc (octetBits _), sixBits_drop_two, ← List.append_assoc,
            List.append_assoc (octetBits _ ++ octetBits _), sixBits_drop_four]
      _ = _ := by simp only [hbits, List.flatMap_cons, List.append_assoc]

/-- What is read from bare text is what its bits say. -/
theorem encodes_of_decodeBare {α : Alphabet} {data : Text} {bytes : Bytes}
    (h : decodeBare α data = some bytes) : α.Encodes data bytes := by
  fun_induction decodeBare α data generalizing bytes with
  | case1 =>
    obtain rfl := Option.some.inj h
    exact ⟨[], [], rfl, rfl, by decide⟩
  | case2 => cases h
  | case3 a b =>
    simp only [Option.bind_eq_bind, Option.bind_eq_some_iff, Option.some.injEq] at h
    obtain ⟨x, hx, y, hy, rfl⟩ := h
    refine ⟨[x, y], (sixBits y).drop 2, by simp [hx, hy], ?_, by simp⟩
    simpa using sixBits_two x y
  | case4 a b c =>
    simp only [Option.bind_eq_bind, Option.bind_eq_some_iff, Option.some.injEq] at h
    obtain ⟨x, hx, y, hy, z, hz, rfl⟩ := h
    refine ⟨[x, y, z], (sixBits z).drop 4, by simp [hx, hy, hz], ?_, by simp⟩
    calc [x, y, z].flatMap sixBits = (sixBits x ++ sixBits y) ++ sixBits z := by simp
      _ = octetBits (octet1 x y) ++ octetBits (octet2 y z) ++ (sixBits z).drop 4 := by
        rw [sixBits_two, List.append_assoc, sixBits_drop_two, List.append_assoc]
      _ = _ := by simp
  | case5 a b c d rest ih =>
    simp only [Option.bind_eq_bind, Option.bind_eq_some_iff, Option.some.injEq] at h
    obtain ⟨x, hx, y, hy, z, hz, w, hw, more, hmore, rfl⟩ := h
    exact (ih hmore).cons hx hy hz hw

/-- The number of characters that stand for octets is not one more than a multiple of
    four. -/
theorem Alphabet.Encodes.length_mod_four_ne_one {α : Alphabet} {data : Text} {bytes : Bytes}
    (h : α.Encodes data bytes) : data.length % 4 ≠ 1 := by
  obtain ⟨values, spare, hvalues, hbits, hspare⟩ := h
  have hcount := congrArg List.length hvalues
  have hlength := congrArg List.length hbits
  simp only [List.length_map] at hcount
  simp only [List.length_append, List.length_flatMap, length_sixBits, length_octetBits,
    List.map_const', List.sum_replicate_nat] at hlength
  omega

/-- Characters that stand for octets have values. -/
theorem Alphabet.Encodes.exists_value? {α : Alphabet} {data : Text} {bytes : Bytes} (h : α.Encodes data bytes) :
    ∀ c ∈ data, ∃ v, α.value? c = some v := by
  intro c hc
  obtain ⟨values, spare, hvalues, -⟩ := h
  have hmem : α.value? c ∈ values.map some := hvalues ▸ List.mem_map_of_mem hc
  obtain ⟨v, -, hv⟩ := List.mem_map.mp hmem
  exact ⟨v, hv.symm⟩

/-- Characters of the alphabet in any other number are read. -/
theorem exists_decodeBare {α : Alphabet} {data : Text} (hsome : ∀ c ∈ data, ∃ v, α.value? c = some v)
    (hlength : data.length % 4 ≠ 1) : ∃ bytes, decodeBare α data = some bytes := by
  fun_induction decodeBare α data with
  | case1 => exact ⟨[], rfl⟩
  | case2 => exact absurd rfl hlength
  | case3 a b =>
    obtain ⟨x, hx⟩ := hsome a (by simp)
    obtain ⟨y, hy⟩ := hsome b (by simp)
    exact ⟨_, by rw [hx, hy]; rfl⟩
  | case4 a b c =>
    obtain ⟨x, hx⟩ := hsome a (by simp)
    obtain ⟨y, hy⟩ := hsome b (by simp)
    obtain ⟨z, hz⟩ := hsome c (by simp)
    exact ⟨_, by rw [hx, hy, hz]; rfl⟩
  | case5 a b c d rest ih =>
    obtain ⟨x, hx⟩ := hsome a (by simp)
    obtain ⟨y, hy⟩ := hsome b (by simp)
    obtain ⟨z, hz⟩ := hsome c (by simp)
    obtain ⟨w, hw⟩ := hsome d (by simp)
    obtain ⟨bytes, hbytes⟩ := ih (fun e he => hsome e (by simp [he]))
      (by simp only [List.length_cons] at hlength; omega)
    exact ⟨_, by rw [hx, hy, hz, hw, hbytes]; rfl⟩

/-- **Bare text reads as the octets it stands for**, and as nothing else. -/
theorem decodeBare_eq_some_iff {α : Alphabet} {data : Text} {bytes : Bytes} :
    decodeBare α data = some bytes ↔ α.Encodes data bytes := by
  constructor
  · exact encodes_of_decodeBare
  · intro h
    obtain ⟨bytes', hbytes'⟩ := exists_decodeBare h.exists_value? h.length_mod_four_ne_one
    rw [hbytes', (encodes_of_decodeBare hbytes').unique h]

/-! ### Reading a segment -/

/-- Characters that stand for octets hold no padding sign. -/
theorem Alphabet.Encodes.ne_pad {α : Alphabet} (hα : α.value? pad = none) {data : Text} {bytes : Bytes}
    (h : α.Encodes data bytes) : ∀ c ∈ data, c ≠ pad := by
  rintro c hc rfl
  obtain ⟨v, hv⟩ := h.exists_value? pad hc
  rw [hα] at hv
  cases hv

/-- Where the padding starts, if signs of an alphabet stand before it. -/
theorem decodeSegment?_append {data padding : Text} (hdata : ∀ c ∈ data, c ≠ pad)
    (hpadding : ∀ c ∈ padding, c = pad) :
    decodeSegment? (data ++ padding) =
      if padding.length ≤ 2 ∧ (padding = [] ∨ (data.length + padding.length) % 4 = 0) then
        decodeBare urlSafe data
      else none := by
  have hstop : padding.takeWhile (fun c => decide (c ≠ pad)) = [] := by
    cases padding with
    | nil => rfl
    | cons c rest => simp [hpadding c]
  have hall : ∀ c ∈ data, decide (c ≠ pad) = true := fun c hc => decide_eq_true (hdata c hc)
  have htake : (data ++ padding).takeWhile (fun c => decide (c ≠ pad)) = data := by
    rw [List.takeWhile_append_of_pos hall, hstop, List.append_nil]
  have hdrop : (data ++ padding).dropWhile (fun c => decide (c ≠ pad)) = padding := by
    have hsplit := List.takeWhile_append_dropWhile (p := fun c => decide (c ≠ pad)) (l := padding)
    rw [hstop, List.nil_append] at hsplit
    rw [List.dropWhile_append_of_pos hall, hsplit]
  have hpads : (padding.all fun c => decide (c = pad)) = true := by simpa using hpadding
  simp only [decodeSegment?, htake, hdrop, hpads, Bool.true_and, Bool.and_eq_true, Bool.or_eq_true,
    List.isEmpty_iff, decide_eq_true_eq, beq_iff_eq]

/-- **Which texts are segments**: a text reads as octets just when it is a segment that
    stands for them. -/
theorem decodeSegment?_eq_some_iff {t : Text} {bytes : Bytes} :
    decodeSegment? t = some bytes ↔ IsSegment t bytes := by
  constructor
  · intro h
    have hcut : t.takeWhile (fun c => decide (c ≠ pad)) ++ t.dropWhile (fun c => decide (c ≠ pad)) = t :=
      List.takeWhile_append_dropWhile
    unfold decodeSegment? at h
    simp only at h
    generalize t.takeWhile (fun c => decide (c ≠ pad)) = data at h hcut
    generalize t.dropWhile (fun c => decide (c ≠ pad)) = padding at h hcut
    subst hcut
    split at h
    · rename_i hform
      simp only [Bool.and_eq_true, Bool.or_eq_true, List.all_eq_true, List.isEmpty_iff,
        decide_eq_true_eq, beq_iff_eq] at hform
      obtain ⟨⟨hpads, hle⟩, hcount⟩ := hform
      refine ⟨data, decodeBare_eq_some_iff.mp h, ?_⟩
      rcases hcount with rfl | hcount
      · exact Or.inl (List.append_nil data)
      · right
        have hlength : (4 - data.length % 4) % 4 = padding.length := by omega
        rw [completion, hlength, ← List.eq_replicate_of_mem hpads]
    · cases h
  · rintro ⟨data, hdata, ht⟩
    have hne := hdata.ne_pad (by decide)
    have hlength := hdata.length_mod_four_ne_one
    have hread := decodeBare_eq_some_iff.mpr hdata
    rcases ht with rfl | rfl
    · have hbare := decodeSegment?_append hne (List.forall_mem_nil fun c => c = pad)
      rw [List.append_nil] at hbare
      rw [hbare, if_pos (by simp), hread]
    · have hpadding : ∀ c ∈ completion data, c = pad := fun c hc => List.eq_of_mem_replicate hc
      rw [decodeSegment?_append hne hpadding, if_pos ?_, hread]
      simp only [completion, List.length_replicate]
      omega

end UploadGate.Base64
