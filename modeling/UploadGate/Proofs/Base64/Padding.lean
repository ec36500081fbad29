/-
  UploadGate/Proofs/Base64/Padding.lean
  =====================================
  **Which texts are read as padded Base64.**

  A text may be read as some octets for two reasons.  It is the padded form of the
  octets, but for the bits of the last data character that mean nothing (`IsPadded`).
  Or it is the padded form of complete groups, which needs no padding, and has padding
  signs behind it all the same (`HasSurplus`).  These are all texts that are read
  (`decodePadded?_eq_some_iff`), and none of them is both.
-/
import UploadGate.Proofs.Base64.Encoding

namespace UploadGate.Base64

variable {α : Alphabet} {t : Text} {bytes : Bytes}

/-! ### The two kinds of text -/

/-- How many low bits of the last data character mean nothing. -/
def spareBits (bytes : Bytes) : Nat := (6 - 8 * bytes.length % 6) % 6

def padding (bytes : Bytes) : Text := List.replicate ((3 - bytes.length % 3) % 3) pad

/-- A text is the padded form of some octets, or differs from it in the spare bits of the last
    data character only. -/
inductive Alphabet.IsPadded (α : Alphabet) (bytes : Bytes) : Text → Prop
  | written : α.IsPadded bytes (encodeWith α bytes)
  | respelled {front : Text} {c d : CodePoint} {x y : BitVec 6}
      (form : encodeWith α bytes = front ++ d :: padding bytes) (read : α.value? c = some x)
      (wrote : α.value? d = some y) (agree : x >>> spareBits bytes = y >>> spareBits bytes) :
      α.IsPadded bytes (front ++ c :: padding bytes)

/-- A text is the padded form of complete groups with padding behind it. -/
def Alphabet.HasSurplus (α : Alphabet) (bytes : Bytes) (t : Text) : Prop :=
  bytes.length % 3 = 0 ∧ ∃ n, t = encodeWith α bytes ++ List.replicate (n + 1) pad

theorem padding_group (a b c : UInt8) (rest : Bytes) : padding (a :: b :: c :: rest) = padding rest := by
  simp [padding, Nat.add_assoc]

theorem spareBits_group (a b c : UInt8) (rest : Bytes) : spareBits (a :: b :: c :: rest) = spareBits rest := by
  simp only [spareBits, List.length_cons]
  omega

/-! ### The shape of the padded form -/

theorem length_encodeWith (α : Alphabet) (bytes : Bytes) :
    (encodeWith α bytes).length = 4 * ((bytes.length + 2) / 3) := by
  fun_induction encodeWith α bytes with
  | case1 => rfl
  | case2 a n => simp
  | case3 a b n => simp
  | case4 a b c rest n ih =>
    simp only [List.length_cons, ih]
    omega

theorem Alphabet.IsProper.pad_ne_char (hα : α.IsProper) (v : BitVec 6) : pad ≠ α.char v := by
  intro h
  have hnone := hα.value?_pad
  rw [h, hα.value?_char] at hnone
  cases hnone

/-- The padded form is made of characters of the alphabet and of the padding that is needed. -/
theorem Alphabet.IsProper.exists_data (hα : α.IsProper) (bytes : Bytes) :
    ∃ data, encodeWith α bytes = data ++ padding bytes ∧ pad ∉ data := by
  induction bytes using encodeWith.induct with
  | case1 => exact ⟨[], rfl, List.not_mem_nil⟩
  | case2 a => exact ⟨[_, _], rfl, by simp [hα.pad_ne_char]⟩
  | case3 a b => exact ⟨[_, _, _], rfl, by simp [hα.pad_ne_char]⟩
  | case4 a b c rest ih =>
    obtain ⟨data, hdata, hpad⟩ := ih
    refine ⟨encodeWith α [a, b, c] ++ data, ?_, ?_⟩
    · rw [encodeWith_group, hdata, padding_group, List.append_assoc]
    · simp [encodeWith, hα.pad_ne_char, hpad]

theorem Alphabet.IsPadded.length_eq (h : α.IsPadded bytes t) : t.length = (encodeWith α bytes).length := by
  cases h with
  | written => rfl
  | respelled form _ _ _ => simp [form]

/-- **The padding of a padded form** is the one that is needed, at the end and nowhere else. -/
theorem Alphabet.IsPadded.exists_data (hα : α.IsProper) (h : α.IsPadded bytes t) :
    ∃ data, t = data ++ padding bytes ∧ pad ∉ data := by
  cases h with
  | written => exact hα.exists_data bytes
  | @respelled front c d x y form read wrote _ =>
    obtain ⟨data, hdata, hpad⟩ := hα.exists_data bytes
    have hfront : front ++ [d] = data := by
      rw [form, List.append_cons] at hdata
      exact List.append_cancel_right hdata
    refine ⟨front ++ [c], List.append_cons front c _, ?_⟩
    rw [List.mem_append, List.mem_singleton]
    rintro (hmem | rfl)
    · exact hpad (hfront ▸ List.mem_append_left [d] hmem)
    · rw [hα.value?_pad] at read
      cases read

/-- No text is of both kinds. -/
theorem Alphabet.IsPadded.not_hasSurplus (h : α.IsPadded bytes t) : ¬ α.HasSurplus bytes t := by
  rintro ⟨-, n, rfl⟩
  have hlength := h.length_eq
  rw [List.length_append, List.length_replicate] at hlength
  omega

/-! ### Characters and their values -/

/-- A character is the one that stands for its value. -/
theorem Alphabet.char_of_value? {c : CodePoint} {v : BitVec 6} (h : α.value? c = some v) : α.char v = c := by
  unfold value? at h
  simp only [Bool.and_eq_true, decide_eq_true_eq] at h
  split at h
  · obtain rfl := Option.some.inj h
    apply Fin.eq_of_val_eq
    simp only [char, BitVec.toNat_ofNat]
    rw [if_pos (by omega)]
    simp only
    omega
  split at h
  · obtain rfl := Option.some.inj h
    apply Fin.eq_of_val_eq
    simp only [char, BitVec.toNat_ofNat]
    rw [if_neg (by omega), if_pos (by omega)]
    simp only
    omega
  split at h
  · obtain rfl := Option.some.inj h
    apply Fin.eq_of_val_eq
    simp only [char, BitVec.toNat_ofNat]
    rw [if_neg (by omega), if_neg (by omega), if_pos (by omega)]
    simp only
    omega
  split at h
  · rename_i hc
    obtain rfl := Option.some.inj h
    exact hc.symm
  split at h
  · rename_i hc
    obtain rfl := Option.some.inj h
    exact hc.symm
  · cases h

theorem toNat_octet1 (x y : BitVec 6) : (octet1 x y).toNat = x.toNat * 4 + y.toNat / 16 := by
  have hx := x.isLt
  have hy := y.isLt
  simp only [octet1, UInt8.toNat_ofNat']
  omega

theorem toNat_octet2 (y z : BitVec 6) : (octet2 y z).toNat = y.toNat % 16 * 16 + z.toNat / 4 := by
  have hz := z.isLt
  simp only [octet2, UInt8.toNat_ofNat']
  omega

theorem toNat_octet3 (z w : BitVec 6) : (octet3 z w).toNat = z.toNat % 4 * 64 + w.toNat := by
  have hw := w.isLt
  simp only [octet3, UInt8.toNat_ofNat']
  omega

theorem ofNat_eq_of_mod {n : Nat} {v : BitVec 6} (h : n % 64 = v.toNat) : BitVec.ofNat 6 n = v :=
  BitVec.eq_of_toNat_eq ((BitVec.toNat_ofNat n 6).trans h)

theorem shiftRight_eq_iff {x y : BitVec 6} {n : Nat} :
    x >>> n = y >>> n ↔ x.toNat >>> n = y.toNat >>> n := by
  rw [← BitVec.toNat_inj, BitVec.toNat_ushiftRight, BitVec.toNat_ushiftRight]

/-! ### The octets of a group, written again -/

theorem encodeWith_octet1 (α : Alphabet) (x y : BitVec 6) :
    encodeWith α [octet1 x y] = [α.char x, α.char (.ofNat 6 (y.toNat / 16 * 16)), pad, pad] := by
  have hx := x.isLt
  have hy := y.isLt
  have hn := toNat_octet1 x y
  rw [encodeWith, ofNat_eq_of_mod (v := x) (by omega),
    show (octet1 x y).toNat % 4 * 16 = y.toNat / 16 * 16 by omega]

theorem encodeWith_octet2 (α : Alphabet) (x y z : BitVec 6) :
    encodeWith α [octet1 x y, octet2 y z]
      = [α.char x, α.char y, α.char (.ofNat 6 (z.toNat / 4 * 4)), pad] := by
  have hx := x.isLt
  have hy := y.isLt
  have hz := z.isLt
  have hn := toNat_octet1 x y
  have hm := toNat_octet2 y z
  rw [encodeWith, ofNat_eq_of_mod (v := x) (by omega), ofNat_eq_of_mod (v := y) (by omega),
    show ((octet1 x y).toNat * 0x100 + (octet2 y z).toNat) % 0x10 * 4 = z.toNat / 4 * 4 by omega]

theorem encodeWith_octet3 (α : Alphabet) (x y z w : BitVec 6) :
    encodeWith α [octet1 x y, octet2 y z, octet3 z w] = [α.char x, α.char y, α.char z, α.char w] := by
  have hx := x.isLt
  have hy := y.isLt
  have hz := z.isLt
  have hw := w.isLt
  have hn := toNat_octet1 x y
  have hm := toNat_octet2 y z
  have hk := toNat_octet3 z w
  rw [encodeWith, ofNat_eq_of_mod (v := x) (by omega), ofNat_eq_of_mod (v := y) (by omega),
    ofNat_eq_of_mod (v := z) (by omega), ofNat_eq_of_mod (v := w) (by omega), encodeWith]

/-! ### What is read is of one of the two kinds -/

theorem Alphabet.IsPadded.group (a b c : UInt8) (h : α.IsPadded bytes t) :
    α.IsPadded (a :: b :: c :: bytes) (encodeWith α [a, b, c] ++ t) := by
  cases h with
  | written => exact .written
  | @respelled front e f x y form read wrote agree =>
    have hform : encodeWith α (a :: b :: c :: bytes)
        = (encodeWith α [a, b, c] ++ front) ++ f :: padding (a :: b :: c :: bytes) := by
      rw [encodeWith_group, form, padding_group, List.append_assoc]
    rw [← spareBits_group a b c] at agree
    rw [← List.append_assoc, ← padding_group a b c]
    exact .respelled hform read wrote agree

theorem Alphabet.HasSurplus.group (a b c : UInt8) (h : α.HasSurplus bytes t) :
    α.HasSurplus (a :: b :: c :: bytes) (encodeWith α [a, b, c] ++ t) := by
  obtain ⟨hlength, n, rfl⟩ := h
  refine ⟨?_, n, ?_⟩
  · simp only [List.length_cons]
    omega
  · rw [encodeWith_group α a b c bytes, List.append_assoc]

theorem Alphabet.IsProper.isPadded_one (hα : α.IsProper) {a b : CodePoint} {x y : BitVec 6}
    (ha : α.value? a = some x) (hb : α.value? b = some y) : α.IsPadded [octet1 x y] [a, b, pad, pad] := by
  have hform : encodeWith α [octet1 x y]
      = [a] ++ α.char (.ofNat 6 (y.toNat / 16 * 16)) :: padding [octet1 x y] := by
    rw [encodeWith_octet1, char_of_value? ha]
    rfl
  have hagree : y >>> spareBits [octet1 x y] = BitVec.ofNat 6 (y.toNat / 16 * 16) >>> spareBits [octet1 x y] := by
    have hy := y.isLt
    have hspare : spareBits [octet1 x y] = 4 := by simp [spareBits]
    rw [hspare, shiftRight_eq_iff, BitVec.toNat_ofNat]
    omega
  exact IsPadded.respelled hform hb (hα.value?_char _) hagree

theorem Alphabet.IsProper.isPadded_two (hα : α.IsProper) {a b c : CodePoint} {x y z : BitVec 6}
    (ha : α.value? a = some x) (hb : α.value? b = some y) (hc : α.value? c = some z) :
    α.IsPadded [octet1 x y, octet2 y z] [a, b, c, pad] := by
  have hform : encodeWith α [octet1 x y, octet2 y z]
      = [a, b] ++ α.char (.ofNat 6 (z.toNat / 4 * 4)) :: padding [octet1 x y, octet2 y z] := by
    rw [encodeWith_octet2, char_of_value? ha, char_of_value? hb]
    rfl
  have hagree : z >>> spareBits [octet1 x y, octet2 y z]
      = BitVec.ofNat 6 (z.toNat / 4 * 4) >>> spareBits [octet1 x y, octet2 y z] := by
    have hz := z.isLt
    have hspare : spareBits [octet1 x y, octet2 y z] = 2 := by simp [spareBits]
    rw [hspare, shiftRight_eq_iff, BitVec.toNat_ofNat]
    omega
  exact IsPadded.respelled hform hc (hα.value?_char _) hagree

theorem hasSurplus_nil_of_forall (hne : t ≠ []) (h : ∀ c ∈ t, c = pad) : α.HasSurplus [] t := by
  have hpos := List.length_pos_iff.mpr hne
  refine ⟨rfl, t.length - 1, ?_⟩
  rw [show t.length - 1 + 1 = t.length by omega]
  exact List.eq_replicate_of_mem h

/-- **What is read** is of one of the two kinds; nothing but padding is read behind complete
    groups only. -/
theorem isPadded_or_hasSurplus (hα : α.IsProper) {inside : Bool}
    (h : decodePaddedFrom α inside t = some bytes) :
    α.IsPadded bytes t ∨ (inside = true ∨ bytes ≠ []) ∧ α.HasSurplus bytes t := by
  fun_induction decodePaddedFrom α inside t generalizing bytes with
  | case1 =>
    obtain rfl := Option.some.inj h
    exact Or.inl .written
  | case2 inside a b c d rest x y z w hd hc hb ha ih =>
    obtain ⟨more, hmore, rfl⟩ := Option.map_eq_some_iff.mp h
    have hgroup : a :: b :: c :: d :: rest
        = encodeWith α [octet1 x y, octet2 y z, octet3 z w] ++ rest := by
      rw [encodeWith_octet3, Alphabet.char_of_value? ha, Alphabet.char_of_value? hb,
        Alphabet.char_of_value? hc, Alphabet.char_of_value? hd]
      rfl
    rw [hgroup]
    rcases ih hmore with hpadded | ⟨-, hsurplus⟩
    · exact Or.inl (hpadded.group _ _ _)
    · exact Or.inr ⟨Or.inr (List.cons_ne_nil _ _), hsurplus.group _ _ _⟩
  | case3 inside a b c d rest x y z hd hc hb ha hend =>
    obtain rfl := Option.some.inj h
    simp only [Bool.and_eq_true, decide_eq_true_eq, List.isEmpty_iff] at hend
    obtain ⟨rfl, rfl⟩ := hend
    exact Or.inl (hα.isPadded_two ha hb hc)
  | case5 inside a b c d rest x y hd hc hb ha hend =>
    obtain rfl := Option.some.inj h
    simp only [Bool.and_eq_true, decide_eq_true_eq, List.isEmpty_iff] at hend
    obtain ⟨⟨rfl, rfl⟩, rfl⟩ := hend
    exact Or.inl (hα.isPadded_one ha hb)
  | case7 inside a b c d rest hpads =>
    obtain rfl := Option.some.inj h
    simp only [Bool.and_eq_true, decide_eq_true_eq, List.all_eq_true] at hpads
    obtain ⟨⟨⟨⟨⟨hinside, rfl⟩, rfl⟩, rfl⟩, rfl⟩, hrest⟩ := hpads
    refine Or.inr ⟨Or.inl hinside, hasSurplus_nil_of_forall (List.cons_ne_nil _ _) ?_⟩
    simpa using hrest
  | case9 inside short hne _ hpads =>
    obtain rfl := Option.some.inj h
    simp only [Bool.and_eq_true, decide_eq_true_eq, List.all_eq_true] at hpads
    exact Or.inr ⟨Or.inl hpads.1, hasSurplus_nil_of_forall hne hpads.2⟩
  | case4 => cases h
  | case6 => cases h
  | case8 => cases h
  | case10 => cases h

/-! ### Both kinds are read -/

/-- The last data character of more than one group stands behind the first. -/
theorem exists_behind_group {a b e : UInt8} {rest : Bytes} {front : Text} {d : CodePoint} (hne : rest ≠ [])
    (h : encodeWith α (a :: b :: e :: rest) = front ++ d :: padding rest) :
    ∃ later, front = encodeWith α [a, b, e] ++ later ∧ encodeWith α rest = later ++ d :: padding rest := by
  have hpos := List.length_pos_iff.mpr hne
  have hlength := congrArg List.length h
  simp only [length_encodeWith, List.length_append, List.length_cons, padding, List.length_replicate] at hlength
  rw [encodeWith_group] at h
  obtain ⟨later, hfront, hlater⟩ | ⟨surplus, hsurplus, -⟩ := List.append_eq_append_iff.mp h
  · exact ⟨later, hfront, hlater⟩
  · have hshort := congrArg List.length hsurplus
    simp only [List.length_append, length_encodeWith, List.length_cons, List.length_nil] at hshort
    omega

/-- The padded form is read however its last data character is spelled. -/
theorem decodePaddedFrom_respelled (hα : α.IsProper) (inside : Bool) {front : Text} {c d : CodePoint}
    {x y : BitVec 6} (hform : encodeWith α bytes = front ++ d :: padding bytes) (hread : α.value? c = some x)
    (hwrote : α.value? d = some y) (hagree : x >>> spareBits bytes = y >>> spareBits bytes) :
    decodePaddedFrom α inside (front ++ c :: padding bytes) = some bytes := by
  fun_induction encodeWith α bytes generalizing inside front with
  | case1 => simp at hform
  | case2 a n =>
    have ha := a.toNat_lt
    have hx := x.isLt
    have hcut : [α.char (.ofNat 6 (n / 4))] ++ α.char (.ofNat 6 (n % 4 * 16)) :: padding [a]
        = front ++ d :: padding [a] := hform
    obtain ⟨hfront, hlast⟩ := List.append_inj' hcut rfl
    obtain ⟨rfl, -⟩ := List.cons.inj hlast
    rw [hα.value?_char, Option.some.injEq] at hwrote
    subst hfront hwrote
    have hbits : x.toNat / 16 = n % 4 * 16 % 64 / 16 := by
      simpa [spareBits, Nat.shiftRight_eq_div_pow] using shiftRight_eq_iff.mp hagree
    have hoctet : octet1 (.ofNat 6 (n / 4)) x = a := by
      rw [← UInt8.toNat_inj, toNat_octet1, BitVec.toNat_ofNat]
      omega
    simp [padding, decodePaddedFrom, hα.value?_char, hread, hα.value?_pad, hoctet]
  | case3 a b n =>
    have ha := a.toNat_lt
    have hb := b.toNat_lt
    have hx := x.isLt
    have hcut : [α.char (.ofNat 6 (n / 0x400)), α.char (.ofNat 6 (n / 0x10))]
        ++ α.char (.ofNat 6 (n % 0x10 * 4)) :: padding [a, b] = front ++ d :: padding [a, b] := hform
    obtain ⟨hfront, hlast⟩ := List.append_inj' hcut rfl
    obtain ⟨rfl, -⟩ := List.cons.inj hlast
    rw [hα.value?_char, Option.some.injEq] at hwrote
    subst hfront hwrote
    have hbits : x.toNat / 4 = n % 16 * 4 % 64 / 4 := by
      simpa [spareBits, Nat.shiftRight_eq_div_pow] using shiftRight_eq_iff.mp hagree
    have hfirst : octet1 (.ofNat 6 (n / 0x400)) (.ofNat 6 (n / 0x10)) = a :=
      octet1_ofNat (by omega) (by omega)
    have hsecond : octet2 (.ofNat 6 (n / 0x10)) x = b := by
      rw [← UInt8.toNat_inj, toNat_octet2, BitVec.toNat_ofNat]
      omega
    simp [padding, decodePaddedFrom, hα.value?_char, hread, hα.value?_pad, hfirst, hsecond]
  | case4 a b e rest n ih =>
    rw [padding_group] at hform ⊢
    rw [spareBits_group] at hagree
    by_cases hrest : rest = []
    · -- the last data character of a complete group has no spare bits
      subst hrest
      have hvalue : x = y := by simpa [spareBits] using hagree
      obtain rfl : c = d := by
        rw [← Alphabet.char_of_value? hread, ← Alphabet.char_of_value? hwrote, hvalue]
      rw [← hform]
      exact decodePaddedFrom_encodeWith hα inside [a, b, e]
    · obtain ⟨later, rfl, hlater⟩ := exists_behind_group hrest hform
      rw [List.append_assoc, decodePaddedFrom_group hα, ih true hlater hagree]
      rfl

theorem decodePaddedFrom_replicate (hα : α.IsProper) (n : Nat) :
    decodePaddedFrom α true (List.replicate n pad) = some [] := by
  match n with
  | 0 => rfl
  | 1 => rfl
  | 2 => rfl
  | 3 => rfl
  | n + 4 => simp [List.replicate_succ, decodePaddedFrom, hα.value?_pad]

/-- Padding behind complete groups is read over. -/
theorem decodePaddedFrom_surplus (hα : α.IsProper) {inside : Bool} (n : Nat) (hlength : bytes.length % 3 = 0)
    (hinside : inside = true ∨ bytes ≠ []) :
    decodePaddedFrom α inside (encodeWith α bytes ++ List.replicate n pad) = some bytes := by
  induction bytes using encodeWith.induct generalizing inside with
  | case1 =>
    obtain rfl := hinside.resolve_right fun hne => hne rfl
    exact decodePaddedFrom_replicate hα n
  | case2 a => cases hlength
  | case3 a b => cases hlength
  | case4 a b c rest ih =>
    have hrest : rest.length % 3 = 0 := by
      simp only [List.length_cons] at hlength
      omega
    rw [encodeWith_group, List.append_assoc, decodePaddedFrom_group hα, ih hrest (Or.inl rfl)]
    rfl

/-- **Which texts are read as which octets.** -/
theorem decodePadded?_eq_some_iff :
    decodePadded? t = some bytes ↔
      standard.IsPadded bytes t ∨ bytes ≠ [] ∧ standard.HasSurplus bytes t := by
  constructor
  · intro h
    exact (isPadded_or_hasSurplus isProper_standard h).imp_right
      (And.imp_left fun hne => hne.resolve_left Bool.false_ne_true)
  · rintro (hpadded | ⟨hne, hlength, n, rfl⟩)
    · cases hpadded with
      | written => exact decodePadded?_encode bytes
      | respelled form read wrote agree =>
        exact decodePaddedFrom_respelled isProper_standard false form read wrote agree
    · exact decodePaddedFrom_surplus isProper_standard (n + 1) hlength (Or.inr hne)

end UploadGate.Base64
