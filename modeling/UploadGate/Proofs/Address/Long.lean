/-
  UploadGate/Proofs/Address/Long.lean
  ===================================
  **Long addresses: which texts are read, and as which bits.**

  `SpellsLong` says how a long address may be spelled, without reference to how it
  is cut and joined: eight groups of hexadecimal digits between colons, or fewer
  with `::` for at least one group of zeros, and in both a short address may stand
  for the last two groups.  Reading accepts just these texts, and finds the bits
  whose groups they spell (`bits6?_eq_some_iff`).
-/
import Mathlib.Data.List.Nodup
import UploadGate.Proofs.Address.Short

namespace UploadGate.Address

abbrev colon : CodePoint := .ofChar ':'

/-! ### Groups -/

/-- A group is spelled in one to four hexadecimal digits of either case. -/
structure SpellsGroup (t : Text) (g : BitVec 16) : Prop where
  ne_nil : t ≠ []
  length_le : t.length ≤ 4
  value : ∃ digits, Text.HexDigits t digits ∧ Nat.ofDigits 16 digits = g.toNat

theorem foldl_eq_ofDigits (values : List Nat) :
    values.foldl (fun n d => n * 16 + d) 0 = Nat.ofDigits 16 values.reverse := by
  rw [Nat.ofDigits_eq_foldr, List.foldr_reverse]
  congr 1
  funext n d
  rw [Nat.cast_id, Nat.add_comm, Nat.mul_comm]

theorem group?_eq_some_iff {t : Text} {g : BitVec 16} : group? t = some g ↔ SpellsGroup t g := by
  unfold group?
  constructor
  · intro h
    split at h
    · cases h
    · rename_i hform
      rw [Bool.or_eq_true, not_or, List.isEmpty_iff, decide_eq_true_eq, Nat.not_lt] at hform
      obtain ⟨values, hvalues, rfl⟩ := Option.map_eq_some_iff.mp h
      have hdigits : Text.HexDigits t values.reverse := by
        rw [Text.HexDigits, List.reverse_reverse]
        exact mapM_eq_some_iff.mp hvalues
      refine ⟨hform.1, hform.2, values.reverse, hdigits, ?_⟩
      have hlength : values.reverse.length ≤ 4 := by
        rw [List.length_reverse, ← (mapM_eq_some_iff.mp hvalues).length_eq]
        exact hform.2
      have hlt := Nat.ofDigits_lt_base_pow_length (by decide) hdigits.lt
      have hbound : (16 : Nat) ^ values.reverse.length ≤ 2 ^ 16 := Nat.pow_le_pow_right (by decide) hlength
      rw [foldl_eq_ofDigits, BitVec.toNat_ofNat, Nat.mod_eq_of_lt (Nat.lt_of_lt_of_le hlt hbound)]
  · rintro ⟨hne, hlength, digits, hdigits, hvalue⟩
    have hform : ¬ (t.isEmpty || decide (4 < t.length)) = true := by
      rw [Bool.or_eq_true, not_or, List.isEmpty_iff, decide_eq_true_eq, Nat.not_lt]
      exact ⟨hne, hlength⟩
    rw [if_neg hform, mapM_eq_some_iff.mpr hdigits, Option.map_some, foldl_eq_ofDigits,
      List.reverse_reverse, hvalue, BitVec.ofNat_toNat, BitVec.setWidth_eq]

theorem spellsGroup_ofHex (g : BitVec 16) : SpellsGroup (Text.ofHex g.toNat) g := by
  refine ⟨Text.ofHex_ne_nil _, ?_, Text.exists_hexDigits_ofHex g.toNat⟩
  rw [Text.ofHex, List.length_map, Nat.length_toDigits_le_iff (by decide) (by decide)]
  exact g.isLt

theorem SpellsGroup.not_mem {t : Text} {g : BitVec 16} (h : SpellsGroup t g) {c : CodePoint}
    (hc : c.hexValue? = none) : c ∉ t := by
  obtain ⟨digits, hdigits, -⟩ := h.value
  intro hmem
  obtain ⟨d, hd⟩ := hdigits.exists_hexValue c hmem
  rw [hc] at hd
  cases hd

def halves (bits : BitVec 32) : List (BitVec 16) := [(bits >>> 16).truncate 16, bits.truncate 16]

/-- Groups that are spelled by pieces: one piece each, and a short address at the end for the
    last two, or none for them. -/
inductive SpellsGroups : List Text → List (BitVec 16) → Prop
  | nil : SpellsGroups [] []
  | group {t : Text} {g : BitVec 16} {pieces : List Text} {groups : List (BitVec 16)}
      (first : SpellsGroup t g) (rest : SpellsGroups pieces groups) :
      SpellsGroups (t :: pieces) (g :: groups)
  | short (bits : BitVec 32) : SpellsGroups [text4 bits] (halves bits)

inductive SpellsLong : Text → BitVec 128 → Prop
  | full {pieces : List Text} {gs : List (BitVec 16)} {bits : BitVec 128} (each : SpellsGroups pieces gs)
      (all : gs.map BitVec.toNat = groups bits) : SpellsLong (Text.join [colon] pieces) bits
  | gapped {front back : List Text} {high low : List (BitVec 16)} {zeros : Nat} {bits : BitVec 128}
      (before : List.Forall₂ SpellsGroup front high) (behind : SpellsGroups back low) (gap : 0 < zeros)
      (all : (high ++ List.replicate zeros 0 ++ low).map BitVec.toNat = groups bits) :
      SpellsLong (Text.join [colon] front ++ colon :: colon :: Text.join [colon] back) bits

/-! ### The last piece -/

def halfTexts (bits : BitVec 32) : List Text := (halves bits).map fun g => Text.ofHex g.toNat

theorem halfTexts_eq (bits : BitVec 32) :
    halfTexts bits = [Text.ofHex (bits >>> 16).toNat, Text.ofHex (bits.truncate 16).toNat] := by
  have hhigh : ((bits >>> 16).truncate 16).toNat = (bits >>> 16).toNat := by
    have hlt := bits.isLt
    rw [BitVec.truncate_eq_setWidth, BitVec.toNat_setWidth, BitVec.toNat_ushiftRight,
      Nat.shiftRight_eq_div_pow]
    omega
  simp only [halfTexts, halves, List.map_cons, List.map_nil, hhigh]

theorem forall₂_halfTexts (bits : BitVec 32) : List.Forall₂ SpellsGroup (halfTexts bits) (halves bits) :=
  .cons (spellsGroup_ofHex _) (.cons (spellsGroup_ofHex _) .nil)

theorem SpellsGroup.unique {t : Text} {g g' : BitVec 16} (h : SpellsGroup t g) (h' : SpellsGroup t g') :
    g = g' := by
  rw [← group?_eq_some_iff] at h h'
  exact Option.some.inj (h.symm.trans h')

theorem forall₂_unique {pieces : List Text} {gs gs' : List (BitVec 16)}
    (h : List.Forall₂ SpellsGroup pieces gs) (h' : List.Forall₂ SpellsGroup pieces gs') : gs = gs' := by
  induction h generalizing gs' with
  | nil =>
    cases h'
    rfl
  | cons hg _ ih =>
    cases h' with
    | cons hg' hrest => rw [hg.unique hg', ih hrest]

theorem point_mem_text4 (bits : BitVec 32) : CodePoint.ofChar '.' ∈ text4 bits := by
  rw [text4_eq, octets]
  simp only [List.map_cons, List.map_nil, Text.join, List.mem_append]
  exact Or.inl (Or.inr (List.mem_singleton.mpr rfl))

/-- A last piece with a point is read as a short address, and any other stays. -/
theorem withoutDots?_concat (front : List Text) (last : Text) :
    withoutDots? (front ++ [last]) =
      if last.contains (.ofChar '.') then (bits4? last).map fun bits => front ++ halfTexts bits
      else some (front ++ [last]) := by
  simp only [withoutDots?, List.getLast?_concat, List.dropLast_concat, halfTexts_eq]

theorem withoutDots?_cons (t : Text) {pieces : List Text} (h : pieces ≠ []) :
    withoutDots? (t :: pieces) = (withoutDots? pieces).map (t :: ·) := by
  obtain ⟨front, last, rfl⟩ : ∃ front last, pieces = front ++ [last] :=
    ⟨_, _, (List.dropLast_append_getLast h).symm⟩
  rw [← List.cons_append, withoutDots?_concat, withoutDots?_concat]
  split
  · rw [Option.map_map]
    rfl
  · rfl

theorem withoutDots?_singleton {last : Text} {ps : List Text} (h : withoutDots? [last] = some ps) :
    ps = [last] ∨ ∃ bits, last = text4 bits ∧ ps = halfTexts bits := by
  rw [← List.nil_append [last], withoutDots?_concat] at h
  split at h
  · obtain ⟨bits, hbits, rfl⟩ := Option.map_eq_some_iff.mp h
    exact Or.inr ⟨bits, bits4?_eq_some_iff.mp hbits, rfl⟩
  · exact Or.inl (Option.some.inj h).symm

/-- Pieces spell groups just when they do so one by one once the last piece is read. -/
theorem spellsGroups_iff {pieces : List Text} {gs : List (BitVec 16)} :
    SpellsGroups pieces gs ↔ ∃ ps, withoutDots? pieces = some ps ∧ List.Forall₂ SpellsGroup ps gs := by
  constructor
  · intro h
    induction h with
    | nil => exact ⟨[], rfl, .nil⟩
    | group hfirst hrest ih =>
      rename_i t g pieces groups
      obtain ⟨ps, hps, heach⟩ := ih
      cases pieces with
      | nil =>
        obtain rfl := Option.some.inj hps
        have hplain : ¬ t.contains (.ofChar '.') = true := by
          rw [List.contains_eq_mem, decide_eq_true_eq]
          exact hfirst.not_mem rfl
        refine ⟨[t], ?_, .cons hfirst heach⟩
        rw [← List.nil_append [t], withoutDots?_concat, if_neg hplain]
      | cons piece pieces =>
        rw [withoutDots?_cons _ (List.cons_ne_nil _ _), hps]
        exact ⟨t :: ps, rfl, .cons hfirst heach⟩
    | short bits =>
      have hpoint : (text4 bits).contains (.ofChar '.') = true := by
        rw [List.contains_eq_mem, decide_eq_true_eq]
        exact point_mem_text4 bits
      refine ⟨halfTexts bits, ?_, forall₂_halfTexts bits⟩
      rw [← List.nil_append [text4 bits], withoutDots?_concat, if_pos hpoint, bits4?_text4]
      rfl
  · rintro ⟨ps, hps, heach⟩
    induction pieces generalizing ps gs with
    | nil =>
      obtain rfl := Option.some.inj hps
      cases heach
      exact .nil
    | cons t pieces ih =>
      cases pieces with
      | nil =>
        rcases withoutDots?_singleton hps with rfl | ⟨bits, rfl, rfl⟩
        · cases heach with
          | cons hfirst hrest =>
            cases hrest
            exact .group hfirst .nil
        · rw [forall₂_unique heach (forall₂_halfTexts bits)]
          exact .short bits
      | cons piece pieces =>
        rw [withoutDots?_cons _ (List.cons_ne_nil _ _)] at hps
        obtain ⟨later, hlater, rfl⟩ := Option.map_eq_some_iff.mp hps
        cases heach with
        | cons hfirst hrest => exact .group hfirst (ih later hlater hrest)

/-- A first piece stays in front of the others, unless it is the first group of a short address. -/
theorem withoutDots?_eq_cons_iff {pieces tail : List Text} {t : Text} (htail : tail ≠ [])
    (h : t = [] ∨ ∀ g : BitVec 16, tail ≠ [Text.ofHex g.toNat]) :
    withoutDots? pieces = some (t :: tail) ↔
      ∃ rest, rest ≠ [] ∧ pieces = t :: rest ∧ withoutDots? rest = some tail := by
  constructor
  · intro hread
    cases pieces with
    | nil => cases hread
    | cons piece pieces =>
      cases pieces with
      | nil =>
        -- A piece alone stays alone or is read as two groups, of which neither is empty.
        rcases withoutDots?_singleton hread with hsame | ⟨bits, -, hhalves⟩
        · exact absurd (List.cons.inj hsame).2 htail
        · obtain ⟨hfirst, hsecond⟩ := List.cons.inj hhalves
          rcases h with rfl | hsingle
          · exact absurd hfirst.symm (Text.ofHex_ne_nil _)
          · exact absurd hsecond (hsingle _)
      | cons next pieces =>
        rw [withoutDots?_cons _ (List.cons_ne_nil _ _)] at hread
        obtain ⟨later, hlater, hcons⟩ := Option.map_eq_some_iff.mp hread
        obtain ⟨rfl, rfl⟩ := List.cons.inj hcons
        exact ⟨next :: pieces, List.cons_ne_nil _ _, rfl, hlater⟩
  · rintro ⟨rest, hrest, rfl, hread⟩
    rw [withoutDots?_cons _ hrest, hread]
    rfl

/-- A gap that is not at the end stays where it is when the last piece is read. -/
theorem withoutDots?_eq_gap_iff {pieces front back : List Text} (hback : back ≠ []) :
    withoutDots? pieces = some (front ++ [] :: back) ↔
      ∃ rest, rest ≠ [] ∧ pieces = front ++ [] :: rest ∧ withoutDots? rest = some back := by
  induction front generalizing pieces with
  | nil => exact withoutDots?_eq_cons_iff hback (Or.inl rfl)
  | cons t front ih =>
    have htail : front ++ [] :: back ≠ [] := List.append_ne_nil_of_right_ne_nil _ (List.cons_ne_nil _ _)
    have hlong : ∀ g : BitVec 16, front ++ [] :: back ≠ [Text.ofHex g.toNat] := by
      intro g hsingle
      have hlength := congrArg List.length hsingle
      have hpos := List.length_pos_iff.mpr hback
      simp only [List.length_append, List.length_cons, List.length_nil] at hlength
      omega
    rw [List.cons_append, withoutDots?_eq_cons_iff htail (Or.inr hlong)]
    constructor
    · rintro ⟨rest, -, rfl, hread⟩
      obtain ⟨later, hlater, rfl, hback⟩ := ih.mp hread
      exact ⟨later, hlater, rfl, hback⟩
    · rintro ⟨rest, hrest, rfl, hread⟩
      exact ⟨front ++ [] :: rest, List.append_ne_nil_of_right_ne_nil _ (List.cons_ne_nil _ _), rfl,
        ih.mpr ⟨rest, hrest, rfl, hread⟩⟩

/-! ### The gap -/

/-- Pieces on one side of `::` spell groups, or none at the end of the address. -/
def SpellsSide (pieces : List Text) (gs : List (BitVec 16)) : Prop :=
  pieces ≠ [] ∧ List.Forall₂ SpellsGroup (besideGap pieces) gs

theorem mapM_group?_eq_some_iff {pieces : List Text} {gs : List (BitVec 16)} :
    pieces.mapM group? = some gs ↔ List.Forall₂ SpellsGroup pieces gs := by
  simp only [mapM_eq_some_iff, group?_eq_some_iff]

theorem ne_nil_of_forall₂ {pieces : List Text} {gs : List (BitVec 16)}
    (h : List.Forall₂ SpellsGroup pieces gs) : ∀ piece ∈ pieces, piece ≠ [] := by
  induction h with
  | nil => exact List.forall_mem_nil _
  | cons hfirst _ ih => exact List.forall_mem_cons.mpr ⟨hfirst.ne_nil, ih⟩

theorem SpellsSide.eq_or_ne_nil {pieces : List Text} {gs : List (BitVec 16)} (h : SpellsSide pieces gs) :
    pieces = [[]] ∨ ∀ piece ∈ pieces, piece ≠ [] := by
  by_cases hlone : pieces = [[]]
  · exact Or.inl hlone
  · have heach := h.2
    rw [besideGap, if_neg hlone] at heach
    exact Or.inr (ne_nil_of_forall₂ heach)

theorem isGap_eq_true_iff {pieces : List Text} {i : Nat} :
    isGap pieces i = true ↔ 0 < i ∧ i + 1 < pieces.length ∧ pieces[i]? = some [] := by
  simp only [isGap, Bool.and_eq_true, decide_eq_true_eq, and_assoc]

/-- Between two sides, the empty piece is the only gap. -/
theorem isGap_between_iff {front back : List Text} {high low : List (BitVec 16)} {i : Nat}
    (hfront : SpellsSide front high) (hback : SpellsSide back low) :
    isGap (front ++ [] :: back) i = true ↔ i = front.length := by
  have hfrontPos := List.length_pos_iff.mpr hfront.1
  have hbackPos := List.length_pos_iff.mpr hback.1
  rw [isGap_eq_true_iff, List.length_append, List.length_cons]
  constructor
  · rintro ⟨hpos, hlt, hpiece⟩
    rcases Nat.lt_trichotomy i front.length with hbefore | heq | hbehind
    · -- A side with an empty piece has no other, and the first piece of all is no gap.
      rw [List.getElem?_append_left hbefore] at hpiece
      rcases hfront.eq_or_ne_nil with rfl | hne
      · simp only [List.length_singleton] at hbefore
        omega
      · exact absurd rfl (hne [] (List.mem_of_getElem? hpiece))
    · exact heq
    · obtain ⟨j, rfl⟩ : ∃ j, i = front.length + (j + 1) := ⟨i - front.length - 1, by omega⟩
      rw [List.getElem?_append_right (Nat.le_add_right _ _), Nat.add_sub_cancel_left,
        List.getElem?_cons_succ] at hpiece
      rcases hback.eq_or_ne_nil with rfl | hne
      · simp only [List.length_singleton] at hlt
        omega
      · exact absurd rfl (hne [] (List.mem_of_getElem? hpiece))
  · rintro rfl
    refine ⟨hfrontPos, by omega, ?_⟩
    rw [List.getElem?_append_right (Nat.le_refl _), Nat.sub_self, List.getElem?_cons_zero]

theorem filter_isGap_between {front back : List Text} {high low : List (BitVec 16)}
    (hfront : SpellsSide front high) (hback : SpellsSide back low) :
    (List.range (front ++ [] :: back).length).filter (isGap (front ++ [] :: back)) = [front.length] := by
  have hlt : front.length < (front ++ [] :: back).length := by
    rw [List.length_append, List.length_cons]
    omega
  have hgap : ∀ i ∈ List.range (front ++ [] :: back).length,
      isGap (front ++ [] :: back) i = decide (i = front.length) := by
    intro i _
    rw [Bool.eq_iff_iff, isGap_between_iff hfront hback, decide_eq_true_eq]
  rw [List.filter_congr hgap, List.filter_eq, List.count_eq_one_of_mem List.nodup_range (List.mem_range.mpr hlt)]
  rfl

theorem filter_isGap_of_forall₂ {pieces : List Text} {gs : List (BitVec 16)}
    (h : List.Forall₂ SpellsGroup pieces gs) : (List.range pieces.length).filter (isGap pieces) = [] := by
  rw [List.filter_eq_nil_iff]
  intro i _ hgap
  exact absurd rfl (ne_nil_of_forall₂ h [] (List.mem_of_getElem? (isGap_eq_true_iff.mp hgap).2.2))

/-- Pieces make eight groups if each spells one of eight, or with a gap for those that are
    missing. -/
theorem groups?_eq_some_iff {pieces : List Text} {gs : List (BitVec 16)} :
    groups? pieces = some gs ↔
      (List.Forall₂ SpellsGroup pieces gs ∧ gs.length = 8)
        ∨ ∃ front back high low zeros, pieces = front ++ [] :: back ∧ SpellsSide front high
          ∧ SpellsSide back low ∧ 0 < zeros ∧ high.length + zeros + low.length = 8
          ∧ gs = high ++ List.replicate zeros 0 ++ low := by
  constructor
  · intro h
    unfold groups? at h
    split at h
    · split at h
      · rename_i hlength
        have heach := mapM_group?_eq_some_iff.mp h
        exact Or.inl ⟨heach, heach.length_eq ▸ hlength⟩
      · cases h
    · rename_i gap hgaps
      have hgap : gap ∈ (List.range pieces.length).filter (isGap pieces) := by
        rw [hgaps]
        exact List.mem_cons_self
      obtain ⟨hpos, hlt, hpiece⟩ := isGap_eq_true_iff.mp (List.mem_filter.mp hgap).2
      obtain ⟨high, hhigh, h⟩ := Option.bind_eq_some_iff.mp h
      obtain ⟨low, hlow, h⟩ := Option.bind_eq_some_iff.mp h
      split at h
      · rename_i hroom
        obtain rfl := Option.some.inj h
        have hsplit : pieces = pieces.take gap ++ [] :: pieces.drop (gap + 1) := by
          obtain ⟨hbound, hget⟩ := List.getElem?_eq_some_iff.mp hpiece
          rw [← hget, ← List.drop_eq_getElem_cons hbound, List.take_append_drop]
        refine Or.inr ⟨_, _, high, low, 8 - (high.length + low.length), hsplit, ⟨?_, mapM_group?_eq_some_iff.mp hhigh⟩,
          ⟨?_, mapM_group?_eq_some_iff.mp hlow⟩, by omega, by omega, rfl⟩
        · rw [← List.length_pos_iff, List.length_take]
          omega
        · rw [← List.length_pos_iff, List.length_drop]
          omega
      · cases h
    · cases h
  · rintro (⟨heach, hlength⟩ | ⟨front, back, high, low, zeros, rfl, hfront, hback, hpos, hlength, rfl⟩)
    · rw [groups?, filter_isGap_of_forall₂ heach]
      exact (if_pos (heach.length_eq.trans hlength)).trans (mapM_group?_eq_some_iff.mpr heach)
    · have htake : (front ++ [] :: back).take front.length = front := List.take_left
      have hdrop : (front ++ [] :: back).drop (front.length + 1) = back := by
        rw [List.drop_append, List.drop_of_length_le (Nat.le_add_right _ _), Nat.add_sub_cancel_left]
        rfl
      have hroom : high.length + low.length < 8 := by omega
      have hzeros : 8 - (high.length + low.length) = zeros := by omega
      simp only [groups?, filter_isGap_between hfront hback, htake, hdrop,
        mapM_group?_eq_some_iff.mpr hfront.2, mapM_group?_eq_some_iff.mpr hback.2, Option.bind_eq_bind,
        Option.bind_some, hroom, if_true, hzeros]

/-! ### Groups as digits -/

theorem toNat_shiftLeft_or {x : BitVec 128} (h : x.toNat < 2 ^ 112) (g : BitVec 16) :
    ((x <<< 16) ||| g.zeroExtend 128).toNat = x.toNat * 65536 + g.toNat := by
  have hg : g.toNat % 2 ^ 128 = g.toNat := Nat.mod_eq_of_lt (Nat.lt_trans g.isLt (by decide))
  have hx : x.toNat <<< 16 % 2 ^ 128 = x.toNat <<< 16 := by
    rw [Nat.shiftLeft_eq]
    exact Nat.mod_eq_of_lt (by omega)
  rw [BitVec.toNat_or, BitVec.toNat_shiftLeft, BitVec.zeroExtend_eq_setWidth, BitVec.toNat_setWidth, hg, hx,
    ← Nat.shiftLeft_add_eq_or_of_lt g.isLt, Nat.shiftLeft_eq]

theorem forall_lt_map_toNat (gs : List (BitVec 16)) : ∀ n ∈ (gs.map BitVec.toNat).reverse, n < 65536 := by
  intro n hn
  obtain ⟨g, -, rfl⟩ := List.mem_map.mp (List.mem_reverse.mp hn)
  exact g.isLt

/-- Groups that are joined are digits, the first in front. -/
theorem toNat_joinGroups {gs : List (BitVec 16)} (h : gs.length ≤ 8) :
    (joinGroups gs).toNat = Nat.ofDigits 65536 (gs.map BitVec.toNat).reverse := by
  induction gs using List.reverseRecOn with
  | nil => rfl
  | append_singleton gs g ih =>
    rw [List.length_append, List.length_singleton] at h
    have hvalue := ih (by omega)
    have hlt : (joinGroups gs).toNat < 65536 ^ 7 := by
      rw [hvalue]
      refine Nat.lt_of_lt_of_le (Nat.ofDigits_lt_base_pow_length (by decide) (forall_lt_map_toNat gs)) ?_
      rw [List.length_reverse, List.length_map]
      exact Nat.pow_le_pow_right (by decide) (by omega)
    rw [joinGroups, List.foldl_append, List.foldl_cons, List.foldl_nil, ← joinGroups,
      toNat_shiftLeft_or hlt, hvalue, List.map_append, List.map_singleton, List.reverse_append,
      List.reverse_singleton, List.singleton_append, Nat.ofDigits_cons]
    omega

theorem ofDigits_map_range (n count : Nat) :
    Nat.ofDigits 65536 ((List.range count).map fun k => n / 65536 ^ k % 65536) = n % 65536 ^ count := by
  induction count with
  | zero => simp [Nat.mod_one]
  | succ count ih =>
    rw [List.range_succ, List.map_append, Nat.ofDigits_append, ih, List.length_map, List.length_range,
      List.map_singleton, Nat.ofDigits_singleton, Nat.mod_pow_succ]

theorem groups_lt (bits : BitVec 128) : ∀ n ∈ groups bits, n < 2 ^ 16 := by
  intro n hn
  obtain ⟨shift, -, rfl⟩ := List.mem_map.mp hn
  exact Nat.mod_lt _ (by decide)

theorem ofDigits_groups (bits : BitVec 128) : Nat.ofDigits 65536 (groups bits).reverse = bits.toNat := by
  have hgroups : (groups bits).reverse = (List.range 8).map fun k => bits.toNat / 65536 ^ k % 65536 := by
    simp only [groups, BitVec.toNat_ushiftRight, Nat.shiftRight_eq_div_pow]
    rfl
  rw [hgroups, ofDigits_map_range]
  exact Nat.mod_eq_of_lt bits.isLt

/-- **Eight groups make the bits of which they are the groups**, and no others. -/
theorem joinGroups_eq_iff {gs : List (BitVec 16)} (h : gs.length = 8) {bits : BitVec 128} :
    joinGroups gs = bits ↔ gs.map BitVec.toNat = groups bits := by
  rw [← BitVec.toNat_inj, toNat_joinGroups (Nat.le_of_eq h), ← ofDigits_groups bits]
  constructor
  · intro hdigits
    have hsmall : ∀ n ∈ (groups bits).reverse, n < 65536 :=
      fun n hn => groups_lt bits n (List.mem_reverse.mp hn)
    have hlength : (gs.map BitVec.toNat).reverse.length = (groups bits).reverse.length := by
      rw [List.length_reverse, List.length_reverse, List.length_map, h]
      rfl
    exact List.reverse_injective
      (Nat.ofDigits_inj_of_len_eq (by decide) hlength (forall_lt_map_toNat gs) hsmall hdigits)
  · intro hgroups
    rw [hgroups]

/-! ### Whole texts -/

theorem SpellsGroups.not_mem {pieces : List Text} {gs : List (BitVec 16)} (h : SpellsGroups pieces gs)
    {c : CodePoint} (hc : c.hexValue? = none) (hpoint : c ≠ .ofChar '.') : ∀ piece ∈ pieces, c ∉ piece := by
  induction h with
  | nil => exact List.forall_mem_nil _
  | group hfirst _ ih => exact List.forall_mem_cons.mpr ⟨hfirst.not_mem hc, ih⟩
  | short bits =>
    intro piece hpiece
    rw [List.mem_singleton.mp hpiece]
    exact not_mem_text4 hc hpoint

theorem SpellsGroups.length_le {pieces : List Text} {gs : List (BitVec 16)} (h : SpellsGroups pieces gs) :
    gs.length ≤ pieces.length + 1 := by
  induction h with
  | nil => exact Nat.zero_le _
  | group _ _ ih => exact Nat.succ_le_succ ih
  | short bits => exact Nat.le_refl _

theorem spellsGroups_of_forall₂ {pieces : List Text} {gs : List (BitVec 16)}
    (h : List.Forall₂ SpellsGroup pieces gs) : SpellsGroups pieces gs := by
  induction h with
  | nil => exact .nil
  | cons hfirst _ ih => exact .group hfirst ih

theorem splitOn_join {pieces : List Text} {gs : List (BitVec 16)} (h : SpellsGroups pieces gs)
    (hne : pieces ≠ []) : (Text.join [colon] pieces).splitOn colon = pieces :=
  (Text.splitOn_eq_iff hne).mpr ⟨rfl, h.not_mem rfl (by decide)⟩

theorem join_besideGap (pieces : List Text) :
    Text.join [colon] (besideGap pieces) = Text.join [colon] pieces := by
  rw [besideGap]
  split
  · rename_i h
    rw [h]
    rfl
  · rfl

theorem withoutDots?_ne_nil {pieces : List Text} (h : pieces ≠ []) : withoutDots? pieces ≠ some [] := by
  intro hread
  cases pieces with
  | nil => exact h rfl
  | cons t pieces =>
    cases pieces with
    | nil =>
      rcases withoutDots?_singleton hread with hsame | ⟨bits, -, hhalves⟩
      · cases hsame
      · cases hhalves
    | cons next pieces =>
      rw [withoutDots?_cons _ (List.cons_ne_nil _ _)] at hread
      obtain ⟨later, -, hcons⟩ := Option.map_eq_some_iff.mp hread
      cases hcons

theorem spellsSide_splitOn {front : List Text} {high : List (BitVec 16)}
    (h : List.Forall₂ SpellsGroup front high) :
    SpellsSide ((Text.join [colon] front).splitOn colon) high := by
  refine ⟨Text.splitOn_ne_nil _ _, ?_⟩
  cases h with
  | nil => exact .nil
  | cons hfirst hrest =>
    have heach := List.Forall₂.cons hfirst hrest
    rw [splitOn_join (spellsGroups_of_forall₂ heach) (List.cons_ne_nil _ _), besideGap, if_neg]
    · exact heach
    · intro hlone
      exact hfirst.ne_nil (List.cons.inj hlone).1

/-- Groups behind `::` are a side of it once the last piece is read. -/
theorem exists_spellsSide_splitOn {back : List Text} {low : List (BitVec 16)} (h : SpellsGroups back low) :
    ∃ ps, withoutDots? ((Text.join [colon] back).splitOn colon) = some ps ∧ SpellsSide ps low := by
  by_cases hne : back = []
  · subst hne
    cases h
    exact ⟨[[]], rfl, List.cons_ne_nil _ _, .nil⟩
  · obtain ⟨ps, hps, heach⟩ := spellsGroups_iff.mp h
    rw [splitOn_join h hne]
    refine ⟨ps, hps, ?_, ?_⟩
    · rintro rfl
      exact withoutDots?_ne_nil hne hps
    · rw [besideGap, if_neg]
      · exact heach
      · rintro rfl
        exact ne_nil_of_forall₂ heach [] List.mem_cons_self rfl

/-- A side behind `::` is groups, and none if it is empty. -/
theorem exists_spellsGroups_of_side {rest ps : List Text} {low : List (BitVec 16)} (hrest : rest ≠ [])
    (hread : withoutDots? rest = some ps) (h : SpellsSide ps low) :
    ∃ back, SpellsGroups back low ∧ Text.join [colon] back = Text.join [colon] rest := by
  have heach := h.2
  rw [besideGap] at heach
  split at heach
  · rename_i hlone
    subst hlone
    cases heach
    refine ⟨[], .nil, ?_⟩
    cases rest with
    | nil => exact absurd rfl hrest
    | cons t rest =>
      cases rest with
      | nil =>
        rcases withoutDots?_singleton hread with hsame | ⟨bits, -, hhalves⟩
        · rw [← hsame]
          rfl
        · exact absurd (congrArg List.length hhalves) (by simp [halfTexts, halves])
      | cons next rest =>
        rw [withoutDots?_cons _ (List.cons_ne_nil _ _)] at hread
        obtain ⟨later, hlater, hcons⟩ := Option.map_eq_some_iff.mp hread
        obtain ⟨-, rfl⟩ := List.cons.inj hcons
        exact absurd hlater (withoutDots?_ne_nil (List.cons_ne_nil _ _))
  · exact ⟨rest, spellsGroups_iff.mpr ⟨ps, hread, heach⟩, rfl⟩

theorem join_gap {front rest : List Text} (hfront : front ≠ []) (hrest : rest ≠ []) :
    Text.join [colon] (front ++ [] :: rest)
      = Text.join [colon] front ++ colon :: colon :: Text.join [colon] rest := by
  obtain ⟨first, later, rfl⟩ := List.exists_cons_of_ne_nil hrest
  rw [Text.join_append _ hfront (List.cons_ne_nil _ _), List.append_assoc]
  rfl

theorem bits6?_eq_some_iff_pieces {t : Text} {bits : BitVec 128} :
    bits6? t = some bits ↔ 3 ≤ (t.splitOn colon).length
      ∧ ∃ ps, withoutDots? (t.splitOn colon) = some ps ∧ ∃ gs, groups? ps = some gs ∧ joinGroups gs = bits := by
  unfold bits6?
  simp only [Option.bind_eq_bind]
  split
  · rename_i hshort
    refine iff_of_false nofun ?_
    rintro ⟨hlong, -⟩
    exact absurd hshort (Nat.not_lt.mpr hlong)
  · rename_i hlong
    simp only [Option.bind_eq_some_iff, Option.some.injEq, Nat.not_lt.mp hlong, true_and]

theorem length_groups (bits : BitVec 128) : (groups bits).length = 8 := rfl

theorem length_of_map_toNat {gs : List (BitVec 16)} {bits : BitVec 128}
    (h : gs.map BitVec.toNat = groups bits) : gs.length = 8 := by
  rw [← List.length_map BitVec.toNat, h, length_groups]

/-- **A long address is read from the texts that spell it**, and from no others. -/
theorem bits6?_eq_some_iff {t : Text} {bits : BitVec 128} : bits6? t = some bits ↔ SpellsLong t bits := by
  rw [bits6?_eq_some_iff_pieces]
  constructor
  · rintro ⟨-, ps, hps, gs, hgs, hbits⟩
    rw [← Text.join_splitOn colon t]
    rcases groups?_eq_some_iff.mp hgs with
      ⟨heach, height⟩ | ⟨front, back, high, low, zeros, rfl, hfront, hback, hpos, height, rfl⟩
    · exact .full (spellsGroups_iff.mpr ⟨ps, hps, heach⟩) ((joinGroups_eq_iff height).mp hbits)
    · obtain ⟨rest, hrest, hsplit, hlater⟩ := (withoutDots?_eq_gap_iff hback.1).mp hps
      obtain ⟨behind, hbehind, hjoin⟩ := exists_spellsGroups_of_side hrest hlater hback
      have hall : (high ++ List.replicate zeros 0 ++ low).length = 8 := by
        simpa only [List.length_append, List.length_replicate] using height
      rw [hsplit, join_gap hfront.1 hrest, ← hjoin, ← join_besideGap front]
      exact .gapped hfront.2 hbehind hpos ((joinGroups_eq_iff hall).mp hbits)
  · intro h
    cases h with
    | full heach hall =>
      rename_i pieces gs
      have height := length_of_map_toNat hall
      have hlong := heach.length_le
      have hne : pieces ≠ [] := by
        rintro rfl
        simp only [List.length_nil] at hlong
        omega
      obtain ⟨ps, hps, hread⟩ := spellsGroups_iff.mp heach
      rw [splitOn_join heach hne]
      exact ⟨by omega, ps, hps, gs, groups?_eq_some_iff.mpr (Or.inl ⟨hread, height⟩),
        (joinGroups_eq_iff height).mpr hall⟩
    | gapped hbefore hbehind hpos hall =>
      rename_i front back high low zeros
      have hlength := length_of_map_toNat hall
      have height : high.length + zeros + low.length = 8 := by
        simpa only [List.length_append, List.length_replicate] using hlength
      have hfront := spellsSide_splitOn hbefore
      obtain ⟨ps, hps, hback⟩ := exists_spellsSide_splitOn hbehind
      have hrest := Text.splitOn_ne_nil colon (Text.join [colon] back)
      have hcut : (Text.join [colon] front ++ colon :: colon :: Text.join [colon] back).splitOn colon
          = (Text.join [colon] front).splitOn colon ++ [] :: (Text.join [colon] back).splitOn colon := by
        rw [Text.splitOn_append_cons, ← List.nil_append (colon :: Text.join [colon] back),
          Text.splitOn_append_cons]
        rfl
      have hfrontPos := List.length_pos_iff.mpr hfront.1
      have hrestPos := List.length_pos_iff.mpr hrest
      rw [hcut]
      refine ⟨?_, _, (withoutDots?_eq_gap_iff hback.1).mpr ⟨_, hrest, rfl, hps⟩, _,
        groups?_eq_some_iff.mpr (Or.inr ⟨_, ps, high, low, zeros, rfl, hfront, hback, hpos, height, rfl⟩),
        (joinGroups_eq_iff hlength).mpr hall⟩
      rw [List.length_append, List.length_cons]
      omega

end UploadGate.Address
