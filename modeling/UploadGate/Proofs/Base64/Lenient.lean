/-
  UploadGate/Proofs/Base64/Lenient.lean
  =====================================
  **Segments are what a lenient reader reads behind strict checks.**

  The usual reader of Base64 passes over what it does not know: foreign characters,
  padding in the wrong place, and all that stands behind complete padding.  It fails
  only if its last group stays incomplete.  Behind three checks of a segment it has
  nothing to pass over: the text is characters and up to two padding signs, its length
  is not one more than complete groups, and with padding it is complete groups.  Then,
  padded, it never fails, and reads what the segment stands for
  (`decodeLenient?_completed`); a text that fails a check is no segment.
-/
import UploadGate.Proofs.Base64.Padding
import UploadGate.Proofs.Base64.Segment

namespace UploadGate.Base64

variable {t data : Text} {bytes : Bytes}

/-! ### The lenient reader -/

/-- How far the last group of four has been read, with the value that was read last. -/
inductive Group where
  | complete
  | one (x : BitVec 6)
  | two (y : BitVec 6)
  | three (z : BitVec 6)

def Group.count : Group → Nat
  | .complete => 0
  | .one _ => 1
  | .two _ => 2
  | .three _ => 3

def Group.next : Group → BitVec 6 → Group
  | .complete, v => .one v
  | .one _, v => .two v
  | .two _, v => .three v
  | .three _, _ => .complete

/-- The octet that one more value completes. -/
def Group.octet? : Group → BitVec 6 → Option UInt8
  | .complete, _ => none
  | .one x, v => some (octet1 x v)
  | .two y, v => some (octet2 y v)
  | .three z, v => some (octet3 z v)

/-- Reads on in a group, with the number of padding signs behind its last character.  Padding
    that completes the group ends the text; other padding is passed over, and so is what is
    foreign to the alphabet. -/
def decodeLenientFrom (group : Group) (pads : Nat) : Text → Option Bytes
  | [] => if group.count = 0 then some [] else none
  | c :: rest =>
    if c = pad then
      if group.count < 2 then decodeLenientFrom group pads rest
      else if group.count + (pads + 1) < 4 then decodeLenientFrom group (pads + 1) rest
      else some []
    else
      match standard.value? c with
      | none => decodeLenientFrom group pads rest
      | some v => (decodeLenientFrom (group.next v) 0 rest).map ((group.octet? v).toList ++ ·)

/-- The character of the standard alphabet in the place of one of the URL alphabet. -/
def standardized (c : CodePoint) : CodePoint :=
  if c = urlSafe.char62 then standard.char62 else if c = urlSafe.char63 then standard.char63 else c

/-- Reads text in the URL alphabet leniently.  Only ASCII can be read. -/
def decodeLenient? (t : Text) : Option Bytes :=
  if t.all (·.val < 0x80) then decodeLenientFrom .complete 0 (t.map standardized) else none

/-! ### The checks of a segment -/

def isSegmentChar (c : CodePoint) : Bool :=
  c.isAsciiLetter || c.isAsciiDigit || c = .ofChar '_' || c = .ofChar '-'

structure PassesChecks (t : Text) : Prop where
  fits : ∃ data signs, t = data ++ signs ∧ (∀ c ∈ data, isSegmentChar c = true) ∧ (∀ c ∈ signs, c = pad)
    ∧ signs.length ≤ 2
  length_ne : t.length % 4 ≠ 1
  length_eq : pad ∈ t → t.length % 4 = 0

/-- The characters of the URL alphabet, in the order of their values. -/
def urlTable : Text := Text.of "ABCDEFGHIJKLMNOPQRSTUVWXYZabcdefghijklmnopqrstuvwxyz0123456789-_"

/-- A text is data in the URL alphabet, not one character more than complete groups, and is padded
    as its last group needs it or not at all. -/
structure IsWellFormed (t data : Text) : Prop where
  forall_mem : ∀ c ∈ data, c ∈ urlTable
  length_ne : data.length % 4 ≠ 1
  padded : t = data ∨ t = data ++ completion data

/-! ### The alphabet -/

theorem getElem?_urlTable : ∀ v : BitVec 6, urlTable[v.toNat]? = some (urlSafe.char v) := by
  decide +kernel

theorem value?_urlSafe_eq_some_iff {c : CodePoint} {v : BitVec 6} :
    urlSafe.value? c = some v ↔ urlTable[v.toNat]? = some c := by
  rw [getElem?_urlTable, Option.some.injEq]
  constructor
  · exact Alphabet.char_of_value?
  · rintro rfl
    exact isProper_urlSafe.value?_char v

theorem isSegmentChar_iff {c : CodePoint} : isSegmentChar c = true ↔ ∃ v, urlSafe.value? c = some v := by
  rw [← Option.isSome_iff_exists]
  unfold isSegmentChar CodePoint.isAsciiLetter CodePoint.isAsciiDigit Alphabet.value? urlSafe
  simp only [Bool.or_eq_true, Bool.and_eq_true, decide_eq_true_eq]
  grind

theorem mem_urlTable_iff {c : CodePoint} : c ∈ urlTable ↔ isSegmentChar c = true := by
  rw [isSegmentChar_iff, List.mem_iff_getElem?]
  simp only [value?_urlSafe_eq_some_iff]
  constructor
  · rintro ⟨i, hi⟩
    have hlt : i < 64 := (List.getElem?_eq_some_iff.mp hi).1
    refine ⟨.ofNat 6 i, ?_⟩
    rwa [BitVec.toNat_ofNat, Nat.mod_eq_of_lt hlt]
  · rintro ⟨v, hv⟩
    exact ⟨v.toNat, hv⟩

theorem standardized_char : ∀ v : BitVec 6,
    standardized (urlSafe.char v) = standard.char v ∧ (urlSafe.char v).val < 0x80 := by
  decide +kernel

theorem standardized_of_value? {c : CodePoint} {v : BitVec 6} (h : urlSafe.value? c = some v) :
    standardized c = standard.char v ∧ c.val < 0x80 := by
  rw [← Alphabet.char_of_value? h]
  exact standardized_char v

/-! ### Reading data -/

theorem decodeLenientFrom_char (group : Group) (pads : Nat) (v : BitVec 6) (rest : Text) :
    decodeLenientFrom group pads (standard.char v :: rest) =
      (decodeLenientFrom (group.next v) 0 rest).map ((group.octet? v).toList ++ ·) := by
  rw [decodeLenientFrom, if_neg (isProper_standard.pad_ne_char v).symm, isProper_standard.value?_char]

/-- Complete groups are read from the front, whatever stands behind them. -/
theorem decodeLenientFrom_group (pads : Nat) (x y z w : BitVec 6) (rest : Text) :
    decodeLenientFrom .complete pads
        (standard.char x :: standard.char y :: standard.char z :: standard.char w :: rest)
      = (decodeLenientFrom .complete 0 rest).map ([octet1 x y, octet2 y z, octet3 z w] ++ ·) := by
  simp only [decodeLenientFrom_char, Option.map_map]
  rfl

theorem completion_group (a b c d : CodePoint) (rest : Text) :
    completion (a :: b :: c :: d :: rest) = completion rest := by
  simp only [completion, List.length_cons]
  congr 2
  omega

theorem decodeLenientFrom_completed (h : decodeBare urlSafe data = some bytes) :
    decodeLenientFrom .complete 0 ((data ++ completion data).map standardized) = some bytes := by
  fun_induction decodeBare urlSafe data generalizing bytes with
  | case1 =>
    obtain rfl := Option.some.inj h
    rfl
  | case2 => cases h
  | case3 a b =>
    simp only [Option.bind_eq_bind, Option.bind_eq_some_iff, Option.some.injEq] at h
    obtain ⟨x, hx, y, hy, rfl⟩ := h
    have hcompletion : completion [a, b] = [pad, pad] := rfl
    simp only [hcompletion, List.cons_append, List.nil_append, List.map_cons, List.map_nil,
      (standardized_of_value? hx).1, (standardized_of_value? hy).1, decodeLenientFrom_char]
    rfl
  | case4 a b c =>
    simp only [Option.bind_eq_bind, Option.bind_eq_some_iff, Option.some.injEq] at h
    obtain ⟨x, hx, y, hy, z, hz, rfl⟩ := h
    have hcompletion : completion [a, b, c] = [pad] := rfl
    simp only [hcompletion, List.cons_append, List.nil_append, List.map_cons, List.map_nil,
      (standardized_of_value? hx).1, (standardized_of_value? hy).1, (standardized_of_value? hz).1,
      decodeLenientFrom_char]
    rfl
  | case5 a b c d rest ih =>
    simp only [Option.bind_eq_bind, Option.bind_eq_some_iff, Option.some.injEq] at h
    obtain ⟨x, hx, y, hy, z, hz, w, hw, more, hmore, rfl⟩ := h
    rw [completion_group]
    simp only [List.cons_append, List.map_cons, (standardized_of_value? hx).1, (standardized_of_value? hy).1,
      (standardized_of_value? hz).1, (standardized_of_value? hw).1, decodeLenientFrom_group, ih hmore]
    rfl

/-- **Completed data is read**, as the octets that it stands for. -/
theorem decodeLenient?_completed (h : urlSafe.Encodes data bytes) :
    decodeLenient? (data ++ completion data) = some bytes := by
  have hascii : (data ++ completion data).all (·.val < 0x80) = true := by
    rw [List.all_eq_true]
    intro c hc
    rcases List.mem_append.mp hc with hdata | hpad
    · obtain ⟨v, hv⟩ := h.exists_value? c hdata
      exact decide_eq_true (standardized_of_value? hv).2
    · rw [List.eq_of_mem_replicate hpad]
      decide
  rw [decodeLenient?, if_pos hascii, decodeLenientFrom_completed (decodeBare_eq_some_iff.mpr h)]

/-! ### Well-formed texts -/

/-- Well-formed data stands for octets. -/
theorem IsWellFormed.exists_encodes (h : IsWellFormed t data) : ∃ bytes, urlSafe.Encodes data bytes := by
  have hvalues : ∀ c ∈ data, ∃ v, urlSafe.value? c = some v := fun c hc =>
    isSegmentChar_iff.mp (mem_urlTable_iff.mp (h.forall_mem c hc))
  obtain ⟨bytes, hbytes⟩ := exists_decodeBare hvalues h.length_ne
  exact ⟨bytes, decodeBare_eq_some_iff.mp hbytes⟩

theorem length_completion (data : Text) : (completion data).length = (4 - data.length % 4) % 4 :=
  List.length_replicate

/-- Padding what is padded already adds nothing. -/
theorem IsWellFormed.append_completion (h : IsWellFormed t data) :
    t ++ completion t = data ++ completion data := by
  rcases h.padded with rfl | rfl
  · rfl
  · have hnone : completion (data ++ completion data) = [] := by
      rw [← List.length_eq_zero_iff, length_completion, List.length_append, length_completion]
      omega
    rw [hnone, List.append_nil]

theorem not_mem_of_forall_isSegmentChar (h : ∀ c ∈ data, isSegmentChar c = true) : pad ∉ data :=
  fun hpad => absurd (h pad hpad) (by decide)

/-- **The checks let through** just the well-formed texts. -/
theorem passesChecks_iff : PassesChecks t ↔ ∃ data, IsWellFormed t data := by
  constructor
  · rintro ⟨⟨data, signs, rfl, hdata, hsigns, hfew⟩, hlength, hcomplete⟩
    have htable : ∀ c ∈ data, c ∈ urlTable := fun c hc => mem_urlTable_iff.mpr (hdata c hc)
    rw [List.length_append] at hlength hcomplete
    refine ⟨data, ?_⟩
    by_cases hbare : signs = []
    · subst hbare
      exact ⟨htable, hlength, Or.inl (List.append_nil data)⟩
    · have hpos := List.length_pos_iff.mpr hbare
      have hpad : pad ∈ data ++ signs := by
        rw [← hsigns _ (List.head_mem hbare)]
        exact List.mem_append_right data (List.head_mem hbare)
      have hgroups := hcomplete hpad
      have hneeded : (4 - data.length % 4) % 4 = signs.length := by omega
      refine ⟨htable, by omega, Or.inr ?_⟩
      rw [completion, hneeded, ← List.eq_replicate_of_mem hsigns]
  · rintro ⟨data, h⟩
    have hchars : ∀ c ∈ data, isSegmentChar c = true := fun c hc => mem_urlTable_iff.mp (h.forall_mem c hc)
    have hlength := h.length_ne
    rcases h.padded with rfl | rfl
    · exact ⟨⟨t, [], (List.append_nil t).symm, hchars, List.forall_mem_nil _, Nat.zero_le _⟩, hlength,
        fun hpad => absurd hpad (not_mem_of_forall_isSegmentChar hchars)⟩
    · have hcount := length_completion data
      refine ⟨⟨data, completion data, rfl, hchars, fun c hc => List.eq_of_mem_replicate hc, by omega⟩, ?_, ?_⟩
      · rw [List.length_append]
        omega
      · intro _
        rw [List.length_append]
        omega

/-! ### Segments -/

/-- **A segment** is a well-formed text, and stands for what its data stands for. -/
theorem decodeSegment?_eq_some_iff_isWellFormed :
    decodeSegment? t = some bytes ↔ ∃ data, IsWellFormed t data ∧ urlSafe.Encodes data bytes := by
  rw [decodeSegment?_eq_some_iff]
  constructor
  · rintro ⟨data, hdata, hpadded⟩
    refine ⟨data, ⟨?_, hdata.length_mod_four_ne_one, hpadded⟩, hdata⟩
    exact fun c hc => mem_urlTable_iff.mpr (isSegmentChar_iff.mpr (hdata.exists_value? c hc))
  · rintro ⟨data, h, hdata⟩
    exact ⟨data, hdata, h.padded⟩

/-- **Behind the checks the lenient reader does not fail**, and reads what the segment stands for;
    nothing else is a segment. -/
theorem decodeSegment?_cases (t : Text) :
    (PassesChecks t ∧ ∃ bytes, decodeLenient? (t ++ completion t) = some bytes ∧ decodeSegment? t = some bytes)
      ∨ ¬ PassesChecks t ∧ decodeSegment? t = none := by
  by_cases hchecks : PassesChecks t
  · left
    obtain ⟨data, h⟩ := passesChecks_iff.mp hchecks
    obtain ⟨bytes, hbytes⟩ := h.exists_encodes
    refine ⟨hchecks, bytes, ?_, decodeSegment?_eq_some_iff_isWellFormed.mpr ⟨data, h, hbytes⟩⟩
    rw [h.append_completion, decodeLenient?_completed hbytes]
  · right
    refine ⟨hchecks, ?_⟩
    rw [Option.eq_none_iff_forall_not_mem]
    intro bytes hbytes
    obtain ⟨data, h, -⟩ := decodeSegment?_eq_some_iff_isWellFormed.mp hbytes
    exact hchecks (passesChecks_iff.mpr ⟨data, h⟩)

/-- The lenient reader alone lets foreign characters and stray padding through. -/
example :
    decodeLenient? (Text.of "Zm*9v=") = some [0x66, 0x6F, 0x6F] ∧ decodeSegment? (Text.of "Zm*9v=") = none := by
  decide

/-! ### Written segments -/

/-- What is written is data that reads as the octets, and the padding that completes it. -/
theorem exists_encodeWith_eq {α : Alphabet} (hα : α.IsProper) (bytes : Bytes) :
    ∃ data, encodeWith α bytes = data ++ completion data ∧ decodeBare α data = some bytes := by
  induction bytes using encodeWith.induct with
  | case1 => exact ⟨[], rfl, rfl⟩
  | case2 a =>
    have ha := a.toNat_lt
    refine ⟨[_, _], rfl, ?_⟩
    simp only [decodeBare, hα.value?_char, Option.bind_eq_bind, Option.bind_some]
    rw [octet1_ofNat (a := a) (by omega) (by omega)]
  | case3 a b =>
    have ha := a.toNat_lt
    have hb := b.toNat_lt
    refine ⟨[_, _, _], rfl, ?_⟩
    simp only [decodeBare, hα.value?_char, Option.bind_eq_bind, Option.bind_some]
    rw [octet1_ofNat (a := a) (by omega) (by omega), octet2_ofNat (b := b) (by omega) (by omega)]
  | case4 a b c rest ih =>
    obtain ⟨data, hdata, hread⟩ := ih
    have hcompletion : completion (encodeWith α [a, b, c] ++ data) = completion data := completion_group _ _ _ _ data
    refine ⟨encodeWith α [a, b, c] ++ data, ?_, ?_⟩
    · rw [encodeWith_group, hdata, hcompletion, List.append_assoc]
    · rw [decodeBare_group hα, hread]
      rfl

/-- **Written segments are read**, padded and bare. -/
theorem exists_decodeSegment?_encodeWith (bytes : Bytes) :
    ∃ data, encodeWith urlSafe bytes = data ++ completion data ∧ decodeSegment? data = some bytes
      ∧ decodeSegment? (data ++ completion data) = some bytes := by
  obtain ⟨data, hdata, hread⟩ := exists_encodeWith_eq isProper_urlSafe bytes
  have hencodes := decodeBare_eq_some_iff.mp hread
  refine ⟨data, hdata, decodeSegment?_eq_some_iff.mpr ⟨data, hencodes, Or.inl rfl⟩,
    decodeSegment?_eq_some_iff.mpr ⟨data, hencodes, Or.inr rfl⟩⟩

end UploadGate.Base64
