/-
  UploadGate/Proofs/Timestamp.lean
  ================================
  **A time that was read is read again from what is written for it.**

  The reader drops what it cannot keep: digits behind the sixth of a fraction,
  and an offset of less than a second.  What it returns therefore fits into the
  form that is written (`isKept_of_parse`), and that form is read back field by
  field, each number from the digits in front of the next mark (`parse_text`).
-/
import UploadGate.Proofs.Text.Numerals
import UploadGate.Proofs.Text.Surrogates
import UploadGate.Timestamp.Reader

namespace UploadGate.Timestamp

open Text (decimalValue)

/-- A time whose written form keeps all of it. -/
structure IsKept (t : Timestamp) : Prop where
  isValid : t.isValid = true
  microsecond : t.microsecond < perSecond
  offset : ∀ offset, t.offset? = some offset → offset = 0 ∨ perSecond ≤ offset.natAbs

theorem daysIn_le (year month : Nat) : Calendar.daysIn year month ≤ 31 := by
  unfold Calendar.daysIn
  split
  · split <;> decide
  · decide
  · decide
  · decide
  · decide
  · decide

/-! ### What is read -/

theorem lt_of_fraction? {t rest : Text} {n : Nat} (h : fraction? t = some (n, rest)) : n < perSecond := by
  obtain ⟨n', hn, heq⟩ := Option.map_eq_some_iff.mp h
  obtain ⟨rfl, -⟩ := Prod.mk.inj heq
  have hlength : (t.take 6 ++ List.replicate (6 - (t.take 6).length) (CodePoint.ofChar '0')).length = 6 := by
    rw [List.length_append, List.length_replicate, List.length_take]
    omega
  have hlt := Text.lt_of_decimal? hn
  rw [hlength] at hlt
  exact hlt

theorem lt_of_pairs? {isExtended : Bool} {left : Nat} {t rest : Text} {numbers : List Nat} {n : Nat}
    (h : pairs? isExtended left t = some (numbers, n, rest)) : n < perSecond := by
  induction left generalizing t numbers with
  | zero =>
    obtain ⟨r, hr, heq⟩ := Option.map_eq_some_iff.mp h
    obtain ⟨-, rfl, rfl⟩ := heq
    exact lt_of_fraction? hr
  | succ left ih =>
    obtain ⟨⟨number, behind⟩, -, h⟩ := Option.bind_eq_some_iff.mp h
    dsimp only at h
    split at h
    · split at h
      · obtain ⟨r, hr, heq⟩ := Option.map_eq_some_iff.mp h
        exact ih (hr.trans (congrArg some (Prod.ext rfl (Prod.mk.inj heq).2)))
      · split at h
        · obtain ⟨r, hr, heq⟩ := Option.map_eq_some_iff.mp h
          exact lt_of_fraction? (hr.trans (congrArg some (Prod.mk.inj heq).2))
        · split at h
          · cases h
          · obtain ⟨r, hr, heq⟩ := Option.map_eq_some_iff.mp h
            exact ih (hr.trans (congrArg some (Prod.ext rfl (Prod.mk.inj heq).2)))
    · split at h
      · obtain ⟨-, rfl, -⟩ := h
        decide
      · cases h

theorem microsecond_lt_of_clock? {t rest : Text} {c : Clock} (h : clock? t = some (c, rest)) :
    c.microsecond < perSecond := by
  obtain ⟨⟨numbers, n, rest'⟩, hpairs, heq⟩ := Option.map_eq_some_iff.mp h
  obtain ⟨rfl, -⟩ := Prod.mk.inj heq
  exact lt_of_pairs? hpairs

theorem natAbs_offsetOf (isWest : Bool) (c : Clock) :
    offsetOf isWest c = 0 ∨ perSecond ≤ (offsetOf isWest c).natAbs := by
  unfold offsetOf
  dsimp only
  generalize (c.hour * 60 + c.minute) * 60 + c.second = seconds
  by_cases hzero : seconds = 0
  · left
    simp [hzero]
  · right
    have hle : perSecond ≤ seconds * perSecond + c.microsecond :=
      (Nat.le_mul_of_pos_left perSecond (Nat.pos_of_ne_zero hzero)).trans (Nat.le_add_right _ _)
    cases isWest with
    | false =>
      rw [if_neg hzero, if_neg Bool.false_ne_true, Int.natAbs_natCast]
      exact hle
    | true =>
      rw [if_neg hzero, if_pos rfl, Int.natAbs_neg, Int.natAbs_natCast]
      exact hle

theorem offset_of_offsetBehind? {t : Text} {offset? : Option Int} (h : offsetBehind? t = some offset?)
    {offset : Int} (hoffset : offset? = some offset) : offset = 0 ∨ perSecond ≤ offset.natAbs := by
  subst hoffset
  unfold offsetBehind? at h
  split at h
  · cases h
  · split at h
    · split at h
      · obtain rfl := Option.some.inj (Option.some.inj h)
        exact Or.inl rfl
      · cases h
    · obtain ⟨⟨c, rest⟩, -, h⟩ := Option.bind_eq_some_iff.mp h
      dsimp only at h
      split at h
      · obtain rfl := Option.some.inj (Option.some.inj h)
        exact natAbs_offsetOf _ c
      · cases h

/-- **What is read as a time** can be written and read again. -/
theorem isKept_of_parse {text : Text} {t : Timestamp} (h : parse text = .ok t) : t.IsKept := by
  unfold parse at h
  split at h
  · rename_i stamp hstamp
    obtain rfl := Except.ok.inj h
    obtain ⟨hfields, hvalid⟩ := Option.filter_eq_some_iff.mp hstamp
    obtain ⟨clean, -, hfields⟩ := Option.bind_eq_some_iff.mp hfields
    obtain ⟨⟨year, month, day⟩, -, hfields⟩ := Option.bind_eq_some_iff.mp hfields
    dsimp only at hfields
    split at hfields
    · obtain rfl := Option.some.inj hfields
      have hpositive : 0 < perSecond := by decide
      exact ⟨hvalid, hpositive, nofun⟩
    · obtain ⟨⟨c, offset?⟩, htime, hfields⟩ := Option.bind_eq_some_iff.mp hfields
      obtain rfl := Option.some.inj hfields
      obtain ⟨⟨c', rest⟩, hclock, htime⟩ := Option.bind_eq_some_iff.mp htime
      dsimp only at htime
      split at htime
      · cases htime
      · obtain ⟨offset?', hoffset, htime⟩ := Option.bind_eq_some_iff.mp htime
        obtain ⟨rfl, rfl⟩ := Prod.mk.inj (Option.some.inj htime)
        exact ⟨hvalid, microsecond_lt_of_clock? hclock, fun offset => offset_of_offsetBehind? hoffset⟩
  · cases h

/-! ### Numbers of a width -/

theorem length_padded {width n : Nat} (hwidth : 0 < width) (hn : n < 10 ^ width) :
    (padded width n).length = width := by
  have hlength : (Text.ofNat n).length ≤ width := by
    rw [Text.ofNat, List.length_map]
    exact Nat.toDigits_length 10 n width hwidth hn
  rw [padded, List.length_append, List.length_replicate]
  omega

theorem decimal?_padded (width n : Nat) : Text.decimal? (padded width n) = some n :=
  Text.decimal?_eq_some_iff.mpr ⟨_, rfl⟩

theorem isAsciiDigit_of_mem_padded {width n : Nat} {c : CodePoint} (h : c ∈ padded width n) :
    c.isAsciiDigit = true :=
  Text.isAsciiDigit_of_isNumeral ⟨_, rfl⟩ c h

theorem takeNumber?_padded {width n : Nat} (hwidth : 0 < width) (hn : n < 10 ^ width) (rest : Text) :
    takeNumber? width (padded width n ++ rest) = some (n, rest) := by
  have hlength := length_padded hwidth hn
  rw [takeNumber?, if_neg (by rw [List.length_append, hlength]; omega), List.take_left' hlength,
    List.drop_left' hlength, decimal?_padded]
  rfl

/-- A number of two digits begins with a digit. -/
theorem exists_padded_eq_cons {width n : Nat} (hwidth : 0 < width) (hn : n < 10 ^ width) :
    ∃ d more, padded width n = d :: more ∧ d.isAsciiDigit = true := by
  cases heq : padded width n with
  | nil =>
    have hlength := length_padded hwidth hn
    rw [heq] at hlength
    exact absurd hlength.symm hwidth.ne'
  | cons d more => exact ⟨d, more, rfl, isAsciiDigit_of_mem_padded (heq ▸ List.mem_cons_self)⟩

/-! ### Times of day -/

def clockText (c : Clock) : Text :=
  padded 2 c.hour ++ (marked ':' c.minute ++ (marked ':' c.second ++ fractionText c.microsecond))

theorem fraction?_padded {n : Nat} (hn : n < perSecond) : fraction? (padded 6 n) = some (n, []) := by
  have hlength : (padded 6 n).length = 6 := length_padded (by decide) hn
  unfold fraction?
  dsimp only
  rw [List.take_of_length_le hlength.le, hlength, List.drop_eq_nil_of_le hlength.le]
  simp [decimal?_padded]

theorem pairs?_marked {n m : Nat} (hn : n < 100) (hm : m < 100) (left : Nat) (rest : Text) :
    pairs? true (left + 1) (padded 2 n ++ (marked ':' m ++ rest)) =
      (pairs? true left (padded 2 m ++ rest)).map fun r => (n :: r.1, r.2) := by
  obtain ⟨d, more, hpadded, -⟩ := exists_padded_eq_cons Nat.two_pos hm
  rw [pairs?, takeNumber?_padded (by decide) hn, marked, hpadded]
  rfl

/-- The last number stands at the end or in front of a fraction. -/
theorem pairs?_fractionText {n us : Nat} (hn : n < 100) (hus : us < perSecond) (left : Nat) :
    pairs? true (left + 1) (padded 2 n ++ fractionText us) = some ([n], us, []) := by
  rw [pairs?, takeNumber?_padded (by decide) hn, fractionText]
  by_cases hzero : us = 0
  · rw [if_pos hzero, hzero]
    rfl
  · obtain ⟨d, more, hpadded, -⟩ := exists_padded_eq_cons (by decide : 0 < 6) hus
    have hfraction := fraction?_padded hus
    rw [hpadded] at hfraction
    rw [if_neg hzero, hpadded, Option.bind_some]
    dsimp only
    rw [if_neg (by decide), if_pos (by decide), hfraction]
    rfl

theorem isAt_append {front rest : Text} {i : Nat} (hi : front.length = i) (c c' : Char) :
    isAt (front ++ .ofChar c' :: rest) i c = decide (CodePoint.ofChar c' = .ofChar c) := by
  rw [isAt, List.getElem?_append_right hi.le, hi, Nat.sub_self]
  simp

theorem clock?_clockText {c : Clock} (hour : c.hour < 100) (minute : c.minute < 100)
    (second : c.second < 100) (microsecond : c.microsecond < perSecond) :
    clock? (clockText c) = some (c, []) := by
  have hcolon : isAt (clockText c) 2 ':' = true :=
    (isAt_append (length_padded (by decide) hour) ':' ':').trans (by decide)
  rw [clock?, hcolon, clockText, pairs?_marked hour minute, pairs?_marked minute second,
    pairs?_fractionText second microsecond]
  rfl

/-- Offsets of whole minutes are written without the seconds. -/
theorem clock?_minutes {hour minute : Nat} (hhour : hour < 100) (hminute : minute < 100) :
    clock? (padded 2 hour ++ marked ':' minute) = some (⟨hour, minute, 0, 0⟩, []) := by
  have hcolon : isAt (padded 2 hour ++ marked ':' minute) 2 ':' = true :=
    (isAt_append (length_padded (by decide) hhour) ':' ':').trans (by decide)
  have hpairs := pairs?_marked hhour hminute 2 []
  have hlast := pairs?_fractionText hminute (by decide : 0 < perSecond) 1
  rw [List.append_nil, List.append_nil] at hpairs
  rw [fractionText, if_pos rfl, List.append_nil] at hlast
  rw [clock?, hcolon, hpairs, hlast]
  rfl

/-! ### Offsets -/

/-- The size of an offset, as a clock shows it. -/
def clockOf (size : Nat) : Clock :=
  ⟨size / perSecond / 3600, size / perSecond / 60 % 60, size / perSecond % 60, size % perSecond⟩

theorem offsetOf_clockOf {offset : Int} (h : offset = 0 ∨ perSecond ≤ offset.natAbs) :
    offsetOf (decide (offset < 0)) (clockOf offset.natAbs) = offset := by
  have hseconds : (offset.natAbs / perSecond / 3600 * 60 + offset.natAbs / perSecond / 60 % 60) * 60
      + offset.natAbs / perSecond % 60 = offset.natAbs / perSecond := by omega
  unfold offsetOf clockOf
  dsimp only
  rw [hseconds]
  rcases h with rfl | hle
  · rfl
  · have hpos : offset.natAbs / perSecond ≠ 0 := (Nat.div_pos hle (by decide)).ne'
    rw [if_neg hpos, Nat.mul_comm, Nat.div_add_mod]
    rcases lt_or_ge offset 0 with hneg | hneg
    · rw [if_pos (by simpa using hneg)]
      omega
    · rw [if_neg (by simpa using hneg)]
      omega

/-- What is written behind the sign is read as the size, with the seconds or without. -/
theorem clock?_offset {size : Nat} (hsize : size < 86400 * perSecond) :
    clock? (padded 2 (size / perSecond / 3600) ++ marked ':' (size / perSecond / 60 % 60)
        ++ (if size / perSecond % 60 = 0 && size % perSecond = 0 then []
          else marked ':' (size / perSecond % 60))
        ++ fractionText (size % perSecond)) = some (clockOf size, []) := by
  have hseconds : size / perSecond < 86400 := Nat.div_lt_of_lt_mul (by rwa [Nat.mul_comm] at hsize)
  have hfraction : size % perSecond < perSecond := Nat.mod_lt _ (by decide)
  by_cases hzero : size / perSecond % 60 = 0 ∧ size % perSecond = 0
  · rw [if_pos (by simpa using hzero), hzero.2, fractionText, if_pos rfl, List.append_nil, List.append_nil,
      clock?_minutes (by omega) (by omega), clockOf, hzero.1, hzero.2]
  · rw [if_neg (by simpa using hzero), List.append_assoc, List.append_assoc]
    apply clock?_clockText (c := clockOf size)
    · show size / perSecond / 3600 < 100
      omega
    · show size / perSecond / 60 % 60 < 100
      omega
    · show size / perSecond % 60 < 100
      omega
    · exact hfraction

theorem offsetBehind?_offsetText {offset : Int} (hoffset : isOffset offset = true)
    (h : offset = 0 ∨ perSecond ≤ offset.natAbs) :
    offsetBehind? (offsetText offset) = some (some offset) := by
  have hclock := clock?_offset (of_decide_eq_true hoffset)
  have hread := offsetOf_clockOf h
  unfold offsetText
  dsimp only
  rcases lt_or_ge offset 0 with hneg | hneg
  · rw [if_pos hneg, List.cons_append, List.cons_append, List.cons_append, offsetBehind?,
      if_neg (by decide), hclock]
    rw [decide_eq_true hneg] at hread
    exact congrArg (some ∘ some) hread
  · rw [if_neg hneg.not_gt, List.cons_append, List.cons_append, List.cons_append, offsetBehind?,
      if_neg (by decide), hclock]
    rw [decide_eq_false hneg.not_gt] at hread
    exact congrArg (some ∘ some) hread

theorem beginsOffset_of_mem_padded {width n : Nat} {a : CodePoint} (h : a ∈ padded width n) :
    beginsOffset a = false := by
  obtain ⟨hlt, heq⟩ := Text.eq_digit_of_isAsciiDigit (isAsciiDigit_of_mem_padded h)
  have hall : ∀ d < 10, beginsOffset (Text.digit d) = false := by decide
  rw [heq]
  exact hall _ hlt

theorem beginsOffset_of_mem_clockText {c : Clock} {a : CodePoint} (h : a ∈ clockText c) :
    beginsOffset a = false := by
  rcases List.mem_append.mp h with hour | h
  · exact beginsOffset_of_mem_padded hour
  · rcases List.mem_append.mp h with minute | h
    · rcases List.mem_cons.mp minute with rfl | minute
      · decide
      · exact beginsOffset_of_mem_padded minute
    · rcases List.mem_append.mp h with second | fraction
      · rcases List.mem_cons.mp second with rfl | second
        · decide
        · exact beginsOffset_of_mem_padded second
      · unfold fractionText at fraction
        split at fraction
        · cases fraction
        · rcases List.mem_cons.mp fraction with rfl | fraction
          · decide
          · exact beginsOffset_of_mem_padded fraction

/-- A time is read up to the mark that begins the offset, if there is one. -/
theorem timeOfDay?_append {front tail : Text} (hfront : ∀ a ∈ front, beginsOffset a = false)
    (htail : ∀ a, tail.head? = some a → beginsOffset a = true) :
    timeOfDay? (front ++ tail) = (clock? front).bind fun r =>
      if tail.isEmpty && !isEnd r.2 then none
      else (offsetBehind? tail).bind fun offset? => some (r.1, offset?) := by
  have htime : ∀ a ∈ front, (!beginsOffset a) = true := by
    intro a ha
    rw [hfront a ha]
    rfl
  have htake : tail.takeWhile (!beginsOffset ·) = [] := by
    cases tail with
    | nil => rfl
    | cons mark more => rw [List.takeWhile_cons_of_neg (by simp [htail mark rfl])]
  have hdrop : tail.dropWhile (!beginsOffset ·) = tail := by
    cases tail with
    | nil => rfl
    | cons mark more => rw [List.dropWhile_cons_of_neg (by simp [htail mark rfl])]
  unfold timeOfDay?
  rw [List.takeWhile_append_of_pos htime, List.dropWhile_append_of_pos htime, htake, hdrop,
    List.append_nil]
  rfl

theorem timeOfDay?_text {c : Clock} {offset? : Option Int} (hour : c.hour < 100) (minute : c.minute < 100)
    (second : c.second < 100) (microsecond : c.microsecond < perSecond)
    (hoffset : ∀ offset, offset? = some offset →
      isOffset offset = true ∧ (offset = 0 ∨ perSecond ≤ offset.natAbs)) :
    timeOfDay? (clockText c ++ offset?.elim [] offsetText) = some (c, offset?) := by
  have hclock := clock?_clockText hour minute second microsecond
  have hfront : ∀ a ∈ clockText c, beginsOffset a = false := fun a => beginsOffset_of_mem_clockText
  cases offset? with
  | none =>
    have hend : ∀ a, ([] : Text).head? = some a → beginsOffset a = true := by
      intro a ha
      cases ha
    rw [Option.elim_none, timeOfDay?_append hfront hend, hclock]
    rfl
  | some offset =>
    obtain ⟨hsize, hkept⟩ := hoffset offset rfl
    have hmark : ∀ a, (offsetText offset).head? = some a → beginsOffset a = true := by
      intro a ha
      obtain rfl := Option.some.inj ha
      split <;> decide
    rw [Option.elim_some, timeOfDay?_append hfront hmark, hclock, offsetBehind?_offsetText hsize hkept]
    rfl

/-! ### Dates -/

def dateText (year month day : Nat) : Text := padded 4 year ++ (marked '-' month ++ marked '-' day)

theorem length_dateText {year month day : Nat} (hyear : year < 10000) (hmonth : month < 100)
    (hday : day < 100) : (dateText year month day).length = 10 := by
  simp only [dateText, marked, List.length_append, List.length_cons,
    length_padded (by decide : 0 < 4) hyear, length_padded Nat.two_pos hmonth,
    length_padded Nat.two_pos hday]

theorem date?_dateText {year month day : Nat} (hyear : year < 10000) (hmonth : month < 100)
    (hday : day < 100) : date? (dateText year month day) = some (year, month, day) := by
  obtain ⟨d, more, hpadded, hdigit⟩ := exists_padded_eq_cons Nat.two_pos hmonth
  have hweek : Text.dropFront? (Text.of "W") (padded 2 month ++ marked '-' day) = none := by
    rw [hpadded]
    refine if_neg ?_
    rintro rfl
    exact absurd hdigit (by decide)
  have hextended : isAt (marked '-' month ++ marked '-' day) 0 '-' = true := rfl
  have hfirst : dropHyphen? true (marked '-' month ++ marked '-' day) =
      some (padded 2 month ++ marked '-' day) := rfl
  have hsecond : dropHyphen? true (marked '-' day) = some (padded 2 day) := rfl
  have hlast := takeNumber?_padded Nat.two_pos hday []
  rw [List.append_nil] at hlast
  unfold date? dateText
  rw [takeNumber?_padded (by decide) hyear]
  simp only [Option.bind_eq_bind, Option.bind_some, hextended, hfirst, hweek]
  unfold monthDate?
  rw [takeNumber?_padded (by decide) hmonth]
  simp only [Option.bind_eq_bind, Option.bind_some, hsecond, hlast]
  rfl

theorem dateLength_dateText {year month day : Nat} (hyear : year < 10000) (hmonth : month < 100)
    (hday : day < 100) (rest : Text) : dateLength (dateText year month day ++ rest) = 10 := by
  obtain ⟨d, more, hpadded, hdigit⟩ := exists_padded_eq_cons Nat.two_pos hmonth
  have hlength := length_dateText hyear hmonth hday
  have hfour := length_padded (by decide : 0 < 4) hyear
  have hhyphen : isAt (dateText year month day ++ rest) 4 '-' = true := by
    rw [dateText, List.append_assoc]
    exact (isAt_append hfour '-' '-').trans (by decide)
  have hweek : isAt (dateText year month day ++ rest) 5 'W' = false := by
    rw [dateText, marked, hpadded, List.append_assoc, isAt, List.getElem?_append_right (by omega), hfour]
    refine decide_eq_false fun heq => ?_
    obtain rfl := Option.some.inj heq
    exact absurd hdigit (by decide)
  rw [dateLength, if_neg (by rw [List.length_append, hlength]; omega), hhyphen, hweek]
  rfl

/-! ### Whole timestamps -/

theorem withoutSurrogate?_eq_some {t : Text} (h : t.any CodePoint.isSurrogate = false) :
    withoutSurrogate? t = some t := by
  have hnone : ∀ i : Nat, t[i]?.any CodePoint.isSurrogate = false := by
    intro i
    cases hi : t[i]? with
    | none => rfl
    | some c =>
      rw [List.any_eq_false] at h
      simpa using h c (List.mem_of_getElem? hi)
  have hfind : [7, 8, 10].find? (fun i => t[i]?.any CodePoint.isSurrogate) = none := by
    rw [List.find?_eq_none]
    intro i _
    rw [hnone i]
    decide
  rw [withoutSurrogate?, hfind, if_neg (by simp [h])]

@[simp] theorem any_isSurrogate_padded (width n : Nat) :
    (padded width n).any CodePoint.isSurrogate = false := by
  rw [padded, List.any_append, Text.any_isSurrogate_ofNat, Bool.or_false, List.any_eq_false]
  intro c hc
  rw [List.eq_of_mem_replicate hc]
  decide

@[simp] theorem any_isSurrogate_marked (mark : Char) (n : Nat) :
    (marked mark n).any CodePoint.isSurrogate = false := by
  simp [marked, CodePoint.isSurrogate_ofChar]

@[simp] theorem any_isSurrogate_fractionText (n : Nat) :
    (fractionText n).any CodePoint.isSurrogate = false := by
  unfold fractionText
  split
  · rfl
  · simp [CodePoint.isSurrogate_ofChar]

theorem any_isSurrogate_offsetText (offset : Int) :
    (offsetText offset).any CodePoint.isSurrogate = false := by
  unfold offsetText
  dsimp only
  rw [List.any_append, any_isSurrogate_fractionText, Bool.or_false]
  split <;> split <;> simp [CodePoint.isSurrogate_ofChar]

theorem any_isSurrogate_text (t : Timestamp) : t.text.any CodePoint.isSurrogate = false := by
  unfold text
  rw [List.any_append]
  cases t.offset? with
  | none => simp
  | some offset => simp [any_isSurrogate_offsetText]

theorem text_eq (t : Timestamp) :
    t.text = dateText t.year t.month t.day
      ++ .ofChar 'T' :: (clockText ⟨t.hour, t.minute, t.second, t.microsecond⟩
        ++ t.offset?.elim [] offsetText) := by
  simp [text, dateText, clockText, marked]

/-- **What is written for a time** that can be kept is read as it. -/
theorem parse_text {t : Timestamp} (h : t.IsKept) : parse t.text = .ok t := by
  obtain ⟨hvalid, hmicrosecond, hoffset⟩ := h
  have hranges := hvalid
  simp only [isValid, Bool.and_eq_true, decide_eq_true_eq] at hranges
  obtain ⟨⟨⟨⟨⟨⟨⟨⟨⟨-, hyear⟩, -⟩, hmonth⟩, -⟩, hday⟩, hhour⟩, hminute⟩, hsecond⟩, hsize⟩ := hranges
  have hshort : t.day < 100 := by
    have hdays : Calendar.daysIn t.year t.month ≤ 31 := daysIn_le t.year t.month
    omega
  have hdate := date?_dateText (by omega : t.year < 10000) (by omega : t.month < 100) hshort
  have hoffsets : ∀ offset, t.offset? = some offset →
      isOffset offset = true ∧ (offset = 0 ∨ perSecond ≤ offset.natAbs) := by
    intro offset heq
    rw [heq] at hsize
    exact ⟨hsize, hoffset offset heq⟩
  have htime : timeOfDay? (clockText ⟨t.hour, t.minute, t.second, t.microsecond⟩
      ++ t.offset?.elim [] offsetText) = some (⟨t.hour, t.minute, t.second, t.microsecond⟩, t.offset?) := by
    apply timeOfDay?_text
    · exact hhour.trans (by decide)
    · exact hminute.trans (by decide)
    · exact hsecond.trans (by decide)
    · exact hmicrosecond
    · exact hoffsets
  have hfields : fields? t.text = some t := by
    have hlength := length_dateText (by omega : t.year < 10000) (by omega : t.month < 100) hshort
    rw [text_eq, fields?, dateLength_dateText (by omega) (by omega) hshort, List.take_left' hlength,
      List.drop_left' hlength, hdate]
    show (timeOfDay? _).bind _ = _
    rw [htime]
    rfl
  rw [parse, withoutSurrogate?_eq_some (any_isSurrogate_text t), Option.bind_some, hfields,
    Option.filter_some, if_pos hvalid]

end UploadGate.Timestamp
