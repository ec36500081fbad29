/-
  UploadGate/Proofs/Config/Exactness.lean
  =======================================
  **A whole size is the number that is written, rounded to 53 bits.**

  The number and its suffix are found whatever blanks stand around them and in
  whatever letter case the suffix is written (`Writes.strip`, `cutUnit_append`).  The
  number becomes a floating point number, so that it is rounded before it is
  multiplied; the multiplication is exact.  Separators between the number and the
  suffix are blanks of the text, but the reader of numbers takes them for no space.
-/
import UploadGate.Proofs.Config.Size
import UploadGate.Proofs.Number.Reader
import UploadGate.Proofs.Number.Rounding
import UploadGate.Proofs.Text.LetterCase
import UploadGate.Proofs.Text.Trimming

namespace UploadGate

namespace Size

variable {t front suffix : Text} {n factor : Nat}

def suffixes : List (Text × Nat) :=
  [([], 1), (Text.of "b", 1), (Text.of "kb", 1024), (Text.of "mb", 1024 ^ 2), (Text.of "gb", 1024 ^ 3)]

/-- A text writes a number with a suffix in any letter case, and blanks around both. -/
inductive Writes : Text → Nat → Nat → Prop
  | intro {before between suffix behind : Text} {n factor : Nat} (hbefore : before.isBlank = true)
      (hbetween : between.isBlank = true) (hsuffix : (suffix.map CodePoint.lowerAscii, factor) ∈ suffixes)
      (hbehind : behind.isBlank = true) :
      Writes (before ++ (Text.ofNat n ++ between ++ suffix ++ behind)) n factor

def HasNoSeparator (t : Text) : Prop := ∀ c ∈ t.strip, ¬ (0x1C ≤ c.val ∧ c.val ≤ 0x1F)

instance (t : Text) : Decidable (HasNoSeparator t) := List.decidableBAll _ _

/-- A suffix in any letter case is made of letters. -/
theorem isAsciiLetter_of_mem_suffix (h : (suffix.map CodePoint.lowerAscii, factor) ∈ suffixes) :
    ∀ c ∈ suffix, c.isAsciiLetter = true := by
  have hall : (suffixes.all fun e => e.1.all CodePoint.isAsciiLetter) = true := by decide
  intro c hc
  have hsmall := List.all_eq_true.mp (List.all_eq_true.mp hall _ h) _ (List.mem_map_of_mem hc)
  exact CodePoint.isAsciiLetter_of_lowerAscii hsmall

theorem map_lowerAscii_eq_self (h : ∀ c ∈ t, c.isAsciiDigit = true ∨ c.isBlank = true) :
    t.map CodePoint.lowerAscii = t := by
  have hself : ∀ c ∈ t, c.lowerAscii = id c := fun c hc =>
    CodePoint.lowerAscii_eq_self (CodePoint.isAsciiLetter_eq_false (h c hc))
  exact (List.map_congr_left hself).trans (List.map_id t)

/-- A number is trimmed, and so is all from a number to a suffix of at least one letter. -/
theorem isTrimmed_ofNat_append (n : Nat) (between : Text) (hne : suffix ≠ [])
    (hsuffix : ∀ c ∈ suffix, c.isAsciiLetter = true) : (Text.ofNat n ++ (between ++ suffix)).IsTrimmed := by
  rw [Text.isTrimmed_append_iff (Text.ofNat_ne_nil n) (List.append_ne_nil_of_right_ne_nil _ hne),
    List.getLast?_append_of_ne_nil _ hne]
  constructor
  · intro c hc
    exact CodePoint.isBlank_eq_false_of_isAsciiDigit (Text.isAsciiDigit_of_mem_ofNat (List.mem_of_mem_head? hc))
  · intro c hc
    have hletter := hsuffix c (List.mem_of_mem_getLast? hc)
    rw [← Bool.not_eq_true]
    intro hblank
    rw [CodePoint.isAsciiLetter_eq_false (Or.inr hblank)] at hletter
    cases hletter

/-- What is left of a text that writes a size when it is trimmed. -/
theorem Writes.strip (h : Writes t n factor) :
    ∃ between suffix, between.isBlank = true ∧ (suffix.map CodePoint.lowerAscii, factor) ∈ suffixes
      ∧ t.strip = Text.ofNat n ++ between ++ suffix := by
  obtain @⟨before, between, suffix, behind, n, factor, hbefore, hbetween, hsuffix, hbehind⟩ := h
  rcases eq_or_ne suffix [] with rfl | hne
  · have hblank : (between ++ behind).isBlank = true := by
      rw [Text.isBlank, List.all_append, Bool.and_eq_true]
      exact ⟨hbetween, hbehind⟩
    have hnumber : (Text.ofNat n).IsTrimmed := by
      apply Text.isTrimmed_of_forall
      exact fun c hc => CodePoint.isBlank_eq_false_of_isAsciiDigit (Text.isAsciiDigit_of_mem_ofNat hc)
    refine ⟨[], [], rfl, hsuffix, ?_⟩
    rw [List.append_nil, List.append_nil, List.append_nil, List.append_assoc]
    exact hnumber.strip_append hbefore hblank
  · refine ⟨between, suffix, hbetween, hsuffix, ?_⟩
    have htrimmed := isTrimmed_ofNat_append n between hne (isAsciiLetter_of_mem_suffix hsuffix)
    rw [← List.append_assoc] at htrimmed
    exact htrimmed.strip_append hbefore hbehind

theorem isAsciiDigit_or_isBlank {between : Text} (h : between.isBlank = true) :
    ∀ c ∈ Text.ofNat n ++ between, c.isAsciiDigit = true ∨ c.isBlank = true := by
  intro c hc
  rcases List.mem_append.mp hc with hc | hc
  · exact Or.inl (Text.isAsciiDigit_of_mem_ofNat hc)
  · exact Or.inr (List.all_eq_true.mp h c hc)

theorem lower_append {between : Text} (hbetween : between.isBlank = true)
    (hsuffix : (suffix.map CodePoint.lowerAscii, factor) ∈ suffixes) :
    (Text.ofNat n ++ between ++ suffix).lower = Text.ofNat n ++ between ++ suffix.map CodePoint.lowerAscii := by
  have hfront := isAsciiDigit_or_isBlank (n := n) hbetween
  rw [Text.lower_eq_map, List.map_append, map_lowerAscii_eq_self hfront]
  intro c hc
  rcases List.mem_append.mp hc with hc | hc
  · exact (hfront c hc).imp_left CodePoint.lt_of_isAsciiDigit
  · exact Or.inl (CodePoint.lt_of_isAsciiLetter (isAsciiLetter_of_mem_suffix hsuffix c hc))

/-- The unit of a suffix is cut off behind a digit or a blank. -/
theorem cutUnit_append (hne : front ≠ []) (hfront : ∀ c ∈ front, c.isAsciiDigit = true ∨ c.isBlank = true)
    (hsuffix : (suffix, factor) ∈ suffixes) :
    ∃ power, factor = 2 ^ power ∧ cutUnit (front ++ suffix) = (front, power) := by
  obtain ⟨rest, z, rfl⟩ := List.eq_nil_or_concat front |>.resolve_left hne
  have hz : ∀ c : CodePoint, c.isAsciiLetter = true → c ≠ z := by
    rintro c hletter rfl
    rw [CodePoint.isAsciiLetter_eq_false (hfront c (by simp))] at hletter
    cases hletter
  have hb := hz (.ofChar 'b') (by decide)
  have hk := hz (.ofChar 'k') (by decide)
  have hm := hz (.ofChar 'm') (by decide)
  have hg := hz (.ofChar 'g') (by decide)
  simp only [suffixes, List.mem_cons, List.not_mem_nil, or_false, Prod.mk.injEq] at hsuffix
  rcases hsuffix with ⟨rfl, rfl⟩ | ⟨rfl, rfl⟩ | ⟨rfl, rfl⟩ | ⟨rfl, rfl⟩ | ⟨rfl, rfl⟩
  · refine ⟨0, rfl, ?_⟩
    simp [cutUnit, units, Text.dropEnd?, Text.of, Text.dropFront?, hb]
  · refine ⟨0, rfl, ?_⟩
    simp [cutUnit, units, Text.dropEnd?, Text.of, Text.dropFront?, hk, hm, hg]
  · refine ⟨10, rfl, ?_⟩
    have hgk : CodePoint.ofChar 'g' ≠ .ofChar 'k' := by decide
    have hmk : CodePoint.ofChar 'm' ≠ .ofChar 'k' := by decide
    simp [cutUnit, units, Text.dropEnd?, Text.of, Text.dropFront?, hgk, hmk]
  · refine ⟨20, rfl, ?_⟩
    have hgm : CodePoint.ofChar 'g' ≠ .ofChar 'm' := by decide
    simp [cutUnit, units, Text.dropEnd?, Text.of, Text.dropFront?, hgm]
  · refine ⟨30, rfl, ?_⟩
    simp [cutUnit, units, Text.dropEnd?, Text.of, Text.dropFront?]

/-- **A whole size is rounded once**, before it is multiplied. -/
theorem parse_writes (h : Writes t n factor) (hseparator : HasNoSeparator t) :
    ∃ r, (∀ s, Binary64.IsRounded n s ↔ s = r) ∧ (r * factor < 2 ^ 1024 → parse t = .ok (r * factor : Nat))
      ∧ (r = n ↔ Binary64.IsShort n) ∧ (n ≤ 2 ^ 53 → r = n) := by
  obtain ⟨between, suffix, hbetween, hsuffix, hstrip⟩ := h.strip
  have hne : Text.ofNat n ++ between ≠ [] := List.append_ne_nil_of_left_ne_nil (Text.ofNat_ne_nil n) _
  obtain ⟨power, rfl, hcut⟩ := cutUnit_append hne (isAsciiDigit_or_isBlank hbetween) hsuffix
  have hspaces : ∀ c ∈ between, c.isBlank = true ∧ ¬ (0x1C ≤ c.val ∧ c.val ≤ 0x1F) := by
    intro c hc
    refine ⟨List.all_eq_true.mp hbetween c hc, hseparator c ?_⟩
    rw [hstrip]
    exact List.mem_append_left _ (List.mem_append_right _ hc)
  have hamount : amount? t = some ((Binary64.ofDecimal false n 0).scaleUp power) := by
    rw [amount?, hstrip, lower_append hbetween hsuffix, hcut, NumberReader.binary64?_figures n hspaces, Option.map_some]
  have hrounded := Binary64.isRounded_rounded n
  refine ⟨Binary64.rounded n, fun _ => Binary64.isRounded_iff, ?_, hrounded.eq_iff_isShort, ?_⟩
  · intro hsmall
    obtain ⟨m, e, hscaled, htruncate⟩ := Binary64.exists_scaleUp_ofDecimal hsmall
    rw [parse_eq, hamount, hscaled]
    simp only [htruncate, Option.getD_some]
  · intro hle
    exact hrounded.eq_iff_isShort.mpr (Binary64.isShort_of_le hle)

/-- A number that is not short loses its last bit; a separator is no space in front of a suffix. -/
theorem exists_inexact_size :
    (Writes (Text.of "9007199254740993") 9007199254740993 1
      ∧ parse (Text.of "9007199254740993") = .ok 9007199254740992)
    ∧ Writes (Text.of "10\x1ckb") 10 1024
      ∧ parse (Text.of "10\x1ckb") = .error (.config (.size (Text.of "10\x1ckb"))) := by
  refine ⟨⟨?_, ?_⟩, ?_, ?_⟩
  · have hwritten : Text.of "9007199254740993" = [] ++ (Text.ofNat 9007199254740993 ++ [] ++ [] ++ []) := by
      decide +kernel
    rw [hwritten]
    exact .intro rfl rfl (by decide) rfl
  · decide +kernel
  · have hwritten : Text.of "10\x1ckb" = [] ++ (Text.ofNat 10 ++ Text.of "\x1c" ++ Text.of "kb" ++ []) := by
      decide +kernel
    rw [hwritten]
    exact .intro rfl (by decide) (by decide) rfl
  · decide +kernel

theorem parse_writes_kilobytes :
    Writes (Text.of " 10 Kb") 10 1024 ∧ HasNoSeparator (Text.of " 10 Kb")
      ∧ parse (Text.of " 10 Kb") = .ok 10240 := by
  have hwritten : Text.of " 10 Kb" = Text.of " " ++ (Text.ofNat 10 ++ Text.of " " ++ Text.of "Kb" ++ []) := by
    decide +kernel
  have hwrites : Writes (Text.of " 10 Kb") 10 1024 := by
    rw [hwritten]
    exact .intro (by decide) (by decide) (by decide) rfl
  have hseparator : HasNoSeparator (Text.of " 10 Kb") := by decide +kernel
  obtain ⟨r, -, hparse, -, hexact⟩ := parse_writes hwrites hseparator
  obtain rfl := hexact (by decide)
  exact ⟨hwrites, hseparator, hparse (by decide +kernel)⟩

end Size

end UploadGate
