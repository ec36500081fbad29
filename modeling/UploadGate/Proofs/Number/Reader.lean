/-
  UploadGate/Proofs/Number/Reader.lean
  ====================================
  **The reader of numbers takes figures for the number that they write.**

  Figures alone, with spaces behind them or none, pass every stage of the reader
  unchanged: there is no sign, no underscore and no word among them, and all of
  them are digits (`binary64?_figures`).
-/
import UploadGate.Number.Reader
import UploadGate.Proofs.Outcome
import UploadGate.Proofs.Text.Numerals

namespace UploadGate.NumberReader

variable {ds : List Char} {c : Char}

theorem digit?_of_isDigit (h : c.isDigit = true) : digit? c = some (c.toNat - 0x30) := by
  rw [Char.isDigit, Bool.and_eq_true, decide_eq_true_eq, decide_eq_true_eq] at h
  exact if_pos (Bool.and_eq_true_iff.mpr ⟨decide_eq_true h.1, decide_eq_true h.2⟩)

theorem ne_of_isDigit (h : c.isDigit = true) {d : Char} (hd : d.isDigit = false) : c ≠ d := by
  rintro rfl
  rw [h] at hd
  cases hd

theorem withoutUnderscores?_eq_self (h : ∀ c ∈ ds, c.isDigit = true) (before : Option Nat) :
    withoutUnderscores? before ds = some ds := by
  induction ds generalizing before with
  | nil => rfl
  | cons c ds ih =>
    rw [List.forall_mem_cons] at h
    have hne : c ≠ '_' := ne_of_isDigit h.1 rfl
    rw [withoutUnderscores?]
    · rw [ih h.2, Option.map_some]
    · rintro d rest rfl
      exact absurd rfl hne
    · intro hnil
      exact absurd hnil hne

theorem takeDigits_eq (h : ∀ c ∈ ds, c.isDigit = true) : takeDigits ds = (ds.map fun c => c.toNat - 0x30, []) := by
  induction ds with
  | nil => rfl
  | cons c ds ih =>
    rw [List.forall_mem_cons] at h
    simp only [takeDigits, digit?_of_isDigit h.1, ih h.2, List.map_cons]

theorem toLower_of_isDigit (h : c.isDigit = true) : c.toLower = c := by
  rw [Char.isDigit, Bool.and_eq_true, decide_eq_true_eq, decide_eq_true_eq] at h
  have hle : c.toNat ≤ 57 := h.2
  unfold Char.toLower
  apply dif_neg
  rintro ⟨hge, -⟩
  have hge : 65 ≤ c.toNat := hge
  omega

/-- Figures are none of the words that may stand for a number. -/
theorem word?_eq_none (hne : ds ≠ []) (h : ∀ c ∈ ds, c.isDigit = true) (negative : Bool) :
    word? negative ds = none := by
  obtain ⟨c, rest, rfl⟩ := List.exists_cons_of_ne_nil hne
  have hdigit := h c List.mem_cons_self
  have hword : ∀ d letters, d.isDigit = false →
      String.ofList ((c :: rest).map Char.toLower) ≠ String.ofList (d :: letters) := by
    intro d letters hd heq
    have hlist := String.ofList_injective heq
    rw [List.map_cons, toLower_of_isDigit hdigit, List.cons.injEq] at hlist
    exact ne_of_isDigit hdigit hd hlist.1
  unfold word?
  split
  · rename_i hinf
    exact absurd hinf (hword 'i' ['n', 'f'] rfl)
  · rename_i hinfinity
    exact absurd hinfinity (hword 'i' ['n', 'f', 'i', 'n', 'i', 't', 'y'] rfl)
  · rename_i hnan
    exact absurd hnan (hword 'n' ['a', 'n'] rfl)
  · rfl

theorem isSpace_eq_false (h : c.isDigit = true) : isSpace c = false := by
  have hdigit : 48 ≤ c.toNat := by
    rw [Char.isDigit, Bool.and_eq_true, decide_eq_true_eq] at h
    exact h.1
  have hne : c ≠ ' ' := ne_of_isDigit h rfl
  simp only [isSpace, Bool.or_eq_false_iff, beq_eq_false_iff_ne, Bool.and_eq_false_iff, decide_eq_false_iff_not]
  exact ⟨hne, Or.inr (by omega)⟩

theorem dropWhile_isSpace (hne : ds ≠ []) (h : ∀ c ∈ ds, c.isDigit = true) (rest : List Char) :
    (ds ++ rest).dropWhile isSpace = ds ++ rest := by
  obtain ⟨c, ds, rfl⟩ := List.exists_cons_of_ne_nil hne
  apply List.dropWhile_cons_of_neg
  rw [isSpace_eq_false (h c List.mem_cons_self)]
  exact Bool.false_ne_true

theorem plain?_digit (h : c.isDigit = true) : plain? (CodePoint.ofChar c) = some c := by
  have hdigit : c.toNat < 0x7F := by
    rw [Char.isDigit, Bool.and_eq_true, decide_eq_true_eq, decide_eq_true_eq] at h
    have hle : c.toNat ≤ 57 := h.2
    omega
  have hplain : plain? (CodePoint.ofChar c) = some (Char.ofNat c.toNat) := if_pos hdigit
  rw [hplain, Char.ofNat_toNat]

theorem exists_plain?_space {c : CodePoint} (h : c.isBlank = true)
    (hseparator : ¬ (0x1C ≤ c.val ∧ c.val ≤ 0x1F)) : ∃ s, plain? c = some s ∧ isSpace s = true := by
  unfold plain?
  by_cases hascii : c.val < 0x7F
  · refine ⟨Char.ofNat c.val, if_pos hascii, ?_⟩
    have hspace : c.val ∈ [9, 10, 11, 12, 13, 32] := by
      simp only [CodePoint.isBlank, Bool.or_eq_true, Bool.and_eq_true, decide_eq_true_eq, beq_iff_eq] at h
      simp only [List.mem_cons, List.not_mem_nil]
      omega
    have hall : ∀ n ∈ [9, 10, 11, 12, 13, 32], isSpace (Char.ofNat n) = true := by decide
    exact hall _ hspace
  · exact ⟨' ', by rw [if_neg hascii, if_pos h], rfl⟩

/-- The plain form of figures is the figures, whatever spaces stand behind them. -/
theorem plainForm?_figures (hne : ds ≠ []) (hdigits : ∀ c ∈ ds, c.isDigit = true) {behind : Text}
    (h : ∀ c ∈ behind, c.isBlank = true ∧ ¬ (0x1C ≤ c.val ∧ c.val ≤ 0x1F)) :
    plainForm? (ds.map CodePoint.ofChar ++ behind) = some ds := by
  generalize hspaces : behind.map (fun c => (plain? c).getD ' ') = spaces
  have hplain : (ds.map CodePoint.ofChar ++ behind).mapM plain? = some (ds ++ spaces) := by
    rw [mapM_eq_some_iff]
    apply List.rel_append
    · rw [List.forall₂_map_left_iff, List.forall₂_same]
      exact fun c hc => plain?_digit (hdigits c hc)
    · rw [← hspaces, List.forall₂_map_right_iff, List.forall₂_same]
      intro c hc
      obtain ⟨s, hs, -⟩ := exists_plain?_space (h c hc).1 (h c hc).2
      rw [hs, Option.getD_some]
  have hspace : ∀ s ∈ spaces.reverse, isSpace s = true := by
    rw [← hspaces]
    intro s hs
    obtain ⟨c, hc, rfl⟩ := List.mem_map.mp (List.mem_reverse.mp hs)
    obtain ⟨s, hs, hspace⟩ := exists_plain?_space (h c hc).1 (h c hc).2
    rw [hs, Option.getD_some, hspace]
  have hdrop := dropWhile_isSpace (List.reverse_ne_nil_iff.mpr hne) (fun c hc => hdigits c (List.mem_reverse.mp hc)) []
  rw [List.append_nil] at hdrop
  rw [plainForm?, hplain, Option.map_some, dropWhile_isSpace hne hdigits, List.reverse_append,
    List.dropWhile_append_of_pos hspace, hdrop, List.reverse_reverse]

theorem signAndRest_eq_self (hne : ds ≠ []) (h : ∀ c ∈ ds, c.isDigit = true) : signAndRest ds = (false, ds) := by
  obtain ⟨c, rest, rfl⟩ := List.exists_cons_of_ne_nil hne
  have hdigit := h c List.mem_cons_self
  unfold signAndRest
  split
  · rename_i heq
    exact absurd (List.cons.inj heq).1 (ne_of_isDigit hdigit rfl)
  · rename_i heq
    exact absurd (List.cons.inj heq).1 (ne_of_isDigit hdigit rfl)
  · rfl

/-- **Figures are read as the number that they write**, with spaces behind them or none. -/
theorem binary64?_figures (n : Nat) {behind : Text}
    (h : ∀ c ∈ behind, c.isBlank = true ∧ ¬ (0x1C ≤ c.val ∧ c.val ≤ 0x1F)) :
    binary64? (Text.ofNat n ++ behind) = some (Binary64.ofDecimal false n 0) := by
  have hne : Nat.toDigits 10 n ≠ [] := Nat.toDigits_ne_nil
  have hdigits : ∀ c ∈ Nat.toDigits 10 n, c.isDigit = true := fun c hc =>
    Nat.isDigit_of_mem_toDigits (by decide) (by decide) hc
  have hvalue : valueOf ((Nat.toDigits 10 n).map fun c => c.toNat - 0x30) = n := by
    have h := Text.decimalValue_ofNat n
    rw [Text.decimalValue, Text.ofNat, List.foldl_map] at h
    rw [valueOf, List.foldl_map]
    exact h
  have hdecimal : decimal? false (Nat.toDigits 10 n) = some (Binary64.ofDecimal false n 0) := by
    unfold decimal?
    simp [takeDigits_eq hdigits, exponent?, hvalue, hne]
  unfold binary64? Text.ofNat
  simp only [plainForm?_figures hne hdigits h, withoutUnderscores?_eq_self hdigits, Option.bind_eq_bind,
    Option.bind_some, signAndRest_eq_self hne hdigits, word?_eq_none hne hdigits, hdecimal]

end UploadGate.NumberReader
