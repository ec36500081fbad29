/-
  UploadGate/Proofs/Text/Trimming.lean
  ====================================
  **Texts without blanks at their ends.**
-/
import Mathlib.Data.List.DropRight
import UploadGate.Text.Blank

namespace UploadGate.Text

/-- A text neither starts nor ends with a blank. -/
structure IsTrimmed (t : Text) : Prop where
  head : ∀ c ∈ t.head?, c.isBlank = false
  last : ∀ c ∈ t.getLast?, c.isBlank = false

theorem isTrimmed_of_forall {t : Text} (h : ∀ c ∈ t, c.isBlank = false) : t.IsTrimmed :=
  ⟨fun c hc => h c (List.mem_of_mem_head? hc), fun c hc => h c (List.mem_of_mem_getLast? hc)⟩

theorem isTrimmed_append_iff {front back : Text} (hfront : front ≠ []) (hback : back ≠ []) :
    (front ++ back).IsTrimmed ↔
      (∀ c ∈ front.head?, c.isBlank = false) ∧ ∀ c ∈ back.getLast?, c.isBlank = false := by
  rw [← List.head?_append_of_ne_nil front hfront, ← List.getLast?_append_of_ne_nil front hback]
  exact ⟨fun h => ⟨h.head, h.last⟩, fun h => ⟨h.1, h.2⟩⟩

theorem strip_eq_rdropWhile (t : Text) :
    t.strip = (t.dropWhile CodePoint.isBlank).rdropWhile CodePoint.isBlank := rfl

/-- Nothing is left of blanks alone. -/
theorem strip_eq_nil_iff {t : Text} : t.strip = [] ↔ t.isBlank = true := by
  rw [strip_eq_rdropWhile, List.rdropWhile_eq_nil_iff, Text.isBlank, List.all_eq_true]
  constructor
  · intro h c hc
    rw [← List.takeWhile_append_dropWhile (p := CodePoint.isBlank) (l := t)] at hc
    rcases List.mem_append.mp hc with hfront | hrest
    · exact List.mem_takeWhile_imp hfront
    · exact h c hrest
  · intro h c hc
    exact h c ((List.dropWhile_sublist _).subset hc)

theorem isTrimmed_strip (t : Text) : t.strip.IsTrimmed := by
  rw [strip_eq_rdropWhile]
  constructor
  · intro c hc
    obtain ⟨rest, hrest⟩ := List.rdropWhile_prefix CodePoint.isBlank (t.dropWhile CodePoint.isBlank)
    have hhead : (t.dropWhile CodePoint.isBlank).head? = some c := by
      rw [← hrest, List.head?_append, Option.mem_def.mp hc]
      rfl
    have hfirst := List.head?_dropWhile_not CodePoint.isBlank t
    rw [hhead] at hfirst
    exact hfirst
  · intro c hc
    have hne : (t.dropWhile CodePoint.isBlank).rdropWhile CodePoint.isBlank ≠ [] := by
      intro hnil
      rw [hnil] at hc
      cases hc
    obtain rfl := Option.some.inj ((List.getLast?_eq_some_getLast hne).symm.trans (Option.mem_def.mp hc))
    rw [← Bool.not_eq_true]
    exact List.rdropWhile_last_not CodePoint.isBlank _ hne

/-- Trimming changes nothing where there is nothing to trim. -/
theorem IsTrimmed.strip {t : Text} (h : t.IsTrimmed) : t.strip = t := by
  have hfront : t.dropWhile CodePoint.isBlank = t := by
    cases t with
    | nil => rfl
    | cons c t => rw [List.dropWhile_cons, if_neg (by simp [h.head c rfl])]
  rw [strip_eq_rdropWhile, hfront, List.rdropWhile_eq_self_iff]
  intro hne
  rw [h.last _ (List.getLast?_eq_some_getLast hne)]
  exact Bool.false_ne_true

/-- A text is what is left of it when it is trimmed, between blanks. -/
theorem exists_strip_append (t : Text) :
    ∃ left right : Text, t = left ++ (t.strip ++ right) ∧ left.isBlank = true ∧ right.isBlank = true := by
  refine ⟨t.takeWhile CodePoint.isBlank, (t.dropWhile CodePoint.isBlank).rtakeWhile CodePoint.isBlank, ?_, ?_, ?_⟩
  · rw [strip_eq_rdropWhile, List.rdropWhile_append_rtakeWhile, List.takeWhile_append_dropWhile]
  · exact List.all_eq_true.mpr fun c hc => List.mem_takeWhile_imp hc
  · exact List.all_eq_true.mpr fun c hc => List.mem_rtakeWhile_imp hc

theorem mem_of_mem_strip {t : Text} {c : CodePoint} (hc : c ∈ t.strip) : c ∈ t := by
  obtain ⟨left, right, ht, -, -⟩ := exists_strip_append t
  rw [ht]
  exact List.mem_append_right left (List.mem_append_left right hc)

/-- What stands trimmed between blanks is left when the blanks are dropped. -/
theorem IsTrimmed.strip_append {left t right : Text} (h : t.IsTrimmed) (hleft : left.isBlank = true)
    (hright : right.isBlank = true) : (left ++ (t ++ right)).strip = t := by
  rw [Text.isBlank, List.all_eq_true] at hleft hright
  have hdrop : (left ++ (t ++ right)).strip = (t ++ right).strip := by
    rw [strip_eq_rdropWhile, strip_eq_rdropWhile, List.dropWhile_append_of_pos hleft]
  cases t with
  | nil =>
    rw [hdrop, strip_eq_nil_iff, Text.isBlank, List.all_eq_true]
    exact hright
  | cons c t =>
    have hkept : ∀ rest : Text, (c :: rest).dropWhile CodePoint.isBlank = c :: rest := by
      intro rest
      apply List.dropWhile_cons_of_neg
      rw [h.head c rfl]
      exact Bool.false_ne_true
    have hlast : (c :: t ++ right).rdropWhile CodePoint.isBlank = (c :: t).rdropWhile CodePoint.isBlank := by
      unfold List.rdropWhile
      rw [List.reverse_append, List.dropWhile_append_of_pos]
      intro d hd
      exact hright d (List.mem_reverse.mp hd)
    calc Text.strip (left ++ (c :: t ++ right)) = Text.strip (c :: t ++ right) := hdrop
      _ = (c :: t ++ right).rdropWhile CodePoint.isBlank := by rw [strip_eq_rdropWhile, List.cons_append, hkept]
      _ = (c :: t).rdropWhile CodePoint.isBlank := hlast
      _ = Text.strip (c :: t) := by rw [strip_eq_rdropWhile, hkept]
      _ = c :: t := h.strip

end UploadGate.Text
