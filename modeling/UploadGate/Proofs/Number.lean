/-
  UploadGate/Proofs/Number.lean
  =============================
  **The exact order of numbers is the order of the rationals with two ends.**

  Every number but NaN stands somewhere among the rationals, below them or above
  them, whichever kind it is and however large.  The comparison of two numbers is
  the order of these places (`lt_eq_true_iff`), and of two that have a place, one
  is at most the other just when it is not above it.  A NaN is on neither side of
  anything, so no comparison with it holds.
-/
import Mathlib.Algebra.Order.Ring.Unbundled.Rat
import Mathlib.Order.WithBot
import UploadGate.Number.Basic

namespace UploadGate.Number

/-- A place among the rationals and the two ends. -/
def Place.extended : Place → WithBot (WithTop ℚ)
  | .below => ⊥
  | .at q => ((q : WithTop ℚ) : WithBot (WithTop ℚ))
  | .above => ((⊤ : WithTop ℚ) : WithBot (WithTop ℚ))

/-- The value of a number, infinite or not; a NaN has none. -/
def extended? (n : Number) : Option (WithBot (WithTop ℚ)) := n.place?.map Place.extended

/-- Both numbers have a value, and the one is at most the other. -/
def AtMost (a b : Number) : Prop := ∃ x y, a.extended? = some x ∧ b.extended? = some y ∧ x ≤ y

theorem Place.lt_eq_true_iff (p q : Place) : p.lt q = true ↔ p.extended < q.extended := by
  cases p with
  | below =>
    cases q with
    | below => simp [Place.lt, extended]
    | «at» q => simp [Place.lt, extended]
    | above => simp [Place.lt, extended]
  | «at» p =>
    cases q with
    | below => simp [Place.lt, extended]
    | «at» q => simp [Place.lt, extended]
    | above => simpa [Place.lt, extended] using WithBot.coe_lt_coe.mpr (WithTop.coe_lt_top p)
  | above =>
    cases q with
    | below => simp [Place.lt, extended]
    | «at» q => simp [Place.lt, extended]
    | above => simp [Place.lt, extended]

/-- **Numbers are compared by their exact values.** -/
theorem lt_eq_true_iff {a b : Number} :
    a.lt b = true ↔ ∃ x y, a.extended? = some x ∧ b.extended? = some y ∧ x < y := by
  unfold lt extended?
  cases a.place? with
  | none => simp
  | some p =>
    cases b.place? with
    | none => simp
    | some q => simp [Place.lt_eq_true_iff]

theorem extended?_eq_none_iff {n : Number} : n.extended? = none ↔ n = .real .nan := by
  unfold extended?
  rw [Option.map_eq_none_iff]
  cases n with
  | integer n => simp [place?]
  | real x => cases x <;> simp [place?, Binary64.value?]

theorem exists_extended {n : Number} (h : n ≠ .real .nan) : ∃ x, n.extended? = some x := by
  cases hx : n.extended? with
  | none => exact absurd (extended?_eq_none_iff.mp hx) h
  | some x => exact ⟨x, rfl⟩

theorem AtMost.ne_nan {a b : Number} (h : a.AtMost b) : a ≠ .real .nan ∧ b ≠ .real .nan := by
  obtain ⟨x, y, hx, hy, -⟩ := h
  constructor
  · intro ha
    rw [extended?_eq_none_iff.mpr ha] at hx
    cases hx
  · intro hb
    rw [extended?_eq_none_iff.mpr hb] at hy
    cases hy

/-- **Of two numbers, one that is not above the other is at most the other**, unless one of
    them is NaN. -/
theorem atMost_iff_of_lt_eq_false {a b : Number} (h : b.lt a = false) :
    a.AtMost b ↔ a ≠ .real .nan ∧ b ≠ .real .nan := by
  constructor
  · exact AtMost.ne_nan
  · rintro ⟨ha, hb⟩
    obtain ⟨x, hx⟩ := exists_extended ha
    obtain ⟨y, hy⟩ := exists_extended hb
    refine ⟨x, y, hx, hy, ?_⟩
    by_contra hlt
    have hbelow : b.lt a = true := lt_eq_true_iff.mpr ⟨y, x, hy, hx, lt_of_not_ge hlt⟩
    rw [h] at hbelow
    cases hbelow

theorem lt_of_lt_of_atMost {a b c : Number} (h : a.lt b = true) (hbc : b.AtMost c) : a.lt c = true := by
  obtain ⟨x, y, hx, hy, hxy⟩ := lt_eq_true_iff.mp h
  obtain ⟨y', z, hy', hz, hyz⟩ := hbc
  obtain rfl := Option.some.inj (hy.symm.trans hy')
  exact lt_eq_true_iff.mpr ⟨x, z, hx, hz, lt_of_lt_of_le hxy hyz⟩

theorem lt_of_atMost_of_lt {a b c : Number} (hab : a.AtMost b) (h : b.lt c = true) : a.lt c = true := by
  obtain ⟨x, y, hx, hy, hxy⟩ := hab
  obtain ⟨y', z, hy', hz, hyz⟩ := lt_eq_true_iff.mp h
  obtain rfl := Option.some.inj (hy.symm.trans hy')
  exact lt_eq_true_iff.mpr ⟨x, z, hx, hz, lt_of_le_of_lt hxy hyz⟩

end UploadGate.Number
