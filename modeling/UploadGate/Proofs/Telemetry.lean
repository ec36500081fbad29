/-
  UploadGate/Proofs/Telemetry.lean
  ================================
  **What a collector holds of all that it has recorded, and what it counts.**

  A buffer holds the last of all the entries that were pushed onto it, as many as it
  has room for: the step is that the last of the last entries and one more are the last
  of all (`rtake_rtake_concat`).  Counting adds up one for each entry that carries the
  name and the labels, so it is exact as long as the floating point numbers are.
-/
import Mathlib.Data.List.DropRight
import UploadGate.Proofs.Number.Counting
import UploadGate.Telemetry

namespace UploadGate

/-! ### The last entries -/

namespace Recent

variable {α : Type} {r : Recent α} {past : List α}

theorem rtake_rtake_concat (past : List α) (x : α) (n : Nat) :
    (past.rtake n ++ [x]).rtake n = (past ++ [x]).rtake n := by
  cases n with
  | zero => rw [List.rtake_zero, List.rtake_zero]
  | succ n =>
    rw [List.rtake_concat_succ, List.rtake_concat_succ]
    simp only [List.rtake_eq_reverse_take_reverse, List.reverse_reverse, List.take_take,
      Nat.min_eq_left (Nat.le_succ n)]

theorem entries_push (h : r.entries = past.rtake r.capacity) (x : α) :
    (r.push x).entries = (past ++ [x]).rtake r.capacity := by
  rw [← rtake_rtake_concat, ← h, push, List.rtake, List.length_append, List.length_singleton]

/-- **A buffer with the last of some entries** holds the last of all when more are pushed. -/
theorem entries_foldl_push (h : r.entries = past.rtake r.capacity) (xs : List α) :
    (xs.foldl push r).entries = (past ++ xs).rtake r.capacity := by
  induction xs generalizing r past with
  | nil => rw [List.append_nil, List.foldl_nil, h]
  | cons x xs ih =>
    rw [List.foldl_cons, ih (r := r.push x) (entries_push h x), List.append_assoc, List.singleton_append,
      push_capacity]

/-- A buffer that was empty holds the last of the entries that are pushed. -/
theorem entries_foldl_push_of_nil (h : r.entries = []) (xs : List α) :
    (xs.foldl push r).entries = xs.rtake r.capacity := by
  have hnone : r.entries = ([] : List α).rtake r.capacity := by rw [h, List.rtake_nil]
  rw [entries_foldl_push hnone, List.nil_append]

end Recent

/-! ### Metrics with one label -/

namespace Metric

variable {name label text : Text} {value : Number}

theorem get?_fields_of (k : Text) :
    (Metric.of name value [(label, text)]).fields.get? k =
      if label = k then some (.text text)
      else OrderedMap.get? [(nameField, .text name), (valueField, .number value)] k :=
  OrderedMap.get?_set _ label k _

theorem amount_of {n : Nat} (hn : n ≤ 2 ^ 53) (hlabel : label ≠ valueField) :
    (Metric.of name (.integer n) [(label, text)]).amount = .ok (.whole n) := by
  have hfield : (Metric.of name (.integer n) [(label, text)]).fields.get? valueField
      = some (.number (.integer n)) := by
    rw [get?_fields_of, if_neg hlabel]
    rfl
  rw [amount, hfield]
  simp only [Number.toBinary64?, Binary64.ofInt?_natCast hn, Option.elim_some]

theorem holds_nameField_of (hlabel : label ≠ nameField) (other : Text) :
    (Metric.of name value [(label, text)]).holds nameField other = decide (name = other) := by
  rw [holds, get?_fields_of, if_neg hlabel, OrderedMap.get?_cons, if_pos rfl]
  simp only [Option.some.injEq, MetricField.text.injEq]

theorem holds_label_of (other : Text) :
    (Metric.of name value [(label, text)]).holds label other = decide (text = other) := by
  rw [holds, get?_fields_of, if_pos rfl]
  simp only [Option.some.injEq, MetricField.text.injEq]

end Metric

/-! ### The collector -/

namespace Telemetry

variable {t : Telemetry} {metrics : List Metric}

def recordAll (t : Telemetry) (metrics : List Metric) : Telemetry :=
  { t with metrics := metrics.foldl Recent.push t.metrics }

theorem recordAll_append (t : Telemetry) (early late : List Metric) :
    t.recordAll (early ++ late) = (t.recordAll early).recordAll late := by
  simp only [recordAll, List.foldl_append]

/-- A collector is made for any capacity that the machine can count to. -/
theorem ofCapacity_natCast (capacity : Nat) :
    ofCapacity capacity =
      if capacity < 2 ^ 63 then .ok ⟨⟨capacity, []⟩, ⟨capacity, []⟩⟩ else .error .outOfRange := by
  have hrange : isCapacity capacity = decide (capacity < 2 ^ 63) := by
    rw [isCapacity, Bool.eq_iff_iff]
    simp only [Bool.and_eq_true, decide_eq_true_eq]
    omega
  rw [ofCapacity, hrange, if_neg (Int.not_lt.mpr (Int.natCast_nonneg capacity)), Int.toNat_natCast]
  by_cases h : capacity < 2 ^ 63
  · rw [if_pos h, decide_eq_true h]
    rfl
  · rw [if_neg h, decide_eq_false h]
    rfl

/-! ### Counting -/

theorem foldlM_amount_eq (hones : ∀ m ∈ metrics, m.amount = .ok (.whole 1)) {n : Nat}
    (hfew : n + metrics.length ≤ 2 ^ 53) :
    metrics.foldlM (fun sum m => m.amount.map sum.add) (Binary64.whole n)
      = .ok (.whole (n + metrics.length)) := by
  induction metrics generalizing n with
  | nil => rfl
  | cons m metrics ih =>
    rw [List.length_cons] at hfew ⊢
    have hsum : (Binary64.whole n).add (.whole 1) = .whole (n + 1) := Binary64.add_whole (by omega) (by decide)
    have hrest := ih (fun m hm => hones m (List.mem_cons_of_mem _ hm)) (n := n + 1) (by omega)
    rw [Nat.add_right_comm, Nat.add_assoc] at hrest
    rw [List.foldlM_cons, hones m List.mem_cons_self, Except.map, hsum]
    exact hrest

/-- **Ones are counted**, exactly as long as they are few enough. -/
theorem total_eq_whole (hones : ∀ m ∈ metrics, m.amount = .ok (.whole 1)) (hfew : metrics.length ≤ 2 ^ 53) :
    total metrics = .ok (.whole metrics.length) := by
  have hrun := foldlM_amount_eq hones (n := 0) (by rwa [Nat.zero_add])
  rwa [Nat.zero_add] at hrun

end Telemetry

end UploadGate
