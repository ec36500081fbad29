/-
  UploadGate/Proofs/Activity.lean
  ===============================
  **The journal and the counts show the last events, each as many as it has room for.**

  Handling an event pushes it onto the journal and a metric of its kind onto the
  collector, and neither looks at what the other still holds (`handleAll_eq`).  Hence
  two windows move over the events: the journal holds the last 200, and the counts are
  those of the last that fit into the collector (`counted_handleAll`).
-/
import UploadGate.Activity
import UploadGate.Proofs.Telemetry

namespace UploadGate

theorem EventKind.name_inj {j k : EventKind} : j.name = k.name ↔ j = k := by
  cases j <;> cases k <;> decide +kernel

namespace Activity

variable {t : Telemetry} {recent : List Event}

/-! ### What is shown -/

def metricName : Text := Text.of "uploads.events"

/-- The label that tells events of different kinds apart. -/
def kindLabel : Text := Text.of "type"

def eventMetric (k : EventKind) : Metric := Metric.of metricName (.integer 1) [(kindLabel, k.name)]

def ofKind (k : EventKind) (events : List Event) : Nat := events.countP fun e => e.kind = k

/-- What is kept and counted of events by a collector that has room for some metrics. -/
structure Counted (capacity : Nat) (events : List Event) (journal : Journal) (t : Telemetry) : Prop where
  kept : journal.entries = events.rtake (min events.length 200)
  count_kind : ∀ k : EventKind, ∃ x, t.count metricName [(kindLabel, k.name)] = .ok x
    ∧ x.value? = some ((ofKind k (events.rtake (min events.length capacity)) : Nat) : Rat)
  count_all : ∃ x, t.count metricName [] = .ok x ∧ x.value? = some ((min events.length capacity : Nat) : Rat)
  /-- The counts of all kinds add up to the count without a kind, in floating point. -/
  sum_eq : (EventKind.all.mapM fun k => t.count metricName [(kindLabel, k.name)]).map
      (List.foldl Binary64.add (.zero false)) = t.count metricName []

/-! ### Handling events -/

theorem handle_eq (journal : Journal) (t : Telemetry) (e : Event) :
    handle journal t e = (journal.push e, t.recordAll [eventMetric e.kind], [eventRecord e]) := rfl

/-- **A run** pushes every event and records the metric of its kind. -/
theorem handleAll_eq (journal : Journal) (t : Telemetry) (events : List Event) :
    handleAll journal t events = (events.foldl Recent.push journal,
      t.recordAll (events.map fun e => eventMetric e.kind), events.map eventRecord) := by
  induction events generalizing journal t with
  | nil => rfl
  | cons e events ih =>
    simp only [handleAll, handle_eq, ih, ← Telemetry.recordAll_append]
    rfl

/-! ### Counting events -/

theorem amount_eventMetric (k : EventKind) : (eventMetric k).amount = .ok (.whole 1) :=
  Metric.amount_of (by decide) (by decide)

theorem carries_eventMetric (j k : EventKind) :
    (eventMetric j).carries metricName [(kindLabel, k.name)] = decide (j = k) := by
  rw [Metric.carries, eventMetric, Metric.holds_nameField_of (by decide), List.all_cons, List.all_nil,
    Metric.holds_label_of, decide_eq_true rfl, Bool.true_and, Bool.and_true]
  simp only [EventKind.name_inj]

theorem carries_eventMetric_nil (k : EventKind) : (eventMetric k).carries metricName [] = true := by
  rw [Metric.carries, eventMetric, Metric.holds_nameField_of (by decide), List.all_nil, decide_eq_true rfl,
    Bool.and_self]

/-- Events are counted by the labels that their metrics carry. -/
theorem count_eq (hentries : t.metrics.entries = recent.map fun e => eventMetric e.kind)
    (hfew : recent.length ≤ 2 ^ 53) {labels : Labels} {p : Event → Bool}
    (hlabels : (labels.any fun l => Telemetry.reservedLabels.contains l.1) = false)
    (hcarries : ∀ e, (eventMetric e.kind).carries metricName labels = p e) :
    t.count metricName labels = .ok (.whole (recent.countP p)) := by
  have hfilter : (t.metrics.entries.filter fun m => m.carries metricName labels)
      = (recent.filter p).map fun e => eventMetric e.kind := by
    rw [hentries, List.filter_map]
    congr 1
    exact List.filter_congr fun e _ => hcarries e
  have hones : ∀ m ∈ (recent.filter p).map fun e => eventMetric e.kind, m.amount = .ok (.whole 1) := by
    intro m hm
    obtain ⟨e, -, rfl⟩ := List.mem_map.mp hm
    exact amount_eventMetric e.kind
  rw [Telemetry.count, hlabels, if_neg Bool.false_ne_true, hfilter, Telemetry.total_eq_whole hones,
    List.length_map, List.countP_eq_length_filter]
  rw [List.length_map]
  exact (List.length_filter_le p recent).trans hfew

theorem count_kind_eq (hentries : t.metrics.entries = recent.map fun e => eventMetric e.kind)
    (hfew : recent.length ≤ 2 ^ 53) (k : EventKind) :
    t.count metricName [(kindLabel, k.name)] = .ok (.whole (ofKind k recent)) := by
  have hlabel : Telemetry.reservedLabels.contains kindLabel = false := by decide
  apply count_eq hentries hfew
  · rw [List.any_cons, hlabel, List.any_nil, Bool.false_or]
  · exact fun e => carries_eventMetric e.kind k

theorem count_all_eq (hentries : t.metrics.entries = recent.map fun e => eventMetric e.kind)
    (hfew : recent.length ≤ 2 ^ 53) : t.count metricName [] = .ok (.whole recent.length) := by
  rw [count_eq hentries hfew rfl fun e => carries_eventMetric_nil e.kind, List.countP_true]

/-- Every event is of one of the kinds. -/
theorem sum_ofKind (events : List Event) :
    ofKind .created events + ofKind .progress events + ofKind .completed events + ofKind .terminated events
      = events.length := by
  induction events with
  | nil => rfl
  | cons e events ih =>
    simp only [ofKind] at ih
    simp only [ofKind, List.countP_cons, List.length_cons, ← ih]
    cases e.kind <;> simp <;> omega

/-- The counts of few events are added exactly. -/
theorem sum_count_eq (hentries : t.metrics.entries = recent.map fun e => eventMetric e.kind)
    (hfew : recent.length ≤ 2 ^ 53) :
    (EventKind.all.mapM fun k => t.count metricName [(kindLabel, k.name)]).map
      (List.foldl Binary64.add (.zero false)) = t.count metricName [] := by
  have hsum := sum_ofKind recent
  have hcounts : (EventKind.all.mapM fun k => t.count metricName [(kindLabel, k.name)])
      = .ok (EventKind.all.map fun k => .whole (ofKind k recent)) := by
    simp only [count_kind_eq hentries hfew]
    rfl
  rw [hcounts, count_all_eq hentries hfew, Except.map, ← Binary64.whole_zero]
  simp only [EventKind.all, List.map_cons, List.map_nil, List.foldl_cons, List.foldl_nil]
  rw [Binary64.add_whole (by omega) (by omega), Binary64.add_whole (by omega) (by omega),
    Binary64.add_whole (by omega) (by omega), Binary64.add_whole (by omega) (by omega), Nat.zero_add, hsum]

theorem rtake_min_length {α : Type} (xs : List α) (n : Nat) : xs.rtake (min xs.length n) = xs.rtake n := by
  rw [List.rtake, List.rtake]
  congr 1
  omega

/-- **The last events are kept and counted**, by a journal and a collector that were empty. -/
theorem counted_handleAll (capacity : Nat) {events : List Event} (hfew : events.length < 2 ^ 53) :
    2 ^ 63 ≤ capacity ∧ Telemetry.ofCapacity capacity = .error .outOfRange
      ∨ ∃ fresh journal t logs, Telemetry.ofCapacity capacity = .ok fresh
        ∧ handleAll .empty fresh events = (journal, t, logs) ∧ Counted capacity events journal t := by
  rw [Telemetry.ofCapacity_natCast]
  rcases Nat.lt_or_ge capacity (2 ^ 63) with hlt | hge
  · right
    rw [if_pos hlt]
    refine ⟨_, _, _, _, rfl, handleAll_eq _ _ events, ?_⟩
    have hentries := Recent.entries_foldl_push_of_nil (r := ⟨capacity, []⟩) rfl
      (events.map fun e => eventMetric e.kind)
    have hlength : (events.rtake capacity).length = min events.length capacity := by
      rw [List.rtake, List.length_drop]
      omega
    have hrecent : (events.rtake capacity).length ≤ 2 ^ 53 := by omega
    rw [List.rtake, List.length_map, ← List.map_drop, ← List.rtake] at hentries
    refine ⟨?_, ?_, ?_, sum_count_eq hentries hrecent⟩
    · rw [rtake_min_length]
      exact Recent.entries_foldl_push_of_nil rfl events
    · intro k
      refine ⟨_, count_kind_eq hentries hrecent k, ?_⟩
      rw [rtake_min_length]
      exact Binary64.value?_whole (List.countP_le_length.trans hrecent)
    · refine ⟨_, count_all_eq hentries hrecent, ?_⟩
      rw [Binary64.value?_whole hrecent, hlength]
  · left
    exact ⟨hge, if_neg (Nat.not_lt.mpr hge)⟩

def courseOfUpload : List Event :=
  [⟨.created, Text.of "u1", [], 2, 0⟩, ⟨.progress, Text.of "u1", [], 2, 1⟩, ⟨.progress, Text.of "u1", [], 2, 2⟩,
    ⟨.completed, Text.of "u1", [], 2, 2⟩]

/-- The first event has fallen off a collector for three metrics, and not off the journal. -/
theorem counted_handleAll_courseOfUpload :
    courseOfUpload.length < 2 ^ 53
      ∧ (∃ fresh journal t logs, Telemetry.ofCapacity 3 = .ok fresh
        ∧ handleAll .empty fresh courseOfUpload = (journal, t, logs) ∧ Counted 3 courseOfUpload journal t)
      ∧ courseOfUpload.rtake (min 4 200) = courseOfUpload
      ∧ (EventKind.all.map fun k => ofKind k (courseOfUpload.rtake (min 4 3))) = [0, 2, 1, 0] := by
  have hfew : courseOfUpload.length < 2 ^ 53 := by decide
  refine ⟨hfew, ?_, by decide, by decide⟩
  obtain ⟨hlarge, -⟩ | hcounted := counted_handleAll 3 hfew
  · exact absurd hlarge (by decide)
  · exact hcounted

end Activity

end UploadGate
