/-
  UploadGate/Telemetry.lean
  =========================
  **Metrics and notices of a running server, the most recent ones.**

  A metric is a set of fields: its name, its number and its labels, where a
  label of either name takes the place of the field.  Counting adds up the
  numbers of the metrics that carry a name and given labels, in floating point
  and oldest first.
-/
import UploadGate.Failure
import UploadGate.Number.Reader
import UploadGate.Number.Basic
import UploadGate.OrderedMap
import UploadGate.Recent

namespace UploadGate

/-! ### Metrics -/

abbrev Labels := OrderedMap Text Text

inductive MetricField where
  | number (n : Number)
  | text (t : Text)
deriving DecidableEq, Repr

structure Metric where
  fields : OrderedMap Text MetricField
deriving DecidableEq, Repr

namespace Metric

def nameField : Text := Text.of "name"

def valueField : Text := Text.of "value"

def of (name : Text) (value : Number) (labels : Labels) : Metric :=
  ⟨OrderedMap.setAll [(nameField, .text name), (valueField, .number value)]
    (labels.map fun l => (l.1, .text l.2))⟩

def holds (m : Metric) (field text : Text) : Bool := m.fields.get? field = some (.text text)

def carries (m : Metric) (name : Text) (labels : Labels) : Bool :=
  m.holds nameField name && labels.all fun l => m.holds l.1 l.2

/-- What a metric adds to a count. -/
def amount (m : Metric) : Except ValueFault Binary64 :=
  match m.fields.get? valueField with
  | some (.number n) => n.toBinary64?.elim (.error .outOfRange) .ok
  | some (.text t) => (NumberReader.binary64? t).elim (.error .notNumeric) .ok
  | none => .ok (Binary64.zero false)

end Metric

/-! ### The collector -/

structure Notice where
  message : Text
  attributes? : Option Labels
deriving DecidableEq, Repr

/-- The metrics and notices collected since the last flush. -/
structure Telemetry where
  metrics : Recent Metric
  notices : Recent Notice
deriving DecidableEq, Repr

namespace Telemetry

def isCapacity (n : Int) : Bool := -0x8000000000000000 ≤ n && n < 0x8000000000000000

def ofCapacity (capacity : Int) : Except ValueFault Telemetry :=
  if !isCapacity capacity then .error .outOfRange
  else if capacity < 0 then .error .negativeCapacity
  else .ok ⟨⟨capacity.toNat, []⟩, ⟨capacity.toNat, []⟩⟩

def addMetric (t : Telemetry) (name : Text) (value : Number) (labels : Labels) : Telemetry :=
  { t with metrics := t.metrics.push (Metric.of name value labels) }

def increment (t : Telemetry) (name : String) (labels : Labels) : Telemetry :=
  t.addMetric (Text.of name) (.integer 1) labels

def addNotice (t : Telemetry) (message : Text) (attributes? : Option Labels) : Telemetry :=
  { t with notices := t.notices.push ⟨message, attributes?⟩ }

def flush (t : Telemetry) : Telemetry := ⟨t.metrics.clear, t.notices.clear⟩

def total (metrics : List Metric) : Except ValueFault Binary64 :=
  metrics.foldlM (fun sum m => m.amount.map sum.add) (Binary64.zero false)

/-- The labels that cannot be counted by, since they are the words for the name of
    the metric and for the collector itself. -/
def reservedLabels : List Text := [Metric.nameField, Text.of "self"]

def count (t : Telemetry) (name : Text) (labels : Labels) : Except ValueFault Binary64 :=
  if labels.any fun l => reservedLabels.contains l.1 then .error .reservedLabel
  else total (t.metrics.entries.filter fun m => m.carries name labels)

end Telemetry

end UploadGate
