/-
  UploadGate/Proofs/Deployment/Recording.lean
  ===========================================
  **Addresses are recorded with one outcome in whatever order the writes end.**

  Events are delivered and writes end in any order.  What a run does is what its
  writes do in the order in which they end (`run_eq_recordAll`), and once no
  write waits these are the creations that were delivered, each as often as it
  was (`perm_ended`).  Two writes that do not bring two addresses to one row may
  change places (`written_comm`), and how one ends does not depend on another
  (`ending_congr`), which leaves the order no influence.
-/
import Mathlib.Data.List.Perm.Basic
import UploadGate.Proofs.Deployment.Shutdown
import UploadGate.Proofs.Store
import UploadGate.Proofs.Telemetry

namespace UploadGate

namespace Provenance

variable {store : Store} {t : Telemetry} {rows rows' : OrderedMap Text Row} {e : Event} {events : List Event}
  {id ip : Text} {row : Row}

/-! ### What a write comes to -/

/-- The address of a created upload, if it is known. -/
def address? (e : Event) : Option Text :=
  if e.kind = .created then (OrderedMap.get? e.metadata Metadata.remoteIpKey).filter (· ≠ []) else none

inductive Ending where
  | skipped
  /-- Not even asked of the rows, since the id has no octets. -/
  | escaped
  | refused
  | recorded
deriving DecidableEq, Repr

def ending (rows : OrderedMap Text Row) (e : Event) : Ending :=
  if address? e = none then .skipped
  else if !Store.isStorable e.uploadId then .escaped
  else if rows.has e.uploadId then .recorded
  else .refused

def recordedMetric : Metric := Metric.of (Text.of "provenance.recorded") (.integer 1) []

def failureMetric : Metric := Metric.of (Text.of "provenance.failures") (.integer 1) []

def Ending.metrics : Ending → List Metric
  | .recorded => [recordedMetric]
  | .refused => [failureMetric]
  | .skipped | .escaped => []

def Ending.failure? : Ending → Option Failure
  | .escaped => some (.value .unencodable)
  | .skipped | .refused | .recorded => none

def written (rows : OrderedMap Text Row) (e : Event) : OrderedMap Text Row :=
  match address? e, rows.get? e.uploadId with
  | some ip, some row =>
    if Store.isStorable e.uploadId then rows.set e.uploadId { row with uploaderIp? := some ip } else rows
  | _, _ => rows

/-! ### One write -/

theorem record_of_address?_eq_none (hkind : e.kind = .created) (h : address? e = none) :
    record store t e = ⟨store, t, [missingRecord e], none⟩ := by
  rw [address?, if_pos hkind] at h
  unfold record
  cases hip : OrderedMap.get? e.metadata Metadata.remoteIpKey with
  | none => rfl
  | some ip =>
    cases ip with
    | nil => rfl
    | cons c ip => simp [hip] at h

theorem record_of_address?_eq_some (h : address? e = some ip) : record store t e = write store t e ip := by
  unfold address? at h
  split at h
  · obtain ⟨hip, hne⟩ := Option.filter_eq_some_iff.mp h
    unfold record
    rw [hip]
    cases ip with
    | nil => exact absurd rfl (of_decide_eq_true hne)
    | cons c ip => rfl
  · cases h

/-- **One write** ends as `ending` says, and counts and fails accordingly. -/
theorem record_spec (hconnected : store.isConnected = true) (hkind : e.kind = .created)
    (hip : ∀ ip, address? e = some ip → Store.isStorable ip = true) (t : Telemetry) :
    (record store t e).store = { store with rows := written store.rows e }
      ∧ (record store t e).telemetry = t.recordAll (ending store.rows e).metrics
      ∧ (record store t e).failure? = (ending store.rows e).failure? := by
  cases haddress : address? e with
  | none =>
    rw [record_of_address?_eq_none hkind haddress, written, ending, haddress, if_pos rfl]
    exact ⟨rfl, rfl, rfl⟩
  | some ip =>
    rw [record_of_address?_eq_some haddress, write, written, ending, haddress,
      if_neg (Option.some_ne_none ip)]
    cases hid : Store.isStorable e.uploadId with
    | false =>
      rw [Store.setUploaderIp_of_not_isStorable hconnected (Or.inl hid)]
      refine ⟨?_, rfl, rfl⟩
      cases store.rows.get? e.uploadId <;> rfl
    | true =>
      rw [Store.setUploaderIp_of_isStorable hid (hip ip haddress), if_pos hconnected]
      cases hrow : store.rows.get? e.uploadId with
      | none =>
        rw [OrderedMap.has_eq_isSome, hrow]
        exact ⟨rfl, rfl, rfl⟩
      | some row =>
        rw [OrderedMap.has_eq_isSome, hrow]
        exact ⟨rfl, rfl, rfl⟩

theorem keys_written (rows : OrderedMap Text Row) (e : Event) : (written rows e).keys = rows.keys := by
  unfold written
  split
  · rename_i ip row _ hrow
    split
    · rw [OrderedMap.keys_set, if_pos (OrderedMap.mem_keys_iff.mpr ⟨row, hrow⟩)]
    · rfl
  · rfl

theorem ending_congr (h : rows'.keys = rows.keys) (e : Event) : ending rows' e = ending rows e := by
  have hhas : rows'.has e.uploadId = rows.has e.uploadId := by
    rw [Bool.eq_iff_iff, OrderedMap.has_eq_true_iff, OrderedMap.has_eq_true_iff, h]
  rw [ending, hhas, ending]

/-- A write leaves every row but that of its upload. -/
theorem get?_written_of_ne (h : e.uploadId = id → Store.isStorable id = true → address? e = none) :
    (written rows e).get? id = rows.get? id := by
  unfold written
  split
  · rename_i ip row haddress hrow
    split
    · rename_i hstorable
      have hne : e.uploadId ≠ id := by
        rintro rfl
        rw [h rfl hstorable] at haddress
        cases haddress
      rw [OrderedMap.get?_set, if_neg hne]
    · rfl
  · rfl

theorem get?_written (haddress : address? e = some ip) (hid : Store.isStorable e.uploadId = true)
    (hrow : rows.get? e.uploadId = some row) :
    (written rows e).get? e.uploadId = some { row with uploaderIp? := some ip } := by
  simp only [written, haddress, hrow, if_pos hid, OrderedMap.get?_set, if_true]

theorem written_of_address?_eq_none (h : address? e = none) : written rows e = rows := by
  rw [written, h]

/-- The write of an event finds a row of its own. -/
def Finds (rows : OrderedMap Text Row) (e : Event) : Prop :=
  Store.isStorable e.uploadId = true ∧ e.uploadId ∈ rows.keys

/-- A write that finds no row finds none after another write either. -/
theorem written_of_not_finds (hkeys : rows'.keys = rows.keys) (h : ¬ Finds rows e) :
    written rows' e = rows' := by
  unfold written
  split
  · rename_i ip row _ hrow
    have hmem : e.uploadId ∈ rows.keys := hkeys ▸ OrderedMap.mem_keys_iff.mpr ⟨row, hrow⟩
    rw [if_neg fun hstorable => h ⟨hstorable, hmem⟩]
  · rfl

/-- **Two writes may end in either order** if they do not bring two addresses to one row. -/
theorem written_comm {e e' : Event} (hagree : e.uploadId = e'.uploadId → ∀ ip ip',
      address? e = some ip → address? e' = some ip' → ip = ip') (rows : OrderedMap Text Row) :
    written (written rows e) e' = written (written rows e') e := by
  cases hip : address? e with
  | none => rw [written_of_address?_eq_none hip, written_of_address?_eq_none hip]
  | some ip =>
    cases hip' : address? e' with
    | none => rw [written_of_address?_eq_none hip', written_of_address?_eq_none hip']
    | some ip' =>
      by_cases heq : e.uploadId = e'.uploadId
      · obtain rfl := hagree heq ip ip' hip hip'
        have hsame : ∀ rows, written rows e = written rows e' := by
          intro rows
          rw [written, written, hip, hip', heq]
        rw [hsame, hsame]
      · by_cases hfinds : Finds rows e
        · by_cases hfinds' : Finds rows e'
          · obtain ⟨hid, hkey⟩ := hfinds
            obtain ⟨hid', hkey'⟩ := hfinds'
            obtain ⟨row, hrow⟩ := OrderedMap.mem_keys_iff.mp hkey
            obtain ⟨row', hrow'⟩ := OrderedMap.mem_keys_iff.mp hkey'
            simp only [written, hip, hip', hrow, hrow', if_pos hid, if_pos hid', OrderedMap.get?_set,
              if_neg heq, if_neg (Ne.symm heq)]
            exact OrderedMap.set_comm heq hkey _ _
          · rw [written_of_not_finds rfl hfinds', written_of_not_finds (keys_written rows e) hfinds']
        · rw [written_of_not_finds rfl hfinds, written_of_not_finds (keys_written rows e') hfinds]

/-! ### Many writes -/

theorem keys_foldl_written (rows : OrderedMap Text Row) (events : List Event) :
    (events.foldl written rows).keys = rows.keys := by
  induction events generalizing rows with
  | nil => rfl
  | cons e events ih => exact (ih (written rows e)).trans (keys_written rows e)

theorem get?_foldl_written_of_forall (rows : OrderedMap Text Row)
    (h : ∀ e ∈ events, e.uploadId = id → Store.isStorable id = true → address? e = none) :
    (events.foldl written rows).get? id = rows.get? id := by
  induction events generalizing rows with
  | nil => rfl
  | cons e events ih =>
    obtain ⟨he, hrest⟩ := List.forall_mem_cons.mp h
    exact (ih (written rows e) hrest).trans (get?_written_of_ne he)

/-- Once the address of an upload is written, it stays if all the events that are known to
    have one have the same. -/
theorem get?_foldl_written (hid : Store.isStorable id = true)
    (hsome : ∃ e ∈ events, e.uploadId = id ∧ address? e = some ip)
    (hagree : ∀ e ∈ events, e.uploadId = id → ∀ other, address? e = some other → other = ip)
    (hrow : rows.get? id = some row) :
    (events.foldl written rows).get? id = some { row with uploaderIp? := some ip } := by
  induction events generalizing rows row with
  | nil =>
    obtain ⟨e, he, -⟩ := hsome
    cases he
  | cons e events ih =>
    obtain ⟨hfirst, hrest⟩ := List.forall_mem_cons.mp hagree
    by_cases hlater : ∃ e ∈ events, e.uploadId = id ∧ address? e = some ip
    · by_cases hwrites : e.uploadId = id → Store.isStorable id = true → address? e = none
      · exact ih hlater hrest ((get?_written_of_ne hwrites).trans hrow)
      · push Not at hwrites
        obtain ⟨rfl, -, haddress⟩ := hwrites
        obtain ⟨other, hother⟩ := Option.ne_none_iff_exists'.mp haddress
        obtain rfl := hfirst rfl other hother
        have hagain := ih hlater hrest (get?_written hother hid hrow)
        exact hagain
    · -- Nothing behind the first event writes to the row, so the first one has the address.
      have hnone : ∀ e ∈ events, e.uploadId = id → Store.isStorable id = true → address? e = none := by
        intro e he heq _
        by_contra haddress
        obtain ⟨other, hother⟩ := Option.ne_none_iff_exists'.mp haddress
        obtain rfl := hrest e he heq other hother
        exact hlater ⟨e, he, heq, hother⟩
      obtain ⟨e', he', heq, haddress⟩ := hsome
      rcases List.mem_cons.mp he' with rfl | he'
      · subst heq
        exact (get?_foldl_written_of_forall _ hnone).trans (get?_written haddress hid hrow)
      · exact absurd ⟨e', he', heq, haddress⟩ hlater

/-- Events other than creations write nothing. -/
theorem foldl_written_filter (rows : OrderedMap Text Row) (events : List Event) :
    (events.filter fun e => e.kind = .created).foldl written rows = events.foldl written rows := by
  induction events generalizing rows with
  | nil => rfl
  | cons e events ih =>
    by_cases hkind : e.kind = .created
    · rw [List.filter_cons_of_pos (by simpa using hkind)]
      exact ih (written rows e)
    · have hnone : address? e = none := by rw [address?, if_neg hkind]
      rw [List.filter_cons_of_neg (by simpa using hkind), ih, List.foldl_cons,
        written_of_address?_eq_none hnone]

theorem recordAll_spec (hconnected : store.isConnected = true) (hkind : ∀ e ∈ events, e.kind = .created)
    (hip : ∀ e ∈ events, ∀ ip, address? e = some ip → Store.isStorable ip = true) (t : Telemetry) :
    (recordAll store t events).store = { store with rows := events.foldl written store.rows }
      ∧ (recordAll store t events).telemetry
        = t.recordAll ((events.map (ending store.rows)).flatMap Ending.metrics)
      ∧ (recordAll store t events).failure?
        = (events.map (ending store.rows)).findSome? Ending.failure? := by
  induction events generalizing store t with
  | nil => exact ⟨rfl, rfl, rfl⟩
  | cons e events ih =>
    obtain ⟨hkind, hkinds⟩ := List.forall_mem_cons.mp hkind
    obtain ⟨hip, hips⟩ := List.forall_mem_cons.mp hip
    obtain ⟨hstore, htelemetry, hfailure⟩ := record_spec hconnected hkind hip t
    have hopen : (record store t e).store.isConnected = true := by
      rw [hstore]
      exact hconnected
    obtain ⟨hstores, htelemetries, hfailures⟩ := ih hopen hkinds hips (record store t e).telemetry
    have hendings : ending (record store t e).store.rows = ending store.rows := by
      funext e'
      rw [hstore]
      exact ending_congr (keys_written store.rows e) e'
    refine ⟨?_, ?_, ?_⟩
    · rw [recordAll, hstores, hstore]
      rfl
    · rw [recordAll, htelemetries, htelemetry, hendings, List.map_cons, List.flatMap_cons,
        Telemetry.recordAll_append]
    · rw [recordAll, hfailures, hfailure, hendings, List.map_cons, List.findSome?_cons]
      cases (ending store.rows e).failure? <;> rfl

end Provenance

/-! ### Runs -/

namespace Recorder

open Provenance

/-- An event is delivered, or one of the writes that wait ends. -/
inductive Step where
  | deliver (e : Event)
  | endWrite (i : Nat)
deriving Repr

def step (d : Deployment) : Step → Deployment
  | .deliver e => (d.take e .provenance).1
  | .endWrite i => (d.endWrite i).1

def run (d : Deployment) (steps : List Step) : Deployment := steps.foldl step d

def delivered (steps : List Step) : List Event :=
  steps.filterMap fun
    | .deliver e => some e
    | .endWrite _ => none

/-- The events whose writes end, in the order in which they do. -/
def ended : Pending → List Step → List Event
  | _, [] => []
  | pending, .deliver e :: steps => ended (accept pending e) steps
  | pending, .endWrite i :: steps => pending[i]?.toList ++ ended (pending.eraseIdx i) steps

variable {d : Deployment} {steps : List Step}

/-- **What a run does** is what its writes do in the order in which they end. -/
theorem run_eq_recordAll (d : Deployment) (steps : List Step) :
    let r := recordAll d.engine.store d.engine.telemetry (ended d.pending steps)
    (run d steps).engine.store = r.store ∧ (run d steps).engine.telemetry = r.telemetry
      ∧ (run d steps).writeFailure? = d.writeFailure?.or r.failure? := by
  induction steps generalizing d with
  | nil => exact ⟨rfl, rfl, Option.or_none.symm⟩
  | cons first steps ih =>
    cases first with
    | deliver e => exact ih (step d (.deliver e))
    | endWrite i =>
      have hrun : run d (.endWrite i :: steps) = run (step d (.endWrite i)) steps := rfl
      have hrest := ih (step d (.endWrite i))
      cases hi : d.pending[i]? with
      | none =>
        have hstep : step d (.endWrite i) = d := by simp only [step, Deployment.endWrite, hi]
        have hended : ended d.pending (.endWrite i :: steps) = ended d.pending steps := by
          rw [ended, hi, List.eraseIdx_of_length_le (List.getElem?_eq_none_iff.mp hi)]
          rfl
        rw [hrun, hended, hstep]
        rw [hstep] at hrest
        exact hrest
      | some e =>
        have hended : ended d.pending (.endWrite i :: steps) = e :: ended (d.pending.eraseIdx i) steps := by
          rw [ended, hi]
          rfl
        have hstep : step d (.endWrite i) =
            let r := record d.engine.store d.engine.telemetry e
            (({ d with pending := d.pending.eraseIdx i, writeFailure? := d.writeFailure?.or r.failure? } :
              Deployment).setStore r.store).setTelemetry r.telemetry := by
          simp only [step, Deployment.endWrite, hi]
        rw [hrun, hended]
        rw [hstep] at hrest ⊢
        obtain ⟨hstore, htelemetry, hfailure⟩ := hrest
        exact ⟨hstore, htelemetry, hfailure.trans Option.or_assoc⟩

theorem perm_ended (d : Deployment) (steps : List Step) :
    (ended d.pending steps ++ (run d steps).pending).Perm
      (d.pending ++ (delivered steps).filter fun e => e.kind = .created) := by
  induction steps generalizing d with
  | nil => simp [ended, run, delivered]
  | cons first steps ih =>
    cases first with
    | deliver e =>
      refine (ih (step d (.deliver e))).trans ?_
      show (accept d.pending e ++ _).Perm (d.pending ++ (e :: delivered steps).filter _)
      by_cases hkind : e.kind = .created
      · simp [accept, hkind]
      · simp [accept, hkind]
    | endWrite i =>
      have hrest := ih (step d (.endWrite i))
      have hpending : (step d (.endWrite i)).pending = d.pending.eraseIdx i := (Deployment.endWrite_eq i d).2
      rw [hpending] at hrest
      show ((d.pending[i]?.toList ++ ended (d.pending.eraseIdx i) steps)
        ++ (run (step d (.endWrite i)) steps).pending).Perm (d.pending ++ (delivered steps).filter _)
      cases hi : d.pending[i]? with
      | none =>
        rw [List.eraseIdx_of_length_le (List.getElem?_eq_none_iff.mp hi)] at hrest ⊢
        exact hrest
      | some e =>
        obtain ⟨hlt, rfl⟩ := List.getElem?_eq_some_iff.mp hi
        rw [Option.toList_some, List.append_assoc]
        exact (hrest.cons _).trans ((List.getElem_cons_eraseIdx_perm hlt).append_right _)

/-! ### Counting -/

theorem perm_metrics (endings : List Ending) :
    (endings.flatMap Ending.metrics).Perm
      (List.replicate (endings.count .recorded) recordedMetric
        ++ List.replicate (endings.count .refused) failureMetric) := by
  induction endings with
  | nil => exact List.Perm.refl _
  | cons first endings ih =>
    rw [List.flatMap_cons]
    cases first with
    | skipped => simpa [Ending.metrics] using ih
    | escaped => simpa [Ending.metrics] using ih
    | recorded => simpa [Ending.metrics, List.replicate_succ] using ih
    | refused =>
      have hcons := (ih.cons failureMetric).trans List.perm_middle.symm
      simpa [Ending.metrics, List.replicate_succ] using hcons

theorem findSome?_failure? (endings : List Ending) :
    endings.findSome? Ending.failure? =
      if .escaped ∈ endings then some (.value .unencodable) else none := by
  induction endings with
  | nil => rfl
  | cons first endings ih =>
    rw [List.findSome?_cons, ih]
    cases first with
    | skipped => simp [Ending.failure?]
    | escaped => simp [Ending.failure?]
    | recorded => simp [Ending.failure?]
    | refused => simp [Ending.failure?]

theorem perm_ended_of_pending (hpending : d.pending = []) (hended : (run d steps).pending = []) :
    (ended d.pending steps).Perm ((delivered steps).filter fun e => e.kind = .created) := by
  have hperm := perm_ended d steps
  rwa [hended, List.append_nil, hpending, List.nil_append, ← hpending] at hperm

/-- Only creations have writes, and no other event has an address. -/
theorem count_ending_filter (rows : OrderedMap Text Row) (events : List Event) {x : Ending}
    (hx : x ≠ .skipped) :
    ((events.filter fun e => e.kind = .created).map (ending rows)).count x
      = (events.map (ending rows)).count x := by
  induction events with
  | nil => rfl
  | cons e events ih =>
    rw [List.map_cons, List.count_cons, ← ih]
    by_cases hkind : e.kind = .created
    · rw [List.filter_cons_of_pos (by simpa using hkind), List.map_cons, List.count_cons]
    · have hskipped : ending rows e = .skipped := by
        rw [ending, if_pos (by rw [address?, if_neg hkind])]
      rw [List.filter_cons_of_neg (by simpa using hkind), hskipped, if_neg (by simpa using hx.symm)]
      rfl

/-- The write of an event whose id has octets is refused just if there is no row for it. -/
theorem ending_of_isStorable (rows : OrderedMap Text Row) {e : Event}
    (hid : Store.isStorable e.uploadId = true) :
    ending rows e = if address? e = none then .skipped else if rows.has e.uploadId then .recorded else .refused := by
  rw [ending, hid]
  rfl

/-- The writes that find a row, and those that find none, are counted over the events. -/
theorem count_made (rows : OrderedMap Text Row) {events : List Event}
    (hids : ∀ e ∈ events, Store.isStorable e.uploadId = true) (found : Bool) :
    (events.map (ending rows)).count (if found then .recorded else .refused)
      = events.countP fun e => (address? e).isSome && rows.has e.uploadId == found := by
  rw [List.count, List.countP_map]
  apply List.countP_congr
  intro e he
  rw [Function.comp_apply, ending_of_isStorable rows (hids e he)]
  cases address? e <;> cases rows.has e.uploadId <;> cases found <;> simp

theorem escaped_notMem {rows : OrderedMap Text Row} {events : List Event}
    (hids : ∀ e ∈ events, Store.isStorable e.uploadId = true) : .escaped ∉ events.map (ending rows) := by
  intro hmem
  obtain ⟨e, he, hescaped⟩ := List.mem_map.mp hmem
  rw [ending_of_isStorable rows (hids e he)] at hescaped
  split at hescaped
  · cases hescaped
  · split at hescaped <;> cases hescaped

/-! ### The outcome -/

/-- What recording comes to, for ids of any kind: a creation with an address whose id has no
    octets, which no row can have, is not counted, and its write fails. -/
theorem outcome_of_ended (hconnected : d.engine.store.isConnected = true) (hpending : d.pending = [])
    (hended : (run d steps).pending = [])
    (hstorable : ∀ e ∈ delivered steps, ∀ ip, address? e = some ip → Store.isStorable ip = true)
    (hagree : ∀ e ∈ delivered steps, ∀ e' ∈ delivered steps, e.uploadId = e'.uploadId →
      ∀ ip ip', address? e = some ip → address? e' = some ip' → ip = ip') :
    let rows := d.engine.store.rows
    let rows' := (run d steps).engine.store.rows
    let endings := (delivered steps).map (ending rows)
    (run d steps).engine.store = { d.engine.store with rows := (delivered steps).foldl written rows }
      ∧ rows'.keys = rows.keys
      ∧ (∀ e ∈ delivered steps, ∀ ip row, address? e = some ip → Store.isStorable e.uploadId = true →
        rows.get? e.uploadId = some row →
          rows'.get? e.uploadId = some { row with uploaderIp? := some ip })
      ∧ (∀ id, (∀ e ∈ delivered steps, e.uploadId = id → Store.isStorable id = true → address? e = none) →
        rows'.get? id = rows.get? id)
      ∧ (∃ metrics, (∀ t, (run (d.setTelemetry t) steps).engine.telemetry = t.recordAll metrics)
        ∧ metrics.Perm (List.replicate (endings.count .recorded) recordedMetric
          ++ List.replicate (endings.count .refused) failureMetric))
      ∧ (run d steps).writeFailure? = d.writeFailure?.or
        (if .escaped ∈ endings then some (.value .unencodable) else none) := by
  intro rows rows' endings
  have hperm := perm_ended_of_pending hpending hended
  have hmem : ∀ e, e ∈ ended d.pending steps ↔ e ∈ delivered steps ∧ e.kind = .created := by
    intro e
    rw [hperm.mem_iff, List.mem_filter, decide_eq_true_eq]
  have hcount : ∀ x, x ≠ .skipped →
      ((ended d.pending steps).map (ending rows)).count x = endings.count x := by
    intro x hx
    rw [(hperm.map _).count_eq, count_ending_filter rows (delivered steps) hx]
  have hkind : ∀ e ∈ ended d.pending steps, e.kind = .created := fun e he => ((hmem e).mp he).2
  have hip : ∀ e ∈ ended d.pending steps, ∀ ip, address? e = some ip → Store.isStorable ip = true :=
    fun e he => hstorable e ((hmem e).mp he).1
  have hspec := recordAll_spec hconnected hkind hip
  obtain ⟨hstore, -, hfailure⟩ := run_eq_recordAll d steps
  obtain ⟨hwritten, -, hescaped⟩ := hspec d.engine.telemetry
  have hcomm : ∀ e ∈ ended d.pending steps, ∀ e' ∈ ended d.pending steps, ∀ rows,
      written (written rows e) e' = written (written rows e') e := by
    intro e he e' he'
    apply written_comm
    exact hagree e ((hmem e).mp he).1 e' ((hmem e').mp he').1
  have hfolded : (ended d.pending steps).foldl written rows = (delivered steps).foldl written rows :=
    (hperm.foldl_eq' hcomm rows).trans (foldl_written_filter rows (delivered steps))
  rw [hwritten, hfolded] at hstore
  have hrows : rows' = (delivered steps).foldl written rows := congrArg Store.rows hstore
  refine ⟨hstore, ?_, ?_, ?_, ⟨((ended d.pending steps).map (ending rows)).flatMap Ending.metrics, ?_, ?_⟩, ?_⟩
  · rw [hrows]
    exact keys_foldl_written rows (delivered steps)
  · intro e he ip row haddress hid hrow
    rw [hrows]
    apply get?_foldl_written hid ⟨e, he, rfl, haddress⟩ _ hrow
    intro e' he' heq other hother
    exact hagree e' he' e he heq other ip hother haddress
  · intro id hnone
    rw [hrows]
    exact get?_foldl_written_of_forall rows hnone
  · intro t
    exact (run_eq_recordAll (d.setTelemetry t) steps).2.1.trans (hspec t).2.1
  · rw [← hcount .recorded (by decide), ← hcount .refused (by decide)]
    exact perm_metrics _
  · have hiff : .escaped ∈ (ended d.pending steps).map (ending rows) ↔ .escaped ∈ endings := by
      rw [← List.count_pos_iff, ← List.count_pos_iff, hcount .escaped (by decide)]
    rw [hfailure, hescaped, findSome?_failure?]
    exact congrArg _ (if_congr hiff rfl rfl)

/-- What the row of an upload becomes, by the creations of it that have an address. -/
theorem get?_rows_of_ended (hconnected : d.engine.store.isConnected = true) (hpending : d.pending = [])
    (hended : (run d steps).pending = [])
    (hids : ∀ e ∈ delivered steps, Store.isStorable e.uploadId = true)
    (hstorable : ∀ e ∈ delivered steps, ∀ ip, address? e = some ip → Store.isStorable ip = true)
    (hagree : ∀ e ∈ delivered steps, ∀ e' ∈ delivered steps, e.uploadId = e'.uploadId →
      ∀ ip ip', address? e = some ip → address? e' = some ip' → ip = ip') (id : Text) :
    (∃ e ∈ delivered steps, e.uploadId = id ∧ ∃ ip, address? e = some ip
        ∧ (run d steps).engine.store.rows.get? id
          = (d.engine.store.rows.get? id).map fun row => { row with uploaderIp? := some ip })
      ∨ (∀ e ∈ delivered steps, e.uploadId = id → address? e = none)
        ∧ (run d steps).engine.store.rows.get? id = d.engine.store.rows.get? id := by
  obtain ⟨-, hkeys, hwritten, hkept, -⟩ := outcome_of_ended hconnected hpending hended hstorable hagree
  by_cases hnone : ∀ e ∈ delivered steps, e.uploadId = id → address? e = none
  · exact Or.inr ⟨hnone, hkept id fun e he heq _ => hnone e he heq⟩
  · push Not at hnone
    obtain ⟨e, he, rfl, haddress⟩ := hnone
    obtain ⟨ip, hip⟩ := Option.ne_none_iff_exists'.mp haddress
    refine Or.inl ⟨e, he, rfl, ip, hip, ?_⟩
    cases hrow : d.engine.store.rows.get? e.uploadId with
    | none =>
      apply OrderedMap.get?_eq_none_iff.mpr
      rw [hkeys]
      exact OrderedMap.get?_eq_none_iff.mp hrow
    | some row => exact hwritten e he ip row hip (hids e he) hrow

/-- **Recording does not depend on the order, and may be repeated.**  Events are delivered to a
    recorder whose store is connected, and writes end in any order until none waits.  All ids
    and addresses can be stored, and the creations of one upload that have an address have the
    same.  In the end, the row of every such upload has that address and is as it was otherwise,
    and all other rows are as they were; another order of the same events, with some of them
    delivered more often, leads to the same rows.  One recording is counted for each creation
    with an address whose id has a row, one failure for each whose id has none, and nothing
    else, and no write fails. -/
theorem recording_of_ended (hconnected : d.engine.store.isConnected = true) (hpending : d.pending = [])
    (hended : (run d steps).pending = [])
    (hids : ∀ e ∈ delivered steps, Store.isStorable e.uploadId = true)
    (hstorable : ∀ e ∈ delivered steps, ∀ ip, address? e = some ip → Store.isStorable ip = true)
    (hagree : ∀ e ∈ delivered steps, ∀ e' ∈ delivered steps, e.uploadId = e'.uploadId →
      ∀ ip ip', address? e = some ip → address? e' = some ip' → ip = ip') :
    let rows := d.engine.store.rows
    let rows' := (run d steps).engine.store.rows
    (run d steps).engine.store = { d.engine.store with rows := rows' } ∧ rows'.keys = rows.keys
      ∧ (∀ e ∈ delivered steps, ∀ ip row, address? e = some ip → rows.get? e.uploadId = some row →
        rows'.get? e.uploadId = some { row with uploaderIp? := some ip })
      ∧ (∀ id, (∀ e ∈ delivered steps, e.uploadId = id → address? e = none) → rows'.get? id = rows.get? id)
      ∧ (∀ steps', (∀ e, e ∈ delivered steps' ↔ e ∈ delivered steps) → (run d steps').pending = [] →
        (run d steps').engine.store.rows.keys = rows'.keys
          ∧ ∀ id, (run d steps').engine.store.rows.get? id = rows'.get? id)
      ∧ (∃ metrics, (∀ t, (run (d.setTelemetry t) steps).engine.telemetry = t.recordAll metrics)
        ∧ metrics.Perm
          (List.replicate ((delivered steps).countP fun e => (address? e).isSome && rows.has e.uploadId)
              recordedMetric
            ++ List.replicate ((delivered steps).countP fun e => (address? e).isSome && !rows.has e.uploadId)
              failureMetric))
      ∧ (run d steps).writeFailure? = d.writeFailure? := by
  intro rows rows'
  obtain ⟨hstore, hkeys, hwritten, hkept, hmetrics, hfailure⟩ :=
    outcome_of_ended hconnected hpending hended hstorable hagree
  have hrecorded := count_made rows hids true
  have hrefused := count_made rows hids false
  simp only [beq_true, beq_false, if_true, Bool.false_eq_true, if_false] at hrecorded hrefused
  rw [hrecorded, hrefused] at hmetrics
  rw [if_neg (escaped_notMem hids), Option.or_none] at hfailure
  have hrows : rows' = (delivered steps).foldl written rows := congrArg Store.rows hstore
  refine ⟨?_, hkeys, ?_, ?_, ?_, hmetrics, hfailure⟩
  · rw [hrows]
    exact hstore
  · exact fun e he ip row hip hrow => hwritten e he ip row hip (hids e he) hrow
  · exact fun id hnone => hkept id fun e he heq _ => hnone e he heq
  · intro steps' hsame hended'
    have hids' : ∀ e ∈ delivered steps', Store.isStorable e.uploadId = true :=
      fun e he => hids e ((hsame e).mp he)
    have hstorable' : ∀ e ∈ delivered steps', ∀ ip, address? e = some ip → Store.isStorable ip = true :=
      fun e he => hstorable e ((hsame e).mp he)
    have hagree' : ∀ e ∈ delivered steps', ∀ e' ∈ delivered steps', e.uploadId = e'.uploadId →
        ∀ ip ip', address? e = some ip → address? e' = some ip' → ip = ip' :=
      fun e he e' he' => hagree e ((hsame e).mp he) e' ((hsame e').mp he')
    obtain ⟨-, hkeys', -⟩ := outcome_of_ended hconnected hpending hended' hstorable' hagree'
    refine ⟨hkeys'.trans hkeys.symm, ?_⟩
    intro id
    rcases get?_rows_of_ended hconnected hpending hended' hids' hstorable' hagree' id with
      ⟨e', he', rfl, ip', hip', hget'⟩ | ⟨hnone', hget'⟩
    · rcases get?_rows_of_ended hconnected hpending hended hids hstorable hagree e'.uploadId with
        ⟨e, he, heq, ip, hip, hget⟩ | ⟨hnone, -⟩
      · obtain rfl := hagree e he e' ((hsame e').mp he') heq ip ip' hip hip'
        exact hget'.trans hget.symm
      · rw [hnone e' ((hsame e').mp he') rfl] at hip'
        cases hip'
    · exact hget'.trans (hkept id fun e he heq _ => hnone' e ((hsame e).mpr he) heq).symm

def plainStore : Store where
  isDurable := false
  isConnected := true
  rows := [(Text.of "a", ⟨3, { year := 2024, month := 1, day := 1 }, none⟩),
    (Text.of "z", ⟨4, { year := 2024, month := 1, day := 2 }, none⟩)]

def plainRecorder : Deployment where
  config := {}
  engine := { store := plainStore, broadcaster := { queueLimit := 0 }, telemetry := ⟨⟨8, []⟩, ⟨8, []⟩⟩ }

def plainEvent (kind : EventKind) (id ip : Text) : Event := ⟨kind, id, [(Metadata.remoteIpKey, ip)], 3, 0⟩

/-- A creation is delivered twice with other events in between, and the writes end in
    another order. -/
def plainSteps : List Step :=
  [.deliver (plainEvent .created (Text.of "a") (Text.of "192.0.2.1")),
    .deliver (plainEvent .progress (Text.of "z") (Text.of "192.0.2.9")),
    .deliver (plainEvent .created (Text.of "b") (Text.of "192.0.2.2")),
    .deliver (plainEvent .created (Text.of "z") []), .endWrite 1,
    .deliver (plainEvent .created (Text.of "a") (Text.of "192.0.2.1")), .endWrite 2, .endWrite 1, .endWrite 0]

theorem recording_of_ended_plain :
    (run plainRecorder plainSteps).engine.store.rows.get? (Text.of "a")
        = some ⟨3, { year := 2024, month := 1, day := 1 }, some (Text.of "192.0.2.1")⟩
      ∧ (run plainRecorder plainSteps).engine.store.rows.get? (Text.of "z")
        = some ⟨4, { year := 2024, month := 1, day := 2 }, none⟩
      ∧ (∃ metrics,
        (∀ t, (run (plainRecorder.setTelemetry t) plainSteps).engine.telemetry = t.recordAll metrics)
        ∧ metrics.Perm [recordedMetric, recordedMetric, failureMetric])
      ∧ (run plainRecorder plainSteps).writeFailure? = none := by
  have hids : ∀ e ∈ delivered plainSteps, Store.isStorable e.uploadId = true := by decide +kernel
  have hstorable : ∀ e ∈ delivered plainSteps, (address? e).all Store.isStorable = true := by decide +kernel
  have hagree : ∀ e ∈ delivered plainSteps, ∀ e' ∈ delivered plainSteps, e.uploadId = e'.uploadId →
      address? e = none ∨ address? e' = none ∨ address? e = address? e' := by decide +kernel
  have hconnected : plainRecorder.engine.store.isConnected = true := rfl
  have hpending : plainRecorder.pending = [] := rfl
  have hended : (run plainRecorder plainSteps).pending = [] := by decide +kernel
  obtain ⟨-, -, hwritten, hkept, -, ⟨metrics, htelemetry, hperm⟩, hfailure⟩ :=
    recording_of_ended hconnected hpending hended hids
      (by
        intro e he ip hip
        have hall := hstorable e he
        rwa [hip] at hall)
      (by
        intro e he e' he' heq ip ip' hip hip'
        rcases hagree e he e' he' heq with hnone | hnone | hsame
        · rw [hip] at hnone
          cases hnone
        · rw [hip'] at hnone
          cases hnone
        · rw [hip, hip'] at hsame
          exact Option.some.inj hsame)
  have hcreation : plainEvent .created (Text.of "a") (Text.of "192.0.2.1") ∈ delivered plainSteps := by
    decide +kernel
  have hcounts : (delivered plainSteps).countP (fun e => (address? e).isSome && plainStore.rows.has e.uploadId) = 2
      ∧ (delivered plainSteps).countP (fun e => (address? e).isSome && !plainStore.rows.has e.uploadId) = 1 := by
    decide +kernel
  refine ⟨?_, ?_, ⟨metrics, htelemetry, ?_⟩, hfailure⟩
  · exact hwritten _ hcreation _ _ (by decide +kernel) rfl
  · exact hkept (Text.of "z") (by decide +kernel)
  · rw [show plainRecorder.engine.store.rows = plainStore.rows from rfl, hcounts.1, hcounts.2] at hperm
    exact hperm

end Recorder

end UploadGate
