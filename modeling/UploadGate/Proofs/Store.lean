/-
  UploadGate/Proofs/Store.lean
  ============================
  **The store answers as a finite map from ids to rows does.**

  A table is such a map with its connection.  What an operation does to a table
  is said without rows in a list: an id is mapped to a row or it is not.  Looked
  at through `Store.table`, every operation of the store is that of the table
  (`table_act`), so every run is (`table_run`).

  The time of a row is kept in its written form.  Times that come from a text
  survive that, so the row that is found is the row that was stored.
-/
import Mathlib.Logic.Function.Basic
import UploadGate.Proofs.Provenance
import UploadGate.Proofs.Timestamp

namespace UploadGate.Store

/-! ### Operations -/

inductive Action where
  | connect
  | close
  | create (id : Text) (size : Int) (createdAt : Timestamp)
  | setUploaderIp (id ip : Text)
  | find (id : Text)
deriving DecidableEq, Repr

inductive Answer where
  | done
  | row (row? : Option Row)
  | failed (failure : Failure)
deriving DecidableEq, Repr

def Answer.refused (fault : StoreFault) : Answer := .failed (.upload (.persistence fault))

def afterChange (s : Store) : Except Failure Store → Store × Answer
  | .ok s' => (s', .done)
  | .error failure => (s, .failed failure)

def act (s : Store) : Action → Store × Answer
  | .connect => (s.connect, .done)
  | .close => (s.close, .done)
  | .create id size createdAt => s.afterChange (s.create id size createdAt)
  | .setUploaderIp id ip => s.afterChange (s.setUploaderIp id ip)
  | .find id =>
    match s.find? id with
    | .ok row? => (s, .row row?)
    | .error failure => (s, .failed failure)

def run (s : Store) : List Action → Store × List Answer
  | [] => (s, [])
  | a :: actions =>
    let (s', answer) := s.act a
    let (s'', answers) := s'.run actions
    (s'', answer :: answers)

/-- Whether the texts and the size of an operation can be stored. -/
def Action.isStorable : Action → Bool
  | .connect | .close => true
  | .create id size _ => Store.isStorable id && isStorableSize size
  | .setUploaderIp id ip => Store.isStorable id && Store.isStorable ip
  | .find id => Store.isStorable id

/-! ### Tables -/

/-- A finite map from ids to rows that can be connected and closed. -/
@[ext]
structure Table where
  isDurable : Bool
  isConnected : Bool
  entries : Text → Option Row

namespace Table

def put (t : Table) (id : Text) (row : Row) : Table :=
  { t with entries := Function.update t.entries id (some row) }

def act (t : Table) : Action → Table × Answer
  | .connect => if t.isConnected then (t, .done) else ({ t with isConnected := true }, .done)
  | .close =>
    ({ t with isConnected := false, entries := if t.isDurable then t.entries else fun _ => none }, .done)
  | .create id size createdAt =>
    if t.isConnected then
      match t.entries id with
      | none => (t.put id ⟨size, createdAt, none⟩, .done)
      | some _ => (t, .refused .duplicateId)
    else (t, .refused .notConnected)
  | .setUploaderIp id ip =>
    if t.isConnected then
      match t.entries id with
      | none => (t, .refused (.noSuchRow id))
      | some row => (t.put id { row with uploaderIp? := some ip }, .done)
    else (t, .refused .notConnected)
  | .find id => if t.isConnected then (t, .row (t.entries id)) else (t, .refused .notConnected)

def run (t : Table) : List Action → Table × List Answer
  | [] => (t, [])
  | a :: actions =>
    let (t', answer) := t.act a
    let (t'', answers) := t'.run actions
    (t'', answer :: answers)

end Table

def table (s : Store) : Table := ⟨s.isDurable, s.isConnected, s.rows.get?⟩

variable {s s' : Store} {id ip : Text} {actions : List Action}

/-! ### Runs one operation at a time -/

theorem run_cons (s : Store) (a : Action) (actions : List Action) :
    s.run (a :: actions) = (((s.act a).1.run actions).1, (s.act a).2 :: ((s.act a).1.run actions).2) := rfl

theorem Table.run_cons (t : Table) (a : Action) (actions : List Action) :
    t.run (a :: actions) = (((t.act a).1.run actions).1, (t.act a).2 :: ((t.act a).1.run actions).2) := rfl

/-! ### One operation -/

theorem table_set (s : Store) (id : Text) (row : Row) :
    table { s with rows := s.rows.set id row } = s.table.put id row := by
  refine Table.ext rfl rfl ?_
  funext other
  show (s.rows.set id row).get? other = Function.update s.rows.get? id (some row) other
  rw [OrderedMap.get?_set, Function.update_apply]
  simp only [eq_comm]

theorem table_append (hnew : s.rows.get? id = none) (row : Row) :
    table { s with rows := s.rows ++ [(id, row)] } = s.table.put id row := by
  refine Table.ext rfl rfl ?_
  funext other
  show OrderedMap.get? (s.rows ++ [(id, row)]) other = Function.update s.rows.get? id (some row) other
  rw [OrderedMap.get?_append, OrderedMap.get?_cons, Function.update_apply]
  by_cases h : id = other
  · subst h
    simp [hnew]
  · rw [if_neg h, if_neg (Ne.symm h)]
    exact Option.or_none

/-- **One operation** of the store is that of its table. -/
theorem table_act (s : Store) {a : Action} (h : a.isStorable = true) :
    ((s.act a).1.table, (s.act a).2) = s.table.act a := by
  cases a with
  | connect => cases hconnected : s.isConnected <;> simp [act, Table.act, table, connect, hconnected]
  | close =>
    refine Prod.ext (Table.ext rfl rfl ?_) rfl
    show (if s.isDurable then s.rows else []).get? = if s.isDurable then s.rows.get? else fun _ => none
    cases s.isDurable <;> rfl
  | create id size createdAt =>
    obtain ⟨hid, hsize⟩ := Bool.and_eq_true_iff.mp h
    have htable : s.table.entries id = s.rows.get? id := rfl
    rw [act, create_of_isStorable hid hsize, Table.act, htable]
    show _ = if s.isConnected then _ else _
    by_cases hconnected : s.isConnected = true
    · rw [if_pos hconnected, if_pos hconnected]
      cases hrow : s.rows.get? id with
      | none =>
        rw [OrderedMap.has_eq_isSome, hrow, Option.isSome_none, if_neg Bool.false_ne_true]
        exact Prod.ext (table_append hrow _) rfl
      | some row =>
        rw [OrderedMap.has_eq_isSome, hrow, Option.isSome_some, if_pos rfl]
        rfl
    · rw [if_neg hconnected, if_neg hconnected]
      rfl
  | setUploaderIp id ip =>
    obtain ⟨hid, hip⟩ := Bool.and_eq_true_iff.mp h
    have htable : s.table.entries id = s.rows.get? id := rfl
    rw [act, setUploaderIp_of_isStorable hid hip, Table.act, htable]
    show _ = if s.isConnected then _ else _
    by_cases hconnected : s.isConnected = true
    · rw [if_pos hconnected, if_pos hconnected]
      cases s.rows.get? id with
      | none => rfl
      | some row => exact Prod.ext (table_set s id _) rfl
    · rw [if_neg hconnected, if_neg hconnected]
      rfl
  | find id =>
    have hid : isStorable id = true := h
    rw [act, find?, require_of_isStorable (by simpa using hid), Table.act]
    show _ = if s.isConnected then _ else _
    cases s.isConnected <;> rfl

/-- **Every run** of the store is that of its table. -/
theorem table_run (s : Store) (h : ∀ a ∈ actions, a.isStorable = true) :
    ((s.run actions).1.table, (s.run actions).2) = s.table.run actions := by
  induction actions generalizing s with
  | nil => rfl
  | cons a actions ih =>
    obtain ⟨ha, hrest⟩ := List.forall_mem_cons.mp h
    have hstep := table_act s ha
    have hrun := ih (s.act a).1 hrest
    rw [run_cons, Table.run_cons, ← hstep, ← hrun]

/-! ### The written form of the rows -/

/-- Each id has one row, whose time survives being written. -/
structure IsSound (s : Store) : Prop where
  distinct : s.rows.keys.Nodup
  kept : ∀ e ∈ s.rows, e.2.createdAt.IsKept

/-- Whether the time of a new row comes from a text. -/
def Action.IsDated : Action → Prop
  | .create _ _ createdAt => ∃ text, Timestamp.parse text = .ok createdAt
  | .connect | .close | .setUploaderIp _ _ | .find _ => True

theorem IsSound.close (h : s.IsSound) : s.close.IsSound := by
  unfold Store.close
  cases s.isDurable with
  | false => exact ⟨List.nodup_nil, nofun⟩
  | true => exact ⟨h.distinct, h.kept⟩

theorem IsSound.create (h : s.IsSound) {size : Int} {createdAt : Timestamp} (hkept : createdAt.IsKept)
    (hs' : s.create id size createdAt = .ok s') : s'.IsSound := by
  obtain ⟨-, -, hnew, rfl⟩ := create_eq_ok hs'
  refine ⟨?_, ?_⟩
  · rw [OrderedMap.keys_append, List.nodup_append]
    refine ⟨h.distinct, List.nodup_cons.mpr ⟨List.not_mem_nil, List.nodup_nil⟩, ?_⟩
    intro other hother new hid heq
    rw [heq, List.mem_singleton.mp hid] at hother
    exact OrderedMap.get?_eq_none_iff.mp hnew hother
  · intro e he
    rcases List.mem_append.mp he with he | he
    · exact h.kept e he
    · rw [List.mem_singleton.mp he]
      exact hkept

theorem IsSound.setUploaderIp (h : s.IsSound) (hs' : s.setUploaderIp id ip = .ok s') : s'.IsSound := by
  obtain ⟨row, hrow, rfl⟩ := setUploaderIp_eq_ok hs'
  refine ⟨OrderedMap.nodup_keys_set h.distinct id _, ?_⟩
  intro e he
  rcases OrderedMap.mem_or_eq_of_mem_set he with he | rfl
  · exact h.kept e he
  · exact h.kept (id, row) (OrderedMap.mem_of_get?_eq_some hrow)

theorem IsSound.act (h : s.IsSound) {a : Action} (ha : a.IsDated) : (s.act a).1.IsSound := by
  cases a with
  | connect => exact ⟨h.distinct, h.kept⟩
  | close => exact h.close
  | create id size createdAt =>
    obtain ⟨text, htext⟩ := ha
    rw [Store.act]
    cases hs' : s.create id size createdAt with
    | error failure => exact h
    | ok s' => exact h.create (Timestamp.isKept_of_parse htext) hs'
  | setUploaderIp id ip =>
    rw [Store.act]
    cases hs' : s.setUploaderIp id ip with
    | error failure => exact h
    | ok s' => exact h.setUploaderIp hs'
  | find id =>
    rw [Store.act]
    cases s.find? id <;> exact h

theorem IsSound.run (h : s.IsSound) (hdated : ∀ a ∈ actions, a.IsDated) : (s.run actions).1.IsSound := by
  induction actions generalizing s with
  | nil => exact h
  | cons a actions ih =>
    obtain ⟨ha, hrest⟩ := List.forall_mem_cons.mp hdated
    exact ih (h.act ha) hrest

theorem mem_rows_of_act {a : Action} {row : Row} (h : (s.act a).2 = .row (some row)) :
    ∃ id, (id, row) ∈ s.rows := by
  cases a with
  | connect => cases h
  | close => cases h
  | create id size createdAt =>
    rw [act] at h
    cases hs' : s.create id size createdAt <;> rw [hs'] at h <;> cases h
  | setUploaderIp id ip =>
    rw [act] at h
    cases hs' : s.setUploaderIp id ip <;> rw [hs'] at h <;> cases h
  | find id =>
    rw [act] at h
    cases hfound : s.find? id with
    | error failure =>
      rw [hfound] at h
      cases h
    | ok row? =>
      rw [hfound] at h
      obtain ⟨u, -, hget⟩ := map_eq_ok_iff.mp hfound
      rw [← hget] at h
      exact ⟨id, OrderedMap.mem_of_get?_eq_some (Answer.row.inj h)⟩

theorem IsSound.isKept_of_mem_run (h : s.IsSound) (hdated : ∀ a ∈ actions, a.IsDated) {row : Row}
    (hrow : .row (some row) ∈ (s.run actions).2) : row.createdAt.IsKept := by
  induction actions generalizing s with
  | nil => cases hrow
  | cons a actions ih =>
    obtain ⟨ha, hrest⟩ := List.forall_mem_cons.mp hdated
    rcases List.mem_cons.mp hrow with hfound | hlater
    · obtain ⟨id, hmem⟩ := mem_rows_of_act hfound.symm
      exact h.kept (id, row) hmem
    · exact ih (h.act ha) hrest hlater

/-- **The store refines a finite map.**  A store is opened at a path, whose file may hold
    rows, and any operations follow whose texts and sizes can be stored.  Each answers as
    it does on a map from ids to rows, and the rows are that map in the end.  The map
    survives closing just when the path is that of a file.  If the times come from texts,
    each id keeps to one row, and the time of a row that is found is what is read from
    its written form. -/
theorem run_refines_table (path : Text) (rows : OrderedMap Text Row) (actions : List Action)
    (hstorable : ∀ a ∈ actions, a.isStorable = true) :
    let s : Store := { atPath path with rows := rows }
    let t : Table := ⟨decide (path ≠ [] ∧ path ≠ Text.of ":memory:"), false, rows.get?⟩
    ((s.run actions).1.table, (s.run actions).2) = t.run actions
      ∧ (s.IsSound → (∀ a ∈ actions, a.IsDated) →
        (s.run actions).1.IsSound
          ∧ ∀ row, .row (some row) ∈ (s.run actions).2 →
            Timestamp.parse row.createdAt.text = .ok row.createdAt) := by
  intro s t
  have hdurable : (atPath path).isDurable = decide (path ≠ [] ∧ path ≠ Text.of ":memory:") := by
    cases path <;> simp [atPath]
  have hstart : s.table = t := Table.ext hdurable rfl rfl
  constructor
  · rw [← hstart]
    exact table_run s hstorable
  · intro hsound hdated
    refine ⟨hsound.run hdated, ?_⟩
    intro row hrow
    apply Timestamp.parse_text
    exact hsound.isKept_of_mem_run hdated hrow

/-- A row is made twice, given its address and found again behind closing and connecting;
    an id without a row is given no address. -/
def plainActions : List Action :=
  [.find (Text.of "a"), .connect, .create (Text.of "a") 3 { year := 2024, month := 2, day := 29 },
    .create (Text.of "a") 4 { year := 2024, month := 3, day := 1 },
    .setUploaderIp (Text.of "a") (Text.of "192.0.2.1"), .setUploaderIp (Text.of "b") (Text.of "192.0.2.2"),
    .connect, .close, .connect, .find (Text.of "a")]

theorem run_refines_table_file :
    (run (atPath (Text.of "uploads.db")) plainActions).2 =
        [.refused .notConnected, .done, .done, .refused .duplicateId, .done,
          .refused (.noSuchRow (Text.of "b")), .done, .done, .done,
          .row (some ⟨3, { year := 2024, month := 2, day := 29 }, some (Text.of "192.0.2.1")⟩)]
      ∧ (run (atPath (Text.of "uploads.db")) plainActions).1.IsSound := by
  have hstorable : ∀ a ∈ plainActions, a.isStorable = true := by decide
  have hdated : ∀ a ∈ plainActions, a.IsDated := by
    simp only [plainActions, List.forall_mem_cons]
    refine ⟨trivial, trivial, ⟨Text.of "2024-02-29", rfl⟩, ⟨Text.of "20240301", rfl⟩, ?_⟩
    simp [Action.IsDated]
  obtain ⟨hrun, hsound⟩ := run_refines_table (Text.of "uploads.db") [] plainActions hstorable
  exact ⟨(congrArg Prod.snd hrun).trans (by decide +kernel),
    (hsound ⟨List.nodup_nil, nofun⟩ hdated).1⟩

end UploadGate.Store
