/-
  UploadGate/Proofs/Provenance.lean
  =================================
  **What the operations of the store and a write of an address do to the rows.**
-/
import UploadGate.Proofs.Outcome
import UploadGate.Provenance

namespace UploadGate

/-! ### The store -/

namespace Store

variable {s s' : Store} {id ip : Text}

theorem require_eq_ok_iff {texts : List Text} {u : Unit} :
    s.require texts = .ok u ↔ s.isConnected = true ∧ ∀ t ∈ texts, isStorable t = true := by
  unfold require
  cases s.isConnected with
  | false => simp
  | true =>
    simp only [Bool.not_true, Bool.false_eq_true, if_false, true_and, ← List.all_eq_true]
    split <;> simp_all

/-- A row is only added to a store that is connected, under an id that is not in use. -/
theorem create_eq_ok {size : Int} {createdAt : Timestamp} (h : s.create id size createdAt = .ok s') :
    s.isConnected = true ∧ isStorable id = true ∧ s.rows.get? id = none
      ∧ s' = { s with rows := s.rows ++ [(id, ⟨size, createdAt, none⟩)] } := by
  obtain ⟨u, hrequire, h⟩ := bind_eq_ok_iff.mp h
  obtain ⟨hconnected, hid⟩ := require_eq_ok_iff.mp hrequire
  split at h
  · cases h
  · split at h
    · cases h
    · rename_i hnew
      have hnone : s.rows.get? id = none := by
        rw [OrderedMap.has_eq_isSome] at hnew
        simpa using hnew
      exact ⟨hconnected, hid id (by simp), hnone, (Except.ok.inj h).symm⟩

/-- A row that is added stands under its id, and all others are as they were. -/
theorem get?_of_create {size : Int} {createdAt : Timestamp} (h : s.create id size createdAt = .ok s')
    (id' : Text) :
    s'.rows.get? id' = if id = id' then some ⟨size, createdAt, none⟩ else s.rows.get? id' := by
  obtain ⟨-, -, hnone, rfl⟩ := create_eq_ok h
  simp only [OrderedMap.get?_append, OrderedMap.get?_cons, OrderedMap.get?_nil]
  by_cases hid : id = id'
  · subst hid
    simp [hnone]
  · rw [if_neg hid, if_neg hid]
    exact Option.or_none

/-! ### Texts that can be stored or cannot -/

theorem require_of_isStorable {texts : List Text} (h : ∀ t ∈ texts, isStorable t = true) :
    s.require texts =
      if s.isConnected then .ok () else .error (.upload (.persistence .notConnected)) := by
  have hall : texts.all isStorable = true := List.all_eq_true.mpr h
  cases hconnected : s.isConnected <;> simp [require, hconnected, hall]

theorem create_of_isStorable {size : Int} {createdAt : Timestamp} (hid : isStorable id = true)
    (hsize : isStorableSize size = true) :
    s.create id size createdAt =
      if s.isConnected then
        if s.rows.has id then .error (.upload (.persistence .duplicateId))
        else .ok { s with rows := s.rows ++ [(id, ⟨size, createdAt, none⟩)] }
      else .error (.upload (.persistence .notConnected)) := by
  rw [create, require_of_isStorable (by simpa using hid), hsize]
  cases s.isConnected <;> rfl

theorem setUploaderIp_of_isStorable (hid : isStorable id = true) (hip : isStorable ip = true) :
    s.setUploaderIp id ip =
      if s.isConnected then
        match s.rows.get? id with
        | none => .error (.upload (.persistence (.noSuchRow id)))
        | some row => .ok { s with rows := s.rows.set id { row with uploaderIp? := some ip } }
      else .error (.upload (.persistence .notConnected)) := by
  rw [setUploaderIp, require_of_isStorable (by simpa using ⟨hip, hid⟩)]
  cases s.isConnected <;> rfl

theorem setUploaderIp_of_not_isStorable (hconnected : s.isConnected = true)
    (h : isStorable id = false ∨ isStorable ip = false) :
    s.setUploaderIp id ip = .error (.value .unencodable) := by
  have hrefused : s.require [ip, id] = .error (.value .unencodable) := by
    rcases h with hid | hip
    · simp [require, hconnected, hid]
    · simp [require, hconnected, hip]
  rw [setUploaderIp, hrefused]
  rfl

/-- An address that can be stored is written to a row that is there. -/
theorem setUploaderIp_of_row (hconnected : s.isConnected = true) (hid : isStorable id = true)
    {row : Row} (hrow : s.rows.get? id = some row) :
    s.setUploaderIp id ip =
      if isStorable ip then .ok { s with rows := s.rows.set id { row with uploaderIp? := some ip } }
      else .error (.value .unencodable) := by
  cases hip : isStorable ip with
  | false => exact setUploaderIp_of_not_isStorable hconnected (Or.inr hip)
  | true =>
    rw [setUploaderIp_of_isStorable hid hip, if_pos hconnected, hrow]
    rfl

/-- An address is only written to a row that is there. -/
theorem setUploaderIp_eq_ok (h : s.setUploaderIp id ip = .ok s') :
    ∃ row, s.rows.get? id = some row
      ∧ s' = { s with rows := s.rows.set id { row with uploaderIp? := some ip } } := by
  obtain ⟨u, -, h⟩ := bind_eq_ok_iff.mp h
  split at h
  · cases h
  · rename_i row hrow
    exact ⟨row, hrow, (Except.ok.inj h).symm⟩

theorem isConnected_of_setUploaderIp (h : s.setUploaderIp id ip = .ok s') :
    s'.isConnected = s.isConnected := by
  obtain ⟨row, -, rfl⟩ := setUploaderIp_eq_ok h
  rfl

/-! ### Rows that stay -/

/-- No row of a store has gone or has another size in another store. -/
def KeepsRows (s s' : Store) : Prop :=
  ∀ id row, s.rows.get? id = some row → ∃ row', s'.rows.get? id = some row' ∧ row'.size = row.size

theorem KeepsRows.trans {s'' : Store} (h : s.KeepsRows s') (h' : s'.KeepsRows s'') : s.KeepsRows s'' := by
  intro id row hrow
  obtain ⟨row', hrow', hsize'⟩ := h id row hrow
  obtain ⟨row'', hrow'', hsize''⟩ := h' id row' hrow'
  exact ⟨row'', hrow'', hsize''.trans hsize'⟩

theorem KeepsRows.mem_keys (h : s.KeepsRows s') (hid : id ∈ s.rows.keys) : id ∈ s'.rows.keys := by
  obtain ⟨row, hrow⟩ := OrderedMap.mem_keys_iff.mp hid
  obtain ⟨row', hrow', -⟩ := h id row hrow
  exact OrderedMap.mem_keys_iff.mpr ⟨row', hrow'⟩

theorem keepsRows_of_eq (hrows : s'.rows = s.rows) : s.KeepsRows s' := by
  intro id row hrow
  rw [hrows]
  exact ⟨row, hrow, rfl⟩

theorem keepsRows_create {size : Int} {createdAt : Timestamp} (h : s.create id size createdAt = .ok s') :
    s.KeepsRows s' := by
  have hget := get?_of_create h
  obtain ⟨-, -, hnone, -⟩ := create_eq_ok h
  intro other row hrow
  have hother : id ≠ other := by
    intro heq
    rw [heq, hrow] at hnone
    cases hnone
  rw [hget, if_neg hother]
  exact ⟨row, hrow, rfl⟩

theorem isDurable_of_setUploaderIp (h : s.setUploaderIp id ip = .ok s') : s'.isDurable = s.isDurable := by
  obtain ⟨row, -, rfl⟩ := setUploaderIp_eq_ok h
  rfl

theorem keepsRows_setUploaderIp (h : s.setUploaderIp id ip = .ok s') : s.KeepsRows s' := by
  obtain ⟨written, hwritten, rfl⟩ := setUploaderIp_eq_ok h
  intro other row hrow
  rw [OrderedMap.get?_set]
  split
  · rename_i heq
    rw [heq, hrow] at hwritten
    obtain rfl := Option.some.inj hwritten
    exact ⟨_, rfl, rfl⟩
  · exact ⟨row, hrow, rfl⟩

/-- A store has become another, and no row of a durable one has gone or has another size. -/
structure Keeps (s s' : Store) : Prop where
  isDurable : s'.isDurable = s.isDurable
  rows : s.isDurable = true → ∀ id row, s.rows.get? id = some row →
    ∃ row', s'.rows.get? id = some row' ∧ row'.size = row.size

theorem Keeps.trans {s'' : Store} (h : s.Keeps s') (h' : s'.Keeps s'') : s.Keeps s'' := by
  refine ⟨h'.isDurable.trans h.isDurable, ?_⟩
  intro hs
  have hrows : s.KeepsRows s' := h.rows hs
  exact hrows.trans (h'.rows (h.isDurable.trans hs))

theorem keeps_of_rows_eq (hdurable : s'.isDurable = s.isDurable)
    (hrows : s.isDurable = true → s'.rows = s.rows) : s.Keeps s' :=
  ⟨hdurable, fun hs => keepsRows_of_eq (hrows hs)⟩

theorem keeps_connect (s : Store) : s.Keeps s.connect := keeps_of_rows_eq rfl fun _ => rfl

theorem keeps_close (s : Store) : s.Keeps s.close := keeps_of_rows_eq rfl fun hs => if_pos hs

theorem keeps_create {size : Int} {createdAt : Timestamp} (h : s.create id size createdAt = .ok s') :
    s.Keeps s' := by
  obtain ⟨-, -, -, hs'⟩ := create_eq_ok h
  exact ⟨by rw [hs'], fun _ => keepsRows_create h⟩

theorem keeps_setUploaderIp (h : s.setUploaderIp id ip = .ok s') : s.Keeps s' :=
  ⟨isDurable_of_setUploaderIp h, fun _ => keepsRows_setUploaderIp h⟩

end Store

/-! ### A write -/

namespace Provenance

/-- A write of an address leaves the store open or closed. -/
theorem record_isConnected (store : Store) (t : Telemetry) (e : Event) :
    (record store t e).store.isConnected = store.isConnected := by
  unfold record
  split
  · rfl
  · rfl
  · unfold write
    split
    · rename_i store' hstore
      exact Store.isConnected_of_setUploaderIp hstore
    · rfl
    · rfl

/-- **A write of an address** changes no row but that of its upload, and there only the
    address, which is the one in the metadata of the event. -/
theorem record_store {store : Store} (t : Telemetry) {e : Event} {ip : Text} {row : Row}
    (hconnected : store.isConnected = true) (hid : Store.isStorable e.uploadId = true)
    (hrow : store.rows.get? e.uploadId = some row)
    (hip : OrderedMap.get? e.metadata Metadata.remoteIpKey = some ip) :
    (record store t e).store =
      if ip ≠ [] ∧ Store.isStorable ip = true then
        { store with rows := store.rows.set e.uploadId { row with uploaderIp? := some ip } }
      else store := by
  unfold record
  rw [hip]
  cases ip with
  | nil => simp
  | cons c ip =>
    simp only [write, Store.setUploaderIp_of_row hconnected hid hrow]
    cases hstorable : Store.isStorable (c :: ip) with
    | false => simp
    | true => simp

end Provenance

end UploadGate
