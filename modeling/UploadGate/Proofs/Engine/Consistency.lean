/-
  UploadGate/Proofs/Engine/Consistency.lean
  =========================================
  **The tables of an engine agree with each other and with the store at all times.**

  `Memory.IsSound` says how the three tables in memory hang together.  Each way to
  change memory keeps it, provided that an upload is put into memory with as many
  octets as its offset says and before it is listed as complete.  That the engine
  does so is an invariant of all workloads whose ids are distinct
  (`Workload.IsSound`), also where operations fail half way: an upload whose
  creation is in progress is known to nobody, has no octets, and its id is in no
  table.
-/
import Mathlib.Data.List.Nodup
import UploadGate.Proofs.Engine.Workload

namespace UploadGate

/-! ### Memory -/

namespace Memory

structure Holds (limit : Int) (m : Memory) (id : Text) (info : UploadInfo) : Prop where
  id_eq : info.id = id
  offset_le : info.offset ≤ info.size
  size_le : (info.size : Int) ≤ limit
  buffer : ∃ buffer, m.buffers.get? id = some buffer ∧ buffer.length = info.offset

/-- The tables agree: each upload has its octets, and those that are listed as complete
    are there and have them all. -/
structure IsSound (limit : Int) (m : Memory) : Prop where
  buffers : m.buffers.keys = m.uploads.keys
  distinct : m.uploads.keys.Nodup
  upload : ∀ id info, m.uploads.get? id = some info → m.Holds limit id info
  order : m.completed.Nodup
  complete : ∀ id ∈ m.completed, ∃ info, m.uploads.get? id = some info ∧ info.offset = info.size

variable {limit retained : Int} {m : Memory} {info : UploadInfo} {buffer : Bytes} {id : Text}

theorem isSound_empty (limit : Int) : IsSound limit ⟨[], [], []⟩ := by
  refine ⟨rfl, List.nodup_nil, ?_, List.nodup_nil, List.forall_mem_nil _⟩
  intro id info h
  cases h

/-- An upload that is not listed as complete may be put into memory with its octets. -/
theorem IsSound.put (h : m.IsSound limit) (hlisted : info.id ∉ m.completed)
    (hoffset : info.offset ≤ info.size) (hsize : (info.size : Int) ≤ limit)
    (hbuffer : buffer.length = info.offset) : (m.put info buffer).IsSound limit := by
  refine ⟨?_, OrderedMap.nodup_keys_set h.distinct _ _, ?_, h.order, ?_⟩
  · have hkeys := OrderedMap.keys_set m.buffers info.id buffer
    rw [h.buffers] at hkeys
    exact hkeys.trans (OrderedMap.keys_set m.uploads info.id info).symm
  · intro id other hother
    simp only [Memory.put, OrderedMap.get?_set] at hother
    by_cases hid : info.id = id
    · rw [if_pos hid] at hother
      obtain rfl := Option.some.inj hother
      refine ⟨hid, hoffset, hsize, buffer, ?_, hbuffer⟩
      simp only [Memory.put, OrderedMap.get?_set, if_pos hid]
    · rw [if_neg hid] at hother
      obtain ⟨hid', hoffset', hsize', buffer', hbuffer', hlength⟩ := h.upload id other hother
      refine ⟨hid', hoffset', hsize', buffer', ?_, hlength⟩
      simp only [Memory.put, OrderedMap.get?_set, if_neg hid, hbuffer']
  · intro id hid
    have hne : info.id ≠ id := fun heq => hlisted (heq ▸ hid)
    obtain ⟨other, hother, hdone⟩ := h.complete id hid
    refine ⟨other, ?_, hdone⟩
    simp only [Memory.put, OrderedMap.get?_set, if_neg hne, hother]

theorem IsSound.forget (h : m.IsSound limit) (id : Text) : (m.forget id).IsSound limit := by
  refine ⟨?_, ?_, ?_, h.order.filter _, ?_⟩
  · simp only [Memory.forget, OrderedMap.keys_erase, h.buffers]
  · simp only [Memory.forget, OrderedMap.keys_erase]
    exact h.distinct.filter _
  · intro other info hinfo
    simp only [Memory.forget, OrderedMap.get?_erase] at hinfo
    split at hinfo
    · cases hinfo
    · rename_i hne
      obtain ⟨hid, hoffset, hsize, buffer, hbuffer, hlength⟩ := h.upload other info hinfo
      refine ⟨hid, hoffset, hsize, buffer, ?_, hlength⟩
      simp only [Memory.forget, OrderedMap.get?_erase, if_neg hne, hbuffer]
  · intro other hother
    obtain ⟨hlisted, hne⟩ := List.mem_filter.mp hother
    obtain ⟨info, hinfo, hdone⟩ := h.complete other hlisted
    refine ⟨info, ?_, hdone⟩
    have hne' : id ≠ other := Ne.symm (by simpa using hne)
    simp only [Memory.forget, OrderedMap.get?_erase, if_neg hne', hinfo]

theorem IsSound.foldl_forget (h : m.IsSound limit) (ids : List Text) :
    (ids.foldl Memory.forget m).IsSound limit := by
  induction ids generalizing m with
  | nil => exact h
  | cons id ids ih => exact ih (h.forget id)

/-- An upload all of whose octets are there may be listed as complete, once. -/
theorem IsSound.finish (h : m.IsSound limit) (hget : m.uploads.get? id = some info)
    (hdone : info.offset = info.size) (hlisted : id ∉ m.completed) (retained : Int) :
    (m.finish retained id).IsSound limit := by
  have hnew : IsSound limit { m with completed := m.completed ++ [id] } := by
    refine ⟨h.buffers, h.distinct, ?_, ?_, ?_⟩
    · intro other info hinfo
      obtain ⟨hid, hoffset, hsize, hbuffer⟩ := h.upload other info hinfo
      exact ⟨hid, hoffset, hsize, hbuffer⟩
    · exact List.nodup_append.mpr ⟨h.order, List.nodup_singleton id, by
        rintro a ha b hb rfl
        exact hlisted (List.mem_singleton.mp hb ▸ ha)⟩
    · intro other hother
      rcases List.mem_append.mp hother with hother | hother
      · exact h.complete other hother
      · obtain rfl := List.mem_singleton.mp hother
        exact ⟨info, hget, hdone⟩
  exact hnew.foldl_forget _

/-! ### Making room -/

theorem completed_foldl_forget (ids : List Text) (m : Memory) :
    (ids.foldl Memory.forget m).completed = m.completed.filter (!ids.contains ·) := by
  induction ids generalizing m with
  | nil => simp
  | cons id ids ih =>
    rw [List.foldl_cons, ih, Memory.forget, List.filter_filter]
    apply List.filter_congr
    intro other _
    by_cases heq : other = id
    · simp [heq]
    · simp [heq]

theorem get?_foldl_forget_of_notMem {ids : List Text} (m : Memory) {id : Text} (h : id ∉ ids) :
    (ids.foldl Memory.forget m).uploads.get? id = m.uploads.get? id
      ∧ (ids.foldl Memory.forget m).buffers.get? id = m.buffers.get? id := by
  induction ids generalizing m with
  | nil => exact ⟨rfl, rfl⟩
  | cons other ids ih =>
    have hne : other ≠ id := by
      rintro rfl
      exact h List.mem_cons_self
    obtain ⟨huploads, hbuffers⟩ := ih (m.forget other) fun hlater => h (List.mem_cons_of_mem other hlater)
    constructor
    · rw [List.foldl_cons, huploads, Memory.forget, OrderedMap.get?_erase, if_neg hne]
    · rw [List.foldl_cons, hbuffers, Memory.forget, OrderedMap.get?_erase, if_neg hne]

theorem get?_foldl_forget_of_mem {ids : List Text} (m : Memory) {id : Text} (h : id ∈ ids) :
    (ids.foldl Memory.forget m).uploads.get? id = none := by
  induction ids generalizing m with
  | nil => cases h
  | cons other ids ih =>
    rw [List.foldl_cons]
    by_cases hlater : id ∈ ids
    · exact ih (m.forget other) hlater
    · obtain rfl : id = other := (List.mem_cons.mp h).resolve_right hlater
      rw [(get?_foldl_forget_of_notMem _ hlater).1, Memory.forget, OrderedMap.get?_erase, if_pos rfl]

theorem length_filter_take (ids : List Text) (n : Nat) :
    (ids.filter (!(ids.take n).contains ·)).length ≤ ids.length - n := by
  have hsplit := congrArg (List.filter (!(ids.take n).contains ·)) (List.take_append_drop n ids)
  have hfront : (ids.take n).filter (!(ids.take n).contains ·) = [] := by
    rw [List.filter_eq_nil_iff]
    intro id hid
    simpa using hid
  rw [List.filter_append, hfront, List.nil_append] at hsplit
  rw [← hsplit, ← List.length_drop]
  exact List.length_filter_le _ _

/-- No more uploads stay listed as complete than are to be kept. -/
theorem length_completed_evict (hretained : 0 ≤ retained) (m : Memory) :
    ((m.evict retained).completed.length : Int) ≤ retained := by
  have hlength := length_filter_take m.completed (m.completed.length - retained.toNat)
  rw [Memory.evict, completed_foldl_forget]
  omega

theorem length_completed_advance (hretained : 0 ≤ retained) (isClosed : Bool) (info : UploadInfo)
    (h : (m.completed.length : Int) ≤ retained) :
    ((m.advance retained isClosed info).completed.length : Int) ≤ retained := by
  unfold Memory.advance
  split
  · exact length_completed_evict hretained _
  · exact h

/-! ### Putting an upload into memory and completing it -/

theorem IsSound.put_advance (h : m.IsSound limit) (hlisted : info.id ∉ m.completed)
    (hoffset : info.offset ≤ info.size) (hsize : (info.size : Int) ≤ limit)
    (hbuffer : buffer.length = info.offset) (retained : Int) (isClosed : Bool) :
    ((m.put info buffer).advance retained isClosed info).IsSound limit := by
  have hput := h.put hlisted hoffset hsize hbuffer
  unfold Memory.advance
  split
  · rename_i hdone
    have hcomplete : info.size ≤ info.offset := by
      simpa [UploadInfo.isComplete] using (Bool.and_eq_true_iff.mp hdone).2
    have hget : (m.put info buffer).uploads.get? info.id = some info := by
      simp only [Memory.put, OrderedMap.get?_set, if_true]
    exact hput.finish hget (Nat.le_antisymm hoffset hcomplete) hlisted retained
  · exact hput

theorem get?_of_foldl_forget {ids : List Text}
    (h : (ids.foldl Memory.forget m).uploads.get? id = some info) : m.uploads.get? id = some info := by
  induction ids generalizing m with
  | nil => exact h
  | cons other ids ih =>
    have hget := ih h
    simp only [Memory.forget, OrderedMap.get?_erase] at hget
    split at hget
    · cases hget
    · exact hget

/-- What is in memory after that was put there just now, or was there before. -/
theorem get?_of_put_advance {isClosed : Bool} {other : UploadInfo}
    (h : ((m.put info buffer).advance retained isClosed info).uploads.get? id = some other) :
    (info.id = id ∧ other = info) ∨ (info.id ≠ id ∧ m.uploads.get? id = some other) := by
  have hput : (m.put info buffer).uploads.get? id = some other := by
    unfold Memory.advance at h
    split at h
    · have hbefore := get?_of_foldl_forget h
      exact hbefore
    · exact h
  simp only [Memory.put, OrderedMap.get?_set] at hput
  split at hput
  · rename_i heq
    exact Or.inl ⟨heq, (Option.some.inj hput).symm⟩
  · rename_i hne
    exact Or.inr ⟨hne, hput⟩

end Memory

/-! ### Rows -/

namespace Store

/-- A store has a row of a size under an id. -/
def Records (s : Store) (id : Text) (size : Int) : Prop :=
  ∃ row, s.rows.get? id = some row ∧ row.size = size

theorem KeepsRows.records {s s' : Store} (h : s.KeepsRows s') {id : Text} {size : Int}
    (hs : s.Records id size) : s'.Records id size := by
  obtain ⟨row, hrow, hsize⟩ := hs
  obtain ⟨row', hrow', hsize'⟩ := h id row hrow
  exact ⟨row', hrow', hsize'.trans hsize⟩

theorem Keeps.records {s s' : Store} (h : s.Keeps s') {id : Text} {size : Int}
    (hs : s.isDurable = true → s.Records id size) : s'.isDurable = true → s'.Records id size := by
  intro hs'
  have hdurable := h.isDurable ▸ hs'
  have hrows : s.KeepsRows s' := h.rows hdurable
  exact hrows.records (hs hdurable)

end Store

/-- **The tables of an engine agree**, no more uploads are kept than are to be, and a
    durable store has a row for each upload. -/
structure Engine.IsConsistent (config : Config) (e : Engine) : Prop where
  memory : e.memory.IsSound config.maximumUploadSize
  room : (e.completed.length : Int) ≤ config.retainedUploads
  rows : e.store.isDurable = true →
    ∀ id info, e.uploads.get? id = some info → e.store.Records id info.size

/-! ### Workloads -/

namespace Workload

/-- The id of an upload was drawn, and a durable store has a row for the upload. -/
structure Enrolled (w : Workload) (info : UploadInfo) : Prop where
  drawn : info.id ∈ w.drawn
  row : w.engine.store.isDurable = true → w.engine.store.Records info.id info.size

/-- What holds of an upload whose creation has yet to go on. -/
structure Awaits (config : Config) (w : Workload) (info : UploadInfo) : Prop where
  offset_eq : info.offset = 0
  size_le : (info.size : Int) ≤ config.maximumUploadSize
  enrolled : w.Enrolled info
  unknown : w.engine.uploads.get? info.id = none

structure IsSound (config : Config) (w : Workload) : Prop where
  memory : w.engine.memory.IsSound config.maximumUploadSize
  room : 0 ≤ config.retainedUploads → (w.engine.completed.length : Int) ≤ config.retainedUploads
  enrolled : ∀ id info, w.engine.uploads.get? id = some info → w.Enrolled info
  awaits : ∀ info ∈ w.suspended, w.Awaits config info
  distinct : (w.suspended.map (·.id)).Nodup

variable {config : Config} {w w' : Workload} {info : UploadInfo} {buffer : Bytes} {id : Text}

theorem isSound_start (config : Config) (store : Store) (broadcaster : Broadcaster)
    (telemetry : Telemetry) : (start store broadcaster telemetry).IsSound config := by
  refine ⟨Memory.isSound_empty _, fun h => h, ?_, List.forall_mem_nil _, List.nodup_nil⟩
  intro id info h
  cases h

theorem Enrolled.follows (h : w.Enrolled info) (hfollows : w.Follows w') : w'.Enrolled info :=
  ⟨hfollows.drawn.subset h.drawn, hfollows.store.records h.row⟩

theorem Awaits.follows (h : w.Awaits config info) (hfollows : w.Follows w')
    (hunknown : w'.engine.uploads.get? info.id = none) : w'.Awaits config info :=
  ⟨h.offset_eq, h.size_le, h.enrolled.follows hfollows, hunknown⟩

/-- An id that is drawn last was not drawn before. -/
theorem notMem_drawn (hdrawn : w'.drawn = w.drawn ++ [id]) (hdistinct : w'.drawn.Nodup) :
    id ∉ w.drawn := by
  intro hold
  rw [hdrawn, List.nodup_append] at hdistinct
  exact hdistinct.2.2 id hold id (List.mem_singleton.mpr rfl) rfl

namespace IsSound

/-- A suspended creation that goes on is not suspended any more, and no other with its id. -/
theorem ne_of_mem_eraseIdx (h : w.IsSound config) {i : Nat} (hi : w.suspended[i]? = some info)
    {other : UploadInfo} (hother : other ∈ w.suspended.eraseIdx i) :
    other ∈ w.suspended ∧ info.id ≠ other.id := by
  obtain ⟨j, hne, hj⟩ := List.mem_eraseIdx_iff_getElem?.mp hother
  refine ⟨List.mem_of_getElem? hj, ?_⟩
  intro hid
  have hi' : (w.suspended.map (·.id))[i]? = some info.id := by
    rw [List.getElem?_map, hi]
    rfl
  have hj' : (w.suspended.map (·.id))[j]? = some info.id := by
    rw [List.getElem?_map, hj, hid]
    rfl
  have hlt : i < (w.suspended.map (·.id)).length := (List.getElem?_eq_some_iff.mp hi').1
  exact hne ((List.getElem?_inj hlt h.distinct).mp (hi'.trans hj'.symm)).symm

theorem id_eq (h : w.IsSound config) (hget : w.engine.uploads.get? id = some info) : info.id = id :=
  (h.memory.upload id info hget).id_eq

/-- The upload of a creation in progress is not in memory. -/
theorem ne_of_awaits (h : w.IsSound config) (hget : w.engine.uploads.get? id = some info)
    {other : UploadInfo} (hother : other ∈ w.suspended) : id ≠ other.id := by
  rintro rfl
  rw [(h.awaits other hother).unknown] at hget
  cases hget

/-- What is listed as complete is in memory, and an upload whose creation has yet to go on
    is not. -/
theorem notMem_completed_of_suspended (h : w.IsSound config) (hmem : info ∈ w.suspended) :
    info.id ∉ w.engine.completed := by
  intro hlisted
  obtain ⟨found, hfound, -⟩ := h.memory.complete info.id hlisted
  cases (h.awaits info hmem).unknown.symm.trans hfound

/-- What is listed as complete has all its octets. -/
theorem notMem_completed_of_ne (h : w.IsSound config) (hget : w.engine.uploads.get? id = some info)
    (hlacks : info.offset ≠ info.size) : id ∉ w.engine.completed := by
  intro hlisted
  obtain ⟨found, hfound, hdone⟩ := h.memory.complete id hlisted
  obtain rfl := Option.some.inj (hget.symm.trans hfound)
  exact hlacks hdone

/-- **An upload that is put into memory** has its row, and no creation in progress is
    about it. -/
theorem of_put (h : w.IsSound config) (hfollows : w.Follows w') {isClosed : Bool}
    (hmemory : w'.engine.memory
      = (w.engine.memory.put info buffer).advance config.retainedUploads isClosed info)
    (hlisted : info.id ∉ w.engine.completed) (hoffset : info.offset ≤ info.size)
    (hsize : (info.size : Int) ≤ config.maximumUploadSize) (hbuffer : buffer.length = info.offset)
    (henrolled : w.Enrolled info)
    (hawaits : ∀ other ∈ w'.suspended, other ∈ w.suspended ∧ info.id ≠ other.id)
    (hdistinct : (w'.suspended.map (·.id)).Nodup) : w'.IsSound config := by
  have huploads : w'.engine.uploads = ((w.engine.memory.put info buffer).advance
      config.retainedUploads isClosed info).uploads := congrArg Memory.uploads hmemory
  have hcompleted : w'.engine.completed = ((w.engine.memory.put info buffer).advance
      config.retainedUploads isClosed info).completed := congrArg Memory.completed hmemory
  have hknown : ∀ id other, w'.engine.uploads.get? id = some other →
      (info.id = id ∧ other = info) ∨ (info.id ≠ id ∧ w.engine.uploads.get? id = some other) := by
    intro id other hother
    exact Memory.get?_of_put_advance (huploads ▸ hother)
  refine ⟨?_, ?_, ?_, ?_, hdistinct⟩
  · rw [hmemory]
    exact h.memory.put_advance hlisted hoffset hsize hbuffer _ _
  · intro hretained
    have hroom : ((w.engine.memory.put info buffer).completed.length : Int) ≤ config.retainedUploads :=
      h.room hretained
    rw [hcompleted]
    exact Memory.length_completed_advance hretained isClosed info hroom
  · intro id other hother
    rcases hknown id other hother with ⟨-, rfl⟩ | ⟨-, hbefore⟩
    · exact henrolled.follows hfollows
    · exact (h.enrolled id other hbefore).follows hfollows
  · intro other hother
    obtain ⟨hmem, hne⟩ := hawaits other hother
    have hbefore := h.awaits other hmem
    refine hbefore.follows hfollows ?_
    cases hget : w'.engine.uploads.get? other.id with
    | none => rfl
    | some found =>
      rcases hknown _ found hget with ⟨heq, -⟩ | ⟨-, hfound⟩
      · exact absurd heq hne
      · exact hfound.symm.trans hbefore.unknown

/-- **Where no upload is put into memory**, those that are there were there before. -/
theorem of_kept (h : w.IsSound config) (hfollows : w.Follows w')
    (hmemory : w'.engine.memory.IsSound config.maximumUploadSize)
    (hroom : w'.engine.completed.length ≤ w.engine.completed.length)
    (hkept : ∀ id info, w'.engine.uploads.get? id = some info → w.engine.uploads.get? id = some info)
    (hawaits : ∀ info ∈ w'.suspended, info ∈ w.suspended ∨ w'.Awaits config info)
    (hdistinct : (w'.suspended.map (·.id)).Nodup) : w'.IsSound config := by
  refine ⟨hmemory, ?_, ?_, ?_, hdistinct⟩
  · intro hretained
    have hbefore := h.room hretained
    omega
  · intro id info hinfo
    exact (h.enrolled id info (hkept id info hinfo)).follows hfollows
  · intro info hinfo
    rcases hawaits info hinfo with hmem | hnew
    · have hbefore := h.awaits info hmem
      refine hbefore.follows hfollows ?_
      cases hget : w'.engine.uploads.get? info.id with
      | none => rfl
      | some found => exact (hkept _ found hget).symm.trans hbefore.unknown
    · exact hnew

/-- A creation whose row was just added awaits its second half; its id is new. -/
theorem of_enrolled (h : w.IsSound config) (hfollows : w.Follows w')
    (hoffset : info.offset = 0) (hsize : (info.size : Int) ≤ config.maximumUploadSize)
    (hrow : w'.engine.store.Records info.id info.size) (hmemory : w'.engine.memory = w.engine.memory)
    (hdrawn : w'.drawn = w.drawn ++ [info.id]) (hsuspended : w'.suspended = w.suspended ++ [info])
    (hdistinct : w'.drawn.Nodup) : w'.IsSound config := by
  have huploads : w'.engine.uploads = w.engine.uploads := congrArg Memory.uploads hmemory
  have hroom : w'.engine.completed.length ≤ w.engine.completed.length :=
    Nat.le_of_eq (congrArg (fun m => m.completed.length) hmemory)
  have hnew : info.id ∉ w.drawn := notMem_drawn hdrawn hdistinct
  have hunknown : w'.engine.uploads.get? info.id = none := by
    rw [huploads]
    cases hget : w.engine.uploads.get? info.id with
    | none => rfl
    | some found => exact absurd (h.id_eq hget ▸ (h.enrolled _ found hget).drawn) hnew
  have hlast : info.id ∈ w'.drawn := by
    rw [hdrawn]
    exact List.mem_append_right _ (List.mem_singleton.mpr rfl)
  refine h.of_kept hfollows (hmemory ▸ h.memory) hroom ?_ ?_ ?_
  · intro id other hother
    exact huploads ▸ hother
  · intro other hother
    rw [hsuspended] at hother
    rcases List.mem_append.mp hother with hother | hother
    · exact Or.inl hother
    · obtain rfl := List.mem_singleton.mp hother
      exact Or.inr ⟨hoffset, hsize, ⟨hlast, fun _ => hrow⟩, hunknown⟩
  · rw [hsuspended, List.map_append, List.nodup_append]
    refine ⟨h.distinct, List.nodup_singleton _, ?_⟩
    rintro a ha b hb rfl
    obtain ⟨other, hother, rfl⟩ := List.mem_map.mp ha
    have hid : other.id = info.id := List.mem_singleton.mp hb
    exact hnew (hid ▸ (h.awaits other hother).enrolled.drawn)

theorem of_terminated (h : w.IsSound config) (hfollows : w.Follows w')
    (hmemory : w'.engine.memory = w.engine.memory.forget id) (hsuspended : w'.suspended = w.suspended) :
    w'.IsSound config := by
  have huploads : w'.engine.uploads = w.engine.uploads.erase id := congrArg Memory.uploads hmemory
  have hcompleted : w'.engine.completed = w.engine.completed.filter (· ≠ id) :=
    congrArg Memory.completed hmemory
  refine h.of_kept hfollows (hmemory ▸ h.memory.forget id) ?_ ?_ ?_ (hsuspended ▸ h.distinct)
  · rw [hcompleted]
    exact List.length_filter_le _ _
  · intro other info hinfo
    rw [huploads, OrderedMap.get?_erase] at hinfo
    split at hinfo
    · cases hinfo
    · exact hinfo
  · intro info hinfo
    exact Or.inl (hsuspended ▸ hinfo)

/-- **Every action keeps the tables in agreement**, as long as the ids are distinct. -/
theorem of_effect {a : Action} (h : w.IsSound config) (hfollows : w.Follows w')
    (heffect : w.Effect config w' a) (hdistinct : w'.drawn.Nodup) : w'.IsSound config := by
  cases heffect with
  | idle _ hmemory hsuspended _ =>
    have huploads : w'.engine.uploads = w.engine.uploads := congrArg Memory.uploads hmemory
    have hroom : w'.engine.completed.length ≤ w.engine.completed.length :=
      Nat.le_of_eq (congrArg (fun m => m.completed.length) hmemory)
    exact h.of_kept hfollows (hmemory ▸ h.memory) hroom (fun _ _ hget => huploads ▸ hget)
      (fun _ hmem => Or.inl (hsuspended ▸ hmem)) (hsuspended ▸ h.distinct)
  | enrolled info header? createdAt hoffset hsize _ hrow hmemory hdrawn hsuspended _ =>
    exact h.of_enrolled hfollows hoffset hsize hrow hmemory hdrawn hsuspended hdistinct
  | registered i info hi hmemory hsuspended _ =>
    have hawaits := h.awaits info (List.mem_of_getElem? hi)
    have hoffset := hawaits.offset_eq
    have hlisted := h.notMem_completed_of_suspended (List.mem_of_getElem? hi)
    refine h.of_put hfollows hmemory hlisted (by omega) hawaits.size_le hoffset.symm hawaits.enrolled ?_ ?_
    · intro other hother
      exact h.ne_of_mem_eraseIdx hi (hsuspended ▸ hother)
    · rw [hsuspended]
      exact h.distinct.sublist ((List.eraseIdx_sublist _ _).map _)
  | written id offset data info hget hdata hsize hmemory hsuspended _ =>
    obtain ⟨rfl, -, hlimit, buffer, hbuffer, hlength⟩ := h.memory.upload id info hget
    have hoctets : 0 < data.length := List.length_pos_iff.mpr hdata
    have hlisted : info.id ∉ w.engine.completed := h.notMem_completed_of_ne hget (by omega)
    have hheld : ((w.engine.buffers.get? info.id).getD [] ++ data).length
        = info.offset + data.length := by
      rw [show w.engine.buffers.get? info.id = some buffer from hbuffer, List.length_append, ← hlength]
      rfl
    have henrolled := h.enrolled _ info hget
    refine h.of_put hfollows hmemory hlisted hsize hlimit hheld ⟨henrolled.drawn, henrolled.row⟩ ?_
      (hsuspended ▸ h.distinct)
    intro other hother
    have hmem : other ∈ w.suspended := hsuspended ▸ hother
    exact ⟨hmem, h.ne_of_awaits hget hmem⟩
  | terminated id info _ hmemory hsuspended _ => exact h.of_terminated hfollows hmemory hsuspended

theorem isConsistent (h : w.IsSound config) (hretained : 0 ≤ config.retainedUploads) :
    w.engine.IsConsistent config := by
  refine ⟨h.memory, h.room hretained, ?_⟩
  intro hdurable id info hinfo
  exact h.id_eq hinfo ▸ (h.enrolled id info hinfo).row hdurable

end IsSound

theorem isSound_run (config : Config) (store : Store) (broadcaster : Broadcaster) (telemetry : Telemetry)
    (actions : List Action)
    (hdistinct : ((start store broadcaster telemetry).run config actions).drawn.Nodup) :
    ((start store broadcaster telemetry).run config actions).IsSound config := by
  refine run_induction (motive := fun _ w => w.IsSound config) config _
    (isSound_start config store broadcaster telemetry) ?_ actions hdistinct
  intro actions a w w' h hfollows heffect hdrawn
  exact h.of_effect hfollows heffect hdrawn

/-- **The tables agree after every action**, whatever the actions before were and
    whether or not they failed, if the ids that were drawn are distinct: each upload in
    memory has as many octets as its offset says and not more than its size, the
    complete ones that are listed are in memory and not too many, and a durable store
    has a row of its size for each. -/
theorem isConsistent_run (config : Config) (store : Store) (broadcaster : Broadcaster)
    (telemetry : Telemetry) (hretained : 0 ≤ config.retainedUploads) (actions : List Action)
    (hdistinct : ((start store broadcaster telemetry).run config actions).drawn.Nodup) :
    ((start store broadcaster telemetry).run config actions).engine.IsConsistent config :=
  (isSound_run config store broadcaster telemetry actions hdistinct).isConsistent hretained

/-- Two creations overlap, an empty upload pushes another out, and the last write comes
    after the broadcaster was closed. -/
def overlappingActions : List Action :=
  [.enroll (Text.of "x") none 1 { year := 2024, month := 1, day := 1 }, .connectStore,
    .enroll (Text.of "a") none 3 { year := 2024, month := 1, day := 1 },
    .enroll (Text.of "b") none 0 { year := 2024, month := 1, day := 1 },
    .enroll (Text.of "c") (some (Text.of "k !")) 1 { year := 2024, month := 1, day := 1 },
    .enroll (Text.of "d") none 0 { year := 2024, month := 1, day := 1 },
    .register 1, .register 1, .register 0, .closeStore, .closeBroadcaster, .write (Text.of "a") 0 [120]]

theorem isConsistent_run_overlappingActions :
    (plainStart.run { retainedUploads := 1 } overlappingActions).drawn
        = [Text.of "x", Text.of "a", Text.of "b", Text.of "c", Text.of "d"]
      ∧ (plainStart.run { retainedUploads := 1 } overlappingActions).engine.uploads.keys
        = [Text.of "d", Text.of "a"]
      ∧ (plainStart.run { retainedUploads := 1 } overlappingActions).engine.IsConsistent
        { retainedUploads := 1 } := by
  have hdrawn : (plainStart.run { retainedUploads := 1 } overlappingActions).drawn
      = [Text.of "x", Text.of "a", Text.of "b", Text.of "c", Text.of "d"] := by decide +kernel
  refine ⟨hdrawn, by decide +kernel, ?_⟩
  exact isConsistent_run _ _ _ _ (by decide) overlappingActions (hdrawn ▸ by decide)

end Workload

end UploadGate
