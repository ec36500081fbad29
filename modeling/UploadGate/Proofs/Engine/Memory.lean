/-
  UploadGate/Proofs/Engine/Memory.lean
  ====================================
  **What the engine holds in memory, and what each operation makes of it.**

  The memory of an engine is its uploads, the octets of each, and the order in
  which uploads became complete.  An operation that succeeds or fails changes it
  in one of two ways.  It *puts* an upload into memory with its octets, publishes
  that, and if the upload is complete publishes this too and makes it the last of
  the complete ones, of which the oldest may have to go (`Announces`); or it
  *forgets* an upload.  Nothing is undone when publishing fails, so what was put
  or forgotten stays so.
-/
import UploadGate.Proofs.Engine.Publishing

namespace UploadGate

/-- An upload at a moment when a number of octets had arrived. -/
def UploadInfo.withOffset (info : UploadInfo) (offset : Nat) : UploadInfo := { info with offset }

/-! ### Memory -/

structure Memory where
  uploads : OrderedMap Text UploadInfo
  buffers : OrderedMap Text Bytes
  /-- The complete uploads, the first to become complete in front. -/
  completed : List Text
deriving DecidableEq, Repr

namespace Memory

def put (m : Memory) (info : UploadInfo) (buffer : Bytes) : Memory :=
  { m with uploads := m.uploads.set info.id info, buffers := m.buffers.set info.id buffer }

def forget (m : Memory) (id : Text) : Memory :=
  { uploads := m.uploads.erase id
    buffers := m.buffers.erase id
    completed := m.completed.filter (· ≠ id) }

def evict (retained : Int) (m : Memory) : Memory :=
  (m.completed.take (m.completed.length - retained.toNat)).foldl forget m

/-- Makes an upload the last of the complete ones, of which a number stay. -/
def finish (retained : Int) (m : Memory) (id : Text) : Memory :=
  { m with completed := m.completed ++ [id] }.evict retained

/-- What becomes of memory once an upload is in it, if its step can be published. -/
def advance (retained : Int) (isClosed : Bool) (m : Memory) (info : UploadInfo) : Memory :=
  if !isClosed && info.isComplete then m.finish retained info.id else m

end Memory

namespace Engine

variable {config : Config} {e : Engine} {info : UploadInfo} {kind : EventKind} {α β γ : Type}

def memory (e : Engine) : Memory := ⟨e.uploads, e.buffers, e.completed⟩

/-- The events of a step of an upload, the last of which says that it is complete. -/
def announced (isClosed : Bool) (kind : EventKind) (info : UploadInfo) : List Event :=
  if isClosed then []
  else if info.isComplete then [info.event kind, info.event .completed]
  else [info.event kind]

/-- An operation has put an upload into memory, published this, and completed the upload
    if all its octets are there. -/
structure Announces (config : Config) (kind : EventKind) (e : Engine) (info : UploadInfo) (buffer : Bytes)
    (r : Reply UploadInfo) : Prop where
  answer : r.answer =
    if e.broadcaster.isClosed then .error (.closed .publish)
    else if info.isComplete && decide (config.retainedUploads < 0) then .error (.value .nothingToEvict)
    else .ok info
  memory : r.engine.memory =
    (e.memory.put info buffer).advance config.retainedUploads e.broadcaster.isClosed info
  publishes : e.Publishes r.engine (announced e.broadcaster.isClosed kind info)

theorem Announces.of_eq {buffer : Bytes} {r r' : Reply UploadInfo} (h : Announces config kind e info buffer r)
    (hanswer : r'.answer = r.answer) (hengine : r'.engine = r.engine) :
    Announces config kind e info buffer r' := by
  refine ⟨hanswer.trans h.answer, ?_, ?_⟩
  · rw [hengine]
    exact h.memory
  · rw [hengine]
    exact h.publishes

/-! ### Replies in a row -/

theorem Reply.andThen_of_error {r : Reply α} {failure : Failure} (h : r.answer = .error failure)
    (next : α → Engine → Reply β) :
    (r.andThen next).answer = .error failure ∧ (r.andThen next).engine = r.engine := by
  unfold Reply.andThen
  rw [h]
  exact ⟨rfl, rfl⟩

theorem Reply.andThen_of_ok {r : Reply α} {a : α} (h : r.answer = .ok a)
    (next : α → Engine → Reply β) :
    (r.andThen next).answer = (next a r.engine).answer
      ∧ (r.andThen next).engine = (next a r.engine).engine := by
  unfold Reply.andThen
  rw [h]
  exact ⟨rfl, rfl⟩

/-- An answer that is given and then used is the same as one that is used. -/
theorem Reply.andThen_reply (r : Reply α) (b : β) (next : β → Engine → Reply γ) :
    ((r.andThen fun _ e => e.reply (.ok b)).andThen next).answer
        = (r.andThen fun _ e => next b e).answer
      ∧ ((r.andThen fun _ e => e.reply (.ok b)).andThen next).engine
        = (r.andThen fun _ e => next b e).engine := by
  unfold Reply.andThen
  cases r.answer with
  | error failure => exact ⟨rfl, rfl⟩
  | ok a => exact ⟨rfl, rfl⟩

/-- What begins with looking an upload up fails for one that is not in memory. -/
theorem lookUp_cases {id : Text} {r : Reply α} {next : UploadInfo → Engine → Reply α}
    (hr : r = (e.info id).andThen next) :
    (e.uploads.get? id = none ∧ r.answer = .error (.upload (.notFound id)) ∧ r.engine = e)
      ∨ ∃ info, e.uploads.get? id = some info ∧ r.answer = (next info e).answer
        ∧ r.engine = (next info e).engine := by
  rw [hr]
  cases hget : e.uploads.get? id with
  | none =>
    have hfind : (e.info id).answer = .error (.upload (.notFound id)) := by
      simp [Engine.info, find, hget, reply]
    exact Or.inl ⟨rfl, Reply.andThen_of_error hfind next⟩
  | some info =>
    have hfind : (e.info id).answer = .ok info := by
      simp [Engine.info, find, hget, reply]
    exact Or.inr ⟨info, rfl, Reply.andThen_of_ok hfind next⟩

/-! ### Publishing and making room -/

theorem isClosed_of_publishes {e' : Engine} {events : List Event} (h : e.Publishes e' events) :
    e'.broadcaster.isClosed = e.broadcaster.isClosed := by
  rw [h.broadcaster]

@[simp] theorem memory_publish (e : Engine) (kind : EventKind) (info : UploadInfo) :
    (e.publish kind info).engine.memory = e.memory := by
  unfold publish
  split <;> rfl

theorem memory_foldl_forget (ids : List Text) (e : Engine) :
    (ids.foldl forget e).memory = ids.foldl Memory.forget e.memory := by
  induction ids generalizing e with
  | nil => rfl
  | cons id ids ih => exact ih (e.forget id)

theorem memory_evict (retained : Int) (e : Engine) :
    (evict retained e).engine.memory = e.memory.evict retained :=
  memory_foldl_forget _ e

theorem evict_publishes (retained : Int) (e : Engine) : e.Publishes (evict retained e).engine [] :=
  foldl_forget_publishes _ e

/-- Completing an upload publishes that and makes it the last of the complete ones. -/
theorem complete_of_open (config : Config) (info : UploadInfo) (hopen : e.broadcaster.isClosed = false) :
    (e.complete config info).answer
        = (if config.retainedUploads < 0 then .error (.value .nothingToEvict) else .ok ())
      ∧ (e.complete config info).engine.memory = e.memory.finish config.retainedUploads info.id
      ∧ e.Publishes (e.complete config info).engine [info.event .completed] := by
  obtain ⟨noticed, hnoticed⟩ : ∃ noticed, noticed = e.notify "upload_completed" info.id := ⟨_, rfl⟩
  have hclosed : noticed.broadcaster.isClosed = false := by
    rw [hnoticed]
    exact hopen
  have hstart : e.Publishes noticed [] := by
    rw [hnoticed]
    exact Publishes.of_eq rfl rfl
  have hmemory : noticed.memory = e.memory := by
    rw [hnoticed]
    rfl
  obtain ⟨hpublishes, hanswer⟩ := publish_publishes noticed .completed info
  have hpublished := memory_publish noticed .completed info
  simp only [hclosed, Bool.false_eq_true, if_false] at hpublishes hanswer
  obtain ⟨hcomplete, hengine⟩ := Reply.andThen_of_ok hanswer fun _ e =>
    evict config.retainedUploads { e with completed := e.completed ++ [info.id] }
  have hlisted := hstart.trans hpublishes
  unfold complete
  rw [← hnoticed, hcomplete, hengine, memory_evict]
  refine ⟨rfl, ?_, ?_⟩
  · rw [← hmemory, ← hpublished]
    rfl
  · have hroom := evict_publishes config.retainedUploads { (noticed.publish .completed info).engine with
      completed := (noticed.publish .completed info).engine.completed ++ [info.id] }
    exact ⟨hroom.store.trans hlisted.store, hroom.broadcaster.trans (by simp [hlisted.broadcaster]),
      fun _ => hopen⟩

/-- An upload that may be complete is completed if it is. -/
theorem completeIfDone_of_open (config : Config) (info : UploadInfo)
    (hopen : e.broadcaster.isClosed = false) :
    (e.completeIfDone config info).answer
        = (if info.isComplete && decide (config.retainedUploads < 0) then .error (.value .nothingToEvict)
          else .ok info)
      ∧ (e.completeIfDone config info).engine.memory
        = e.memory.advance config.retainedUploads false info
      ∧ e.Publishes (e.completeIfDone config info).engine
        (if info.isComplete then [info.event .completed] else []) := by
  unfold completeIfDone
  cases hdone : info.isComplete with
  | false =>
    refine ⟨by simp [reply], ?_, ?_⟩
    · rw [Memory.advance, hdone]
      rfl
    · exact Publishes.of_eq rfl rfl
  | true =>
    obtain ⟨hanswer, hmemory, hpublishes⟩ := complete_of_open config info hopen
    have hadvance : e.memory.advance config.retainedUploads false info
        = e.memory.finish config.retainedUploads info.id := by
      rw [Memory.advance, hdone]
      rfl
    rw [hadvance, ← hmemory]
    simp only [if_true, Bool.true_and, decide_eq_true_eq]
    by_cases hnegative : config.retainedUploads < 0
    · rw [if_pos hnegative] at hanswer
      obtain ⟨hrefused, hkept⟩ := Reply.andThen_of_error hanswer fun _ e => e.reply (.ok info)
      rw [hrefused, hkept, if_pos hnegative]
      exact ⟨rfl, rfl, hpublishes⟩
    · rw [if_neg hnegative] at hanswer
      obtain ⟨hgiven, hkept⟩ := Reply.andThen_of_ok hanswer fun _ e => e.reply (.ok info)
      rw [hgiven, hkept, if_neg hnegative]
      exact ⟨rfl, rfl, hpublishes⟩

/-- **Publishing a step of an upload that was put into memory**, and completing the
    upload if all its octets are there. -/
theorem announces_of_put {put : Engine} {buffer : Bytes} (hmemory : put.memory = e.memory.put info buffer)
    (hput : e.Publishes put []) {r : Reply UploadInfo}
    (hanswer : r.answer
      = ((put.publish kind info).andThen fun _ e => e.completeIfDone config info).answer)
    (hengine : r.engine
      = ((put.publish kind info).andThen fun _ e => e.completeIfDone config info).engine) :
    Announces config kind e info buffer r := by
  obtain ⟨hpublishes, hpublished⟩ := publish_publishes put kind info
  have hstep := hput.trans hpublishes
  have hsame := (memory_publish put kind info).trans hmemory
  rw [isClosed_of_publishes hput] at hstep hpublished
  cases hclosed : e.broadcaster.isClosed with
  | true =>
    simp only [hclosed, if_true] at hstep hpublished
    obtain ⟨hfailed, hleft⟩ := Reply.andThen_of_error hpublished fun _ e =>
      e.completeIfDone config info
    refine ⟨?_, ?_, ?_⟩
    · rw [hanswer, hfailed, hclosed]
      rfl
    · rw [hengine, hleft, hsame, hclosed]
      rfl
    · rw [hengine, hleft, hclosed]
      exact hstep
  | false =>
    simp only [hclosed, Bool.false_eq_true, if_false] at hstep hpublished
    obtain ⟨hwent, hleft⟩ := Reply.andThen_of_ok hpublished fun _ e =>
      e.completeIfDone config info
    obtain ⟨hgiven, hadvanced, hdone⟩ := completeIfDone_of_open config info
      ((isClosed_of_publishes hstep).trans hclosed)
    refine ⟨?_, ?_, ?_⟩
    · rw [hanswer, hwent, hgiven, hclosed]
      rfl
    · rw [hengine, hleft, hadvanced, hsame, hclosed]
    · rw [hengine, hleft, hclosed]
      have hall := hstep.trans hdone
      cases hcomplete : info.isComplete with
      | false => simpa [announced, hcomplete] using hall
      | true => simpa [announced, hcomplete] using hall

/-! ### Operations -/

theorem read_engine (e : Engine) (id : Text) : (e.read id).engine = e := by
  rcases lookUp_cases (rfl : e.read id = _) with ⟨-, -, hengine⟩ | ⟨info, -, -, hengine⟩
  · exact hengine
  · exact hengine

/-- **The second half of a creation** puts the upload into memory, without octets. -/
theorem register_announces (config : Config) (e : Engine) (info : UploadInfo) :
    Announces config .created e info [] (e.register config info) := by
  have hput : e.Publishes (Engine.notify
      { e with uploads := e.uploads.set info.id info, buffers := e.buffers.set info.id [] }
      "upload_created" info.id) [] := Publishes.of_eq rfl rfl
  exact announces_of_put rfl hput rfl rfl

/-- Adding octets to an upload that is in memory puts it there again, with these. -/
theorem append_announces (config : Config) (e : Engine) (info : UploadInfo) (data : Bytes) :
    Announces config .progress e (info.withOffset (info.offset + data.length))
      ((e.buffers.get? info.id).getD [] ++ data)
      ((e.append info data).andThen fun info e => e.completeIfDone config info) := by
  obtain ⟨grown, hgrown⟩ : ∃ grown, grown = info.withOffset (info.offset + data.length) := ⟨_, rfl⟩
  obtain ⟨put, hput⟩ : ∃ put : Engine, put = { e with
    uploads := e.uploads.set info.id grown
    buffers := e.buffers.set info.id ((e.buffers.get? info.id).getD [] ++ data) } := ⟨_, rfl⟩
  have happend : e.append info data
      = (put.publish .progress grown).andThen fun _ e => e.reply (.ok grown) := by
    rw [hput, hgrown]
    rfl
  have hstart : e.Publishes put [] := by
    rw [hput]
    exact Publishes.of_eq rfl rfl
  have hmemory : put.memory = e.memory.put grown ((e.buffers.get? info.id).getD [] ++ data) := by
    rw [hput, hgrown]
    rfl
  obtain ⟨hanswer, hengine⟩ := Reply.andThen_reply (put.publish .progress grown) grown
    (fun info e => e.completeIfDone config info)
  rw [happend, ← hgrown]
  exact announces_of_put hmemory hstart hanswer hengine

theorem write_of_get?_eq_none {id : Text} (hget : e.uploads.get? id = none) (config : Config) (offset : Int)
    (data : Bytes) :
    (e.write config id offset data).answer = .error (.upload (.notFound id))
      ∧ (e.write config id offset data).engine = e := by
  rcases lookUp_cases (rfl : e.write config id offset data = _) with
    ⟨-, hanswer, hengine⟩ | ⟨info, hsome, -⟩
  · exact ⟨hanswer, hengine⟩
  · cases hget.symm.trans hsome

/-- Octets at another offset than that of the upload are refused, whether or not they fit. -/
theorem write_of_offset_ne {id : Text} (hget : e.uploads.get? id = some info) (config : Config) {offset : Int}
    (hoffset : offset ≠ info.offset) (data : Bytes) :
    (e.write config id offset data).answer = .error (.upload (.offsetMismatch offset info.offset))
      ∧ (e.write config id offset data).engine = e := by
  rcases lookUp_cases (rfl : e.write config id offset data = _) with
    ⟨hnone, -⟩ | ⟨found, hfound, hanswer, hengine⟩
  · cases hget.symm.trans hnone
  · obtain rfl := Option.some.inj (hget.symm.trans hfound)
    rw [if_pos hoffset] at hanswer hengine
    exact ⟨hanswer, hengine⟩

/-- Octets at the offset of the upload are refused if they do not fit. -/
theorem write_of_overrun {id : Text} (hget : e.uploads.get? id = some info) (config : Config) {data : Bytes}
    (hsize : info.size < info.offset + data.length) :
    (e.write config id info.offset data).answer = .error (.upload .chunkTooLarge)
      ∧ (e.write config id info.offset data).engine = e := by
  rcases lookUp_cases (rfl : e.write config id info.offset data = _) with
    ⟨hnone, -⟩ | ⟨found, hfound, hanswer, hengine⟩
  · cases hget.symm.trans hnone
  · obtain rfl := Option.some.inj (hget.symm.trans hfound)
    rw [if_neg (not_not_intro rfl), if_pos hsize] at hanswer hengine
    exact ⟨hanswer, hengine⟩

/-- Octets at the offset of the upload that fit put it into memory again, unless there
    are none. -/
theorem write_of_fits {id : Text} (hget : e.uploads.get? id = some info) (config : Config) {data : Bytes}
    (hsize : info.offset + data.length ≤ info.size) :
    (data = [] ∧ (e.write config id info.offset data).answer = .ok info
        ∧ (e.write config id info.offset data).engine = e)
      ∨ data ≠ [] ∧ Announces config .progress e (info.withOffset (info.offset + data.length))
        ((e.buffers.get? info.id).getD [] ++ data) (e.write config id info.offset data) := by
  rcases lookUp_cases (rfl : e.write config id info.offset data = _) with
    ⟨hnone, -⟩ | ⟨found, hfound, hanswer, hengine⟩
  · cases hget.symm.trans hnone
  · obtain rfl := Option.some.inj (hget.symm.trans hfound)
    rw [if_neg (not_not_intro rfl), if_neg (Nat.not_lt_of_le hsize)] at hanswer hengine
    by_cases hdata : data = []
    · rw [hdata] at hanswer hengine ⊢
      exact Or.inl ⟨rfl, hanswer, hengine⟩
    · have hsome : ¬ data.isEmpty = true := by simpa using hdata
      rw [if_neg hsome] at hanswer hengine
      exact Or.inr ⟨hdata, (append_announces config e info data).of_eq hanswer hengine⟩

/-- **A write** is refused, or changes nothing since it brings no octets, or puts the
    upload into memory with the octets it brings. -/
theorem write_cases (config : Config) (e : Engine) (id : Text) (offset : Int) (data : Bytes) :
    (∃ error, (e.write config id offset data).answer = .error (.upload error)
        ∧ (e.write config id offset data).engine = e)
      ∨ (∃ info, e.uploads.get? id = some info ∧ data = []
        ∧ (e.write config id offset data).answer = .ok info
        ∧ (e.write config id offset data).engine = e)
      ∨ ∃ info, e.uploads.get? id = some info ∧ data ≠ [] ∧ offset = info.offset
        ∧ info.offset + data.length ≤ info.size
        ∧ Announces config .progress e (info.withOffset (info.offset + data.length))
          ((e.buffers.get? info.id).getD [] ++ data) (e.write config id offset data) := by
  cases hget : e.uploads.get? id with
  | none => exact Or.inl ⟨_, write_of_get?_eq_none hget config offset data⟩
  | some info =>
    by_cases hoffset : offset = info.offset
    · subst hoffset
      by_cases hsize : info.size < info.offset + data.length
      · exact Or.inl ⟨_, write_of_overrun hget config hsize⟩
      · have hfits := Nat.le_of_not_lt hsize
        rcases write_of_fits hget config hfits with ⟨hdata, hkept⟩ | ⟨hdata, hannounces⟩
        · exact Or.inr (Or.inl ⟨info, rfl, hdata, hkept⟩)
        · exact Or.inr (Or.inr ⟨info, rfl, hdata, rfl, hfits, hannounces⟩)
    · exact Or.inl ⟨_, write_of_offset_ne hget config hoffset data⟩

/-- **Ending an upload** makes memory forget it, whether or not that can be published. -/
theorem terminate_cases (e : Engine) (id : Text) :
    (e.uploads.get? id = none ∧ (e.terminate id).answer = .error (.upload (.notFound id))
        ∧ (e.terminate id).engine = e)
      ∨ ∃ info, e.uploads.get? id = some info
        ∧ (e.terminate id).answer
          = (if e.broadcaster.isClosed then .error (.closed .publish) else .ok info)
        ∧ (e.terminate id).engine.memory = e.memory.forget id
        ∧ e.Publishes (e.terminate id).engine
          (if e.broadcaster.isClosed then [] else [info.event .terminated]) := by
  rcases lookUp_cases (rfl : e.terminate id = _) with habsent | ⟨info, hget, hanswer, hengine⟩
  · exact Or.inl habsent
  · refine Or.inr ⟨info, hget, ?_⟩
    obtain ⟨left, hleft⟩ : ∃ left, left = (e.forget id).notify "upload_terminated" id := ⟨_, rfl⟩
    rw [← hleft] at hanswer hengine
    have hstart : e.Publishes left [] := by
      rw [hleft]
      exact Publishes.of_eq rfl rfl
    have hmemory : left.memory = e.memory.forget id := by
      rw [hleft]
      rfl
    obtain ⟨hpublishes, hpublished⟩ := publish_publishes left .terminated info
    have hforgot := (memory_publish left .terminated info).trans hmemory
    have hstep := hstart.trans hpublishes
    rw [isClosed_of_publishes hstart] at hstep hpublished
    cases hclosed : e.broadcaster.isClosed with
    | true =>
      simp only [hclosed, if_true] at hstep hpublished
      obtain ⟨hfailed, hkept⟩ := Reply.andThen_of_error hpublished fun _ e => e.reply (.ok info)
      rw [hanswer, hengine, hfailed, hkept]
      exact ⟨rfl, hforgot, hstep⟩
    | false =>
      simp only [hclosed, Bool.false_eq_true, if_false] at hstep hpublished
      obtain ⟨hgiven, hkept⟩ := Reply.andThen_of_ok hpublished fun _ e => e.reply (.ok info)
      rw [hanswer, hengine, hgiven, hkept]
      exact ⟨rfl, hforgot, hstep⟩

/-- What the first half of a creation tells of an upload whose row it has added. -/
structure Enrolls (config : Config) (e : Engine) (id : Text) (header? : Option Text) (length : Int)
    (createdAt : Timestamp) (info : UploadInfo) (e' : Engine) : Prop where
  checked : checkLength config length = .ok ()
  id_eq : info.id = id
  size_eq : (info.size : Int) = length
  size_le : (info.size : Int) ≤ config.maximumUploadSize
  offset_eq : info.offset = 0
  metadata : Metadata.decode header? = .ok info.metadata
  row : e.store.create id length createdAt = .ok e'.store

theorem bounds_of_checkLength {length : Int} (h : checkLength config length = .ok ()) :
    0 ≤ length ∧ length ≤ config.maximumUploadSize := by
  unfold checkLength at h
  split at h
  · cases h
  · split at h
    · cases h
    · omega

/-- **The first half of a creation** adds a row for what the header says, or leaves the
    store alone; memory and the broadcaster are as they were. -/
theorem enroll_cases (config : Config) (e : Engine) (id : Text) (header? : Option Text) (length : Int)
    (createdAt : Timestamp) :
    (e.enroll config id header? length createdAt).engine.memory = e.memory
      ∧ (e.enroll config id header? length createdAt).engine.broadcaster = e.broadcaster
      ∧ ((∃ failure, (e.enroll config id header? length createdAt).answer = .error failure
          ∧ (e.enroll config id header? length createdAt).engine.store = e.store)
        ∨ ∃ info, (e.enroll config id header? length createdAt).answer = .ok info
          ∧ Enrolls config e id header? length createdAt info
            (e.enroll config id header? length createdAt).engine) := by
  unfold enroll
  cases hlength : checkLength config length with
  | error error => exact ⟨rfl, rfl, Or.inl ⟨_, rfl, rfl⟩⟩
  | ok u =>
    obtain ⟨hnonneg, hlimit⟩ := bounds_of_checkLength hlength
    have hsize : (length.toNat : Int) = length := Int.toNat_of_nonneg hnonneg
    simp only [insertRow]
    cases hdecode : Metadata.decode header? with
    | error fault => exact ⟨rfl, rfl, Or.inl ⟨_, rfl, rfl⟩⟩
    | ok metadata =>
      simp only [hsize]
      cases hcreate : e.store.create id length createdAt with
      | error failure => exact ⟨rfl, rfl, Or.inl ⟨_, rfl, rfl⟩⟩
      | ok store =>
        refine ⟨rfl, rfl, Or.inr ⟨_, rfl, ?_⟩⟩
        exact ⟨hlength, rfl, hsize, hsize.symm ▸ hlimit, rfl, hdecode, hcreate⟩

/-! ### Creations are published once -/

theorem eq_event_of_mem_announced {isClosed : Bool} {ev : Event} (h : ev ∈ announced isClosed kind info) :
    ev = info.event kind ∨ ev = info.event .completed := by
  unfold announced at h
  split at h
  · cases h
  · split at h
    · rcases List.mem_cons.mp h with h | h
      · exact Or.inl h
      · exact Or.inr (List.mem_singleton.mp h)
    · exact Or.inl (List.mem_singleton.mp h)

/-- An engine has published events since, and no creation. -/
def GoesOn (e e' : Engine) : Prop := ∃ events, e.Publishes e' events ∧ ∀ ev ∈ events, ev.kind ≠ .created

/-- Writing to an upload publishes no creation. -/
theorem write_goesOn (config : Config) (e : Engine) (id : Text) (offset : Int) (data : Bytes) :
    e.GoesOn (e.write config id offset data).engine := by
  rcases write_cases config e id offset data with
    ⟨error, -, hsame⟩ | ⟨info, -, -, -, hsame⟩ | ⟨info, -, -, -, -, hannounces⟩
  · rw [hsame]
    exact ⟨[], Publishes.of_eq rfl rfl, List.forall_mem_nil _⟩
  · rw [hsame]
    exact ⟨[], Publishes.of_eq rfl rfl, List.forall_mem_nil _⟩
  · refine ⟨_, hannounces.publishes, ?_⟩
    intro ev hev
    have hprogress : EventKind.progress ≠ .created := by decide
    have hcompleted : EventKind.completed ≠ .created := by decide
    rcases eq_event_of_mem_announced hev with rfl | rfl
    · exact hprogress
    · exact hcompleted

/-- Ending an upload publishes no creation. -/
theorem terminate_goesOn (e : Engine) (id : Text) : e.GoesOn (e.terminate id).engine := by
  rcases terminate_cases e id with ⟨-, -, hsame⟩ | ⟨info, -, -, -, hpublishes⟩
  · rw [hsame]
    exact ⟨[], Publishes.of_eq rfl rfl, List.forall_mem_nil _⟩
  · refine ⟨_, hpublishes, ?_⟩
    intro ev hev
    have hterminated : EventKind.terminated ≠ .created := by decide
    rw [eq_event_of_mem hev]
    exact hterminated

/-- **The second half of a creation publishes it**, and has done so if it returns. -/
theorem register_publishes (config : Config) (e : Engine) (info : UploadInfo) :
    ∃ events, e.Publishes (e.register config info).engine events
      ∧ (∀ ev ∈ events, ev.kind = .created → ev = info.event .created)
      ∧ ∀ answer, (e.register config info).answer = .ok answer → info.event .created ∈ events := by
  have hannounces := register_announces config e info
  refine ⟨_, hannounces.publishes, ?_, ?_⟩
  · intro ev hev hkind
    rcases eq_event_of_mem_announced hev with rfl | rfl
    · rfl
    · cases hkind
  · intro answer hanswer
    rw [hannounces.answer] at hanswer
    cases hclosed : e.broadcaster.isClosed with
    | true =>
      rw [hclosed] at hanswer
      cases hanswer
    | false =>
      unfold announced
      cases info.isComplete with
      | true => exact List.mem_cons_self
      | false => exact List.mem_cons_self

end Engine

end UploadGate
