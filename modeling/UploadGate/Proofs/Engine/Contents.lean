/-
  UploadGate/Proofs/Engine/Contents.lean
  ======================================
  **The octets of an upload are those of the writes that succeeded.**

  The offset and the octets of an upload are kept in two tables, and both may lose the
  upload when another one becomes complete.  What an action makes of an upload that is
  in memory afterwards is said once (`continues_step`): the upload was just put there,
  without octets, or it was there before, and then its offset and its octets have grown
  by what the action brought.  From this follows, along any run, what a read returns.
-/
import UploadGate.Proofs.Engine.Lifecycle

namespace UploadGate

/-! ### Octets in memory -/

namespace Memory

variable {retained : Int} {m : Memory} {info other : UploadInfo} {buffer : Bytes} {id : Text}
  {isClosed : Bool}

/-- The complete uploads for which there is no room once another one is complete. -/
def surplus (retained : Int) (m : Memory) (owner : Text) : List Text :=
  (m.completed ++ [owner]).take ((m.completed ++ [owner]).length - retained.toNat)

theorem finish_eq (retained : Int) (m : Memory) (owner : Text) :
    m.finish retained owner
      = (m.surplus retained owner).foldl forget { m with completed := m.completed ++ [owner] } := rfl

theorem get?_buffers_put_advance
    (h : ((m.put info buffer).advance retained isClosed info).uploads.get? id = some other) :
    ((m.put info buffer).advance retained isClosed info).buffers.get? id
      = if info.id = id then some buffer else m.buffers.get? id := by
  have hput : (m.put info buffer).buffers.get? id = if info.id = id then some buffer else m.buffers.get? id :=
    OrderedMap.get?_set _ _ _ _
  unfold advance at h ⊢
  split
  · rename_i hdone
    rw [if_pos hdone, finish_eq] at h
    rw [finish_eq]
    by_cases hgone : id ∈ (m.put info buffer).surplus retained info.id
    · rw [get?_foldl_forget_of_mem _ hgone] at h
      cases h
    · rw [(get?_foldl_forget_of_notMem _ hgone).2]
      exact hput
  · exact hput

/-- Where at least one upload is to be kept, the one that became complete last is. -/
theorem get?_put_advance_self (hretained : 1 ≤ retained) (hlisted : info.id ∉ m.completed) :
    ((m.put info buffer).advance retained isClosed info).uploads.get? info.id = some info := by
  have hput : (m.put info buffer).uploads.get? info.id = some info := by
    simp only [put, OrderedMap.get?_set, if_true]
  unfold advance
  split
  · have hstays : info.id ∉ (m.put info buffer).surplus retained info.id := by
      have hlength : (m.completed ++ [info.id]).length - retained.toNat - m.completed.length = 0 := by
        rw [List.length_append, List.length_singleton]
        omega
      intro hgone
      change info.id ∈ (m.completed ++ [info.id]).take _ at hgone
      rw [List.take_append, List.mem_append] at hgone
      rcases hgone with hgone | hgone
      · exact hlisted (List.mem_of_mem_take hgone)
      · rw [show (m.put info buffer).completed = m.completed from rfl, hlength] at hgone
        cases hgone
    rw [finish_eq, (get?_foldl_forget_of_notMem _ hstays).1]
    exact hput
  · exact hput

/-- Where less than nothing is to be kept, what became complete is gone. -/
theorem isComplete_of_get?_advance (hretained : retained < 0)
    (h : ((m.put info buffer).advance retained false info).uploads.get? info.id = some other) :
    info.isComplete = false := by
  cases hdone : info.isComplete with
  | false => rfl
  | true =>
    have hgone : info.id ∈ (m.put info buffer).surplus retained info.id := by
      have hzero : retained.toNat = 0 := by omega
      rw [surplus, hzero, Nat.sub_zero, List.take_length]
      exact List.mem_append_right _ (List.mem_singleton.mpr rfl)
    rw [advance, hdone, Bool.not_false, Bool.true_and, if_pos rfl, finish_eq,
      get?_foldl_forget_of_mem _ hgone] at h
    cases h

end Memory

namespace Engine

/-! ### What an operation makes of an upload -/

/-- The chunk that a write to one upload adds to another or the same: the one that it
    brings, if they are the same and it succeeds. -/
def chunksAdded (config : Config) (e : Engine) (owner : Text) (offset : Int) (data : Bytes) (id : Text) :
    List Bytes :=
  if owner = id ∧ (e.write config owner offset data).answer.isOk then [data] else []

/-- An upload in memory has become another one, which has some chunks more. -/
structure Grown (e e' : Engine) (chunks : List Bytes) (id : Text) (info info' : UploadInfo) : Prop where
  before : e.uploads.get? id = some info
  info_eq : info' = info.withOffset (info.offset + chunks.flatten.length)
  buffer_eq : (e'.buffers.get? id).getD [] = (e.buffers.get? id).getD [] ++ chunks.flatten

variable {config : Config} {e e' : Engine} {info info' : UploadInfo} {id owner : Text} {offset : Int}
  {data : Bytes}

theorem Grown.of_kept (hget : e.uploads.get? id = some info) (hbuffer : e'.buffers.get? id = e.buffers.get? id) :
    e.Grown e' [] id info info := by
  refine ⟨hget, rfl, ?_⟩
  rw [hbuffer, List.flatten_nil, List.append_nil]

theorem Grown.of_memory_eq (hmemory : e'.memory = e.memory) (hget : e'.uploads.get? id = some info) :
    e.Grown e' [] id info info := by
  have huploads : e'.uploads = e.uploads := congrArg Memory.uploads hmemory
  have hbuffers : e'.buffers = e.buffers := congrArg Memory.buffers hmemory
  exact .of_kept (huploads ▸ hget) (by rw [hbuffers])

theorem chunksAdded_of_error {error : Failure} (h : (e.write config owner offset data).answer = .error error) :
    e.chunksAdded config owner offset data id = [] := by
  rw [chunksAdded, h]
  exact if_neg fun hok => Bool.false_ne_true hok.2

theorem chunksAdded_of_ok (h : (e.write config owner offset data).answer = .ok info) :
    e.chunksAdded config owner offset data id = if owner = id then [data] else [] := by
  rw [chunksAdded, h]
  exact if_congr (and_iff_left rfl) rfl rfl

theorem mem_uploads_of_chunksAdded (h : e.chunksAdded config owner offset data id ≠ []) :
    id ∈ e.uploads.keys := by
  obtain rfl : owner = id := by
    by_contra hne
    exact h (if_neg fun hok => hne hok.1)
  rcases write_cases config e owner offset data with
    ⟨error, hanswer, -⟩ | ⟨info, hget, -⟩ | ⟨info, hget, -⟩
  · exact absurd (chunksAdded_of_error hanswer) h
  · exact OrderedMap.mem_keys_iff.mpr ⟨info, hget⟩
  · exact OrderedMap.mem_keys_iff.mpr ⟨info, hget⟩

/-- What is put into memory and is there afterwards has been answered. -/
theorem Announces.answer_of_get? {kind : EventKind} {buffer : Bytes} {r : Reply UploadInfo}
    (h : Announces config kind e info buffer r) (hopen : e.broadcaster.isClosed = false)
    (hget : r.engine.uploads.get? info.id = some info') : r.answer = .ok info := by
  have hstuck : (info.isComplete && decide (config.retainedUploads < 0)) = false := by
    by_cases hnegative : config.retainedUploads < 0
    · have hmemory := h.memory
      rw [hopen] at hmemory
      have hafter : r.engine.memory.uploads.get? info.id = some info' := hget
      rw [hmemory] at hafter
      rw [Memory.isComplete_of_get?_advance hnegative hafter, Bool.false_and]
    · rw [decide_eq_false hnegative, Bool.and_false]
  rw [h.answer, hopen, hstuck]
  rfl

theorem Announces.get?_cases {kind : EventKind} {buffer : Bytes} {r : Reply UploadInfo}
    (h : Announces config kind e info buffer r) (hget : r.engine.uploads.get? id = some info') :
    (info.id = id ∧ info' = info ∧ r.engine.buffers.get? id = some buffer)
      ∨ (info.id ≠ id ∧ e.Grown r.engine [] id info' info') := by
  have hafter : r.engine.memory.uploads.get? id = some info' := hget
  rw [h.memory] at hafter
  have hbuffer := Memory.get?_buffers_put_advance hafter
  rw [← h.memory] at hbuffer
  rcases Memory.get?_of_put_advance hafter with ⟨hid, hinfo⟩ | ⟨hne, hbefore⟩
  · rw [if_pos hid] at hbuffer
    exact Or.inl ⟨hid, hinfo, hbuffer⟩
  · rw [if_neg hne] at hbuffer
    exact Or.inr ⟨hne, .of_kept hbefore hbuffer⟩

/-- **A write** leaves in memory what was there, and has added its chunk if it succeeded. -/
theorem write_grown (hids : ∀ id info, e.uploads.get? id = some info → info.id = id)
    (hopen : e.broadcaster.isClosed = false)
    (hget : (e.write config owner offset data).engine.uploads.get? id = some info') :
    ∃ info, e.Grown (e.write config owner offset data).engine (e.chunksAdded config owner offset data id) id
      info info' := by
  rcases write_cases config e owner offset data with
    ⟨error, hanswer, hsame⟩ | ⟨info, -, rfl, hanswer, hsame⟩ | ⟨info, hinfo, -, -, -, hannounces⟩
  · rw [hsame] at hget ⊢
    rw [chunksAdded_of_error hanswer]
    exact ⟨info', .of_kept hget rfl⟩
  · rw [hsame] at hget ⊢
    rw [chunksAdded_of_ok hanswer]
    refine ⟨info', hget, ?_, ?_⟩
    · split <;> rfl
    · split <;> simp
  · obtain rfl := hids _ _ hinfo
    rcases hannounces.get?_cases hget with ⟨hid, rfl, hbuffer⟩ | ⟨hne, hkept⟩
    · obtain rfl : info.id = id := hid
      rw [chunksAdded_of_ok (hannounces.answer_of_get? hopen hget), if_pos rfl]
      refine ⟨info, hinfo, ?_, ?_⟩
      · rw [List.flatten_singleton]
      · rw [hbuffer, List.flatten_singleton]
        rfl
    · have hnone : e.chunksAdded config info.id offset data id = [] := if_neg fun hok => hne hok.1
      rw [hnone]
      exact ⟨info', hkept⟩

theorem terminate_grown (hget : (e.terminate owner).engine.uploads.get? id = some info') :
    e.Grown (e.terminate owner).engine [] id info' info' := by
  rcases terminate_cases e owner with ⟨-, -, hsame⟩ | ⟨info, -, -, hmemory, -⟩
  · rw [hsame] at hget ⊢
    exact .of_kept hget rfl
  · have huploads : (e.terminate owner).engine.uploads = e.uploads.erase owner :=
      congrArg Memory.uploads hmemory
    have hbuffers : (e.terminate owner).engine.buffers = e.buffers.erase owner :=
      congrArg Memory.buffers hmemory
    rw [huploads, OrderedMap.get?_erase] at hget
    split at hget
    · cases hget
    · rename_i hne
      apply Grown.of_kept hget
      rw [hbuffers, OrderedMap.get?_erase, if_neg hne]

end Engine

namespace Workload

/-! ### Accepted chunks -/

/-- The chunk that an action adds to an upload. -/
def acceptedBy (config : Config) (w : Workload) (id : Text) : Action → List Bytes
  | .write owner offset data => w.engine.chunksAdded config owner offset data id
  | _ => []

/-- The chunks of all writes to an upload that succeed, in the order of the writes. -/
def accepted (config : Config) (id : Text) : Workload → List Action → List Bytes
  | _, [] => []
  | w, a :: actions => w.acceptedBy config id a ++ accepted config id (w.step config a) actions

/-- Writes of chunks, each at the offset where the one before ends. -/
def writes (id : Text) : Nat → List Bytes → List Action
  | _, [] => []
  | offset, chunk :: chunks => .write id offset chunk :: writes id (offset + chunk.length) chunks

variable {config : Config} {w w' : Workload} {actions : List Action} {a : Action} {info info' : UploadInfo}
  {id : Text} {chunks : List Bytes}

theorem accepted_append (config : Config) (id : Text) (w : Workload) (early late : List Action) :
    accepted config id w (early ++ late)
      = accepted config id w early ++ accepted config id (w.run config early) late := by
  induction early generalizing w with
  | nil => rfl
  | cons a early ih =>
    rw [List.cons_append, accepted, ih, accepted, List.append_assoc]
    rfl

theorem accepted_concat (config : Config) (id : Text) (w : Workload) (actions : List Action) (a : Action) :
    accepted config id w (actions ++ [a])
      = accepted config id w actions ++ (w.run config actions).acceptedBy config id a := by
  rw [accepted_append, accepted, accepted, List.append_nil]

/-! ### One action -/

inductive Continues (w w' : Workload) (chunks : List Bytes) (id : Text) (info' : UploadInfo) : Prop
  /-- The upload was just put into memory. -/
  | registered (hmem : info' ∈ w.suspended) (hbuffer : w'.engine.buffers.get? id = some [])
      (hchunks : chunks = [])
  /-- The upload was there before and has grown by the chunks. -/
  | grown (info : UploadInfo) (hgrown : w.engine.Grown w'.engine chunks id info info')

theorem continues_register {i : Nat} (hget : (w.step config (.register i)).engine.uploads.get? id = some info') :
    Continues w (w.step config (.register i)) [] id info' := by
  cases hi : w.suspended[i]? with
  | none =>
    rw [step_register_of_none hi] at hget ⊢
    exact .grown info' (.of_kept hget rfl)
  | some info =>
    rw [step_register_of_some hi] at hget ⊢
    rcases (Engine.register_announces config w.engine info).get?_cases hget with
      ⟨-, rfl, hbuffer⟩ | ⟨-, hkept⟩
    · exact .registered (List.mem_of_getElem? hi) hbuffer rfl
    · exact .grown info' hkept

/-- **What an action makes of an upload** that is in memory afterwards, while the
    broadcaster is open. -/
theorem continues_step (h : w.IsSound config) (hopen : w.engine.broadcaster.isClosed = false) (a : Action)
    (hget : (w.step config a).engine.uploads.get? id = some info') :
    Continues w (w.step config a) (w.acceptedBy config id a) id info' := by
  cases a with
  | enroll owner header? length createdAt =>
    exact .grown info' (.of_memory_eq (Engine.enroll_cases config w.engine owner header? length createdAt).1 hget)
  | register i => exact continues_register hget
  | write owner offset data =>
    obtain ⟨info, hgrown⟩ := Engine.write_grown (fun _ _ => h.id_eq) hopen hget
    exact .grown info hgrown
  | terminate owner => exact .grown info' (Engine.terminate_grown hget)
  | read owner =>
    exact .grown info' (.of_memory_eq (congrArg Engine.memory (Engine.read_engine w.engine owner)) hget)
  | _ => exact .grown info' (.of_memory_eq rfl hget)

/-! ### A run -/

structure Contains (config : Config) (chunks : List Bytes) (id : Text) (w : Workload) : Prop where
  sound : w.IsSound config
  /-- Nothing is written to an upload before its creation has gone on. -/
  untouched : chunks ≠ [] → w.IsSettled id
  held : w.engine.broadcaster.isClosed = false → ∀ info, w.engine.uploads.get? id = some info →
    (w.engine.buffers.get? id).getD [] = chunks.flatten

theorem contains_start (config : Config) (store : Store) (broadcaster : Broadcaster) (telemetry : Telemetry)
    (id : Text) : Contains config [] id (start store broadcaster telemetry) := by
  refine ⟨isSound_start config store broadcaster telemetry, fun h => absurd rfl h, ?_⟩
  intro _ info hget
  cases hget

theorem mem_uploads_of_acceptedBy (h : w.acceptedBy config id a ≠ []) : id ∈ w.engine.uploads.keys := by
  cases a with
  | write owner offset data => exact Engine.mem_uploads_of_chunksAdded h
  | _ => exact absurd rfl h

/-- **Every action keeps the octets** those of the accepted chunks. -/
theorem Contains.step (h : Contains config chunks id w) (a : Action)
    (hdistinct : (w.step config a).drawn.Nodup) :
    Contains config (chunks ++ w.acceptedBy config id a) id (w.step config a) := by
  have hfollows := follows_step config w a
  have heffect := effect_step config w a
  have hsound := h.sound.of_effect hfollows heffect hdistinct
  refine ⟨hsound, ?_, ?_⟩
  · intro hsome
    have hsettled : w.IsSettled id := by
      by_cases hchunks : chunks = []
      · rw [hchunks, List.nil_append] at hsome
        exact isSettled_of_mem h.sound (mem_uploads_of_acceptedBy hsome)
      · exact h.untouched hchunks
    exact hsettled.of_effect hfollows heffect hdistinct
  · intro hopen info' hget
    have hwas := Tells.isOpen_of_follows hfollows hopen
    cases continues_step h.sound hwas a hget with
    | registered hmem hbuffer hnone =>
      have hfresh : chunks = [] := by
        by_contra hchunks
        exact (h.untouched hchunks).suspended info' hmem (hsound.id_eq hget)
      rw [hnone, hfresh, hbuffer]
      rfl
    | grown info hgrown =>
      rw [hgrown.buffer_eq, h.held hwas info hgrown.before, List.flatten_append]

theorem contains_run (config : Config) (store : Store) (broadcaster : Broadcaster) (telemetry : Telemetry)
    (actions : List Action)
    (hdistinct : ((start store broadcaster telemetry).run config actions).drawn.Nodup) (id : Text) :
    Contains config (accepted config id (start store broadcaster telemetry) actions) id
      ((start store broadcaster telemetry).run config actions) := by
  induction actions using List.reverseRecOn with
  | nil => exact contains_start config store broadcaster telemetry id
  | append_singleton actions a ih =>
    rw [run_concat] at hdistinct ⊢
    rw [accepted_concat]
    exact (ih (hdistinct.sublist (follows_step config _ a).drawn.sublist)).step a hdistinct

/-! ### Writing an upload from its beginning -/

/-- A workload whose tables agree, where ids are distinct and events can be published. -/
structure IsRunning (config : Config) (w : Workload) : Prop where
  sound : w.IsSound config
  distinct : w.drawn.Nodup
  isOpen : w.engine.broadcaster.isClosed = false

theorem IsRunning.of_publishes {events : List Event} (h : w.IsRunning config)
    (hsound : w'.drawn.Nodup → w'.IsSound config) (hpublishes : w.engine.Publishes w'.engine events)
    (hdrawn : w'.drawn = w.drawn) : w'.IsRunning config := by
  have hdistinct : w'.drawn.Nodup := hdrawn ▸ h.distinct
  exact ⟨hsound hdistinct, hdistinct, (Engine.isClosed_of_publishes hpublishes).trans h.isOpen⟩

theorem IsRunning.write (h : w.IsRunning config) (owner : Text) (offset : Int) (data : Bytes) :
    (w.step config (.write owner offset data)).IsRunning config := by
  obtain ⟨events, hpublishes, -⟩ := Engine.write_goesOn config w.engine owner offset data
  refine h.of_publishes ?_ hpublishes rfl
  exact h.sound.of_effect (follows_step config w _) (effect_step config w _)

theorem IsRunning.register (h : w.IsRunning config) (i : Nat) :
    (w.step config (.register i)).IsRunning config := by
  have hsound := h.sound.of_effect (follows_step config w (.register i)) (effect_step config w (.register i))
  cases hi : w.suspended[i]? with
  | none =>
    rw [step_register_of_none hi]
    exact h
  | some info =>
    rw [step_register_of_some hi] at hsound ⊢
    exact h.of_publishes hsound (Engine.register_announces config w.engine info).publishes rfl

theorem get?_register (h : w.IsRunning config) (hretained : 1 ≤ config.retainedUploads) {i : Nat}
    (hi : w.suspended[i]? = some info) :
    (w.step config (.register i)).engine.uploads.get? info.id = some info := by
  have hlisted := h.sound.notMem_completed_of_suspended (List.mem_of_getElem? hi)
  have hstays : (w.engine.register config info).engine.memory.uploads.get? info.id = some info := by
    rw [(Engine.register_announces config w.engine info).memory]
    exact Memory.get?_put_advance_self hretained hlisted
  rw [step_register_of_some hi]
  exact hstays

/-- A chunk that fits, at the offset of its upload, is accepted. -/
theorem write_fits (h : w.IsRunning config) (hretained : 1 ≤ config.retainedUploads)
    (hget : w.engine.uploads.get? id = some info) {data : Bytes}
    (hfits : info.offset + data.length ≤ info.size) :
    w.acceptedBy config id (.write id info.offset data) = [data]
      ∧ (w.step config (.write id info.offset data)).engine.uploads.get? id
        = some (info.withOffset (info.offset + data.length)) := by
  rcases Engine.write_of_fits hget config hfits with ⟨rfl, hanswer, hsame⟩ | ⟨hdata, hannounces⟩
  · rw [acceptedBy, Engine.chunksAdded_of_ok hanswer, if_pos rfl, step, after_eq_self hsame]
    exact ⟨rfl, hget⟩
  · obtain rfl := h.sound.id_eq hget
    have hoctets : 0 < data.length := List.length_pos_iff.mpr hdata
    have hlisted : info.id ∉ w.engine.completed := h.sound.notMem_completed_of_ne hget (by omega)
    have hstays : (w.engine.write config info.id info.offset data).engine.memory.uploads.get? info.id
        = some (info.withOffset (info.offset + data.length)) := by
      rw [hannounces.memory]
      exact Memory.get?_put_advance_self hretained hlisted
    refine ⟨?_, hstays⟩
    rw [acceptedBy, Engine.chunksAdded_of_ok (hannounces.answer_of_get? h.isOpen hstays), if_pos rfl]

/-- **Chunks that fit together**, each written where the one before ends, are all accepted. -/
theorem run_writes (h : w.IsRunning config) (hretained : 1 ≤ config.retainedUploads)
    (hget : w.engine.uploads.get? id = some info) (chunks : List Bytes)
    (hfits : info.offset + chunks.flatten.length ≤ info.size) :
    (w.run config (writes id info.offset chunks)).IsRunning config
      ∧ accepted config id w (writes id info.offset chunks) = chunks
      ∧ (w.run config (writes id info.offset chunks)).engine.uploads.get? id
        = some (info.withOffset (info.offset + chunks.flatten.length)) := by
  induction chunks generalizing w info with
  | nil => exact ⟨h, rfl, hget⟩
  | cons chunk chunks ih =>
    rw [List.flatten_cons, List.length_append, ← Nat.add_assoc] at hfits ⊢
    have hfirst : info.offset + chunk.length ≤ info.size := by omega
    obtain ⟨haccepted, hafter⟩ := write_fits h hretained hget hfirst
    obtain ⟨hrunning, hrest, hfinal⟩ := ih (h.write id info.offset chunk) hafter hfits
    refine ⟨hrunning, ?_, hfinal⟩
    rw [writes, accepted, haccepted]
    exact congrArg (chunk :: ·) hrest

theorem countP_word (l : Life) :
    l.word.countP (·.kind = .completed) = if l.reached = l.info.size then 1 else 0 := by
  have hprogress : (l.offsets.map fun offset => (l.info.withOffset offset).event .progress).countP
      (·.kind = .completed) = 0 := by
    rw [List.countP_map, List.countP_eq_zero]
    intro offset _
    simp [UploadInfo.event]
  simp only [Life.word, List.cons_append, List.countP_cons, List.countP_append, hprogress]
  by_cases hreached : l.reached = l.info.size
  · cases l.isEnded <;> simp [hreached, UploadInfo.event]
  · cases l.isEnded <;> simp [hreached, UploadInfo.event]

/-! ### What a read returns -/

theorem read_of_get? {e : Engine} (hget : e.uploads.get? id = some info) :
    (e.read id).answer = .ok ((e.buffers.get? id).getD []) := by
  rcases Engine.lookUp_cases (rfl : e.read id = _) with ⟨hnone, -⟩ | ⟨found, -, hanswer, -⟩
  · cases hget.symm.trans hnone
  · exact hanswer

theorem Contains.read (h : Contains config chunks id w) (hopen : w.engine.broadcaster.isClosed = false)
    (hget : w.engine.uploads.get? id = some info) :
    (w.engine.read id).answer = .ok chunks.flatten ∧ info.offset = chunks.flatten.length := by
  have hbuffer := h.held hopen info hget
  obtain ⟨-, -, -, buffer, hheld, hlength⟩ := h.sound.memory.upload id info hget
  have hget' : w.engine.buffers.get? id = some buffer := hheld
  rw [hget', Option.getD_some] at hbuffer
  rw [read_of_get? hget, hget', Option.getD_some, hbuffer, ← hbuffer]
  exact ⟨rfl, hlength.symm⟩

/-- **An upload without octets to which all of them are written** is whole, however they
    are cut into chunks, and it is told once to be complete. -/
theorem whole_of_writes (config : Config) (store : Store) (broadcaster : Broadcaster) (telemetry : Telemetry)
    (actions : List Action) (hrunning : ((start store broadcaster telemetry).run config actions).IsRunning config)
    (hretained : 1 ≤ config.retainedUploads)
    (hget : ((start store broadcaster telemetry).run config actions).engine.uploads.get? id = some info)
    (hoffset : info.offset = 0) (chunks : List Bytes) (hlength : chunks.flatten.length = info.size) :
    let w := (start store broadcaster telemetry).run config actions
    let whole := w.run config (writes id 0 chunks)
    accepted config id w (writes id 0 chunks) = chunks
      ∧ (whole.engine.read id).answer = .ok chunks.flatten
      ∧ whole.engine.uploads.get? id = some (info.withOffset info.size)
      ∧ (whole.history id).countP (·.kind = .completed) = 1 := by
  intro w whole
  have hrun : whole = (start store broadcaster telemetry).run config (actions ++ writes id 0 chunks) :=
    (run_append config _ _ _).symm
  obtain ⟨hdone, haccepted, hfinal⟩ := run_writes hrunning hretained hget chunks (by omega)
  rw [hoffset] at hdone haccepted hfinal
  rw [Nat.zero_add, hlength] at hfinal
  -- nothing was accepted before, since the offset is the length of what was
  have hnothing : (accepted config id (start store broadcaster telemetry) actions).flatten = [] := by
    have hbefore := contains_run config store broadcaster telemetry actions hrunning.distinct id
    have hheld := (hbefore.read hrunning.isOpen hget).2
    rw [hoffset] at hheld
    exact List.length_eq_zero_iff.mp hheld.symm
  have hdistinct : ((start store broadcaster telemetry).run config (actions ++ writes id 0 chunks)).drawn.Nodup :=
    hrun ▸ hdone.distinct
  have hcontains := contains_run config store broadcaster telemetry _ hdistinct id
  rw [accepted_append, haccepted, ← hrun] at hcontains
  refine ⟨haccepted, ?_, hfinal, ?_⟩
  · have hread := (hcontains.read hdone.isOpen hfinal).1
    rw [List.flatten_append, hnothing, List.nil_append] at hread
    exact hread
  · have htells := tells_run config store broadcaster telemetry _ hdistinct
    rw [← hrun] at htells
    obtain ⟨life, hinfo, -, hreached, -, hword⟩ := htells.alive hdone.isOpen id _ hfinal
    rw [hword, countP_word, hreached, hinfo]
    exact if_pos rfl

/-- **A read returns the accepted chunks.**  Along every run whose ids are distinct and
    whose broadcaster is open, an upload in memory has the octets of the writes to it that
    succeeded, in their order, and no others, whatever was done to other uploads.  A write
    at another offset than its own is refused, and so is one at that offset that does not
    fit; neither changes anything.  Where at least one complete upload is to be kept, a
    creation that goes on leaves an upload without octets in memory, and one to which all
    its octets are then written, cut into chunks in any way, has these octets and is
    complete once. -/
theorem read_of_run (config : Config) (store : Store) (broadcaster : Broadcaster) (telemetry : Telemetry)
    (actions : List Action)
    (hdistinct : ((start store broadcaster telemetry).run config actions).drawn.Nodup)
    (hopen : ((start store broadcaster telemetry).run config actions).engine.broadcaster.isClosed = false) :
    let origin := start store broadcaster telemetry
    let state := fun actions => origin.run config actions
    (∀ id info, (state actions).engine.uploads.get? id = some info →
      ((state actions).engine.read id).answer = .ok (accepted config id origin actions).flatten
        ∧ info.offset = (accepted config id origin actions).flatten.length
        ∧ (∀ (offset : Int) (data : Bytes), offset ≠ info.offset →
          ((state actions).engine.write config id offset data).answer
              = .error (.upload (.offsetMismatch offset info.offset))
            ∧ ((state actions).engine.write config id offset data).engine = (state actions).engine)
        ∧ ∀ data : Bytes, info.size < info.offset + data.length →
          ((state actions).engine.write config id info.offset data).answer = .error (.upload .chunkTooLarge)
            ∧ ((state actions).engine.write config id info.offset data).engine = (state actions).engine)
    ∧ (1 ≤ config.retainedUploads →
      (∀ i info, (state actions).suspended[i]? = some info →
        let created := state (actions ++ [.register i])
        created.drawn.Nodup ∧ created.engine.broadcaster.isClosed = false
          ∧ info.offset = 0 ∧ created.engine.uploads.get? info.id = some info)
      ∧ ∀ id info chunks, (state actions).engine.uploads.get? id = some info → info.offset = 0 →
        chunks.flatten.length = info.size →
        let whole := state (actions ++ writes id 0 chunks)
        accepted config id (state actions) (writes id 0 chunks) = chunks
          ∧ (whole.engine.read id).answer = .ok chunks.flatten
          ∧ whole.engine.uploads.get? id = some (info.withOffset info.size)
          ∧ (whole.history id).countP (·.kind = .completed) = 1) := by
  intro origin state
  have hrunning : (state actions).IsRunning config :=
    ⟨isSound_run config store broadcaster telemetry actions hdistinct, hdistinct, hopen⟩
  constructor
  · intro id info hget
    have hcontains := contains_run config store broadcaster telemetry actions hdistinct id
    obtain ⟨hread, hoffset⟩ := hcontains.read hopen hget
    refine ⟨hread, hoffset, ?_, ?_⟩
    · intro offset data hne
      exact Engine.write_of_offset_ne hget config hne data
    · intro data hsize
      exact Engine.write_of_overrun hget config hsize
  · intro hretained
    constructor
    · intro i info hi created
      have hcreated : created = (state actions).step config (.register i) := run_concat config origin actions _
      have hgoes := hrunning.register i
      have hget := get?_register hrunning hretained hi
      rw [← hcreated] at hgoes hget
      exact ⟨hgoes.distinct, hgoes.isOpen, (hrunning.sound.awaits info (List.mem_of_getElem? hi)).offset_eq, hget⟩
    · intro id info chunks hget hoffset hlength whole
      have hwhole : whole = (state actions).run config (writes id 0 chunks) := run_append config origin _ _
      obtain ⟨haccepted, hread, hfinal, honce⟩ :=
        whole_of_writes config store broadcaster telemetry actions hrunning hretained hget hoffset chunks hlength
      rw [hwhole]
      exact ⟨haccepted, hread, hfinal, honce⟩

def twoCreated : List Action :=
  [.connectStore, .enroll (Text.of "a") none 3 { year := 2024, month := 1, day := 1 },
    .enroll (Text.of "b") none 1 { year := 2024, month := 1, day := 1 }, .register 0, .register 0]

/-- They are written by turns, one of them with an empty chunk, a refused one and one that
    does not fit, and the other one becomes complete. -/
def writtenByTurns : List Action :=
  twoCreated ++ [.write (Text.of "a") 0 [], .write (Text.of "a") 0 [120], .write (Text.of "b") 0 [130],
    .write (Text.of "a") 0 [121], .write (Text.of "a") 1 [122, 123, 124], .write (Text.of "a") 1 [122]]

theorem read_of_run_writtenByTurns :
    accepted { retainedUploads := 1 } (Text.of "a") plainStart writtenByTurns = [[], [120], [122]]
      ∧ ((plainStart.run { retainedUploads := 1 } writtenByTurns).engine.read (Text.of "a")).answer
        = .ok [120, 122]
      ∧ ((plainStart.run { retainedUploads := 1 }
          (twoCreated ++ writes (Text.of "a") 0 [[120], [], [121, 122]])).engine.read (Text.of "a")).answer
        = .ok [120, 121, 122] := by
  have hchunks : accepted { retainedUploads := 1 } (Text.of "a") plainStart writtenByTurns
      = [[], [120], [122]] := by decide +kernel
  have hget : (plainStart.run { retainedUploads := 1 } writtenByTurns).engine.uploads.get? (Text.of "a")
      = some ⟨Text.of "a", 3, 2, []⟩ := by decide +kernel
  have hfresh : (plainStart.run { retainedUploads := 1 } twoCreated).engine.uploads.get? (Text.of "a")
      = some ⟨Text.of "a", 3, 0, []⟩ := by decide +kernel
  have hturns : (plainStart.run { retainedUploads := 1 } writtenByTurns).drawn.Nodup
      ∧ (plainStart.run { retainedUploads := 1 } writtenByTurns).engine.broadcaster.isClosed = false := by
    decide +kernel
  have hcreated : (plainStart.run { retainedUploads := 1 } twoCreated).drawn.Nodup
      ∧ (plainStart.run { retainedUploads := 1 } twoCreated).engine.broadcaster.isClosed = false := by
    decide +kernel
  obtain ⟨hread, -⟩ := read_of_run { retainedUploads := 1 } _ _ _ writtenByTurns hturns.1 hturns.2
  obtain ⟨-, hwhole⟩ := read_of_run { retainedUploads := 1 } _ _ _ twoCreated hcreated.1 hcreated.2
  obtain ⟨hanswer, -⟩ := hread _ _ hget
  obtain ⟨-, hcut⟩ := hwhole (by decide)
  obtain ⟨-, hall, -⟩ := hcut _ _ [[120], [], [121, 122]] hfresh rfl rfl
  refine ⟨hchunks, ?_, hall⟩
  exact hanswer.trans (congrArg (fun chunks => Except.ok chunks.flatten) hchunks)

end Workload

end UploadGate
