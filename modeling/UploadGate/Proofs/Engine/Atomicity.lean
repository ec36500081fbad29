/-
  UploadGate/Proofs/Engine/Atomicity.lean
  =======================================
  **What a failed operation leaves behind.**

  An operation checks before it changes anything, so one that is refused leaves
  everything as it was.  It publishes after it has changed memory, and a creation
  after its row has been added; nothing is undone if the broadcaster is closed by
  then (`Interrupted.closed`).  The same holds of an upload that becomes complete
  where a number below zero is to be kept, which no eviction reaches
  (`Interrupted.evicting`).  There is no other failure half way.
-/
import UploadGate.Proofs.Engine.Workload

namespace UploadGate.Engine

structure Unchanged (e e' : Engine) : Prop where
  memory : e'.memory = e.memory
  store : e'.store = e.store
  broadcaster : e'.broadcaster = e.broadcaster

/-- A step of an upload that failed after the upload had been put into memory. -/
inductive Interrupted (config : Config) (kind : EventKind) (e : Engine) (info : UploadInfo)
    (buffer : Bytes) : Failure → Engine → Prop
  /-- Nothing could be published any more. -/
  | closed {e' : Engine} (hclosed : e.broadcaster.isClosed = true)
      (hmemory : e'.memory = e.memory.put info buffer) (hbroadcaster : e'.broadcaster = e.broadcaster) :
      Interrupted config kind e info buffer (.closed .publish) e'
  /-- The upload was complete and all that are complete were removed, yet less were to stay. -/
  | evicting {e' : Engine} (hopen : e.broadcaster.isClosed = false) (hcomplete : info.isComplete = true)
      (hretained : config.retainedUploads < 0)
      (hmemory : e'.memory = (e.memory.put info buffer).finish config.retainedUploads info.id)
      (hbroadcaster : e'.broadcaster = { e.broadcaster with
        source := e.broadcaster.source
          ++ [.event (info.event kind), .event (info.event .completed)] }) :
      Interrupted config kind e info buffer (.value .nothingToEvict) e'

variable {config : Config} {e e' e'' : Engine} {info : UploadInfo} {buffer : Bytes} {kind : EventKind}
  {failure : Failure}

theorem Interrupted.of_same (h : Interrupted config kind e' info buffer failure e'')
    (hmemory : e'.memory = e.memory) (hbroadcaster : e'.broadcaster = e.broadcaster) :
    Interrupted config kind e info buffer failure e'' := by
  cases h with
  | closed hclosed hput hsame =>
    exact .closed (hbroadcaster ▸ hclosed) (hmemory ▸ hput) (hsame.trans hbroadcaster)
  | evicting hopen hcomplete hretained hput hadded =>
    exact .evicting (hbroadcaster ▸ hopen) hcomplete hretained (hmemory ▸ hput) (hbroadcaster ▸ hadded)

/-- A step of an upload that is in memory fails in no other way. -/
theorem Announces.interrupted {r : Reply UploadInfo} (h : Announces config kind e info buffer r)
    (hfailed : r.answer = .error failure) : Interrupted config kind e info buffer failure r.engine := by
  obtain ⟨hanswer, hmemory, -, hbroadcaster, -⟩ := h
  rw [hfailed] at hanswer
  cases hclosed : e.broadcaster.isClosed with
  | true =>
    rw [hclosed] at hanswer hmemory hbroadcaster
    obtain rfl := Except.error.inj hanswer
    refine .closed hclosed hmemory ?_
    rw [hbroadcaster]
    simp [announced]
  | false =>
    rw [hclosed] at hanswer hmemory hbroadcaster
    simp only [Bool.false_eq_true, if_false] at hanswer
    split at hanswer
    · rename_i hstuck
      obtain rfl := Except.error.inj hanswer
      obtain ⟨hcomplete, hretained⟩ := Bool.and_eq_true_iff.mp hstuck
      refine .evicting hclosed hcomplete (of_decide_eq_true hretained) ?_ ?_
      · rw [hmemory, Memory.advance, hcomplete]
        rfl
      · rw [hbroadcaster]
        simp [announced, hcomplete]
    · cases hanswer

/-! ### Operations -/

theorem enroll_error {id : Text} {header? : Option Text} {length : Int} {createdAt : Timestamp}
    (h : (e.enroll config id header? length createdAt).answer = .error failure) :
    e.Unchanged (e.enroll config id header? length createdAt).engine := by
  obtain ⟨hmemory, hbroadcaster, hanswer⟩ := enroll_cases config e id header? length createdAt
  rcases hanswer with ⟨-, -, hstore⟩ | ⟨info, hanswer, -⟩
  · exact ⟨hmemory, hstore, hbroadcaster⟩
  · rw [h] at hanswer
    cases hanswer

theorem create_error {header? : Option Text} {length : Int} {createdAt : Timestamp}
    (h : (e.create config header? length createdAt).answer = .error failure) :
    e.Unchanged (e.create config header? length createdAt).engine
      ∨ ∃ info, info.id = drawnId e.drawn ∧ (info.size : Int) = length ∧ info.offset = 0
        ∧ e.store.create info.id info.size createdAt
          = .ok (e.create config header? length createdAt).engine.store
        ∧ Interrupted config .created e info [] failure
          (e.create config header? length createdAt).engine := by
  obtain ⟨hmemory, hbroadcaster, hbegun⟩ :=
    enroll_cases config e (drawnId e.drawn) header? length createdAt
  rcases hbegun with ⟨failure', hbegun, hstore⟩ | ⟨info, hbegun, henrolls⟩
  · obtain ⟨-, hengine⟩ := Reply.andThen_of_error hbegun fun info e => e.register config info
    refine Or.inl ?_
    rw [show (e.create config header? length createdAt).engine = _ from hengine]
    exact ⟨hmemory, hstore, hbroadcaster⟩
  · obtain ⟨hanswer, hengine⟩ := Reply.andThen_of_ok hbegun fun info e => e.register config info
    have hannounces := register_announces config
      (e.enroll config (drawnId e.drawn) header? length createdAt).engine info
    have hinterrupted := hannounces.interrupted (hanswer.symm.trans h)
    refine Or.inr ⟨info, henrolls.id_eq, henrolls.size_eq, henrolls.offset_eq, ?_, ?_⟩
    · rw [henrolls.id_eq, henrolls.size_eq, henrolls.row,
        show (e.create config header? length createdAt).engine = _ from hengine,
        hannounces.publishes.store]
    · rw [show (e.create config header? length createdAt).engine = _ from hengine]
      exact hinterrupted.of_same hmemory hbroadcaster

theorem write_error {id : Text} {offset : Int} {data : Bytes}
    (h : (e.write config id offset data).answer = .error failure) :
    e.Unchanged (e.write config id offset data).engine
      ∨ ∃ info, e.uploads.get? id = some info ∧ offset = info.offset ∧ data ≠ []
        ∧ (e.write config id offset data).engine.store = e.store
        ∧ Interrupted config .progress e (info.withOffset (info.offset + data.length))
          ((e.buffers.get? info.id).getD [] ++ data) failure (e.write config id offset data).engine := by
  rcases write_cases config e id offset data with
    ⟨error, -, hsame⟩ | ⟨info, -, -, hanswer, -⟩ | ⟨info, hget, hdata, hoffset, -, hannounces⟩
  · rw [hsame]
    exact Or.inl ⟨rfl, rfl, rfl⟩
  · rw [h] at hanswer
    cases hanswer
  · exact Or.inr ⟨info, hget, hoffset, hdata, hannounces.publishes.store, hannounces.interrupted h⟩

theorem terminate_error {id : Text} (h : (e.terminate id).answer = .error failure) :
    e.Unchanged (e.terminate id).engine
      ∨ failure = .closed .publish ∧ e.broadcaster.isClosed = true
        ∧ (e.terminate id).engine.memory = e.memory.forget id
        ∧ (e.terminate id).engine.store = e.store
        ∧ (e.terminate id).engine.broadcaster = e.broadcaster := by
  rcases terminate_cases e id with ⟨-, -, hsame⟩ | ⟨info, hget, hanswer, hmemory, hpublishes⟩
  · rw [hsame]
    exact Or.inl ⟨rfl, rfl, rfl⟩
  · rw [h] at hanswer
    cases hclosed : e.broadcaster.isClosed with
    | false =>
      rw [hclosed] at hanswer
      cases hanswer
    | true =>
      rw [hclosed] at hanswer hpublishes
      refine Or.inr ⟨Except.error.inj hanswer, rfl, hmemory, hpublishes.store, ?_⟩
      rw [hpublishes.broadcaster]
      simp

/-- **What a failed operation leaves behind**, in any state of the engine.  A creation up
    to its row that fails changes nothing.  A creation, its second half, a write or the
    end of an upload that fails changes nothing either, unless all that failed was to
    publish to a broadcaster that is closed, or to make room where less than nothing is
    to be kept: then it leaves what it did before.  No operation that fails on a closed
    broadcaster adds to its source. -/
theorem failure_cases (config : Config) (e : Engine) (failure : Failure) :
    (∀ id header? length createdAt,
      (e.enroll config id header? length createdAt).answer = .error failure →
      e.Unchanged (e.enroll config id header? length createdAt).engine)
    ∧ (∀ info, (e.register config info).answer = .error failure →
      (e.register config info).engine.store = e.store
        ∧ Interrupted config .created e info [] failure (e.register config info).engine)
    ∧ (∀ header? length createdAt, (e.create config header? length createdAt).answer = .error failure →
      e.Unchanged (e.create config header? length createdAt).engine
        ∨ ∃ info, info.id = drawnId e.drawn ∧ (info.size : Int) = length ∧ info.offset = 0
          ∧ e.store.create info.id info.size createdAt
            = .ok (e.create config header? length createdAt).engine.store
          ∧ Interrupted config .created e info [] failure
            (e.create config header? length createdAt).engine)
    ∧ (∀ id offset data, (e.write config id offset data).answer = .error failure →
      e.Unchanged (e.write config id offset data).engine
        ∨ ∃ info, e.uploads.get? id = some info ∧ offset = info.offset ∧ data ≠ []
          ∧ (e.write config id offset data).engine.store = e.store
          ∧ Interrupted config .progress e (info.withOffset (info.offset + data.length))
            ((e.buffers.get? info.id).getD [] ++ data) failure (e.write config id offset data).engine)
    ∧ ∀ id, (e.terminate id).answer = .error failure →
      e.Unchanged (e.terminate id).engine
        ∨ failure = .closed .publish ∧ e.broadcaster.isClosed = true
          ∧ (e.terminate id).engine.memory = e.memory.forget id
          ∧ (e.terminate id).engine.store = e.store
          ∧ (e.terminate id).engine.broadcaster = e.broadcaster := by
  refine ⟨fun _ _ _ _ h => enroll_error h, ?_, fun _ _ _ h => create_error h,
    fun _ _ _ h => write_error h, fun _ h => terminate_error h⟩
  intro info h
  have hannounces := register_announces config e info
  exact ⟨hannounces.publishes.store, hannounces.interrupted h⟩

/-- An upload in memory, whose broadcaster is then closed. -/
def closedMidway : List Workload.Action :=
  [.connectStore, .enroll (Text.of "a") none 3 { year := 2024, month := 1, day := 1 }, .register 0,
    .closeBroadcaster]

theorem failure_cases_closedMidway :
    ((Workload.plainStart.run {} closedMidway).engine.write {} (Text.of "a") 0 [120]).answer
        = .error (.closed .publish)
      ∧ ((Workload.plainStart.run {} closedMidway).engine.write {} (Text.of "a") 0 [120]).engine.store
        = (Workload.plainStart.run {} closedMidway).engine.store := by
  have hfailed : ((Workload.plainStart.run {} closedMidway).engine.write {} (Text.of "a") 0 [120]).answer
      = .error (.closed .publish) := by decide +kernel
  obtain ⟨-, -, -, hwrite, -⟩ := failure_cases {} (Workload.plainStart.run {} closedMidway).engine
    (.closed .publish)
  refine ⟨hfailed, ?_⟩
  rcases hwrite _ _ _ hfailed with hsame | ⟨info, -, -, -, hstore, -⟩
  · exact hsame.store
  · exact hstore

/-- **Less than nothing is to be kept**: a write that makes its upload complete is published
    as such and fails, and the upload is no longer in memory. -/
theorem write_of_negative_retention :
    let config : Config := { retainedUploads := -1 }
    let e := (Workload.plainStart.run config (closedMidway.take 3)).engine
    (e.write config (Text.of "a") 0 [120, 121, 122]).answer = .error (.value .nothingToEvict)
      ∧ e.uploads.keys = [Text.of "a"]
      ∧ (e.write config (Text.of "a") 0 [120, 121, 122]).engine.uploads = []
      ∧ (e.write config (Text.of "a") 0 [120, 121, 122]).engine.store = e.store
      ∧ (e.write config (Text.of "a") 0 [120, 121, 122]).engine.broadcaster.source
        = e.broadcaster.source ++ [.event ⟨.progress, Text.of "a", [], 3, 3⟩,
          .event ⟨.completed, Text.of "a", [], 3, 3⟩] := by
  decide +kernel

/-- **Failed operations are not all without effect**: a write to an upload in memory adds
    its octets although it fails, since the broadcaster is closed. -/
theorem exists_failure_changes :
    ¬ ∀ (actions : List Workload.Action) (id : Text) (offset : Int) (data : Bytes) (failure : Failure),
      ((Workload.plainStart.run {} actions).engine.write {} id offset data).answer = .error failure →
      (Workload.plainStart.run {} actions).engine.Unchanged
        ((Workload.plainStart.run {} actions).engine.write {} id offset data).engine := by
  intro h
  have hfailed : ((Workload.plainStart.run {} closedMidway).engine.write {} (Text.of "a") 0 [120]).answer
      = .error (.closed .publish) := by decide +kernel
  have hmemory := (h closedMidway (Text.of "a") 0 [120] (.closed .publish) hfailed).memory
  have hdiffers : ((Workload.plainStart.run {} closedMidway).engine.write {} (Text.of "a") 0
      [120]).engine.memory ≠ (Workload.plainStart.run {} closedMidway).engine.memory := by decide +kernel
  exact hdiffers hmemory

end UploadGate.Engine
