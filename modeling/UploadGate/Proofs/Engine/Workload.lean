/-
  UploadGate/Proofs/Engine/Workload.lean
  ======================================
  **Everything that may be asked of an engine, in any order.**

  A workload is an engine with the creations in progress and the events published
  since its start.  Its actions are the two halves of a creation, the other
  operations, and what the rest of a server does to the store and the broadcaster
  meanwhile.  Any of them may come next and any may fail.  What an action does is
  said once (`effect_step`, `follows_step`), and what holds of every workload is
  derived from that by induction on the actions.
-/
import Mathlib.Data.List.Induction
import UploadGate.Proofs.Broadcast.Delivery
import UploadGate.Proofs.Engine.Memory
import UploadGate.Proofs.Provenance

namespace UploadGate

/-- The events that were put onto the source between two states of an engine. -/
def Engine.publishedSince (e e' : Engine) : List Event :=
  (e'.broadcaster.source.drop e.broadcaster.source.length).filterMap Signal.event?

structure Workload where
  engine : Engine
  /-- The ids that were drawn. -/
  drawn : List Text := []
  /-- The uploads whose rows are there and whose creation has yet to go on. -/
  suspended : List UploadInfo := []
  published : List Event := []
deriving DecidableEq, Repr

namespace Workload

inductive Action where
  /-- A creation begins; the id is the one it draws. -/
  | enroll (id : Text) (header? : Option Text) (length : Int) (createdAt : Timestamp)
  /-- The suspended creation at a position goes on. -/
  | register (i : Nat)
  | write (id : Text) (offset : Int) (data : Bytes)
  | terminate (id : Text)
  | info (id : Text)
  | read (id : Text)
  | connectStore
  | closeStore
  | recordAddress (id ip : Text)
  | listen (name : Text)
  | startDistributor
  | distribute
  | receive (i : Nat)
  | closeBroadcaster
deriving DecidableEq, Repr

def start (store : Store) (broadcaster : Broadcaster) (telemetry : Telemetry) : Workload :=
  { engine := { store, broadcaster, telemetry } }

/-- A start with an empty store in a file. -/
def plainStart : Workload :=
  start (Store.atPath (Text.of "uploads.db")) { queueLimit := 0 } ⟨⟨0, []⟩, ⟨0, []⟩⟩

/-! ### Actions -/

/-- The workload after an operation that left an engine behind. -/
def after (w : Workload) (e : Engine) : Workload :=
  { w with engine := e, published := w.published ++ w.engine.publishedSince e }

def setStore (w : Workload) (s : Store) : Workload := { w with engine := { w.engine with store := s } }

def setBroadcaster (w : Workload) (b : Broadcaster) : Workload :=
  { w with engine := { w.engine with broadcaster := b } }

def step (config : Config) (w : Workload) : Action → Workload
  | .enroll id header? length createdAt =>
    let r := w.engine.enroll config id header? length createdAt
    { w.after r.engine with
      drawn := if (Engine.checkLength config length).isOk then w.drawn ++ [id] else w.drawn
      suspended := w.suspended ++ r.answer.toOption.toList }
  | .register i =>
    match w.suspended[i]? with
    | none => w
    | some info =>
      { w.after (w.engine.register config info).engine with suspended := w.suspended.eraseIdx i }
  | .write id offset data => w.after (w.engine.write config id offset data).engine
  | .terminate id => w.after (w.engine.terminate id).engine
  | .info id => w.after (w.engine.info id).engine
  | .read id => w.after (w.engine.read id).engine
  | .connectStore => w.setStore w.engine.store.connect
  | .closeStore => w.setStore w.engine.store.close
  | .recordAddress id ip => w.setStore ((w.engine.store.setUploaderIp id ip).toOption.getD w.engine.store)
  | .listen name =>
    w.setBroadcaster ((w.engine.broadcaster.listen name).toOption.getD w.engine.broadcaster)
  | .startDistributor => w.setBroadcaster w.engine.broadcaster.start
  | .distribute => w.setBroadcaster w.engine.broadcaster.distributeOne.1
  | .receive i => w.setBroadcaster (w.engine.broadcaster.receive i).2
  | .closeBroadcaster => w.setBroadcaster w.engine.broadcaster.requestClose.1

def run (config : Config) (w : Workload) (actions : List Action) : Workload :=
  actions.foldl (step config) w

variable {config : Config} {w w' : Workload}

theorem run_append (config : Config) (w : Workload) (early late : List Action) :
    w.run config (early ++ late) = (w.run config early).run config late :=
  List.foldl_append

theorem run_concat (config : Config) (w : Workload) (actions : List Action) (a : Action) :
    w.run config (actions ++ [a]) = (w.run config actions).step config a :=
  run_append config w actions [a]

theorem step_register_of_none {i : Nat} (hi : w.suspended[i]? = none) :
    w.step config (.register i) = w := by
  simp only [step, hi]

theorem step_register_of_some {i : Nat} {info : UploadInfo} (hi : w.suspended[i]? = some info) :
    w.step config (.register i)
      = { w.after (w.engine.register config info).engine with suspended := w.suspended.eraseIdx i } := by
  simp only [step, hi]

/-! ### What is published -/

theorem publishedSince_of_source_eq {e e' : Engine} (h : e'.broadcaster.source = e.broadcaster.source) :
    e.publishedSince e' = [] := by
  rw [Engine.publishedSince, h, List.drop_length]
  rfl

theorem publishedSince_of_publishes {e e' : Engine} {events : List Event} (h : e.Publishes e' events) :
    e.publishedSince e' = events := by
  have hcarried : (events.map Signal.event).filterMap Signal.event? = events := by
    rw [List.filterMap_map]
    exact List.filterMap_some
  rw [Engine.publishedSince, h.broadcaster, List.drop_left]
  exact hcarried

/-! ### What stays -/

/-- Rows stay, what is closed stays closed, and an id that was drawn stays drawn. -/
structure Follows (w w' : Workload) : Prop where
  store : w.engine.store.Keeps w'.engine.store
  isClosed : w.engine.broadcaster.isClosed = true → w'.engine.broadcaster.isClosed = true
  drawn : w.drawn <+: w'.drawn

theorem follows_of_eq (hstore : w.engine.store.Keeps w'.engine.store)
    (hclosed : w'.engine.broadcaster.isClosed = w.engine.broadcaster.isClosed)
    (hdrawn : w.drawn <+: w'.drawn) : w.Follows w' := by
  refine ⟨hstore, ?_, hdrawn⟩
  intro h
  rw [hclosed, h]

theorem follows_of_publishes {events : List Event} (h : w.engine.Publishes w'.engine events)
    (hdrawn : w'.drawn = w.drawn) : w.Follows w' := by
  have hstore : w.engine.store.Keeps w'.engine.store := by
    rw [h.store]
    exact Store.keeps_of_rows_eq rfl fun _ => rfl
  exact follows_of_eq hstore (Engine.isClosed_of_publishes h) (hdrawn ▸ List.prefix_rfl)

theorem follows_setStore {s : Store} (h : w.engine.store.Keeps s) : w.Follows (w.setStore s) :=
  follows_of_eq h rfl List.prefix_rfl

theorem follows_setBroadcaster {b : Broadcaster}
    (h : w.engine.broadcaster.isClosed = true → b.isClosed = true) : w.Follows (w.setBroadcaster b) :=
  ⟨Store.keeps_of_rows_eq rfl fun _ => rfl, h, List.prefix_rfl⟩

theorem follows_enroll (config : Config) (w : Workload) (id : Text) (header? : Option Text) (length : Int)
    (createdAt : Timestamp) : w.Follows (w.step config (.enroll id header? length createdAt)) := by
  obtain ⟨-, hbroadcaster, hstore⟩ := Engine.enroll_cases config w.engine id header? length createdAt
  apply follows_of_eq
  · rcases hstore with ⟨failure, -, hsame⟩ | ⟨info, -, henrolls⟩
    · exact hsame ▸ Store.keeps_of_rows_eq rfl fun _ => rfl
    · exact Store.keeps_create henrolls.row
  · exact congrArg Broadcaster.isClosed hbroadcaster
  · simp only [step]
    split
    · exact List.prefix_append _ _
    · exact List.prefix_rfl

/-- **No action takes back** what stays. -/
theorem follows_step (config : Config) (w : Workload) (a : Action) : w.Follows (w.step config a) := by
  have hsame : w.Follows w := follows_of_publishes (Engine.Publishes.of_eq rfl rfl) rfl
  cases a with
  | enroll id header? length createdAt => exact follows_enroll config w id header? length createdAt
  | register i =>
    cases hi : w.suspended[i]? with
    | none =>
      rw [step_register_of_none hi]
      exact hsame
    | some info =>
      rw [step_register_of_some hi]
      exact follows_of_publishes (Engine.register_announces config w.engine info).publishes rfl
  | write id offset data =>
    obtain ⟨events, hpublishes, -⟩ := Engine.write_goesOn config w.engine id offset data
    exact follows_of_publishes hpublishes rfl
  | terminate id =>
    obtain ⟨events, hpublishes, -⟩ := Engine.terminate_goesOn w.engine id
    exact follows_of_publishes hpublishes rfl
  | info id => exact follows_of_publishes (Engine.Publishes.of_eq rfl rfl) rfl
  | read id =>
    have hread := Engine.read_engine w.engine id
    refine follows_of_publishes (Engine.Publishes.of_eq ?_ ?_) rfl
    · exact congrArg Engine.store hread
    · exact congrArg Engine.broadcaster hread
  | connectStore => exact follows_setStore (Store.keeps_connect _)
  | closeStore => exact follows_setStore (Store.keeps_close _)
  | recordAddress id ip =>
    apply follows_setStore
    cases hwrite : w.engine.store.setUploaderIp id ip with
    | error failure => exact Store.keeps_of_rows_eq rfl fun _ => rfl
    | ok store => exact Store.keeps_setUploaderIp hwrite
  | listen name =>
    apply follows_setBroadcaster
    intro hclosed
    simp [Broadcaster.listen, hclosed, Except.toOption]
  | startDistributor =>
    apply follows_setBroadcaster
    intro hclosed
    unfold Broadcaster.start
    split <;> exact hclosed
  | distribute =>
    apply follows_setBroadcaster
    intro hclosed
    rw [Broadcaster.isClosed_distributeOne, hclosed]
  | receive i =>
    apply follows_setBroadcaster
    intro hclosed
    unfold Broadcaster.receive
    split <;> exact hclosed
  | closeBroadcaster =>
    apply follows_setBroadcaster
    intro _
    exact Broadcaster.isClosed_requestClose _

theorem Follows.trans {w'' : Workload} (h : w.Follows w') (h' : w'.Follows w'') : w.Follows w'' := by
  refine ⟨h.store.trans h'.store, ?_, h.drawn.trans h'.drawn⟩
  intro hclosed
  exact h'.isClosed (h.isClosed hclosed)

theorem follows_run (config : Config) (w : Workload) (actions : List Action) :
    w.Follows (w.run config actions) := by
  induction actions generalizing w with
  | nil => exact follows_of_publishes (Engine.Publishes.of_eq rfl rfl) rfl
  | cons a actions ih => exact (follows_step config w a).trans (ih _)

/-! ### What changes -/

inductive Effect (config : Config) (w w' : Workload) : Action → Prop
  | idle (a : Action) (hmemory : w'.engine.memory = w.engine.memory)
      (hsuspended : w'.suspended = w.suspended) (hpublished : w'.published = w.published) :
      Effect config w w' a
  | enrolled (info : UploadInfo) (header? : Option Text) (createdAt : Timestamp)
      (hoffset : info.offset = 0) (hsize : (info.size : Int) ≤ config.maximumUploadSize)
      (hmetadata : Metadata.decode header? = .ok info.metadata)
      (hrow : ∃ row, w'.engine.store.rows.get? info.id = some row ∧ row.size = info.size)
      (hmemory : w'.engine.memory = w.engine.memory) (hdrawn : w'.drawn = w.drawn ++ [info.id])
      (hsuspended : w'.suspended = w.suspended ++ [info]) (hpublished : w'.published = w.published) :
      Effect config w w' (.enroll info.id header? info.size createdAt)
  | registered (i : Nat) (info : UploadInfo) (hi : w.suspended[i]? = some info)
      (hmemory : w'.engine.memory = (w.engine.memory.put info []).advance config.retainedUploads
        w.engine.broadcaster.isClosed info)
      (hsuspended : w'.suspended = w.suspended.eraseIdx i)
      (hpublished : w'.published
        = w.published ++ Engine.announced w.engine.broadcaster.isClosed .created info) :
      Effect config w w' (.register i)
  | written (id : Text) (offset : Int) (data : Bytes) (info : UploadInfo)
      (hget : w.engine.uploads.get? id = some info) (hdata : data ≠ [])
      (hsize : info.offset + data.length ≤ info.size)
      (hmemory : w'.engine.memory
        = (w.engine.memory.put (info.withOffset (info.offset + data.length))
            ((w.engine.buffers.get? info.id).getD [] ++ data)).advance config.retainedUploads
          w.engine.broadcaster.isClosed (info.withOffset (info.offset + data.length)))
      (hsuspended : w'.suspended = w.suspended)
      (hpublished : w'.published = w.published ++ Engine.announced w.engine.broadcaster.isClosed .progress
        (info.withOffset (info.offset + data.length))) :
      Effect config w w' (.write id offset data)
  | terminated (id : Text) (info : UploadInfo) (hget : w.engine.uploads.get? id = some info)
      (hmemory : w'.engine.memory = w.engine.memory.forget id) (hsuspended : w'.suspended = w.suspended)
      (hpublished : w'.published
        = w.published ++ if w.engine.broadcaster.isClosed then [] else [info.event .terminated]) :
      Effect config w w' (.terminate id)

theorem published_after {e : Engine} {events : List Event} (h : w.engine.Publishes e events) :
    (w.after e).published = w.published ++ events :=
  congrArg (w.published ++ ·) (publishedSince_of_publishes h)

/-- An operation that leaves the engine as it is does nothing. -/
theorem after_eq_self {e : Engine} (h : e = w.engine) : w.after e = w := by
  have hnone : w.engine.publishedSince e = [] := publishedSince_of_source_eq (by rw [h])
  rw [after, hnone, h, List.append_nil]

theorem effect_enroll (config : Config) (w : Workload) (id : Text) (header? : Option Text) (length : Int)
    (createdAt : Timestamp) :
    w.Effect config (w.step config (.enroll id header? length createdAt))
      (.enroll id header? length createdAt) := by
  obtain ⟨hmemory, hbroadcaster, hanswer⟩ :=
    Engine.enroll_cases config w.engine id header? length createdAt
  have hpublished : (w.step config (.enroll id header? length createdAt)).published = w.published := by
    have hnone := publishedSince_of_source_eq (congrArg Broadcaster.source hbroadcaster)
    exact (congrArg (w.published ++ ·) hnone).trans (List.append_nil _)
  rcases hanswer with
    ⟨failure, hanswer, -⟩ | ⟨info, hanswer, hchecked, rfl, rfl, hsize, hoffset, hmetadata, hrow⟩
  · refine .idle _ hmemory ?_ hpublished
    simp [step, hanswer, Except.toOption]
  · refine .enrolled info header? createdAt hoffset hsize hmetadata ?_ hmemory ?_ ?_ hpublished
    · exact ⟨_, (Store.get?_of_create hrow info.id).trans (if_pos rfl), rfl⟩
    · simp only [step, hchecked]
      exact if_pos rfl
    · simp [step, hanswer, Except.toOption]

/-- **Every action has one of these effects.** -/
theorem effect_step (config : Config) (w : Workload) (a : Action) :
    w.Effect config (w.step config a) a := by
  cases a with
  | enroll id header? length createdAt => exact effect_enroll config w id header? length createdAt
  | register i =>
    cases hi : w.suspended[i]? with
    | none =>
      rw [step_register_of_none hi]
      exact .idle _ rfl rfl rfl
    | some info =>
      have hannounces := Engine.register_announces config w.engine info
      rw [step_register_of_some hi]
      exact .registered i info hi hannounces.memory rfl (published_after hannounces.publishes)
  | write id offset data =>
    simp only [step]
    rcases Engine.write_cases config w.engine id offset data with
      ⟨error, -, hsame⟩ | ⟨info, -, -, -, hsame⟩ | ⟨info, hget, hdata, -, hsize, hannounces⟩
    · rw [after_eq_self hsame]
      exact .idle _ rfl rfl rfl
    · rw [after_eq_self hsame]
      exact .idle _ rfl rfl rfl
    · exact .written id offset data info hget hdata hsize hannounces.memory rfl
        (published_after hannounces.publishes)
  | terminate id =>
    simp only [step]
    rcases Engine.terminate_cases w.engine id with
      ⟨-, -, hsame⟩ | ⟨info, hget, -, hmemory, hpublishes⟩
    · rw [after_eq_self hsame]
      exact .idle _ rfl rfl rfl
    · exact .terminated id info hget hmemory rfl (published_after hpublishes)
  | info id =>
    simp only [step]
    have hsame : (w.engine.info id).engine = w.engine := rfl
    rw [after_eq_self hsame]
    exact .idle _ rfl rfl rfl
  | read id =>
    simp only [step]
    rw [after_eq_self (Engine.read_engine w.engine id)]
    exact .idle _ rfl rfl rfl
  | connectStore => exact .idle _ rfl rfl rfl
  | closeStore => exact .idle _ rfl rfl rfl
  | recordAddress id ip => exact .idle _ rfl rfl rfl
  | listen name => exact .idle _ rfl rfl rfl
  | startDistributor => exact .idle _ rfl rfl rfl
  | distribute => exact .idle _ rfl rfl rfl
  | receive i => exact .idle _ rfl rfl rfl
  | closeBroadcaster => exact .idle _ rfl rfl rfl

/-- **Induction on a run whose ids are distinct.** -/
theorem run_induction {motive : List Action → Workload → Prop} (config : Config) (w : Workload)
    (hstart : motive [] w)
    (hstep : ∀ actions a w' w'', motive actions w' → w'.Follows w'' → w'.Effect config w'' a →
      w''.drawn.Nodup → motive (actions ++ [a]) w'')
    (actions : List Action) (hdistinct : (w.run config actions).drawn.Nodup) :
    motive actions (w.run config actions) := by
  induction actions using List.reverseRecOn with
  | nil => exact hstart
  | append_singleton actions a ih =>
    rw [run_concat] at hdistinct ⊢
    have hfollows := follows_step config (w.run config actions) a
    have hbefore := ih (hdistinct.sublist hfollows.drawn.sublist)
    exact hstep actions a _ _ hbefore hfollows (effect_step config _ a) hdistinct

end Workload

end UploadGate
