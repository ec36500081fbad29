/-
  UploadGate/Proofs/Deployment/Invariant.lean
  ===========================================
  **Where the address of an upload can be at any moment of a session.**

  The address travels from the request through the header, the metadata of the
  upload, the event of its creation, the source, the queue of a consumer and a
  write that waits.  `Session.Invariant` says where it can be at any moment: the
  event of a creation that has answered is still under way, or its address
  stands in its row; and what is under way belongs to some creation.  A start
  begins with it (`invariant_ofStart`), and every action keeps it
  (`Invariant.step`), so it holds after any number of them.
-/
import Mathlib.Data.List.Nodup
import UploadGate.Proofs.Authorization.Vouching
import UploadGate.Proofs.Broadcast.Delivery
import UploadGate.Proofs.Deployment.Session
import UploadGate.Proofs.Engine.Memory
import UploadGate.Proofs.Provenance

namespace UploadGate

/-! ### Creations -/

namespace Creation

def event (c : Creation) : Event := c.info.event .created

def address (c : Creation) : Text := Metadata.reread c.authorized.remoteIp

theorem address_of_not_isSurrogate (c : Creation)
    (h : c.authorized.remoteIp.any CodePoint.isSurrogate = false) : c.address = c.authorized.remoteIp :=
  Metadata.reread_of_not_isSurrogate h

/-- The address of a creation is there and can be stored. -/
def IsRecordable (c : Creation) : Prop := c.address ≠ [] ∧ Store.isStorable c.address = true

structure IsSound (config : Config) (c : Creation) : Prop where
  resolved : (ProxyTrust.resolve config.trustedRanges c.request.peer c.request.forwarded?).result
    = .ok c.authorized.remoteIp
  shown : OrderedMap.get? c.info.metadata Metadata.remoteIpKey = some c.address
  storable : Store.isStorable c.info.id = true

/-- The row of a creation has its size, and no address but its own. -/
def HasRow (c : Creation) (rows : OrderedMap Text Row) : Prop :=
  ∃ row, rows.get? c.info.id = some row ∧ row.size = c.length
    ∧ (row.uploaderIp? = none ∨ row.uploaderIp? = some c.address)

/-- The address of a creation stands in its row. -/
def IsRecorded (c : Creation) (rows : OrderedMap Text Row) : Prop :=
  ∃ row, rows.get? c.info.id = some row ∧ row.uploaderIp? = some c.address

theorem HasRow.of_get?_eq {c : Creation} {rows rows' : OrderedMap Text Row} (h : c.HasRow rows)
    (heq : rows'.get? c.info.id = rows.get? c.info.id) : c.HasRow rows' := by
  unfold HasRow
  rw [heq]
  exact h

theorem IsRecorded.of_get?_eq {c : Creation} {rows rows' : OrderedMap Text Row} (h : c.IsRecorded rows)
    (heq : rows'.get? c.info.id = rows.get? c.info.id) : c.IsRecorded rows' := by
  unfold IsRecorded
  rw [heq]
  exact h

/-- **The write of a creation** puts the address into its row, if it can be stored, and
    touches no other row. -/
theorem record {config : Config} {c : Creation} (hc : c.IsSound config) {store : Store} (t : Telemetry)
    (hconnected : store.isConnected = true) (hrow : c.HasRow store.rows) :
    c.HasRow (Provenance.record store t c.event).store.rows
      ∧ (c.IsRecordable → c.IsRecorded (Provenance.record store t c.event).store.rows)
      ∧ ∀ id, c.info.id ≠ id →
        (Provenance.record store t c.event).store.rows.get? id = store.rows.get? id := by
  obtain ⟨row, hget, hsize, hip⟩ := hrow
  have hstore := Provenance.record_store (e := c.event) t hconnected hc.storable hget hc.shown
  by_cases hrecordable : c.address ≠ [] ∧ Store.isStorable c.address = true
  · rw [hstore, if_pos hrecordable]
    have hself : OrderedMap.get? (store.rows.set c.info.id { row with uploaderIp? := some c.address })
        c.info.id = some { row with uploaderIp? := some c.address } := by
      rw [OrderedMap.get?_set, if_pos rfl]
    refine ⟨⟨_, hself, hsize, Or.inr rfl⟩, fun _ => ⟨_, hself, rfl⟩, ?_⟩
    intro id hid
    exact (OrderedMap.get?_set _ _ _ _).trans (if_neg hid)
  · rw [hstore, if_neg hrecordable]
    exact ⟨⟨row, hget, hsize, hip⟩, fun h => absurd h hrecordable, fun _ _ => rfl⟩

end Creation

/-- **The first half of a creation** lets the request through and adds its row, or leaves
    the store alone. -/
theorem Deployment.enroll_spec (d : Deployment) (now : Moment) (request : UploadRequest) (id : Text)
    (length : Int) :
    ∃ engine, (d.enroll now request id length).deployment = { d with engine }
      ∧ engine.memory = d.engine.memory
      ∧ engine.broadcaster = d.engine.broadcaster
      ∧ ((∃ failure, (d.enroll now request id length).answer = .error failure
          ∧ engine.store = d.engine.store)
        ∨ ∃ a info, (d.enroll now request id length).answer = .ok (a, info)
          ∧ (Authorization.decide d.config now.depth now.seconds d.engine.telemetry request).result = .ok a
          ∧ Engine.Enrolls d.config d.engine id (some a.header) length now.stamp info engine) := by
  unfold Deployment.enroll Deployment.authorize
  simp only
  cases hdecide : (Authorization.decide d.config now.depth now.seconds d.engine.telemetry request).result with
  | error failure => exact ⟨_, rfl, rfl, rfl, Or.inl ⟨failure, rfl, rfl⟩⟩
  | ok a =>
    simp only
    obtain ⟨hmemory, hbroadcaster, hanswer⟩ := Engine.enroll_cases d.config
      (d.setTelemetry (Authorization.decide d.config now.depth now.seconds d.engine.telemetry request).telemetry).engine
      id (some a.header) length now.stamp
    refine ⟨_, rfl, hmemory, hbroadcaster, ?_⟩
    rcases hanswer with ⟨failure, hanswer, hstore⟩ | ⟨info, hanswer, henrolls⟩
    · exact Or.inl ⟨failure, congrArg (Except.map fun info => (a, info)) hanswer, hstore⟩
    · exact Or.inr ⟨a, info, congrArg (Except.map fun info => (a, info)) hanswer, rfl,
        { henrolls with row := henrolls.row }⟩

/-! ### The invariant -/

namespace Session

/-- The rows of a store that is open: those of the creations are theirs alone, those of
    the creations that have answered are complete but for what is under way, and all
    others are as they were. -/
structure RowsAgree (d : Deployment) (s : Session) (underWay : List Event) : Prop where
  own : ∀ c ∈ s.created, c.HasRow s.deployment.engine.store.rows
  recorded : ∀ c ∈ s.returned, c.IsRecordable →
    c.event ∈ underWay ∨ c.IsRecorded s.deployment.engine.store.rows
  others : ∀ id, (∀ c ∈ s.created, c.info.id ≠ id) →
    s.deployment.engine.store.rows.get? id = d.engine.store.rows.get? id

/-- What holds at any moment of a session that began with the start of `d`: `p` is the
    subscription of the consumer that records addresses, and `events` is what it will get. -/
structure Invariant (d : Deployment) (s : Session) (p : Subscription) (events : List Event) : Prop where
  config : s.deployment.config = d.config
  consumers : s.deployment.consumers = [.activity, .provenance]
  delivers : s.deployment.engine.broadcaster.Delivers 1 p events
  known : ∀ e ∈ s.deployment.pending ++ events, e.kind = .created → ∃ c ∈ s.created, e = c.event
  accepted : ∀ e ∈ s.deployment.pending, e.kind = .created
  sound : ∀ c ∈ s.created, c.IsSound d.config
  distinct : (s.created.map (·.info.id)).Nodup
  new : ∀ c ∈ s.created, d.engine.store.rows.get? c.info.id = none
  suspended : ∀ c ∈ s.suspended, c ∈ s.created
  returned : ∀ c ∈ s.returned, c ∈ s.created
  ending : s.deployment.engine.store.isConnected = false →
    p.hasEnded = true ∧ s.deployment.pending = []
  rows : s.deployment.engine.store.isConnected = true →
    RowsAgree d s (s.deployment.pending ++ events)

variable {d : Deployment} {s : Session} {p : Subscription} {events : List Event}

namespace Invariant

/-- Two creations with one id are one. -/
theorem eq_of_id_eq (h : Invariant d s p events) {c c' : Creation} (hc : c ∈ s.created)
    (hc' : c' ∈ s.created) (hid : c.info.id = c'.info.id) : c = c' :=
  List.inj_on_of_nodup_map h.distinct hc hc' hid

/-- The write of a creation completes its own row and leaves the others as they were. -/
theorem rowsAgree_record (h : Invariant d s p events) (hrows : RowsAgree d s (s.deployment.pending ++ events))
    {c : Creation} (hc : c ∈ s.created) {i : Nat} (hi : s.deployment.pending[i]? = some c.event)
    (hconnected : s.deployment.engine.store.isConnected = true) {t : Session}
    (hcreated : t.created = s.created) (hreturned : t.returned = s.returned)
    (hstore : t.deployment.engine.store
      = (Provenance.record s.deployment.engine.store s.deployment.engine.telemetry c.event).store) :
    RowsAgree d t (s.deployment.pending.eraseIdx i ++ events) := by
  obtain ⟨hself, hwritten, hother⟩ :=
    Creation.record (h.sound c hc) s.deployment.engine.telemetry hconnected (hrows.own c hc)
  refine ⟨?_, ?_, ?_⟩
  · intro c' hc'
    rw [hcreated] at hc'
    rw [hstore]
    by_cases hid : c.info.id = c'.info.id
    · obtain rfl := h.eq_of_id_eq hc hc' hid
      exact hself
    · exact (hrows.own c' hc').of_get?_eq (hother _ hid)
  · intro c' hc' hrecordable
    rw [hreturned] at hc'
    rw [hstore]
    by_cases hid : c.info.id = c'.info.id
    · obtain rfl := h.eq_of_id_eq hc (h.returned c' hc') hid
      exact Or.inr (hwritten hrecordable)
    · rcases hrows.recorded c' hc' hrecordable with hway | hdone
      · left
        rcases List.mem_append.mp hway with hway | hway
        · -- the write that ended was the write of another creation
          obtain ⟨j, hj⟩ := List.mem_iff_getElem?.mp hway
          refine List.mem_append_left _ (List.mem_eraseIdx_iff_getElem?.mpr ⟨j, ?_, hj⟩)
          rintro rfl
          rw [hi] at hj
          exact hid (congrArg Event.uploadId (Option.some.inj hj))
        · exact List.mem_append_right _ hway
      · exact Or.inr (hdone.of_get?_eq (hother _ hid))
  · intro id hid
    rw [hcreated] at hid
    rw [hstore]
    exact (hother id (hid c hc)).trans (hrows.others id hid)

/-! ### Steps of the broadcaster -/

/-- The invariant does not depend on how far the signals have come. -/
theorem setBroadcaster (h : Invariant d s p events) {b : Broadcaster} {q : Subscription}
    (hb : b.Delivers 1 q events) (hended : p.hasEnded = true → q.hasEnded = true) :
    Invariant d { s with deployment := s.deployment.setBroadcaster b } q events :=
  { h with
    delivers := hb
    ending := fun hclosed => ⟨hended (h.ending hclosed).1, (h.ending hclosed).2⟩
    rows := fun hopen => { h.rows hopen with } }

/-- Events that are published add to what is under way. -/
theorem publishes (h : Invariant d s p events) {engine : Engine} {more : List Event}
    (hpublishes : s.deployment.engine.Publishes engine more)
    (hmore : ∀ e ∈ more, e.kind = .created → ∃ c ∈ s.created, e = c.event) :
    Invariant d { s with deployment := { s.deployment with engine } } p (events ++ more) where
  config := h.config
  consumers := h.consumers
  delivers := by
    simp only [hpublishes.broadcaster]
    exact h.delivers.append hpublishes.isOpen
  known := by
    intro e he hkind
    rw [← List.append_assoc] at he
    rcases List.mem_append.mp he with he | he
    · exact h.known e he hkind
    · exact hmore e he hkind
  accepted := h.accepted
  sound := h.sound
  distinct := h.distinct
  new := h.new
  suspended := h.suspended
  returned := h.returned
  ending := by
    simp only [hpublishes.store]
    exact h.ending
  rows := by
    intro hopen
    simp only [hpublishes.store] at hopen
    have hrows := h.rows hopen
    refine ⟨?_, ?_, ?_⟩
    · simp only [hpublishes.store]
      exact hrows.own
    · intro c hc hrecordable
      simp only [hpublishes.store]
      rcases hrows.recorded c hc hrecordable with hway | hdone
      · left
        rw [← List.append_assoc]
        exact List.mem_append_left _ hway
      · exact Or.inr hdone
    · simp only [hpublishes.store]
      exact hrows.others

theorem goesOn (h : Invariant d s p events) {engine : Engine}
    (hgoesOn : s.deployment.engine.GoesOn engine) :
    ∃ events', Invariant d { s with deployment := { s.deployment with engine } } p events' := by
  obtain ⟨more, hpublishes, hkinds⟩ := hgoesOn
  refine ⟨events ++ more, h.publishes hpublishes ?_⟩
  intro e he hkind
  exact absurd hkind (hkinds e he)

/-- A creation that goes on and answers has its event under way. -/
theorem register (h : Invariant d s p events) (i : Nat) :
    ∃ events', Invariant d (s.step (.register i)) p events' := by
  unfold Session.step
  simp only
  split
  · exact ⟨events, h⟩
  · rename_i c hc
    have hmem : c ∈ s.suspended := List.mem_of_getElem? hc
    have hcreated := h.suspended c hmem
    obtain ⟨more, hpublishes, honly, hanswered⟩ :=
      Engine.register_publishes s.deployment.config s.deployment.engine c.info
    have hmore : ∀ e ∈ more, e.kind = .created → ∃ c ∈ s.created, e = c.event :=
      fun e he hkind => ⟨c, hcreated, honly e he hkind⟩
    have hnext := h.publishes hpublishes hmore
    have hreturned : ∀ c' ∈ (if (s.deployment.register c.info).answer.isOk then s.returned ++ [c]
        else s.returned), c' ∈ s.returned ∨ c' = c ∧ c.event ∈ more := by
      intro c' hc'
      split at hc'
      · rename_i hok
        rcases List.mem_append.mp hc' with hc' | hc'
        · exact Or.inl hc'
        · obtain ⟨answer, hanswer⟩ := isOk_eq_true_iff.mp hok
          exact Or.inr ⟨List.mem_singleton.mp hc', hanswered answer hanswer⟩
      · exact Or.inl hc'
    refine ⟨events ++ more, { hnext with suspended := ?_, returned := ?_, rows := ?_ }⟩
    · intro c' hc'
      exact h.suspended c' (List.mem_of_mem_eraseIdx hc')
    · intro c' hc'
      rcases hreturned c' hc' with hc' | ⟨rfl, -⟩
      · exact h.returned c' hc'
      · exact hcreated
    · intro hopen
      refine { hnext.rows hopen with recorded := ?_ }
      intro c' hc' hrecordable
      rcases hreturned c' hc' with hc' | ⟨rfl, hevent⟩
      · exact (hnext.rows hopen).recorded c' hc' hrecordable
      · exact Or.inl (List.mem_append_right _ (List.mem_append_right _ hevent))

/-! ### Steps of the consumers and of the writes -/

theorem distribute (h : Invariant d s p events) :
    ∃ q, Invariant d (s.step .distribute) q events := by
  obtain ⟨q, hended, hdelivers⟩ := h.delivers.distributeOne
  exact ⟨q, h.setBroadcaster hdelivers (by rw [hended]; exact id)⟩

theorem requestClose (h : Invariant d s p events) : Invariant d (s.step .requestClose) p events :=
  h.setBroadcaster h.delivers.requestClose id

/-- What another consumer takes concerns no row. -/
theorem consume_other (h : Invariant d s p events) {i : Nat} (hi : i ≠ 1) :
    Invariant d (s.step (.consume i)) p events := by
  have hnext := h.setBroadcaster (h.delivers.receive_other hi) id
  have hconsumer : s.deployment.consumers[i]? = none ∨ s.deployment.consumers[i]? = some .activity := by
    rw [h.consumers]
    match i with
    | 0 => exact Or.inr rfl
    | 1 => exact absurd rfl hi
    | i + 2 => exact Or.inl rfl
  have hstep : ∃ journal telemetry, (s.deployment.consume i).1 =
      Deployment.setTelemetry { s.deployment.setBroadcaster (s.deployment.engine.broadcaster.receive i).2
        with journal } telemetry := by
    unfold Deployment.consume
    simp only
    split
    · rename_i e consumer _ hposition
      change s.deployment.consumers[i]? = some consumer at hposition
      rcases hconsumer with hnone | hactivity
      · rw [hnone] at hposition
        cases hposition
      · rw [hactivity] at hposition
        obtain rfl := Option.some.inj hposition
        exact ⟨_, _, rfl⟩
    · exact ⟨s.deployment.journal, s.deployment.engine.telemetry, rfl⟩
  obtain ⟨journal, telemetry, hstep⟩ := hstep
  unfold Session.step
  simp only [hstep]
  exact { hnext with rows := fun hopen => { hnext.rows hopen with } }

theorem mem_accept {pending : Provenance.Pending} {e x : Event} :
    x ∈ Provenance.accept pending e ↔ x ∈ pending ∨ x = e ∧ e.kind = .created := by
  unfold Provenance.accept
  split <;> simp_all

/-- An event that is taken waits for its write, if it is the event of a creation. -/
theorem accept {e : Event} {rest : List Event} (h : Invariant d s p (e :: rest))
    (hopen : p.hasEnded = false) {b : Broadcaster} {q : Subscription} (hb : b.Delivers 1 q rest) :
    Invariant d { s with deployment := { s.deployment.setBroadcaster b with
      pending := Provenance.accept s.deployment.pending e } } q rest where
  config := h.config
  consumers := h.consumers
  delivers := hb
  known := by
    intro x hx
    refine h.known x ?_
    rcases List.mem_append.mp hx with hx | hx
    · rcases mem_accept.mp hx with hx | ⟨rfl, -⟩
      · exact List.mem_append_left _ hx
      · exact List.mem_append_right _ List.mem_cons_self
    · exact List.mem_append_right _ (List.mem_cons_of_mem _ hx)
  accepted := by
    intro x hx
    rcases mem_accept.mp hx with hx | ⟨rfl, hkind⟩
    · exact h.accepted x hx
    · exact hkind
  sound := h.sound
  distinct := h.distinct
  new := h.new
  suspended := h.suspended
  returned := h.returned
  ending := by
    intro hclosed
    rw [(h.ending hclosed).1] at hopen
    cases hopen
  rows := by
    intro hconnected
    have hrows := h.rows hconnected
    refine { hrows with recorded := ?_ }
    intro c hc hrecordable
    rcases hrows.recorded c hc hrecordable with hway | hdone
    · left
      rcases List.mem_append.mp hway with hway | hway
      · exact List.mem_append_left _ (mem_accept.mpr (Or.inl hway))
      · rcases List.mem_cons.mp hway with hway | hway
        · exact List.mem_append_left _ (mem_accept.mpr (Or.inr ⟨hway, hway ▸ rfl⟩))
        · exact List.mem_append_right _ hway
    · exact Or.inr hdone

theorem consume_provenance (h : Invariant d s p events) :
    ∃ q events', Invariant d (s.step (.consume 1)) q events' := by
  have hconsumer : s.deployment.consumers[1]? = some .provenance := by
    rw [h.consumers]
    rfl
  unfold Session.step Deployment.consume
  simp only
  obtain ⟨q, ⟨e, rest, hreceipt, rfl, hopen, -, hdelivers⟩ | ⟨hreceipt, hended, -, hdelivers⟩⟩ :=
    h.delivers.receive
  · have hnext := h.accept hopen hdelivers
    split
    · rename_i e' consumer hreceipt' hposition
      rw [hreceipt] at hreceipt'
      obtain rfl := Subscription.Receipt.event.inj hreceipt'
      change s.deployment.consumers[1]? = some consumer at hposition
      rw [hconsumer] at hposition
      obtain rfl := Option.some.inj hposition
      exact ⟨q, rest, hnext⟩
    · rename_i hnone
      exact absurd hconsumer (hnone e .provenance hreceipt)
  · have hnext := h.setBroadcaster hdelivers hended
    split
    · rename_i e consumer he _
      exact absurd he (hreceipt e)
    · exact ⟨q, events, hnext⟩

/-- A write of an address completes the row of its own creation and no other. -/
theorem endWrite (h : Invariant d s p events) (i : Nat) :
    Invariant d (s.step (.endWrite i)) p events := by
  unfold Session.step Deployment.endWrite
  simp only
  split
  · exact h
  · rename_i e he
    have hmem : e ∈ s.deployment.pending := List.mem_of_getElem? he
    have hconnected : s.deployment.engine.store.isConnected = true := by
      by_contra hclosed
      rw [(h.ending (by simpa using hclosed)).2] at hmem
      cases hmem
    obtain ⟨c, hc, rfl⟩ := h.known e (List.mem_append_left _ hmem) (h.accepted e hmem)
    have hpending : ∀ x ∈ s.deployment.pending.eraseIdx i, x ∈ s.deployment.pending :=
      fun x hx => List.mem_of_mem_eraseIdx hx
    exact {
      config := h.config
      consumers := h.consumers
      delivers := h.delivers
      known := by
        intro x hx
        refine h.known x ?_
        rcases List.mem_append.mp hx with hx | hx
        · exact List.mem_append_left _ (hpending x hx)
        · exact List.mem_append_right _ hx
      accepted := fun x hx => h.accepted x (hpending x hx)
      sound := h.sound
      distinct := h.distinct
      new := h.new
      suspended := h.suspended
      returned := h.returned
      ending := by
        intro hclosed
        change (Provenance.record _ _ _).store.isConnected = false at hclosed
        rw [Provenance.record_isConnected, hconnected] at hclosed
        cases hclosed
      rows := fun _ => h.rowsAgree_record (h.rows hconnected) hc he hconnected rfl rfl rfl }

/-! ### Rows that are added, and the end -/

/-- Only what can be seen of a server matters to the invariant. -/
theorem setTelemetry (h : Invariant d s p events) (t : Telemetry) :
    Invariant d { s with deployment := s.deployment.setTelemetry t } p events :=
  { h with rows := fun hopen => { h.rows hopen with } }

/-- In a drained session the consumer has got all it ever will, and no write waits. -/
theorem ended_of_isDrained (h : Invariant d s p events) (hdrained : s.deployment.isDrained = true) :
    p.hasEnded = true ∧ s.deployment.pending = [] := by
  simp only [Deployment.isDrained, Bool.and_eq_true, List.all_eq_true, List.isEmpty_iff] at hdrained
  obtain ⟨⟨-, hended⟩, hpending⟩ := hdrained
  exact ⟨hended p (List.mem_of_getElem? h.delivers.subscribed), hpending⟩

theorem closeStore (h : Invariant d s p events) : Invariant d (s.step .closeStore) p events := by
  unfold Session.step
  simp only
  split
  · rename_i hdrained
    obtain ⟨hended, hpending⟩ := h.ended_of_isDrained hdrained
    exact { h with
      ending := fun _ => ⟨hended, hpending⟩
      rows := fun hopen => by cases hopen }
  · exact h

/-- An engine with the same store and the same broadcaster is as good. -/
theorem setEngine (h : Invariant d s p events) {engine : Engine}
    (hstore : engine.store = s.deployment.engine.store)
    (hbroadcaster : engine.broadcaster = s.deployment.engine.broadcaster) :
    Invariant d { s with deployment := { s.deployment with engine } } p events := by
  have hnext := h.publishes (Engine.Publishes.of_eq hstore hbroadcaster) (List.forall_mem_nil _)
  rwa [List.append_nil] at hnext

/-- A row can only be added under an id that no creation has. -/
theorem id_ne_of_create (h : Invariant d s p events) {id : Text} {size : Int} {createdAt : Timestamp}
    {store : Store} (hstore : s.deployment.engine.store.create id size createdAt = .ok store) :
    ∀ c ∈ s.created, c.info.id ≠ id := by
  obtain ⟨hconnected, -, hnone, -⟩ := Store.create_eq_ok hstore
  intro c hc hid
  obtain ⟨row, hrow, -⟩ := (h.rows hconnected).own c hc
  rw [hid, hnone] at hrow
  cases hrow

theorem forall_mem_concat {P : Creation → Prop} {cs : List Creation} {c : Creation}
    (hcs : ∀ c' ∈ cs, P c') (hc : P c) : ∀ c' ∈ cs ++ [c], P c' :=
  List.forall_mem_append.mpr ⟨hcs, by simpa using hc⟩

/-- The row of a creation that is added is its own, and the others are as they were. -/
theorem rowsAgree_create (h : Invariant d s p events) {c : Creation} {createdAt : Timestamp}
    {t : Session}
    (hstore : s.deployment.engine.store.create c.info.id c.length createdAt
      = .ok t.deployment.engine.store)
    (hcreated : t.created = s.created ++ [c]) (hreturned : t.returned = s.returned) :
    RowsAgree d t (s.deployment.pending ++ events) := by
  obtain ⟨hconnected, -, -, -⟩ := Store.create_eq_ok hstore
  have hrows := h.rows hconnected
  have hrow := Store.get?_of_create hstore
  have hkept : ∀ c' ∈ s.created, t.deployment.engine.store.rows.get? c'.info.id
      = s.deployment.engine.store.rows.get? c'.info.id := by
    intro c' hc'
    rw [hrow, if_neg (Ne.symm (h.id_ne_of_create hstore c' hc'))]
  refine ⟨?_, ?_, ?_⟩
  · rw [hcreated]
    refine forall_mem_concat (fun c' hc' => (hrows.own c' hc').of_get?_eq (hkept c' hc')) ?_
    exact ⟨_, (hrow _).trans (if_pos rfl), rfl, Or.inl rfl⟩
  · intro c' hc' hrecordable
    rw [hreturned] at hc'
    rcases hrows.recorded c' hc' hrecordable with hway | hdone
    · exact Or.inl hway
    · exact Or.inr (hdone.of_get?_eq (hkept c' (h.returned c' hc')))
  · intro id hid
    rw [hcreated] at hid
    rw [hrow, if_neg (hid c (List.mem_append_right _ (List.mem_singleton_self c)))]
    exact hrows.others id fun c' hc' => hid c' (List.mem_append_left _ hc')

/-- A creation that is added has an id that was not in use. -/
theorem insert (h : Invariant d s p events) {c : Creation} {createdAt : Timestamp} {engine : Engine}
    (hc : c.IsSound d.config)
    (hstore : s.deployment.engine.store.create c.info.id c.length createdAt = .ok engine.store)
    (hbroadcaster : engine.broadcaster = s.deployment.engine.broadcaster) :
    Invariant d { s with
      deployment := { s.deployment with engine }
      created := s.created ++ [c]
      suspended := s.suspended ++ [c] } p events := by
  obtain ⟨hconnected, -, hnone, hadded⟩ := Store.create_eq_ok hstore
  have hfree := h.id_ne_of_create hstore
  exact {
    config := h.config
    consumers := h.consumers
    delivers := by
      simp only [hbroadcaster]
      exact h.delivers
    known := by
      intro e he hkind
      obtain ⟨c', hc', hevent⟩ := h.known e he hkind
      exact ⟨c', List.mem_append_left _ hc', hevent⟩
    accepted := h.accepted
    sound := forall_mem_concat h.sound hc
    distinct := by
      rw [List.map_append, List.nodup_append]
      refine ⟨h.distinct, by simp, ?_⟩
      rintro id hid id' hid' rfl
      obtain ⟨c', hc', rfl⟩ := List.mem_map.mp hid
      exact hfree c' hc' (List.mem_singleton.mp hid')
    new := by
      refine forall_mem_concat h.new ?_
      rw [← (h.rows hconnected).others c.info.id hfree]
      exact hnone
    suspended := by
      refine forall_mem_concat (fun c' hc' => List.mem_append_left _ (h.suspended c' hc')) ?_
      exact List.mem_append_right _ (List.mem_singleton_self c)
    returned := fun c' hc' => List.mem_append_left _ (h.returned c' hc')
    ending := by
      intro hclosed
      rw [hadded] at hclosed
      rw [show s.deployment.engine.store.isConnected = false from hclosed] at hconnected
      cases hconnected
    rows := fun _ => h.rowsAgree_create hstore rfl rfl }

theorem enroll (h : Invariant d s p events) (now : Moment) (request : UploadRequest) (id : Text)
    (length : Int) : Invariant d (s.step (.enroll now request id length)) p events := by
  obtain ⟨engine, hdeployment, -, hbroadcaster, hanswer⟩ :=
    s.deployment.enroll_spec now request id length
  unfold Session.step
  simp only [hdeployment]
  rcases hanswer with ⟨failure, hanswer, hstore⟩ | ⟨a, info, hanswer, hdecide, henrolls⟩
  · rw [hanswer]
    exact h.setEngine hstore hbroadcaster
  · rw [hanswer]
    obtain rfl := henrolls.id_eq
    have hdecode := henrolls.metadata
    have hstore := henrolls.row
    obtain ⟨client, v, g⟩ := Authorization.grant_of_decide hdecide
    have hsound : Creation.IsSound d.config ⟨request, length, a, info⟩ := by
      refine ⟨h.config ▸ g.resolved, ?_, (Store.create_eq_ok hstore).2.1⟩
      obtain hmetadata := Except.ok.inj (hdecode.symm.trans g.decode_header)
      change OrderedMap.get? info.metadata Metadata.remoteIpKey = _
      rw [hmetadata, Metadata.get?_rereadAll, g.get?_remoteIpKey]
      rfl
    exact h.insert hsound hstore hbroadcaster

/-! ### All actions -/

/-- **Every action keeps the invariant.** -/
theorem step (h : Invariant d s p events) (action : Action) :
    ∃ q events', Invariant d (s.step action) q events' := by
  cases action with
  | enroll now request id length => exact ⟨p, events, h.enroll now request id length⟩
  | register i => exact ⟨p, h.register i⟩
  | write id offset data => exact ⟨p, h.goesOn (Engine.write_goesOn _ _ id offset data)⟩
  | terminate id => exact ⟨p, h.goesOn (Engine.terminate_goesOn _ id)⟩
  | distribute =>
    obtain ⟨q, hnext⟩ := h.distribute
    exact ⟨q, events, hnext⟩
  | consume i =>
    by_cases hi : i = 1
    · subst hi
      exact h.consume_provenance
    · exact ⟨p, events, h.consume_other hi⟩
  | endWrite i => exact ⟨p, events, h.endWrite i⟩
  | requestClose => exact ⟨p, events, h.requestClose⟩
  | closeStore => exact ⟨p, events, h.closeStore⟩

/-- The invariant holds after any number of actions. -/
theorem run (h : Invariant d s p events) (actions : List Action) :
    ∃ q events', Invariant d (s.run actions) q events' := by
  induction actions generalizing s p events with
  | nil => exact ⟨p, events, h⟩
  | cons action actions ih =>
    obtain ⟨q, events', hnext⟩ := h.step action
    exact ih hnext

end Invariant

/-- The session that a start begins. -/
def ofStart (d : Deployment) : Session := { deployment := d.start.deployment }

/-- A start connects the store, subscribes both consumers and sets the distributor to work. -/
theorem start_deployment (hfresh : d.IsFresh) :
    ∃ engine, d.start.deployment = { d with engine, consumers := [.activity, .provenance] }
      ∧ engine.store = d.engine.store.connect
      ∧ engine.broadcaster =
        { queueLimit := d.config.subscriberQueueSize
          subscriptions := [⟨Consumer.activity.name, d.config.subscriberQueueSize, [], 0, false⟩,
            ⟨Consumer.provenance.name, d.config.subscriberQueueSize, [], 0, false⟩]
          distributor := .running } := by
  unfold Deployment.start Deployment.subscribe Broadcaster.listen
  simp only [Deployment.setStore, Deployment.setBroadcaster, hfresh.broadcaster, hfresh.consumers,
    Bool.false_eq_true, if_false, Except.map, Except.bind, Broadcaster.start]
  split <;> exact ⟨_, rfl, rfl, rfl⟩

/-- A server that was started has its store open and its consumers in place. -/
theorem invariant_ofStart (hfresh : d.IsFresh) (hlimit : d.config.subscriberQueueSize ≤ 0) :
    ∃ p, Invariant d (ofStart d) p [] := by
  obtain ⟨engine, hdeployment, hstore, hbroadcaster⟩ := start_deployment hfresh
  refine ⟨⟨Consumer.provenance.name, d.config.subscriberQueueSize, [], 0, false⟩, ?_⟩
  unfold ofStart
  rw [hdeployment]
  exact {
    config := rfl
    consumers := rfl
    delivers := by
      simp only [hbroadcaster]
      exact .of_start rfl hlimit rfl rfl rfl rfl rfl
    known := by simp [hfresh.pending]
    accepted := by simp [hfresh.pending]
    sound := List.forall_mem_nil _
    distinct := List.nodup_nil
    new := List.forall_mem_nil _
    suspended := List.forall_mem_nil _
    returned := List.forall_mem_nil _
    ending := by
      intro hclosed
      simp only [hstore] at hclosed
      cases hclosed
    rows := by
      intro _
      refine ⟨List.forall_mem_nil _, List.forall_mem_nil _, ?_⟩
      intro id _
      simp only [hstore]
      rfl }

end Session

end UploadGate
