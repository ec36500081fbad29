/-
  UploadGate/Proofs/Deployment/Provenance.lean
  ============================================
  **The address of every upload reaches its row, in whatever order things happen.**

  When nothing is under way any more, the invariant leaves one place for the
  address of a creation that has answered: its row.  A shutdown brings a session
  there from wherever it stands, and closes the store only then.
-/
import UploadGate.Proofs.Deployment.Shutdown

namespace UploadGate.Session

variable {d : Deployment} {s : Session} {p : Subscription} {events : List Event}

/-- The row of every creation that has answered holds the declared size and the address
    that was resolved, if there is one and it holds no surrogate. -/
def IsComplete (s : Session) : Prop :=
  ∀ c ∈ s.returned, c.authorized.remoteIp ≠ [] →
    c.authorized.remoteIp.any CodePoint.isSurrogate = false →
    ∃ row, s.deployment.engine.store.rows.get? c.info.id = some row ∧ row.size = c.length
      ∧ row.uploaderIp? = some c.authorized.remoteIp

/-- **Once nothing is under way,** the rows are complete. -/
theorem Invariant.isComplete (h : Invariant d s p events)
    (hconnected : s.deployment.engine.store.isConnected = true) (hdrained : s.deployment.isDrained = true) :
    s.IsComplete := by
  intro c hc hne hsurrogate
  have haddress := c.address_of_not_isSurrogate hsurrogate
  have hrecordable : c.IsRecordable := by
    rw [Creation.IsRecordable, haddress]
    exact ⟨hne, by simp [Store.isStorable, hsurrogate]⟩
  have hrows := h.rows hconnected
  obtain ⟨hended, hpending⟩ := h.ended_of_isDrained hdrained
  obtain ⟨row, hrow, hsize, -⟩ := hrows.own c (h.returned c hc)
  rcases hrows.recorded c hc hrecordable with hway | ⟨row', hrow', hip⟩
  · rw [hpending, (h.delivers.ended hended).2.2] at hway
    cases hway
  · obtain rfl := Option.some.inj (hrow.symm.trans hrow')
    exact ⟨row, hrow, hsize, by rw [hip, haddress]⟩

/-- A row holds no address but the one of its own creation. -/
theorem Invariant.uploaderIp_eq (h : Invariant d s p events)
    (hconnected : s.deployment.engine.store.isConnected = true) {c : Creation} (hc : c ∈ s.created)
    (hsurrogate : c.authorized.remoteIp.any CodePoint.isSurrogate = false) {row : Row} {ip : Text}
    (hrow : s.deployment.engine.store.rows.get? c.info.id = some row) (hip : row.uploaderIp? = some ip) :
    ip = c.authorized.remoteIp := by
  obtain ⟨row', hrow', -, hown⟩ := (h.rows hconnected).own c hc
  obtain rfl := Option.some.inj (hrow'.symm.trans hrow)
  rw [hip, c.address_of_not_isSurrogate hsurrogate] at hown
  rcases hown with hown | hown
  · cases hown
  · exact Option.some.inj hown

/-- **From the request to the row.**  A server is started with queues that have no limit,
    and any actions follow in any order.  No write of an address meets a closed store.
    While the store is open, the row of a creation whose address holds no surrogate
    holds no other address than that, and no other row than those of the creations has
    changed.  Once the broadcaster is closed, the consumers have ended and no write
    waits, the rows are complete; and a shutdown takes actions that lead there before it
    closes the store. -/
theorem rows_of_isDrained (hfresh : d.IsFresh) (hlimit : d.config.subscriberQueueSize ≤ 0)
    (actions : List Action) :
    let s := (ofStart d).run actions
    let store := s.deployment.engine.store
    (s.deployment.pending ≠ [] → store.isConnected = true)
      ∧ (s.created.map (·.info.id)).Nodup
      ∧ (∀ c ∈ s.returned, c ∈ s.created)
      ∧ (∀ c ∈ s.created,
        (ProxyTrust.resolve d.config.trustedRanges c.request.peer c.request.forwarded?).result
          = .ok c.authorized.remoteIp)
      ∧ (store.isConnected = true →
        (∀ c ∈ s.created, c.authorized.remoteIp.any CodePoint.isSurrogate = false →
          ∀ row ip, store.rows.get? c.info.id = some row → row.uploaderIp? = some ip →
            ip = c.authorized.remoteIp)
        ∧ (∀ id, (∀ c ∈ s.created, c.info.id ≠ id) → store.rows.get? id = d.engine.store.rows.get? id)
        ∧ (s.deployment.isDrained = true → s.IsComplete)
        ∧ ∃ drained, s.Reaches drained ∧ drained.isDrained = true
          ∧ IsComplete { s with deployment := drained }
          ∧ s.deployment.shutdown.deployment =
            (drained.setStore drained.engine.store.close).setTelemetry drained.engine.telemetry.flush) := by
  intro s store
  obtain ⟨p, hstart⟩ := invariant_ofStart hfresh hlimit
  obtain ⟨q, events, h⟩ := hstart.run actions
  refine ⟨?_, h.distinct, h.returned, fun c hc => (h.sound c hc).resolved, ?_⟩
  · intro hpending
    by_contra hclosed
    exact hpending (h.ending (by simpa using hclosed)).2
  · intro hconnected
    have hserving : s.deployment.IsServing := isServing_run (isServing_ofStart hfresh hlimit) actions
    obtain ⟨drained, hreaches, hdrained, hshutdown⟩ := exists_reaches_shutdown hserving
    refine ⟨?_, (h.rows hconnected).others, h.isComplete hconnected,
      drained, hreaches, hdrained, ?_, hshutdown⟩
    · intro c hc hsurrogate row ip hrow hip
      exact h.uploaderIp_eq hconnected hc hsurrogate hrow hip
    · have hopen := hreaches.isConnected.trans hconnected
      obtain ⟨more, hmore, -⟩ := hreaches
      obtain ⟨q', events', hnext⟩ := h.run more
      rw [hmore] at hnext
      exact hnext.isComplete hopen hdrained

def plainDeployment : Deployment where
  config := {}
  engine :=
    { store := Store.atPath (Text.of ":memory:")
      broadcaster := { queueLimit := 0 }
      telemetry := Authorization.noTelemetry }

/-- One upload is created, and the server is shut down but for the closing of the store. -/
def plainActions : List Action :=
  [.enroll ⟨.integer 0, { year := 2024, month := 1, day := 1 }, 900⟩ Authorization.plainRequest (Text.of "a") 3,
    .distribute, .register 0, .requestClose, .distribute, .distribute, .consume 0, .consume 1, .consume 0,
    .consume 1, .endWrite 0]

theorem rows_of_isDrained_plain :
    ∃ row, ((ofStart plainDeployment).run plainActions).deployment.engine.store.rows.get? (Text.of "a")
        = some row ∧ row.size = 3 ∧ row.uploaderIp? = some (Text.of "192.0.2.1") := by
  have hfresh : plainDeployment.IsFresh := ⟨rfl, rfl, rfl⟩
  have hlimit : plainDeployment.config.subscriberQueueSize ≤ 0 := by decide
  obtain ⟨-, -, -, -, hopen⟩ := rows_of_isDrained hfresh hlimit plainActions
  have hconnected : ((ofStart plainDeployment).run plainActions).deployment.engine.store.isConnected
      = true := by decide +kernel
  have hdrained : ((ofStart plainDeployment).run plainActions).deployment.isDrained = true := by
    decide +kernel
  have hreturned : (((ofStart plainDeployment).run plainActions).returned.map fun c =>
      (c.info.id, c.length, c.authorized.remoteIp)) = [(Text.of "a", 3, Text.of "192.0.2.1")] := by
    decide +kernel
  obtain ⟨c, hc, hfields⟩ := List.map_eq_singleton_iff.mp hreturned
  obtain ⟨hid, hlength, hip⟩ : c.info.id = Text.of "a" ∧ c.length = 3
      ∧ c.authorized.remoteIp = Text.of "192.0.2.1" := by simpa using hfields
  obtain ⟨-, -, hcomplete, -⟩ := hopen hconnected
  obtain ⟨row, hrow, hsize, haddress⟩ := hcomplete hdrained c (by rw [hc]; simp) (by rw [hip]; decide)
    (by rw [hip]; decide)
  rw [hid] at hrow
  exact ⟨row, hrow, hsize.trans hlength, haddress.trans (congrArg some hip)⟩

end UploadGate.Session
