/-
  UploadGate/Proofs/Deployment/Shutdown.lean
  ==========================================
  **A shutdown leaves no work behind, and is a run of actions like any other.**

  Settling takes the steps of the distributor, then those of each consumer, then
  those of the writes, as many as there were signals or writes at first.  This is
  enough: after the closing each step leaves fewer signals or writes
  (`times_countdown`), and no step adds work for those before it.  What is left is
  a server that is drained (`isDrained_settle`).
-/
import UploadGate.Proofs.Deployment.Invariant

namespace UploadGate

variable {d : Deployment} {s : Session}

/-! ### What every step leaves as it is -/

namespace Deployment

/-- The events of a server have moved on, and the consumers and the connection of the
    store have stayed. -/
structure Continues (d d' : Deployment) : Prop where
  moves : d.engine.broadcaster.Moves d'.engine.broadcaster
  consumers : d'.consumers = d.consumers
  isConnected : d'.engine.store.isConnected = d.engine.store.isConnected

theorem Continues.of_publishes {engine : Engine} {events : List Event}
    (h : d.engine.Publishes engine events) : d.Continues { d with engine } where
  moves := by
    simp only [h.broadcaster]
    exact .publish events h.isOpen
  consumers := rfl
  isConnected := congrArg Store.isConnected h.store

theorem continues_enroll (d : Deployment) (now : Moment) (request : UploadRequest) (id : Text)
    (length : Int) : d.Continues (d.enroll now request id length).deployment := by
  obtain ⟨engine, hdeployment, -, hbroadcaster, hanswer⟩ := d.enroll_spec now request id length
  rw [hdeployment]
  refine ⟨?_, rfl, ?_⟩
  · simp only [hbroadcaster]
    exact .stay
  · rcases hanswer with ⟨failure, -, hstore⟩ | ⟨a, info, -, -, henrolls⟩
    · exact congrArg Store.isConnected hstore
    · obtain ⟨-, -, -, hadded⟩ := Store.create_eq_ok henrolls.row
      simp only [hadded]

theorem take_eq (d : Deployment) (e : Event) (c : Consumer) :
    (d.take e c).1.engine.broadcaster = d.engine.broadcaster
      ∧ (d.take e c).1.consumers = d.consumers ∧ (d.take e c).1.engine.store = d.engine.store := by
  cases c with
  | activity => exact ⟨rfl, rfl, rfl⟩
  | provenance => exact ⟨rfl, rfl, rfl⟩

theorem consume_eq (i : Nat) (d : Deployment) :
    (d.consume i).1.engine.broadcaster = (d.engine.broadcaster.receive i).2
      ∧ (d.consume i).1.consumers = d.consumers ∧ (d.consume i).1.engine.store = d.engine.store := by
  unfold consume
  simp only
  split
  · rename_i e consumer _ _
    exact take_eq _ e consumer
  · exact ⟨rfl, rfl, rfl⟩

theorem continues_consume (i : Nat) (d : Deployment) : d.Continues (d.consume i).1 := by
  obtain ⟨hbroadcaster, hconsumers, hstore⟩ := consume_eq i d
  refine ⟨?_, hconsumers, congrArg Store.isConnected hstore⟩
  rw [hbroadcaster]
  exact .receive i

theorem endWrite_eq (i : Nat) (d : Deployment) :
    (d.endWrite i).1.engine.broadcaster = d.engine.broadcaster
      ∧ (d.endWrite i).1.pending = d.pending.eraseIdx i := by
  unfold endWrite
  split
  · rename_i hnone
    have hsame := List.eraseIdx_of_length_le (List.getElem?_eq_none_iff.mp hnone)
    exact ⟨rfl, hsame.symm⟩
  · exact ⟨rfl, rfl⟩

theorem continues_endWrite (i : Nat) (d : Deployment) : d.Continues (d.endWrite i).1 := by
  unfold endWrite
  split
  · exact ⟨.stay, rfl, rfl⟩
  · exact ⟨.stay, rfl, Provenance.record_isConnected _ _ _⟩

/-- The consumers are subscribed, and each gets what is published. -/
structure IsServing (d : Deployment) : Prop where
  consumers : d.consumers = [.activity, .provenance]
  serves : d.engine.broadcaster.Serves 2

theorem IsServing.continues {d' : Deployment} (h : d.IsServing) (hnext : d.Continues d') :
    d'.IsServing :=
  ⟨hnext.consumers.trans h.consumers, h.serves.moves hnext.moves⟩

end Deployment

namespace Session

/-- **Every action lets the server go on,** but for the closing of the store. -/
theorem continues_step (s : Session) {action : Action} (h : action ≠ .closeStore) :
    s.deployment.Continues (s.step action).deployment := by
  cases action with
  | enroll now request id length =>
    have hnext := s.deployment.continues_enroll now request id length
    unfold Session.step
    simp only
    split <;> exact hnext
  | register i =>
    unfold Session.step
    simp only
    split
    · exact ⟨.stay, rfl, rfl⟩
    · rename_i c _
      obtain ⟨events, hpublishes, -⟩ :=
        Engine.register_publishes s.deployment.config s.deployment.engine c.info
      exact .of_publishes hpublishes
  | write id offset data =>
    obtain ⟨events, hpublishes, -⟩ :=
      Engine.write_goesOn s.deployment.config s.deployment.engine id offset data
    exact .of_publishes hpublishes
  | terminate id =>
    obtain ⟨events, hpublishes, -⟩ := Engine.terminate_goesOn s.deployment.engine id
    exact .of_publishes hpublishes
  | distribute => exact ⟨.distributeOne, rfl, rfl⟩
  | consume i => exact Deployment.continues_consume i s.deployment
  | endWrite i => exact Deployment.continues_endWrite i s.deployment
  | requestClose => exact ⟨.requestClose, rfl, rfl⟩
  | closeStore => exact absurd rfl h

theorem isServing_step (h : s.deployment.IsServing) (action : Action) :
    (s.step action).deployment.IsServing := by
  by_cases hclose : action = .closeStore
  · subst hclose
    unfold Session.step
    simp only
    split
    · exact ⟨h.consumers, h.serves⟩
    · exact h
  · exact h.continues (continues_step s hclose)

/-- A server that was started serves its consumers. -/
theorem isServing_ofStart (hfresh : d.IsFresh)
    (hlimit : d.config.subscriberQueueSize ≤ 0) : (ofStart d).deployment.IsServing := by
  obtain ⟨engine, hdeployment, -, hbroadcaster⟩ := start_deployment hfresh
  unfold ofStart
  rw [hdeployment]
  refine ⟨rfl, ?_, ?_⟩
  · simp only [hbroadcaster]
    rfl
  · intro i hi
    simp only [hbroadcaster]
    match i with
    | 0 => exact ⟨_, [], .of_start rfl hlimit rfl rfl rfl rfl rfl⟩
    | 1 => exact ⟨_, [], .of_start rfl hlimit rfl rfl rfl rfl rfl⟩

theorem isServing_run (h : s.deployment.IsServing) (actions : List Action) :
    (s.run actions).deployment.IsServing := by
  induction actions generalizing s with
  | nil => exact h
  | cons action actions ih => exact ih (isServing_step h action)

end Session

/-! ### Settling -/

namespace Deployment

/-- A step that leaves less to do leaves nothing in the end. -/
theorem times_countdown {step : Deployment → Deployment × List LogRecord} {P : Nat → Deployment → Prop}
    (hstep : ∀ k d, P (k + 1) d → P k (step d).1) {k : Nat} {d : Deployment} (h : P k d) :
    P 0 (times step k d).1 := by
  induction k generalizing d with
  | zero => exact h
  | succ k ih => exact ih (hstep k d h)

/-- The consumers at the first positions have ended, and so has the distributor. -/
structure HasEndedBelow (d : Deployment) (n : Nat) : Prop where
  serving : d.IsServing
  finished : d.engine.broadcaster.distributor = .finished
  ended : ∀ i < n, ∃ p events, d.engine.broadcaster.Delivers i p events ∧ p.hasEnded = true

/-- After the closing, the distributor hands out all there is, and ends. -/
theorem hasEndedBelow_distributeAll (h : d.IsServing) (hclosed : d.engine.broadcaster.isClosed = true) :
    d.distributeAll.1.HasEndedBelow 0 := by
  have hleft : d.distributeAll.1.IsServing ∧ d.distributeAll.1.engine.broadcaster.isClosed = true
      ∧ d.distributeAll.1.engine.broadcaster.source.length ≤ 0 := by
    refine times_countdown (P := fun k d => d.IsServing ∧ d.engine.broadcaster.isClosed = true
      ∧ d.engine.broadcaster.source.length ≤ k) ?_ ⟨h, hclosed, Nat.le_refl _⟩
    rintro k d ⟨h, hclosed, hk⟩
    obtain ⟨p, events, hdelivers⟩ := h.serves.delivers 0 (by omega)
    refine ⟨h.continues ⟨.distributeOne, rfl, rfl⟩, ?_, ?_⟩
    · exact (Broadcaster.isClosed_distributeOne _).trans hclosed
    · have hshorter := hdelivers.length_source_distributeOne
      change d.engine.broadcaster.distributeOne.1.source.length ≤ k
      omega
  obtain ⟨hserving, hclosed, hsource⟩ := hleft
  obtain ⟨p, events, hdelivers⟩ := hserving.serves.delivers 0 (by omega)
  refine ⟨hserving, ?_, ?_⟩
  · exact hdelivers.finished_of_source_nil hclosed (List.eq_nil_of_length_eq_zero (by omega))
  · intro i hi
    omega

/-- A consumer that takes all there is has ended, and those before it are left alone. -/
theorem HasEndedBelow.consumeAll {i : Nat} (h : d.HasEndedBelow i) (hi : i < 2) :
    (d.consumeAll i).1.HasEndedBelow (i + 1) := by
  obtain ⟨p, events, hdelivers⟩ := h.serving.serves.delivers i hi
  have hleft : (d.consumeAll i).1.HasEndedBelow i ∧ ∃ p events,
      (d.consumeAll i).1.engine.broadcaster.Delivers i p events ∧ p.queue.length ≤ 0 := by
    refine times_countdown (P := fun k d => d.HasEndedBelow i ∧ ∃ p events,
      d.engine.broadcaster.Delivers i p events ∧ p.queue.length ≤ k) ?_ ⟨h, p, events, hdelivers, ?_⟩
    · rintro k d ⟨h, p, events, hdelivers, hk⟩
      obtain ⟨hbroadcaster, -⟩ := consume_eq i d
      obtain ⟨q, events', hnext, hshorter⟩ := hdelivers.receive_finished h.finished
      rw [← hbroadcaster] at hnext
      refine ⟨⟨h.serving.continues (continues_consume i d), ?_, ?_⟩, q, events', hnext, by omega⟩
      · rw [hbroadcaster, Broadcaster.distributor_receive]
        exact h.finished
      · intro j hj
        obtain ⟨p, events, hother, hended⟩ := h.ended j hj
        rw [hbroadcaster]
        exact ⟨p, events, hother.receive_other (by omega), hended⟩
    · simp [hdelivers.subscribed]
  obtain ⟨hsame, q, events', hnext, hqueue⟩ := hleft
  refine ⟨hsame.serving, hsame.finished, ?_⟩
  intro j hj
  by_cases hji : j = i
  · subst hji
    exact ⟨q, events', hnext,
      hnext.hasEnded_of_queue_nil hsame.finished (List.eq_nil_of_length_eq_zero (by omega))⟩
  · exact hsame.ended j (by omega)

theorem consumeEach_eq (hconsumers : d.consumers = [.activity, .provenance]) :
    d.consumeEach.1 = ((d.consumeAll 0).1.consumeAll 1).1 := by
  unfold consumeEach
  rw [hconsumers]
  rfl

/-- Once all writes have ended, none waits. -/
theorem HasEndedBelow.endWrites {n : Nat} (h : d.HasEndedBelow n) :
    d.endWrites.1.HasEndedBelow n ∧ d.endWrites.1.pending = [] := by
  have hleft : d.endWrites.1.HasEndedBelow n ∧ d.endWrites.1.pending.length ≤ 0 := by
    refine times_countdown (P := fun k d => d.HasEndedBelow n ∧ d.pending.length ≤ k) ?_ ⟨h, Nat.le_refl _⟩
    rintro k d ⟨h, hk⟩
    obtain ⟨hbroadcaster, hpending⟩ := endWrite_eq 0 d
    refine ⟨⟨h.serving.continues (continues_endWrite 0 d), ?_, ?_⟩, ?_⟩
    · rw [hbroadcaster]
      exact h.finished
    · rw [hbroadcaster]
      exact h.ended
    · rw [hpending, List.eraseIdx_zero, List.length_tail]
      omega
  exact ⟨hleft.1, List.eq_nil_of_length_eq_zero (by omega)⟩

theorem HasEndedBelow.isDrained (h : d.HasEndedBelow 2) (hpending : d.pending = []) :
    d.isDrained = true := by
  obtain ⟨p, events, hdelivers, -⟩ := h.ended 0 (by omega)
  have hclosed := (hdelivers.finished h.finished).1
  have hall : ∀ p ∈ d.engine.broadcaster.subscriptions, p.hasEnded = true := by
    intro p hp
    obtain ⟨i, hi⟩ := List.getElem?_of_mem hp
    obtain ⟨hlt, -⟩ := List.getElem?_eq_some_iff.mp hi
    rw [h.serving.serves.count] at hlt
    obtain ⟨q, events, hdelivers, hended⟩ := h.ended i hlt
    obtain rfl := Option.some.inj (hi.symm.trans hdelivers.subscribed)
    exact hended
  simpa [Deployment.isDrained, hclosed, h.finished, hpending] using hall

theorem fst_settle (d : Deployment) : d.settle.1 = d.distributeAll.1.consumeEach.1.endWrites.1 := rfl

/-- **Settling a server that is closed leaves no work behind.** -/
theorem isDrained_settle (h : d.IsServing) (hclosed : d.engine.broadcaster.isClosed = true) :
    d.settle.1.isDrained = true := by
  have hdistributed := hasEndedBelow_distributeAll h hclosed
  have hconsumed : d.distributeAll.1.consumeEach.1.HasEndedBelow 2 := by
    rw [consumeEach_eq hdistributed.serving.consumers]
    exact (hdistributed.consumeAll (by omega)).consumeAll (by omega)
  obtain ⟨hleft, hpending⟩ := hconsumed.endWrites
  rw [fst_settle]
  exact hleft.isDrained hpending

theorem deployment_shutdown (d : Deployment) :
    let closing := d.setBroadcaster d.engine.broadcaster.requestClose.1
    d.shutdown.deployment = (closing.settle.1.setStore closing.settle.1.engine.store.close).setTelemetry
      closing.settle.1.engine.telemetry.flush := by
  rcases hclose : d.engine.broadcaster.requestClose with ⟨b, logs⟩
  rcases hsettle : (d.setBroadcaster b).settle with ⟨settled, more⟩
  simp only [shutdown, hclose, hsettle]
  rfl

end Deployment

/-! ### A shutdown is a run -/

namespace Session

/-- Some actions in a row lead to a server; they touch nothing but the server, and leave
    the store open. -/
def Reaches (s : Session) (d : Deployment) : Prop :=
  ∃ actions, s.run actions = { s with deployment := d } ∧ .closeStore ∉ actions

theorem Reaches.isConnected (h : s.Reaches d) :
    d.engine.store.isConnected = s.deployment.engine.store.isConnected := by
  obtain ⟨actions, hactions, hopen⟩ := h
  have hrun : (s.run actions).deployment.engine.store.isConnected
      = s.deployment.engine.store.isConnected := by
    clear hactions
    induction actions generalizing s with
    | nil => rfl
    | cons action actions ih =>
      obtain ⟨hfirst, hrest⟩ := not_or.mp (mt List.mem_cons.mpr hopen)
      exact (ih hrest).trans (continues_step s (Ne.symm hfirst)).isConnected
  rwa [hactions] at hrun

theorem Reaches.trans {d' : Deployment} (h : s.Reaches d) (h' : Reaches { s with deployment := d } d') :
    s.Reaches d' := by
  obtain ⟨actions, hactions, hopen⟩ := h
  obtain ⟨more, hmore, hopen'⟩ := h'
  refine ⟨actions ++ more, ?_, ?_⟩
  · rw [run, List.foldl_append]
    exact (congrArg (fun s => run s more) hactions).trans hmore
  · simp [hopen, hopen']

theorem Reaches.of_step (action : Action) (h : s.step action = { s with deployment := d })
    (hopen : action ≠ .closeStore) : s.Reaches d :=
  ⟨[action], h, by simpa using Ne.symm hopen⟩

/-- A step that is an action is a run when it is repeated. -/
theorem reaches_times {action : Action} (hopen : action ≠ .closeStore)
    {f : Deployment → Deployment × List LogRecord}
    (hstep : ∀ s : Session, s.step action = { s with deployment := (f s.deployment).1 }) (k : Nat)
    (s : Session) : s.Reaches (Deployment.times f k s.deployment).1 := by
  induction k generalizing s with
  | zero => exact ⟨[], rfl, List.not_mem_nil⟩
  | succ k ih =>
    have hfirst : s.Reaches (f s.deployment).1 := .of_step action (hstep s) hopen
    exact hfirst.trans (ih { s with deployment := (f s.deployment).1 })

theorem reaches_consumeEach (s : Session) : s.Reaches s.deployment.consumeEach.1 := by
  unfold Deployment.consumeEach
  generalize ([] : List LogRecord) = logs
  induction List.range s.deployment.consumers.length generalizing s logs with
  | nil => exact ⟨[], rfl, List.not_mem_nil⟩
  | cons i positions ih =>
    have hopen : Action.consume i ≠ .closeStore := nofun
    have hfirst : s.Reaches (s.deployment.consumeAll i).1 := reaches_times hopen (fun _ => rfl) _ s
    exact hfirst.trans (ih { s with deployment := (s.deployment.consumeAll i).1 } _)

theorem reaches_settle (s : Session) : s.Reaches s.deployment.settle.1 := by
  have hopen : Action.distribute ≠ .closeStore := nofun
  have hopen' : Action.endWrite 0 ≠ .closeStore := nofun
  have hdistributed : s.Reaches s.deployment.distributeAll.1 := reaches_times hopen (fun _ => rfl) _ s
  have hconsumed : s.Reaches s.deployment.distributeAll.1.consumeEach.1 :=
    hdistributed.trans (reaches_consumeEach { s with deployment := s.deployment.distributeAll.1 })
  rw [Deployment.fst_settle]
  generalize s.deployment.distributeAll.1.consumeEach.1 = consumed at hconsumed ⊢
  exact hconsumed.trans (reaches_times hopen' (fun _ => rfl) _ { s with deployment := consumed })

/-- **A shutdown takes actions that leave nothing to do**, then closes the store; what
    follows only sends off the metrics. -/
theorem exists_reaches_shutdown (h : s.deployment.IsServing) :
    ∃ drained, s.Reaches drained ∧ drained.isDrained = true
      ∧ s.deployment.shutdown.deployment =
        (drained.setStore drained.engine.store.close).setTelemetry drained.engine.telemetry.flush := by
  have hclosing : s.Reaches (s.deployment.setBroadcaster s.deployment.engine.broadcaster.requestClose.1) :=
    .of_step .requestClose rfl nofun
  have hserving : (s.deployment.setBroadcaster s.deployment.engine.broadcaster.requestClose.1).IsServing :=
    h.continues ⟨.requestClose, rfl, rfl⟩
  have hclosed := Broadcaster.isClosed_requestClose s.deployment.engine.broadcaster
  have hdrained := Deployment.isDrained_settle hserving hclosed
  have hshutdown := Deployment.deployment_shutdown s.deployment
  generalize s.deployment.setBroadcaster _ = closing at hclosing hdrained hshutdown
  exact ⟨closing.settle.1, hclosing.trans (reaches_settle { s with deployment := closing }), hdrained,
    hshutdown⟩

end Session

end UploadGate
