/-
  UploadGate/Proofs/Broadcast/Delivery.lean
  =========================================
  **Nothing is lost between the publishers and a subscriber without a limit.**

  What a subscriber has yet to get stands in its own queue and, behind that, in
  the source.  `Delivers` says which events these are; the closing signal stands
  behind all of them, and only once the broadcaster is closed.  Every step of
  the broadcaster keeps this: publishing adds an event at the end, the
  distributor moves one from the source to the queue, and the subscriber takes
  the first.  So a subscriber that has ended has got every event.  After the
  closing, as many steps as there are signals end the distributor, and as many as
  are in its queue end the subscriber.
-/
import UploadGate.Broadcast.Broadcaster

namespace UploadGate.Broadcaster

/-- The subscriber `p` at a position has no limit, and is still to get the events. -/
structure Delivers (b : Broadcaster) (i : Nat) (p : Subscription) (events : List Event) : Prop where
  subscribed : b.subscriptions[i]? = some p
  unlimited : p.limit ≤ 0
  started : b.distributor ≠ .idle
  running : b.distributor = .running → p.hasEnded = false ∧ .closing ∉ p.queue
  finished : b.distributor = .finished → b.isClosed = true ∧ b.source = []
  stream : p.hasEnded = false →
    p.queue ++ b.source = events.map .event ++ (if b.isClosed then [.closing] else [])
  ended : p.hasEnded = true → b.isClosed = true ∧ p.queue ++ b.source = [] ∧ events = []

variable {b : Broadcaster} {i : Nat} {p : Subscription} {events : List Event}

theorem isFull_of_nonpos {s : Subscription} (h : s.limit ≤ 0) : s.isFull = false := by
  have hnot : ¬ 0 < s.limit := by omega
  simp [Subscription.isFull, hnot]

theorem offer_of_nonpos {s : Subscription} (h : s.limit ≤ 0) (signal : Signal) :
    (s.offer signal).1 = { s with queue := s.queue ++ [signal] } := by
  cases signal with
  | event e =>
    rw [Subscription.offer, Subscription.offerEvent, isFull_of_nonpos h]
    rfl
  | closing =>
    rw [Subscription.offer, Subscription.offerClosing, isFull_of_nonpos h]
    rfl

/-- A new subscriber of a broadcaster at work gets what is published from now on. -/
theorem Delivers.of_start (hsubscribed : b.subscriptions[i]? = some p) (hunlimited : p.limit ≤ 0)
    (hrunning : b.distributor = .running) (hopen : b.isClosed = false) (hsource : b.source = [])
    (hqueue : p.queue = []) (hended : p.hasEnded = false) : Delivers b i p [] where
  subscribed := hsubscribed
  unlimited := hunlimited
  started := by simp [hrunning]
  running := fun _ => ⟨hended, by simp [hqueue]⟩
  finished := by simp [hrunning]
  stream := fun _ => by simp [hqueue, hsource, hopen]
  ended := by simp [hended]

/-- Behind the closing signal stands nothing. -/
theorem closing_last {signals rest : List Signal} {isClosed : Bool}
    (h : signals ++ .closing :: rest = events.map .event ++ (if isClosed then [.closing] else [])) :
    rest = [] ∧ isClosed = true := by
  induction events generalizing signals with
  | nil =>
    cases isClosed with
    | false => simp at h
    | true =>
      cases signals with
      | nil => exact ⟨(List.cons.inj h).2, rfl⟩
      | cons signal signals => simp at h
  | cons e events ih =>
    cases signals with
    | nil => cases h
    | cons signal signals => exact ih (List.cons.inj h).2

/-! ### Publishing and closing -/

/-- Published events come behind those that are still to come. -/
theorem Delivers.append (h : Delivers b i p events) {more : List Event}
    (hopen : more ≠ [] → b.isClosed = false) :
    Delivers { b with source := b.source ++ more.map .event } i p (events ++ more) := by
  by_cases hmore : more = []
  · subst hmore
    simpa using h
  · have hclosed := hopen hmore
    refine { h with finished := ?_, stream := ?_, ended := ?_ }
    · intro hfinished
      rw [(h.finished hfinished).1] at hclosed
      cases hclosed
    · intro hended
      have hstream := h.stream hended
      simp only [hclosed, Bool.false_eq_true, if_false, List.append_nil, List.map_append] at hstream ⊢
      rw [← List.append_assoc, hstream]
    · intro hended
      rw [(h.ended hended).1] at hclosed
      cases hclosed

theorem Delivers.requestClose (h : Delivers b i p events) : Delivers b.requestClose.1 i p events := by
  unfold Broadcaster.requestClose
  split
  · exact h
  · rename_i hopen
    have hopen' : b.isClosed = false := by simpa using hopen
    simp only [if_neg h.started]
    refine { h with finished := ?_, stream := ?_, ended := ?_ }
    · intro hfinished
      exact absurd (h.finished hfinished).1 hopen
    · intro hended
      have hstream := h.stream hended
      simp only [hopen', Bool.false_eq_true, if_false, List.append_nil] at hstream
      simp only [if_true]
      rw [← List.append_assoc, hstream]
    · intro hended
      exact absurd (h.ended hended).1 hopen

theorem isClosed_requestClose (b : Broadcaster) : b.requestClose.1.isClosed = true := by
  unfold Broadcaster.requestClose
  split
  · assumption
  · simp only
    split <;> rfl

/-! ### Distribution -/

/-- The distributor moves a signal from the source to the queue, and neither adds nor
    drops one. -/
theorem Delivers.distributeOne (h : Delivers b i p events) :
    ∃ q, q.hasEnded = p.hasEnded ∧ Delivers b.distributeOne.1 i q events := by
  unfold Broadcaster.distributeOne
  split
  · exact ⟨p, rfl, h⟩
  · rename_i hworks
    have hrunning : b.distributor = .running := by simpa using hworks
    obtain ⟨hopen, hnone⟩ := h.running hrunning
    split
    · exact ⟨p, rfl, h⟩
    · rename_i signal rest hsource
      have hstream := h.stream hopen
      rw [hsource] at hstream
      have hoffer := offer_of_nonpos h.unlimited signal
      refine ⟨{ p with queue := p.queue ++ [signal] }, rfl, ?_, h.unlimited, ?_, ?_, ?_, ?_, ?_⟩
      · simp [fanOut, h.subscribed, hoffer]
      · simp only [fanOut]
        split <;> exact fun hidle => nomatch hidle
      · intro hstill
        refine ⟨hopen, ?_⟩
        simp only [List.mem_append, List.mem_singleton, not_or]
        refine ⟨hnone, ?_⟩
        rintro rfl
        cases hstill
      · intro hfinished
        simp only [fanOut] at hfinished ⊢
        split at hfinished
        · rename_i hsignal
          subst hsignal
          exact (closing_last hstream).symm
        · cases hfinished
      · intro _
        simp only [fanOut, List.append_assoc, List.singleton_append]
        exact hstream
      · intro hended
        rw [show p.hasEnded = true from hended] at hopen
        cases hopen

theorem isClosed_distributeOne (b : Broadcaster) : b.distributeOne.1.isClosed = b.isClosed := by
  unfold Broadcaster.distributeOne
  split
  · rfl
  · split <;> rfl

/-- After the closing, a distributor that finds nothing has ended. -/
theorem Delivers.finished_of_source_nil (h : Delivers b i p events) (hclosed : b.isClosed = true)
    (hsource : b.source = []) : b.distributor = .finished := by
  cases hdistributor : b.distributor with
  | idle => exact absurd hdistributor h.started
  | finished => rfl
  | running =>
    obtain ⟨hopen, hnone⟩ := h.running hdistributor
    have hstream := h.stream hopen
    rw [hsource, hclosed, List.append_nil] at hstream
    exact absurd (by simp [hstream]) hnone

/-- Every step of the distributor makes the source shorter. -/
theorem Delivers.length_source_distributeOne (h : Delivers b i p events) :
    b.distributeOne.1.source.length ≤ b.source.length - 1 := by
  unfold Broadcaster.distributeOne
  split
  · rename_i hrests
    cases hdistributor : b.distributor with
    | idle => exact absurd hdistributor h.started
    | finished => simp [(h.finished hdistributor).2]
    | running => exact absurd hdistributor hrests
  · split
    · rename_i hsource
      simp [hsource]
    · rename_i hsource
      simp [hsource, fanOut]

/-! ### Receiving -/

theorem receive_of_getElem? {s : Subscription} (hs : b.subscriptions[i]? = some s) :
    b.receive i = (s.receive.1, b.setSubscription i s.receive.2) := by
  rw [receive, hs]

theorem getElem?_setSubscription {s : Subscription} (hs : b.subscriptions[i]? = some s) (t : Subscription) :
    (b.setSubscription i t).subscriptions[i]? = some t := by
  obtain ⟨hi, -⟩ := List.getElem?_eq_some_iff.mp hs
  exact List.getElem?_set_self hi

/-- What another subscriber takes changes nothing. -/
theorem Delivers.receive_other (h : Delivers b i p events) {j : Nat} (hj : j ≠ i) :
    Delivers (b.receive j).2 i p events := by
  unfold Broadcaster.receive
  split
  · exact h
  · refine { h with subscribed := ?_ }
    simp only [setSubscription, List.getElem?_set_ne hj]
    exact h.subscribed

/-- The first event in the queue is the first that is still to come. -/
theorem Delivers.take_event (h : Delivers b i p events) (hopen : p.hasEnded = false) {e : Event}
    {queue : List Signal} (hqueue : p.queue = .event e :: queue) :
    ∃ rest, events = e :: rest ∧ Delivers (b.setSubscription i { p with queue }) i { p with queue } rest := by
  have hstream := h.stream hopen
  rw [hqueue, List.cons_append] at hstream
  cases events with
  | nil =>
    exfalso
    split at hstream <;> cases hstream
  | cons next rest =>
    rw [List.map_cons, List.cons_append] at hstream
    obtain ⟨hnext, hrest⟩ := List.cons.inj hstream
    obtain rfl := Signal.event.inj hnext
    refine ⟨rest, rfl, getElem?_setSubscription h.subscribed _, h.unlimited, h.started, ?_, h.finished, ?_, ?_⟩
    · intro hrunning
      refine ⟨hopen, ?_⟩
      intro hmem
      exact (h.running hrunning).2 (hqueue ▸ List.mem_cons_of_mem _ hmem)
    · intro _
      exact hrest
    · intro hended
      rw [show p.hasEnded = true from hended] at hopen
      cases hopen

/-- When the closing signal is the first in the queue, there is no event to come. -/
theorem Delivers.take_closing (h : Delivers b i p events) (hopen : p.hasEnded = false)
    {queue : List Signal} (hqueue : p.queue = .closing :: queue) :
    Delivers (b.setSubscription i { p with queue, hasEnded := true }) i
      { p with queue, hasEnded := true } events := by
  have hstream := h.stream hopen
  rw [hqueue, List.cons_append] at hstream
  have hfirst : [] ++ .closing :: (queue ++ b.source) = _ := hstream
  obtain ⟨hlast, hclosed⟩ := closing_last hfirst
  have hevents : events = [] := by
    cases events with
    | nil => rfl
    | cons next rest => cases (List.cons.inj hstream).1
  refine ⟨getElem?_setSubscription h.subscribed _, h.unlimited, h.started, ?_, h.finished, ?_, ?_⟩
  · intro hrunning
    exact absurd (hqueue ▸ List.mem_cons_self) (h.running hrunning).2
  · intro hfalse
    cases hfalse
  · intro _
    exact ⟨hclosed, hlast, hevents⟩

/-- The subscriber takes the first event that is still to come, or none. -/
theorem Delivers.receive (h : Delivers b i p events) :
    ∃ q, (∃ e rest, (b.receive i).1 = .event e ∧ events = e :: rest ∧ p.hasEnded = false
        ∧ q.queue = p.queue.tail ∧ Delivers (b.receive i).2 i q rest)
      ∨ ((∀ e, (b.receive i).1 ≠ .event e) ∧ (p.hasEnded = true → q.hasEnded = true)
        ∧ (p.queue ≠ [] → q.hasEnded = true) ∧ Delivers (b.receive i).2 i q events) := by
  have hself : Delivers (b.setSubscription i p) i p events :=
    { h with subscribed := getElem?_setSubscription h.subscribed p }
  rw [receive_of_getElem? h.subscribed]
  unfold Subscription.receive
  by_cases hended : p.hasEnded = true
  · rw [if_pos hended]
    exact ⟨p, Or.inr ⟨nofun, fun _ => hended, fun _ => hended, hself⟩⟩
  · have hopen : p.hasEnded = false := by simpa using hended
    rw [if_neg hended]
    cases hqueue : p.queue with
    | nil => exact ⟨p, Or.inr ⟨nofun, id, fun hne => absurd rfl hne, hself⟩⟩
    | cons signal queue =>
      cases signal with
      | event e =>
        obtain ⟨rest, hevents, hnext⟩ := h.take_event hopen hqueue
        exact ⟨{ p with queue }, Or.inl ⟨e, rest, rfl, hevents, hopen, rfl, hnext⟩⟩
      | closing =>
        have hnext := h.take_closing hopen hqueue
        exact ⟨{ p with queue, hasEnded := true }, Or.inr ⟨nofun, fun _ => rfl, fun _ => rfl, hnext⟩⟩

theorem distributor_receive (b : Broadcaster) (i : Nat) : (b.receive i).2.distributor = b.distributor := by
  unfold Broadcaster.receive
  split <;> rfl

/-- Once the distributor has ended, a subscriber with an empty queue has ended too. -/
theorem Delivers.hasEnded_of_queue_nil (h : Delivers b i p events) (hfinished : b.distributor = .finished)
    (hqueue : p.queue = []) : p.hasEnded = true := by
  obtain ⟨hclosed, hsource⟩ := h.finished hfinished
  cases hended : p.hasEnded with
  | true => rfl
  | false =>
    have hstream := h.stream hended
    simp [hqueue, hsource, hclosed] at hstream

/-- Once the distributor has ended, every signal that is taken makes the queue shorter. -/
theorem Delivers.receive_finished (h : Delivers b i p events) (hfinished : b.distributor = .finished) :
    ∃ q events', Delivers (b.receive i).2 i q events' ∧ q.queue.length ≤ p.queue.length - 1 := by
  obtain ⟨q, ⟨e, rest, -, -, -, hqueue, hnext⟩ | ⟨-, hended, htaken, hnext⟩⟩ := h.receive
  · exact ⟨q, rest, hnext, by simp [hqueue]⟩
  · have hdone : q.hasEnded = true := by
      by_cases hempty : p.queue = []
      · exact hended (h.hasEnded_of_queue_nil hfinished hempty)
      · exact htaken hempty
    have hqueue : q.queue = [] := (List.append_eq_nil_iff.mp (hnext.ended hdone).2.1).1
    exact ⟨q, events, hnext, by simp [hqueue]⟩

/-! ### All subscribers -/

/-- What may happen to a broadcaster once its subscribers are there. -/
inductive Moves (b : Broadcaster) : Broadcaster → Prop
  | stay : b.Moves b
  | publish (events : List Event) (hopen : events ≠ [] → b.isClosed = false) :
      b.Moves { b with source := b.source ++ events.map .event }
  | requestClose : b.Moves b.requestClose.1
  | distributeOne : b.Moves b.distributeOne.1
  | receive (i : Nat) : b.Moves (b.receive i).2

/-- There are `n` subscribers, and each has no limit and gets what is published. -/
structure Serves (b : Broadcaster) (n : Nat) : Prop where
  count : b.subscriptions.length = n
  delivers : ∀ i < n, ∃ p events, b.Delivers i p events

theorem Moves.length_subscriptions {b' : Broadcaster} (h : b.Moves b') :
    b'.subscriptions.length = b.subscriptions.length := by
  cases h with
  | stay => rfl
  | publish events hopen => rfl
  | requestClose =>
    unfold Broadcaster.requestClose
    split
    · rfl
    · simp only
      split <;> simp [fanOut]
  | distributeOne =>
    unfold Broadcaster.distributeOne
    split
    · rfl
    · split <;> simp [fanOut]
  | receive i =>
    unfold Broadcaster.receive
    split <;> simp [setSubscription]

/-- **Nothing that may happen takes a subscriber away** or makes it miss an event. -/
theorem Serves.moves {n : Nat} (h : b.Serves n) {b' : Broadcaster} (hmoves : b.Moves b') :
    b'.Serves n := by
  refine ⟨hmoves.length_subscriptions.trans h.count, ?_⟩
  intro i hi
  obtain ⟨p, events, hdelivers⟩ := h.delivers i hi
  cases hmoves with
  | stay => exact ⟨p, events, hdelivers⟩
  | publish more hopen => exact ⟨p, events ++ more, hdelivers.append hopen⟩
  | requestClose => exact ⟨p, events, hdelivers.requestClose⟩
  | distributeOne =>
    obtain ⟨q, -, hnext⟩ := hdelivers.distributeOne
    exact ⟨q, events, hnext⟩
  | receive j =>
    by_cases hj : j = i
    · subst hj
      obtain ⟨q, ⟨e, rest, -, -, -, -, hnext⟩ | ⟨-, -, -, hnext⟩⟩ := hdelivers.receive
      · exact ⟨q, rest, hnext⟩
      · exact ⟨q, events, hnext⟩
    · exact ⟨p, events, hdelivers.receive_other hj⟩

end UploadGate.Broadcaster
