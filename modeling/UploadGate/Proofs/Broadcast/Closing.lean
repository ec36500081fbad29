/-
  UploadGate/Proofs/Broadcast/Closing.lean
  ========================================
  **Closing a broadcaster ends every subscriber.**

  Once the call has returned, a closing signal stands in every queue whose
  subscriber has not taken one (`Subscription.IsEnding`).  No later offer drives
  it out: an event finds no room in a full queue, and a second closing signal
  may only push out the first.  So a subscriber is never left waiting, and what
  it can still receive is bounded by what stands in its queue and in the source
  (`IsClosing.goesOn_run`).  A distributor that was started before hands out all that
  was published first.
-/
import UploadGate.Proofs.Broadcast.Course

namespace UploadGate

/-! ### A subscriber that is about to end -/

namespace Subscription

/-- The subscriber has ended, or finds the closing signal in its queue. -/
def IsEnding (s : Subscription) : Prop := s.hasEnded = true ∨ .closing ∈ s.queue

variable {s : Subscription}

theorem isEnding_offer_closing (s : Subscription) : (s.offer .closing).1.IsEnding := by
  right
  simp only [offer, offerClosing]
  split <;> simp

theorem IsEnding.offer (h : s.IsEnding) (signal : Signal) : (s.offer signal).1.IsEnding := by
  cases signal with
  | closing => exact s.isEnding_offer_closing
  | event e =>
    simp only [Subscription.offer, offerEvent]
    split
    · exact h
    · rcases h with hended | hqueue
      · exact Or.inl hended
      · exact Or.inr (List.mem_append_left _ hqueue)

theorem hasEnded_offer (s : Subscription) (signal : Signal) : (s.offer signal).1.hasEnded = s.hasEnded := by
  obtain ⟨queue, dropped, h⟩ := s.exists_offer_eq signal
  rw [h]

theorem length_queue_offer_le_succ (s : Subscription) (signal : Signal) :
    (s.offer signal).1.queue.length ≤ s.queue.length + 1 := by
  cases signal with
  | event e =>
    simp only [offer, offerEvent]
    split <;> simp
  | closing =>
    simp only [offer, offerClosing]
    split <;> simp

theorem receive_of_hasEnded (h : s.hasEnded = true) : s.receive = (.ended, s) := by
  rw [receive, if_pos h]

/-- A subscriber that is about to end does not wait: it ends, or its queue becomes shorter. -/
theorem IsEnding.receive_cases (h : s.IsEnding) :
    (s.receive.1 = .ended ∧ s.receive.2.hasEnded = true ∧ s.receive.2.queue.length ≤ s.queue.length)
      ∨ ∃ e, s.receive.1 = .event e ∧ s.receive.2.IsEnding
        ∧ s.receive.2.queue.length + 1 = s.queue.length := by
  by_cases hended : s.hasEnded = true
  · rw [receive_of_hasEnded hended]
    exact Or.inl ⟨rfl, hended, Nat.le_refl _⟩
  · have hmem : .closing ∈ s.queue := h.resolve_left hended
    rw [receive, if_neg hended]
    split
    · rename_i hqueue
      rw [hqueue] at hmem
      cases hmem
    · rename_i e rest hqueue
      rw [hqueue, List.mem_cons] at hmem
      exact Or.inr ⟨e, rfl, Or.inr (hmem.resolve_left nofun), by rw [hqueue]; rfl⟩
    · rename_i rest hqueue
      exact Or.inl ⟨rfl, rfl, by rw [hqueue]; exact Nat.le_succ _⟩

theorem IsEnding.receive (h : s.IsEnding) : s.receive.2.IsEnding := by
  rcases h.receive_cases with ⟨-, hended, -⟩ | ⟨e, -, hending, -⟩
  · exact Or.inl hended
  · exact hending

end Subscription

namespace Broadcaster

variable {b : Broadcaster} {i : Nat} {s : Subscription}

theorem receive_ne_waiting (hs : b.subscriptions[i]? = some s) (h : s.IsEnding) : (b.receive i).1 ≠ .waiting := by
  rw [receive_of_getElem? hs]
  rcases h.receive_cases with ⟨hreceipt, -⟩ | ⟨e, hreceipt, -⟩
  · simp [hreceipt]
  · simp [hreceipt]

/-- **A subscriber that is about to end** receives events and then the end, and waits for
    nothing in between. -/
theorem receiveUpTo_of_isEnding (hs : b.subscriptions[i]? = some s) (h : s.IsEnding) :
    ∃ events : List Event, (b.receiveUpTo i (s.queue.length + 1)).1 = events.map .event ++ [.ended] := by
  generalize hn : s.queue.length = n
  induction n generalizing b s with
  | zero =>
    rw [receiveUpTo, receive_of_getElem? hs]
    rcases h.receive_cases with ⟨hreceipt, -, -⟩ | ⟨e, -, -, hlength⟩
    · exact ⟨[], by rw [hreceipt]; rfl⟩
    · omega
  | succ n ih =>
    rw [receiveUpTo, receive_of_getElem? hs]
    rcases h.receive_cases with ⟨hreceipt, -, -⟩ | ⟨e, hreceipt, hending, hlength⟩
    · exact ⟨[], by rw [hreceipt]; rfl⟩
    · obtain ⟨events, hevents⟩ := ih (getElem?_setSubscription hs _) hending (by omega)
      refine ⟨e :: events, ?_⟩
      rw [hreceipt]
      simp only [hevents]
      rfl

end Broadcaster

/-! ### All subscribers -/

namespace Course

variable {limit : Int} {c c' : Course}

/-- Once the broadcaster has closed, every subscriber is about to end. -/
structure IsClosing (c : Course) : Prop where
  orderly : c.IsOrderly
  ending : c.HasClosed → ∀ s ∈ c.broadcaster.subscriptions, s.IsEnding

theorem forall_isEnding_offer_closing (c : Course) :
    ∀ s ∈ (c.offer .closing).broadcaster.subscriptions, s.IsEnding := by
  intro s hs
  obtain ⟨s₀, -, rfl⟩ := List.mem_map.mp hs
  exact s₀.isEnding_offer_closing

theorem isClosed_effect (h : c.broadcaster.isClosed = true) (heffect : c.Effect c') :
    c'.broadcaster.isClosed = true := by
  cases heffect with
  | closedStarted hopen hstarted => rfl
  | closedUnstarted hopen hidle => rfl
  | _ => exact h

theorem HasClosed.effect (h : c.HasClosed) (heffect : c.Effect c') : c'.HasClosed := by
  obtain ⟨hclosed, hreturned⟩ := h
  refine ⟨isClosed_effect hclosed heffect, ?_⟩
  cases heffect with
  | started hidle =>
    rw [hidle] at hreturned
    exact Or.inl (hreturned.resolve_right nofun)
  | distributed signal rest hrunning hsource =>
    rw [hrunning] at hreturned
    exact Or.inl (hreturned.resolve_right nofun)
  | closedUnstarted hopen hidle => exact Or.inl rfl
  | _ => exact hreturned

theorem HasClosed.run (h : c.HasClosed) (more : List Action) : (c.run more).HasClosed :=
  run_induction (fun _ _ heffect h => h.effect heffect) more h

theorem IsClosing.effect (h : c.IsClosing) (heffect : c.Effect c') : c'.IsClosing := by
  refine ⟨h.orderly.effect heffect, ?_⟩
  rintro ⟨hclosed, hreturned⟩
  cases heffect with
  | nothing => exact h.ending ⟨hclosed, hreturned⟩
  | listened name hopen =>
    have hclosed : c.broadcaster.isClosed = true := hclosed
    rw [hclosed] at hopen
    cases hopen
  | published e hopen => exact h.ending ⟨hclosed, hreturned⟩
  | started hidle => exact h.ending ⟨hclosed, Or.inl (hreturned.resolve_right nofun)⟩
  | distributed signal rest hrunning hsource =>
    cases signal with
    | closing => exact (c.take .closing rest).forall_isEnding_offer_closing
    | event e =>
      have hbefore := h.ending ⟨hclosed, Or.inl (hreturned.resolve_right nofun)⟩
      intro s hs
      obtain ⟨s₀, hs₀, rfl⟩ := List.mem_map.mp hs
      exact (hbefore s₀ hs₀).offer _
  | received i s hs =>
    have hbefore := h.ending ⟨hclosed, hreturned⟩
    intro t ht
    rcases List.mem_or_eq_of_mem_set ht with ht | rfl
    · exact hbefore t ht
    · exact (hbefore s (List.mem_of_getElem? hs)).receive
  | closedStarted hopen hstarted =>
    exfalso
    rcases hreturned with hunstarted | hfinished
    · rw [h.orderly.unstarted hunstarted] at hopen
      cases hopen
    · rw [(h.orderly.finished hfinished).1] at hopen
      cases hopen
  | closedUnstarted hopen hidle => exact c.shut.forall_isEnding_offer_closing

theorem isClosing_run (limit : Int) (actions : List Action) : ((ofLimit limit).run actions).IsClosing :=
  run_induction (fun _ _ heffect h => h.effect heffect) actions
    ⟨isOrderly_ofLimit limit, fun _ => List.forall_mem_nil _⟩

/-! ### What can still be received -/

/-- What the subscriber at a position can still receive: what is in its queue, and what
    may come from the source. -/
def ahead (c : Course) (s : Subscription) : Nat := s.queue.length + c.broadcaster.source.length

/-- A later state of the subscriber at a position, which has received no more than was ahead. -/
structure GoesOn (c : Course) (s : Subscription) (l : Listener) (c' : Course) (i : Nat) (s' : Subscription)
    (l' : Listener) : Prop where
  subscription : c'.broadcaster.subscriptions[i]? = some s'
  listener : c'.listeners[i]? = some l'
  received : l.received <+: l'.received
  bounded : l'.received.length + c'.ahead s' ≤ l.received.length + c.ahead s
  ahead_le : c'.ahead s' ≤ c.ahead s
  hasEnded : s.hasEnded = true → s'.hasEnded = true

theorem GoesOn.refl {i : Nat} {s : Subscription} {l : Listener}
    (hs : c.broadcaster.subscriptions[i]? = some s) (hl : c.listeners[i]? = some l) : c.GoesOn s l c i s l :=
  ⟨hs, hl, List.prefix_rfl, Nat.le_refl _, Nat.le_refl _, id⟩

variable {i : Nat} {s s' : Subscription} {l l' : Listener}

theorem GoesOn.trans {c'' : Course} {s'' : Subscription} {l'' : Listener} (h : c.GoesOn s l c' i s' l')
    (h' : c'.GoesOn s' l' c'' i s'' l'') : c.GoesOn s l c'' i s'' l'' where
  subscription := h'.subscription
  listener := h'.listener
  received := h.received.trans h'.received
  bounded := Nat.le_trans h'.bounded h.bounded
  ahead_le := Nat.le_trans h'.ahead_le h.ahead_le
  hasEnded := fun hended => h'.hasEnded (h.hasEnded hended)

theorem goesOn_offer (hs : c.broadcaster.subscriptions[i]? = some s) (hl : c.listeners[i]? = some l)
    {signal : Signal} {rest : List Signal} (hsource : c.broadcaster.source = signal :: rest) :
    c.GoesOn s l ((c.take signal rest).offer signal) i (s.offer signal).1 (l.offered s signal) := by
  have hlength := s.length_queue_offer_le_succ signal
  have hahead : ((c.take signal rest).offer signal).ahead (s.offer signal).1 ≤ c.ahead s := by
    simp only [ahead, hsource, List.length_cons]
    show (s.offer signal).1.queue.length + rest.length ≤ _
    omega
  refine ⟨?_, ?_, List.prefix_rfl, Nat.add_le_add_left hahead _, hahead, ?_⟩
  · simp only [offer, take, Broadcaster.fanOut, List.getElem?_map, hs, Option.map_some]
  · exact List.getElem?_zipWith_eq_some.mpr ⟨l, s, hl, hs, rfl⟩
  · rw [s.hasEnded_offer]
    exact id

/-- A subscriber that is about to end and asks for the next event has ended then, or has
    less ahead. -/
theorem goesOn_serve (hs : c.broadcaster.subscriptions[i]? = some s) (hl : c.listeners[i]? = some l)
    (hending : s.IsEnding) :
    c.GoesOn s l (c.serve i s) i s.receive.2 (l.hear s.receive.1)
      ∧ (s.receive.2.hasEnded = true ∨ (c.serve i s).ahead s.receive.2 + 1 = c.ahead s) := by
  have hsubscription := Broadcaster.getElem?_setSubscription hs s.receive.2
  have hlistener : (c.serve i s).listeners[i]? = some (l.hear s.receive.1) := by
    simp [serve, hl]
  rcases hending.receive_cases with ⟨hreceipt, hended, hlength⟩ | ⟨e, hreceipt, -, hlength⟩
  · have hahead : (c.serve i s).ahead s.receive.2 ≤ c.ahead s := Nat.add_le_add_right hlength _
    refine ⟨⟨hsubscription, hlistener, ?_, ?_, hahead, fun _ => hended⟩, Or.inl hended⟩
    · rw [hreceipt]
      exact List.prefix_rfl
    · rw [hreceipt]
      exact Nat.add_le_add_left hahead _
  · have hahead : (c.serve i s).ahead s.receive.2 + 1 = c.ahead s := by
      show s.receive.2.queue.length + c.broadcaster.source.length + 1 = _
      rw [ahead]
      omega
    refine ⟨⟨hsubscription, hlistener, ?_, ?_, by omega, ?_⟩, Or.inr hahead⟩
    · rw [hreceipt]
      exact List.prefix_append _ _
    · rw [hreceipt]
      simp only [Listener.hear, List.length_append, List.length_singleton]
      omega
    · intro hended
      rw [Subscription.receive_of_hasEnded hended] at hreceipt
      cases hreceipt

theorem IsClosing.goesOn_effect (h : c.IsClosing) (hclosed : c.HasClosed) (heffect : c.Effect c')
    (hs : c.broadcaster.subscriptions[i]? = some s) (hl : c.listeners[i]? = some l) :
    ∃ s' l', c.GoesOn s l c' i s' l' := by
  have hstay := GoesOn.refl hs hl
  have hnotOpen : c.broadcaster.isClosed ≠ false := by
    rw [hclosed.1]
    decide
  cases heffect with
  | nothing => exact ⟨s, l, hstay⟩
  | listened name hopen => exact absurd hopen hnotOpen
  | published e hopen => exact absurd hopen hnotOpen
  | started hidle =>
    exact ⟨s, l, hs, hl, hstay.received, hstay.bounded, hstay.ahead_le, hstay.hasEnded⟩
  | distributed signal rest hrunning hsource => exact ⟨_, _, goesOn_offer hs hl hsource⟩
  | received j t ht =>
    by_cases hj : j = i
    · subst hj
      obtain rfl := Option.some.inj (ht.symm.trans hs)
      exact ⟨_, _, (goesOn_serve hs hl (h.ending hclosed t (List.mem_of_getElem? hs))).1⟩
    · refine ⟨s, l, ?_, ?_, hstay.received, hstay.bounded, hstay.ahead_le, hstay.hasEnded⟩
      · simp only [serve, Broadcaster.setSubscription, List.getElem?_set_ne hj, hs]
      · simp [serve, hj, hl]
  | closedStarted hopen hstarted => exact absurd hopen hnotOpen
  | closedUnstarted hopen hidle => exact absurd hopen hnotOpen

/-- Asking takes one away from what is ahead; nothing else adds to it. -/
theorem IsClosing.goesOn_step (h : c.IsClosing) (hclosed : c.HasClosed)
    (hs : c.broadcaster.subscriptions[i]? = some s) (hl : c.listeners[i]? = some l) (a : Action) :
    ∃ s' l', c.GoesOn s l (c.step a) i s' l'
      ∧ (s'.hasEnded = true ∨ (c.step a).ahead s' + [a].count (.receive i) ≤ c.ahead s) := by
  by_cases ha : a = .receive i
  · subst ha
    obtain ⟨hgoes, hend⟩ := goesOn_serve hs hl (h.ending hclosed s (List.mem_of_getElem? hs))
    rw [step_receive hs]
    refine ⟨_, _, hgoes, hend.imp_right ?_⟩
    intro hless
    simp [hless]
  · obtain ⟨s', l', hgoes⟩ := h.goesOn_effect hclosed (c.effect_step a) hs hl
    refine ⟨s', l', hgoes, Or.inr ?_⟩
    rw [List.count_singleton, if_neg (by simpa using ha)]
    exact hgoes.ahead_le

/-- **After the closing there is an end to what a subscriber receives**, whatever happens
    meanwhile: it can receive what was ahead, and each time it asks it has ended or less is
    ahead. -/
theorem IsClosing.goesOn_run (h : c.IsClosing) (hclosed : c.HasClosed)
    (hs : c.broadcaster.subscriptions[i]? = some s) (hl : c.listeners[i]? = some l) (more : List Action) :
    ∃ s' l', c.GoesOn s l (c.run more) i s' l'
      ∧ (s'.hasEnded = true ∨ (c.run more).ahead s' + more.count (.receive i) ≤ c.ahead s) := by
  induction more generalizing c s l with
  | nil => exact ⟨s, l, GoesOn.refl hs hl, Or.inr (Nat.le_refl _)⟩
  | cons a more ih =>
    have hstep := c.effect_step a
    obtain ⟨s₁, l₁, hgoes, hfirst⟩ := h.goesOn_step hclosed hs hl a
    obtain ⟨s', l', hrest, hlast⟩ :=
      ih (h.effect hstep) (hclosed.effect hstep) hgoes.subscription hgoes.listener
    refine ⟨s', l', hgoes.trans hrest, ?_⟩
    have hcount : (a :: more).count (.receive i) = [a].count (.receive i) + more.count (.receive i) := by
      rw [← List.count_append, List.singleton_append]
    rcases hfirst with hended | hfirst
    · exact Or.inl (hrest.hasEnded hended)
    · rcases hlast with hended | hlast
      · exact Or.inl hended
      · right
        show (run (c.step a) more).ahead s' + _ ≤ _
        omega

/-! ### The call returns -/

/-- A distributor that has ended has handed out everything. -/
theorem IsOrderly.distributed_eq (h : c.IsOrderly) (hfinished : c.broadcaster.distributor = .finished) :
    c.distributed = c.published.map .event ++ [.closing] ∧ c.broadcaster.source = [] := by
  obtain ⟨hclosed, hsource⟩ := h.finished hfinished
  have hstream := h.stream
  rw [hsource, hclosed, List.append_nil] at hstream
  exact ⟨hstream, hsource⟩

/-- Once the broadcaster is closed, the source only becomes shorter. -/
theorem source_effect (hclosed : c.broadcaster.isClosed = true) (hstarted : c.broadcaster.distributor ≠ .idle)
    (heffect : c.Effect c') :
    c'.broadcaster.distributor ≠ .idle ∧ c'.broadcaster.source.length ≤ c.broadcaster.source.length := by
  have hnotOpen : c.broadcaster.isClosed ≠ false := by
    rw [hclosed]
    decide
  cases heffect with
  | nothing => exact ⟨hstarted, Nat.le_refl _⟩
  | listened name hopen => exact absurd hopen hnotOpen
  | published e hopen => exact absurd hopen hnotOpen
  | started hidle => exact absurd hidle hstarted
  | distributed signal rest hrunning hsource =>
    refine ⟨c.distributor_take_ne_idle signal rest, ?_⟩
    rw [hsource]
    exact Nat.le_succ _
  | received i s hs => exact ⟨hstarted, Nat.le_refl _⟩
  | closedStarted hopen _ => exact absurd hopen hnotOpen
  | closedUnstarted hopen hidle => exact absurd hopen hnotOpen

theorem IsOrderly.finished_of_source_nil (h : c.IsOrderly) (hclosed : c.broadcaster.isClosed = true)
    (hstarted : c.broadcaster.distributor ≠ .idle) (hsource : c.broadcaster.source = []) :
    c.broadcaster.distributor = .finished := by
  cases hdistributor : c.broadcaster.distributor with
  | idle => exact absurd hdistributor hstarted
  | finished => rfl
  | running =>
    have hstream := h.stream
    rw [hsource, hclosed, List.append_nil] at hstream
    exact absurd (by simp [hstream]) (h.running hdistributor)

/-- A distributor at work ends when it has taken as many steps as there are signals, once the
    broadcaster is closed, whatever else happens meanwhile. -/
theorem IsOrderly.finished_run (h : c.IsOrderly) (hclosed : c.broadcaster.isClosed = true)
    (hstarted : c.broadcaster.distributor ≠ .idle) {more : List Action}
    (hmany : c.broadcaster.source.length ≤ more.count .distribute) :
    (c.run more).broadcaster.distributor = .finished := by
  induction more generalizing c with
  | nil => exact h.finished_of_source_nil hclosed hstarted (List.length_eq_zero_iff.mp (Nat.le_zero.mp hmany))
  | cons a more ih =>
    have heffect := c.effect_step a
    obtain ⟨hstarted', hsource⟩ := source_effect hclosed hstarted heffect
    refine ih (h.effect heffect) (isClosed_effect hclosed heffect) hstarted' ?_
    by_cases ha : a = .distribute
    · subst ha
      rw [List.count_cons_self] at hmany
      cases hnext : c.broadcaster.source with
      | nil =>
        rw [hnext] at hsource
        exact Nat.le_trans hsource (Nat.zero_le _)
      | cons signal rest =>
        -- a distributor that has ended has left nothing in the source
        have hrunning : c.broadcaster.distributor = .running := by
          cases hdistributor : c.broadcaster.distributor with
          | idle => exact absurd hdistributor hstarted
          | running => rfl
          | finished => simp [(h.finished hdistributor).2] at hnext
        rw [step_distribute hrunning hnext]
        rw [hnext] at hmany
        exact Nat.le_of_succ_le_succ hmany
    · rw [List.count_cons_of_ne ha] at hmany
      exact Nat.le_trans hsource hmany

theorem length_source_step_close (hopen : c.broadcaster.isClosed = false) :
    (c.step .close).broadcaster.source.length = c.broadcaster.source.length + 1 := by
  by_cases hidle : c.broadcaster.distributor = .idle
  · rw [step_close_of_idle hopen hidle]
    exact List.length_append
  · rw [step_close_of_started hopen hidle]
    exact List.length_append

/-- **The call to close returns**, at the latest when the distributor has taken what was in
    the source and the closing signal. -/
theorem IsOrderly.hasClosed_run (h : c.IsOrderly) (hopen : c.broadcaster.isClosed = false) {more : List Action}
    (hmany : c.broadcaster.source.length < more.count .distribute) : (c.run (.close :: more)).HasClosed := by
  have hclosed : (c.step .close).broadcaster.isClosed = true := c.broadcaster.isClosed_requestClose
  show ((c.step .close).run more).HasClosed
  by_cases hidle : c.broadcaster.distributor = .idle
  · have hunstarted : (c.step .close).HasClosed := by
      refine ⟨hclosed, Or.inl ?_⟩
      rw [step_close_of_idle hopen hidle]
    exact hunstarted.run more
  · have hstarted : (c.step .close).broadcaster.distributor ≠ .idle := by
      rw [step_close_of_started hopen hidle]
      exact hidle
    have hkept := run_induction (P := fun c => c.broadcaster.isClosed = true)
      (fun _ _ heffect h => isClosed_effect h heffect) more hclosed
    refine ⟨hkept, Or.inr ((h.effect (c.effect_step .close)).finished_run hclosed hstarted ?_)⟩
    rw [length_source_step_close hopen]
    exact hmany

/-! ### After the closing -/

/-- **Closing ends every subscriber.**  The call to close returns when the distributor goes
    on, whatever else happens.  When the first call has returned, then whatever happens next,
    every subscriber has ended or finds the closing signal in its queue; it never waits, and
    if it goes on receiving it gets events and then the end; it receives no more events than
    were ahead, and has ended when it has asked more often than that, no matter what happened
    in between.  If the distributor had been started, it has handed out all that was published
    and the closing signal behind it, and nothing is left.  A closed broadcaster refuses to
    publish and to listen, and stays as it is. -/
theorem closing_ends_subscribers {actions : List Action} (hc : (ofLimit limit).run actions = c) :
    (c.broadcaster.isClosed = false → ∀ more : List Action,
        c.broadcaster.source.length < more.count .distribute → (c.run (.close :: more)).HasClosed)
      ∧ (c.HasClosed → ∀ more : List Action,
        (∀ s ∈ (c.run more).broadcaster.subscriptions, s.hasEnded = true ∨ .closing ∈ s.queue)
          ∧ (∀ (i : Nat) s, (c.run more).broadcaster.subscriptions[i]? = some s →
            ((c.run more).broadcaster.receive i).1 ≠ .waiting
              ∧ ∃ events : List Event, ((c.run more).broadcaster.receiveUpTo i (s.queue.length + 1)).1
                = events.map .event ++ [.ended])
          ∧ ∀ (i : Nat) s l, c.broadcaster.subscriptions[i]? = some s → c.listeners[i]? = some l →
            ∃ s' l', (c.run more).broadcaster.subscriptions[i]? = some s' ∧ (c.run more).listeners[i]? = some l'
              ∧ l.received <+: l'.received
              ∧ l'.received.length ≤ l.received.length + (s.queue.length + c.broadcaster.source.length)
              ∧ (s.queue.length + c.broadcaster.source.length < more.count (.receive i) → s'.hasEnded = true))
      ∧ (c.HasClosed → c.closedUnstarted = false →
        c.distributed = c.published.map .event ++ [.closing] ∧ c.broadcaster.source = [])
      ∧ ∀ b : Course, b.broadcaster.isClosed = true →
        (∀ e, b.broadcaster.publish e = .error .publish ∧ b.step (.publish e) = b)
          ∧ ∀ name, b.broadcaster.listen name = .error .listen ∧ b.step (.listen name) = b := by
  have h : c.IsClosing := hc ▸ isClosing_run limit actions
  refine ⟨?_, ?_, ?_, ?_⟩
  · intro hopen more hmany
    exact h.orderly.hasClosed_run hopen hmany
  · intro hclosed more
    have hlater : (c.run more).IsClosing := run_induction (fun _ _ heffect h => h.effect heffect) more h
    have hending := hlater.ending (hclosed.run more)
    refine ⟨hending, ?_, ?_⟩
    · intro i s hs
      have hs' := hending s (List.mem_of_getElem? hs)
      exact ⟨Broadcaster.receive_ne_waiting hs hs', Broadcaster.receiveUpTo_of_isEnding hs hs'⟩
    · intro i s l hs hl
      obtain ⟨s', l', hgoes, hend⟩ := h.goesOn_run hclosed hs hl more
      have hbounded := hgoes.bounded
      simp only [ahead] at hbounded hend
      refine ⟨s', l', hgoes.subscription, hgoes.listener, hgoes.received, by omega, ?_⟩
      intro hasked
      rcases hend with hended | hless
      · exact hended
      · omega
  · intro hclosed hstarted
    exact h.orderly.distributed_eq (hclosed.2.resolve_left (by rw [hstarted]; exact nofun))
  · intro b hb
    refine ⟨fun e => ⟨?_, step_publish_of_isClosed hb e⟩, fun name => ⟨?_, step_listen_of_isClosed hb name⟩⟩
    · rw [Broadcaster.publish, if_pos hb]
    · rw [Broadcaster.listen, if_pos hb]

/-- A subscriber with room for two, with one event in its queue when the broadcaster closes. -/
def closingActions : List Action :=
  [.listen (Text.of "s"), .start, .publish ⟨.created, Text.of "u1", [], 9, 0⟩, .close, .distribute, .distribute]

theorem closing_ends_subscribers_started :
    ∃ c s' l', (ofLimit 2).run closingActions = c ∧ c.HasClosed
      ∧ c.distributed = c.published.map .event ++ [.closing]
      ∧ (c.run [.receive 0, .start, .receive 0, .receive 0]).broadcaster.subscriptions[0]? = some s'
      ∧ (c.run [.receive 0, .start, .receive 0, .receive 0]).listeners[0]? = some l'
      ∧ l'.received = c.published ∧ s'.hasEnded = true := by
  have hclosed : ((ofLimit 2).run closingActions).HasClosed := ⟨rfl, Or.inr rfl⟩
  obtain ⟨-, hlater, hgraceful, -⟩ := closing_ends_subscribers (rfl : (ofLimit 2).run closingActions = _)
  obtain ⟨-, -, hends⟩ := hlater hclosed [.receive 0, .start, .receive 0, .receive 0]
  obtain ⟨s', l', hs', hl', -, -, hend⟩ := hends 0 _ _ rfl rfl
  refine ⟨_, s', l', rfl, hclosed, (hgraceful hclosed rfl).1, hs', hl', ?_, hend (by decide)⟩
  cases hl'
  rfl

end Course

end UploadGate
