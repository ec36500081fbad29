/-
  UploadGate/Proofs/Broadcast/Isolation.lean
  ==========================================
  **What one subscriber gets does not depend on the others.**

  Two runs that differ only in when and how often the other subscribers ask are
  the same run for this one: after corresponding actions it has received the
  same events and finds the same queue, and publishing is refused in both or in
  neither.

  An action that is no request of another subscriber keeps two courses alike
  (`Alike.step`), and such a request makes a course no different from what it was
  (`alike_step_of_not_concerns`).  So every run is alike to the run without these
  requests (`Alike.run_filter`).
-/
import UploadGate.Proofs.Broadcast.Course

namespace UploadGate.Course

/-- An action is no request of a subscriber other than the one at a position. -/
def Action.concerns (i : Nat) : Action → Bool
  | .receive j => j = i
  | _ => true

/-- Two courses that differ at most in what the other subscribers have received. -/
structure Alike (i : Nat) (c c' : Course) : Prop where
  queueLimit : c.broadcaster.queueLimit = c'.broadcaster.queueLimit
  source : c.broadcaster.source = c'.broadcaster.source
  distributor : c.broadcaster.distributor = c'.broadcaster.distributor
  isClosed : c.broadcaster.isClosed = c'.broadcaster.isClosed
  published : c.published = c'.published
  distributed : c.distributed = c'.distributed
  closedUnstarted : c.closedUnstarted = c'.closedUnstarted
  subscriptions : c.broadcaster.subscriptions.length = c'.broadcaster.subscriptions.length
  listeners : c.listeners.length = c'.listeners.length
  subscription : c.broadcaster.subscriptions[i]? = c'.broadcaster.subscriptions[i]?
  listener : c.listeners[i]? = c'.listeners[i]?

variable {i : Nat} {c c' c'' : Course}

theorem Alike.refl (i : Nat) (c : Course) : c.Alike i c :=
  ⟨rfl, rfl, rfl, rfl, rfl, rfl, rfl, rfl, rfl, rfl, rfl⟩

theorem Alike.symm (h : c.Alike i c') : c'.Alike i c :=
  ⟨h.queueLimit.symm, h.source.symm, h.distributor.symm, h.isClosed.symm, h.published.symm,
    h.distributed.symm, h.closedUnstarted.symm, h.subscriptions.symm, h.listeners.symm,
    h.subscription.symm, h.listener.symm⟩

theorem Alike.trans (h : c.Alike i c') (h' : c'.Alike i c'') : c.Alike i c'' :=
  ⟨h.queueLimit.trans h'.queueLimit, h.source.trans h'.source, h.distributor.trans h'.distributor,
    h.isClosed.trans h'.isClosed, h.published.trans h'.published, h.distributed.trans h'.distributed,
    h.closedUnstarted.trans h'.closedUnstarted, h.subscriptions.trans h'.subscriptions,
    h.listeners.trans h'.listeners, h.subscription.trans h'.subscription, h.listener.trans h'.listener⟩

/-! ### Actions keep courses alike -/

theorem Alike.offer (h : c.Alike i c') (signal : Signal) : (c.offer signal).Alike i (c'.offer signal) := by
  refine { h with subscriptions := ?_, listeners := ?_, subscription := ?_, listener := ?_ }
  · simp only [Course.offer, Broadcaster.fanOut, List.length_map]
    exact h.subscriptions
  · simp only [Course.offer, audience, List.length_zipWith]
    rw [h.subscriptions, h.listeners]
  · simp only [Course.offer, Broadcaster.fanOut, List.getElem?_map]
    rw [h.subscription]
  · simp only [Course.offer, audience, List.getElem?_zipWith]
    rw [h.subscription, h.listener]

theorem Alike.enlist (h : c.Alike i c') (name : Text) : (c.enlist name).Alike i (c'.enlist name) := by
  refine { h with subscriptions := ?_, listeners := ?_, subscription := ?_, listener := ?_ }
  · simp only [Course.enlist, List.length_append]
    rw [h.subscriptions]
    rfl
  · simp only [Course.enlist, List.length_append]
    rw [h.listeners]
    rfl
  · simp only [Course.enlist, List.getElem?_append]
    rw [h.subscription, h.subscriptions, h.queueLimit]
  · simp only [Course.enlist, List.getElem?_append]
    rw [h.listener, h.listeners, h.distributed]

theorem Alike.take (h : c.Alike i c') (signal : Signal) (rest : List Signal) :
    (c.take signal rest).Alike i (c'.take signal rest) := by
  have hdistributed : c.distributed ++ [signal] = c'.distributed ++ [signal] := by rw [h.distributed]
  exact { h with source := rfl, distributor := rfl, distributed := hdistributed }

theorem Alike.shut (h : c.Alike i c') : c.shut.Alike i c'.shut := by
  have hsource : c.broadcaster.source ++ [Signal.closing] = c'.broadcaster.source ++ [.closing] := by
    rw [h.source]
  exact { h with source := hsource, isClosed := rfl }

theorem Alike.serve (h : c.Alike i c') {s : Subscription} (hs : c.broadcaster.subscriptions[i]? = some s) :
    (c.serve i s).Alike i (c'.serve i s) := by
  refine { h with subscriptions := ?_, listeners := ?_, subscription := ?_, listener := ?_ }
  · simp only [Course.serve, Broadcaster.setSubscription, List.length_set]
    exact h.subscriptions
  · simp only [Course.serve, List.length_modify]
    exact h.listeners
  · have hs' := h.subscription ▸ hs
    exact (Broadcaster.getElem?_setSubscription hs _).trans (Broadcaster.getElem?_setSubscription hs' _).symm
  · simp only [Course.serve, List.getElem?_modify]
    rw [h.listener]

/-- What another subscriber takes is gone for that one alone. -/
theorem alike_serve {j : Nat} (hj : j ≠ i) (s : Subscription) : c.Alike i (c.serve j s) := by
  refine { Alike.refl i c with subscriptions := ?_, listeners := ?_, subscription := ?_, listener := ?_ }
  · simp only [Course.serve, Broadcaster.setSubscription, List.length_set]
  · simp only [Course.serve, List.length_modify]
  · simp only [Course.serve, Broadcaster.setSubscription, List.getElem?_set_ne hj]
  · simp [Course.serve, hj]

theorem alike_step_of_not_concerns {a : Action} (ha : a.concerns i = false) : c.Alike i (c.step a) := by
  cases a with
  | receive j =>
    have hj : j ≠ i := by simpa [Action.concerns] using ha
    cases hs : c.broadcaster.subscriptions[j]? with
    | none =>
      rw [step_receive_of_none hs]
      exact Alike.refl i c
    | some s =>
      rw [step_receive hs]
      exact alike_serve hj s
  | listen name => cases ha
  | publish e => cases ha
  | start => cases ha
  | distribute => cases ha
  | close => cases ha

theorem Alike.next?_eq (h : c.Alike i c') : c.next? = c'.next? := by
  rw [next?, next?, h.distributor, h.source]

theorem Alike.step_distribute (h : c.Alike i c') : (c.step .distribute).Alike i (c'.step .distribute) := by
  cases hnext : c.next? with
  | none =>
    rw [step_distribute_of_next?_eq_none hnext,
      step_distribute_of_next?_eq_none (h.next?_eq ▸ hnext)]
    exact h
  | some signal =>
    obtain ⟨hrunning, rest, hsource⟩ := next?_eq_some_iff.mp hnext
    rw [Course.step_distribute hrunning hsource,
      Course.step_distribute (h.distributor ▸ hrunning) (h.source ▸ hsource)]
    exact (h.take signal rest).offer signal

theorem Alike.step_close (h : c.Alike i c') : (c.step .close).Alike i (c'.step .close) := by
  cases hclosed : c.broadcaster.isClosed with
  | true =>
    rw [step_close_of_isClosed hclosed, step_close_of_isClosed (h.isClosed ▸ hclosed)]
    exact h
  | false =>
    by_cases hidle : c.broadcaster.distributor = .idle
    · rw [step_close_of_idle hclosed hidle,
        step_close_of_idle (h.isClosed ▸ hclosed) (h.distributor ▸ hidle)]
      exact { h.shut.offer .closing with closedUnstarted := rfl }
    · rw [step_close_of_started hclosed hidle,
        step_close_of_started (h.isClosed ▸ hclosed) (h.distributor ▸ hidle)]
      exact h.shut

/-- An action that concerns a subscriber does the same to it in two courses that are alike. -/
theorem Alike.step (h : c.Alike i c') {a : Action} (ha : a.concerns i = true) :
    (c.step a).Alike i (c'.step a) := by
  cases a with
  | listen name =>
    cases hclosed : c.broadcaster.isClosed with
    | true =>
      rw [step_listen_of_isClosed hclosed, step_listen_of_isClosed (h.isClosed ▸ hclosed)]
      exact h
    | false =>
      rw [step_listen hclosed, step_listen (h.isClosed ▸ hclosed)]
      exact h.enlist name
  | publish e =>
    cases hclosed : c.broadcaster.isClosed with
    | true =>
      rw [step_publish_of_isClosed hclosed, step_publish_of_isClosed (h.isClosed ▸ hclosed)]
      exact h
    | false =>
      rw [step_publish hclosed, step_publish (h.isClosed ▸ hclosed), h.source, h.published]
      exact { h with source := rfl, published := rfl }
  | start =>
    by_cases hidle : c.broadcaster.distributor = .idle
    · simp only [Course.step, Broadcaster.start, if_pos hidle, if_pos (h.distributor ▸ hidle)]
      exact { h with distributor := rfl }
    · simp only [Course.step, Broadcaster.start, if_neg hidle, if_neg (h.distributor ▸ hidle)]
      exact h
  | distribute => exact h.step_distribute
  | receive j =>
    obtain rfl : j = i := by simpa [Action.concerns] using ha
    cases hs : c.broadcaster.subscriptions[j]? with
    | none =>
      rw [step_receive_of_none hs, step_receive_of_none (h.subscription ▸ hs)]
      exact h
    | some s =>
      rw [step_receive hs, step_receive (h.subscription ▸ hs)]
      exact h.serve hs
  | close => exact h.step_close

/-- A run is alike to the run without the requests of the others. -/
theorem Alike.run_filter (h : c.Alike i c') (actions : List Action) :
    (c.run actions).Alike i (c'.run (actions.filter (·.concerns i))) := by
  induction actions generalizing c c' with
  | nil => exact h
  | cons a actions ih =>
    cases ha : a.concerns i with
    | true =>
      rw [List.filter_cons_of_pos ha]
      exact ih (h.step ha)
    | false =>
      rw [List.filter_cons_of_neg (by simp [ha])]
      exact ih ((alike_step_of_not_concerns ha).symm.trans h)

/-! ### Two runs -/

/-- **Subscribers are isolated from each other.**  Let two runs have the same actions, requests
    of the other subscribers apart, and stop each after as many of these actions.  Then the
    subscriber at the position has received, missed and been reported the same, its queue and
    its count of dropped events are the same, and the next publishing is refused in both or in
    neither. -/
theorem isolated_run (limit : Int) {actions actions' early early' : List Action}
    (hsame : actions.filter (·.concerns i) = actions'.filter (·.concerns i))
    (hearly : early <+: actions) (hearly' : early' <+: actions')
    (hcount : (early.filter (·.concerns i)).length = (early'.filter (·.concerns i)).length) :
    ((ofLimit limit).run early).listeners[i]? = ((ofLimit limit).run early').listeners[i]?
      ∧ ((ofLimit limit).run early).broadcaster.subscriptions[i]?
        = ((ofLimit limit).run early').broadcaster.subscriptions[i]?
      ∧ ∀ e, (((ofLimit limit).run early).broadcaster.publish e).map (fun _ => ())
        = (((ofLimit limit).run early').broadcaster.publish e).map (fun _ => ()) := by
  have hprefix : early.filter (·.concerns i) <+: actions.filter (·.concerns i) := hearly.filter _
  have hprefix' : early'.filter (·.concerns i) <+: actions.filter (·.concerns i) :=
    hsame ▸ hearly'.filter _
  have hfilter : early.filter (·.concerns i) = early'.filter (·.concerns i) :=
    (List.prefix_of_prefix_length_le hprefix hprefix' (Nat.le_of_eq hcount)).eq_of_length hcount
  have halike := (Alike.refl i (ofLimit limit)).run_filter early
  rw [hfilter] at halike
  have h := halike.trans ((Alike.refl i (ofLimit limit)).run_filter early').symm
  refine ⟨h.listener, h.subscription, ?_⟩
  intro e
  rw [Broadcaster.publish, Broadcaster.publish, h.isClosed]
  split
  · rfl
  · rfl

/-- A run with two subscribers, in which the second asks whenever it is told to. -/
def runBeside (asks : List Action) : List Action :=
  [.listen (Text.of "s"), .listen (Text.of "beside"), .start,
    .publish ⟨.created, Text.of "u1", [], 9, 0⟩, .distribute] ++ asks
    ++ [.publish ⟨.progress, Text.of "u1", [], 9, 5⟩, .receive 0, .distribute] ++ asks
    ++ [.close, .distribute]

/-- Beside a subscriber that never asks and beside one that asks at once, with room for one
    event each: the one beside it fares differently, and the first subscriber does not. -/
theorem isolated_run_stuck :
    (runBeside []).filter (·.concerns 0) = (runBeside [.receive 1]).filter (·.concerns 0)
      ∧ ((ofLimit 1).run (runBeside [])).broadcaster.subscriptions[1]?
        ≠ ((ofLimit 1).run (runBeside [.receive 1])).broadcaster.subscriptions[1]?
      ∧ ((ofLimit 1).run (runBeside [])).listeners[0]?
        = ((ofLimit 1).run (runBeside [.receive 1])).listeners[0]?
      ∧ ((ofLimit 1).run (runBeside [])).broadcaster.subscriptions[0]?
        = ((ofLimit 1).run (runBeside [.receive 1])).broadcaster.subscriptions[0]? := by
  have hsame : (runBeside []).filter (·.concerns 0) = (runBeside [.receive 1]).filter (·.concerns 0) := rfl
  obtain ⟨hlistener, hsubscription, -⟩ :=
    isolated_run 1 hsame List.prefix_rfl List.prefix_rfl (congrArg List.length hsame)
  exact ⟨hsame, by decide, hlistener, hsubscription⟩

end UploadGate.Course
