/-
  UploadGate/Proofs/Broadcast/Course.lean
  =======================================
  **Everything that may happen to a broadcaster, in any order.**

  A course is a broadcaster with its history: what was published, what the
  distributor handed out, and for each subscriber what it received, what it
  missed and which records were written about it.  The history only looks on:
  the broadcaster of a course moves by its own operations and by nothing else.

  Closing takes time, and anything may come in between.  The action `close` is
  the call up to where it waits; the wait is for the distributor, which goes on
  by the action `distribute`.  So the call has returned (`HasClosed`) when it
  had nothing to wait for or the distributor has ended.  Left alone, the
  distributor needs one step for each signal.

  What an action does is said once, in `effect_step`; whatever holds of all
  courses is derived from that.
-/
import UploadGate.Proofs.Broadcast.Delivery

namespace UploadGate

/-! ### What a subscriber misses -/

namespace Subscription

/-- The events that find the queue full when a signal is offered. -/
def refused (s : Subscription) : Signal → List Event
  | .event e => if s.isFull then [e] else []
  | .closing => []

/-- The events that leave the queue to make room when a signal is offered. -/
def displaced (s : Subscription) : Signal → List Event
  | .event _ => []
  | .closing => if s.isFull then (s.queue.take 1).filterMap Signal.event? else []

/-- Offering a signal changes nothing but the queue and the count. -/
theorem exists_offer_eq (s : Subscription) (signal : Signal) :
    ∃ queue dropped, (s.offer signal).1 = { s with queue, dropped } := by
  cases signal with
  | event e =>
    simp only [offer, offerEvent]
    split
    · exact ⟨_, _, rfl⟩
    · exact ⟨_, _, rfl⟩
  | closing =>
    simp only [offer, offerClosing]
    split
    · exact ⟨_, _, rfl⟩
    · exact ⟨_, _, rfl⟩

end Subscription

/-! ### Courses -/

structure Listener where
  /-- The number of signals that had been handed out when it subscribed. -/
  joined : Nat
  received : List Event := []
  /-- The events that found its queue full. -/
  refused : List Event := []
  /-- The events that left its queue for the closing signal. -/
  displaced : List Event := []
  /-- The records written about it. -/
  reports : List LogRecord := []
deriving DecidableEq, Repr

namespace Listener

def offered (l : Listener) (s : Subscription) (signal : Signal) : Listener :=
  { l with
    refused := l.refused ++ s.refused signal
    displaced := l.displaced ++ s.displaced signal
    reports := l.reports ++ (s.offer signal).2 }

def hear (l : Listener) : Subscription.Receipt → Listener
  | .event e => { l with received := l.received ++ [e] }
  | .waiting => l
  | .ended => l

end Listener

/-- A broadcaster and what has happened since it was made. -/
structure Course where
  broadcaster : Broadcaster
  published : List Event := []
  /-- The signals that the distributor has handed out. -/
  distributed : List Signal := []
  /-- The subscribers, each of the subscription at its position. -/
  listeners : List Listener := []
  records : List LogRecord := []
  /-- Whether the closing found that the distributor was never started. -/
  closedUnstarted : Bool := false
deriving DecidableEq, Repr

namespace Course

inductive Action where
  | listen (name : Text)
  | publish (e : Event)
  | start
  | distribute
  | receive (i : Nat)
  | close
deriving DecidableEq, Repr

def audience (c : Course) (signal : Signal) : List Listener :=
  List.zipWith (fun l s => l.offered s signal) c.listeners c.broadcaster.subscriptions

/-- The signal that the distributor hands out next. -/
def next? (c : Course) : Option Signal :=
  if c.broadcaster.distributor = .running then c.broadcaster.source.head? else none

/-- Whether closing would send the closing signal itself. -/
def closesUnstarted (c : Course) : Bool := !c.broadcaster.isClosed && c.broadcaster.distributor = .idle

def step (c : Course) : Action → Course
  | .listen name =>
    match c.broadcaster.listen name with
    | .error _ => c
    | .ok b => { c with broadcaster := b, listeners := c.listeners ++ [{ joined := c.distributed.length }] }
  | .publish e =>
    match c.broadcaster.publish e with
    | .error _ => c
    | .ok b => { c with broadcaster := b, published := c.published ++ [e] }
  | .start => { c with broadcaster := c.broadcaster.start }
  | .distribute =>
    { c with
      broadcaster := c.broadcaster.distributeOne.1
      distributed := c.distributed ++ c.next?.toList
      listeners := c.next?.elim c.listeners c.audience
      records := c.records ++ c.broadcaster.distributeOne.2 }
  | .receive i =>
    { c with
      broadcaster := (c.broadcaster.receive i).2
      listeners := c.listeners.modify i (·.hear (c.broadcaster.receive i).1) }
  | .close =>
    { c with
      broadcaster := c.broadcaster.requestClose.1
      listeners := if c.closesUnstarted then c.audience .closing else c.listeners
      records := c.records ++ c.broadcaster.requestClose.2
      closedUnstarted := c.closedUnstarted || c.closesUnstarted }

def run (c : Course) (actions : List Action) : Course := actions.foldl step c

def ofLimit (limit : Int) : Course := { broadcaster := { queueLimit := limit } }

/-- The first call that closed the broadcaster has returned. -/
def HasClosed (c : Course) : Prop :=
  c.broadcaster.isClosed = true
    ∧ (c.closedUnstarted = true ∨ c.broadcaster.distributor = .finished)

/-- The events that the distributor has handed out since a subscriber is there. -/
def heard (c : Course) (l : Listener) : List Event :=
  (c.distributed.drop l.joined).filterMap Signal.event?

variable {c c' : Course}

theorem run_append (c : Course) (early late : List Action) :
    c.run (early ++ late) = (c.run early).run late :=
  List.foldl_append

/-! ### What an action does

A signal is offered to all subscribers (`offer`), a subscriber comes (`enlist`) or asks for
the next event (`serve`), the distributor takes the first signal from the source (`take`), the
closing signal is put onto the source (`shut`).
-/

def offer (c : Course) (signal : Signal) : Course :=
  { c with
    broadcaster := (c.broadcaster.fanOut signal).1
    listeners := c.audience signal
    records := c.records ++ (c.broadcaster.fanOut signal).2 }

def enlist (c : Course) (name : Text) : Course :=
  { c with
    broadcaster := { c.broadcaster with
      subscriptions := c.broadcaster.subscriptions ++ [{ name, limit := c.broadcaster.queueLimit }] }
    listeners := c.listeners ++ [{ joined := c.distributed.length }] }

def serve (c : Course) (i : Nat) (s : Subscription) : Course :=
  { c with
    broadcaster := c.broadcaster.setSubscription i s.receive.2
    listeners := c.listeners.modify i (·.hear s.receive.1) }

def take (c : Course) (signal : Signal) (rest : List Signal) : Course :=
  { c with
    broadcaster := { c.broadcaster with
      source := rest
      distributor := if signal = Signal.closing then .finished else .running }
    distributed := c.distributed ++ [signal] }

def shut (c : Course) : Course :=
  { c with broadcaster := { c.broadcaster with
      isClosed := true
      source := c.broadcaster.source ++ [.closing] } }

inductive Effect (c : Course) : Course → Prop
  | nothing : c.Effect c
  | listened (name : Text) (hopen : c.broadcaster.isClosed = false) : c.Effect (c.enlist name)
  | published (e : Event) (hopen : c.broadcaster.isClosed = false) :
      c.Effect { c with
        broadcaster := { c.broadcaster with source := c.broadcaster.source ++ [.event e] }
        published := c.published ++ [e] }
  | started (hidle : c.broadcaster.distributor = .idle) :
      c.Effect { c with broadcaster := { c.broadcaster with distributor := .running } }
  | distributed (signal : Signal) (rest : List Signal) (hrunning : c.broadcaster.distributor = .running)
      (hsource : c.broadcaster.source = signal :: rest) :
      c.Effect ((c.take signal rest).offer signal)
  | received (i : Nat) (s : Subscription) (hs : c.broadcaster.subscriptions[i]? = some s) :
      c.Effect (c.serve i s)
  | closedStarted (hopen : c.broadcaster.isClosed = false) (hstarted : c.broadcaster.distributor ≠ .idle) :
      c.Effect c.shut
  | closedUnstarted (hopen : c.broadcaster.isClosed = false) (hidle : c.broadcaster.distributor = .idle) :
      c.Effect { c.shut.offer .closing with closedUnstarted := true }

theorem step_listen (hopen : c.broadcaster.isClosed = false) (name : Text) :
    c.step (.listen name) = c.enlist name := by
  have hlisten : c.broadcaster.listen name = .ok _ := if_neg (Bool.eq_false_iff.mp hopen)
  simp only [step, hlisten]
  rfl

theorem step_listen_of_isClosed (h : c.broadcaster.isClosed = true) (name : Text) :
    c.step (.listen name) = c := by
  simp only [step, Broadcaster.listen, h, if_true]

theorem step_publish (hopen : c.broadcaster.isClosed = false) (e : Event) :
    c.step (.publish e) = { c with
      broadcaster := { c.broadcaster with source := c.broadcaster.source ++ [.event e] }
      published := c.published ++ [e] } := by
  have hpublish : c.broadcaster.publish e = .ok _ := if_neg (Bool.eq_false_iff.mp hopen)
  simp only [step, hpublish]

theorem step_publish_of_isClosed (h : c.broadcaster.isClosed = true) (e : Event) :
    c.step (.publish e) = c := by
  simp only [step, Broadcaster.publish, h, if_true]

theorem step_distribute (hrunning : c.broadcaster.distributor = .running) {signal : Signal}
    {rest : List Signal} (hsource : c.broadcaster.source = signal :: rest) :
    c.step .distribute = (c.take signal rest).offer signal := by
  have hone : c.broadcaster.distributeOne = (c.take signal rest).broadcaster.fanOut signal := by
    simp only [Broadcaster.distributeOne, hrunning, hsource, take, ne_eq, not_true_eq_false, if_false]
  have hnext : c.next? = some signal := by
    rw [next?, if_pos hrunning, hsource]
    rfl
  simp only [step, hone, hnext]
  rfl

theorem next?_eq_some_iff {signal : Signal} :
    c.next? = some signal ↔ c.broadcaster.distributor = .running ∧ ∃ rest, c.broadcaster.source = signal :: rest := by
  unfold next?
  split <;> rename_i hrunning <;> simp [hrunning, List.head?_eq_some_iff]

theorem step_distribute_of_next?_eq_none (h : c.next? = none) : c.step .distribute = c := by
  have hone : c.broadcaster.distributeOne = (c.broadcaster, []) := by
    unfold Broadcaster.distributeOne
    split
    · rfl
    · rename_i hworks
      have hrunning : c.broadcaster.distributor = .running := by simpa using hworks
      rw [next?, if_pos hrunning, List.head?_eq_none_iff] at h
      rw [h]
  simp [step, hone, h]

theorem step_receive {i : Nat} {s : Subscription} (hs : c.broadcaster.subscriptions[i]? = some s) :
    c.step (.receive i) = c.serve i s := by
  simp only [step, Broadcaster.receive_of_getElem? hs]
  rfl

theorem step_receive_of_none {i : Nat} (hs : c.broadcaster.subscriptions[i]? = none) :
    c.step (.receive i) = c := by
  have hreceive : c.broadcaster.receive i = (.ended, c.broadcaster) := by
    rw [Broadcaster.receive, hs]
  have hsame : c.listeners.modify i (·.hear .ended) = c.listeners := List.modify_id i c.listeners
  simp only [step, hreceive, hsame]

theorem step_close_of_isClosed (h : c.broadcaster.isClosed = true) : c.step .close = c := by
  simp [step, Broadcaster.requestClose, closesUnstarted, h]

theorem step_close_of_idle (hopen : c.broadcaster.isClosed = false) (hidle : c.broadcaster.distributor = .idle) :
    c.step .close = { c.shut.offer .closing with closedUnstarted := true } := by
  simp [step, Broadcaster.requestClose, closesUnstarted, hopen, hidle, shut, offer, audience]

theorem step_close_of_started (hopen : c.broadcaster.isClosed = false)
    (hstarted : c.broadcaster.distributor ≠ .idle) : c.step .close = c.shut := by
  simp [step, Broadcaster.requestClose, closesUnstarted, hopen, hstarted, shut]

/-- **What an action can do.** -/
theorem effect_step (c : Course) (a : Action) : c.Effect (c.step a) := by
  cases a with
  | listen name =>
    cases hopen : c.broadcaster.isClosed with
    | true =>
      rw [step_listen_of_isClosed hopen]
      exact .nothing
    | false =>
      rw [step_listen hopen]
      exact .listened name hopen
  | publish e =>
    cases hopen : c.broadcaster.isClosed with
    | true =>
      rw [step_publish_of_isClosed hopen]
      exact .nothing
    | false =>
      rw [step_publish hopen]
      exact .published e hopen
  | start =>
    by_cases hidle : c.broadcaster.distributor = .idle
    · simp only [step, Broadcaster.start, if_pos hidle]
      exact .started hidle
    · simp only [step, Broadcaster.start, if_neg hidle]
      exact .nothing
  | distribute =>
    by_cases hrunning : c.broadcaster.distributor = .running
    · cases hsource : c.broadcaster.source with
      | nil =>
        rw [step_distribute_of_next?_eq_none (by rw [next?, if_pos hrunning, hsource]; rfl)]
        exact .nothing
      | cons signal rest =>
        rw [step_distribute hrunning hsource]
        exact .distributed signal rest hrunning hsource
    · rw [step_distribute_of_next?_eq_none (by rw [next?, if_neg hrunning])]
      exact .nothing
  | receive i =>
    cases hs : c.broadcaster.subscriptions[i]? with
    | none =>
      rw [step_receive_of_none hs]
      exact .nothing
    | some s =>
      rw [step_receive hs]
      exact .received i s hs
  | close =>
    cases hopen : c.broadcaster.isClosed with
    | true =>
      rw [step_close_of_isClosed hopen]
      exact .nothing
    | false =>
      by_cases hidle : c.broadcaster.distributor = .idle
      · rw [step_close_of_idle hopen hidle]
        exact .closedUnstarted hopen hidle
      · rw [step_close_of_started hopen hidle]
        exact .closedStarted hopen hidle

/-- What every effect keeps holds after any actions if it held before. -/
theorem run_induction {P : Course → Prop} (heffect : ∀ c c', c.Effect c' → P c → P c')
    (actions : List Action) (h : P c) : P (c.run actions) := by
  induction actions generalizing c with
  | nil => exact h
  | cons a actions ih => exact ih (heffect c (c.step a) (c.effect_step a) h)

/-! ### Subscribers and their histories -/

theorem exists_listener (hcount : c.listeners.length = c.broadcaster.subscriptions.length) {i : Nat}
    {s : Subscription} (hs : c.broadcaster.subscriptions[i]? = some s) : ∃ l, c.listeners[i]? = some l := by
  obtain ⟨hi, -⟩ := List.getElem?_eq_some_iff.mp hs
  exact ⟨_, List.getElem?_eq_getElem (hcount ▸ hi)⟩

theorem exists_subscription (hcount : c.listeners.length = c.broadcaster.subscriptions.length) {i : Nat}
    {l : Listener} (hl : c.listeners[i]? = some l) : ∃ s, c.broadcaster.subscriptions[i]? = some s := by
  obtain ⟨hi, -⟩ := List.getElem?_eq_some_iff.mp hl
  exact ⟨_, List.getElem?_eq_getElem (hcount ▸ hi)⟩

theorem offer_cases {signal : Signal} {i : Nat} {s : Subscription} {l : Listener}
    (hs : (c.offer signal).broadcaster.subscriptions[i]? = some s)
    (hl : (c.offer signal).listeners[i]? = some l) :
    ∃ s₀ l₀, c.broadcaster.subscriptions[i]? = some s₀ ∧ c.listeners[i]? = some l₀
      ∧ s = (s₀.offer signal).1 ∧ l = l₀.offered s₀ signal := by
  obtain ⟨l₀, s₀, hl₀, hs₀, rfl⟩ := List.getElem?_zipWith_eq_some.mp hl
  refine ⟨s₀, l₀, hs₀, hl₀, ?_, rfl⟩
  simp only [offer, Broadcaster.fanOut, List.getElem?_map, hs₀, Option.map_some, Option.some.injEq] at hs
  exact hs.symm

theorem mem_audience {signal : Signal} {l : Listener} (h : l ∈ c.audience signal) :
    ∃ (i : Nat) (s₀ : Subscription) (l₀ : Listener), c.broadcaster.subscriptions[i]? = some s₀
      ∧ c.listeners[i]? = some l₀ ∧ l = l₀.offered s₀ signal := by
  obtain ⟨i, hi⟩ := List.mem_iff_getElem?.mp h
  obtain ⟨l₀, s₀, hl₀, hs₀, rfl⟩ := List.getElem?_zipWith_eq_some.mp hi
  exact ⟨i, s₀, l₀, hs₀, hl₀, rfl⟩

theorem serve_cases {i j : Nat} {s t : Subscription} {l : Listener}
    (hs : c.broadcaster.subscriptions[i]? = some s)
    (ht : (c.serve i s).broadcaster.subscriptions[j]? = some t)
    (hl : (c.serve i s).listeners[j]? = some l) :
    (j ≠ i ∧ c.broadcaster.subscriptions[j]? = some t ∧ c.listeners[j]? = some l)
      ∨ (j = i ∧ t = s.receive.2 ∧ ∃ l₀, c.listeners[i]? = some l₀ ∧ l = l₀.hear s.receive.1) := by
  simp only [serve, List.getElem?_modify] at hl
  by_cases hj : i = j
  · subst hj
    right
    obtain ⟨hi, -⟩ := List.getElem?_eq_some_iff.mp hs
    simp only [serve, Broadcaster.setSubscription, List.getElem?_set_self hi, Option.some.injEq] at ht
    simp only [if_true, Option.map_eq_map, Option.map_eq_some_iff] at hl
    obtain ⟨l₀, hl₀, rfl⟩ := hl
    exact ⟨rfl, ht.symm, l₀, hl₀, rfl⟩
  · left
    simp only [serve, Broadcaster.setSubscription, List.getElem?_set_ne hj] at ht
    simp only [if_neg hj, Option.map_eq_map, Option.map_id'] at hl
    exact ⟨Ne.symm hj, ht, hl⟩

@[simp] theorem joined_hear (l : Listener) (r : Subscription.Receipt) : (l.hear r).joined = l.joined := by
  cases r <;> rfl

theorem mem_modify {listeners : List Listener} {i : Nat} {r : Subscription.Receipt} {l : Listener}
    (h : l ∈ listeners.modify i (·.hear r)) : ∃ l₀ ∈ listeners, l = l₀ ∨ l = l₀.hear r := by
  obtain ⟨j, hj⟩ := List.mem_iff_getElem?.mp h
  rw [List.getElem?_modify, Option.map_eq_map, Option.map_eq_some_iff] at hj
  obtain ⟨l₀, hl₀, rfl⟩ := hj
  refine ⟨l₀, List.mem_of_getElem? hl₀, ?_⟩
  split
  · exact Or.inr rfl
  · exact Or.inl rfl

/-! ### The stream of signals -/

/-- The source continues what the distributor has handed out, and the two together are what
    was published, with the closing signal behind it once the broadcaster is closed. -/
structure IsOrderly (c : Course) : Prop where
  stream : c.distributed ++ c.broadcaster.source
    = c.published.map .event ++ (if c.broadcaster.isClosed then [.closing] else [])
  idle : c.broadcaster.distributor = .idle → c.distributed = []
  running : c.broadcaster.distributor = .running → .closing ∉ c.distributed
  finished : c.broadcaster.distributor = .finished → c.broadcaster.isClosed = true ∧ c.broadcaster.source = []
  unstarted : c.closedUnstarted = true → c.broadcaster.isClosed = true
  count : c.listeners.length = c.broadcaster.subscriptions.length
  joined : ∀ l ∈ c.listeners, l.joined ≤ c.distributed.length ∧ l.joined ≤ c.published.length

theorem isOrderly_ofLimit (limit : Int) : (ofLimit limit).IsOrderly where
  stream := rfl
  idle := fun _ => rfl
  running := nofun
  finished := nofun
  unstarted := nofun
  count := rfl
  joined := List.forall_mem_nil _

theorem IsOrderly.length_le (h : c.IsOrderly) (hopen : c.broadcaster.isClosed = false) :
    c.distributed.length ≤ c.published.length := by
  have hstream := congrArg List.length h.stream
  simp only [hopen, Bool.false_eq_true, if_false, List.append_nil, List.length_append,
    List.length_map] at hstream
  omega

theorem IsOrderly.length_audience (h : c.IsOrderly) (signal : Signal) :
    (c.audience signal).length = c.broadcaster.subscriptions.length := by
  rw [audience, List.length_zipWith, h.count, Nat.min_self]

theorem joined_audience {signal : Signal} {l : Listener} (h : l ∈ c.audience signal) :
    ∃ l₀ ∈ c.listeners, l.joined = l₀.joined := by
  obtain ⟨i, s₀, l₀, -, hl₀, rfl⟩ := mem_audience h
  exact ⟨l₀, List.mem_of_getElem? hl₀, rfl⟩

/-- The distributor works on behind every signal but the closing one. -/
theorem distributor_take_eq_finished_iff (c : Course) (signal : Signal) (rest : List Signal) :
    (c.take signal rest).broadcaster.distributor = .finished ↔ signal = .closing := by
  simp only [take]
  split <;> simp_all

theorem distributor_take_ne_idle (c : Course) (signal : Signal) (rest : List Signal) :
    (c.take signal rest).broadcaster.distributor ≠ .idle := by
  simp only [take]
  split <;> simp

theorem IsOrderly.shut (h : c.IsOrderly) (hopen : c.broadcaster.isClosed = false)
    (hfinished : c.broadcaster.distributor ≠ .finished) : c.shut.IsOrderly := by
  refine ⟨?_, h.idle, h.running, fun hdone => absurd hdone hfinished, fun _ => rfl, h.count, h.joined⟩
  have hstream := h.stream
  simp only [hopen, Bool.false_eq_true, if_false, List.append_nil] at hstream
  simp only [Course.shut, if_true]
  rw [← List.append_assoc, hstream]

theorem IsOrderly.effect (h : c.IsOrderly) (heffect : c.Effect c') : c'.IsOrderly := by
  cases heffect with
  | nothing => exact h
  | listened name hopen =>
    refine ⟨h.stream, h.idle, h.running, h.finished, h.unstarted, ?_, ?_⟩
    · simp only [enlist, List.length_append, h.count, List.length_singleton]
    · intro l hl
      rcases List.mem_append.mp hl with hl | hl
      · exact h.joined l hl
      · obtain rfl := List.mem_singleton.mp hl
        exact ⟨Nat.le_refl _, h.length_le hopen⟩
  | published e hopen =>
    refine ⟨?_, h.idle, h.running, ?_, h.unstarted, h.count, ?_⟩
    · have hstream := h.stream
      simp only [hopen, Bool.false_eq_true, if_false, List.append_nil, List.map_append,
        List.map_singleton] at hstream ⊢
      rw [← List.append_assoc, hstream]
    · intro hfinished
      rw [(h.finished hfinished).1] at hopen
      cases hopen
    · intro l hl
      obtain ⟨hdistributed, hpublished⟩ := h.joined l hl
      exact ⟨hdistributed, by simp only [List.length_append]; omega⟩
  | started hidle =>
    refine ⟨h.stream, ?_, ?_, ?_, h.unstarted, h.count, h.joined⟩
    · intro hstarted
      cases hstarted
    · intro _
      rw [h.idle hidle]
      exact List.not_mem_nil
    · intro hfinished
      cases hfinished
  | distributed signal rest hrunning hsource =>
    have hstream := h.stream
    rw [hsource] at hstream
    refine ⟨?_, ?_, ?_, ?_, h.unstarted, ?_, ?_⟩
    · show c.distributed ++ [signal] ++ rest = _
      rw [List.append_assoc]
      exact hstream
    · intro hidle
      exact absurd hidle (c.distributor_take_ne_idle signal rest)
    · intro hworks hmem
      rcases List.mem_append.mp hmem with hmem | hmem
      · exact h.running hrunning hmem
      · have hfinished := (c.distributor_take_eq_finished_iff signal rest).mpr
          (List.mem_singleton.mp hmem).symm
        rw [show (c.take signal rest).broadcaster.distributor = _ from hworks] at hfinished
        cases hfinished
    · intro hfinished
      -- nothing stands behind the closing signal, so the source is empty
      obtain rfl := (c.distributor_take_eq_finished_iff signal rest).mp hfinished
      exact (Broadcaster.closing_last hstream).symm
    · simpa [offer, take, Broadcaster.fanOut, audience] using h.length_audience signal
    · intro l hl
      obtain ⟨l₀, hl₀, hjoined⟩ := joined_audience hl
      obtain ⟨hdistributed, hpublished⟩ := h.joined l₀ hl₀
      rw [hjoined]
      exact ⟨by simp only [offer, take, List.length_append]; omega, hpublished⟩
  | received i s hs =>
    refine ⟨h.stream, h.idle, h.running, h.finished, h.unstarted, ?_, ?_⟩
    · simpa [serve, Broadcaster.setSubscription] using h.count
    · intro l hl
      obtain ⟨l₀, hl₀, rfl | rfl⟩ := mem_modify hl
      · exact h.joined l hl₀
      · rw [joined_hear]
        exact h.joined l₀ hl₀
  | closedStarted hopen hstarted =>
    apply h.shut hopen
    intro hfinished
    rw [(h.finished hfinished).1] at hopen
    cases hopen
  | closedUnstarted hopen hidle =>
    have hshut := h.shut hopen (by rw [hidle]; decide)
    refine ⟨hshut.stream, hshut.idle, hshut.running, hshut.finished, fun _ => rfl, ?_, ?_⟩
    · simpa [offer, Broadcaster.fanOut, audience] using hshut.length_audience .closing
    · intro l hl
      obtain ⟨l₀, hl₀, hjoined⟩ := joined_audience hl
      rw [hjoined]
      exact hshut.joined l₀ hl₀

end Course

end UploadGate
