/-
  UploadGate/Proofs/Broadcast/Custody.lean
  ========================================
  **What becomes of the events that are published.**

  Every subscriber gets what the distributor hands out in the order of
  publishing, and what it does not get is accounted for but in one case.  An
  event that found its queue full is counted and reported once.  One that made
  room for the closing signal is neither counted nor reported.  That happens to
  at most one event of a subscriber, and just when the distributor comes to the
  closing signal while the event is first in a full queue (`hasDisplaced_run`).
-/
import Mathlib.Data.List.Induction
import UploadGate.Proofs.Broadcast.Accounts

namespace UploadGate

/-! ### All subscribers -/

namespace Course

/-- The events of all subscribers are where their histories say, and all records are
    about events that found a queue full. -/
structure IsAccounted (limit : Int) (c : Course) : Prop where
  orderly : c.IsOrderly
  queueLimit : c.broadcaster.queueLimit = limit
  accounts : ∀ (i : Nat) s l, c.broadcaster.subscriptions[i]? = some s → c.listeners[i]? = some l →
    l.Accounts limit (c.heard l) s
  intact : c.broadcaster.distributor ≠ .finished → ∀ l ∈ c.listeners, l.displaced = []
  displaced_le : ∀ l ∈ c.listeners, l.displaced.length ≤ 1
  records : c.records.Perm (c.listeners.flatMap (·.reports))

variable {limit : Int} {c c' : Course}

theorem isAccounted_ofLimit (limit : Int) : (ofLimit limit).IsAccounted limit where
  orderly := isOrderly_ofLimit limit
  queueLimit := rfl
  accounts := nofun
  intact := fun _ => List.forall_mem_nil _
  displaced_le := List.forall_mem_nil _
  records := List.Perm.refl _

theorem heard_take {l : Listener} (hjoined : l.joined ≤ c.distributed.length) (signal : Signal)
    (rest : List Signal) : (c.take signal rest).heard l = c.heard l ++ signal.event?.toList := by
  simp only [heard, take, List.drop_append_of_le_length hjoined, List.filterMap_append]
  cases signal <;> rfl

theorem heard_of_distributed_nil (h : c.distributed = []) (l : Listener) : c.heard l = [] := by
  simp [heard, h]

theorem queuedEvents_eq_nil {l : Listener} {s : Subscription} (h : l.Accounts limit [] s) :
    s.queuedEvents = [] :=
  (List.append_eq_nil_iff.mp (List.sublist_nil.mp h.inOrder)).2

theorem reports_zipWith (signal : Signal) {listeners : List Listener} {subscriptions : List Subscription}
    (h : listeners.length = subscriptions.length) :
    ((List.zipWith (fun l s => l.offered s signal) listeners subscriptions).flatMap (·.reports)).Perm
      (listeners.flatMap (·.reports) ++ subscriptions.flatMap fun s => (s.offer signal).2) := by
  induction listeners generalizing subscriptions with
  | nil =>
    obtain rfl := List.length_eq_zero_iff.mp h.symm
    exact List.Perm.refl _
  | cons l listeners ih =>
    cases subscriptions with
    | nil => cases h
    | cons s subscriptions =>
      have hrest := List.perm_iff_count.mp (ih (Nat.succ.inj h))
      rw [List.perm_iff_count]
      intro record
      have := hrest record
      simp only [List.zipWith_cons_cons, List.flatMap_cons, Listener.offered, List.count_append] at this ⊢
      omega

/-- Offering a signal to all subscribers writes the records that their histories gain. -/
theorem IsAccounted.records_offer (h : c.IsAccounted limit) (signal : Signal) :
    (c.offer signal).records.Perm ((c.offer signal).listeners.flatMap (·.reports)) :=
  (h.records.append_right _).trans (reports_zipWith signal h.orderly.count).symm

theorem IsAccounted.exists_listener (h : c.IsAccounted limit) {i : Nat} {s : Subscription}
    (hs : c.broadcaster.subscriptions[i]? = some s) :
    ∃ l, c.listeners[i]? = some l ∧ l.Accounts limit (c.heard l) s := by
  obtain ⟨l, hl⟩ := Course.exists_listener h.orderly.count hs
  exact ⟨l, hl, h.accounts i s l hs hl⟩

theorem displaced_hear (l : Listener) (r : Subscription.Receipt) : (l.hear r).displaced = l.displaced := by
  cases r <;> rfl

theorem flatMap_reports_modify (listeners : List Listener) (i : Nat) (r : Subscription.Receipt) :
    (listeners.modify i (·.hear r)).flatMap (·.reports) = listeners.flatMap (·.reports) := by
  have hsame : ∀ l : Listener, (l.hear r).reports = l.reports := by
    intro l
    cases r <;> rfl
  induction listeners generalizing i with
  | nil => rw [List.modify_nil]
  | cons l listeners ih =>
    cases i with
    | zero => simp only [List.modify_zero_cons, List.flatMap_cons, hsame]
    | succ i => simp only [List.modify_succ_cons, List.flatMap_cons, ih]

theorem IsAccounted.enlist (h : c.IsAccounted limit) {name : Text} (horderly : (c.enlist name).IsOrderly) :
    (c.enlist name).IsAccounted limit := by
  refine ⟨horderly, h.queueLimit, ?_, ?_, ?_, ?_⟩
  · intro i s l hs hl
    simp only [Course.enlist, List.getElem?_append, h.orderly.count] at hs hl
    split at hs <;> rename_i hi
    · rw [if_pos hi] at hl
      exact h.accounts i s l hs hl
    · rw [if_neg hi] at hl
      obtain rfl := List.mem_singleton.mp (List.mem_of_getElem? hs)
      obtain rfl := List.mem_singleton.mp (List.mem_of_getElem? hl)
      have hnothing : (c.enlist name).heard { joined := c.distributed.length } = [] := by
        simp [heard, Course.enlist]
      rw [h.queueLimit, hnothing]
      exact Listener.accounts_new limit _ name
  · intro hfinished l hl
    rcases List.mem_append.mp hl with hl | hl
    · exact h.intact hfinished l hl
    · obtain rfl := List.mem_singleton.mp hl
      rfl
  · intro l hl
    rcases List.mem_append.mp hl with hl | hl
    · exact h.displaced_le l hl
    · obtain rfl := List.mem_singleton.mp hl
      exact Nat.zero_le _
  · simpa [Course.enlist] using h.records

theorem IsAccounted.distribute (h : c.IsAccounted limit) {signal : Signal} {rest : List Signal}
    (hrunning : c.broadcaster.distributor = .running)
    (horderly : ((c.take signal rest).offer signal).IsOrderly) :
    ((c.take signal rest).offer signal).IsAccounted limit := by
  have hintact : ∀ l ∈ c.listeners, l.displaced = [] := by
    apply h.intact
    rw [hrunning]
    exact nofun
  refine ⟨horderly, h.queueLimit, ?_, ?_, ?_, h.records_offer signal⟩
  · intro i s l hs hl
    obtain ⟨s₀, l₀, hs₀, hl₀, rfl, rfl⟩ := offer_cases hs hl
    have hjoined := (h.orderly.joined l₀ (List.mem_of_getElem? hl₀)).1
    have hheard : ((c.take signal rest).offer signal).heard (l₀.offered s₀ signal)
        = c.heard l₀ ++ signal.event?.toList := heard_take hjoined signal rest
    rw [hheard]
    exact (h.accounts i s₀ l₀ hs₀ hl₀).offered signal
  · intro hfinished l hl
    obtain ⟨i, s₀, l₀, hs₀, hl₀, rfl⟩ := mem_audience hl
    cases signal with
    | event e => exact List.append_eq_nil_iff.mpr ⟨hintact l₀ (List.mem_of_getElem? hl₀), rfl⟩
    | closing => exact absurd rfl hfinished
  · intro l hl
    obtain ⟨i, s₀, l₀, hs₀, hl₀, rfl⟩ := mem_audience hl
    simp only [Listener.offered, hintact l₀ (List.mem_of_getElem? hl₀), List.nil_append]
    exact s₀.length_displaced_le signal

theorem IsAccounted.serve (h : c.IsAccounted limit) {i : Nat} {s : Subscription}
    (hs : c.broadcaster.subscriptions[i]? = some s) (horderly : (c.serve i s).IsOrderly) :
    (c.serve i s).IsAccounted limit := by
  refine ⟨horderly, h.queueLimit, ?_, ?_, ?_, ?_⟩
  · intro j t l ht hl
    rcases serve_cases hs ht hl with ⟨-, ht, hl⟩ | ⟨rfl, rfl, l₀, hl₀, rfl⟩
    · exact h.accounts j t l ht hl
    · have hheard : c.heard (l₀.hear s.receive.1) = c.heard l₀ := by
        simp only [heard, joined_hear]
      exact hheard ▸ (h.accounts j s l₀ hs hl₀).hear
  · intro hfinished l hl
    obtain ⟨l₀, hl₀, rfl | rfl⟩ := mem_modify hl
    · exact h.intact hfinished l hl₀
    · rw [displaced_hear]
      exact h.intact hfinished l₀ hl₀
  · intro l hl
    obtain ⟨l₀, hl₀, rfl | rfl⟩ := mem_modify hl
    · exact h.displaced_le l hl₀
    · rw [displaced_hear]
      exact h.displaced_le l₀ hl₀
  · simp only [Course.serve, flatMap_reports_modify]
    exact h.records

theorem IsAccounted.shut (h : c.IsAccounted limit) (horderly : c.shut.IsOrderly) :
    c.shut.IsAccounted limit :=
  ⟨horderly, h.queueLimit, h.accounts, h.intact, h.displaced_le, h.records⟩

theorem IsAccounted.displaced_eq_nil (h : c.IsAccounted limit) (hidle : c.broadcaster.distributor = .idle)
    {i : Nat} {s : Subscription} (hs : c.broadcaster.subscriptions[i]? = some s) (signal : Signal) :
    s.displaced signal = [] := by
  obtain ⟨l, -, haccounts⟩ := h.exists_listener hs
  rw [heard_of_distributed_nil (h.orderly.idle hidle)] at haccounts
  have hnone := s.displaced_sublist signal
  rwa [queuedEvents_eq_nil haccounts, List.sublist_nil] at hnone

theorem IsAccounted.closeUnstarted (h : c.shut.IsAccounted limit) (hidle : c.broadcaster.distributor = .idle)
    (horderly : IsOrderly { c.shut.offer .closing with closedUnstarted := true }) :
    IsAccounted limit { c.shut.offer .closing with closedUnstarted := true } := by
  have hintact : ∀ l ∈ c.shut.audience .closing, l.displaced = [] := by
    intro l hl
    obtain ⟨i, s₀, l₀, hs₀, hl₀, rfl⟩ := mem_audience hl
    have hbefore := h.intact (by rw [show c.shut.broadcaster.distributor = _ from hidle]; exact nofun)
      l₀ (List.mem_of_getElem? hl₀)
    simp only [Listener.offered, hbefore, h.displaced_eq_nil hidle hs₀, List.append_nil]
  refine ⟨horderly, h.queueLimit, ?_, fun _ => hintact, ?_, h.records_offer .closing⟩
  · intro i s l hs hl
    obtain ⟨s₀, l₀, hs₀, hl₀, rfl, rfl⟩ := offer_cases hs hl
    have hoffered := (h.accounts i s₀ l₀ hs₀ hl₀).offered .closing
    simp only [Signal.event?, Option.toList_none, List.append_nil] at hoffered
    exact hoffered
  · intro l hl
    rw [hintact l hl]
    exact Nat.zero_le _

theorem IsAccounted.effect (h : c.IsAccounted limit) (heffect : c.Effect c') : c'.IsAccounted limit := by
  have horderly := h.orderly.effect heffect
  cases heffect with
  | nothing => exact h
  | listened name hopen => exact h.enlist horderly
  | published e hopen =>
    exact ⟨horderly, h.queueLimit, h.accounts, h.intact, h.displaced_le, h.records⟩
  | started hidle =>
    refine ⟨horderly, h.queueLimit, h.accounts, fun _ => ?_, h.displaced_le, h.records⟩
    apply h.intact
    rw [hidle]
    exact nofun
  | distributed signal rest hrunning hsource => exact h.distribute hrunning horderly
  | received i s hs => exact h.serve hs horderly
  | closedStarted hopen hstarted => exact h.shut horderly
  | closedUnstarted hopen hidle =>
    have hshut := h.orderly.shut hopen (by rw [hidle]; exact nofun)
    exact (h.shut hshut).closeUnstarted hidle horderly

theorem isAccounted_run (limit : Int) (actions : List Action) :
    ((ofLimit limit).run actions).IsAccounted limit :=
  run_induction (fun _ _ heffect h => h.effect heffect) actions (isAccounted_ofLimit limit)

/-! ### Order -/

theorem filterMap_event?_map (events : List Event) : (events.map Signal.event).filterMap Signal.event? = events := by
  rw [List.filterMap_map]
  exact List.filterMap_some

/-- What was handed out since a subscriber came is a piece of what was published. -/
theorem IsOrderly.published_eq (h : c.IsOrderly) {l : Listener} (hl : l ∈ c.listeners) :
    ∃ before after, c.published = before ++ c.heard l ++ after ∧ before.length = l.joined := by
  obtain ⟨hdistributed, hpublished⟩ := h.joined l hl
  have hearly : c.distributed.take l.joined = (c.published.take l.joined).map .event := by
    have hstream := congrArg (List.take l.joined) h.stream
    rw [List.take_append_of_le_length hdistributed,
      List.take_append_of_le_length (by simpa using hpublished), ← List.map_take] at hstream
    exact hstream
  have hevents : (c.distributed ++ c.broadcaster.source).filterMap Signal.event? = c.published := by
    rw [h.stream, List.filterMap_append, filterMap_event?_map]
    split <;> simp [Signal.event?]
  refine ⟨c.published.take l.joined, c.broadcaster.source.filterMap Signal.event?, ?_,
    List.length_take_of_le hpublished⟩
  calc c.published
      = (c.distributed.take l.joined ++ c.distributed.drop l.joined ++ c.broadcaster.source).filterMap
          Signal.event? := by rw [List.take_append_drop, hevents]
    _ = _ := by rw [List.filterMap_append, List.filterMap_append, hearly, filterMap_event?_map, heard]

/-- **Every subscriber gets events in order, each at most once.**  What a subscriber has
    received, followed by what stands in its queue, is a selection in order of what the
    distributor has handed out since it came, and that is a piece of what was published.
    Without a limit the selection is all of it; with a limit the queue stays within it. -/
theorem received_in_order {actions : List Action} (hc : (ofLimit limit).run actions = c) {i : Nat}
    {s : Subscription} (hs : c.broadcaster.subscriptions[i]? = some s) :
    ∃ l, c.listeners[i]? = some l
      ∧ (l.received ++ s.queuedEvents).Sublist (c.heard l)
      ∧ (∃ before after, c.published = before ++ c.heard l ++ after ∧ before.length = l.joined)
      ∧ (limit ≤ 0 → l.received ++ s.queuedEvents = c.heard l)
      ∧ (0 < limit → (s.queue.length : Int) ≤ limit) := by
  have h := hc ▸ isAccounted_run limit actions
  obtain ⟨l, hl, haccounts⟩ := h.exists_listener hs
  refine ⟨l, hl, haccounts.inOrder, h.orderly.published_eq (List.mem_of_getElem? hl), ?_, haccounts.queue_le⟩
  intro hlimit
  obtain ⟨hrefused, hdisplaced⟩ := haccounts.unlimited hlimit
  apply haccounts.inOrder.eq_of_length
  have hlength := haccounts.conserved.length_eq
  simp only [hrefused, hdisplaced, List.append_nil] at hlength
  exact hlength.symm

def progressAt (offset : Int) : Event := ⟨.progress, Text.of "u1", [], 9, offset⟩

/-- A subscriber with room for two that comes after the first event and then falls behind. -/
def slowActions : List Action :=
  [.start, .publish (progressAt 1), .distribute, .listen (Text.of "slow"), .publish (progressAt 2),
    .publish (progressAt 3), .publish (progressAt 4), .publish (progressAt 5), .distribute, .receive 0,
    .distribute, .distribute, .distribute]

theorem received_in_order_slow :
    ∃ c s l, (ofLimit 2).run slowActions = c ∧ c.broadcaster.subscriptions[0]? = some s
      ∧ c.listeners[0]? = some l
      ∧ l.received ++ s.queuedEvents = [progressAt 2, progressAt 3, progressAt 4]
      ∧ (l.received ++ s.queuedEvents).Sublist (c.heard l)
      ∧ (s.queue.length : Int) ≤ 2 := by
  obtain ⟨s, hs⟩ : ∃ s, ((ofLimit 2).run slowActions).broadcaster.subscriptions[0]? = some s := ⟨_, rfl⟩
  obtain ⟨l, hl, horder, -, -, hqueue⟩ := received_in_order rfl hs
  refine ⟨_, s, l, rfl, hs, hl, ?_, horder, hqueue (by decide)⟩
  cases hs
  cases hl
  rfl

/-! ### Events that make room for the closing signal -/

/-- The subscriber at a position has lost an event to the closing signal. -/
def HasDisplaced (c : Course) (i : Nat) (e : Event) : Prop :=
  ∃ l, c.listeners[i]? = some l ∧ e ∈ l.displaced

/-- The distributor comes to the closing signal while an event is first in the full queue of
    the subscriber at a position. -/
def Displaces (c : Course) (i : Nat) (e : Event) : Prop :=
  c.next? = some .closing
    ∧ ∃ s, c.broadcaster.subscriptions[i]? = some s ∧ s.isFull = true ∧ s.queue.head? = some (.event e)

variable {i : Nat} {e : Event}

theorem hasDisplaced_offer (hcount : c.listeners.length = c.broadcaster.subscriptions.length) (signal : Signal) :
    (c.offer signal).HasDisplaced i e ↔
      c.HasDisplaced i e ∨ ∃ s, c.broadcaster.subscriptions[i]? = some s ∧ e ∈ s.displaced signal := by
  have hoffered : ∀ {l s}, c.listeners[i]? = some l → c.broadcaster.subscriptions[i]? = some s →
      (c.offer signal).listeners[i]? = some (l.offered s signal) := fun hl hs =>
    List.getElem?_zipWith_eq_some.mpr ⟨_, _, hl, hs, rfl⟩
  constructor
  · rintro ⟨l, hl, he⟩
    obtain ⟨l₀, s₀, hl₀, hs₀, rfl⟩ := List.getElem?_zipWith_eq_some.mp hl
    rcases List.mem_append.mp he with he | he
    · exact Or.inl ⟨l₀, hl₀, he⟩
    · exact Or.inr ⟨s₀, hs₀, he⟩
  · rintro (⟨l, hl, he⟩ | ⟨s, hs, he⟩)
    · obtain ⟨s, hs⟩ := exists_subscription hcount hl
      exact ⟨_, hoffered hl hs, List.mem_append_left _ he⟩
    · obtain ⟨l, hl⟩ := exists_listener hcount hs
      exact ⟨_, hoffered hl hs, List.mem_append_right _ he⟩

theorem hasDisplaced_enlist (name : Text) : (c.enlist name).HasDisplaced i e ↔ c.HasDisplaced i e := by
  constructor
  · rintro ⟨l, hl, he⟩
    simp only [enlist, List.getElem?_append] at hl
    split at hl
    · exact ⟨l, hl, he⟩
    · obtain rfl := List.mem_singleton.mp (List.mem_of_getElem? hl)
      cases he
  · rintro ⟨l, hl, he⟩
    obtain ⟨hi, -⟩ := List.getElem?_eq_some_iff.mp hl
    exact ⟨l, (List.getElem?_append_left hi).trans hl, he⟩

theorem hasDisplaced_serve (j : Nat) (s : Subscription) :
    (c.serve j s).HasDisplaced i e ↔ c.HasDisplaced i e := by
  simp only [HasDisplaced, serve, List.getElem?_modify, Option.map_eq_map, Option.map_eq_some_iff]
  constructor
  · rintro ⟨l, ⟨l₀, hl₀, rfl⟩, he⟩
    refine ⟨l₀, hl₀, ?_⟩
    split at he
    · rwa [displaced_hear] at he
    · exact he
  · rintro ⟨l₀, hl₀, he⟩
    refine ⟨_, ⟨l₀, hl₀, rfl⟩, ?_⟩
    split
    · rwa [displaced_hear]
    · exact he

/-- An action displaces an event just when it lets the distributor come to the closing
    signal. -/
theorem IsAccounted.hasDisplaced_step (h : c.IsAccounted limit) (a : Action) :
    (c.step a).HasDisplaced i e ↔ c.HasDisplaced i e ∨ a = .distribute ∧ c.Displaces i e := by
  cases a with
  | distribute =>
    simp only [true_and]
    cases hnext : c.next? with
    | none =>
      rw [step_distribute_of_next?_eq_none hnext]
      simp [Displaces, hnext]
    | some signal =>
      obtain ⟨hrunning, rest, hsource⟩ := next?_eq_some_iff.mp hnext
      rw [step_distribute hrunning hsource, hasDisplaced_offer (c := c.take signal rest) h.orderly.count]
      refine or_congr Iff.rfl ?_
      cases signal with
      | event e' => simp [Displaces, hnext, Subscription.displaced]
      | closing => simp [Displaces, hnext, Subscription.mem_displaced_closing_iff, take]
  | listen name =>
    simp only [reduceCtorEq, false_and, or_false]
    cases hopen : c.broadcaster.isClosed with
    | true => rw [step_listen_of_isClosed hopen]
    | false => rw [step_listen hopen, hasDisplaced_enlist]
  | publish e' =>
    simp only [reduceCtorEq, false_and, or_false]
    cases hopen : c.broadcaster.isClosed with
    | true => rw [step_publish_of_isClosed hopen]
    | false =>
      rw [step_publish hopen]
      rfl
  | start =>
    simp only [reduceCtorEq, false_and, or_false]
    rfl
  | receive j =>
    simp only [reduceCtorEq, false_and, or_false]
    cases hs : c.broadcaster.subscriptions[j]? with
    | none => rw [step_receive_of_none hs]
    | some s => rw [step_receive hs, hasDisplaced_serve]
  | close =>
    simp only [reduceCtorEq, false_and, or_false]
    cases hopen : c.broadcaster.isClosed with
    | true => rw [step_close_of_isClosed hopen]
    | false =>
      by_cases hidle : c.broadcaster.distributor = .idle
      · rw [step_close_of_idle hopen hidle]
        show (c.shut.offer .closing).HasDisplaced i e ↔ _
        rw [hasDisplaced_offer (c := c.shut) h.orderly.count]
        -- a distributor that was never started has handed out nothing that could be displaced
        constructor
        · rintro (hbefore | ⟨s, hs, he⟩)
          · exact hbefore
          · rw [h.displaced_eq_nil hidle hs] at he
            cases he
        · exact Or.inl
      · rw [step_close_of_started hopen hidle]
        rfl

/-- **Which events are displaced**: those that are first in a full queue when the distributor
    comes to the closing signal. -/
theorem hasDisplaced_run (limit : Int) (actions : List Action) :
    ((ofLimit limit).run actions).HasDisplaced i e ↔
      ∃ early late, actions = early ++ .distribute :: late ∧ ((ofLimit limit).run early).Displaces i e := by
  -- the last action adds what it displaces to what was displaced before it
  induction actions using List.reverseRecOn with
  | nil =>
    constructor
    · rintro ⟨l, hl, -⟩
      cases hl
    · rintro ⟨early, late, hnil, -⟩
      simp at hnil
  | append_singleton actions a ih =>
    rw [run_append]
    show HasDisplaced (((ofLimit limit).run actions).step a) i e ↔ _
    rw [(isAccounted_run limit actions).hasDisplaced_step, ih]
    constructor
    · rintro (⟨early, late, rfl, hearly⟩ | ⟨rfl, hlast⟩)
      · exact ⟨early, late ++ [a], by simp, hearly⟩
      · exact ⟨actions, [], rfl, hlast⟩
    · rintro ⟨early, late, hactions, hearly⟩
      cases late using List.reverseRecOn with
      | nil =>
        obtain ⟨rfl, ha⟩ := List.append_inj' hactions rfl
        exact Or.inr ⟨List.singleton_inj.mp ha, hearly⟩
      | append_singleton late b _ =>
        rw [← List.cons_append, ← List.append_assoc] at hactions
        obtain ⟨rfl, -⟩ := List.append_inj' hactions rfl
        exact Or.inl ⟨early, late, rfl, hearly⟩

/-! ### Conservation -/

/-- **What becomes of every event that was handed out to a subscriber.**  It was received, is
    in the queue, found the queue full, or was displaced by the closing signal.  The events
    that found the queue full are those that are counted, and each is reported by one record;
    no other records are written.  So the count accounts for all that is missing just when
    nothing was displaced.  At most one event is displaced: the one that is first in a full
    queue when the distributor comes to the closing signal. -/
theorem heard_conserved {actions : List Action} (hc : (ofLimit limit).run actions = c)
    {s : Subscription} (hs : c.broadcaster.subscriptions[i]? = some s) :
    ∃ l, c.listeners[i]? = some l
      ∧ (c.heard l).Perm (l.received ++ s.queuedEvents ++ l.refused ++ l.displaced)
      ∧ s.dropped = l.refused.length
      ∧ l.reports = l.refused.map s.dropRecord
      ∧ c.records.Perm (c.listeners.flatMap (·.reports))
      ∧ ((c.heard l).length = l.received.length + s.queuedEvents.length + s.dropped ↔ l.displaced = [])
      ∧ l.displaced.length ≤ 1
      ∧ ∀ e, e ∈ l.displaced ↔
        ∃ early late, actions = early ++ .distribute :: late ∧ ((ofLimit limit).run early).Displaces i e := by
  have h := hc ▸ isAccounted_run limit actions
  obtain ⟨l, hl, haccounts⟩ := h.exists_listener hs
  refine ⟨l, hl, haccounts.conserved, haccounts.dropped, haccounts.reports, h.records, ?_,
    h.displaced_le l (List.mem_of_getElem? hl), ?_⟩
  · have hlength := haccounts.conserved.length_eq
    simp only [List.length_append] at hlength
    rw [haccounts.dropped, ← List.length_eq_zero_iff]
    omega
  · intro e
    have hdisplaced : c.HasDisplaced i e ↔ e ∈ l.displaced := by
      constructor
      · rintro ⟨l', hl', he⟩
        obtain rfl := Option.some.inj (hl'.symm.trans hl)
        exact he
      · intro he
        exact ⟨l, hl, he⟩
    rw [← hdisplaced, ← hc, hasDisplaced_run]

theorem heard_conserved_slow :
    ∃ c s l, (ofLimit 2).run slowActions = c ∧ c.broadcaster.subscriptions[0]? = some s
      ∧ c.listeners[0]? = some l
      ∧ s.dropped = l.refused.length ∧ l.refused = [progressAt 5]
      ∧ (c.heard l).length = l.received.length + s.queuedEvents.length + s.dropped := by
  obtain ⟨s, hs⟩ : ∃ s, ((ofLimit 2).run slowActions).broadcaster.subscriptions[0]? = some s := ⟨_, rfl⟩
  obtain ⟨l, hl, -, hdropped, -, -, hlength, -⟩ := heard_conserved rfl hs
  refine ⟨_, s, l, rfl, hs, hl, hdropped, ?_, hlength.mpr ?_⟩
  · cases hl
    rfl
  · cases hl
    rfl

/-- A subscriber with room for one that takes nothing while the broadcaster is closed. -/
def displacingActions : List Action :=
  [.listen (Text.of "s"), .start, .publish (progressAt 1), .distribute, .close, .distribute]

/-- The closing signal can take the place of an event that is then nowhere counted or reported. -/
theorem exists_unreported_loss :
    ∃ s l, ((ofLimit 1).run displacingActions).broadcaster.subscriptions[0]? = some s
      ∧ ((ofLimit 1).run displacingActions).listeners[0]? = some l
      ∧ ((ofLimit 1).run displacingActions).heard l = [progressAt 1]
      ∧ l.received = [] ∧ s.queuedEvents = [] ∧ s.dropped = 0
      ∧ ((ofLimit 1).run displacingActions).records = [] :=
  ⟨_, _, rfl, rfl, rfl, rfl, rfl, rfl, rfl⟩

end Course

end UploadGate
