/-
  UploadGate/Proofs/Broadcast/Accounts.lean
  =========================================
  **Where the events of one subscriber are.**

  An event that was handed out to a subscriber was received, or stands in the
  queue, or found the queue full, or left the queue to make room for the closing
  signal.  There is no fifth place, and what was received or stands in the queue
  is in the order in which it was handed out.

  `Listener.Accounts` says this of a subscriber and its history.  Offering a
  signal keeps it for one more event (`Accounts.offered`), and asking for the next
  event keeps it as it is (`Accounts.hear`).
-/
import UploadGate.Proofs.Broadcast.Course

namespace UploadGate

def Subscription.queuedEvents (s : Subscription) : List Event := s.queue.filterMap Signal.event?

namespace Subscription

variable {s : Subscription}

theorem isFull_iff : s.isFull = true ↔ 0 < s.limit ∧ s.limit ≤ s.queue.length := by
  simp [isFull]

theorem queuedEvents_offer (h : s.isFull = false) (signal : Signal) :
    (s.offer signal).1.queuedEvents = s.queuedEvents ++ signal.event?.toList := by
  cases signal with
  | event e => simp [offer, offerEvent, h, queuedEvents, Signal.event?]
  | closing => simp [offer, offerClosing, h, queuedEvents, Signal.event?]

theorem queuedEvents_offerClosing (h : s.isFull = true) :
    s.displaced .closing ++ (s.offer .closing).1.queuedEvents = s.queuedEvents := by
  have hsplit : s.queue.take 1 ++ s.queue.tail = s.queue := by
    rw [← List.drop_one, List.take_append_drop]
  simp only [displaced, offer, offerClosing, h, if_true, queuedEvents]
  calc (s.queue.take 1).filterMap Signal.event? ++ (s.queue.tail ++ [Signal.closing]).filterMap Signal.event?
      = (s.queue.take 1 ++ s.queue.tail).filterMap Signal.event? := by simp [Signal.event?]
    _ = s.queue.filterMap Signal.event? := by rw [hsplit]

theorem queuedEvents_offerEvent (h : s.isFull = true) (e : Event) :
    (s.offer (.event e)).1.queuedEvents = s.queuedEvents := by
  simp only [offer, offerEvent, h, if_true, queuedEvents]

/-- Offering a signal keeps the order of what is in the queue. -/
theorem queuedEvents_offer_sublist (s : Subscription) (signal : Signal) :
    (s.offer signal).1.queuedEvents.Sublist (s.queuedEvents ++ signal.event?.toList) := by
  cases hfull : s.isFull with
  | false =>
    exact queuedEvents_offer hfull signal ▸ List.Sublist.refl _
  | true =>
    cases signal with
    | event e =>
      rw [queuedEvents_offerEvent hfull]
      exact List.sublist_append_left _ _
    | closing =>
      rw [← queuedEvents_offerClosing hfull]
      exact (List.sublist_append_right _ _).trans (List.sublist_append_left _ _)

/-- **Where an event is after an offer**: in the queue, with those that found it full, or with
    those that made room. -/
theorem offer_conserved (s : Subscription) (signal : Signal) :
    (s.queuedEvents ++ signal.event?.toList).Perm
      ((s.offer signal).1.queuedEvents ++ s.refused signal ++ s.displaced signal) := by
  cases hfull : s.isFull with
  | false =>
    have hnone : s.refused signal = [] ∧ s.displaced signal = [] := by
      cases signal <;> simp [refused, displaced, hfull]
    simp only [queuedEvents_offer hfull, hnone.1, hnone.2, List.append_nil, List.Perm.refl]
  | true =>
    cases signal with
    | event e =>
      rw [queuedEvents_offerEvent hfull]
      simp only [refused, displaced, hfull, if_true, Signal.event?, Option.toList_some, List.append_nil]
      exact List.Perm.refl _
    | closing =>
      rw [← queuedEvents_offerClosing hfull]
      simp only [refused, Signal.event?, Option.toList_none, List.append_nil]
      exact List.perm_append_comm

theorem displaced_sublist (s : Subscription) (signal : Signal) :
    (s.displaced signal).Sublist s.queuedEvents := by
  cases signal with
  | event e => exact List.nil_sublist _
  | closing =>
    simp only [displaced]
    split
    · exact (List.take_sublist 1 s.queue).filterMap _
    · exact List.nil_sublist _

theorem length_displaced_le (s : Subscription) (signal : Signal) : (s.displaced signal).length ≤ 1 := by
  cases signal with
  | event e => exact Nat.zero_le _
  | closing =>
    simp only [displaced]
    split
    · exact Nat.le_trans (List.length_filterMap_le _ _) (List.length_take_le 1 s.queue)
    · exact Nat.zero_le _

/-- The closing signal displaces the event that is first in a full queue. -/
theorem mem_displaced_closing_iff {e : Event} :
    e ∈ s.displaced .closing ↔ s.isFull = true ∧ s.queue.head? = some (.event e) := by
  by_cases hfull : s.isFull = true
  · simp only [displaced, hfull, true_and]
    cases s.queue with
    | nil => simp
    | cons signal rest => cases signal <;> simp [Signal.event?, eq_comm]
  · simp [displaced, hfull]

theorem limit_offer (s : Subscription) (signal : Signal) : (s.offer signal).1.limit = s.limit := by
  obtain ⟨queue, dropped, h⟩ := s.exists_offer_eq signal
  rw [h]

theorem dropRecord_offer (s : Subscription) (signal : Signal) :
    (s.offer signal).1.dropRecord = s.dropRecord := by
  obtain ⟨queue, dropped, h⟩ := s.exists_offer_eq signal
  rw [h]
  rfl

/-- A queue within its limit stays within it, also with the closing signal. -/
theorem length_queue_offer_le (hlimit : 0 < s.limit) (h : (s.queue.length : Int) ≤ s.limit)
    (signal : Signal) : ((s.offer signal).1.queue.length : Int) ≤ s.limit := by
  by_cases hfull : s.isFull = true
  · cases signal with
    | event e => simpa [offer, offerEvent, hfull] using h
    | closing =>
      simp only [offer, offerClosing, hfull, if_true, List.length_append, List.length_tail,
        List.length_singleton]
      omega
  · have hroom : ¬ (s.limit ≤ s.queue.length) := fun hle => hfull (isFull_iff.mpr ⟨hlimit, hle⟩)
    cases signal <;> simp [offer, offerEvent, offerClosing, hfull] <;> omega

theorem dropped_offer (s : Subscription) (signal : Signal) :
    (s.offer signal).1.dropped = s.dropped + (s.refused signal).length := by
  cases signal with
  | event e =>
    simp only [offer, offerEvent, refused]
    split <;> rfl
  | closing =>
    simp only [offer, offerClosing, refused]
    split <;> rfl

theorem records_offer (s : Subscription) (signal : Signal) :
    (s.offer signal).2 = (s.refused signal).map s.dropRecord := by
  cases signal with
  | event e =>
    simp only [offer, offerEvent, refused]
    split <;> rfl
  | closing => rfl

theorem length_queue_receive_le (s : Subscription) : s.receive.2.queue.length ≤ s.queue.length := by
  unfold receive
  split
  · exact Nat.le_refl _
  · split
    · exact Nat.le_refl _
    · rename_i e rest hqueue
      simp [hqueue]
    · rename_i rest hqueue
      simp [hqueue]

theorem receive_eq (s : Subscription) :
    s.receive.2.limit = s.limit ∧ s.receive.2.dropped = s.dropped ∧ s.receive.2.dropRecord = s.dropRecord := by
  unfold receive
  split
  · exact ⟨rfl, rfl, rfl⟩
  · split <;> exact ⟨rfl, rfl, rfl⟩

end Subscription

/-! ### One subscriber -/

namespace Listener

/-- The events handed out to a subscriber are where the history says. -/
structure Accounts (l : Listener) (limit : Int) (heard : List Event) (s : Subscription) : Prop where
  limit_eq : s.limit = limit
  inOrder : (l.received ++ s.queuedEvents).Sublist heard
  conserved : heard.Perm (l.received ++ s.queuedEvents ++ l.refused ++ l.displaced)
  dropped : s.dropped = l.refused.length
  reports : l.reports = l.refused.map s.dropRecord
  queue_le : 0 < limit → (s.queue.length : Int) ≤ limit
  unlimited : limit ≤ 0 → l.refused = [] ∧ l.displaced = []

variable {l : Listener} {limit : Int} {heard : List Event} {s : Subscription}

theorem accounts_new (limit : Int) (joined : Nat) (name : Text) :
    Accounts { joined } limit [] { name, limit } where
  limit_eq := rfl
  inOrder := List.nil_sublist _
  conserved := List.Perm.refl _
  dropped := rfl
  reports := rfl
  queue_le := fun hlimit => Int.le_of_lt hlimit
  unlimited := fun _ => ⟨rfl, rfl⟩

theorem Accounts.offered (h : l.Accounts limit heard s) (signal : Signal) :
    (l.offered s signal).Accounts limit (heard ++ signal.event?.toList) (s.offer signal).1 := by
  refine ⟨(s.limit_offer signal).trans h.limit_eq, ?_, ?_, ?_, ?_, ?_, ?_⟩
  · have hqueue := (s.queuedEvents_offer_sublist signal).append_left l.received
    rw [← List.append_assoc] at hqueue
    exact hqueue.trans (h.inOrder.append_right _)
  · have hbefore := List.perm_iff_count.mp h.conserved
    have hoffer := List.perm_iff_count.mp (s.offer_conserved signal)
    apply List.perm_iff_count.mpr
    intro e
    have hbefore := hbefore e
    have hoffer := hoffer e
    simp only [Listener.offered, List.count_append] at hbefore hoffer ⊢
    omega
  · simp [Listener.offered, s.dropped_offer, h.dropped]
  · simp only [Listener.offered, h.reports, s.records_offer, List.map_append, s.dropRecord_offer]
  · intro hlimit
    obtain rfl := h.limit_eq
    exact Subscription.length_queue_offer_le hlimit (h.queue_le hlimit) signal
  · intro hlimit
    have hroom := Broadcaster.isFull_of_nonpos (h.limit_eq ▸ hlimit)
    obtain ⟨hrefused, hdisplaced⟩ := h.unlimited hlimit
    cases signal <;>
      simp [Listener.offered, hrefused, hdisplaced, Subscription.refused, Subscription.displaced, hroom]

theorem exists_hear_eq (l : Listener) (r : Subscription.Receipt) :
    ∃ received, l.hear r = { l with received } := by
  cases r with
  | event e => exact ⟨_, rfl⟩
  | waiting => exact ⟨_, rfl⟩
  | ended => exact ⟨_, rfl⟩

/-- An event that is received leaves the front of the queue. -/
theorem received_hear (l : Listener) (s : Subscription) :
    (l.hear s.receive.1).received ++ s.receive.2.queuedEvents = l.received ++ s.queuedEvents := by
  unfold Subscription.receive
  split
  · rfl
  · split
    · rfl
    · rename_i e rest hqueue
      simp [hear, Subscription.queuedEvents, hqueue, Signal.event?]
    · rename_i rest hqueue
      have hnone : Signal.event? .closing = none := rfl
      simp [hear, Subscription.queuedEvents, hqueue, hnone]

theorem Accounts.hear (h : l.Accounts limit heard s) :
    (l.hear s.receive.1).Accounts limit heard s.receive.2 := by
  obtain ⟨hlimit, hdropped, hrecord⟩ := s.receive_eq
  have hmoved := l.received_hear s
  obtain ⟨received, hhear⟩ := l.exists_hear_eq s.receive.1
  rw [hhear] at hmoved ⊢
  refine ⟨hlimit.trans h.limit_eq, ?_, ?_, hdropped.trans h.dropped, ?_, ?_, h.unlimited⟩
  · rw [hmoved]
    exact h.inOrder
  · rw [hmoved]
    exact h.conserved
  · rw [hrecord]
    exact h.reports
  · intro hpos
    have hbound := h.queue_le hpos
    have hless := s.length_queue_receive_le
    omega

end Listener

end UploadGate
