/-
  UploadGate/Proofs/Engine/Publishing.lean
  ========================================
  **What the engine puts onto the source of events.**

  Events come behind those that were there, and none comes once the broadcaster
  is closed.  The store has no part in it.
-/
import UploadGate.Engine.Operations

namespace UploadGate.Engine

variable {e e' e'' : Engine} {info : UploadInfo}

/-- An engine has published events since, and has left the store alone. -/
structure Publishes (e e' : Engine) (events : List Event) : Prop where
  store : e'.store = e.store
  broadcaster : e'.broadcaster =
    { e.broadcaster with source := e.broadcaster.source ++ events.map .event }
  isOpen : events ≠ [] → e.broadcaster.isClosed = false

namespace Publishes

theorem of_eq (hstore : e'.store = e.store) (hbroadcaster : e'.broadcaster = e.broadcaster) :
    e.Publishes e' [] := by
  refine ⟨hstore, ?_, ?_⟩
  · rw [hbroadcaster]
    simp
  · intro h
    exact absurd rfl h

theorem trans {events more : List Event} (h : e.Publishes e' events) (h' : e'.Publishes e'' more) :
    e.Publishes e'' (events ++ more) := by
  refine ⟨h'.store.trans h.store, ?_, ?_⟩
  · rw [h'.broadcaster, h.broadcaster]
    simp
  · intro hne
    by_cases hevents : events = []
    · have hmore : more ≠ [] := by
        intro hmore
        exact hne (by rw [hevents, hmore, List.nil_append])
      have hopen := h'.isOpen hmore
      rw [h.broadcaster] at hopen
      exact hopen
    · exact h.isOpen hevents

end Publishes

/-! ### Publishing and forgetting -/

/-- One event is published, and the operation answers, unless the broadcaster is closed. -/
theorem publish_publishes (e : Engine) (kind : EventKind) (info : UploadInfo) :
    e.Publishes (e.publish kind info).engine (if e.broadcaster.isClosed then [] else [info.event kind])
      ∧ (e.publish kind info).answer
        = if e.broadcaster.isClosed then .error (.closed .publish) else .ok () := by
  unfold publish Broadcaster.publish
  by_cases hclosed : e.broadcaster.isClosed = true
  · simp only [hclosed, if_true, reply]
    exact ⟨Publishes.of_eq rfl rfl, trivial⟩
  · simp only [if_neg hclosed]
    exact ⟨⟨rfl, rfl, fun _ => by simpa using hclosed⟩, trivial⟩

theorem eq_event_of_mem {isClosed : Bool} {kind : EventKind} {ev : Event}
    (h : ev ∈ if isClosed then [] else [info.event kind]) : ev = info.event kind := by
  split at h
  · cases h
  · exact List.mem_singleton.mp h

theorem foldl_forget_publishes (ids : List Text) (e : Engine) : e.Publishes (ids.foldl forget e) [] := by
  induction ids generalizing e with
  | nil => exact Publishes.of_eq rfl rfl
  | cons id ids ih =>
    have hforget : e.Publishes (e.forget id) [] := Publishes.of_eq rfl rfl
    rw [List.foldl_cons]
    exact hforget.trans (ih (e.forget id))

end UploadGate.Engine
