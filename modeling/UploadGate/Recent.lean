/-
  UploadGate/Recent.lean
  ======================
  **Buffers that keep the most recent entries.**

  An entry that is pushed onto a full buffer pushes out the oldest one.  A
  buffer that was empty at first thus holds the last `capacity` of all entries
  pushed.
-/

namespace UploadGate

/-- The latest entries, oldest first, at most `capacity` of them. -/
structure Recent (α : Type) where
  capacity : Nat
  entries : List α := []
deriving DecidableEq, Repr

namespace Recent

/-- Adds an entry at the end and drops what no longer fits at the front. -/
def push (r : Recent α) (x : α) : Recent α :=
  { r with entries := (r.entries ++ [x]).drop (r.entries.length + 1 - r.capacity) }

def clear (r : Recent α) : Recent α := { r with entries := [] }

@[simp] theorem push_capacity (r : Recent α) (x : α) : (r.push x).capacity = r.capacity := rfl

/-- A buffer never outgrows its capacity. -/
theorem length_push_le (r : Recent α) (x : α) : (r.push x).entries.length ≤ r.capacity := by
  simp [push]
  omega

end Recent

end UploadGate
