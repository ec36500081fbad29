/-
  UploadGate/OrderedMap.lean
  ==========================
  **Finite maps that remember the order in which their keys were added.**

  Metadata, secrets and JSON objects show their entries in insertion order.  A
  key that is set again keeps its place and takes the new value.
-/

namespace UploadGate

abbrev OrderedMap (κ α : Type) := List (κ × α)

namespace OrderedMap

variable {κ α : Type} [DecidableEq κ]

def get? (m : OrderedMap κ α) (k : κ) : Option α := (m.find? fun e => e.1 = k).map Prod.snd

def has (m : OrderedMap κ α) (k : κ) : Bool := m.any fun e => e.1 = k

def keys (m : OrderedMap κ α) : List κ := m.map Prod.fst

/-- Sets the value of a key, in its place or at the end. -/
def set : OrderedMap κ α → κ → α → OrderedMap κ α
  | [], k, v => [(k, v)]
  | e :: rest, k, v => if e.1 = k then (k, v) :: rest else e :: set rest k v

def erase (m : OrderedMap κ α) (k : κ) : OrderedMap κ α := m.filter fun e => e.1 ≠ k

def setAll (m : OrderedMap κ α) (entries : List (κ × α)) : OrderedMap κ α :=
  entries.foldl (fun m e => m.set e.1 e.2) m

/-! ### Keys -/

theorem has_eq_true_iff (m : OrderedMap κ α) (k : κ) : m.has k = true ↔ k ∈ m.keys := by
  simp [has, keys]

theorem has_eq_false_iff (m : OrderedMap κ α) (k : κ) : m.has k = false ↔ k ∉ m.keys := by
  rw [← has_eq_true_iff, Bool.not_eq_true]

omit [DecidableEq κ] in
@[simp] theorem keys_append (m n : OrderedMap κ α) : keys (m ++ n) = m.keys ++ n.keys := List.map_append

omit [DecidableEq κ] in
@[simp] theorem keys_cons (e : κ × α) (m : OrderedMap κ α) : keys (e :: m) = e.1 :: m.keys := rfl

/-! ### Keys after a change -/

/-- A key that is set keeps its place, or comes last when it is new. -/
theorem keys_set (m : OrderedMap κ α) (k : κ) (v : α) :
    (m.set k v).keys = if k ∈ m.keys then m.keys else m.keys ++ [k] := by
  induction m with
  | nil => rfl
  | cons e rest ih =>
    by_cases h : e.1 = k
    · subst h
      simp [set]
    · have hne : k ≠ e.1 := Ne.symm h
      rw [set, if_neg h, keys_cons, keys_cons, ih]
      by_cases hk : k ∈ keys rest <;> simp [hk, hne]

theorem nodup_keys_set {m : OrderedMap κ α} (h : m.keys.Nodup) (k : κ) (v : α) :
    (m.set k v).keys.Nodup := by
  rw [keys_set]
  split
  · exact h
  · rename_i hk
    rw [List.nodup_append]
    refine ⟨h, by simp, ?_⟩
    rintro j hj k' hk' rfl
    exact hk (List.mem_singleton.mp hk' ▸ hj)

theorem keys_erase (m : OrderedMap κ α) (k : κ) : (m.erase k).keys = m.keys.filter (· ≠ k) := by
  rw [keys, keys, List.filter_map]
  rfl

/-! ### Entries after a change -/

theorem mem_or_eq_of_mem_set {m : OrderedMap κ α} {k : κ} {v : α} {e : κ × α} (h : e ∈ m.set k v) :
    e ∈ m ∨ e = (k, v) := by
  induction m with
  | nil => exact Or.inr (List.mem_singleton.mp h)
  | cons first m ih =>
    unfold set at h
    split at h
    · rcases List.mem_cons.mp h with rfl | hrest
      · exact Or.inr rfl
      · exact Or.inl (List.mem_cons_of_mem first hrest)
    · rcases List.mem_cons.mp h with rfl | hrest
      · exact Or.inl List.mem_cons_self
      · rcases ih hrest with hm | rfl
        · exact Or.inl (List.mem_cons_of_mem first hm)
        · exact Or.inr rfl

theorem mem_or_mem_of_mem_setAll {m : OrderedMap κ α} {entries : List (κ × α)} {e : κ × α}
    (h : e ∈ m.setAll entries) : e ∈ m ∨ e ∈ entries := by
  induction entries generalizing m with
  | nil => exact Or.inl h
  | cons first entries ih =>
    rcases ih (m := m.set first.1 first.2) h with hset | hrest
    · rcases mem_or_eq_of_mem_set hset with hm | rfl
      · exact Or.inl hm
      · exact Or.inr List.mem_cons_self
    · exact Or.inr (List.mem_cons_of_mem first hrest)

/-! ### Look-up after a change -/

@[simp] theorem get?_nil (k : κ) : get? ([] : OrderedMap κ α) k = none := rfl

theorem get?_cons (e : κ × α) (m : OrderedMap κ α) (k : κ) :
    get? (e :: m) k = if e.1 = k then some e.2 else get? m k := by
  by_cases h : e.1 = k <;> simp [get?, h]

theorem mem_of_get?_eq_some {m : OrderedMap κ α} {k : κ} {v : α} (h : m.get? k = some v) : (k, v) ∈ m := by
  obtain ⟨e, he, rfl⟩ := Option.map_eq_some_iff.mp h
  have hk : e.1 = k := by simpa using List.find?_some he
  subst hk
  exact List.mem_of_find?_eq_some he

theorem get?_eq_none_iff {m : OrderedMap κ α} {k : κ} : m.get? k = none ↔ k ∉ m.keys := by
  rw [← has_eq_false_iff, get?, Option.map_eq_none_iff, List.find?_eq_none, has, List.any_eq_false]

theorem mem_keys_iff {m : OrderedMap κ α} {k : κ} : k ∈ m.keys ↔ ∃ v, m.get? k = some v := by
  constructor
  · intro h
    cases hv : m.get? k with
    | none => exact absurd h (get?_eq_none_iff.mp hv)
    | some v => exact ⟨v, rfl⟩
  · rintro ⟨v, hv⟩
    exact List.mem_map_of_mem (mem_of_get?_eq_some hv)

theorem has_eq_isSome (m : OrderedMap κ α) (k : κ) : m.has k = (m.get? k).isSome := by
  rw [Bool.eq_iff_iff, has_eq_true_iff, mem_keys_iff, Option.isSome_iff_exists]

theorem get?_eq_some_of_mem {m : OrderedMap κ α} (hm : m.keys.Nodup) {e : κ × α} (he : e ∈ m) :
    m.get? e.1 = some e.2 := by
  induction m with
  | nil => cases he
  | cons first m ih =>
    rw [keys_cons, List.nodup_cons] at hm
    rw [get?_cons]
    rcases List.mem_cons.mp he with rfl | he
    · rw [if_pos rfl]
    · have hne : first.1 ≠ e.1 := by
        intro heq
        exact hm.1 (heq ▸ List.mem_map_of_mem he)
      rw [if_neg hne, ih hm.2 he]

theorem get?_append (m n : OrderedMap κ α) (k : κ) : get? (m ++ n) k = (m.get? k).or (n.get? k) := by
  rw [get?, List.find?_append, get?, get?]
  cases m.find? fun e => e.1 = k <;> rfl

/-- A key that was just set has its new value, and every other key its old one. -/
theorem get?_set (m : OrderedMap κ α) (k j : κ) (v : α) :
    (m.set k v).get? j = if k = j then some v else m.get? j := by
  induction m with
  | nil => simp [set, get?_cons]
  | cons e rest ih =>
    by_cases h : e.1 = k
    · by_cases hj : k = j <;> simp [set, h, get?_cons, hj]
    · by_cases hj : e.1 = j
      · have hk : k ≠ j := fun hk => h (hj.trans hk.symm)
        rw [set, if_neg h, get?_cons, if_pos hj, if_neg hk, get?_cons, if_pos hj]
      · rw [set, if_neg h, get?_cons, if_neg hj, ih, get?_cons, if_neg hj]

/-- Of two keys that are set, the order does not matter if the first has a place. -/
theorem set_comm {m : OrderedMap κ α} {k j : κ} (hne : k ≠ j) (hk : k ∈ m.keys) (v w : α) :
    (m.set k v).set j w = (m.set j w).set k v := by
  induction m with
  | nil => cases hk
  | cons e rest ih =>
    by_cases hfirst : e.1 = k
    · have hother : ¬ e.1 = j := fun heq => hne (hfirst.symm.trans heq)
      simp only [set, if_pos hfirst, if_neg hne, if_neg hother]
    · by_cases hsecond : e.1 = j
      · simp only [set, if_neg hfirst, if_pos hsecond, if_neg (Ne.symm hne)]
      · have hrest : k ∈ keys rest := by
          rcases List.mem_cons.mp hk with heq | hrest
          · exact absurd heq.symm hfirst
          · exact hrest
        simp only [set, if_neg hfirst, if_neg hsecond, ih hrest]

/-- A removed key has no value, and every other key its old one. -/
theorem get?_erase (m : OrderedMap κ α) (k j : κ) :
    (m.erase k).get? j = if k = j then none else m.get? j := by
  induction m with
  | nil => simp [erase]
  | cons e rest ih =>
    by_cases h : e.1 = k
    · by_cases hj : k = j
      · simp_all [erase]
      · have : e.1 ≠ j := fun he => hj (h.symm.trans he)
        simp_all [erase, get?_cons]
    · by_cases hj : e.1 = j
      · have : k ≠ j := fun hk => h (hj.trans hk.symm)
        simp_all [erase, get?_cons]
      · simp_all [erase, get?_cons]

end OrderedMap

end UploadGate
