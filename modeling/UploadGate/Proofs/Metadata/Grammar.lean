/-
  UploadGate/Proofs/Metadata/Grammar.lean
  =======================================
  **Which headers hold metadata, and which metadata they hold.**

  `WritesHeader` is the grammar of metadata headers, said of whole texts and
  without reference to the reading: entries between commas, each one word or two
  with blanks around them, no first word twice, and second words that are padded
  Base64.  Reading accepts just these headers, and the metadata that it finds is
  the one they write, entry by entry.
-/
import UploadGate.Metadata.Header
import UploadGate.Proofs.Outcome
import UploadGate.Proofs.Text.Cutting

namespace UploadGate.Metadata

variable {before m : Metadata} {entry : Text} {entries : List Text} {position : Nat} {e : Text × Text}
  {header? : Option Text}

/-! ### The grammar -/

/-- How an entry is written: a key with an empty value alone, or a key and the octets of its
    value in Base64. -/
inductive WritesEntry : Text → Text × Text → Prop
  | bare {entry key : Text} (spaced : Text.Spaced [key] entry) : WritesEntry entry (key, [])
  | valued {entry key value : Text} {bytes : Bytes} (spaced : Text.Spaced [key, value] entry)
      (octets : Base64.decodePadded? value = some bytes) : WritesEntry entry (key, valueOfBytes bytes)

/-- The pieces of a text between its commas. -/
structure AreEntries (entries : List Text) (header : Text) : Prop where
  ne_nil : entries ≠ []
  joined : header = Text.join [comma] entries
  comma_not_mem : ∀ entry ∈ entries, comma ∉ entry

/-- How metadata is written into a header, which may be absent. -/
inductive WritesHeader : Option Text → Metadata → Prop
  | absent : WritesHeader none []
  | blank {header : Text} (blank : header.isBlank = true) : WritesHeader (some header) []
  | entries {header : Text} {entries : List Text} {m : Metadata} (cut : AreEntries entries header)
      (each : List.Forall₂ WritesEntry entries m) (distinct : (OrderedMap.keys m).Nodup) :
      WritesHeader (some header) m

/-! ### Entries -/

/-- An entry is read, behind entries with other keys, just when it is written as such. -/
theorem readEntry_eq_ok_iff :
    readEntry before position entry = .ok e ↔ WritesEntry entry e ∧ OrderedMap.has before e.1 = false := by
  constructor
  · intro h
    unfold readEntry at h
    split at h
    · cases h
    · cases h
    · rename_i key fields hfew hwords
      split at h
      · cases h
      · rename_i hnew
        rw [Bool.not_eq_true] at hnew
        split at h
        · obtain rfl := Except.ok.inj h
          exact ⟨.bare (Text.words_eq_iff.mp hwords), hnew⟩
        · rename_i value more
          split at h
          · rename_i bytes hbytes
            obtain rfl := Except.ok.inj h
            obtain rfl : more = [] := by
              cases more with
              | nil => rfl
              | cons third more => exact (hfew _ _ _ rfl).elim
            exact ⟨.valued (Text.words_eq_iff.mp hwords) hbytes, hnew⟩
          · cases h
  · rintro ⟨hentry, hnew⟩
    cases hentry with
    | bare hspaced =>
      rw [readEntry, Text.words_eq_iff.mpr hspaced]
      simp [hnew]
    | valued hspaced hbytes =>
      rw [readEntry, Text.words_eq_iff.mpr hspaced]
      simp [hnew, hbytes]

/-- The entries behind some others are read in turn: each as it is written, and no key twice. -/
theorem readEntries_eq_ok_iff (hbefore : (OrderedMap.keys before).Nodup) :
    readEntries before position entries = .ok m ↔
      ∃ added, m = before ++ added ∧ List.Forall₂ WritesEntry entries added ∧ (OrderedMap.keys m).Nodup := by
  induction entries generalizing before position with
  | nil =>
    simp only [readEntries, List.forall₂_nil_left_iff, Except.ok.injEq]
    constructor
    · rintro rfl
      exact ⟨[], by simp, rfl, hbefore⟩
    · rintro ⟨added, rfl, rfl, -⟩
      simp
  | cons entry entries ih =>
    have hnodup : ∀ {e : Text × Text}, OrderedMap.has before e.1 = false ↔
        (OrderedMap.keys (before ++ [e])).Nodup := by
      intro e
      rw [OrderedMap.has_eq_false_iff, OrderedMap.keys_append, List.nodup_append]
      simp only [OrderedMap.keys_cons, hbefore, true_and]
      constructor
      · intro hnew
        refine ⟨List.pairwise_singleton _ _, ?_⟩
        rintro key hkey other hother rfl
        obtain rfl := List.mem_singleton.mp hother
        exact hnew hkey
      · rintro ⟨-, hdisjoint⟩ hmem
        exact hdisjoint _ hmem _ (List.mem_singleton.mpr rfl) rfl
    constructor
    · intro h
      rw [readEntries] at h
      split at h
      · cases h
      · rename_i e hread
        obtain ⟨hentry, hnew⟩ := readEntry_eq_ok_iff.mp hread
        obtain ⟨added, rfl, hadded, hkeys⟩ := (ih (hnodup.mp hnew)).mp h
        exact ⟨e :: added, by simp, .cons hentry hadded, hkeys⟩
    · rintro ⟨added, rfl, hadded, hkeys⟩
      obtain ⟨e, later, hentry, hlater, rfl⟩ := List.forall₂_cons_left_iff.mp hadded
      have happend : before ++ e :: later = before ++ [e] ++ later := List.append_cons before e later
      have hfirst : (OrderedMap.keys (before ++ [e])).Nodup := by
        have hall := hkeys
        rw [happend, OrderedMap.keys_append, List.nodup_append] at hall
        exact hall.1
      rw [readEntries, readEntry_eq_ok_iff.mpr ⟨hentry, hnodup.mpr hfirst⟩]
      exact (ih hfirst).mpr ⟨later, happend, hlater, hkeys⟩

/-! ### Headers -/

theorem areEntries_iff {header : Text} : AreEntries entries header ↔ header.splitOn comma = entries := by
  constructor
  · intro h
    exact (Text.splitOn_eq_iff h.ne_nil).mpr ⟨h.joined.symm, h.comma_not_mem⟩
  · rintro rfl
    obtain ⟨hjoin, hpieces⟩ := (Text.splitOn_eq_iff (Text.splitOn_ne_nil comma header)).mp rfl
    exact ⟨Text.splitOn_ne_nil comma header, hjoin.symm, hpieces⟩

theorem WritesEntry.isBlank_eq_false (h : WritesEntry entry e) : entry.isBlank = false := by
  rw [← Bool.not_eq_true]
  intro hblank
  have hnone := Text.words_eq_iff.mpr (.done hblank)
  cases h with
  | bare hspaced =>
    rw [Text.words_eq_iff.mpr hspaced] at hnone
    cases hnone
  | valued hspaced _ =>
    rw [Text.words_eq_iff.mpr hspaced] at hnone
    cases hnone

theorem AreEntries.isBlank_eq_false {header : Text} (h : AreEntries entries header)
    (heach : List.Forall₂ WritesEntry entries m) : header.isBlank = false := by
  obtain ⟨first, rest, rfl⟩ := List.exists_cons_of_ne_nil h.ne_nil
  obtain ⟨e, -, hfirst, -⟩ := List.forall₂_cons_left_iff.mp heach
  have hblank := hfirst.isBlank_eq_false
  rw [Text.isBlank, List.all_eq_false] at hblank
  obtain ⟨c, hc, hblank⟩ := hblank
  rw [h.joined]
  exact Text.isBlank_eq_false_of_mem (Text.mem_join List.mem_cons_self hc) (by simpa using hblank)

/-- **What is read from a header** is the metadata that it writes. -/
theorem decode_eq_ok_iff : decode header? = .ok m ↔ WritesHeader header? m := by
  have hempty : (OrderedMap.keys ([] : Metadata)).Nodup := List.nodup_nil
  constructor
  · intro h
    unfold decode at h
    split at h
    · obtain rfl := Except.ok.inj h
      exact .absent
    · rename_i header
      split at h
      · rename_i hblank
        obtain rfl := Except.ok.inj h
        exact .blank hblank
      · obtain ⟨added, rfl, hadded, hkeys⟩ := (readEntries_eq_ok_iff hempty).mp h
        exact .entries (areEntries_iff.mpr rfl) hadded hkeys
  · intro h
    cases h with
    | absent => rfl
    | blank hblank => simp only [decode, hblank, if_true]
    | entries hcut heach hdistinct =>
      simp only [decode, hcut.isBlank_eq_false heach, areEntries_iff.mp hcut]
      exact (readEntries_eq_ok_iff hempty).mpr ⟨m, rfl, heach, hdistinct⟩

/-- **A header is accepted just when it is written by the grammar**: the metadata read from it is
    the one that it writes, and every header that writes none is refused as malformed. -/
theorem decode_follows_grammar (header? : Option Text) :
    (∀ m, decode header? = .ok m ↔ WritesHeader header? m)
      ∧ ((∃ fault, decode header? = .error fault) ↔ ∀ m, ¬ WritesHeader header? m) := by
  refine ⟨fun m => decode_eq_ok_iff, ?_⟩
  simp only [← decode_eq_ok_iff]
  cases decode header? with
  | ok m => simp
  | error fault => simp

end UploadGate.Metadata
