/-
  UploadGate/Proofs/Metadata/RoundTrip.lean
  =========================================
  **What a written header reads as.**

  A header that was written can be read, and shows the keys in their order.  The
  value found under a key is the *rereading* of the one that was written: the
  octets are the same, and so is the text unless escapes stand in it side by
  side that join to a character.  Metadata that was read from a header is
  written and read back as it was.
-/
import UploadGate.Metadata.Header
import UploadGate.Proofs.Base64.Encoding
import UploadGate.Proofs.Outcome
import UploadGate.Proofs.Text.Cutting
import UploadGate.Proofs.Text.Escapes

namespace UploadGate.Metadata

/-! ### Rereading a value -/

def reread (value : Text) : Text := (Utf8.encodeEscaped? value).elim value valueOfBytes

/-- The metadata that is read from the octets of the values. -/
def rereadAll (m : Metadata) : Metadata := m.map fun e => (e.1, reread e.2)

theorem reread_of_encodeEscaped? {value : Text} {bytes : Bytes}
    (h : Utf8.encodeEscaped? value = some bytes) : reread value = valueOfBytes bytes := by
  rw [reread, h]
  rfl

theorem valueToBytes_valueOfBytes (bytes : Bytes) : valueToBytes (valueOfBytes bytes) = .ok bytes := by
  rw [valueToBytes, valueOfBytes, Utf8.encodeEscaped?_decodeEscaped]

/-- A rereading stands for the same octets. -/
theorem valueToBytes_reread (value : Text) : valueToBytes (reread value) = valueToBytes value := by
  cases h : Utf8.encodeEscaped? value with
  | none =>
    rw [reread, h]
    rfl
  | some bytes =>
    rw [reread_of_encodeEscaped? h, valueToBytes_valueOfBytes, valueToBytes, h]

/-- A value that octets read as is reread as it is. -/
theorem reread_valueOfBytes (bytes : Bytes) : reread (valueOfBytes bytes) = valueOfBytes bytes :=
  reread_of_encodeEscaped? (Utf8.encodeEscaped?_decodeEscaped bytes)

/-- A value without surrogates is reread as it is. -/
theorem reread_of_not_isSurrogate {value : Text} (h : value.any CodePoint.isSurrogate = false) :
    reread value = value := by
  rw [reread_of_encodeEscaped? (Utf8.encodeEscaped?_of_not_isSurrogate h)]
  exact Utf8.decodeEscaped_flatMap_octets h

/-- A value is reread as it is just when it hides no character. -/
theorem reread_eq_self_iff {value : Text} {bytes : Bytes} (h : Utf8.encodeEscaped? value = some bytes) :
    reread value = value ↔ ¬ Utf8.HidesCharacter value := by
  rw [reread_of_encodeEscaped? h]
  exact Utf8.decodeEscaped_eq_self_iff h

@[simp] theorem keys_rereadAll (m : Metadata) : OrderedMap.keys (rereadAll m) = OrderedMap.keys m := by
  simp [rereadAll, OrderedMap.keys]

theorem rereadAll_append (m n : Metadata) : rereadAll (m ++ n) = rereadAll m ++ rereadAll n :=
  List.map_append

theorem get?_rereadAll (m : Metadata) (k : Text) :
    OrderedMap.get? (rereadAll m) k = (OrderedMap.get? m k).map reread := by
  induction m with
  | nil => rfl
  | cons e m ih =>
    have hcons : rereadAll (e :: m) = (e.1, reread e.2) :: rereadAll m := rfl
    rw [hcons, OrderedMap.get?_cons, OrderedMap.get?_cons, ih]
    by_cases hk : e.1 = k
    · rw [if_pos hk, if_pos hk]
      rfl
    · rw [if_neg hk, if_neg hk]

theorem rereadAll_eq_self {m : Metadata} (h : ∀ e ∈ m, reread e.2 = e.2) : rereadAll m = m := by
  have hself : ∀ e ∈ m, (e.1, reread e.2) = e := fun e he => Prod.ext rfl (h e he)
  exact (List.map_congr_left hself).trans (List.map_id m)

/-- Metadata and its rereading agree as maps just when every value is reread as it is. -/
theorem get?_rereadAll_eq_iff {m : Metadata} (hkeys : (OrderedMap.keys m).Nodup) :
    (∀ k, OrderedMap.get? (rereadAll m) k = OrderedMap.get? m k) ↔ ∀ e ∈ m, reread e.2 = e.2 := by
  constructor
  · intro hagree e he
    have hk := hagree e.1
    rw [get?_rereadAll, OrderedMap.get?_eq_some_of_mem hkeys he] at hk
    exact Option.some.inj hk
  · intro hself k
    rw [rereadAll_eq_self hself]

/-! ### Entries -/

theorem isWord_of_isWritableKey {key : Text} (h : isWritableKey key = true) :
    key.IsWord ∧ comma ∉ key := by
  simp only [isWritableKey, Bool.and_eq_true, Bool.not_eq_true', List.any_eq_false,
    List.isEmpty_eq_false_iff] at h
  obtain ⟨⟨hne, hcomma⟩, hblank⟩ := h
  exact ⟨⟨hne, fun c hc => by simpa using hblank c hc⟩, by simpa using hcomma⟩

/-- What it takes for an entry to be written. -/
theorem writeEntry_eq_ok {e : Text × Text} {entry : Text} (h : writeEntry e = .ok entry) :
    isWritableKey e.1 = true ∧
      ((e.2 = [] ∧ entry = e.1) ∨ ∃ bytes, Utf8.encodeEscaped? e.2 = some bytes
        ∧ entry = e.1 ++ .ofChar ' ' :: Base64.encode bytes) := by
  unfold writeEntry at h
  split at h
  · cases h
  · rename_i hkey
    refine ⟨by simpa using hkey, ?_⟩
    split at h
    · rename_i hempty
      exact Or.inl ⟨by simpa using hempty, (Except.ok.inj h).symm⟩
    · right
      cases hbytes : Utf8.encodeEscaped? e.2 with
      | none => simp [valueToBytes, hbytes, Except.map] at h
      | some bytes =>
        simp only [valueToBytes, hbytes, Except.map, Except.ok.injEq] at h
        exact ⟨bytes, rfl, h.symm⟩

theorem isWord_encode {bytes : Bytes} (h : bytes ≠ []) : (Base64.encode bytes).IsWord :=
  ⟨Base64.encode_ne_nil h, fun _ hc => (Base64.isBlank_eq_false_of_mem_encode hc).1⟩

/-- A written entry holds no comma. -/
theorem not_mem_of_writeEntry {e : Text × Text} {entry : Text} (h : writeEntry e = .ok entry) :
    comma ∉ entry := by
  obtain ⟨hkey, hentry⟩ := writeEntry_eq_ok h
  have hcomma := (isWord_of_isWritableKey hkey).2
  rcases hentry with ⟨-, rfl⟩ | ⟨bytes, -, rfl⟩
  · exact hcomma
  · intro hmem
    rcases List.mem_append.mp hmem with hmem | hmem
    · exact hcomma hmem
    · rcases List.mem_cons.mp hmem with hspace | hmem
      · exact absurd hspace (by decide)
      · exact (Base64.isBlank_eq_false_of_mem_encode hmem).2 rfl

/-- **An entry reads as it was written**, behind entries with other keys. -/
theorem readEntry_of_writeEntry {e : Text × Text} {entry : Text} (h : writeEntry e = .ok entry)
    {before : Metadata} (hbefore : before.has e.1 = false) (position : Nat) :
    readEntry before position entry = .ok (e.1, reread e.2) := by
  obtain ⟨hkey, hentry⟩ := writeEntry_eq_ok h
  have hword := (isWord_of_isWritableKey hkey).1
  rcases hentry with ⟨hvalue, rfl⟩ | ⟨bytes, hbytes, rfl⟩
  · rw [readEntry, hword.words, hvalue]
    simp only [hbefore]
    rfl
  · rw [readEntry, hword.words_append_cons (by decide), reread_of_encodeEscaped? hbytes]
    by_cases hne : bytes = []
    · subst hne
      have hnone : (Base64.encode []).words = [] := rfl
      rw [hnone]
      simp only [hbefore]
      rfl
    · rw [(isWord_encode hne).words]
      simp only [hbefore, Base64.decodePadded?_encode]
      rfl

/-! ### Headers -/

theorem mapM_writeEntry_cons {e : Text × Text} {m : Metadata} {entries : List Text}
    (h : (e :: m).mapM writeEntry = .ok entries) :
    ∃ entry rest, writeEntry e = .ok entry ∧ m.mapM writeEntry = .ok rest ∧ entries = entry :: rest := by
  rw [List.mapM_cons] at h
  obtain ⟨entry, hentry, h⟩ := bind_eq_ok_iff.mp h
  obtain ⟨rest, hrest, h⟩ := bind_eq_ok_iff.mp h
  exact ⟨entry, rest, hentry, hrest, (Except.ok.inj h).symm⟩

theorem not_mem_of_mapM_writeEntry {m : Metadata} {entries : List Text}
    (h : m.mapM writeEntry = .ok entries) : ∀ entry ∈ entries, comma ∉ entry := by
  induction m generalizing entries with
  | nil =>
    obtain rfl := Except.ok.inj h
    simp
  | cons e m ih =>
    obtain ⟨entry, rest, hentry, hrest, rfl⟩ := mapM_writeEntry_cons h
    intro other hother
    rcases List.mem_cons.mp hother with rfl | hother
    · exact not_mem_of_writeEntry hentry
    · exact ih hrest other hother

theorem exists_octets_of_mapM_writeEntry {m : Metadata} {entries : List Text}
    (h : m.mapM writeEntry = .ok entries) : ∀ e ∈ m, ∃ bytes, Utf8.encodeEscaped? e.2 = some bytes := by
  induction m generalizing entries with
  | nil => exact List.forall_mem_nil _
  | cons e m ih =>
    obtain ⟨entry, rest, hentry, hrest, -⟩ := mapM_writeEntry_cons h
    refine List.forall_mem_cons.mpr ⟨?_, ih hrest⟩
    rcases (writeEntry_eq_ok hentry).2 with ⟨hvalue, -⟩ | ⟨bytes, hbytes, -⟩
    · exact ⟨[], by rw [hvalue]; rfl⟩
    · exact ⟨bytes, hbytes⟩

/-- Written entries are read in turn, behind entries with other keys. -/
theorem readEntries_of_mapM_writeEntry {m : Metadata} {entries : List Text}
    (h : m.mapM writeEntry = .ok entries) {before : Metadata}
    (hkeys : (OrderedMap.keys before ++ OrderedMap.keys m).Nodup) (position : Nat) :
    readEntries before position entries = .ok (before ++ rereadAll m) := by
  induction m generalizing entries before position with
  | nil =>
    obtain rfl := Except.ok.inj h
    simp [readEntries, rereadAll]
  | cons e m ih =>
    obtain ⟨entry, rest, hentry, hrest, rfl⟩ := mapM_writeEntry_cons h
    have hnew : OrderedMap.has before e.1 = false := by
      rw [OrderedMap.has_eq_false_iff]
      intro hmem
      exact (List.nodup_append.mp hkeys).2.2 e.1 hmem e.1 (by simp) rfl
    have hlater : (OrderedMap.keys (before ++ [(e.1, reread e.2)]) ++ OrderedMap.keys m).Nodup := by
      simpa [OrderedMap.keys] using hkeys
    rw [readEntries, readEntry_of_writeEntry hentry hnew]
    simp only
    rw [ih hrest hlater]
    simp [rereadAll]

theorem encode_eq_ok {m : Metadata} {header : Text} (h : encode m = .ok header) :
    ∃ entries, m.mapM writeEntry = .ok entries ∧ header = Text.join [comma] entries := by
  obtain ⟨entries, hentries, hheader⟩ := map_eq_ok_iff.mp h
  exact ⟨entries, hentries, hheader.symm⟩

theorem exists_octets_of_encode {m : Metadata} {header : Text} (h : encode m = .ok header) :
    ∀ e ∈ m, ∃ bytes, Utf8.encodeEscaped? e.2 = some bytes := by
  obtain ⟨entries, hentries, -⟩ := encode_eq_ok h
  exact exists_octets_of_mapM_writeEntry hentries

/-- The header of at least one entry is not blank: its first key is not. -/
theorem isBlank_join_writeEntry {e : Text × Text} {m : Metadata} {entries : List Text}
    (h : (e :: m).mapM writeEntry = .ok entries) : (Text.join [comma] entries).isBlank = false := by
  obtain ⟨entry, rest, hentry, -, rfl⟩ := mapM_writeEntry_cons h
  obtain ⟨hkey, hform⟩ := writeEntry_eq_ok hentry
  obtain ⟨c, hc, hblank⟩ := (isWord_of_isWritableKey hkey).1.exists_mem
  have hmem : c ∈ entry := by
    rcases hform with ⟨-, rfl⟩ | ⟨bytes, -, rfl⟩
    · exact hc
    · exact List.mem_append_left _ hc
  exact Text.isBlank_eq_false_of_mem (Text.mem_join List.mem_cons_self hmem) hblank

/-- **A written header can be read**, and shows the rereading of what was written. -/
theorem decode_of_encode {m : Metadata} {header : Text} (h : encode m = .ok header)
    (hkeys : (OrderedMap.keys m).Nodup) : decode (some header) = .ok (rereadAll m) := by
  obtain ⟨entries, hentries, rfl⟩ := encode_eq_ok h
  cases m with
  | nil =>
    obtain rfl := Except.ok.inj hentries
    rfl
  | cons e m =>
    have hkeys' : (OrderedMap.keys ([] : Metadata) ++ OrderedMap.keys (e :: m)).Nodup := hkeys
    have hread := readEntries_of_mapM_writeEntry hentries hkeys' 0
    obtain ⟨entry, rest, -, -, rfl⟩ := mapM_writeEntry_cons hentries
    have hcut : Text.splitOn comma (Text.join [comma] (entry :: rest)) = entry :: rest :=
      (Text.splitOn_eq_iff (List.cons_ne_nil _ _)).mpr ⟨rfl, not_mem_of_mapM_writeEntry hentries⟩
    simp only [decode, isBlank_join_writeEntry hentries, hcut]
    exact hread

/-! ### Metadata that was read -/

/-- What holds of metadata that was read from a header. -/
structure IsRead (m : Metadata) : Prop where
  keys_nodup : (OrderedMap.keys m).Nodup
  /-- Every value is the text of some octets. -/
  exists_bytes : ∀ e ∈ m, ∃ bytes, e.2 = valueOfBytes bytes

theorem readEntry_eq_ok {before : Metadata} {position : Nat} {entry : Text} {e : Text × Text}
    (h : readEntry before position entry = .ok e) :
    OrderedMap.has before e.1 = false ∧ ∃ bytes, e.2 = valueOfBytes bytes := by
  unfold readEntry at h
  split at h
  · cases h
  · cases h
  · split at h
    · cases h
    · rename_i hnew
      split at h
      · obtain rfl := Except.ok.inj h
        exact ⟨by simpa using hnew, [], rfl⟩
      · split at h
        · rename_i bytes _
          obtain rfl := Except.ok.inj h
          exact ⟨by simpa using hnew, bytes, rfl⟩
        · cases h

theorem IsRead.append {before : Metadata} (hbefore : IsRead before) {e : Text × Text}
    (hnew : OrderedMap.has before e.1 = false) (hbytes : ∃ bytes, e.2 = valueOfBytes bytes) :
    IsRead (before ++ [e]) := by
  refine ⟨?_, ?_⟩
  · rw [OrderedMap.has_eq_false_iff] at hnew
    rw [OrderedMap.keys_append, List.nodup_append]
    refine ⟨hbefore.keys_nodup, by simp [OrderedMap.keys], ?_⟩
    rintro k hk j hj rfl
    obtain rfl : k = e.1 := by simpa [OrderedMap.keys] using hj
    exact hnew hk
  · intro f hf
    rcases List.mem_append.mp hf with hf | hf
    · exact hbefore.exists_bytes f hf
    · obtain rfl := List.mem_singleton.mp hf
      exact hbytes

theorem isRead_readEntries {before m : Metadata} (hbefore : IsRead before) {position : Nat}
    {entries : List Text} (h : readEntries before position entries = .ok m) : IsRead m := by
  induction entries generalizing before position with
  | nil =>
    obtain rfl := Except.ok.inj h
    exact hbefore
  | cons entry entries ih =>
    rw [readEntries] at h
    split at h
    · cases h
    · rename_i e hentry
      obtain ⟨hnew, hbytes⟩ := readEntry_eq_ok hentry
      exact ih (hbefore.append hnew hbytes) h

theorem isRead_of_decode {header? : Option Text} {m : Metadata} (h : decode header? = .ok m) :
    IsRead m := by
  have hempty : IsRead [] := ⟨List.nodup_nil, by simp⟩
  unfold decode at h
  split at h
  · obtain rfl := Except.ok.inj h
    exact hempty
  · split at h
    · obtain rfl := Except.ok.inj h
      exact hempty
    · exact isRead_readEntries hempty h

/-- **Metadata that was read is reread as it is.** -/
theorem IsRead.rereadAll {m : Metadata} (h : IsRead m) : rereadAll m = m := by
  apply rereadAll_eq_self
  intro e he
  obtain ⟨bytes, hbytes⟩ := h.exists_bytes e he
  rw [hbytes, reread_valueOfBytes]

end UploadGate.Metadata
