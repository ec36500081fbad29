/-
  UploadGate/Proofs/Metadata/Canonical.lean
  =========================================
  **Metadata that headers can carry, and the one form in which it is written.**

  A header carries metadata whose keys are distinct words without a comma and
  whose values are the texts of octets.  All such metadata can be written and is
  read back as it was, and only such metadata comes out of a header.  So reading
  a header and writing it again gives a form that a second time does not change.
-/
import UploadGate.Proofs.Metadata.RoundTrip

namespace UploadGate.Metadata

variable {m : Metadata} {header : Text}

/-- What it takes for metadata to stand in a header. -/
structure IsWritable (m : Metadata) : Prop where
  nodup_keys : (OrderedMap.keys m).Nodup
  isWord_key : ∀ e ∈ m, e.1.IsWord
  comma_not_mem_key : ∀ e ∈ m, comma ∉ e.1
  /-- Every value is the text of some octets. -/
  exists_bytes : ∀ e ∈ m, ∃ bytes, e.2 = valueOfBytes bytes

/-- Reads a header and writes what it says. -/
def recode (header : Text) : Except Failure Text :=
  match decode (some header) with
  | .error fault => .error (.upload (.metadata fault))
  | .ok m => encode m

/-! ### Writing -/

theorem isWritableKey_of_isWord {key : Text} (hkey : key.IsWord) (hcomma : comma ∉ key) :
    isWritableKey key = true := by
  have hblank : key.any CodePoint.isBlank = false := by
    rw [List.any_eq_false]
    intro c hc
    simp [hkey.unblank c hc]
  simp [isWritableKey, hkey.ne_nil, hcomma, hblank]

theorem exists_writeEntry {e : Text × Text} (hkey : isWritableKey e.1 = true)
    (hvalue : ∃ bytes, e.2 = valueOfBytes bytes) : ∃ entry, writeEntry e = .ok entry := by
  obtain ⟨bytes, hbytes⟩ := hvalue
  unfold writeEntry
  rw [hkey, hbytes, valueToBytes_valueOfBytes]
  by_cases hempty : (valueOfBytes bytes).isEmpty = true
  · exact ⟨e.1, by simp [hempty]⟩
  · exact ⟨e.1 ++ .ofChar ' ' :: Base64.encode bytes, by simp [hempty, Except.map]⟩

theorem exists_mapM_writeEntry (h : ∀ e ∈ m, ∃ entry, writeEntry e = .ok entry) :
    ∃ entries, m.mapM writeEntry = .ok entries := by
  induction m with
  | nil => exact ⟨[], rfl⟩
  | cons e m ih =>
    obtain ⟨entry, hentry⟩ := h e List.mem_cons_self
    obtain ⟨entries, hentries⟩ := ih fun e' he' => h e' (List.mem_cons_of_mem e he')
    refine ⟨entry :: entries, ?_⟩
    rw [List.mapM_cons]
    exact bind_eq_ok_iff.mpr ⟨entry, hentry, bind_eq_ok_iff.mpr ⟨entries, hentries, rfl⟩⟩

theorem IsWritable.exists_encode (h : IsWritable m) : ∃ header, encode m = .ok header := by
  have hentry : ∀ e ∈ m, ∃ entry, writeEntry e = .ok entry := by
    intro e he
    have hkey := isWritableKey_of_isWord (h.isWord_key e he) (h.comma_not_mem_key e he)
    exact exists_writeEntry hkey (h.exists_bytes e he)
  obtain ⟨entries, hentries⟩ := exists_mapM_writeEntry hentry
  exact ⟨Text.join [comma] entries, map_eq_ok_iff.mpr ⟨entries, hentries, rfl⟩⟩

theorem writeEntry_eq_error_iff {e : Text × Text} (hkey : isWritableKey e.1 = true) {failure : Failure} :
    writeEntry e = .error failure ↔ failure = .value .unencodable ∧ Utf8.HasNoOctets e.2 := by
  rw [← Utf8.encodeEscaped?_eq_none_iff, writeEntry, hkey]
  by_cases hempty : e.2 = []
  · simp [hempty, Utf8.encodeEscaped?]
  · simp only [Bool.not_true, Bool.false_eq_true, if_false, List.isEmpty_iff, hempty, map_eq_error_iff,
      valueToBytes]
    cases Utf8.encodeEscaped? e.2 <;> simp [eq_comm]

/-- **Metadata under keys that can be written** has no header just when some value has no
    octets, and then for no other reason. -/
theorem encode_eq_error_iff (hkeys : ∀ e ∈ m, isWritableKey e.1 = true) {failure : Failure} :
    encode m = .error failure ↔ failure = .value .unencodable ∧ ∃ e ∈ m, Utf8.HasNoOctets e.2 := by
  rw [encode, map_eq_error_iff]
  induction m with
  | nil => simp [pure, Except.pure]
  | cons e m ih =>
    have hfirst : ∀ {f : Failure}, writeEntry e = .error f ↔ f = .value .unencodable ∧ Utf8.HasNoOctets e.2 :=
      writeEntry_eq_error_iff (hkeys e List.mem_cons_self)
    have hrest := ih fun e' he' => hkeys e' (List.mem_cons_of_mem e he')
    rw [List.mapM_cons, bind_eq_error_iff, hfirst]
    simp only [bind_eq_error_iff, hrest]
    constructor
    · rintro (⟨rfl, h⟩ | ⟨entry, -, ⟨rfl, e', he', h⟩ | ⟨entries, -, h⟩⟩)
      · exact ⟨rfl, e, List.mem_cons_self, h⟩
      · exact ⟨rfl, e', List.mem_cons_of_mem e he', h⟩
      · cases h
    · rintro ⟨rfl, e', he', h⟩
      cases hentry : writeEntry e with
      | error f => exact Or.inl ⟨rfl, (hfirst.mp hentry).2⟩
      | ok entry =>
        rcases List.mem_cons.mp he' with rfl | he'
        · rw [hfirst.mpr ⟨rfl, h⟩] at hentry
          cases hentry
        · exact Or.inr ⟨entry, rfl, Or.inl ⟨rfl, e', he', h⟩⟩

/-- **What can be written is read back as it was.** -/
theorem IsWritable.decode_encode (h : IsWritable m) :
    ∃ header, encode m = .ok header ∧ decode (some header) = .ok m := by
  obtain ⟨header, hheader⟩ := h.exists_encode
  have hread : IsRead m := ⟨h.nodup_keys, h.exists_bytes⟩
  refine ⟨header, hheader, ?_⟩
  rw [decode_of_encode hheader h.nodup_keys, hread.rereadAll]

/-! ### Reading -/

theorem key_of_readEntry {before : Metadata} {position : Nat} {entry : Text} {e : Text × Text}
    (h : readEntry before position entry = .ok e) : e.1 ∈ entry.words := by
  unfold readEntry at h
  split at h
  · cases h
  · cases h
  · rename_i key fields _ hwords
    rw [hwords]
    split at h
    · cases h
    · split at h
      · obtain rfl := Except.ok.inj h
        exact List.mem_cons_self
      · split at h
        · obtain rfl := Except.ok.inj h
          exact List.mem_cons_self
        · cases h

/-- The keys that are read stand as words in the entries. -/
theorem exists_word_of_readEntries {before : Metadata} {position : Nat} {entries : List Text}
    (h : readEntries before position entries = .ok m) :
    ∀ e ∈ m, e ∈ before ∨ ∃ entry ∈ entries, e.1 ∈ entry.words := by
  induction entries generalizing before position with
  | nil =>
    obtain rfl := Except.ok.inj h
    intro e he
    exact Or.inl he
  | cons entry entries ih =>
    rw [readEntries] at h
    split at h
    · cases h
    · rename_i first hfirst
      intro e he
      rcases ih h e he with he | ⟨entry', hentry', hword⟩
      · rcases List.mem_append.mp he with he | he
        · exact Or.inl he
        · obtain rfl := List.mem_singleton.mp he
          exact Or.inr ⟨entry, List.mem_cons_self, key_of_readEntry hfirst⟩
      · exact Or.inr ⟨entry', List.mem_cons_of_mem entry hentry', hword⟩

theorem exists_word_of_decode (h : decode (some header) = .ok m) :
    ∀ e ∈ m, ∃ piece ∈ Text.splitOn comma header, e.1 ∈ piece.words := by
  intro e he
  unfold decode at h
  simp only at h
  split at h
  · obtain rfl := Except.ok.inj h
    cases he
  · rcases exists_word_of_readEntries h e he with he | hword
    · cases he
    · exact hword

/-- **Metadata that was read can be written.** -/
theorem isWritable_of_decode (h : decode (some header) = .ok m) : IsWritable m := by
  have hread := isRead_of_decode h
  refine ⟨hread.keys_nodup, ?_, ?_, hread.exists_bytes⟩
  · intro e he
    obtain ⟨piece, -, hword⟩ := exists_word_of_decode h e he
    exact (Text.isWord_of_mem_words hword).1
  · intro e he hcomma
    obtain ⟨piece, hpiece, hword⟩ := exists_word_of_decode h e he
    exact Text.not_mem_of_mem_splitOn hpiece ((Text.isWord_of_mem_words hword).2 comma hcomma)

/-! ### Both directions -/

/-- **Headers and metadata correspond.**  Metadata with distinct keys, each a word
    without a comma, and with values that are the texts of octets can be written and
    is read back as it was, in its order.  What a header says can be written, and the
    header that is then written says the same and is written again as it is. -/
theorem header_round_trip :
    (∀ m, IsWritable m → ∃ header, encode m = .ok header ∧ decode (some header) = .ok m)
      ∧ ∀ header m, decode (some header) = .ok m →
        ∃ written, encode m = .ok written ∧ decode (some written) = .ok m
          ∧ recode written = .ok written := by
  constructor
  · intro m hm
    exact hm.decode_encode
  · intro header m h
    obtain ⟨written, hwritten, hread⟩ := (isWritable_of_decode h).decode_encode
    refine ⟨written, hwritten, hread, ?_⟩
    rw [recode, hread]
    exact hwritten

/-- Metadata with an empty value and with one whose octets are not UTF-8. -/
def strayMetadata : Metadata :=
  [(Text.of "flag", []), (Text.of "name", valueOfBytes [0x80, 0x61, 0xC3])]

theorem header_round_trip_strayMetadata :
    (∃ header, encode strayMetadata = .ok header ∧ decode (some header) = .ok strayMetadata)
      ∧ ∃ written, encode strayMetadata = .ok written ∧ decode (some written) = .ok strayMetadata
        ∧ recode written = .ok written := by
  have hwritable : IsWritable strayMetadata := by
    have hkey : ∀ e ∈ strayMetadata, isWritableKey e.1 = true := by decide
    refine ⟨by decide, fun e he => (isWord_of_isWritableKey (hkey e he)).1,
      fun e he => (isWord_of_isWritableKey (hkey e he)).2, ?_⟩
    · intro e he
      rcases List.mem_cons.mp he with rfl | he
      · exact ⟨[], rfl⟩
      · obtain rfl := List.mem_singleton.mp he
        exact ⟨_, rfl⟩
  have hread : decode (some (Text.of " flag , name  gGHD")) = .ok strayMetadata := by
    exact toOption_eq_some_iff.mp (by decide +kernel)
  exact ⟨header_round_trip.1 strayMetadata hwritable, header_round_trip.2 _ strayMetadata hread⟩

end UploadGate.Metadata
