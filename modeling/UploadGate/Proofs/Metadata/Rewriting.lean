/-
  UploadGate/Proofs/Metadata/Rewriting.lean
  =========================================
  **A header that is written again is the same header.**

  The values that are read from a header need not be those that were written, but they
  stand for the same octets, and only these are written again.  What is written besides
  the octets are the keys, so the header can be sent if they can be.
-/
import UploadGate.Proofs.Metadata.Canonical
import UploadGate.Text.Latin1

namespace UploadGate

/-! ### Latin-1 -/

namespace Latin1

theorem isEncodable_iff {t : Text} : isEncodable t = true ↔ ∀ c ∈ t, c.val < 0x100 := by
  simp [isEncodable]

theorem isEncodable_append {t u : Text} (ht : isEncodable t = true) (hu : isEncodable u = true) :
    isEncodable (t ++ u) = true := by
  rw [isEncodable_iff] at ht hu ⊢
  intro c hc
  rcases List.mem_append.mp hc with hc | hc
  · exact ht c hc
  · exact hu c hc

theorem isEncodable_join {sep : Text} {pieces : List Text} (hsep : isEncodable sep = true)
    (hpieces : ∀ piece ∈ pieces, isEncodable piece = true) : isEncodable (Text.join sep pieces) = true := by
  induction pieces with
  | nil => rfl
  | cons piece pieces ih =>
    obtain ⟨hpiece, hrest⟩ := List.forall_mem_cons.mp hpieces
    cases pieces with
    | nil => exact hpiece
    | cons next pieces =>
      simp only [Text.join]
      exact isEncodable_append (isEncodable_append hpiece hsep) (ih hrest)

theorem isEncodable_char (v : BitVec 6) : (Base64.standard.char v).val < 0x100 := by
  revert v
  decide

theorem isEncodable_encode (bytes : Bytes) : isEncodable (Base64.encode bytes) = true := by
  rw [isEncodable_iff]
  intro c hc
  rcases Base64.mem_encodeWith hc with rfl | ⟨v, rfl⟩
  · decide
  · exact isEncodable_char v

end Latin1

/-! ### Octets -/

theorem Utf8.ne_nil_of_octetsEscaped? {c : CodePoint} {bytes : Bytes} (h : octetsEscaped? c = some bytes) :
    bytes ≠ [] := by
  rintro rfl
  unfold octetsEscaped? octets? octets at h
  split at h
  · cases h
  · split at h
    · cases h
    · simp only [Option.some.injEq] at h
      split at h
      · cases h
      · split at h
        · cases h
        · split at h <;> cases h

/-- A text without octets is empty. -/
theorem Utf8.eq_nil_of_encodeEscaped? {t : Text} (h : encodeEscaped? t = some []) : t = [] := by
  cases t with
  | nil => rfl
  | cons c t =>
    obtain ⟨parts, hparts, hflat⟩ := Option.map_eq_some_iff.mp h
    rw [List.mapM_cons] at hparts
    obtain ⟨first, hfirst, hparts⟩ := Option.bind_eq_some_iff.mp hparts
    obtain ⟨rest, -, hparts⟩ := Option.bind_eq_some_iff.mp hparts
    obtain rfl := Option.some.inj hparts
    rw [List.flatten_cons, List.append_eq_nil_iff] at hflat
    exact absurd hflat.1 (ne_nil_of_octetsEscaped? hfirst)

namespace Metadata

variable {m : Metadata} {header : Text}

theorem reread_eq_nil_iff {value : Text} : reread value = [] ↔ value = [] := by
  constructor
  · intro h
    have hoctets := valueToBytes_reread value
    rw [h] at hoctets
    unfold valueToBytes at hoctets
    cases hbytes : Utf8.encodeEscaped? value with
    | none =>
      rw [hbytes] at hoctets
      cases hoctets
    | some bytes =>
      rw [hbytes] at hoctets
      obtain rfl : [] = bytes := Except.ok.inj hoctets
      exact Utf8.eq_nil_of_encodeEscaped? hbytes
  · rintro rfl
    rfl

/-! ### Writing again -/

theorem writeEntry_reread (e : Text × Text) : writeEntry (e.1, reread e.2) = writeEntry e := by
  have hempty : (reread e.2).isEmpty = e.2.isEmpty := by
    rw [Bool.eq_iff_iff, List.isEmpty_iff, List.isEmpty_iff]
    exact reread_eq_nil_iff
  unfold writeEntry
  rw [valueToBytes_reread, hempty]

/-- **What was read is written as it was written before.** -/
theorem encode_rereadAll (m : Metadata) : encode (rereadAll m) = encode m := by
  have hentries : (rereadAll m).mapM writeEntry = m.mapM writeEntry := by
    unfold rereadAll
    induction m with
    | nil => rfl
    | cons e m ih => rw [List.map_cons, List.mapM_cons, List.mapM_cons, writeEntry_reread, ih]
  unfold encode
  rw [hentries]

/-! ### Headers that can be sent -/

theorem isEncodable_writeEntry {e : Text × Text} {entry : Text} (hkey : Latin1.isEncodable e.1 = true)
    (h : writeEntry e = .ok entry) : Latin1.isEncodable entry = true := by
  rcases (writeEntry_eq_ok h).2 with ⟨-, rfl⟩ | ⟨bytes, -, rfl⟩
  · exact hkey
  · apply Latin1.isEncodable_append hkey
    exact Latin1.isEncodable_append (t := [.ofChar ' ']) (by decide) (Latin1.isEncodable_encode bytes)

theorem isEncodable_mapM_writeEntry {entries : List Text}
    (hkeys : ∀ e ∈ m, Latin1.isEncodable e.1 = true) (h : m.mapM writeEntry = .ok entries) :
    ∀ entry ∈ entries, Latin1.isEncodable entry = true := by
  induction m generalizing entries with
  | nil =>
    obtain rfl := Except.ok.inj h
    exact List.forall_mem_nil _
  | cons e m ih =>
    obtain ⟨entry, rest, hentry, hrest, rfl⟩ := mapM_writeEntry_cons h
    refine List.forall_mem_cons.mpr ⟨?_, ?_⟩
    · exact isEncodable_writeEntry (hkeys e List.mem_cons_self) hentry
    · exact ih (fun e he => hkeys e (List.mem_cons_of_mem _ he)) hrest

/-- **A header under keys in Latin-1** is in Latin-1. -/
theorem isEncodable_of_encode (hkeys : ∀ e ∈ m, Latin1.isEncodable e.1 = true) (h : encode m = .ok header) :
    Latin1.isEncodable header = true := by
  obtain ⟨entries, hentries, rfl⟩ := encode_eq_ok h
  exact Latin1.isEncodable_join (by decide) (isEncodable_mapM_writeEntry hkeys hentries)

/-- The keys of a header are made of what it is made of. -/
theorem isEncodable_key_of_decode (hheader : Latin1.isEncodable header = true)
    (h : decode (some header) = .ok m) : ∀ e ∈ m, Latin1.isEncodable e.1 = true := by
  intro e he
  obtain ⟨piece, hpiece, hword⟩ := exists_word_of_decode h e he
  rw [Latin1.isEncodable_iff] at hheader ⊢
  intro c hc
  apply hheader c
  rw [← Text.join_splitOn comma header]
  exact Text.mem_join hpiece ((Text.isWord_of_mem_words hword).2 c hc)

end Metadata

end UploadGate
