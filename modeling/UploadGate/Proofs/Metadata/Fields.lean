/-
  UploadGate/Proofs/Metadata/Fields.lean
  ======================================
  **How the value of an entry may be spelled.**

  The second word of an entry is padded Base64, and its padding is checked: it is the
  padded form of the value, but for the bits of the last data character that mean
  nothing.  Only behind complete groups, where no padding is needed, is padding read
  over instead of refused.
-/
import UploadGate.Proofs.Base64.Padding
import UploadGate.Proofs.Metadata.Grammar
import UploadGate.Proofs.Metadata.RoundTrip

namespace UploadGate.Metadata

open Base64 (pad padding standard)

variable {m : Metadata} {header entry key field : Text} {entries : List Text}

/-! ### The entry of a field -/

theorem valueOfBytes_injective : Function.Injective valueOfBytes := by
  intro bytes other hsame
  have hvalues := congrArg valueToBytes hsame
  rw [valueToBytes_valueOfBytes, valueToBytes_valueOfBytes] at hvalues
  exact Except.ok.inj hvalues

theorem WritesHeader.exists_entry (h : WritesHeader (some header) m) (hentry : entry ∈ header.splitOn comma)
    (hblank : entry.isBlank = false) : (OrderedMap.keys m).Nodup ∧ ∃ e ∈ m, WritesEntry entry e := by
  cases h with
  | blank hheader =>
    have hsome : header.isBlank = false := by
      rw [Text.isBlank, List.all_eq_false] at hblank
      obtain ⟨c, hc, hblank⟩ := hblank
      rw [← Text.join_splitOn comma header]
      exact Text.isBlank_eq_false_of_mem (Text.mem_join hentry hc) (by simpa using hblank)
    rw [hheader] at hsome
    cases hsome
  | @entries _ entries _ hcut heach hdistinct =>
    rw [areEntries_iff.mp hcut] at hentry
    obtain ⟨i, hi, rfl⟩ := List.getElem_of_mem hentry
    have hlength : i < m.length := heach.length_eq ▸ hi
    exact ⟨hdistinct, m[i], List.getElem_mem hlength, heach.get hi hlength⟩

/-- An entry of two words holds the octets that its second word is read as. -/
theorem exists_bytes_of_decode (h : decode (some header) = .ok m) (hentry : entry ∈ header.splitOn comma)
    (hwords : entry.words = [key, field]) :
    ∃ bytes, OrderedMap.get? m key = some (valueOfBytes bytes) ∧ Base64.decodePadded? field = some bytes := by
  have hkey := (Text.isWord_of_mem_words (hwords ▸ List.mem_cons_self : key ∈ entry.words))
  obtain ⟨c, hc, hblank⟩ := hkey.1.exists_mem
  have hsome := Text.isBlank_eq_false_of_mem (hkey.2 c hc) hblank
  obtain ⟨hdistinct, e, he, hwrites⟩ := (decode_eq_ok_iff.mp h).exists_entry hentry hsome
  cases hwrites with
  | bare hspaced =>
    rw [Text.words_eq_iff.mpr hspaced] at hwords
    cases hwords
  | valued hspaced hoctets =>
    rw [Text.words_eq_iff.mpr hspaced] at hwords
    obtain ⟨rfl, hfield⟩ := List.cons.inj hwords
    obtain ⟨rfl, -⟩ := List.cons.inj hfield
    exact ⟨_, OrderedMap.get?_eq_some_of_mem hdistinct he, hoctets⟩

theorem decode_single {bytes : Bytes} (hkey : key.IsWord) (hcomma : comma ∉ key) (hfield : field.IsWord)
    (hplain : comma ∉ field) (hoctets : Base64.decodePadded? field = some bytes) :
    decode (some (key ++ .ofChar ' ' :: field)) = .ok [(key, valueOfBytes bytes)] := by
  have hwords : Text.words (key ++ .ofChar ' ' :: field) = [key, field] := by
    rw [hkey.words_append_cons (by decide), hfield.words]
  have hcut : AreEntries [key ++ .ofChar ' ' :: field] (key ++ .ofChar ' ' :: field) := by
    refine ⟨List.cons_ne_nil _ _, rfl, ?_⟩
    intro entry hentry
    obtain rfl := List.mem_singleton.mp hentry
    rw [List.mem_append, List.mem_cons]
    rintro (hmem | hspace | hmem)
    · exact hcomma hmem
    · exact absurd hspace (by decide)
    · exact hplain hmem
  refine decode_eq_ok_iff.mpr (.entries hcut (.cons ?_ .nil) (List.pairwise_singleton _ _))
  exact .valued (Text.words_eq_iff.mp hwords) hoctets

/-! ### Spellings -/

theorem decode_surplus {bytes : Bytes} (hkey : key.IsWord) (hcomma : comma ∉ key) (hne : bytes ≠ [])
    (hlength : bytes.length % 3 = 0) (n : Nat) :
    decode (some (key ++ .ofChar ' ' :: (Base64.encode bytes ++ List.replicate n pad)))
      = .ok [(key, valueOfBytes bytes)] := by
  have hsigns : ∀ c ∈ Base64.encode bytes ++ List.replicate n pad, c.isBlank = false ∧ c ≠ comma := by
    intro c hc
    rcases List.mem_append.mp hc with hc | hc
    · exact Base64.isBlank_eq_false_of_mem_encode hc
    · obtain rfl := List.eq_of_mem_replicate hc
      decide
  have hsome := List.append_ne_nil_of_left_ne_nil (Base64.encode_ne_nil hne) (List.replicate n pad)
  exact decode_single hkey hcomma ⟨hsome, fun c hc => (hsigns c hc).1⟩ (fun hmem => (hsigns _ hmem).2 rfl)
    (Base64.decodePaddedFrom_surplus Base64.isProper_standard n hlength (Or.inr hne))

/-- **The padding of values is checked, but not behind complete groups.**  Let an entry of an
    accepted header have a second word, and take the octets that it is read as.  The word is as
    long as the padded form of the octets and differs from it in the spare bits of the last data
    character at most, so its length is a multiple of four and padding stands only at the end,
    as much as is needed, just when it is not the padded form of complete groups with padding
    behind it; and if it is, it is accepted with however much padding. -/
theorem padding_of_field (h : decode (some header) = .ok m) (hentry : entry ∈ header.splitOn comma)
    (hwords : entry.words = [key, field]) :
    ∃ bytes, OrderedMap.get? m key = some (valueOfBytes bytes)
      ∧ ((standard.IsPadded bytes field ∧ field.length = (Base64.encode bytes).length ∧ field.length % 4 = 0
          ∧ ∃ data, field = data ++ padding bytes ∧ pad ∉ data) ↔ ¬ standard.HasSurplus bytes field)
      ∧ (standard.HasSurplus bytes field → ∀ n,
        decode (some (key ++ .ofChar ' ' :: (Base64.encode bytes ++ List.replicate n pad)))
          = .ok [(key, valueOfBytes bytes)]) := by
  obtain ⟨bytes, hvalue, hoctets⟩ := exists_bytes_of_decode h hentry hwords
  have hkinds := Base64.decodePadded?_eq_some_iff.mp hoctets
  refine ⟨bytes, hvalue, ?_, ?_⟩
  · constructor
    · rintro ⟨hpadded, -⟩
      exact hpadded.not_hasSurplus
    · intro hno
      have hpadded := hkinds.resolve_right fun hsurplus => hno hsurplus.2
      refine ⟨hpadded, hpadded.length_eq, ?_, hpadded.exists_data Base64.isProper_standard⟩
      rw [hpadded.length_eq, Base64.length_encodeWith, Nat.mul_mod_right]
  · intro hsurplus n
    obtain ⟨hne, -⟩ := hkinds.resolve_left fun hpadded => hpadded.not_hasSurplus hsurplus
    obtain ⟨hkey, hin⟩ := Text.isWord_of_mem_words (hwords ▸ List.mem_cons_self : key ∈ entry.words)
    have hcomma : comma ∉ key := fun hmem => Text.not_mem_of_mem_splitOn hentry (hin _ hmem)
    exact decode_surplus hkey hcomma hne hsurplus.1 n

/-- An entry whose value is one octet, spelled with spare bits that are not zero, and one whose
    value fills complete groups and has padding all the same. -/
def respelledHeader : Text := Text.of " a QR== ,b Zm9v="

theorem padding_of_field_respelled :
    decode (some respelledHeader) = .ok [(Text.of "a", Text.of "A"), (Text.of "b", Text.of "foo")]
      ∧ standard.IsPadded [0x41] (Text.of "QR==")
      ∧ decode (some (Text.of "b Zm9v===")) = .ok [(Text.of "b", valueOfBytes [0x66, 0x6F, 0x6F])] := by
  have hread : decode (some respelledHeader) = .ok [(Text.of "a", Text.of "A"), (Text.of "b", Text.of "foo")] :=
    toOption_eq_some_iff.mp (by decide +kernel)
  refine ⟨hread, ?_, ?_⟩
  · have hentry : Text.of " a QR== " ∈ respelledHeader.splitOn comma := by decide +kernel
    have hwords : (Text.of " a QR== ").words = [Text.of "a", Text.of "QR=="] := by decide +kernel
    obtain ⟨bytes, hvalue, hiff, -⟩ := padding_of_field hread hentry hwords
    have hoctet : bytes = [0x41] := valueOfBytes_injective ((Option.some.inj hvalue).symm.trans (by decide +kernel))
    rw [hoctet] at hiff
    refine (hiff.mpr ?_).1
    rintro ⟨hlength, -⟩
    cases hlength
  · have hentry : Text.of "b Zm9v=" ∈ respelledHeader.splitOn comma := by decide +kernel
    have hwords : (Text.of "b Zm9v=").words = [Text.of "b", Text.of "Zm9v="] := by decide +kernel
    obtain ⟨bytes, hvalue, -, hsurplus⟩ := padding_of_field hread hentry hwords
    have hoctets : bytes = [0x66, 0x6F, 0x6F] :=
      valueOfBytes_injective ((Option.some.inj hvalue).symm.trans (by decide +kernel))
    rw [hoctets] at hsurplus
    exact hsurplus ⟨rfl, 0, by decide +kernel⟩ 3

/-- **Padding may stand where none is needed**: the value of an accepted entry need not be the padded
    form of its octets, not even in another spelling. -/
theorem exists_surplus_padding :
    ¬ ∀ (header : Text) (m : Metadata) (entry key field : Text) (bytes : Bytes),
      decode (some header) = .ok m → entry ∈ header.splitOn comma → entry.words = [key, field] →
      OrderedMap.get? m key = some (valueOfBytes bytes) → standard.IsPadded bytes field := by
  intro h
  have hread : decode (some (Text.of "a Zm9v=")) = .ok [(Text.of "a", Text.of "foo")] :=
    toOption_eq_some_iff.mp (by decide +kernel)
  have hpadded := h _ _ (Text.of "a Zm9v=") (Text.of "a") (Text.of "Zm9v=") [0x66, 0x6F, 0x6F] hread
    (by decide +kernel) (by decide +kernel) (by decide +kernel)
  exact absurd hpadded.length_eq (by decide)

end UploadGate.Metadata
