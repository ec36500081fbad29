/-
  UploadGate/Proofs/Metadata/Respacing.lean
  =========================================
  **Blanks around the entries of a header mean nothing.**

  An entry is read word by word, so the blanks at its two ends are not seen.  Headers
  with the same entries up to these blanks hold the same metadata, or are refused for
  the same fault (`decode_respaced`).
-/
import UploadGate.Metadata.Header
import UploadGate.Proofs.Text.Cutting
import UploadGate.Proofs.Text.Trimming

namespace UploadGate

/-! ### Words between blanks -/

namespace Text

theorem Spaced.append_of_isBlank {words : List Text} {t right : Text} (h : Spaced words t)
    (hright : right.isBlank = true) : Spaced words (t ++ right) := by
  induction h with
  | done hblank =>
    apply Spaced.done
    rw [isBlank, List.all_append, Bool.and_eq_true]
    exact ⟨hblank, hright⟩
  | @word words left w rest hleft hw hstop _ ih =>
    have hstop' : StartsBlank (rest ++ right) := by
      cases rest with
      | nil =>
        intro c hc
        exact List.all_eq_true.mp hright c (List.mem_of_mem_head? hc)
      | cons d rest => exact hstop
    rw [List.append_assoc, List.append_assoc]
    exact .word hleft hw hstop' ih

theorem words_append_right_of_isBlank {right : Text} (h : right.isBlank = true) (t : Text) :
    (t ++ right).words = t.words :=
  words_eq_iff.mpr ((words_eq_iff.mp rfl).append_of_isBlank h)

theorem words_strip (t : Text) : t.strip.words = t.words := by
  obtain ⟨left, right, ht, hleft, hright⟩ := exists_strip_append t
  calc t.strip.words = (t.strip ++ right).words := (words_append_right_of_isBlank hright _).symm
    _ = (left ++ (t.strip ++ right)).words := (words_append_of_isBlank hleft _).symm
    _ = t.words := by rw [← ht]

end Text

/-! ### Headers -/

namespace Metadata

variable {before : Metadata} {position : Nat} {header variant : Text}

/-- Headers with the same entries, up to blanks around them. -/
def IsRespaced (header variant : Text) : Prop :=
  (header.splitOn comma).map Text.strip = (variant.splitOn comma).map Text.strip

theorem readEntry_strip (entry : Text) : readEntry before position entry.strip = readEntry before position entry := by
  rw [readEntry, readEntry, Text.words_strip]

theorem readEntries_map_strip (entries : List Text) :
    readEntries before position (entries.map Text.strip) = readEntries before position entries := by
  induction entries generalizing before position with
  | nil => rfl
  | cons entry entries ih => simp only [List.map_cons, readEntries, readEntry_strip, ih]

/-- A header of blanks alone has one entry, of which nothing is left. -/
theorem isBlank_iff_map_strip : header.isBlank = true ↔ (header.splitOn comma).map Text.strip = [[]] := by
  constructor
  · intro hblank
    have hcomma : comma ∉ header := by
      intro hmem
      have hblank' := List.all_eq_true.mp hblank comma hmem
      revert hblank'
      decide
    have hcut : header.splitOn comma = [header] := by
      rw [Text.splitOn_eq_iff (List.cons_ne_nil _ _)]
      exact ⟨rfl, by simpa using hcomma⟩
    rw [hcut, List.map_singleton, Text.strip_eq_nil_iff.mpr hblank]
  · intro hpieces
    obtain ⟨piece, hcut, hnil⟩ := List.map_eq_singleton_iff.mp hpieces
    have hjoin := Text.join_splitOn comma header
    rw [hcut] at hjoin
    obtain rfl : piece = header := hjoin
    exact Text.strip_eq_nil_iff.mp hnil

/-- **Headers that differ in blanks around their entries** hold the same metadata or have the
    same fault. -/
theorem decode_respaced (h : IsRespaced header variant) : decode (some variant) = decode (some header) := by
  have hblank : variant.isBlank = header.isBlank := by
    rw [Bool.eq_iff_iff, isBlank_iff_map_strip, isBlank_iff_map_strip, h]
  rw [decode, decode, hblank, ← readEntries_map_strip (header.splitOn comma), h, readEntries_map_strip]

end Metadata

end UploadGate
