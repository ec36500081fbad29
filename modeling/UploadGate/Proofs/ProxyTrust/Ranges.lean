/-
  UploadGate/Proofs/ProxyTrust/Ranges.lean
  ========================================
  **Trust by prefix: which hosts the configured ranges cover.**

  A list of ranges is accepted just when each text in it that is not blank denotes
  a range.  Then a host is trusted just when it is an address that begins like one
  of these ranges, so only the members of the list count, not their order.
-/
import UploadGate.Config.Environment
import UploadGate.Proofs.Address.Network
import UploadGate.Proofs.ProxyTrust

namespace UploadGate.Config

/-! ### The ranges of a configuration -/

theorem parseRange_eq_ok_iff {t : Text} {range : Network} :
    parseRange t = .ok range ↔ ∃ p k, Network.Denotes t p k ∧ Network.ofPrefix p k = range := by
  rw [← Network.parse?_eq_some_iff, parseRange]
  cases Network.parse? t with
  | none => exact iff_of_false nofun nofun
  | some range' => rw [Except.ok.injEq, Option.some_inj]

theorem mem_stripped_iff {texts : List Text} {s : Text} :
    s ∈ (texts.map Text.strip).filter (!·.isEmpty) ↔ ∃ t ∈ texts, t.isBlank = false ∧ t.strip = s := by
  simp only [List.mem_filter, List.mem_map, Bool.not_eq_true', List.isEmpty_eq_false_iff]
  constructor
  · rintro ⟨⟨t, ht, rfl⟩, hne⟩
    rw [ne_eq, Text.strip_eq_nil_iff, Bool.not_eq_true] at hne
    exact ⟨t, ht, hne, rfl⟩
  · rintro ⟨t, ht, hne, rfl⟩
    rw [← Bool.not_eq_true, ← Text.strip_eq_nil_iff] at hne
    exact ⟨⟨t, ht, rfl⟩, hne⟩

/-- Blank texts aside, every text of an accepted list denotes a range. -/
theorem exists_parseTrustedRanges_iff {texts : List Text} :
    (∃ ranges, parseTrustedRanges texts = .ok ranges) ↔
      ∀ t ∈ texts, t.isBlank = false → ∃ p k, Network.Denotes t.strip p k := by
  simp only [parseTrustedRanges, exists_mapM_eq_ok_iff, mem_stripped_iff, parseRange_eq_ok_iff]
  constructor
  · intro h t ht hne
    obtain ⟨-, p, k, hdenotes, -⟩ := h t.strip ⟨t, ht, hne, rfl⟩
    exact ⟨p, k, hdenotes⟩
  · rintro h s ⟨t, ht, hne, rfl⟩
    obtain ⟨p, k, hdenotes⟩ := h t ht hne
    exact ⟨_, p, k, hdenotes, rfl⟩

theorem mem_parseTrustedRanges_iff {texts : List Text} {ranges : List Network}
    (h : parseTrustedRanges texts = .ok ranges) {range : Network} :
    range ∈ ranges ↔ ∃ t ∈ texts, t.isBlank = false
      ∧ ∃ p k, Network.Denotes t.strip p k ∧ Network.ofPrefix p k = range := by
  rw [mem_iff_of_mapM_eq_ok h]
  simp only [mem_stripped_iff, parseRange_eq_ok_iff]
  constructor
  · rintro ⟨s, ⟨t, ht, hne, rfl⟩, hrange⟩
    exact ⟨t, ht, hne, hrange⟩
  · rintro ⟨t, ht, hne, hrange⟩
    exact ⟨t.strip, ⟨t, ht, hne, rfl⟩, hrange⟩

end UploadGate.Config

namespace UploadGate.ProxyTrust

/-! ### Trust -/

/-- Some text of a list, not a blank one, denotes an address `p` of the family of `a` and a length,
    and `a` has the first bits of `p`, as many as the length. -/
def Covers (texts : List Text) (a : Address) : Prop :=
  ∃ t ∈ texts, t.isBlank = false ∧ ∃ p k, Network.Denotes t.strip p k ∧ a.SharesPrefix k p

theorem exists_contains_iff {texts : List Text} {ranges : List Network}
    (h : Config.parseTrustedRanges texts = .ok ranges) {a : Address} :
    (∃ range ∈ ranges, range.contains a = true) ↔ Covers texts a := by
  constructor
  · rintro ⟨range, hrange, hinside⟩
    obtain ⟨t, ht, hne, p, k, hdenotes, rfl⟩ := (Config.mem_parseTrustedRanges_iff h).mp hrange
    exact ⟨t, ht, hne, p, k, hdenotes, (Network.contains_ofPrefix_iff hdenotes.le_width).mp hinside⟩
  · rintro ⟨t, ht, hne, p, k, hdenotes, hprefix⟩
    exact ⟨Network.ofPrefix p k, (Config.mem_parseTrustedRanges_iff h).mpr ⟨t, ht, hne, p, k, hdenotes, rfl⟩,
      (Network.contains_ofPrefix_iff hdenotes.le_width).mpr hprefix⟩

theorem covers_congr {texts texts' : List Text} (h : ∀ t, t ∈ texts ↔ t ∈ texts') (a : Address) :
    Covers texts a ↔ Covers texts' a := by
  simp only [Covers, h]

/-- **Trusted ranges match by prefix.**  A host is trusted under an accepted list of texts just when
    it spells an address which, unwrapped and its scope aside, has the first bits of an address
    that some text of the list denotes, as many as that text says.  Any list with the same members
    is accepted too, and the same hosts are trusted under it. -/
theorem isTrusted_parseTrustedRanges {texts : List Text} {ranges : List Network}
    (h : Config.parseTrustedRanges texts = .ok ranges) :
    (∀ host, isTrusted ranges host = true ↔ ∃ a, Address.Spells host a ∧ Covers texts a.unwrapped)
      ∧ ∀ texts', (∀ t, t ∈ texts' ↔ t ∈ texts) →
        ∃ ranges', Config.parseTrustedRanges texts' = .ok ranges'
          ∧ ∀ host, isTrusted ranges' host = isTrusted ranges host := by
  have hcovers : ∀ {texts : List Text} {ranges : List Network}, Config.parseTrustedRanges texts = .ok ranges →
      ∀ host, isTrusted ranges host = true ↔ ∃ a, Address.Spells host a ∧ Covers texts a.unwrapped := by
    intro texts ranges h host
    simp only [isTrusted_iff, exists_contains_iff h, Address.parse?_eq_some_iff]
  refine ⟨hcovers h, ?_⟩
  intro texts' hsame
  have haccepted : ∃ ranges', Config.parseTrustedRanges texts' = .ok ranges' := by
    have hall := Config.exists_parseTrustedRanges_iff.mp ⟨ranges, h⟩
    exact Config.exists_parseTrustedRanges_iff.mpr fun t ht => hall t ((hsame t).mp ht)
  obtain ⟨ranges', h'⟩ := haccepted
  refine ⟨ranges', h', ?_⟩
  intro host
  rw [Bool.eq_iff_iff, hcovers h', hcovers h]
  simp only [covers_congr hsame]

/-- The mask of a host stands for the length eight, and a wrapped short address lies inside. -/
theorem isTrusted_parseTrustedRanges_hostmask :
    Config.parseTrustedRanges [Text.of " 10.1.2.3/0.255.255.255", Text.of " ", Text.of "fe80::1%eth0/10"]
        = .ok [.v4 0x0A000000#32 8, .v6 (0xFE80#128 <<< 112) none 10]
      ∧ ∃ a, Address.Spells (Text.of "::ffff:10.9.9.9") a
        ∧ Covers [Text.of " 10.1.2.3/0.255.255.255", Text.of " ", Text.of "fe80::1%eth0/10"] a.unwrapped := by
  have haccepted : Config.parseTrustedRanges
      [Text.of " 10.1.2.3/0.255.255.255", Text.of " ", Text.of "fe80::1%eth0/10"]
        = .ok [.v4 0x0A000000#32 8, .v6 (0xFE80#128 <<< 112) none 10] := rfl
  exact ⟨haccepted, ((isTrusted_parseTrustedRanges haccepted).1 (Text.of "::ffff:10.9.9.9")).mp (by decide)⟩

end UploadGate.ProxyTrust
