/-
  UploadGate/Proofs/Peer.lean
  ===========================
  **Which texts are addresses of peers, and of which host and port.**

  `Writes` says how a host and a port are written, without reference to how an
  address is cut: bare, where neither holds a colon or a bracket, or with the host
  in brackets, where it may hold colons.  Reading accepts all that is written in
  this way and takes it apart again.  Beyond that it accepts just the addresses
  with the host in brackets whose port holds a further colon.
-/
import UploadGate.Peer
import UploadGate.Proofs.Outcome
import UploadGate.Proofs.Text.Cutting
import UploadGate.Proofs.Text.Numerals

namespace UploadGate.HostPort

variable {hp : HostPort} {address inside : Text}

/-! ### How an address is written -/

def IsUnbracketed (part : Text) : Prop := opening ∉ part ∧ closing ∉ part

def IsBare (part : Text) : Prop := colon ∉ part ∧ IsUnbracketed part

def bracketed (hp : HostPort) : Text := opening :: (hp.host ++ closing :: colon :: hp.port)

inductive Writes (hp : HostPort) : Text → Prop
  | bare (host : IsBare hp.host) (port : IsBare hp.port) : Writes hp (hp.host ++ colon :: hp.port)
  | bracketed (host : IsUnbracketed hp.host) (port : IsBare hp.port) : Writes hp hp.bracketed

/-- A host in brackets with one colon too many behind it. -/
structure HasSurplusColon (hp : HostPort) (address : Text) : Prop where
  text : address = hp.bracketed
  host : IsUnbracketed hp.host
  port : IsUnbracketed hp.port
  colon_mem : colon ∈ hp.port

theorem isUnbracketed_iff {part : Text} :
    IsUnbracketed part ↔ part.contains opening = false ∧ part.contains closing = false := by
  simp only [IsUnbracketed, List.contains_eq_mem, decide_eq_false_iff_not]

theorem isUnbracketed_append_colon {front rest : Text} :
    IsUnbracketed (front ++ colon :: rest) ↔ IsUnbracketed front ∧ IsUnbracketed rest := by
  have hopening : opening ≠ colon := by decide
  have hclosing : closing ≠ colon := by decide
  simp only [IsUnbracketed, List.mem_append, List.mem_cons, hopening, hclosing, false_or, not_or]
  exact and_and_and_comm

/-! ### How it is read -/

/-- Behind an opening bracket, the host ends at the first closing one. -/
theorem parseBracketed_eq_ok_iff :
    parseBracketed inside = .ok hp ↔
      inside = hp.host ++ closing :: colon :: hp.port ∧ IsUnbracketed hp.host ∧ IsUnbracketed hp.port := by
  unfold parseBracketed
  constructor
  · intro h
    split at h
    · cases h
    · cases h
    · rename_i host c port hcut
      obtain ⟨rfl, hhost⟩ := Text.cut?_eq_some_iff.mp hcut
      split at h
      · cases h
      · rename_i hc
        obtain rfl : c = colon := by simpa using hc
        split at h
        · cases h
        · rename_i hbrackets
          obtain rfl := Except.ok.inj h
          simp only [Bool.or_eq_true, not_or, Bool.not_eq_true, List.contains_eq_mem,
            decide_eq_false_iff_not] at hbrackets
          exact ⟨rfl, ⟨hbrackets.1.1, hhost⟩, hbrackets.2, hbrackets.1.2⟩
  · rintro ⟨rfl, hhost, hport⟩
    rw [Text.cut?_append hhost.2]
    simp [hhost.1, hport.1, hport.2]

/-- Without brackets, host and port are what stands beside the only colon. -/
theorem parsePlain_eq_ok_iff :
    parsePlain address = .ok hp ↔
      address = hp.host ++ colon :: hp.port ∧ IsBare hp.host ∧ IsBare hp.port := by
  unfold parsePlain
  constructor
  · intro h
    split at h
    · cases h
    · rename_i host port hcut
      obtain ⟨rfl, hport⟩ := Text.cutLast?_eq_some_iff.mp hcut
      split at h
      · cases h
      · rename_i hhost
        split at h
        · cases h
        · rename_i hbrackets
          obtain rfl := Except.ok.inj h
          simp only [List.contains_eq_mem, decide_eq_true_eq] at hhost
          rw [Bool.or_eq_true, not_or, Bool.not_eq_true, Bool.not_eq_true] at hbrackets
          obtain ⟨hfront, hrest⟩ := isUnbracketed_append_colon.mp (isUnbracketed_iff.mpr hbrackets)
          exact ⟨rfl, ⟨hhost, hfront⟩, hport, hrest⟩
  · rintro ⟨rfl, hhost, hport⟩
    have hbrackets := isUnbracketed_iff.mp (isUnbracketed_append_colon.mpr ⟨hhost.2, hport.2⟩)
    have hcolon : hp.host.contains colon = false := by simpa using hhost.1
    simp only [Text.cutLast?_append hp.host hport.1, hcolon, hbrackets.1, hbrackets.2]
    rfl

/-- Host and port of an address, or what is wrong with it: the first code point decides between
    the two ways of reading. -/
def parts : Text → Except AddressFault HostPort
  | c :: inside => if c = opening then parseBracketed inside else parsePlain (c :: inside)
  | [] => parsePlain []

theorem parse_eq_mapError (address : Text) : parse address = (parts address).mapError (.address · address) := by
  cases address with
  | nil =>
    rw [parse, parts]
    cases parsePlain [] <;> rfl
  | cons c inside =>
    rw [parse, parts]
    cases (if c = opening then parseBracketed inside else parsePlain (c :: inside)) <;> rfl

theorem parts_eq_ok_iff :
    parts address = .ok hp ↔
      (∃ inside, address = opening :: inside ∧ parseBracketed inside = .ok hp)
        ∨ (∀ inside, address ≠ opening :: inside) ∧ parsePlain address = .ok hp := by
  cases address with
  | nil => simp [parts]
  | cons c inside =>
    by_cases hc : c = opening
    · subst hc
      simp [parts]
    · simp [parts, hc]

/-- **What is read**: all that writes a host and a port, and the addresses with one colon too
    many behind the brackets. -/
theorem parse_eq_ok_iff_writes : parse address = .ok hp ↔ Writes hp address ∨ HasSurplusColon hp address := by
  rw [parse_eq_mapError, mapError_eq_ok_iff, parts_eq_ok_iff]
  simp only [parseBracketed_eq_ok_iff, parsePlain_eq_ok_iff]
  constructor
  · rintro (⟨inside, rfl, rfl, hhost, hport⟩ | ⟨-, rfl, hhost, hport⟩)
    · by_cases hcolon : colon ∈ hp.port
      · exact Or.inr ⟨rfl, hhost, hport, hcolon⟩
      · exact Or.inl (.bracketed hhost ⟨hcolon, hport⟩)
    · exact Or.inl (.bare hhost hport)
  · rintro ((⟨hhost, hport⟩ | ⟨hhost, hport⟩) | ⟨rfl, hhost, hport, -⟩)
    · -- No bare host starts with a bracket, so this is not read as a host in brackets.
      refine Or.inr ⟨?_, rfl, hhost, hport⟩
      intro inside hstart
      have hbrackets := isUnbracketed_append_colon.mpr ⟨hhost.2, hport.2⟩
      rw [hstart] at hbrackets
      exact hbrackets.1 List.mem_cons_self
    · exact Or.inl ⟨_, rfl, rfl, hhost, hport.2⟩
    · exact Or.inl ⟨_, rfl, rfl, hhost, hport⟩

theorem exists_fault_iff :
    (∃ fault, parse address = .error (.address fault address)) ↔ ∀ hp, parse address ≠ .ok hp := by
  rw [parse_eq_mapError]
  cases parts address with
  | ok hp => simp [Except.mapError]
  | error fault => simp [Except.mapError]

theorem HasSurplusColon.not_writes (h : HasSurplusColon hp address) : ¬ Writes hp address := by
  rintro (⟨-, hport⟩ | ⟨-, hport⟩)
  · exact hport.1 h.colon_mem
  · exact hport.1 h.colon_mem

theorem isBare_ofInt (n : Int) : IsBare (Text.ofInt n) := by
  have hne : ∀ c ∈ [colon, opening, closing], c ∉ Text.ofInt n := by
    intro c hc hmem
    simp only [List.mem_cons, List.not_mem_nil, or_false] at hc
    rcases Text.isAsciiDigit_or_eq_of_mem_ofInt hmem with hdigit | hminus
    · rcases hc with rfl | rfl | rfl <;> revert hdigit <;> decide
    · rcases hc with rfl | rfl | rfl <;> revert hminus <;> decide
  exact ⟨hne colon (by simp), hne opening (by simp), hne closing (by simp)⟩

/-- The text of a host and a port is one of the ways to write them. -/
theorem writes_text (hhost : IsUnbracketed hp.host) (hport : IsBare hp.port) : Writes hp hp.text := by
  unfold text
  split
  · exact .bracketed hhost hport
  · rename_i hcolon
    apply Writes.bare
    · exact ⟨by simpa using hcolon, hhost⟩
    · exact hport

/-- **An address is split into the host and the port that it writes**, and every other one is
    refused, just when it has no surplus colon behind the brackets; where it has one, it is split
    all the same, and the port has a colon in it. -/
theorem splits_as_written_iff (address : Text) :
    ((∀ hp, parse address = .ok hp ↔ Writes hp address ∨ HasSurplusColon hp address)
        ∧ ((∃ fault, parse address = .error (.address fault address))
          ↔ ∀ hp, ¬ Writes hp address ∧ ¬ HasSurplusColon hp address))
      ∧ ((∀ hp, parse address = .ok hp ↔ Writes hp address)
          ∧ ((∀ hp, ¬ Writes hp address) → ∃ fault, parse address = .error (.address fault address))
        ↔ ∀ hp, ¬ HasSurplusColon hp address) := by
  refine ⟨⟨fun hp => parse_eq_ok_iff_writes, ?_⟩, ?_, ?_⟩
  · simp only [exists_fault_iff, ne_eq, parse_eq_ok_iff_writes, not_or]
  · rintro ⟨hsplits, -⟩ hp hsurplus
    exact hsurplus.not_writes ((hsplits hp).mp (parse_eq_ok_iff_writes.mpr (Or.inr hsurplus)))
  · intro hno
    have hsplits : ∀ hp, parse address = .ok hp ↔ Writes hp address := by
      intro hp
      rw [parse_eq_ok_iff_writes, or_iff_left (hno hp)]
    refine ⟨hsplits, fun hnone => exists_fault_iff.mpr ?_⟩
    intro hp hparse
    exact hnone hp ((hsplits hp).mp hparse)

/-- **A colon too many may be accepted**: the address `[::1]:80:90` writes no host and port, yet
    it is split, into the host `::1` and the port `80:90`. -/
theorem exists_surplus_colon_accepted :
    parse (Text.of "[::1]:80:90") = .ok ⟨Text.of "::1", Text.of "80:90"⟩
      ∧ ∀ hp, ¬ Writes hp (Text.of "[::1]:80:90") := by
  have hparse : parse (Text.of "[::1]:80:90") = .ok ⟨Text.of "::1", Text.of "80:90"⟩ := rfl
  refine ⟨hparse, ?_⟩
  intro hp hwrites
  obtain rfl := Except.ok.inj (hparse.symm.trans (parse_eq_ok_iff_writes.mpr (Or.inl hwrites)))
  have hcolon : HasSurplusColon ⟨Text.of "::1", Text.of "80:90"⟩ (Text.of "[::1]:80:90") :=
    ⟨by decide, ⟨by decide, by decide⟩, ⟨by decide, by decide⟩, by decide⟩
  exact hcolon.not_writes hwrites

end UploadGate.HostPort
