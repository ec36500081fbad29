/-
  UploadGate/Proofs/Address/Spelling.lean
  =======================================
  **Which texts denote which address.**

  `Spells` is the grammar of addresses of both families.  Reading an address is
  deciding it (`parse?_eq_some_iff`), so a text denotes at most one address, while
  a long address has many spellings.
-/
import UploadGate.Proofs.Address.Long

namespace UploadGate.Address

/-! ### The grammar -/

abbrev percent : CodePoint := .ofChar '%'

/-- The text of a scope: not empty, and without the signs that end an address. -/
structure IsScope (scope : Text) : Prop where
  ne_nil : scope ≠ []
  percent_not_mem : percent ∉ scope
  slash_not_mem : CodePoint.ofChar '/' ∉ scope

inductive Spells : Text → Address → Prop
  | short (bits : BitVec 32) : Spells (text4 bits) (.v4 bits)
  | long {t : Text} {bits : BitVec 128} (spelled : SpellsLong t bits) : Spells t (.v6 bits none)
  | withScope {t scope : Text} {bits : BitVec 128} (spelled : SpellsLong t bits) (isScope : IsScope scope) :
      Spells (t ++ percent :: scope) (.v6 bits (some scope))

/-! ### What spellings are made of -/

/-- A long address is spelled in hexadecimal digits, colons and points. -/
theorem SpellsLong.not_mem {t : Text} {bits : BitVec 128} (h : SpellsLong t bits) {c : CodePoint}
    (hc : c.hexValue? = none) (hcolon : c ≠ colon) (hpoint : c ≠ .ofChar '.') : c ∉ t := by
  have hjoin : ∀ {pieces : List Text} {gs : List (BitVec 16)}, SpellsGroups pieces gs →
      c ∉ Text.join [colon] pieces := by
    intro pieces gs hpieces hmem
    rcases Text.mem_or_exists_mem_of_mem_join hmem with hsep | ⟨piece, hpiece, hmem⟩
    · exact hcolon (List.mem_singleton.mp hsep)
    · exact hpieces.not_mem hc hpoint piece hpiece hmem
  cases h with
  | full heach _ => exact hjoin heach
  | gapped hbefore hbehind _ _ =>
    simp only [List.mem_append, List.mem_cons, hcolon, false_or, not_or]
    exact ⟨hjoin (spellsGroups_of_forall₂ hbefore), hjoin hbehind⟩

theorem SpellsLong.colon_mem {t : Text} {bits : BitVec 128} (h : SpellsLong t bits) : colon ∈ t := by
  cases h with
  | full heach hall =>
    rename_i pieces gs
    have hlong := heach.length_le
    have height := length_of_map_toNat hall
    match pieces, hlong with
    | first :: next :: rest, _ =>
      exact List.mem_append_left _ (List.mem_append_right _ (List.mem_singleton.mpr rfl))
    | [_], hlong =>
      simp only [List.length_singleton] at hlong
      omega
    | [], hlong =>
      simp only [List.length_nil] at hlong
      omega
  | gapped _ _ _ _ => exact List.mem_append_right _ List.mem_cons_self

theorem bits4?_of_colon_mem {t : Text} (h : colon ∈ t) : bits4? t = none := by
  cases hbits : bits4? t with
  | none => rfl
  | some bits =>
    rw [bits4?_eq_some_iff.mp hbits] at h
    exact absurd h (not_mem_text4 rfl (by decide))

theorem Spells.slash_not_mem {t : Text} {a : Address} (h : Spells t a) : CodePoint.ofChar '/' ∉ t := by
  cases h with
  | short bits => exact not_mem_text4 rfl (by decide)
  | long hspelled => exact hspelled.not_mem rfl (by decide) (by decide)
  | withScope hspelled hscope =>
    rw [List.mem_append, List.mem_cons, not_or, not_or]
    exact ⟨hspelled.not_mem rfl (by decide) (by decide), by decide, hscope.slash_not_mem⟩

theorem Spells.colon_mem {t : Text} {bits : BitVec 128} {scope? : Option Text}
    (h : Spells t (.v6 bits scope?)) : colon ∈ t := by
  cases h with
  | long hspelled => exact hspelled.colon_mem
  | withScope hspelled _ => exact List.mem_append_left _ hspelled.colon_mem

/-! ### Reading -/

theorem splitScope?_eq_some_iff {t front : Text} {scope? : Option Text} :
    splitScope? t = some (front, scope?) ↔
      (percent ∉ t ∧ t = front ∧ scope? = none)
        ∨ ∃ scope, t = front ++ percent :: scope ∧ percent ∉ front ∧ scope ≠ [] ∧ percent ∉ scope
          ∧ scope? = some scope := by
  unfold splitScope?
  constructor
  · intro h
    split at h
    · rename_i hcut
      obtain ⟨rfl, rfl⟩ := Prod.mk.inj (Option.some.inj h)
      exact Or.inl ⟨Text.cut?_eq_none_iff.mp hcut, rfl, rfl⟩
    · rename_i before scope hcut
      obtain ⟨rfl, hfront⟩ := Text.cut?_eq_some_iff.mp hcut
      split at h
      · cases h
      · rename_i hscope
        obtain ⟨rfl, rfl⟩ := Prod.mk.inj (Option.some.inj h)
        rw [Bool.or_eq_true, not_or, List.isEmpty_iff, List.contains_eq_mem, decide_eq_true_eq] at hscope
        exact Or.inr ⟨scope, rfl, hfront, hscope.1, hscope.2, rfl⟩
  · rintro (⟨hnone, rfl, rfl⟩ | ⟨scope, rfl, hfront, hne, hscope, rfl⟩)
    · rw [Text.cut?_eq_none_iff.mpr hnone]
    · have hform : ¬ (scope.isEmpty || scope.contains percent) = true := by
        rw [Bool.or_eq_true, not_or, List.isEmpty_iff, List.contains_eq_mem, decide_eq_true_eq]
        exact ⟨hne, hscope⟩
      rw [Text.cut?_append hfront]
      exact if_neg hform

theorem long?_eq_some_iff {t : Text} {bits : BitVec 128} {scope? : Option Text} :
    long? t = some (bits, scope?) ↔ Spells t (.v6 bits scope?) := by
  unfold long?
  constructor
  · intro h
    split at h
    · cases h
    · rename_i hslash
      rw [List.contains_eq_mem, decide_eq_true_eq] at hslash
      obtain ⟨⟨front, scope'⟩, hsplit, h⟩ := Option.bind_eq_some_iff.mp h
      obtain ⟨bits', hbits, h⟩ := Option.bind_eq_some_iff.mp h
      obtain ⟨rfl, rfl⟩ := Prod.mk.inj (Option.some.inj h)
      rw [bits6?_eq_some_iff] at hbits
      rcases splitScope?_eq_some_iff.mp hsplit with
        ⟨-, rfl, rfl⟩ | ⟨scope, rfl, -, hne, hscope, rfl⟩
      · exact .long hbits
      · refine .withScope hbits ⟨hne, hscope, ?_⟩
        intro hmem
        exact hslash (List.mem_append_right _ (List.mem_cons_of_mem _ hmem))
  · intro h
    have hread : ∀ {front : Text}, splitScope? t = some (front, scope?) →
        SpellsLong front bits → long? t = some (bits, scope?) := by
      intro front hsplit hbits
      rw [long?, if_neg (by simpa using h.slash_not_mem), hsplit]
      change (bits6? front).bind (fun bits => some (bits, scope?)) = some (bits, scope?)
      rw [bits6?_eq_some_iff.mpr hbits]
      rfl
    cases h with
    | long hspelled =>
      refine hread (splitScope?_eq_some_iff.mpr (Or.inl ⟨?_, rfl, rfl⟩)) hspelled
      exact hspelled.not_mem rfl (by decide) (by decide)
    | withScope hspelled hscope =>
      refine hread (splitScope?_eq_some_iff.mpr (Or.inr
        ⟨_, rfl, ?_, hscope.ne_nil, hscope.percent_not_mem, rfl⟩)) hspelled
      exact hspelled.not_mem rfl (by decide) (by decide)

/-- **An address is read from the texts that spell it**, and from no others. -/
theorem parse?_eq_some_iff {t : Text} {a : Address} : parse? t = some a ↔ Spells t a := by
  unfold parse?
  constructor
  · intro h
    split at h
    · rename_i bits hbits
      obtain rfl := Option.some.inj h
      rw [bits4?_eq_some_iff.mp hbits]
      exact .short bits
    · obtain ⟨⟨bits, scope?⟩, hlong, rfl⟩ := Option.map_eq_some_iff.mp h
      exact long?_eq_some_iff.mp hlong
  · intro h
    cases a with
    | v4 bits =>
      cases h
      rw [bits4?_text4]
    | v6 bits scope? =>
      rw [bits4?_of_colon_mem h.colon_mem, long?_eq_some_iff.mpr h]
      rfl

example : parse? (Text.of "2001:0DB8::0.0.0.1%eth0")
    = some (.v6 0x20010DB8000000000000000000000001 (some (Text.of "eth0"))) := rfl

/-- A text denotes at most one address. -/
theorem Spells.unique {t : Text} {a b : Address} (ha : Spells t a) (hb : Spells t b) : a = b := by
  rw [← parse?_eq_some_iff] at ha hb
  exact Option.some.inj (ha.symm.trans hb)

end UploadGate.Address
