/-
  UploadGate/Proofs/Address/Canonical.lean
  ========================================
  **The one text that is written for an address.**

  Of the many spellings of a long address, writing chooses one: its groups without
  zeros in front, and `::` for the longest run of zero groups.  Whichever run that
  is, the text spells the address (`HasProperScope.spells_text`), so two addresses
  with one text are one address.  Once a short address is unwrapped from a long one
  there is nothing left to unwrap (`mapped?_unwrapped`), and its text spells itself.
-/
import UploadGate.Proofs.Address.Spelling
import UploadGate.Proofs.Text.Trimming

namespace UploadGate.Address

/-! ### The run of zeros -/

theorem zeroRun_split (gs : List Nat) : gs = List.replicate (zeroRun gs) 0 ++ gs.drop (zeroRun gs) := by
  have hzeros : gs.takeWhile (· = 0) = List.replicate (zeroRun gs) 0 := by
    refine List.eq_replicate_iff.mpr ⟨rfl, ?_⟩
    intro g hg
    have hzero := List.mem_takeWhile_imp hg
    exact of_decide_eq_true hzero
  have htake : gs.take (zeroRun gs) = gs.takeWhile (· = 0) :=
    (List.prefix_iff_eq_take.mp (List.takeWhile_prefix _)).symm
  rw [← hzeros, ← htake, List.take_append_drop]

def IsZeroRun (gs : List Nat) (run : Nat × Nat) : Prop :=
  gs = gs.take run.1 ++ List.replicate run.2 0 ++ gs.drop (run.1 + run.2)

theorem isZeroRun_longestZeroRun (gs : List Nat) : IsZeroRun gs (longestZeroRun gs) := by
  refine List.foldlRecOn (motive := IsZeroRun gs) _ _ rfl ?_
  intro best hbest i _
  dsimp only
  split
  · rw [IsZeroRun, List.append_assoc, ← List.drop_drop, ← zeroRun_split, List.take_append_drop]
  · exact hbest

/-! ### Long addresses -/

theorem exists_forall₂_ofHex {ns : List Nat} (h : ∀ n ∈ ns, n < 2 ^ 16) :
    ∃ gs : List (BitVec 16), List.Forall₂ SpellsGroup (ns.map Text.ofHex) gs ∧ gs.map BitVec.toNat = ns := by
  induction ns with
  | nil => exact ⟨[], .nil, rfl⟩
  | cons n ns ih =>
    obtain ⟨hn, hns⟩ := List.forall_mem_cons.mp h
    obtain ⟨gs, hspelled, hall⟩ := ih hns
    have hvalue : (BitVec.ofNat 16 n).toNat = n := by
      rw [BitVec.toNat_ofNat, Nat.mod_eq_of_lt hn]
    have hfirst := spellsGroup_ofHex (BitVec.ofNat 16 n)
    rw [hvalue] at hfirst
    exact ⟨.ofNat 16 n :: gs, .cons hfirst hspelled, by rw [List.map_cons, hvalue, hall]⟩

/-- **What is written for a long address spells it**, whichever zeros are left out. -/
theorem spellsLong_text6 (bits : BitVec 128) : SpellsLong (text6 bits) bits := by
  have hlt := groups_lt bits
  have hrun := isZeroRun_longestZeroRun (groups bits)
  simp only [text6]
  generalize longestZeroRun (groups bits) = run at hrun ⊢
  split
  · obtain ⟨gs, hspelled, hall⟩ := exists_forall₂_ofHex hlt
    exact .full (spellsGroups_of_forall₂ hspelled) hall
  · rename_i hlong
    have hpos : 0 < run.2 := by omega
    have hzero : BitVec.toNat (0 : BitVec 16) = 0 := rfl
    have hfront : ∀ n ∈ (groups bits).take run.1, n < 2 ^ 16 := fun n hn => hlt n (List.mem_of_mem_take hn)
    have hback : ∀ n ∈ (groups bits).drop (run.1 + run.2), n < 2 ^ 16 :=
      fun n hn => hlt n (List.mem_of_mem_drop hn)
    obtain ⟨high, hbefore, hhigh⟩ := exists_forall₂_ofHex hfront
    obtain ⟨low, hbehind, hlow⟩ := exists_forall₂_ofHex hback
    rw [List.append_assoc]
    refine .gapped hbefore (spellsGroups_of_forall₂ hbehind) hpos ?_
    rw [List.map_append, List.map_append, List.map_replicate, hhigh, hlow, hzero]
    exact hrun.symm

/-- The longest run counts, and here it is the second. -/
example : text6 0x00010000000000020000000000000003 = Text.of "1:0:0:2::3" := rfl

/-! ### Both families -/

/-- The scope of an address, if it has one, can stand in a text. -/
def HasProperScope : Address → Prop
  | .v4 _ => True
  | .v6 _ none => True
  | .v6 _ (some scope) => IsScope scope

theorem Spells.hasProperScope {t : Text} {a : Address} (h : Spells t a) : a.HasProperScope := by
  cases h with
  | short bits => trivial
  | long _ => trivial
  | withScope _ hscope => exact hscope

/-- **The text of an address spells it**, if any text can. -/
theorem HasProperScope.spells_text {a : Address} (h : a.HasProperScope) : Spells a.text a := by
  match a, h with
  | .v4 bits, _ => exact .short bits
  | .v6 bits none, _ => exact .long (spellsLong_text6 bits)
  | .v6 bits (some scope), hscope => exact .withScope (spellsLong_text6 bits) hscope

theorem HasProperScope.text_inj {a b : Address} (ha : a.HasProperScope) (hb : b.HasProperScope) :
    a.text = b.text ↔ a = b := by
  refine ⟨fun htext => ?_, fun h => h ▸ rfl⟩
  have hspelled := ha.spells_text
  rw [htext] at hspelled
  exact hspelled.unique hb.spells_text

/-! ### What stands in the text of an address -/

theorem hexValue?_of_isBlank {c : CodePoint} (h : c.isBlank = true) :
    c.hexValue? = none ∧ c ≠ colon ∧ c ≠ .ofChar '.' := by
  refine ⟨?_, ?_, ?_⟩
  · cases hvalue : c.hexValue? with
    | none => rfl
    | some d =>
      simp only [CodePoint.isBlank, Bool.or_eq_true, Bool.and_eq_true, decide_eq_true_eq, beq_iff_eq] at h
      simp only [CodePoint.hexValue?, CodePoint.isAsciiDigit, Bool.and_eq_true, decide_eq_true_eq] at hvalue
      split at hvalue
      · omega
      · split at hvalue
        · omega
        · split at hvalue
          · omega
          · cases hvalue
  · rintro rfl
    exact absurd h (by decide)
  · rintro rfl
    exact absurd h (by decide)

/-- Beyond the signs of addresses, the text of an address has only what stands in the texts
    that spell it. -/
theorem Spells.not_mem_text {t : Text} {a : Address} (h : Spells t a) {c : CodePoint} (hmem : c ∉ t)
    (hc : c.hexValue? = none) (hcolon : c ≠ colon) (hpoint : c ≠ .ofChar '.') : c ∉ a.text := by
  cases h with
  | short bits => exact hmem
  | long _ => exact (spellsLong_text6 _).not_mem hc hcolon hpoint
  | withScope _ _ =>
    rw [List.mem_append, not_or] at hmem
    rw [text, List.mem_append, not_or]
    exact ⟨(spellsLong_text6 _).not_mem hc hcolon hpoint, hmem.2⟩

/-- Only a scope can bring blanks to an end of an address. -/
theorem Spells.isTrimmed_text {t : Text} {a : Address} (h : Spells t a) (ht : t.IsTrimmed) :
    a.text.IsTrimmed := by
  have hlong : ∀ {s : Text} {bits : BitVec 128}, SpellsLong s bits → ∀ c ∈ s, c.isBlank = false := by
    intro s bits hspelled c hmem
    rw [← Bool.not_eq_true]
    intro hblank
    obtain ⟨hc, hcolon, hpoint⟩ := hexValue?_of_isBlank hblank
    exact hspelled.not_mem hc hcolon hpoint hmem
  cases h with
  | short bits => exact ht
  | long _ => exact Text.isTrimmed_of_forall (hlong (spellsLong_text6 _))
  | withScope hspelled hscope =>
    rename_i bits
    have hfront := spellsLong_text6 bits
    rw [Text.isTrimmed_append_iff (List.ne_nil_of_mem hspelled.colon_mem) (List.cons_ne_nil _ _)] at ht
    rw [text, Text.isTrimmed_append_iff (List.ne_nil_of_mem hfront.colon_mem) (List.cons_ne_nil _ _)]
    exact ⟨fun c hc => hlong hfront c (List.mem_of_mem_head? hc), ht.2⟩

theorem Spells.text_ne_nil {t : Text} {a : Address} (h : Spells t a) : a.text ≠ [] := by
  cases h with
  | short bits => exact List.ne_nil_of_mem (point_mem_text4 bits)
  | long _ => exact List.ne_nil_of_mem (spellsLong_text6 _).colon_mem
  | withScope _ _ => exact List.append_ne_nil_of_right_ne_nil _ (List.cons_ne_nil _ _)

/-! ### Addresses inside others -/

theorem unwrapped_of_mapped? {bits : BitVec 128} {scope? : Option Text} {short : BitVec 32}
    (h : mapped? bits = some short) : (Address.v6 bits scope?).unwrapped = .v4 short := by
  simp only [unwrapped, h]

theorem unwrapped_of_mapped?_eq_none {bits : BitVec 128} {scope? : Option Text} (h : mapped? bits = none) :
    (Address.v6 bits scope?).unwrapped = .v6 bits scope? := by
  simp only [unwrapped, h]

theorem mapped?_unwrapped {a : Address} {bits : BitVec 128} {scope? : Option Text}
    (h : a.unwrapped = .v6 bits scope?) : mapped? bits = none ∧ a = .v6 bits scope? := by
  cases a with
  | v4 short => cases h
  | v6 bits' scope' =>
    cases hmapped : mapped? bits' with
    | none =>
      rw [unwrapped_of_mapped?_eq_none hmapped] at h
      cases h
      exact ⟨hmapped, rfl⟩
    | some short =>
      rw [unwrapped_of_mapped? hmapped] at h
      cases h

theorem unwrapped_unwrapped (a : Address) : a.unwrapped.unwrapped = a.unwrapped := by
  cases hunwrapped : a.unwrapped with
  | v4 short => rfl
  | v6 bits scope? => exact unwrapped_of_mapped?_eq_none (mapped?_unwrapped hunwrapped).1

/-- An address that is unwrapped is spelled as before, or it is a short one. -/
theorem Spells.unwrapped {t : Text} {a : Address} (h : Spells t a) :
    Spells t a.unwrapped ∨ ∃ short, a.unwrapped = .v4 short := by
  cases hunwrapped : a.unwrapped with
  | v4 short => exact Or.inr ⟨short, rfl⟩
  | v6 bits scope? => exact Or.inl ((mapped?_unwrapped hunwrapped).2 ▸ h)

theorem Spells.spells_text_unwrapped {t : Text} {a : Address} (h : Spells t a) :
    Spells a.unwrapped.text a.unwrapped := by
  rcases h.unwrapped with hspelled | ⟨short, hshort⟩
  · exact hspelled.hasProperScope.spells_text
  · rw [hshort]
    exact .short short

end UploadGate.Address
