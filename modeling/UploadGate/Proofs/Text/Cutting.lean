/-
  UploadGate/Proofs/Text/Cutting.lean
  ===================================
  **Cutting a text at a separator, and into words.**

  Both cuts are the cut of a list at the elements of a class, so the lemmas of
  the library apply.  On top of them stand the facts that the readers of headers
  and tokens rest on: pieces without the separator are found again in their
  joined text (`splitOn_eq_iff`), a text is cut at its first or its last separator
  (`cut?_eq_some_iff`, `cutLast?_eq_some_iff`), and its words are those that it is
  spaced out of (`words_eq_iff`).
-/
import Mathlib.Data.List.TakeWhile
import UploadGate.Text.Blank

namespace UploadGate.Text

/-! ### The cuts of the library -/

theorem splitOn_eq_splitOn (sep : CodePoint) (t : Text) : Text.splitOn sep t = List.splitOn sep t := by
  induction t with
  | nil => rfl
  | cons c rest ih =>
    rw [Text.splitOn, List.splitOn_cons_eq_if_modifyHead, ← ih]
    cases hpieces : Text.splitOn sep rest with
    | nil => exact absurd hpieces (Text.splitOn_ne_nil sep rest)
    | cons piece pieces => simp only [beq_iff_eq, List.modifyHead_cons]

theorem blankPieces_eq_splitOnP (t : Text) : Text.blankPieces t = t.splitOnP CodePoint.isBlank := by
  induction t with
  | nil => rfl
  | cons c rest ih =>
    rw [Text.blankPieces, List.splitOnP_cons_eq_if_modifyHead, ← ih]
    cases hpieces : Text.blankPieces rest with
    | nil => exact absurd (ih.symm.trans hpieces) (List.splitOnP_ne_nil _ rest)
    | cons piece pieces => rfl

theorem join_eq_intercalate (sep : Text) (pieces : List Text) :
    Text.join sep pieces = sep.intercalate pieces := by
  induction pieces with
  | nil => rfl
  | cons piece pieces ih =>
    cases pieces with
    | nil => simp [Text.join]
    | cons next pieces =>
      rw [Text.join, ih, List.intercalate_cons_cons]
      simp

/-- A piece is made of the code points of the text that are not of the class it was cut at. -/
theorem mem_of_mem_splitOnP {p : CodePoint → Bool} {t piece : Text} {c : CodePoint}
    (hpiece : piece ∈ t.splitOnP p) (hc : c ∈ piece) : c ∈ t ∧ p c = false := by
  induction t generalizing piece with
  | nil =>
    obtain rfl := List.mem_singleton.mp hpiece
    cases hc
  | cons a rest ih =>
    have hlater : ∀ {piece'}, piece' ∈ rest.splitOnP p → c ∈ piece' → c ∈ a :: rest ∧ p c = false := by
      intro piece' hpiece' hc'
      obtain ⟨hmem, hclass⟩ := ih hpiece' hc'
      exact ⟨List.mem_cons_of_mem a hmem, hclass⟩
    rw [List.splitOnP_cons_eq_if_modifyHead] at hpiece
    by_cases ha : p a = true
    · rw [if_pos ha] at hpiece
      rcases List.mem_cons.mp hpiece with rfl | hpiece
      · cases hc
      · exact hlater hpiece hc
    · rw [if_neg ha] at hpiece
      cases hpieces : rest.splitOnP p with
      | nil => exact absurd hpieces (List.splitOnP_ne_nil p rest)
      | cons first pieces =>
        rw [hpieces] at hlater
        rw [hpieces, List.modifyHead_cons] at hpiece
        rcases List.mem_cons.mp hpiece with rfl | hpiece
        · rcases List.mem_cons.mp hc with rfl | hc
          · exact ⟨List.mem_cons_self, by simpa using ha⟩
          · exact hlater List.mem_cons_self hc
        · exact hlater (List.mem_cons_of_mem first hpiece) hc

/-! ### Cutting at a separator -/

theorem not_mem_of_mem_splitOn {sep : CodePoint} {t piece : Text} (h : piece ∈ Text.splitOn sep t) :
    sep ∉ piece := by
  intro hsep
  rw [splitOn_eq_splitOn, List.splitOn_eq_splitOnP] at h
  have hne := (mem_of_mem_splitOnP h hsep).2
  simp at hne

/-- **What a cut yields**: the pieces of a text are the texts without the separator
    that join to it. -/
theorem splitOn_eq_iff {sep : CodePoint} {t : Text} {pieces : List Text} (hne : pieces ≠ []) :
    Text.splitOn sep t = pieces ↔ Text.join [sep] pieces = t ∧ ∀ piece ∈ pieces, sep ∉ piece := by
  constructor
  · rintro rfl
    exact ⟨Text.join_splitOn sep t, fun piece hpiece => not_mem_of_mem_splitOn hpiece⟩
  · rintro ⟨rfl, hpieces⟩
    rw [splitOn_eq_splitOn, join_eq_intercalate]
    exact List.splitOn_intercalate sep hpieces hne

/-- The first piece is what stands before the first separator. -/
theorem headD_splitOn (sep : CodePoint) (t : Text) : (Text.splitOn sep t).headD [] = t.takeWhile (· ≠ sep) := by
  induction t with
  | nil => rfl
  | cons c rest ih =>
    rw [Text.splitOn]
    cases hpieces : Text.splitOn sep rest with
    | nil => exact absurd hpieces (Text.splitOn_ne_nil sep rest)
    | cons piece pieces =>
      rw [hpieces] at ih
      by_cases hc : c = sep
      · simp [hc]
      · simpa [hc] using ih

/-- The pieces of two texts with a separator between them. -/
theorem splitOn_append_cons (sep : CodePoint) (front rest : Text) :
    Text.splitOn sep (front ++ sep :: rest) = Text.splitOn sep front ++ Text.splitOn sep rest := by
  rw [splitOn_eq_splitOn, splitOn_eq_splitOn, splitOn_eq_splitOn]
  exact List.splitOnP_append_cons front rest (beq_self_eq_true sep)

theorem join_append (sep : Text) {pieces more : List Text} (hpieces : pieces ≠ []) (hmore : more ≠ []) :
    Text.join sep (pieces ++ more) = Text.join sep pieces ++ sep ++ Text.join sep more := by
  induction pieces with
  | nil => exact absurd rfl hpieces
  | cons piece pieces ih =>
    obtain ⟨first, rest, rfl⟩ := List.exists_cons_of_ne_nil hmore
    cases pieces with
    | nil => rfl
    | cons next pieces =>
      have hstep : Text.join sep (piece :: next :: pieces ++ first :: rest)
          = piece ++ sep ++ Text.join sep (next :: pieces ++ first :: rest) := rfl
      rw [hstep, ih (List.cons_ne_nil _ _)]
      simp only [Text.join, List.append_assoc]

theorem mem_join {sep piece : Text} {pieces : List Text} {c : CodePoint} (hpiece : piece ∈ pieces)
    (hc : c ∈ piece) : c ∈ Text.join sep pieces := by
  induction pieces with
  | nil => cases hpiece
  | cons first pieces ih =>
    cases pieces with
    | nil =>
      obtain rfl := List.mem_singleton.mp hpiece
      exact hc
    | cons next pieces =>
      simp only [Text.join]
      rcases List.mem_cons.mp hpiece with rfl | hpiece
      · exact List.mem_append_left _ (List.mem_append_left _ hc)
      · exact List.mem_append_right _ (ih hpiece)

theorem mem_or_exists_mem_of_mem_join {sep : Text} {pieces : List Text} {c : CodePoint}
    (hc : c ∈ Text.join sep pieces) : c ∈ sep ∨ ∃ piece ∈ pieces, c ∈ piece := by
  induction pieces with
  | nil => cases hc
  | cons first pieces ih =>
    cases pieces with
    | nil => exact Or.inr ⟨first, List.mem_cons_self, hc⟩
    | cons next pieces =>
      rcases List.mem_append.mp hc with hc | hc
      · rcases List.mem_append.mp hc with hc | hc
        · exact Or.inr ⟨first, List.mem_cons_self, hc⟩
        · exact Or.inl hc
      · rcases ih hc with hsep | ⟨piece, hpiece, hmem⟩
        · exact Or.inl hsep
        · exact Or.inr ⟨piece, List.mem_cons_of_mem first hpiece, hmem⟩

/-! ### The first and the last occurrence -/

theorem cut?_append {sep : CodePoint} {front : Text} (h : sep ∉ front) (t : Text) :
    Text.cut? sep (front ++ sep :: t) = some (front, t) := by
  induction front with
  | nil => exact if_pos rfl
  | cons c front ih =>
    rw [List.mem_cons, not_or] at h
    rw [List.cons_append, Text.cut?, if_neg (Ne.symm h.1), ih h.2]
    rfl

/-- A text is cut at its first separator. -/
theorem cut?_eq_some_iff {sep : CodePoint} {t front rest : Text} :
    Text.cut? sep t = some (front, rest) ↔ t = front ++ sep :: rest ∧ sep ∉ front := by
  constructor
  · intro h
    induction t generalizing front with
    | nil => cases h
    | cons c t ih =>
      rw [Text.cut?] at h
      split at h
      · rename_i hc
        obtain ⟨rfl, rfl⟩ := Prod.mk.inj (Option.some.inj h)
        exact ⟨by rw [hc]; rfl, List.not_mem_nil⟩
      · rename_i hc
        obtain ⟨⟨before, after⟩, hcut, hpair⟩ := Option.map_eq_some_iff.mp h
        obtain ⟨rfl, rfl⟩ := Prod.mk.inj hpair
        obtain ⟨rfl, hbefore⟩ := ih hcut
        refine ⟨rfl, ?_⟩
        rw [List.mem_cons, not_or]
        exact ⟨Ne.symm hc, hbefore⟩
  · rintro ⟨rfl, hfront⟩
    exact cut?_append hfront rest

theorem cut?_eq_none_iff {sep : CodePoint} {t : Text} : Text.cut? sep t = none ↔ sep ∉ t := by
  constructor
  · intro h hmem
    obtain ⟨front, rest, rfl, hfront⟩ := List.eq_append_cons_of_mem hmem
    rw [cut?_append hfront] at h
    cases h
  · intro h
    cases hcut : Text.cut? sep t with
    | none => rfl
    | some p =>
      obtain ⟨hjoin, -⟩ := cut?_eq_some_iff.mp hcut
      rw [hjoin] at h
      exact absurd (List.mem_append_right _ List.mem_cons_self) h

theorem cutLast?_eq_none {sep : CodePoint} {t : Text} (h : sep ∉ t) : Text.cutLast? sep t = none := by
  induction t with
  | nil => rfl
  | cons c rest ih =>
    have hrest : sep ∉ rest := fun hmem => h (List.mem_cons_of_mem c hmem)
    rw [Text.cutLast?, ih hrest]
    apply if_neg
    rintro rfl
    exact h List.mem_cons_self

/-- A text is cut in front of a last piece without the separator. -/
theorem cutLast?_append {sep : CodePoint} {t : Text} (front : Text) (h : sep ∉ t) :
    Text.cutLast? sep (front ++ sep :: t) = some (front, t) := by
  induction front with
  | nil =>
    rw [List.nil_append, Text.cutLast?, cutLast?_eq_none h]
    exact if_pos rfl
  | cons c front ih => rw [List.cons_append, Text.cutLast?, ih]

theorem cutLast?_eq_none_iff {sep : CodePoint} {t : Text} : Text.cutLast? sep t = none ↔ sep ∉ t := by
  refine ⟨?_, cutLast?_eq_none⟩
  intro h hmem
  obtain ⟨front, rest, hsplit, hfront⟩ := List.eq_append_cons_of_mem (List.mem_reverse.mpr hmem)
  have ht : t = rest.reverse ++ sep :: front.reverse := by
    rw [← List.reverse_reverse t, hsplit]
    simp
  rw [ht, cutLast?_append _ (by simpa using hfront)] at h
  cases h

/-- A text is cut at its last separator. -/
theorem cutLast?_eq_some_iff {sep : CodePoint} {t front rest : Text} :
    Text.cutLast? sep t = some (front, rest) ↔ t = front ++ sep :: rest ∧ sep ∉ rest := by
  constructor
  · intro h
    induction t generalizing front with
    | nil => cases h
    | cons c t ih =>
      rw [Text.cutLast?] at h
      split at h
      · rename_i before after hcut
        obtain ⟨rfl, rfl⟩ := Prod.mk.inj (Option.some.inj h)
        obtain ⟨rfl, hafter⟩ := ih hcut
        exact ⟨rfl, hafter⟩
      · rename_i hnone
        split at h
        · rename_i hc
          obtain ⟨rfl, rfl⟩ := Prod.mk.inj (Option.some.inj h)
          exact ⟨by rw [hc]; rfl, cutLast?_eq_none_iff.mp hnone⟩
        · cases h
  · rintro ⟨rfl, hrest⟩
    exact cutLast?_append front hrest

/-! ### Words -/

/-- A text that can be a word: not empty, and without a blank. -/
structure IsWord (w : Text) : Prop where
  ne_nil : w ≠ []
  unblank : ∀ c ∈ w, c.isBlank = false

/-- A word is the only word in it. -/
theorem IsWord.words {w : Text} (hw : w.IsWord) : w.words = [w] := by
  rw [Text.words, blankPieces_eq_splitOnP, List.splitOnP_eq_singleton hw.unblank]
  simp [hw.ne_nil]

/-- Behind a word and a blank, the words of the rest follow. -/
theorem IsWord.words_append_cons {w : Text} (hw : w.IsWord) {c : CodePoint} (hc : c.isBlank = true)
    (rest : Text) : (w ++ c :: rest).words = w :: rest.words := by
  rw [Text.words, blankPieces_eq_splitOnP,
    List.splitOnP_append_cons_of_forall_mem hw.unblank c hc rest, ← blankPieces_eq_splitOnP]
  simp [hw.ne_nil, Text.words]

/-- The words of a text are words, and made of its code points. -/
theorem isWord_of_mem_words {t w : Text} (h : w ∈ t.words) : w.IsWord ∧ ∀ c ∈ w, c ∈ t := by
  rw [Text.words, blankPieces_eq_splitOnP] at h
  obtain ⟨hpiece, hne⟩ := List.mem_filter.mp h
  have hmem := fun c (hc : c ∈ w) => mem_of_mem_splitOnP hpiece hc
  exact ⟨⟨by simpa using hne, fun c hc => (hmem c hc).2⟩, fun c hc => (hmem c hc).1⟩

theorem IsWord.exists_mem {w : Text} (hw : w.IsWord) : ∃ c ∈ w, c.isBlank = false := by
  obtain ⟨c, hc⟩ := List.exists_mem_of_ne_nil w hw.ne_nil
  exact ⟨c, hc, hw.unblank c hc⟩

theorem isBlank_eq_false_of_mem {t : Text} {c : CodePoint} (hc : c ∈ t) (h : c.isBlank = false) :
    t.isBlank = false := by
  rw [Text.isBlank, List.all_eq_false]
  exact ⟨c, hc, by simp [h]⟩

/-! ### Spaced words -/

/-- What may follow a word: the end of the text, or a blank. -/
def StartsBlank (t : Text) : Prop := ∀ c ∈ t.head?, c.isBlank = true

/-- Words with blanks between them, and with or without blanks at the two ends. -/
inductive Spaced : List Text → Text → Prop
  | done {t : Text} (blank : t.isBlank = true) : Spaced [] t
  | word {words : List Text} {left w rest : Text} (blank : left.isBlank = true) (isWord : w.IsWord)
      (stop : StartsBlank rest) (spaced : Spaced words rest) : Spaced (w :: words) (left ++ (w ++ rest))

theorem words_cons_of_isBlank {c : CodePoint} (hc : c.isBlank = true) (t : Text) :
    Text.words (c :: t) = t.words := by
  rw [Text.words, Text.words, blankPieces_eq_splitOnP, blankPieces_eq_splitOnP,
    List.splitOnP_cons_eq_if_modifyHead, if_pos hc]
  rfl

theorem words_append_of_isBlank {left : Text} (h : left.isBlank = true) (t : Text) :
    (left ++ t).words = t.words := by
  induction left with
  | nil => rfl
  | cons c left ih =>
    rw [Text.isBlank, List.all_cons, Bool.and_eq_true] at h
    rw [List.cons_append, words_cons_of_isBlank h.1]
    exact ih h.2

theorem IsWord.words_append {w : Text} (hw : w.IsWord) {rest : Text} (hrest : StartsBlank rest) :
    (w ++ rest).words = w :: rest.words := by
  cases rest with
  | nil =>
    rw [List.append_nil, hw.words]
    rfl
  | cons c rest =>
    have hc : c.isBlank = true := hrest c rfl
    rw [hw.words_append_cons hc, words_cons_of_isBlank hc]

/-- A text is blank, or its first word can be cut out of it. -/
theorem isBlank_or_exists_word (t : Text) :
    t.isBlank = true ∨ ∃ left w rest, t = left ++ (w ++ rest) ∧ left.isBlank = true ∧ w.IsWord
      ∧ StartsBlank rest := by
  by_cases hblank : t.dropWhile CodePoint.isBlank = []
  · left
    rw [Text.isBlank, List.all_eq_true]
    exact List.dropWhile_eq_nil_iff.mp hblank
  · right
    refine ⟨t.takeWhile CodePoint.isBlank, (t.dropWhile CodePoint.isBlank).takeWhile (!·.isBlank),
      (t.dropWhile CodePoint.isBlank).dropWhile (!·.isBlank), ?_, ?_, ⟨?_, ?_⟩, ?_⟩
    · rw [List.takeWhile_append_dropWhile, List.takeWhile_append_dropWhile]
    · rw [Text.isBlank, List.all_eq_true]
      exact fun c hc => List.mem_takeWhile_imp hc
    · have hfirst := List.head_dropWhile_not CodePoint.isBlank hblank
      obtain ⟨c, rest, hrest⟩ := List.exists_cons_of_ne_nil hblank
      simp only [hrest, List.head_cons] at hfirst
      simp [hrest, hfirst]
    · intro c hc
      simpa using List.mem_takeWhile_imp hc
    · intro c hc
      have hhead := List.head?_dropWhile_not (fun c : CodePoint => !c.isBlank) (t.dropWhile CodePoint.isBlank)
      rw [Option.mem_def.mp hc] at hhead
      simpa using hhead

/-- **The words of a text** are those it is spaced out of. -/
theorem words_eq_iff {t : Text} {words : List Text} : t.words = words ↔ Spaced words t := by
  constructor
  · rintro rfl
    generalize hwords : t.words = words
    induction words generalizing t with
    | nil =>
      rcases isBlank_or_exists_word t with hblank | ⟨left, w, rest, rfl, hleft, hw, hrest⟩
      · exact .done hblank
      · rw [words_append_of_isBlank hleft, hw.words_append hrest] at hwords
        cases hwords
    | cons word words ih =>
      rcases isBlank_or_exists_word t with hblank | ⟨left, w, rest, rfl, hleft, hw, hrest⟩
      · rw [← List.append_nil t, words_append_of_isBlank hblank] at hwords
        cases hwords
      · rw [words_append_of_isBlank hleft, hw.words_append hrest] at hwords
        obtain ⟨rfl, hlater⟩ := List.cons.inj hwords
        exact .word hleft hw hrest (ih hlater)
  · intro h
    induction h with
    | done hblank =>
      rename_i t
      rw [← List.append_nil t, words_append_of_isBlank hblank]
      rfl
    | word hleft hw hrest _ ih => rw [words_append_of_isBlank hleft, hw.words_append hrest, ih]

end UploadGate.Text
