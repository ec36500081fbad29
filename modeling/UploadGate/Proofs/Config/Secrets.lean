/-
  UploadGate/Proofs/Config/Secrets.lean
  =====================================
  **Secrets of issuers are read just as they are written.**

  A list of secrets is written as pieces between commas.  A piece is blank, or it
  holds an issuer and its secret (`WritesSecret`), with blanks around the issuer and
  behind the secret; the secret begins right behind the first `=`.  Each piece is
  read by itself (`parseIssuerSecret_strip_eq_ok_iff`), and the map that comes out
  holds the last secret of each issuer at the place of its first (`IsLatest`).
-/
import UploadGate.Config.Environment
import UploadGate.Proofs.Outcome
import UploadGate.Proofs.Text.Cutting
import UploadGate.Proofs.Text.Trimming

namespace UploadGate

/-! ### Entries that repeat a key -/

namespace OrderedMap

variable {κ α : Type} [DecidableEq κ] {m n : OrderedMap κ α}

/-- A map has the keys of some entries in the order of their first occurrence, each with the
    value of its last. -/
structure IsLatest (m : OrderedMap κ α) (entries : List (κ × α)) : Prop where
  keys : m.keys = (entries.map Prod.fst).eraseDups
  get? : ∀ k, m.get? k = OrderedMap.get? entries.reverse k

theorem setAll_append (m : OrderedMap κ α) (entries : List (κ × α)) (e : κ × α) :
    m.setAll (entries ++ [e]) = (m.setAll entries).set e.1 e.2 := by
  unfold setAll
  rw [List.foldl_append]
  rfl

theorem nodup_keys_setAll (entries : List (κ × α)) : (setAll [] entries).keys.Nodup := by
  induction entries using List.reverseRecOn with
  | nil => exact List.nodup_nil
  | append_singleton entries e ih =>
    rw [setAll_append]
    exact nodup_keys_set ih e.1 e.2

theorem isLatest_setAll (entries : List (κ × α)) : IsLatest (setAll [] entries) entries := by
  induction entries using List.reverseRecOn with
  | nil => exact ⟨rfl, fun _ => rfl⟩
  | append_singleton entries e ih =>
    constructor
    · rw [setAll_append, keys_set, ih.keys, List.map_append, List.eraseDups_append]
      simp only [List.mem_eraseDups]
      by_cases h : e.1 ∈ entries.map Prod.fst
      · simp [h, List.removeAll]
      · simp [h, List.removeAll, List.eraseDups_cons]
    · intro k
      rw [setAll_append, get?_set, ih.get? k, List.reverse_append, List.reverse_singleton,
        List.singleton_append, get?_cons]

/-- A map is made of its keys and their values. -/
theorem filterMap_keys (m : OrderedMap κ α) (h : m.keys.Nodup) :
    m.keys.filterMap (fun k => (m.get? k).map (Prod.mk k)) = m := by
  rw [keys, List.filterMap_map]
  calc m.filterMap ((fun k => (m.get? k).map (Prod.mk k)) ∘ Prod.fst) = m.filterMap some := by
        apply List.filterMap_congr
        intro e he
        rw [Function.comp_apply, get?_eq_some_of_mem h he]
        rfl
    _ = m := List.filterMap_some

theorem IsLatest.eq_setAll {entries : List (κ × α)} (h : IsLatest m entries) : m = setAll [] entries := by
  have hsame := isLatest_setAll entries
  have hkeys : m.keys = (setAll [] entries).keys := h.keys.trans hsame.keys.symm
  have hnodup := nodup_keys_setAll entries
  have hvalues : m.get? = (setAll [] entries).get? := funext fun k => (h.get? k).trans (hsame.get? k).symm
  calc m = m.keys.filterMap (fun k => (m.get? k).map (Prod.mk k)) := (filterMap_keys m (hkeys ▸ hnodup)).symm
    _ = (setAll [] entries).keys.filterMap (fun k => ((setAll [] entries).get? k).map (Prod.mk k)) := by
        rw [hkeys, hvalues]
    _ = setAll [] entries := filterMap_keys _ hnodup

theorem set_of_notMem {k : κ} (h : k ∉ m.keys) (v : α) : m.set k v = m ++ [(k, v)] := by
  induction m with
  | nil => rfl
  | cons e m ih =>
    rw [keys_cons, List.mem_cons, not_or] at h
    rw [set, if_neg (Ne.symm h.1), ih h.2]
    rfl

/-- Entries with keys of their own are kept as they are. -/
theorem setAll_eq_self {entries : List (κ × α)} (h : (entries.map Prod.fst).Nodup) :
    setAll [] entries = entries := by
  induction entries using List.reverseRecOn with
  | nil => rfl
  | append_singleton entries e ih =>
    rw [List.map_append, List.nodup_append] at h
    have hnew : e.1 ∉ OrderedMap.keys entries := fun hmem => h.2.2 e.1 hmem e.1 List.mem_cons_self rfl
    rw [setAll_append, ih h.1, set_of_notMem hnew]

end OrderedMap

namespace Config

variable {piece : Text} {e : Text × Text}

/-! ### What is written -/

def equalsMark : CodePoint := .ofChar '='

/-- An issuer and a secret that can be written: neither is empty, the issuer has no blanks at its
    ends and no `=` or comma, and the secret has no blank behind it and no comma. -/
structure IsWritableSecret (e : Text × Text) : Prop where
  issuer_ne_nil : e.1 ≠ []
  issuer_trimmed : e.1.IsTrimmed
  equals_notMem_issuer : equalsMark ∉ e.1
  comma_notMem_issuer : comma ∉ e.1
  secret_ne_nil : e.2 ≠ []
  secret_last : ∀ c ∈ e.2.getLast?, c.isBlank = false
  comma_notMem_secret : comma ∉ e.2

/-- A piece holds an issuer and its secret: blanks may stand around the issuer and behind the
    secret, while those in front of the secret are its own. -/
inductive WritesSecret : Text → Text × Text → Prop
  | intro {front behind last issuer secret : Text} (writable : IsWritableSecret (issuer, secret))
      (hfront : front.isBlank = true) (hbehind : behind.isBlank = true) (hlast : last.isBlank = true) :
      WritesSecret (front ++ (issuer ++ (behind ++ (equalsMark :: secret ++ last)))) (issuer, secret)

/-- The pieces of a list hold issuers and secrets, in order, or nothing. -/
inductive WritesSecrets : List Text → List (Text × Text) → Prop
  | nil : WritesSecrets [] []
  | blank {piece : Text} {pieces : List Text} {pairs : List (Text × Text)} (h : piece.isBlank = true)
      (rest : WritesSecrets pieces pairs) : WritesSecrets (piece :: pieces) pairs
  | pair {piece : Text} {pieces : List Text} {e : Text × Text} {pairs : List (Text × Text)}
      (h : WritesSecret piece e) (rest : WritesSecrets pieces pairs) : WritesSecrets (piece :: pieces) (e :: pairs)

/-- A text writes a list of issuers and secrets: pieces that hold them, joined by commas. -/
def ListsSecrets (t : Text) (pairs : List (Text × Text)) : Prop :=
  ∃ pieces, pieces ≠ [] ∧ Text.join [comma] pieces = t ∧ WritesSecrets pieces pairs

/-! ### One piece -/

theorem notMem_of_isBlank {t : Text} {c : CodePoint} (h : t.isBlank = true) (hc : c.isBlank = false) : c ∉ t := by
  intro hmem
  have hblank := List.all_eq_true.mp h c hmem
  rw [hc] at hblank
  cases hblank

theorem WritesSecret.comma_notMem (h : WritesSecret piece e) : comma ∉ piece := by
  obtain ⟨hwritable, hfront, hbehind, hlast⟩ := h
  have hblank : comma.isBlank = false := by decide
  have hmark : comma ≠ equalsMark := by decide
  simp only [List.mem_append, List.mem_cons, not_or]
  exact ⟨notMem_of_isBlank hfront hblank, hwritable.comma_notMem_issuer, notMem_of_isBlank hbehind hblank,
    ⟨hmark, hwritable.comma_notMem_secret⟩, notMem_of_isBlank hlast hblank⟩

theorem WritesSecret.isBlank_eq_false (h : WritesSecret piece e) : piece.isBlank = false := by
  have hmem : equalsMark ∈ piece := by
    cases h
    simp
  exact Text.isBlank_eq_false_of_mem hmem (by decide)

theorem isTrimmed_pair {issuer behind secret : Text} (h : IsWritableSecret (issuer, secret)) :
    (issuer ++ (behind ++ equalsMark :: secret)).IsTrimmed := by
  have hsecret : secret ≠ [] := h.secret_ne_nil
  rw [Text.isTrimmed_append_iff h.issuer_ne_nil (by simp)]
  refine ⟨h.issuer_trimmed.head, ?_⟩
  rw [List.getLast?_append_of_ne_nil _ (List.cons_ne_nil _ _), List.getLast?_cons_of_ne_nil hsecret]
  exact h.secret_last

/-- What a piece holds is read from it. -/
theorem WritesSecret.parseIssuerSecret (h : WritesSecret piece e) : parseIssuerSecret piece.strip = .ok e := by
  cases h with
  | @intro front behind last issuer secret hwritable hfront hbehind hlast =>
    have hassoc : front ++ (issuer ++ (behind ++ (equalsMark :: secret ++ last)))
        = front ++ (issuer ++ (behind ++ equalsMark :: secret) ++ last) := by
      simp only [List.append_assoc]
    have hmark : equalsMark ∉ issuer ++ behind := by
      rw [List.mem_append, not_or]
      exact ⟨hwritable.equals_notMem_issuer, notMem_of_isBlank hbehind (by decide)⟩
    have hissuer : Text.strip ([] ++ (issuer ++ behind)) = issuer := hwritable.issuer_trimmed.strip_append rfl hbehind
    rw [hassoc, (isTrimmed_pair hwritable).strip_append hfront hlast, ← List.append_assoc]
    unfold Config.parseIssuerSecret
    rw [← equalsMark, Text.cut?_append hmark]
    have hgiven : (issuer.isEmpty || secret.isEmpty) = false := by
      simp [hwritable.issuer_ne_nil, show secret ≠ [] from hwritable.secret_ne_nil]
    rw [List.nil_append] at hissuer
    simp only [hissuer, hgiven, Bool.false_eq_true, if_false]

/-- What is read from a piece was written there. -/
theorem writesSecret_of_parseIssuerSecret (hcomma : comma ∉ piece)
    (h : Config.parseIssuerSecret piece.strip = .ok e) : WritesSecret piece e := by
  unfold Config.parseIssuerSecret at h
  split at h
  · cases h
  · rename_i given secret hcut
    split at h
    · cases h
    · rename_i hgiven
      obtain rfl := Except.ok.inj h
      simp only [Bool.or_eq_true, List.isEmpty_iff, not_or] at hgiven
      obtain ⟨hstrip, hmark⟩ := Text.cut?_eq_some_iff.mp hcut
      obtain ⟨left, right, hpiece, hleft, hright⟩ := Text.exists_strip_append piece
      obtain ⟨front, behind, hissuer, hfront, hbehind⟩ := Text.exists_strip_append given
      have hsub : ∀ c ∈ given ++ CodePoint.ofChar '=' :: secret, c ∈ piece :=
        fun c hc => Text.mem_of_mem_strip (hstrip ▸ hc)
      have hend := (Text.isTrimmed_strip piece).last
      rw [hstrip, List.getLast?_append_of_ne_nil _ (List.cons_ne_nil _ _),
        List.getLast?_cons_of_ne_nil hgiven.2] at hend
      have hwritable : IsWritableSecret (given.strip, secret) :=
        { issuer_ne_nil := hgiven.1
          issuer_trimmed := Text.isTrimmed_strip given
          equals_notMem_issuer := fun hmem => hmark (Text.mem_of_mem_strip hmem)
          comma_notMem_issuer := fun hmem =>
            hcomma (hsub _ (List.mem_append_left _ (Text.mem_of_mem_strip hmem)))
          secret_ne_nil := hgiven.2
          secret_last := hend
          comma_notMem_secret := fun hmem =>
            hcomma (hsub _ (List.mem_append_right _ (List.mem_cons_of_mem _ hmem))) }
      have hblank : (left ++ front).isBlank = true := by
        rw [Text.isBlank, List.all_append, Bool.and_eq_true]
        exact ⟨hleft, hfront⟩
      have hwritten : piece
          = left ++ front ++ (given.strip ++ (behind ++ (equalsMark :: secret ++ right))) := by
        rw [hpiece, hstrip]
        conv_lhs => rw [hissuer]
        simp only [List.append_assoc, List.cons_append, equalsMark]
      rw [hwritten]
      exact .intro hwritable hblank hbehind hright

/-- **A piece is read just as it is written.** -/
theorem parseIssuerSecret_strip_eq_ok_iff (hcomma : comma ∉ piece) :
    Config.parseIssuerSecret piece.strip = .ok e ↔ WritesSecret piece e :=
  ⟨writesSecret_of_parseIssuerSecret hcomma, WritesSecret.parseIssuerSecret⟩

/-! ### Whole lists -/

theorem mapM_parseIssuerSecret_eq_ok_iff {pieces : List Text} {pairs : List (Text × Text)}
    (hcomma : ∀ piece ∈ pieces, comma ∉ piece) :
    ((pieces.map Text.strip).filter (!·.isEmpty)).mapM Config.parseIssuerSecret = .ok pairs
      ↔ WritesSecrets pieces pairs := by
  induction pieces generalizing pairs with
  | nil =>
    constructor
    · intro h
      obtain rfl := Except.ok.inj h
      exact .nil
    · rintro ⟨⟩
      rfl
  | cons piece pieces ih =>
    rw [List.forall_mem_cons] at hcomma
    have ih := @ih
    cases hblank : piece.isBlank with
    | true =>
      have hskip : piece.strip.isEmpty = true := by
        rw [List.isEmpty_iff, Text.strip_eq_nil_iff, hblank]
      rw [List.map_cons, List.filter_cons_of_neg (by simp [hskip]), ih hcomma.2]
      constructor
      · exact .blank hblank
      · intro h
        cases h with
        | blank _ rest => exact rest
        | pair hpiece _ => cases hblank.symm.trans hpiece.isBlank_eq_false
    | false =>
      have hkeep : piece.strip.isEmpty = false := by
        rw [List.isEmpty_eq_false_iff, ne_eq, Text.strip_eq_nil_iff, hblank]
        exact Bool.false_ne_true
      rw [List.map_cons, List.filter_cons_of_pos (by simp [hkeep]), mapM_eq_ok_iff, List.forall₂_cons_left_iff]
      simp only [← mapM_eq_ok_iff, ih hcomma.2, parseIssuerSecret_strip_eq_ok_iff hcomma.1]
      constructor
      · rintro ⟨e, rest, hpiece, hrest, rfl⟩
        exact .pair hpiece hrest
      · intro h
        cases h with
        | blank hpiece _ => cases hblank.symm.trans hpiece
        | pair hpiece rest => exact ⟨_, _, hpiece, rest, rfl⟩

theorem WritesSecrets.comma_notMem {pieces : List Text} {pairs : List (Text × Text)}
    (h : WritesSecrets pieces pairs) : ∀ piece ∈ pieces, comma ∉ piece := by
  induction h with
  | nil => exact List.forall_mem_nil _
  | blank hpiece _ ih => exact List.forall_mem_cons.mpr ⟨notMem_of_isBlank hpiece (by decide), ih⟩
  | pair hpiece _ ih => exact List.forall_mem_cons.mpr ⟨hpiece.comma_notMem, ih⟩

theorem mapM_items_eq_ok_iff {t : Text} {pairs : List (Text × Text)} :
    (items t).mapM Config.parseIssuerSecret = .ok pairs ↔ ListsSecrets t pairs := by
  unfold items
  rw [mapM_parseIssuerSecret_eq_ok_iff fun _ hpiece => Text.not_mem_of_mem_splitOn hpiece]
  constructor
  · intro h
    exact ⟨t.splitOn comma, Text.splitOn_ne_nil comma t, Text.join_splitOn comma t, h⟩
  · rintro ⟨pieces, hne, hjoin, hpieces⟩
    rwa [(Text.splitOn_eq_iff hne).mpr ⟨hjoin, hpieces.comma_notMem⟩]

/-- **Secrets are read just as they are written.**  A text is read as a map just when it lists
    issuers and secrets of which the map holds the last secret of each issuer, at the place of
    its first; a list of issuers that are all different is read as this list. -/
theorem secrets_read_as_listed (t : Text) :
    (∀ m, parseIssuerSecrets t = .ok m ↔ ∃ pairs, ListsSecrets t pairs ∧ OrderedMap.IsLatest m pairs)
      ∧ ∀ pairs, ListsSecrets t pairs → (pairs.map Prod.fst).Nodup → parseIssuerSecrets t = .ok pairs := by
  constructor
  · intro m
    unfold parseIssuerSecrets
    rw [map_eq_ok_iff]
    simp only [mapM_items_eq_ok_iff]
    constructor
    · rintro ⟨pairs, hpairs, rfl⟩
      exact ⟨pairs, hpairs, OrderedMap.isLatest_setAll pairs⟩
    · rintro ⟨pairs, hpairs, hlatest⟩
      exact ⟨pairs, hpairs, hlatest.eq_setAll.symm⟩
  · intro pairs hpairs hnodup
    apply map_eq_ok_iff.mpr
    exact ⟨pairs, mapM_items_eq_ok_iff.mpr hpairs, OrderedMap.setAll_eq_self hnodup⟩

theorem secrets_read_as_listed_pair :
    ListsSecrets (Text.of "i=a=b") [(Text.of "i", Text.of "a=b")]
      ∧ parseIssuerSecrets (Text.of "i=a=b") = .ok [(Text.of "i", Text.of "a=b")] := by
  have hissuer : ∀ c ∈ some (CodePoint.ofChar 'i'), c.isBlank = false := by
    rintro c ⟨⟩
    decide
  have hsecret : ∀ c ∈ some (CodePoint.ofChar 'b'), c.isBlank = false := by
    rintro c ⟨⟩
    decide
  have hwritable : IsWritableSecret (Text.of "i", Text.of "a=b") :=
    ⟨by decide, ⟨hissuer, hissuer⟩, by decide, by decide, by decide, hsecret, by decide⟩
  have hpiece : WritesSecret (Text.of "i=a=b") (Text.of "i", Text.of "a=b") :=
    @WritesSecret.intro [] [] [] _ _ hwritable rfl rfl rfl
  have hlists : ListsSecrets (Text.of "i=a=b") [(Text.of "i", Text.of "a=b")] :=
    ⟨[Text.of "i=a=b"], List.cons_ne_nil _ _, rfl, .pair hpiece .nil⟩
  exact ⟨hlists, (secrets_read_as_listed _).2 _ hlists (by decide)⟩

example : parseIssuerSecrets (Text.of "kiwi = first,, pear =a=b,kiwi=last ")
    = .ok [(Text.of "kiwi", Text.of "last"), (Text.of "pear", Text.of "a=b")] := by decide +kernel

end Config

end UploadGate
