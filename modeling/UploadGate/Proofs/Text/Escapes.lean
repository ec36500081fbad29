/-
  UploadGate/Proofs/Text/Escapes.lean
  ===================================
  **Which texts UTF-8 with escapes gives back.**

  A text is written as octets and read again.  Escapes that stand side by side
  may be the octets of a character: then the reading finds the character in
  their place, and the text is not given back.  Nothing else goes wrong: no
  character can swallow a part of another one, since its first octet is no tail
  and all others are.
-/
import UploadGate.Proofs.Text.Utf8

namespace UploadGate.Utf8

/-! ### Leads and tails -/

/-- A character starts with an octet that is no tail, and goes on with tails. -/
theorem exists_octets_eq (c : CodePoint) :
    ∃ a tail, octets c = a :: tail ∧ isTail a = false ∧ ∀ b ∈ tail, isTail b = true := by
  have hlt := c.isLt
  have hlead : ∀ n : Nat, n < 0x80 ∨ (0xC0 ≤ n ∧ n < 0x100) → isTail (.ofNat n) = false := by
    intro n hn
    simp only [isTail, UInt8.toNat_ofNat', Bool.and_eq_false_iff, decide_eq_false_iff_not]
    omega
  have htail : ∀ n : Nat, isTail (.ofNat (0x80 + n % 0x40)) = true :=
    fun n => isTail_ofNat (Nat.mod_lt n (by decide))
  unfold octets
  simp only
  -- the ranges of the code point, one for each length of a sequence
  split
  · exact ⟨_, [], rfl, hlead _ (by omega), List.forall_mem_nil _⟩
  split
  · exact ⟨_, [_], rfl, hlead _ (by omega), List.forall_mem_singleton.mpr (htail _)⟩
  split
  · refine ⟨_, [_, _], rfl, hlead _ (by omega), List.forall_mem_cons.mpr ⟨htail _, ?_⟩⟩
    exact List.forall_mem_singleton.mpr (htail _)
  · refine ⟨_, [_, _, _], rfl, hlead _ (by omega), List.forall_mem_cons.mpr ⟨htail _, ?_⟩⟩
    exact List.forall_mem_cons.mpr ⟨htail _, List.forall_mem_singleton.mpr (htail _)⟩

/-- Tails at the front of some pieces are stray ones: a character starts with no tail. -/
theorem strays_prefix_of_isTail {pieces : List Piece} {tails rest : Bytes}
    (h : pieces.flatMap Piece.octets = tails ++ rest) (htails : ∀ b ∈ tails, isTail b = true) :
    tails.map Piece.stray <+: pieces := by
  induction tails generalizing pieces with
  | nil => exact List.nil_prefix
  | cons b tails ih =>
    cases pieces with
    | nil => cases h
    | cons p pieces =>
      rw [List.flatMap_cons] at h
      cases p with
      | stray d =>
        simp only [Piece.octets, List.cons_append, List.nil_append, List.cons.injEq] at h
        obtain ⟨rfl, h⟩ := h
        rw [List.map_cons, List.prefix_cons_inj]
        exact ih h fun b hb => htails b (List.mem_cons_of_mem _ hb)
      | scalar c =>
        obtain ⟨a, tail, hoctets, hlead, -⟩ := exists_octets_eq c
        rw [Piece.octets, hoctets] at h
        obtain ⟨rfl, -⟩ := List.cons.inj h
        rw [htails a List.mem_cons_self] at hlead
        cases hlead

/-! ### Pieces that are scanned as they are -/

/-- What is scanned piece by piece is scanned so from every piece on. -/
theorem scan_flatMap_of_append {before pieces : List Piece} (hproper : ∀ p ∈ before, p.IsProper)
    (h : scan ((before ++ pieces).flatMap Piece.octets) = before ++ pieces) :
    scan (pieces.flatMap Piece.octets) = pieces := by
  induction before with
  | nil => exact h
  | cons p before ih =>
    refine ih (fun q hq => hproper q (List.mem_cons_of_mem _ hq)) ?_
    rw [List.cons_append, List.flatMap_cons] at h
    cases p with
    | scalar c =>
      rw [Piece.octets, scan_octets_append (hproper _ List.mem_cons_self)] at h
      exact (List.cons.inj h).2
    | stray b =>
      rw [Piece.octets, List.singleton_append] at h
      cases hseq : sequence? b ((before ++ pieces).flatMap Piece.octets) with
      | none =>
        rw [scan_cons_of_none hseq] at h
        exact (List.cons.inj h).2
      | some found =>
        rw [scan_cons_of_sequence? hseq] at h
        cases (List.cons.inj h).1

/-- **Proper pieces are scanned as they are** just when no strays among them are the
    octets of a character. -/
theorem scan_flatMap_eq_self_iff {pieces : List Piece} (hproper : ∀ p ∈ pieces, p.IsProper) :
    scan (pieces.flatMap Piece.octets) = pieces ↔
      ∀ c : CodePoint, c.isSurrogate = false → ¬ (octets c).map Piece.stray <:+: pieces := by
  constructor
  · rintro h c hc ⟨before, after, rfl⟩
    rw [List.append_assoc] at h
    have hrest := scan_flatMap_of_append
      (fun p hp => hproper p (List.mem_append_left _ (List.mem_append_left _ hp))) h
    have hstrays : ((octets c).map Piece.stray).flatMap Piece.octets = octets c := by
      simp [List.flatMap_map, Piece.octets]
    obtain ⟨a, tail, hoctets, -, -⟩ := exists_octets_eq c
    rw [List.flatMap_append, hstrays, scan_octets_append hc, hoctets] at hrest
    cases (List.cons.inj hrest).1
  · intro h
    induction pieces with
    | nil => rfl
    | cons p pieces ih =>
      have hrest := ih (fun q hq => hproper q (List.mem_cons_of_mem _ hq))
        fun c hc hpart => h c hc (hpart.trans (List.suffix_cons p pieces).isInfix)
      rw [List.flatMap_cons]
      cases p with
      | scalar c => rw [Piece.octets, scan_octets_append (hproper _ List.mem_cons_self), hrest]
      | stray b =>
        rw [Piece.octets, List.singleton_append]
        cases hseq : sequence? b (pieces.flatMap Piece.octets) with
        | none => rw [scan_cons_of_none hseq, hrest]
        | some found =>
          -- the stray octet and the tails behind it would be the octets of a character
          exfalso
          obtain ⟨c, more⟩ := found
          obtain ⟨hc, hoctets⟩ := sequence?_sound hseq
          obtain ⟨a, tail, hfirst, -, htails⟩ := exists_octets_eq c
          rw [hoctets] at hfirst
          obtain ⟨rfl, rfl⟩ := List.cons.inj hfirst
          have hfront := strays_prefix_of_isTail (List.take_append_drop more _).symm htails
          refine h c hc ?_
          rw [hoctets, List.map_cons]
          exact (List.prefix_cons_inj _ |>.mpr hfront).isInfix

/-! ### Texts without octets -/

/-- A surrogate in the text is no escape. -/
def HasNoOctets (t : Text) : Prop :=
  ∃ c ∈ t, c.isSurrogate = true ∧ ¬ (0xDC80 ≤ c.val ∧ c.val ≤ 0xDCFF)

theorem octetsEscaped?_eq_none_iff {c : CodePoint} :
    octetsEscaped? c = none ↔ c.isSurrogate = true ∧ ¬ (0xDC80 ≤ c.val ∧ c.val ≤ 0xDCFF) := by
  unfold octetsEscaped? octets?
  split <;> rename_i hescape <;> simp_all

theorem encodeEscaped?_eq_none_iff {t : Text} : encodeEscaped? t = none ↔ HasNoOctets t := by
  unfold HasNoOctets
  simp only [← octetsEscaped?_eq_none_iff, encodeEscaped?, Option.map_eq_none_iff]
  induction t with
  | nil => simp
  | cons c t ih =>
    rw [List.mapM_cons]
    cases hfirst : octetsEscaped? c with
    | none => simp [hfirst]
    | some front =>
      have htail : (∃ d ∈ c :: t, octetsEscaped? d = none) ↔ ∃ d ∈ t, octetsEscaped? d = none := by
        simp [hfirst]
      rw [htail, ← ih]
      cases t.mapM octetsEscaped? <;> simp

/-! ### Texts that are read back -/

/-- Escapes stand side by side in the text that are the octets of a character. -/
def HidesCharacter (t : Text) : Prop :=
  ∃ c : CodePoint, c.isSurrogate = false ∧ (octets c).map escape <:+: t

/-- The piece that a code point with octets stands for. -/
def pieceOf (c : CodePoint) : Piece :=
  if 0xDC80 ≤ c.val && c.val ≤ 0xDCFF then .stray (.ofNat (c.val - 0xDC00)) else .scalar c

theorem pieceOf_escape {b : UInt8} (hb : 0x80 ≤ b.toNat) : pieceOf (escape b) = .stray b := by
  have hlt := b.toNat_lt
  have hval : (escape b).val = 0xDC00 + b.toNat := rfl
  have hrange : (decide (0xDC80 ≤ (escape b).val) && decide ((escape b).val ≤ 0xDCFF)) = true := by
    simp only [hval, Bool.and_eq_true, decide_eq_true_eq]
    omega
  rw [pieceOf, if_pos hrange, ofNat_eq_of_toNat (b := b) (by omega)]

/-- The code point of a proper piece stands for that piece. -/
theorem pieceOf_point {p : Piece} (hp : p.IsProper) : pieceOf p.point = p := by
  cases p with
  | stray b => exact pieceOf_escape hp
  | scalar c =>
    have hc : c.isSurrogate = false := hp
    have hrange : (decide (0xDC80 ≤ c.val) && decide (c.val ≤ 0xDCFF)) = false := by
      simp only [CodePoint.isSurrogate, Bool.and_eq_false_iff, decide_eq_false_iff_not] at hc ⊢
      omega
    rw [Piece.point, pieceOf, if_neg (Bool.eq_false_iff.mp hrange)]

/-- Only escapes of octets outside ASCII stand for proper pieces. -/
theorem le_of_isProper_pieceOf_escape {b : UInt8} (h : (pieceOf (escape b)).IsProper) :
    0x80 ≤ b.toNat := by
  have hb := b.toNat_lt
  have hval : (escape b).val = 0xDC00 + b.toNat := rfl
  rcases Nat.lt_or_ge b.toNat 0x80 with hlt | hge
  · have hrange : (decide (0xDC80 ≤ (escape b).val) && decide ((escape b).val ≤ 0xDCFF)) = false := by
      simp only [hval, Bool.and_eq_false_iff, decide_eq_false_iff_not]
      omega
    rw [pieceOf, if_neg (Bool.eq_false_iff.mp hrange)] at h
    simp only [Piece.IsProper, CodePoint.isSurrogate, hval, Bool.and_eq_false_iff,
      decide_eq_false_iff_not] at h
    omega
  · exact hge

theorem isProper_pieceOf {c : CodePoint} {bytes : Bytes} (h : octetsEscaped? c = some bytes) :
    (pieceOf c).IsProper ∧ (pieceOf c).point = c ∧ (pieceOf c).octets = bytes := by
  unfold octetsEscaped? at h
  split at h
  · rename_i hrange
    obtain rfl := Option.some.inj h
    rw [pieceOf, if_pos hrange]
    simp only [Bool.and_eq_true, decide_eq_true_eq] at hrange
    have hval : (UInt8.ofNat (c.val - 0xDC00)).toNat = c.val - 0xDC00 := by
      rw [UInt8.toNat_ofNat']
      omega
    refine ⟨?_, ?_, rfl⟩
    · simp only [Piece.IsProper, hval]
      omega
    · apply Fin.ext
      simp only [Piece.point, escape, hval]
      omega
  · rename_i hrange
    unfold octets? at h
    split at h
    · cases h
    · rename_i hc
      obtain rfl := Option.some.inj h
      rw [pieceOf, if_neg hrange]
      exact ⟨Bool.eq_false_iff.mpr hc, rfl, rfl⟩

theorem map_pieceOf_proper {t : Text} {bytes : Bytes} (h : encodeEscaped? t = some bytes) :
    (∀ p ∈ t.map pieceOf, p.IsProper) ∧ (t.map pieceOf).map Piece.point = t
      ∧ (t.map pieceOf).flatMap Piece.octets = bytes := by
  induction t generalizing bytes with
  | nil =>
    obtain rfl := Option.some.inj h
    exact ⟨by simp, rfl, rfl⟩
  | cons c t ih =>
    obtain ⟨pieces, hpieces, rfl⟩ := Option.map_eq_some_iff.mp h
    rw [List.mapM_cons] at hpieces
    cases hfirst : octetsEscaped? c with
    | none => rw [hfirst] at hpieces; cases hpieces
    | some front =>
      cases hrest : t.mapM octetsEscaped? with
      | none => rw [hfirst, hrest] at hpieces; cases hpieces
      | some rest =>
        rw [hfirst, hrest] at hpieces
        obtain rfl := Option.some.inj hpieces
        obtain ⟨hproper, hpoint, hoctets⟩ := isProper_pieceOf hfirst
        have hbytes : encodeEscaped? t = some rest.flatten := by
          rw [encodeEscaped?, hrest]
          rfl
        obtain ⟨hpropers, hpoints, hflat⟩ := ih hbytes
        refine ⟨?_, ?_, ?_⟩
        · rw [List.map_cons]
          exact List.forall_mem_cons.mpr ⟨hproper, hpropers⟩
        · rw [List.map_cons, List.map_cons, hpoint, hpoints]
        · rw [List.map_cons, List.flatMap_cons, hoctets, hflat, List.flatten_cons]

/-- **Which texts survive**: a text with octets is read back from them just when it
    hides no character. -/
theorem decodeEscaped_eq_self_iff {t : Text} {bytes : Bytes} (h : encodeEscaped? t = some bytes) :
    decodeEscaped bytes = t ↔ ¬ HidesCharacter t := by
  obtain ⟨hproper, hpoint, hoctets⟩ := map_pieceOf_proper h
  have hscan : decodeEscaped bytes = t ↔ scan bytes = t.map pieceOf := by
    rw [decodeEscaped_eq]
    constructor
    · rintro rfl
      have hself : ∀ p ∈ scan bytes, (pieceOf ∘ Piece.point) p = id p :=
        fun p hp => pieceOf_point ((scan_sound bytes).1 p hp)
      rw [List.map_map, List.map_congr_left hself, List.map_id]
    · intro heq
      rw [heq, hpoint]
  rw [hscan, ← hoctets, scan_flatMap_eq_self_iff hproper]
  constructor
  · rintro hno ⟨c, hc, hpart⟩
    refine hno c hc ?_
    have hpieces := hpart.map pieceOf
    rw [List.map_map] at hpieces
    have hstrays : (octets c).map (pieceOf ∘ escape) = (octets c).map Piece.stray := by
      refine List.map_congr_left fun b hb => pieceOf_escape (le_of_isProper_pieceOf_escape ?_)
      exact hproper _ (hpieces.subset (List.mem_map_of_mem hb))
    rwa [hstrays] at hpieces
  · intro hno c hc hpart
    refine hno ⟨c, hc, ?_⟩
    have hpoints := hpart.map Piece.point
    rwa [hpoint, List.map_map] at hpoints

end UploadGate.Utf8
