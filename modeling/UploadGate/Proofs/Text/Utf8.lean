/-
  UploadGate/Proofs/Text/Utf8.lean
  ================================
  **UTF-8 with escapes loses no octet, and no character.**

  The scan is exact in both directions: a sequence that it finds is written back
  as the very octets it was found in (`sequence?_sound`), and the octets of a
  character are found as that character, whatever stands behind them
  (`sequence?_octets`).  From the first follows that octets survive a reading
  and a writing (`encodeEscaped?_decodeEscaped`), from the second that a text
  without surrogates survives a writing and a reading.
-/
import UploadGate.Text.Utf8

namespace UploadGate.Utf8

/-! ### One sequence -/

theorem scalar?_map_eq_some {least n length more : Nat} {c : CodePoint}
    (h : (scalar? least n).map (·, length) = some (c, more)) :
    c.val = n ∧ least ≤ n ∧ c.isSurrogate = false ∧ more = length := by
  obtain ⟨d, hd, hpair⟩ := Option.map_eq_some_iff.mp h
  obtain ⟨rfl, rfl⟩ := Prod.mk.inj hpair
  unfold scalar? at hd
  split at hd
  · split at hd
    · rename_i hrange
      obtain rfl := Option.some.inj hd
      simp only [Bool.and_eq_true, decide_eq_true_eq, Bool.not_eq_true'] at hrange
      exact ⟨rfl, hrange.1, hrange.2, rfl⟩
    · cases hd
  · cases hd

theorem scalar?_val {least n : Nat} {c : CodePoint} (hn : n = c.val) (hleast : least ≤ n)
    (hc : c.isSurrogate = false) : scalar? least n = some c := by
  subst hn
  unfold CodePoint.isSurrogate at hc
  simp only [scalar?, c.isLt, dite_true, hc, decide_eq_true hleast, Bool.not_false, Bool.and_true,
    if_true]

theorem ofNat_eq_of_toNat {b : UInt8} {n : Nat} (h : n = b.toNat) : UInt8.ofNat n = b := by
  rw [h, UInt8.ofNat_toNat]

/-- **A sequence that is found stands there**: its code point is no surrogate and is
    written as the octets at the front. -/
theorem sequence?_sound {a : UInt8} {rest : Bytes} {c : CodePoint} {more : Nat}
    (h : sequence? a rest = some (c, more)) :
    c.isSurrogate = false ∧ octets c = a :: rest.take more := by
  have ha := a.toNat_lt
  unfold sequence? at h
  simp only at h
  -- the ranges of the first octet, one for each length of a sequence
  split at h
  · obtain ⟨hval, -, hsur, rfl⟩ := scalar?_map_eq_some h
    refine ⟨hsur, ?_⟩
    simp only [octets, hval]
    rw [if_pos (by omega), UInt8.ofNat_toNat]
    rfl
  split at h
  · cases h
  split at h
  · split at h
    · rename_i b rest
      split at h
      · rename_i htail
        obtain ⟨hval, hleast, hsur, rfl⟩ := scalar?_map_eq_some h
        simp only [isTail, Bool.and_eq_true, decide_eq_true_eq] at htail
        refine ⟨hsur, ?_⟩
        simp only [octets, hval]
        rw [if_neg (by omega), if_pos (by omega),
          ofNat_eq_of_toNat (b := a) (by omega), ofNat_eq_of_toNat (b := b) (by omega)]
        rfl
      · cases h
    · cases h
  split at h
  · split at h
    · rename_i b d rest
      split at h
      · rename_i htail
        obtain ⟨hval, hleast, hsur, rfl⟩ := scalar?_map_eq_some h
        simp only [isTail, Bool.and_eq_true, decide_eq_true_eq] at htail
        refine ⟨hsur, ?_⟩
        simp only [octets, hval]
        rw [if_neg (by omega), if_neg (by omega), if_pos (by omega),
          ofNat_eq_of_toNat (b := a) (by omega), ofNat_eq_of_toNat (b := b) (by omega),
          ofNat_eq_of_toNat (b := d) (by omega)]
        rfl
      · cases h
    · cases h
  split at h
  · split at h
    · rename_i b d e rest
      split at h
      · rename_i htail
        obtain ⟨hval, hleast, hsur, rfl⟩ := scalar?_map_eq_some h
        simp only [isTail, Bool.and_eq_true, decide_eq_true_eq] at htail
        refine ⟨hsur, ?_⟩
        simp only [octets, hval]
        rw [if_neg (by omega), if_neg (by omega), if_neg (by omega),
          ofNat_eq_of_toNat (b := a) (by omega), ofNat_eq_of_toNat (b := b) (by omega),
          ofNat_eq_of_toNat (b := d) (by omega), ofNat_eq_of_toNat (b := e) (by omega)]
        rfl
      · cases h
    · cases h
  · cases h

/-- An octet that starts no sequence lies outside ASCII. -/
theorem le_of_sequence?_eq_none {a : UInt8} {rest : Bytes} (h : sequence? a rest = none) :
    0x80 ≤ a.toNat := by
  rcases Nat.lt_or_ge a.toNat 0x80 with hlt | hge
  · have hscalar : scalar? 0 a.toNat = some ⟨a.toNat, by omega⟩ :=
      scalar?_val rfl (Nat.zero_le _)
        (by simp only [CodePoint.isSurrogate, Bool.and_eq_false_iff, decide_eq_false_iff_not]; omega)
    simp only [sequence?, if_pos hlt, hscalar] at h
    cases h
  · exact hge

theorem isTail_ofNat {n : Nat} (h : n < 0x40) : isTail (.ofNat (0x80 + n)) = true := by
  simp only [isTail, UInt8.toNat_ofNat', Bool.and_eq_true, decide_eq_true_eq]
  omega

/-- **A character that stands there is found**, whatever stands behind it. -/
theorem sequence?_octets {c : CodePoint} (hc : c.isSurrogate = false) (rest : Bytes) :
    ∃ a tail, octets c = a :: tail ∧ sequence? a (tail ++ rest) = some (c, tail.length) := by
  have hlt := c.isLt
  unfold octets
  simp only
  -- the ranges of the code point, one for each length of a sequence
  split
  · rename_i h1
    refine ⟨_, [], rfl, ?_⟩
    simp only [sequence?, UInt8.toNat_ofNat']
    rw [if_pos (by omega), scalar?_val (by omega) (by omega) hc]
    rfl
  split
  · rename_i h1 h2
    refine ⟨_, [_], rfl, ?_⟩
    simp only [sequence?, UInt8.toNat_ofNat', List.cons_append]
    rw [if_neg (by omega), if_neg (by omega), if_pos (by omega),
      if_pos (isTail_ofNat (by omega)), scalar?_val (by omega) (by omega) hc]
    rfl
  split
  · rename_i h1 h2 h3
    refine ⟨_, [_, _], rfl, ?_⟩
    simp only [sequence?, UInt8.toNat_ofNat', List.cons_append]
    rw [if_neg (by omega), if_neg (by omega), if_neg (by omega), if_pos (by omega),
      isTail_ofNat (by omega), isTail_ofNat (by omega), if_pos (by decide),
      scalar?_val (by omega) (by omega) hc]
    rfl
  · rename_i h1 h2 h3
    refine ⟨_, [_, _, _], rfl, ?_⟩
    simp only [sequence?, UInt8.toNat_ofNat', List.cons_append]
    rw [if_neg (by omega), if_neg (by omega), if_neg (by omega), if_neg (by omega),
      if_pos (by omega), isTail_ofNat (by omega), isTail_ofNat (by omega),
      isTail_ofNat (by omega), if_pos (by decide), scalar?_val (by omega) (by omega) hc]
    rfl

/-! ### The scan -/

def Piece.octets : Piece → Bytes
  | .scalar c => Utf8.octets c
  | .stray b => [b]

def Piece.IsProper : Piece → Prop
  | .scalar c => c.isSurrogate = false
  | .stray b => 0x80 ≤ b.toNat

theorem scanFrom_eq_scan_drop (taken : Nat) (bytes : Bytes) :
    scanFrom taken bytes = scan (bytes.drop taken) := by
  induction bytes generalizing taken with
  | nil => cases taken <;> rfl
  | cons a rest ih =>
    cases taken with
    | zero => rfl
    | succ taken => exact ih taken

theorem scan_cons_of_sequence? {a : UInt8} {rest : Bytes} {c : CodePoint} {more : Nat}
    (h : sequence? a rest = some (c, more)) :
    scan (a :: rest) = .scalar c :: scan (rest.drop more) := by
  rw [scan, scanFrom, h]
  exact congrArg _ (scanFrom_eq_scan_drop more rest)

theorem scan_cons_of_none {a : UInt8} {rest : Bytes} (h : sequence? a rest = none) :
    scan (a :: rest) = .stray a :: scan rest := by
  rw [scan, scanFrom, h]
  rfl

/-- **The scan cuts and loses nothing**: its pieces are proper, and their octets in
    turn are the octets it was given. -/
theorem scan_sound (bytes : Bytes) :
    (∀ p ∈ scan bytes, p.IsProper) ∧ (scan bytes).flatMap Piece.octets = bytes := by
  -- a sequence takes several octets at once, so the induction is on the length
  induction hn : bytes.length using Nat.strongRecOn generalizing bytes with
  | ind n ih =>
    subst hn
    cases bytes with
    | nil => exact ⟨by simp [scan, scanFrom], rfl⟩
    | cons a rest =>
      cases hseq : sequence? a rest with
      | none =>
        obtain ⟨hproper, hoctets⟩ := ih rest.length (by simp) rest rfl
        rw [scan_cons_of_none hseq]
        refine ⟨?_, by simp [Piece.octets, hoctets]⟩
        intro p hp
        rcases List.mem_cons.mp hp with rfl | hp
        · exact le_of_sequence?_eq_none hseq
        · exact hproper p hp
      | some found =>
        obtain ⟨c, more⟩ := found
        obtain ⟨hsur, hfront⟩ := sequence?_sound hseq
        obtain ⟨hproper, hoctets⟩ := ih (rest.drop more).length
          (by simp only [List.length_drop, List.length_cons]; omega) (rest.drop more) rfl
        rw [scan_cons_of_sequence? hseq]
        refine ⟨?_, ?_⟩
        · intro p hp
          rcases List.mem_cons.mp hp with rfl | hp
          · exact hsur
          · exact hproper p hp
        · rw [List.flatMap_cons, hoctets, Piece.octets, hfront, List.cons_append,
            List.take_append_drop]

/-- The octets of a character are one piece, and the scan goes on behind them. -/
theorem scan_octets_append {c : CodePoint} (hc : c.isSurrogate = false) (rest : Bytes) :
    scan (octets c ++ rest) = .scalar c :: scan rest := by
  obtain ⟨a, tail, hoctets, hseq⟩ := sequence?_octets hc rest
  rw [hoctets, List.cons_append, scan_cons_of_sequence? hseq, List.drop_left]

theorem scan_flatMap_octets {t : Text} (ht : t.any CodePoint.isSurrogate = false) :
    scan (t.flatMap octets) = t.map .scalar := by
  induction t with
  | nil => rfl
  | cons c t ih =>
    simp only [List.any_cons, Bool.or_eq_false_iff] at ht
    rw [List.flatMap_cons, scan_octets_append ht.1, ih ht.2, List.map_cons]

/-! ### Octets, read and written -/

/-- The code point that a piece is read as. -/
def Piece.point : Piece → CodePoint
  | .scalar c => c
  | .stray b => escape b

theorem decodeEscaped_eq (bytes : Bytes) : decodeEscaped bytes = (scan bytes).map Piece.point := by
  unfold decodeEscaped
  congr

theorem octetsEscaped?_of_not_isSurrogate {c : CodePoint} (hc : c.isSurrogate = false) :
    octetsEscaped? c = some (octets c) := by
  have hrange : (decide (0xDC80 ≤ c.val) && decide (c.val ≤ 0xDCFF)) = false := by
    simp only [CodePoint.isSurrogate, Bool.and_eq_false_iff, decide_eq_false_iff_not] at hc ⊢
    omega
  simp only [octetsEscaped?, hrange, octets?, hc, Bool.false_eq_true, if_false]

theorem octetsEscaped?_point {p : Piece} (hp : p.IsProper) : octetsEscaped? p.point = some p.octets := by
  cases p with
  | scalar c => exact octetsEscaped?_of_not_isSurrogate hp
  | stray b =>
    have hb := b.toNat_lt
    have hle : 0x80 ≤ b.toNat := hp
    have hval : (escape b).val = 0xDC00 + b.toNat := rfl
    have hrange : (decide (0xDC80 ≤ (escape b).val) && decide ((escape b).val ≤ 0xDCFF)) = true := by
      simp only [hval, Bool.and_eq_true, decide_eq_true_eq]
      omega
    rw [Piece.point, octetsEscaped?, if_pos hrange, ofNat_eq_of_toNat (b := b) (by omega)]
    rfl

theorem mapM_octetsEscaped?_point {pieces : List Piece} (h : ∀ p ∈ pieces, p.IsProper) :
    (pieces.map Piece.point).mapM octetsEscaped? = some (pieces.map Piece.octets) := by
  induction pieces with
  | nil => rfl
  | cons p pieces ih =>
    rw [List.map_cons, List.mapM_cons, octetsEscaped?_point (h p (by simp)),
      ih fun q hq => h q (by simp [hq])]
    rfl

/-- **Octets survive**: what is read with escapes is written as it was. -/
theorem encodeEscaped?_decodeEscaped (bytes : Bytes) :
    encodeEscaped? (decodeEscaped bytes) = some bytes := by
  obtain ⟨hproper, hoctets⟩ := scan_sound bytes
  rw [encodeEscaped?, decodeEscaped_eq, mapM_octetsEscaped?_point hproper, Option.map_some,
    ← List.flatMap_def, hoctets]

/-- A text without surrogates is written as the octets of its characters. -/
theorem encodeEscaped?_of_not_isSurrogate {t : Text} (ht : t.any CodePoint.isSurrogate = false) :
    encodeEscaped? t = some (t.flatMap octets) := by
  have hmap : t.mapM octetsEscaped? = some (t.map octets) := by
    induction t with
    | nil => rfl
    | cons c t ih =>
      simp only [List.any_cons, Bool.or_eq_false_iff] at ht
      rw [List.mapM_cons, octetsEscaped?_of_not_isSurrogate ht.1, ih ht.2]
      rfl
  rw [encodeEscaped?, hmap, Option.map_some, ← List.flatMap_def]

/-- **Characters survive**: the octets of a text without surrogates read as the text. -/
theorem decodeEscaped_flatMap_octets {t : Text} (ht : t.any CodePoint.isSurrogate = false) :
    decodeEscaped (t.flatMap octets) = t := by
  rw [decodeEscaped_eq, scan_flatMap_octets ht, List.map_map]
  exact List.map_id t

/-! ### The strict reading -/

/-- The strict reading wants nothing but characters. -/
theorem decode?_eq_some_iff_scan {t : Text} {bytes : Bytes} :
    decode? bytes = some t ↔ scan bytes = t.map Piece.scalar := by
  unfold decode?
  generalize scan bytes = pieces
  induction pieces generalizing t with
  | nil => cases t <;> simp
  | cons p pieces ih =>
    rw [List.mapM_cons]
    cases p with
    | stray b => cases t <;> simp
    | scalar c =>
      cases t with
      | nil => simp [Option.bind_eq_some_iff]
      | cons d t =>
        simp only [Option.bind_eq_bind, Option.bind_some, Option.bind_eq_some_iff, Option.pure_def,
          Option.some.injEq, List.cons.injEq, List.map_cons, Piece.scalar.injEq]
        constructor
        · rintro ⟨rest, hrest, rfl, rfl⟩
          exact ⟨rfl, ih.mp hrest⟩
        · rintro ⟨rfl, hpieces⟩
          exact ⟨t, ih.mpr hpieces, rfl, rfl⟩

theorem mapM_octets?_eq_some {t : Text} {parts : List Bytes} (h : t.mapM octets? = some parts) :
    t.any CodePoint.isSurrogate = false ∧ parts = t.map octets := by
  induction t generalizing parts with
  | nil =>
    obtain rfl := Option.some.inj h
    exact ⟨rfl, rfl⟩
  | cons c t ih =>
    rw [List.mapM_cons] at h
    obtain ⟨front, hfront, h⟩ := Option.bind_eq_some_iff.mp h
    obtain ⟨rest, hrest, h⟩ := Option.bind_eq_some_iff.mp h
    obtain rfl := Option.some.inj h
    obtain ⟨ht, rfl⟩ := ih hrest
    unfold octets? at hfront
    split at hfront
    · cases hfront
    · rename_i hc
      obtain rfl := Option.some.inj hfront
      exact ⟨by simp [hc, ht], rfl⟩

theorem encode?_eq_some_iff {t : Text} {bytes : Bytes} :
    encode? t = some bytes ↔ t.any CodePoint.isSurrogate = false ∧ bytes = t.flatMap octets := by
  constructor
  · intro h
    obtain ⟨parts, hparts, rfl⟩ := Option.map_eq_some_iff.mp h
    obtain ⟨ht, rfl⟩ := mapM_octets?_eq_some hparts
    exact ⟨ht, (List.flatMap_def).symm⟩
  · rintro ⟨ht, rfl⟩
    have hmap : t.mapM octets? = some (t.map octets) := by
      induction t with
      | nil => rfl
      | cons c t ih =>
        simp only [List.any_cons, Bool.or_eq_false_iff] at ht
        rw [List.mapM_cons, octets?, if_neg (Bool.eq_false_iff.mp ht.1), ih ht.2]
        rfl
    rw [encode?, hmap, Option.map_some, ← List.flatMap_def]

/-- **Octets are read strictly** as the text that is written as them, and as no other. -/
theorem decode?_eq_some_iff {t : Text} {bytes : Bytes} :
    decode? bytes = some t ↔ encode? t = some bytes := by
  rw [encode?_eq_some_iff]
  constructor
  · intro h
    have hscan := decode?_eq_some_iff_scan.mp h
    obtain ⟨hproper, hoctets⟩ := scan_sound bytes
    rw [hscan] at hproper hoctets
    refine ⟨?_, ?_⟩
    · rw [List.any_eq_false]
      intro c hc
      exact Bool.eq_false_iff.mp (hproper _ (List.mem_map_of_mem hc))
    · rw [← hoctets, List.flatMap_map]
      rfl
  · rintro ⟨ht, rfl⟩
    exact decode?_eq_some_iff_scan.mpr (scan_flatMap_octets ht)

end UploadGate.Utf8
