/-
  UploadGate/Proofs/Json/Quoting.lean
  ===================================
  **A text that is quoted in JSON is read back as it was.**

  Every code point is written as itself or as one of two kinds of escape, and
  reading takes each of the three back in one step.  So any text survives, lone
  surrogates and control characters included, and with it an object that holds
  one text.
-/
import UploadGate.Json.Reader
import UploadGate.Json.Writer
import UploadGate.Proofs.Text.Surrogates

namespace UploadGate.Json

variable {limits inside : Limits} {fuel : Nat} {c e : CodePoint} {t rest tail : Text}

/-! ### One code point -/

theorem hex4?_append {n : Nat} (h : hex4? t = some (n, rest)) (tail : Text) :
    hex4? (t ++ tail) = some (n, rest ++ tail) := by
  match t with
  | [] => cases h
  | [_] => cases h
  | [_, _] => cases h
  | [_, _, _] => cases h
  | a :: b :: c :: d :: more =>
    simp only [hex4?, Option.bind_eq_bind, Option.bind_eq_some_iff, Option.some.injEq, Prod.mk.injEq] at h
    obtain ⟨w, hw, x, hx, y, hy, z, hz, rfl, rfl⟩ := h
    simp [hex4?, hw, hx, hy, hz]

theorem hex4?_ofHexWidth : ∀ n < 0x20, hex4? (Text.ofHexWidth 4 n) = some (n, []) := by
  decide +kernel

/-- A code point is written as an escape by a letter, as an escape by its number, or as
    itself. -/
theorem escapedPoint_cases (c : CodePoint) :
    (∃ e, escapedPoint c = [.ofChar '\\', e] ∧ e.val ≠ 0x75 ∧ simpleEscape? e = some c)
      ∨ (c.val < 0x20 ∧ escapedPoint c = Text.of "\\u" ++ Text.ofHexWidth 4 c.val)
      ∨ (escapedPoint c = [c] ∧ c.val ≠ 0x22 ∧ c.val ≠ 0x5C ∧ ¬ c.val < 0x20) := by
  have hletter : ∀ {e : CodePoint} {d : CodePoint}, c.val = d.val → simpleEscape? e = some d →
      simpleEscape? e = some c := fun hval hescape => by rw [hescape, Fin.ext hval]
  unfold escapedPoint
  split
  · rename_i h
    exact Or.inl ⟨.ofChar '"', rfl, by decide, hletter h rfl⟩
  · rename_i h
    exact Or.inl ⟨.ofChar '\\', rfl, by decide, hletter h rfl⟩
  · rename_i h
    exact Or.inl ⟨.ofChar 'b', rfl, by decide, hletter h rfl⟩
  · rename_i h
    exact Or.inl ⟨.ofChar 'f', rfl, by decide, hletter h rfl⟩
  · rename_i h
    exact Or.inl ⟨.ofChar 'n', rfl, by decide, hletter h rfl⟩
  · rename_i h
    exact Or.inl ⟨.ofChar 'r', rfl, by decide, hletter h rfl⟩
  · rename_i h
    exact Or.inl ⟨.ofChar 't', rfl, by decide, hletter h rfl⟩
  · rename_i hquote hescape _ _ _ _ _
    by_cases hcontrol : c.val < 0x20
    · rw [if_pos hcontrol]
      exact Or.inr (Or.inl ⟨hcontrol, rfl⟩)
    · rw [if_neg hcontrol]
      exact Or.inr (Or.inr ⟨rfl, hquote, hescape, hcontrol⟩)

theorem unicodeEscape?_ofHexWidth (h : c.val < 0x20) (tail : Text) :
    unicodeEscape? (Text.ofHexWidth 4 c.val ++ tail) = some (c, tail) := by
  have hhex := hex4?_append (hex4?_ofHexWidth c.val h) tail
  have hlow : ¬ (decide (0xD800 ≤ c.val) && decide (c.val < 0xDC00)) = true := by
    rw [Bool.and_eq_true, decide_eq_true_eq]
    omega
  have hpoint : Fin.ofNat 0x110000 c.val = c := Fin.ext (Nat.mod_eq_of_lt c.isLt)
  unfold unicodeEscape?
  simp only [hhex]
  rw [if_neg hlow, hpoint]
  rfl

/-- An escape is read in one step, whatever its kind. -/
theorem readText_escape {more : Text}
    (hescape : (if e.val = 0x75 then unicodeEscape? more else (simpleEscape? e).map (·, more)) = some (c, tail))
    (h : readText fuel tail = .ok (t, rest)) :
    readText (fuel + 1) (.ofChar '\\' :: e :: more) = .ok (c :: t, rest) := by
  rw [readText.eq_def]
  simp only [hescape, h]
  rfl

/-- What follows a code point that is written is read one step later. -/
theorem readText_escapedPoint (c : CodePoint) (h : readText fuel tail = .ok (t, rest)) :
    readText (fuel + 1) (escapedPoint c ++ tail) = .ok (c :: t, rest) := by
  rcases escapedPoint_cases c with ⟨e, hwritten, hnumber, hletter⟩ | ⟨hcontrol, hwritten⟩
    | ⟨hwritten, hquote, hbackslash, hcontrol⟩
  · rw [hwritten]
    change readText (fuel + 1) (.ofChar '\\' :: e :: tail) = _
    apply readText_escape _ h
    rw [if_neg hnumber, hletter]
    rfl
  · rw [hwritten]
    change readText (fuel + 1) (.ofChar '\\' :: .ofChar 'u' :: (Text.ofHexWidth 4 c.val ++ tail)) = _
    apply readText_escape _ h
    rw [if_pos (show (CodePoint.ofChar 'u').val = 0x75 from rfl)]
    exact unicodeEscape?_ofHexWidth hcontrol tail
  · rw [hwritten]
    change readText (fuel + 1) (c :: tail) = _
    rw [readText.eq_def]
    simp only [hquote, hbackslash, hcontrol, if_false, h]

/-! ### Texts -/

/-- **What is quoted is read back**, up to its closing quote. -/
theorem readText_flatMap (t rest : Text) (h : t.length < fuel) :
    readText fuel (t.flatMap escapedPoint ++ .ofChar '"' :: rest) = .ok (t, rest) := by
  induction t generalizing fuel with
  | nil =>
    obtain ⟨fuel, rfl⟩ : ∃ n, fuel = n + 1 := ⟨fuel - 1, by omega⟩
    rfl
  | cons c t ih =>
    obtain ⟨fuel, rfl⟩ : ∃ n, fuel = n + 1 := ⟨fuel - 1, by omega⟩
    rw [List.flatMap_cons, List.append_assoc]
    exact readText_escapedPoint c (ih (Nat.lt_of_succ_lt_succ h))

def unopened (t : Text) : Text := t.flatMap escapedPoint ++ [.ofChar '"']

theorem quote_eq (t : Text) : quote t = .ofChar '"' :: unopened t := rfl

theorem length_le_flatMap_escapedPoint (t : Text) : t.length ≤ (t.flatMap escapedPoint).length := by
  induction t with
  | nil => exact Nat.le_refl _
  | cons c t ih =>
    have hpoint : 0 < (escapedPoint c).length := by
      rcases escapedPoint_cases c with ⟨e, hwritten, -⟩ | ⟨-, hwritten⟩ | ⟨hwritten, -⟩
      · simp [hwritten]
      · simp [hwritten, Text.of]
      · simp [hwritten]
    rw [List.flatMap_cons, List.length_append, List.length_cons]
    omega

/-- The text that is left bounds the steps of its reading. -/
theorem readText_unopened (t rest : Text) :
    readText ((unopened t ++ rest).length + 1) (unopened t ++ rest) = .ok (t, rest) := by
  have hlength : t.length ≤ (unopened t ++ rest).length := by
    have hpoints := length_le_flatMap_escapedPoint t
    unfold unopened
    simp only [List.length_append]
    omega
  have hread := readText_flatMap t rest (Nat.lt_succ_of_le hlength)
  unfold unopened at hread ⊢
  rw [List.append_assoc] at hread ⊢
  exact hread

theorem readValue_quote (limits : Limits) (fuel : Nat) (t rest : Text) :
    readValue limits (fuel + 1) (quote t ++ rest) = .ok (.text t, rest) := by
  rw [quote_eq, List.cons_append, readValue.eq_def]
  simp only [show (CodePoint.ofChar '"').val = 0x22 from rfl, if_true, readText_unopened]
  rfl

/-! ### Objects with one text -/

/-- A name, a text and the brace behind them. -/
def unopenedObject (name t : Text) : Text :=
  quote name ++ .ofChar ':' :: (quote t ++ [.ofChar '\x7d'])

theorem write_object (name t : Text) :
    write (.object [(name, .text t)]) = .ofChar '\x7b' :: unopenedObject name t := by
  simp [write, writeMembers, Text.join, unopenedObject]

theorem readMembers_unopenedObject (limits : Limits) (fuel : Nat) (name t : Text) :
    readMembers limits (fuel + 2) [] (unopenedObject name t) = .ok ([(name, .text t)], []) := by
  have hcolon : skipSpace (.ofChar ':' :: (quote t ++ [.ofChar '\x7d']))
      = .ofChar ':' :: (quote t ++ [.ofChar '\x7d']) := rfl
  have hquote : skipSpace (quote t ++ [.ofChar '\x7d']) = quote t ++ [.ofChar '\x7d'] := rfl
  unfold unopenedObject
  rw [quote_eq name, List.cons_append, readMembers.eq_def]
  simp only [show (CodePoint.ofChar '"').val = 0x22 from rfl, readText_unopened, hcolon, hquote,
    readValue_quote]
  rfl

theorem readValue_unopenedObject (hinside : limits.inside? = some inside) (fuel : Nat) (name t : Text) :
    readValue limits (fuel + 3) (.ofChar '\x7b' :: unopenedObject name t)
      = .ok (.object [(name, .text t)], []) := by
  have hmembers := readMembers_unopenedObject inside fuel name t
  have hspace : skipSpace (unopenedObject name t) = unopenedObject name t := rfl
  obtain ⟨rest, hopened⟩ : ∃ rest, unopenedObject name t = .ofChar '"' :: rest := ⟨_, rfl⟩
  rw [hopened] at hmembers hspace ⊢
  rw [readValue.eq_def]
  simp only [show (CodePoint.ofChar '\x7b').val = 0x7B from rfl, hinside, hspace, hmembers]
  rfl

/-- **An object with one text** is read back from its compact form, one level deep. -/
theorem read_write_object (hinside : limits.inside? = some inside) (name t : Text) :
    read limits (write (.object [(name, .text t)])) = .ok (.object [(name, .text t)]) := by
  have hspace : skipSpace (.ofChar '\x7b' :: unopenedObject name t)
      = .ofChar '\x7b' :: unopenedObject name t := rfl
  have hfuel : 2 * (unopenedObject name t).length + 3 = 2 * ((unopenedObject name t).length + 1) + 1 := by
    omega
  have hvalue := readValue_unopenedObject hinside (2 * (unopenedObject name t).length) name t
  rw [hfuel] at hvalue
  unfold read
  rw [write_object, hspace, List.length_cons, hvalue]
  rfl

/-! ### Surrogates -/

theorem val_lt_of_simpleEscape? (h : simpleEscape? e = some c) : e.val < 0x80 ∧ c.val < 0x80 := by
  unfold simpleEscape? at h
  split at h
  all_goals cases h
  all_goals
    constructor
    · omega
    · decide

theorem any_isSurrogate_escapedPoint (c : CodePoint) :
    (escapedPoint c).any CodePoint.isSurrogate = c.isSurrogate := by
  rcases escapedPoint_cases c with ⟨e, hwritten, -, hescape⟩ | ⟨hcontrol, hwritten⟩ | ⟨hwritten, -⟩
  · obtain ⟨he, hc⟩ := val_lt_of_simpleEscape? hescape
    rw [hwritten, CodePoint.isSurrogate_of_lt hc]
    simp [CodePoint.isSurrogate_of_lt he, CodePoint.isSurrogate_ofChar]
  · have hc : c.val < 0x80 := by omega
    rw [hwritten, CodePoint.isSurrogate_of_lt hc]
    simp
  · simp [hwritten]

/-- Quoting neither hides a surrogate nor adds one. -/
theorem any_isSurrogate_quote (t : Text) :
    (quote t).any CodePoint.isSurrogate = t.any CodePoint.isSurrogate := by
  have hinside : List.any (t.flatMap escapedPoint) CodePoint.isSurrogate = t.any CodePoint.isSurrogate := by
    rw [List.any_flatMap]
    simp only [any_isSurrogate_escapedPoint]
  simp [quote, hinside, CodePoint.isSurrogate_ofChar]

theorem any_isSurrogate_write_object (name t : Text) :
    (write (.object [(name, .text t)])).any CodePoint.isSurrogate
      = (name.any CodePoint.isSurrogate || t.any CodePoint.isSurrogate) := by
  simp [write_object, unopenedObject, any_isSurrogate_quote, CodePoint.isSurrogate_ofChar]

end UploadGate.Json
