/-
  UploadGate/Proofs/Token/Unread.lean
  ===================================
  **The tokens that are neither accepted nor refused.**

  A token that is not accepted is refused for a stated reason, but for two cases:
  an integer has more digits than are read, or an object nests deeper than the
  stack reaches, in the header or, behind a header that names a hash function, in
  the payload.  Then the reading ends in a failure that is no refusal
  (`verify_eq_error`).  No key is needed to make such a token
  (`isUnread_numeralToken`, `isUnread_nestedToken`).
-/
import UploadGate.Proofs.Base64.Encoding
import UploadGate.Proofs.Token.Verification

namespace UploadGate.Token

variable {depth : Nat} {error : Json.ReadError} {token : Text} {failure : Failure}

/-! ### Objects that are not read -/

/-- A segment stands for the UTF-8 octets of a text that is not read as JSON. -/
def EncodesUnread (depth : Nat) (error : Json.ReadError) (segment : Text) : Prop :=
  ∃ bytes t, Base64.IsSegment segment bytes ∧ Utf8.encode? t = some bytes
    ∧ Json.read (limits depth) t = .error error

/-- The first object of a token that cannot be read is no JSON, for some reason. -/
def IsUnread (depth : Nat) (error : Json.ReadError) (token : Text) : Prop :=
  ∃ s : Segments, s.Make token
    ∧ (EncodesUnread depth error s.header
      ∨ (∃ header f, EncodesObject depth s.header header ∧ NamesHash header f)
        ∧ EncodesUnread depth error s.payload)

/-- The tokens whose reading ends in a failure that is no refusal. -/
inductive Overruns (depth : Nat) (token : Text) : ValueFault → Prop
  | tooManyDigits (h : IsUnread depth .integerTooLong token) : Overruns depth token .tooManyDigits
  | nestedTooDeep (h : IsUnread depth .nestedTooDeep token) : Overruns depth token .nestedTooDeep

theorem encodesUnread_iff {segment : Text} :
    EncodesUnread depth error segment ↔ ∃ t, segmentText? segment = some t
      ∧ Json.read (limits depth) t = .error error := by
  simp only [segmentText?_eq_some_iff]
  constructor
  · rintro ⟨bytes, t, hsegment, ht, hjson⟩
    exact ⟨t, ⟨bytes, hsegment, ht⟩, hjson⟩
  · rintro ⟨t, ⟨bytes, hsegment, ht⟩, hjson⟩
    exact ⟨bytes, t, hsegment, ht, hjson⟩

theorem readObject_of_encodesUnread {part : TokenPart} {segment : Text}
    (h : EncodesUnread depth error segment) :
    readObject depth part segment = .error (failureOf part error) := by
  obtain ⟨t, ht, hjson⟩ := encodesUnread_iff.mp h
  simp only [readObject, ht, hjson]

theorem readObject_eq_error {part : TokenPart} {segment : Text}
    (h : readObject depth part segment = .error failure) :
    (∃ e, failure = .upload e)
      ∨ ∃ error, EncodesUnread depth error segment ∧ failure = failureOf part error := by
  unfold readObject at h
  split at h
  · exact Or.inl ⟨_, (Except.error.inj h).symm⟩
  · rename_i t ht
    split at h
    · rename_i error hjson
      exact Or.inr ⟨error, encodesUnread_iff.mpr ⟨t, ht, hjson⟩, (Except.error.inj h).symm⟩
    · split at h
      · cases h
      · exact Or.inl ⟨_, (Except.error.inj h).symm⟩

/-- What ends the reading of a part is a refusal, or the whole token is not read. -/
theorem overruns_of_failureOf {part : TokenPart} (h : IsUnread depth error token)
    (hfailure : failure = failureOf part error) :
    (∃ e, failure = .upload e) ∨ ∃ fault, failure = .value fault ∧ Overruns depth token fault := by
  cases error with
  | malformed => exact Or.inl ⟨_, hfailure⟩
  | integerTooLong => exact Or.inr ⟨_, hfailure, .tooManyDigits h⟩
  | nestedTooDeep => exact Or.inr ⟨_, hfailure, .nestedTooDeep h⟩

/-! ### Tokens that are not read -/

theorem verify_of_isUnread {registry : Registry} {now : Number} (h : IsUnread depth error token)
    (hfailure : ∀ part, failureOf part error = failure) : verify registry depth now token = .error failure := by
  obtain ⟨s, hmake, hobject⟩ := h
  have hne : token ≠ [] := by
    rw [hmake.joined]
    exact List.append_ne_nil_of_right_ne_nil _ (List.cons_ne_nil _ _)
  have hread : ∀ part segment, EncodesUnread depth error segment →
      readObject depth part segment = .error failure :=
    fun part _ hsegment => (readObject_of_encodesUnread hsegment).trans (congrArg _ (hfailure part))
  rw [verify, if_neg (by simpa using hne), verifyPresent, parse_eq_ok_iff.mpr hmake]
  rcases hobject with hheader | ⟨⟨header, f, hheader, halgorithm⟩, hpayload⟩
  · exact bind_eq_error_iff.mpr (Or.inr ⟨s, rfl, bind_eq_error_iff.mpr (Or.inl (hread _ _ hheader))⟩)
  · refine bind_eq_error_iff.mpr (Or.inr ⟨s, rfl, ?_⟩)
    refine bind_eq_error_iff.mpr (Or.inr ⟨header, readObject_eq_ok_iff.mpr hheader, ?_⟩)
    rw [algorithm?_eq_some_iff.mpr halgorithm]
    exact bind_eq_error_iff.mpr (Or.inl (hread _ _ hpayload))

theorem verify_of_overruns {registry : Registry} {now : Number} {fault : ValueFault}
    (h : Overruns depth token fault) : verify registry depth now token = .error (.value fault) := by
  cases h with
  | tooManyDigits h => exact verify_of_isUnread h fun _ => rfl
  | nestedTooDeep h => exact verify_of_isUnread h fun _ => rfl

/-- **A token without a result** is refused, or overruns its reader. -/
theorem verify_eq_error {registry : Registry} {now : Number}
    (h : verify registry depth now token = .error failure) :
    (∃ e, failure = .upload e) ∨ ∃ fault, failure = .value fault ∧ Overruns depth token fault := by
  have hrefused : ∀ {α : Type} {x : Except UploadError α}, x.mapError Failure.upload = .error failure →
      ∃ e, failure = .upload e := by
    intro α x hx
    obtain ⟨e, -, he⟩ := mapError_eq_error_iff.mp hx
    exact ⟨e, he.symm⟩
  unfold verify at h
  split at h
  · cases h
  · rw [verifyPresent, bind_eq_error_iff] at h
    rcases h with h | ⟨s, hs, h⟩
    · exact Or.inl (hrefused h)
    · have hmake := parse_eq_ok_iff.mp (mapError_eq_ok_iff.mp hs)
      rcases bind_eq_error_iff.mp h with h | ⟨header, hheader, h⟩
      · rcases readObject_eq_error h with hupload | ⟨error, hunread, hfailure⟩
        · exact Or.inl hupload
        · exact overruns_of_failureOf ⟨s, hmake, Or.inl hunread⟩ hfailure
      · split at h
        · exact Or.inl ⟨_, (Except.error.inj h).symm⟩
        · rename_i f halgorithm
          have hnamed : ∃ header f, EncodesObject depth s.header header ∧ NamesHash header f :=
            ⟨header, f, readObject_eq_ok_iff.mp hheader, algorithm?_eq_some_iff.mp halgorithm⟩
          rcases bind_eq_error_iff.mp h with h | ⟨payload, -, h⟩
          · rcases readObject_eq_error h with hupload | ⟨error, hunread, hfailure⟩
            · exact Or.inl hupload
            · exact overruns_of_failureOf ⟨s, hmake, Or.inr ⟨hnamed, hunread⟩⟩ hfailure
          · rcases bind_eq_error_iff.mp h with h | ⟨issuer, -, h⟩
            · exact Or.inl (hrefused h)
            · split at h
              · cases h
              · exact Or.inl (hrefused h)

/-! ### Numerals beyond the limit -/

theorem takeDigits_of_forall {t : Text} (h : ∀ c ∈ t, c.isAsciiDigit = true) :
    Json.takeDigits t = (t.map fun c => c.val - 0x30, []) := by
  induction t with
  | nil => rfl
  | cons c t ih =>
    rw [Json.takeDigits, if_pos (h c List.mem_cons_self), ih fun d hd => h d (List.mem_cons_of_mem c hd)]
    rfl

/-- No word starts with a digit. -/
theorem takeWord?_eq_none {c : CodePoint} (hc : c.isAsciiDigit = true) (t : Text) :
    Json.takeWord? (c :: t) = none := by
  have hfirst : ∀ entry ∈ Json.words, entry.1.head?.any (fun a => !a.isAsciiDigit) = true := by decide
  rw [Json.takeWord?, List.findSome?_eq_none_iff]
  rintro ⟨word, j⟩ hentry
  have hword := hfirst _ hentry
  cases word with
  | nil => cases hword
  | cons a front =>
    have hne : a ≠ c := by
      rintro rfl
      simp [hc] at hword
    simp only [Text.dropFront?, if_neg hne, Option.map_none]

/-- A number of more digits than the limit, and of nothing else, is not read. -/
theorem read_numeral {limits : Json.Limits} {limit : Nat} {c : CodePoint} {t : Text}
    (hlimit : limits.digits? = some limit) (hc : 0x31 ≤ c.val ∧ c.val ≤ 0x39)
    (ht : ∀ d ∈ t, d.isAsciiDigit = true) (hlong : limit ≤ t.length) :
    Json.read limits (c :: t) = .error .integerTooLong := by
  have hdigit : c.isAsciiDigit = true := by
    simp only [CodePoint.isAsciiDigit, Bool.and_eq_true, decide_eq_true_eq]
    omega
  have hdigits := takeDigits_of_forall (List.forall_mem_cons.mpr ⟨hdigit, ht⟩)
  have hwhole : Json.takeWhole (c :: t) = some ((c :: t).map fun d => d.val - 0x30, []) := by
    rw [Json.takeWhole, if_neg (by omega), if_pos hdigit, hdigits]
  have hnumber : Json.readNumber limits false (c :: t) = .error .integerTooLong := by
    have hmany : limits.digits?.any (· < ((c :: t).map fun d => d.val - 0x30).length) = true := by
      simp [hlimit]
      omega
    simp only [Json.readNumber, hwhole, Json.takeFraction, Json.takeExponent, hmany, if_true]
  have hvalue : Json.readValue limits (2 * (c :: t).length + 1) (c :: t) = .error .integerTooLong := by
    rw [Json.readValue, if_neg (by omega), if_neg (by omega), if_neg (by omega), Json.readPlain,
      takeWord?_eq_none hdigit]
    simp only
    rw [if_neg (by omega), hnumber]
    rfl
  have hspace : Json.skipSpace (c :: t) = c :: t := by
    rw [Json.skipSpace, List.dropWhile_cons_of_neg]
    simp [Json.isSpace]
    omega
  rw [Json.read, hspace, hvalue]

/-! ### Brackets beyond the stack -/

theorem skipSpace_replicate_bracket (n : Nat) :
    Json.skipSpace (List.replicate n (.ofChar '[')) = List.replicate n (.ofChar '[') := by
  cases n with
  | zero => rfl
  | succ n => rfl

/-- A bracket takes two steps of the reading and one level of the stack. -/
theorem readValue_replicate_bracket {limits : Json.Limits} {fuel n : Nat}
    (hlimit : limits.depth? = some depth) (hdeep : depth < n) (hfuel : 2 * depth < fuel) :
    Json.readValue limits fuel (List.replicate n (.ofChar '[')) = .error .nestedTooDeep := by
  obtain ⟨n, rfl⟩ : ∃ m, n = m + 1 := ⟨n - 1, by omega⟩
  obtain ⟨fuel, rfl⟩ : ∃ k, fuel = k + 1 := ⟨fuel - 1, by omega⟩
  have hbracket : (CodePoint.ofChar '[').val = 0x5B := rfl
  induction depth generalizing limits fuel n with
  | zero =>
    have hinside : limits.inside? = none := by simp only [Json.Limits.inside?, hlimit]
    rw [List.replicate_succ, Json.readValue, hbracket, if_neg (by decide), if_neg (by decide), if_pos rfl]
    simp only [hinside]
  | succ depth ih =>
    obtain ⟨n, rfl⟩ : ∃ m, n = m + 1 := ⟨n - 1, by omega⟩
    obtain ⟨fuel, rfl⟩ : ∃ k, fuel = k + 2 := ⟨fuel - 2, by omega⟩
    obtain ⟨inside, hinside, hlevel⟩ : ∃ inside, limits.inside? = some inside ∧ inside.depth? = some depth :=
      ⟨{ limits with depth? := some depth }, by simp only [Json.Limits.inside?, hlimit], rfl⟩
    have hitems : Json.readItems inside (fuel + 2) (List.replicate (n + 1) (.ofChar '['))
        = .error .nestedTooDeep := by
      rw [Json.readItems, ih hlevel n (by omega) fuel (by omega)]
    rw [List.replicate_succ, Json.readValue, hbracket, if_neg (by decide), if_neg (by decide), if_pos rfl]
    simp only [hinside, skipSpace_replicate_bracket]
    rw [List.replicate_succ] at hitems ⊢
    simp only [hbracket, hitems]
    rfl

/-- More opening brackets than the stack has levels are not read. -/
theorem read_replicate_bracket {limits : Json.Limits} {n : Nat} (hlimit : limits.depth? = some depth)
    (hdeep : depth < n) : Json.read limits (List.replicate n (.ofChar '[')) = .error .nestedTooDeep := by
  rw [Json.read, skipSpace_replicate_bracket, List.length_replicate,
    readValue_replicate_bracket hlimit hdeep (by omega)]

/-! ### Tokens that anyone can make -/

/-- A token whose header is one character in some groups of three, and whose other segments
    are empty. -/
def repeatedToken (b : UInt8) (groups : Nat) : Text :=
  Base64.encodeWith Base64.urlSafe (List.replicate (3 * groups) b) ++ [point, point]

def numeralToken (groups : Nat) : Text := repeatedToken 0x31 groups

def nestedToken (groups : Nat) : Text := repeatedToken 0x5B groups

theorem encode?_replicate {c : CodePoint} {b : UInt8} (hoctets : Utf8.octets c = [b])
    (hc : c.isSurrogate = false) (n : Nat) :
    Utf8.encode? (List.replicate n c) = some (List.replicate n b) := by
  rw [Utf8.encode?_eq_some_iff, List.flatMap_replicate, hoctets, List.flatten_replicate_singleton,
    List.any_eq_false]
  refine ⟨?_, rfl⟩
  intro d hd
  rw [List.eq_of_mem_replicate hd, hc]
  decide

theorem plain_of_mem_encodeWith {bytes : Bytes} {c : CodePoint}
    (h : c ∈ Base64.encodeWith Base64.urlSafe bytes) : c ≠ point ∧ c.isSurrogate = false := by
  have hpoint : ∀ v, Base64.urlSafe.char v ≠ point := by decide
  have hplain : ∀ v, (Base64.urlSafe.char v).isSurrogate = false := by decide
  rcases Base64.mem_encodeWith h with rfl | ⟨v, rfl⟩
  · decide
  · exact ⟨hpoint v, hplain v⟩

theorem any_isSurrogate_repeatedToken (b : UInt8) (groups : Nat) :
    (repeatedToken b groups).any CodePoint.isSurrogate = false := by
  rw [List.any_eq_false]
  intro c hc
  rw [Bool.not_eq_true]
  rcases List.mem_append.mp hc with hc | hc
  · exact (plain_of_mem_encodeWith hc).2
  · have hpoint : c = point := by simpa using hc
    rw [hpoint]
    decide

theorem isUnread_repeatedToken {c : CodePoint} {b : UInt8} {groups : Nat} (hoctets : Utf8.octets c = [b])
    (hc : c.isSurrogate = false)
    (hread : Json.read (limits depth) (List.replicate (3 * groups) c) = .error error) :
    IsUnread depth error (repeatedToken b groups) := by
  have hsegment : Base64.IsSegment (Base64.encodeWith Base64.urlSafe (List.replicate (3 * groups) b))
      (List.replicate (3 * groups) b) := by
    refine ⟨_, Base64.decodeBare_eq_some_iff.mp (Base64.decodeBare_encodeWith Base64.isProper_urlSafe ?_),
      Or.inl rfl⟩
    rw [List.length_replicate, Nat.mul_mod_right]
  exact ⟨⟨_, [], []⟩,
    ⟨rfl, fun hmem => (plain_of_mem_encodeWith hmem).1 rfl, List.not_mem_nil, List.not_mem_nil⟩,
    Or.inl ⟨_, _, hsegment, encode?_replicate hoctets hc _, hread⟩⟩

theorem isUnread_numeralToken {groups : Nat} (h : NumberReader.digitLimit < 3 * groups) :
    IsUnread depth .integerTooLong (numeralToken groups) := by
  obtain ⟨n, hn⟩ : ∃ n, 3 * groups = n + 1 := ⟨3 * groups - 1, by omega⟩
  refine isUnread_repeatedToken (c := .ofChar '1') (by decide) (by decide) ?_
  rw [hn, List.replicate_succ]
  have hdigits : ∀ c ∈ List.replicate n (CodePoint.ofChar '1'), c.isAsciiDigit = true := by
    intro c hc
    rw [List.eq_of_mem_replicate hc]
    decide
  have hlong : NumberReader.digitLimit ≤ (List.replicate n (CodePoint.ofChar '1')).length := by
    rw [List.length_replicate]
    omega
  exact read_numeral rfl (by decide) hdigits hlong

theorem isUnread_nestedToken {groups : Nat} (h : depth < 3 * groups) :
    IsUnread depth .nestedTooDeep (nestedToken groups) :=
  isUnread_repeatedToken (c := .ofChar '[') (by decide) (by decide) (read_replicate_bracket rfl h)

end UploadGate.Token
