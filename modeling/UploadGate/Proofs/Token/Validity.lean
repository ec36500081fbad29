/-
  UploadGate/Proofs/Token/Validity.lean
  =====================================
  **The times at which a token is verified are an interval.**

  The time of the check is compared with the two bounds of the payload and decides
  nothing else: a token comes to the same result at all times, or it is in order but
  for its bounds (`verify_cases`).  Each bound splits the numbers, integers and floating
  point numbers alike, into those before and those behind it, and the end is checked
  first, so a token that has expired stays expired.
-/
import UploadGate.Proofs.Number
import UploadGate.Proofs.Token.Introduction

namespace UploadGate.Token

variable {registry : Registry} {depth : Nat} {token : Text} {t t₁ t₂ t₃ : Number} {v : Verification}

/-! ### Bounds -/

namespace TimeClaims

variable {times : TimeClaims}

theorem check_eq_expired_iff :
    times.check t = .error .tokenExpired ↔ (times.expires?.any fun bound => bound.lt t) = true := by
  unfold check
  split
  · simp_all
  · split <;> simp_all

theorem any_of_any {bound? : Option Number} {p q : Number → Bool} (himp : ∀ bound, p bound = true → q bound = true)
    (h : bound?.any p = true) : bound?.any q = true := by
  cases bound? with
  | none => cases h
  | some bound => exact himp bound h

/-- What has expired stays so. -/
theorem check_expired_of_atMost (ht : t₁.AtMost t₂) (h : times.check t₁ = .error .tokenExpired) :
    times.check t₂ = .error .tokenExpired := by
  rw [check_eq_expired_iff] at h ⊢
  exact any_of_any (fun _ hlt => Number.lt_of_lt_of_atMost hlt ht) h

/-- Between two times that are within the bounds, all are. -/
theorem check_of_between (h₁₂ : t₁.AtMost t₂) (h₂₃ : t₂.AtMost t₃) (h₁ : times.check t₁ = .ok ())
    (h₃ : times.check t₃ = .ok ()) : times.check t₂ = .ok () := by
  rw [check_eq_ok_iff] at h₁ h₃ ⊢
  constructor
  · rw [← Bool.not_eq_true] at h₃ ⊢
    exact fun hexpired => h₃.1 (any_of_any (fun _ hlt => Number.lt_of_lt_of_atMost hlt h₂₃) hexpired)
  · have hstarted := h₁.2
    rw [← Bool.not_eq_true] at hstarted ⊢
    exact fun hpremature => hstarted (any_of_any (fun _ hlt => Number.lt_of_atMost_of_lt h₁₂ hlt) hpremature)

/-- What becomes of a token that is in order but for its times. -/
def verdict (times : TimeClaims) (v : Verification) (t : Number) : Except Failure Verification :=
  ((times.check t).map fun _ => v).mapError Failure.upload

theorem verdict_eq_ok_iff {w : Verification} : times.verdict v t = .ok w ↔ times.check t = .ok () ∧ v = w := by
  rw [verdict, mapError_eq_ok_iff, map_eq_ok_iff]
  constructor
  · rintro ⟨⟨⟩, hcheck, hv⟩
    exact ⟨hcheck, hv⟩
  · rintro ⟨hcheck, hv⟩
    exact ⟨(), hcheck, hv⟩

theorem verdict_eq_expired_iff :
    times.verdict v t = .error (.upload .tokenExpired) ↔ times.check t = .error .tokenExpired := by
  rw [verdict, mapError_eq_error_iff]
  simp only [map_eq_error_iff, Failure.upload.injEq, exists_eq_right]

end TimeClaims

/-! ### Tokens -/

/-- The results between which only the time decides: a token is verified, has expired or is not
    valid yet. -/
inductive IsTimed (issuer : Text) (account? : Option Text) : Except Failure Verification → Prop
  | verified : IsTimed issuer account? (.ok (.verified issuer account?))
  | expired : IsTimed issuer account? (.error (.upload .tokenExpired))
  | premature : IsTimed issuer account? (.error (.upload .tokenPremature))

theorem isTimed_verdict (times : TimeClaims) (issuer : Text) (account? : Option Text) (t : Number) :
    IsTimed issuer account? (times.verdict (.verified issuer account?) t) := by
  unfold TimeClaims.verdict TimeClaims.check
  split
  · exact .expired
  · split
    · exact .premature
    · exact .verified

theorem verifySigned_eq_verdict {s : Segments} {f : HashFunction} {payload : Claims} {issuer : Text} {key : Bytes}
    {times : TimeClaims} (hsigned : isSignedBy s f key = true) (hread : TimeClaims.read payload = .ok times)
    (t : Number) :
    (verifySigned s f payload issuer key t).mapError Failure.upload
      = times.verdict (.verified issuer ((payload.get? (Text.of "account")).bind Json.text?)) t := by
  rw [verifySigned, hsigned, hread, TimeClaims.verdict]
  change ((times.check t) >>= fun _ => Except.ok _).mapError Failure.upload = _
  cases times.check t <;> rfl

theorem Introduction.judge_cases (i : Introduction) (key? : Option Bytes) :
    (∃ outcome, ∀ t, i.judge t key? = outcome)
      ∨ ∃ (times : TimeClaims) (account? : Option Text),
        ∀ t, i.judge t key? = times.verdict (.verified i.issuer account?) t := by
  cases key? with
  | none => exact Or.inl ⟨_, fun _ => rfl⟩
  | some key =>
    cases hsigned : isSignedBy i.segments i.hash key with
    | false =>
      refine Or.inl ⟨.error (.upload (.signature i.issuer)), fun t => ?_⟩
      rw [judge, verifySigned, hsigned]
      rfl
    | true =>
      cases hread : TimeClaims.read i.payload with
      | error e =>
        refine Or.inl ⟨.error (.upload e), fun t => ?_⟩
        rw [judge, verifySigned, hsigned, hread]
        rfl
      | ok times => exact Or.inr ⟨times, _, fun t => verifySigned_eq_verdict hsigned hread t⟩

/-- **The time decides nothing about a token, or nothing but whether it is within its bounds.** -/
theorem verify_cases (registry : Registry) (depth : Nat) (token : Text) :
    (∃ outcome, ∀ t, verify registry depth t token = outcome)
      ∨ ∃ (times : TimeClaims) (issuer : Text) (account? : Option Text),
        ∀ t, verify registry depth t token = times.verdict (.verified issuer account?) t := by
  by_cases hne : token = []
  · rw [hne]
    exact Or.inl ⟨_, fun _ => rfl⟩
  · cases hread : introduction depth token with
    | error failure => exact Or.inl ⟨_, fun t => verify_of_introduction_error hne hread⟩
    | ok i =>
      rcases i.judge_cases (OrderedMap.get? registry i.issuer) with ⟨outcome, hsame⟩ | ⟨times, account?, htimed⟩
      · exact Or.inl ⟨outcome, fun t => (verify_of_introduction hne hread).trans (hsame t)⟩
      · exact Or.inr ⟨times, i.issuer, account?, fun t => (verify_of_introduction hne hread).trans (htimed t)⟩

/-- **The validity of a token is an interval of time.**  Times are numbers of either kind, compared
    exactly.  A token that is verified at two times is verified at every time between them,
    with the same issuer and account.  At any two times it comes to the same result, or
    to two of three: it is verified, with the same issuer and account, has expired, or is not
    valid yet.  And once it has expired, it has at every later time. -/
theorem valid_in_interval (registry : Registry) (depth : Nat) (token : Text) :
    (∀ t₁ t₂ t₃ issuer account? issuer' account?', t₁.AtMost t₂ → t₂.AtMost t₃ →
      verify registry depth t₁ token = .ok (.verified issuer account?) →
      verify registry depth t₃ token = .ok (.verified issuer' account?') →
      verify registry depth t₂ token = .ok (.verified issuer account?) ∧ issuer' = issuer ∧ account?' = account?)
    ∧ (∀ t t', verify registry depth t token = verify registry depth t' token
      ∨ ∃ issuer account?, IsTimed issuer account? (verify registry depth t token)
        ∧ IsTimed issuer account? (verify registry depth t' token))
    ∧ ∀ t t', t.AtMost t' → verify registry depth t token = .error (.upload .tokenExpired) →
      verify registry depth t' token = .error (.upload .tokenExpired) := by
  rcases verify_cases registry depth token with ⟨outcome, hsame⟩ | ⟨times, issuer, account?, htimed⟩
  · simp only [hsame]
    refine ⟨?_, fun _ _ => Or.inl trivial, fun _ _ _ h => h⟩
    intro t₁ t₂ t₃ issuer account? issuer' account?' _ _ h₁ h₃
    cases h₁.symm.trans h₃
    exact ⟨h₁, rfl, rfl⟩
  · simp only [htimed]
    refine ⟨?_, ?_, ?_⟩
    · intro t₁ t₂ t₃ issuer₁ account₁? issuer₃ account₃? h₁₂ h₂₃ h₁ h₃
      obtain ⟨hcheck₁, hv₁⟩ := TimeClaims.verdict_eq_ok_iff.mp h₁
      obtain ⟨hcheck₃, hv₃⟩ := TimeClaims.verdict_eq_ok_iff.mp h₃
      obtain ⟨rfl, rfl⟩ := Verification.verified.inj hv₁
      obtain ⟨rfl, rfl⟩ := Verification.verified.inj hv₃
      have hcheck₂ := TimeClaims.check_of_between h₁₂ h₂₃ hcheck₁ hcheck₃
      exact ⟨TimeClaims.verdict_eq_ok_iff.mpr ⟨hcheck₂, rfl⟩, rfl, rfl⟩
    · intro t t'
      exact Or.inr ⟨issuer, account?, isTimed_verdict times issuer account? t, isTimed_verdict times issuer account? t'⟩
    · intro t t' ht hexpired
      rw [TimeClaims.verdict_eq_expired_iff] at hexpired ⊢
      exact TimeClaims.check_expired_of_atMost ht hexpired

/-- A token of the issuer `i`, signed with the key `k`, that is valid from the second 5 to the
    second 7. -/
def boundedToken : Text :=
  Text.of "eyJhbGciOiJIUzI1NiJ9.eyJpc3MiOiJpIiwiZXhwIjo3LCJuYmYiOjV9"
    ++ Text.of ".ggn_QQymL5iJTz1Leqst4SPOJy3HN60u4INeGCmWDfU"

/-- It is verified at the ends of its interval, so also at 6.5, a floating point number; it has
    expired at 8, so also at infinity. -/
theorem valid_in_interval_boundedToken :
    verify [(Text.of "i", [107])] 900 (.real (.finite false 7318349394477056 (-50))) boundedToken
        = .ok (.verified (Text.of "i") none)
      ∧ verify [(Text.of "i", [107])] 900 (.real (.infinite false)) boundedToken = .error (.upload .tokenExpired) := by
  obtain ⟨hbetween, -, hlater⟩ := valid_in_interval [(Text.of "i", [107])] 900 boundedToken
  have hatMost : ∀ a b : Number, b.lt a = false → a ≠ .real .nan → b ≠ .real .nan → a.AtMost b :=
    fun a b h ha hb => (Number.atMost_iff_of_lt_eq_false h).mpr ⟨ha, hb⟩
  constructor
  · have hends : ∀ n ∈ [5, 7], verify [(Text.of "i", [107])] 900 (.integer n) boundedToken
        = .ok (.verified (Text.of "i") none) := by decide +kernel
    exact (hbetween (.integer 5) _ (.integer 7) _ _ _ _
      (hatMost _ _ (by decide +kernel) (by decide) (by decide))
      (hatMost _ _ (by decide +kernel) (by decide) (by decide)) (hends 5 (by decide)) (hends 7 (by decide))).1
  · exact hlater (.integer 8) _ (hatMost _ _ (by decide) (by decide) (by decide)) (by decide +kernel)

end UploadGate.Token
