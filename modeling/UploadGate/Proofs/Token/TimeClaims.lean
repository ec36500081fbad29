/-
  UploadGate/Proofs/Token/TimeClaims.lean
  =======================================
  **Between which times a token is verified.**

  A verified token whose payload names a time after which it has expired, or one
  before which it is not valid, names a number there.  The number bounds the time
  of the check, however large or small it is and whichever kind of number both
  are; but a NaN is no bound, and a token that names one is verified at any time.
-/
import UploadGate.Proofs.Number
import UploadGate.Proofs.Token.Verification

namespace UploadGate.Token

variable {registry : Registry} {depth : Nat} {now : Number} {token issuer : Text} {account? : Option Text}
  {payload : Claims}

/-- A payload whose times are read has no member name with a surrogate. -/
theorem TimeClaims.any_isSurrogate_of_read {times : TimeClaims} (h : TimeClaims.read payload = .ok times) :
    ∀ name ∈ OrderedMap.keys payload, name.any CodePoint.isSurrogate = false := by
  intro name hname
  cases hsurrogate : name.any CodePoint.isSurrogate with
  | false => rfl
  | true =>
    have hany : ((OrderedMap.keys payload).any fun name => name.any CodePoint.isSurrogate) = true :=
      List.any_eq_true.mpr ⟨name, hname, hsurrogate⟩
    simp [TimeClaims.read, TimeClaims.faultCount, hany] at h

theorem read_of_verifySigned {s : Segments} {f : HashFunction} {key : Bytes} {v : Verification}
    (h : verifySigned s f payload issuer key now = .ok v) :
    ∃ times, TimeClaims.read payload = .ok times := by
  unfold verifySigned at h
  split at h
  · cases h
  · obtain ⟨times, hread, -⟩ := bind_eq_ok_iff.mp h
    exact ⟨times, hread⟩

/-- **The times of a verified token permit the time of the check.** -/
theorem permits_of_verified (h : verify registry depth now token = .ok (.verified issuer account?)) :
    ∃ s payload, Segments.Make s token ∧ EncodesObject depth s.payload payload
      ∧ Permits (fun bound => bound.lt now = false) (OrderedMap.get? payload (Text.of "exp"))
      ∧ Permits (fun bound => now.lt bound = false) (OrderedMap.get? payload (Text.of "nbf")) := by
  unfold verify at h
  split at h
  · cases h
  · obtain ⟨s, f, payload, named, hintro, hchecked⟩ := verifyPresent_eq_ok_iff.mp h
    rcases hchecked with ⟨-, hdegraded⟩ | ⟨key, -, hsigned⟩
    · cases hdegraded
    · obtain ⟨times, hread⟩ := read_of_verifySigned hsigned
      have hnames := TimeClaims.any_isSurrogate_of_read hread
      obtain ⟨-, hexp, hnbf, -⟩ := (verifySigned_eq_ok_iff hnames).mp hsigned
      exact ⟨s, payload, hintro.make, hintro.object, hexp, hnbf⟩

/-- What a member that is there and not null permits is a number. -/
theorem exists_bound_of_permits {permits : Number → Prop} {member? : Option Json}
    (h : Permits permits member?) {j : Json} (hj : member? = some j) (hnull : j ≠ .null) :
    ∃ bound, j = .number bound ∧ permits bound := by
  rcases h with hnone | hnothing | ⟨bound, hbound, hpermits⟩
  · rw [hj] at hnone
    cases hnone
  · rw [hj] at hnothing
    exact absurd (Option.some.inj hnothing) hnull
  · rw [hj] at hbound
    exact ⟨bound, Option.some.inj hbound, hpermits⟩

/-- **When a token is verified.**  The time after which a verified token has expired, if its
    payload names one, is a number, and the time of the check is at most that number just when
    neither is NaN; and in the same way the time before which it is not valid is at most the
    time of the check. -/
theorem times_of_verified (h : verify registry depth now token = .ok (.verified issuer account?)) :
    ∃ s payload, Segments.Make s token ∧ EncodesObject depth s.payload payload
      ∧ (∀ j, OrderedMap.get? payload (Text.of "exp") = some j → j ≠ .null →
        ∃ bound, j = .number bound
          ∧ (now.AtMost bound ↔ now ≠ .real .nan ∧ bound ≠ .real .nan))
      ∧ ∀ j, OrderedMap.get? payload (Text.of "nbf") = some j → j ≠ .null →
        ∃ bound, j = .number bound
          ∧ (bound.AtMost now ↔ bound ≠ .real .nan ∧ now ≠ .real .nan) := by
  obtain ⟨s, payload, hmake, hobject, hexp, hnbf⟩ := permits_of_verified h
  refine ⟨s, payload, hmake, hobject, ?_, ?_⟩
  · intro j hj hnull
    obtain ⟨bound, hbound, hpermits⟩ := exists_bound_of_permits hexp hj hnull
    exact ⟨bound, hbound, Number.atMost_iff_of_lt_eq_false hpermits⟩
  · intro j hj hnull
    obtain ⟨bound, hbound, hpermits⟩ := exists_bound_of_permits hnbf hj hnull
    exact ⟨bound, hbound, Number.atMost_iff_of_lt_eq_false hpermits⟩

/-- A token of the issuer `i`, signed with the key `k`, whose payload says that it expires at
    NaN and is valid from the second 5 on. -/
def unboundedToken : Text :=
  Text.of "eyJhbGciOiJIUzI1NiJ9.eyJpc3MiOiJpIiwiZXhwIjpOYU4sIm5iZiI6NX0"
    ++ Text.of ".TKVs-cZLkHtSOxk1T-EPrPbfyILj1ooia2rZ39q3gbI"

theorem verify_unboundedToken :
    verify [(Text.of "i", [107])] 900 (.integer 5) unboundedToken = .ok (.verified (Text.of "i") none) :=
  toOption_eq_some_iff.mp (by decide +kernel)

/-- The payload of the token, by its two times. -/
theorem times_unboundedToken {s : Segments} (hmake : s.Make unboundedToken)
    (hobject : EncodesObject 900 s.payload payload) :
    (OrderedMap.get? payload (Text.of "exp")).bind Json.number? = some (.real .nan)
      ∧ (OrderedMap.get? payload (Text.of "nbf")).bind Json.number? = some (.integer 5) := by
  have hrun : ((Segments.parse unboundedToken).toOption.bind fun s =>
      (readObject 900 .payload s.payload).toOption).map
        (fun payload => ((OrderedMap.get? payload (Text.of "exp")).bind Json.number?,
          (OrderedMap.get? payload (Text.of "nbf")).bind Json.number?))
      = some (some (.real .nan), some (.integer 5)) := by decide +kernel
  rw [parse_eq_ok_iff.mpr hmake] at hrun
  simp only [Except.toOption, Option.bind_some, readObject_eq_ok_iff.mpr hobject, Option.map_some,
    Option.some.injEq, Prod.mk.injEq] at hrun
  exact hrun

theorem number?_eq_some_iff {j : Json} {n : Number} : j.number? = some n ↔ j = .number n := by
  cases j <;> simp [Json.number?]

theorem times_of_verified_unboundedToken :
    verify [(Text.of "i", [107])] 900 (.integer 5) unboundedToken = .ok (.verified (Text.of "i") none)
      ∧ ∃ s payload, Segments.Make s unboundedToken ∧ EncodesObject 900 s.payload payload
        ∧ ∃ bound, OrderedMap.get? payload (Text.of "nbf") = some (.number bound)
          ∧ bound.AtMost (.integer 5) := by
  refine ⟨verify_unboundedToken, ?_⟩
  obtain ⟨s, payload, hmake, hobject, -, hnbf⟩ := times_of_verified verify_unboundedToken
  obtain ⟨-, hfive⟩ := times_unboundedToken hmake hobject
  obtain ⟨j, hj, hnumber⟩ := Option.bind_eq_some_iff.mp hfive
  obtain rfl := number?_eq_some_iff.mp hnumber
  obtain ⟨bound, hbound, hiff⟩ := hnbf _ hj (by simp)
  obtain rfl := Json.number.inj hbound
  exact ⟨s, payload, hmake, hobject, _, hj, hiff.mpr ⟨by simp, by simp⟩⟩

/-- **A token may be verified outside its times**: one that names NaN as the time after which
    it has expired is verified, and no time is at most NaN. -/
theorem exists_verified_unbounded :
    ¬ ∀ (registry : Registry) (depth : Nat) (now : Number) (token issuer : Text) (account? : Option Text)
        (s : Segments) (payload : Claims) (j : Json),
      (∃ q, now.place? = some (.at q)) →
      verify registry depth now token = .ok (.verified issuer account?) →
      s.Make token → EncodesObject depth s.payload payload →
      OrderedMap.get? payload (Text.of "exp") = some j → j ≠ .null →
      ∃ bound, j = .number bound ∧ now.AtMost bound := by
  intro h
  obtain ⟨s, payload, hmake, hobject, -⟩ := times_of_verified verify_unboundedToken
  obtain ⟨hnan, -⟩ := times_unboundedToken hmake hobject
  obtain ⟨j, hj, hnumber⟩ := Option.bind_eq_some_iff.mp hnan
  obtain rfl := number?_eq_some_iff.mp hnumber
  obtain ⟨bound, hbound, hbounded⟩ :=
    h _ _ _ _ _ _ s payload _ ⟨_, rfl⟩ verify_unboundedToken hmake hobject hj (by simp)
  obtain rfl := Json.number.inj hbound
  exact hbounded.ne_nan.2 rfl

end UploadGate.Token
