/-
  UploadGate/Proofs/Token/Introduction.lean
  =========================================
  **A token is judged by the key of its own issuer alone.**

  What a token says of itself is read without any key (`introduction`).  The key of the
  issuer that it names is the only one that is looked up, and only once the algorithm,
  the payload and the issuer are known (`verifyPresent_eq_judge`).  So registries that
  agree on this issuer agree on the token, and a token that names no issuer in this way is
  refused by all of them for the same reason.
-/
import UploadGate.Proofs.Token.Verification

namespace UploadGate.Token

variable {registry registry' : Registry} {depth : Nat} {now : Number} {token issuer : Text}

/-! ### What a token says of itself -/

/-- A token as far as it can be read without a key. -/
structure Introduction where
  segments : Segments
  hash : HashFunction
  payload : Claims
  issuer : Text

/-- Reads a token that is not empty up to the issuer that it names. -/
def introduction (depth : Nat) (token : Text) : Except Failure Introduction := do
  let segments ← (Segments.parse token).mapError Failure.upload
  let header ← readObject depth .header segments.header
  match algorithm? header with
  | none => .error (.upload (.signingMethod (shownAlgorithm header)))
  | some hash =>
    let payload ← readObject depth .payload segments.payload
    let issuer ← (issuerOf payload).mapError Failure.upload
    .ok ⟨segments, hash, payload, issuer⟩

def Introduction.judge (i : Introduction) (now : Number) (key? : Option Bytes) : Except Failure Verification :=
  match key? with
  | none => .ok (.degraded i.issuer)
  | some key => (verifySigned i.segments i.hash i.payload i.issuer key now).mapError Failure.upload

/-- A token names an issuer, behind a header that names a hash function. -/
def IsIssuerOf (depth : Nat) (token issuer : Text) : Prop := ∃ s f payload, Introduces depth token s f payload issuer

/-- **A token is read up to its issuer, and then judged by the key of that issuer.** -/
theorem verifyPresent_eq_judge (registry : Registry) (depth : Nat) (now : Number) (token : Text) :
    verifyPresent registry depth now token
      = introduction depth token >>= fun i => i.judge now (OrderedMap.get? registry i.issuer) := by
  unfold verifyPresent introduction
  simp only [bind_assoc]
  refine bind_congr fun s => bind_congr fun header => ?_
  cases algorithm? header with
  | none => rfl
  | some f =>
    simp only [bind_assoc]
    rfl

theorem verify_of_introduction {i : Introduction} (hne : token ≠ []) (h : introduction depth token = .ok i) :
    verify registry depth now token = i.judge now (OrderedMap.get? registry i.issuer) := by
  rw [verify, if_neg (by simpa using hne), verifyPresent_eq_judge, h]
  rfl

theorem verify_of_introduction_error {failure : Failure} (hne : token ≠ [])
    (h : introduction depth token = .error failure) : verify registry depth now token = .error failure := by
  rw [verify, if_neg (by simpa using hne), verifyPresent_eq_judge, h]
  rfl

theorem isIssuerOf_iff : IsIssuerOf depth token issuer ↔ ∃ i, introduction depth token = .ok i ∧ i.issuer = issuer := by
  -- where nothing is configured, a token is let through just when it names an issuer
  have hdegraded : verifyPresent [] depth (.integer 0) token = .ok (.degraded issuer) ↔ IsIssuerOf depth token issuer := by
    rw [verifyPresent_eq_ok_iff]
    constructor
    · rintro ⟨s, f, payload, named, hintroduces, ⟨-, hv⟩ | ⟨key, hkey, -⟩⟩
      · obtain rfl := Verification.degraded.inj hv
        exact ⟨s, f, payload, hintroduces⟩
      · cases hkey
    · rintro ⟨s, f, payload, hintroduces⟩
      exact ⟨s, f, payload, issuer, hintroduces, Or.inl ⟨List.not_mem_nil, rfl⟩⟩
  rw [← hdegraded, verifyPresent_eq_judge, bind_eq_ok_iff]
  refine exists_congr fun i => and_congr_right fun _ => ?_
  change Except.ok (Verification.degraded i.issuer) = .ok (.degraded issuer) ↔ _
  rw [Except.ok.injEq, Verification.degraded.injEq]

/-! ### Registries -/

/-- Registries that agree on the issuer of a token agree on the token. -/
theorem verify_congr (h : ∀ issuer, IsIssuerOf depth token issuer →
    OrderedMap.get? registry issuer = OrderedMap.get? registry' issuer) :
    verify registry depth now token = verify registry' depth now token := by
  by_cases hne : token = []
  · rw [hne]
    rfl
  · cases hread : introduction depth token with
    | error failure => rw [verify_of_introduction_error hne hread, verify_of_introduction_error hne hread]
    | ok i =>
      rw [verify_of_introduction hne hread, verify_of_introduction hne hread,
        h i.issuer (isIssuerOf_iff.mpr ⟨i, hread, rfl⟩)]

/-- A token is refused for one reason under all registries just when it names no issuer. -/
theorem exists_failure_iff (hne : token ≠ []) :
    (∃ failure, ∀ registry now, verify registry depth now token = .error failure)
      ↔ ∀ issuer, ¬ IsIssuerOf depth token issuer := by
  constructor
  · rintro ⟨failure, hrefused⟩ issuer hissuer
    obtain ⟨i, hread, -⟩ := isIssuerOf_iff.mp hissuer
    have hdegraded : verify [] depth (.integer 0) token = .ok (.degraded i.issuer) := verify_of_introduction hne hread
    cases (hrefused [] (.integer 0)).symm.trans hdegraded
  · intro hno
    cases hread : introduction depth token with
    | error failure => exact ⟨failure, fun registry now => verify_of_introduction_error hne hread⟩
    | ok i => exact absurd (isIssuerOf_iff.mpr ⟨i, hread, rfl⟩) (hno i.issuer)

/-- **The keys of other issuers do not matter.**  Registries that agree on the issuer that a
    token names, because both have the same key for it or neither has one, come to the same
    result about the token, be it a refusal or not.  So nothing changes when the key of any
    other issuer is added, changed or removed.  And a token that names no issuer, because it is
    not made of segments, an object in it cannot be read, its algorithm is none of those that
    are accepted, or its issuer is missing or no text, is refused for one and the same reason
    whatever is configured; no other token is. -/
theorem verify_local (depth : Nat) (token : Text) :
    (∀ (registry registry' : Registry) (now : Number),
      (∀ issuer, IsIssuerOf depth token issuer →
        OrderedMap.get? registry issuer = OrderedMap.get? registry' issuer) →
      verify registry depth now token = verify registry' depth now token)
    ∧ (∀ (registry : Registry) (now : Number) (other : Text), ¬ IsIssuerOf depth token other →
      (∀ key, verify (OrderedMap.set registry other key) depth now token = verify registry depth now token)
        ∧ verify (OrderedMap.erase registry other) depth now token = verify registry depth now token)
    ∧ (token ≠ [] →
      ((∃ failure, ∀ registry now, verify registry depth now token = .error failure)
        ↔ ∀ issuer, ¬ IsIssuerOf depth token issuer)) := by
  refine ⟨fun _ _ _ => verify_congr, ?_, exists_failure_iff⟩
  intro registry now other hother
  have hne : ∀ issuer, IsIssuerOf depth token issuer → other ≠ issuer := by
    rintro issuer hissuer rfl
    exact hother hissuer
  constructor
  · intro key
    apply verify_congr
    intro issuer hissuer
    rw [OrderedMap.get?_set, if_neg (hne issuer hissuer)]
  · apply verify_congr
    intro issuer hissuer
    rw [OrderedMap.get?_erase, if_neg (hne issuer hissuer)]

theorem isIssuerOf_unsignedToken : IsIssuerOf 900 unsignedToken issuer ↔ issuer = Text.of "i" := by
  have hissuer : (introduction 900 unsignedToken).toOption.map Introduction.issuer = some (Text.of "i") := by
    decide +kernel
  rw [isIssuerOf_iff, ← map_toOption_eq_some_iff, hissuer, Option.some.injEq, eq_comm]

/-- A token of the issuer `i` meets registries with the same key for `i`, and one without an algorithm
    meets any. -/
theorem verify_local_unsignedToken :
    verify [(Text.of "j", [1]), (Text.of "i", [107])] 900 (.integer 0) unsignedToken
        = verify [(Text.of "i", [107]), (Text.of "k", [])] 900 (.integer 0) unsignedToken
      ∧ verify (OrderedMap.erase [(Text.of "j", [1]), (Text.of "i", [107])] (Text.of "j")) 900 (.integer 0) unsignedToken
        = .error (.upload (.signature (Text.of "i")))
      ∧ ∃ failure, ∀ registry now, verify registry 900 now (Text.of "e30.e30.") = .error failure := by
  obtain ⟨hagree, hothers, -⟩ := verify_local 900 unsignedToken
  obtain ⟨-, -, hrefused⟩ := verify_local 900 (Text.of "e30.e30.")
  refine ⟨?_, ?_, ?_⟩
  · apply hagree
    intro issuer hissuer
    rw [isIssuerOf_unsignedToken.mp hissuer]
    decide
  · have hj : ¬ IsIssuerOf 900 unsignedToken (Text.of "j") := by
      rw [isIssuerOf_unsignedToken]
      decide
    rw [(hothers _ _ _ hj).2]
    decide +kernel
  · rw [hrefused (by decide)]
    intro issuer hissuer
    obtain ⟨i, hread, -⟩ := isIssuerOf_iff.mp hissuer
    have hnone : (introduction 900 (Text.of "e30.e30.")).toOption.isSome = false := by decide +kernel
    rw [hread] at hnone
    cases hnone

end UploadGate.Token
