/-
  UploadGate/Proofs/Token/Verification.lean
  =========================================
  **Which tokens vouch for an account, and which only name their issuer.**

  `Vouches` and `NamesUnknown` say what a token has to be without reference to
  the checks: how its text is made up, which octets its segments stand for, which
  JSON these are in UTF-8, and which octets its signature has to be.  The checks
  accept a token just when one of the two holds (`verify_eq_ok_iff`): there is one
  accepting path for each, and all others end in a failure.
-/
import UploadGate.Proofs.Base64.Segment
import UploadGate.Proofs.Outcome
import UploadGate.Proofs.Text.Cutting
import UploadGate.Proofs.Text.Utf8
import UploadGate.Token.Verification

namespace UploadGate.Token

variable {depth : Nat}

/-! ### What a token has to be -/

def point : CodePoint := .ofChar '.'

/-- A token is three segments with points between them. -/
structure Segments.Make (s : Segments) (token : Text) : Prop where
  joined : token = s.header ++ point :: (s.payload ++ point :: s.signature)
  header_no_point : point ∉ s.header
  payload_no_point : point ∉ s.payload
  signature_no_point : point ∉ s.signature

/-- A segment stands for the UTF-8 octets of a JSON object, on a stack of some depth. -/
def EncodesObject (depth : Nat) (segment : Text) (members : Claims) : Prop :=
  ∃ bytes t, Base64.IsSegment segment bytes ∧ Utf8.encode? t = some bytes
    ∧ Json.read (limits depth) t = .ok (.object members)

def NamesHash (header : Claims) (f : HashFunction) : Prop :=
  ∃ name, OrderedMap.get? header (Text.of "alg") = some (.text name)
    ∧ (name = Text.of "HS256" ∧ f = .sha256 ∨ name = Text.of "HS384" ∧ f = .sha384
      ∨ name = Text.of "HS512" ∧ f = .sha512)

def NamesIssuer (payload : Claims) (issuer : Text) : Prop :=
  OrderedMap.get? payload (Text.of "iss") = some (.text issuer)

/-- The account of a payload, if it is a text. -/
def NamesAccount (payload : Claims) (account? : Option Text) : Prop :=
  (∃ account, OrderedMap.get? payload (Text.of "account") = some (.text account)
      ∧ account? = some account)
    ∨ ((∀ account, OrderedMap.get? payload (Text.of "account") ≠ some (.text account))
      ∧ account? = none)

/-- A bound on the time is absent, null, or a number that permits the time. -/
def Permits (permits : Number → Prop) (member? : Option Json) : Prop :=
  member? = none ∨ member? = some .null ∨ ∃ bound, member? = some (.number bound) ∧ permits bound

/-- A token is made of segments whose objects name a hash function and an issuer. -/
structure Introduces (depth : Nat) (token : Text) (s : Segments) (f : HashFunction) (payload : Claims)
    (issuer : Text) : Prop where
  make : s.Make token
  header : ∃ header, EncodesObject depth s.header header ∧ NamesHash header f
  object : EncodesObject depth s.payload payload
  named : NamesIssuer payload issuer

/-- A token is signed with the key of its issuer, and is within its times. -/
def Vouches (registry : Registry) (depth : Nat) (now : Number) (token issuer : Text)
    (account? : Option Text) : Prop :=
  ∃ s f payload key, Introduces depth token s f payload issuer
    ∧ OrderedMap.get? registry issuer = some key
    ∧ Base64.IsSegment s.signature (f.hmac key s.signedBytes)
    ∧ Permits (fun bound => bound.lt now = false) (OrderedMap.get? payload (Text.of "exp"))
    ∧ Permits (fun bound => now.lt bound = false) (OrderedMap.get? payload (Text.of "nbf"))
    ∧ NamesAccount payload account?

/-- A token names an issuer that is not configured. -/
def NamesUnknown (registry : Registry) (depth : Nat) (token issuer : Text) : Prop :=
  ∃ s f payload, Introduces depth token s f payload issuer ∧ issuer ∉ OrderedMap.keys registry

/-! ### Segments and objects -/

theorem parse_eq_ok_iff {token : Text} {s : Segments} : Segments.parse token = .ok s ↔ s.Make token := by
  have hcut : Text.splitOn point token = [s.header, s.payload, s.signature] ↔ s.Make token := by
    rw [Text.splitOn_eq_iff (List.cons_ne_nil _ _)]
    constructor
    · rintro ⟨hjoin, hpoints⟩
      simp only [List.forall_mem_cons] at hpoints
      refine ⟨?_, hpoints.1, hpoints.2.1, hpoints.2.2.1⟩
      rw [← hjoin]
      simp [Text.join]
    · intro h
      refine ⟨?_, ?_⟩
      · rw [h.joined]
        simp [Text.join]
      · simp only [List.forall_mem_cons]
        exact ⟨h.header_no_point, h.payload_no_point, h.signature_no_point, by simp⟩
  rw [← hcut, Segments.parse]
  split
  · rename_i header payload signature hpieces
    rw [show Text.splitOn point token = [header, payload, signature] from hpieces]
    cases s
    simp
  · rename_i hother
    constructor
    · intro h
      cases h
    · intro h
      exact absurd h (hother _ _ _)

theorem segmentText?_eq_some_iff {segment t : Text} :
    segmentText? segment = some t ↔
      ∃ bytes, Base64.IsSegment segment bytes ∧ Utf8.encode? t = some bytes := by
  simp only [segmentText?, Option.bind_eq_some_iff, Base64.decodeSegment?_eq_some_iff,
    Utf8.decode?_eq_some_iff]

theorem object?_eq_some_iff {j : Json} {members : Claims} :
    j.object? = some members ↔ j = .object members := by
  cases j <;> simp [Json.object?]

theorem readObject_eq_ok_iff {part : TokenPart} {segment : Text} {members : Claims} :
    readObject depth part segment = .ok members ↔ EncodesObject depth segment members := by
  have hform : EncodesObject depth segment members ↔ ∃ t, segmentText? segment = some t
      ∧ Json.read (limits depth) t = .ok (.object members) := by
    simp only [segmentText?_eq_some_iff]
    constructor
    · rintro ⟨bytes, t, hsegment, ht, hjson⟩
      exact ⟨t, ⟨bytes, hsegment, ht⟩, hjson⟩
    · rintro ⟨t, ⟨bytes, hsegment, ht⟩, hjson⟩
      exact ⟨bytes, t, hsegment, ht, hjson⟩
  rw [hform, readObject]
  cases ht : segmentText? segment with
  | none => simp
  | some t =>
    simp only [Option.some.injEq, exists_eq_left']
    cases hjson : Json.read (limits depth) t with
    | error fault => cases fault <;> simp
    | ok j =>
      simp only [Except.ok.injEq, ← object?_eq_some_iff]
      cases hobject : j.object? with
      | none => simp
      | some found => simp

theorem text?_eq_some_iff {j : Json} {t : Text} : j.text? = some t ↔ j = .text t := by
  cases j <;> simp [Json.text?]

theorem algorithm?_eq_some_iff {header : Claims} {f : HashFunction} :
    algorithm? header = some f ↔ NamesHash header f := by
  have htable : ∀ name, OrderedMap.get? algorithms name = some f ↔
      name = Text.of "HS256" ∧ f = .sha256 ∨ name = Text.of "HS384" ∧ f = .sha384
        ∨ name = Text.of "HS512" ∧ f = .sha512 := by
    intro name
    have hkeys : (OrderedMap.keys algorithms).Nodup := by decide
    have hmem : OrderedMap.get? algorithms name = some f ↔ (name, f) ∈ algorithms :=
      ⟨OrderedMap.mem_of_get?_eq_some, OrderedMap.get?_eq_some_of_mem hkeys⟩
    rw [hmem]
    simp [algorithms]
  simp only [algorithm?, NamesHash, Option.bind_eq_some_iff, text?_eq_some_iff, htable]
  constructor
  · rintro ⟨j, hj, name, rfl, hname⟩
    exact ⟨name, hj, hname⟩
  · rintro ⟨name, hj, hname⟩
    exact ⟨.text name, hj, name, rfl, hname⟩

theorem issuerOf_eq_ok_iff {payload : Claims} {issuer : Text} :
    issuerOf payload = .ok issuer ↔ NamesIssuer payload issuer := by
  unfold issuerOf NamesIssuer
  split <;> rename_i h <;> simp_all

/-! ### Signatures and times -/

theorem isSignedBy_iff {s : Segments} {f : HashFunction} {key : Bytes} :
    isSignedBy s f key = true ↔ Base64.IsSegment s.signature (f.hmac key s.signedBytes) := by
  rw [isSignedBy, decide_eq_true_eq, Base64.decodeSegment?_eq_some_iff]

theorem permits_iff {permits : Number → Bool} {member? : Option Json} :
    Permits (fun bound => permits bound = false) member? ↔
      TimeClaims.isTime member? = true ∧ (member?.bind Json.number?).any permits = false := by
  unfold Permits TimeClaims.isTime
  cases member? with
  | none => simp
  | some j => cases j <;> simp [Json.number?]

theorem read_eq_ok_iff {payload : Claims} {times : TimeClaims}
    (hnames : ∀ name ∈ OrderedMap.keys payload, name.any CodePoint.isSurrogate = false) :
    TimeClaims.read payload = .ok times ↔
      TimeClaims.isTime (TimeClaims.expiresMember? payload) = true
        ∧ TimeClaims.isTime (TimeClaims.notBeforeMember? payload) = true
        ∧ times = ⟨(TimeClaims.expiresMember? payload).bind Json.number?,
          (TimeClaims.notBeforeMember? payload).bind Json.number?⟩ := by
  have hclean : ((OrderedMap.keys payload).any fun name => name.any CodePoint.isSurrogate) = false := by
    rw [List.any_eq_false]
    intro name hname
    exact Bool.eq_false_iff.mp (hnames name hname)
  have hfaults : ∀ member?, TimeClaims.faults member? = 0 ↔ TimeClaims.isTime member? = true := by
    intro member?
    unfold TimeClaims.faults
    split <;> simp_all
  have hcount : TimeClaims.faultCount payload = 0 ↔
      TimeClaims.isTime (TimeClaims.expiresMember? payload) = true
        ∧ TimeClaims.isTime (TimeClaims.notBeforeMember? payload) = true := by
    rw [TimeClaims.faultCount, if_neg (Bool.eq_false_iff.mp hclean), Nat.add_eq_zero_iff, hfaults,
      hfaults]
  unfold TimeClaims.read
  split
  · rename_i hne
    constructor
    · intro h
      cases h
    · rintro ⟨hexpires, hnotBefore, -⟩
      exact absurd (hcount.mpr ⟨hexpires, hnotBefore⟩) hne
  · rename_i heq
    obtain ⟨hexpires, hnotBefore⟩ := hcount.mp (by simpa using heq)
    simp [hexpires, hnotBefore, eq_comm]

theorem check_eq_ok_iff {times : TimeClaims} {now : Number} {u : Unit} :
    times.check now = .ok u ↔
      (times.expires?.any fun bound => bound.lt now) = false
        ∧ (times.notBefore?.any fun bound => now.lt bound) = false := by
  unfold TimeClaims.check
  split
  · simp_all
  · split <;> simp_all

theorem namesAccount_iff {payload : Claims} {account? : Option Text} :
    NamesAccount payload account? ↔
      account? = (OrderedMap.get? payload (Text.of "account")).bind Json.text? := by
  unfold NamesAccount
  cases OrderedMap.get? payload (Text.of "account") with
  | none => simp
  | some j => cases j <;> simp [Json.text?]

theorem verifySigned_eq_ok_iff {s : Segments} {f : HashFunction} {payload : Claims} {issuer : Text}
    {key : Bytes} {now : Number} {v : Verification}
    (hnames : ∀ name ∈ OrderedMap.keys payload, name.any CodePoint.isSurrogate = false) :
    verifySigned s f payload issuer key now = .ok v ↔
      Base64.IsSegment s.signature (f.hmac key s.signedBytes)
        ∧ Permits (fun bound => bound.lt now = false) (OrderedMap.get? payload (Text.of "exp"))
        ∧ Permits (fun bound => now.lt bound = false) (OrderedMap.get? payload (Text.of "nbf"))
        ∧ ∃ account?, NamesAccount payload account? ∧ v = .verified issuer account? := by
  rw [permits_iff, permits_iff, ← isSignedBy_iff]
  simp only [namesAccount_iff, exists_eq_left]
  unfold verifySigned
  cases isSignedBy s f key with
  | false => simp
  | true =>
    simp only [Bool.not_true, Bool.false_eq_true, if_false, bind_eq_ok_iff, read_eq_ok_iff hnames,
      check_eq_ok_iff, Except.ok.injEq, true_and]
    constructor
    · rintro ⟨times, ⟨hexpires, hnotBefore, rfl⟩, -, ⟨hlt, hlt'⟩, rfl⟩
      exact ⟨⟨hexpires, hlt⟩, ⟨hnotBefore, hlt'⟩, rfl⟩
    · rintro ⟨⟨hexpires, hlt⟩, ⟨hnotBefore, hlt'⟩, rfl⟩
      exact ⟨_, ⟨hexpires, hnotBefore, rfl⟩, (), ⟨hlt, hlt'⟩, rfl⟩

/-! ### Verifying -/

/-- **A token that is not refused** is one of two: its issuer is not configured, or is and
    the signature and the times are checked. -/
theorem verifyPresent_eq_ok_iff {registry : Registry} {now : Number} {token : Text} {v : Verification} :
    verifyPresent registry depth now token = .ok v ↔
      ∃ s f payload issuer, Introduces depth token s f payload issuer
        ∧ ((issuer ∉ OrderedMap.keys registry ∧ v = .degraded issuer)
          ∨ ∃ key, OrderedMap.get? registry issuer = some key
            ∧ verifySigned s f payload issuer key now = .ok v) := by
  unfold verifyPresent
  simp only [bind_eq_ok_iff, mapError_eq_ok_iff, parse_eq_ok_iff, readObject_eq_ok_iff]
  constructor
  · rintro ⟨s, hmake, header, hheader, h⟩
    split at h
    · cases h
    · rename_i f halg
      simp only [bind_eq_ok_iff, mapError_eq_ok_iff, readObject_eq_ok_iff, issuerOf_eq_ok_iff] at h
      obtain ⟨payload, hpayload, issuer, hissuer, h⟩ := h
      refine ⟨s, f, payload, issuer,
        ⟨hmake, ⟨header, hheader, algorithm?_eq_some_iff.mp halg⟩, hpayload, hissuer⟩, ?_⟩
      split at h
      · rename_i hkey
        exact Or.inl ⟨OrderedMap.get?_eq_none_iff.mp hkey, (Except.ok.inj h).symm⟩
      · rename_i key hkey
        exact Or.inr ⟨key, hkey, mapError_eq_ok_iff.mp h⟩
  · rintro ⟨s, f, payload, issuer, ⟨hmake, ⟨header, hheader, halg⟩, hpayload, hissuer⟩, h⟩
    refine ⟨s, hmake, header, hheader, ?_⟩
    rw [algorithm?_eq_some_iff.mpr halg]
    simp only [bind_eq_ok_iff, mapError_eq_ok_iff, readObject_eq_ok_iff, issuerOf_eq_ok_iff]
    refine ⟨payload, hpayload, issuer, hissuer, ?_⟩
    rcases h with ⟨hkey, rfl⟩ | ⟨key, hkey, h⟩
    · rw [OrderedMap.get?_eq_none_iff.mpr hkey]
    · rw [hkey]
      exact mapError_eq_ok_iff.mpr h

/-- A token that is not refused vouches, or names an issuer that is not configured. -/
theorem verify_eq_ok_iff {registry : Registry} {now : Number} {token : Text} {v : Verification}
    (hne : token ≠ [])
    (hnames : ∀ (s : Segments) payload, s.Make token → EncodesObject depth s.payload payload →
      ∀ name ∈ OrderedMap.keys payload, name.any CodePoint.isSurrogate = false) :
    verify registry depth now token = .ok v ↔
      (∃ issuer account?, Vouches registry depth now token issuer account? ∧ v = .verified issuer account?)
        ∨ ∃ issuer, NamesUnknown registry depth token issuer ∧ v = .degraded issuer := by
  rw [verify, if_neg (by simpa using hne), verifyPresent_eq_ok_iff]
  constructor
  · rintro ⟨s, f, payload, issuer, hintro, ⟨hkey, rfl⟩ | ⟨key, hkey, h⟩⟩
    · exact Or.inr ⟨issuer, ⟨s, f, payload, hintro, hkey⟩, rfl⟩
    · obtain ⟨hsigned, hexp, hnbf, account?, haccount, rfl⟩ :=
        (verifySigned_eq_ok_iff (hnames s payload hintro.make hintro.object)).mp h
      exact Or.inl ⟨issuer, account?, ⟨s, f, payload, key, hintro, hkey, hsigned, hexp, hnbf, haccount⟩, rfl⟩
  · rintro (⟨issuer, account?, ⟨s, f, payload, key, hintro, hkey, hsigned, hexp, hnbf, haccount⟩, rfl⟩
      | ⟨issuer, ⟨s, f, payload, hintro, hkey⟩, rfl⟩)
    · refine ⟨s, f, payload, issuer, hintro, Or.inr ⟨key, hkey, ?_⟩⟩
      rw [verifySigned_eq_ok_iff (hnames s payload hintro.make hintro.object)]
      exact ⟨hsigned, hexp, hnbf, account?, haccount, rfl⟩
    · exact ⟨s, f, payload, issuer, hintro, Or.inl ⟨hkey, rfl⟩⟩

/-- **The checks accept just what vouches or names an unknown issuer.**  Let no member
    of the payload have a name with a lone surrogate.  Then a token that is not empty is
    verified just when it vouches, for the issuer and the account that it names; it is let
    through without an identity just when it names an issuer that is not configured; and
    otherwise there is no result. -/
theorem verify_iff (registry : Registry) (depth : Nat) (now : Number) {token : Text} (hne : token ≠ [])
    (hnames : ∀ (s : Segments) payload, s.Make token → EncodesObject depth s.payload payload →
      ∀ name ∈ OrderedMap.keys payload, name.any CodePoint.isSurrogate = false) :
    (∀ issuer account?, verify registry depth now token = .ok (.verified issuer account?)
        ↔ Vouches registry depth now token issuer account?)
      ∧ (∀ issuer, verify registry depth now token = .ok (.degraded issuer)
        ↔ NamesUnknown registry depth token issuer)
      ∧ ((∀ issuer account?, ¬ Vouches registry depth now token issuer account?) →
        (∀ issuer, ¬ NamesUnknown registry depth token issuer) →
        ∃ failure, verify registry depth now token = .error failure) := by
  refine ⟨?_, ?_, ?_⟩
  · intro issuer account?
    rw [verify_eq_ok_iff hne hnames]
    constructor
    · rintro (⟨_, _, hvouches, h⟩ | ⟨_, _, h⟩)
      · cases h
        exact hvouches
      · cases h
    · intro hvouches
      exact Or.inl ⟨issuer, account?, hvouches, rfl⟩
  · intro issuer
    rw [verify_eq_ok_iff hne hnames]
    constructor
    · rintro (⟨_, _, _, h⟩ | ⟨_, hunknown, h⟩)
      · cases h
      · cases h
        exact hunknown
    · intro hunknown
      exact Or.inr ⟨issuer, hunknown, rfl⟩
  · intro hvouches hunknown
    cases hresult : verify registry depth now token with
    | error failure => exact ⟨failure, rfl⟩
    | ok v =>
      exfalso
      rcases (verify_eq_ok_iff hne hnames).mp hresult with ⟨issuer, account?, h, -⟩ | ⟨issuer, h, -⟩
      · exact hvouches issuer account? h
      · exact hunknown issuer h

/-- A token that names the issuer `i` and is not signed. -/
def unsignedToken : Text := Text.of "eyJhbGciOiJIUzI1NiJ9.eyJpc3MiOiJpIn0."

theorem verify_iff_unsignedToken :
    unsignedToken ≠ [] ∧ NamesUnknown [] 900 unsignedToken (Text.of "i")
      ∧ ∀ account?, ¬ Vouches [] 900 (.integer 0) unsignedToken (Text.of "i") account? := by
  have hne : unsignedToken ≠ [] := by decide
  have hmake : Segments.Make ⟨Text.of "eyJhbGciOiJIUzI1NiJ9", Text.of "eyJpc3MiOiJpIn0", []⟩
      unsignedToken :=
    ⟨by decide +kernel, by decide +kernel, by decide +kernel, by decide +kernel⟩
  have hkeys : (readObject 900 .payload (Text.of "eyJpc3MiOiJpIn0")).toOption.map OrderedMap.keys
      = some [Text.of "iss"] := by decide +kernel
  have hnames : ∀ (s : Segments) payload, s.Make unsignedToken → EncodesObject 900 s.payload payload →
      ∀ name ∈ OrderedMap.keys payload, name.any CodePoint.isSurrogate = false := by
    intro s payload hs hpayload
    obtain rfl := Except.ok.inj ((parse_eq_ok_iff.mpr hs).symm.trans (parse_eq_ok_iff.mpr hmake))
    obtain ⟨found, hfound, hnames⟩ := map_toOption_eq_some_iff.mp hkeys
    obtain rfl := Except.ok.inj (hfound.symm.trans (readObject_eq_ok_iff.mpr hpayload))
    rw [hnames]
    decide
  have hresult : (verify [] 900 (.integer 0) unsignedToken).toOption = some (.degraded (Text.of "i")) := by
    decide +kernel
  have hdegraded := toOption_eq_some_iff.mp hresult
  obtain ⟨hvouches, hunknown, -⟩ := verify_iff [] 900 (.integer 0) hne hnames
  refine ⟨hne, (hunknown _).mp hdegraded, ?_⟩
  intro account? h
  have hverified := (hvouches _ _).mpr h
  rw [hdegraded] at hverified
  cases hverified

end UploadGate.Token
