/-
  UploadGate/Proofs/Authorization/Vouching.lean
  =============================================
  **What the server vouches for in the header of an upload.**

  `grant_of_decide` takes a decision apart once: whatever was let through went
  through every check, and `Grant` names what each of them found.  All else
  follows from it and from the round trip of the header: a client can set none
  of the keys that the server sets, and its own entries stand as they were.
-/
import UploadGate.Authorization
import UploadGate.Proofs.Metadata.RoundTrip
import UploadGate.Proofs.Outcome
import UploadGate.Proofs.Text.Escapes

namespace UploadGate.Authorization

open Metadata

variable {config : Config} {depth : Nat} {now : Number} {telemetry : Telemetry} {request : UploadRequest}
  {a : AuthorizedUpload}

/-! ### A decision, taken apart -/

/-- What the checks found about a request that was let through: the metadata of the
    client and what its token says. -/
structure Grant (config : Config) (depth : Nat) (now : Number) (request : UploadRequest)
    (a : AuthorizedUpload) (client : Metadata) (v : Token.Verification) : Prop where
  decoded : decode request.metadata? = .ok client
  noRemoteIp : remoteIpKey ∉ OrderedMap.keys client
  noAccount : accountKey ∉ OrderedMap.keys client
  noIssuer : issuerKey ∉ OrderedMap.keys client
  resolved : (ProxyTrust.resolve config.trustedRanges request.peer request.forwarded?).result
    = .ok a.remoteIp
  verified : Token.verify config.secrets depth now ((OrderedMap.get? client tokenKey).getD []) = .ok v
  metadata_eq : a.metadata = vouched client a.remoteIp v.identity?
  encoded : encode a.metadata = .ok a.header
  issuer_eq : a.issuer? = v.identity?.map Prod.fst
  account_eq : a.account? = v.identity?.map Prod.snd

theorem result_refuse (t : Telemetry) (logs : List LogRecord) (failure : Failure) :
    (refuse t logs failure).result = .error failure := by
  cases failure <;> rfl

theorem approve_eq_ok {t : Telemetry} {logs : List LogRecord} {m : Metadata} {remoteIp : Text}
    {identity? : Option (Text × Text)} (h : (approve t logs m remoteIp identity?).result = .ok a) :
    ∃ header, encode (vouched m remoteIp identity?) = .ok header
      ∧ a = ⟨vouched m remoteIp identity?, header, remoteIp, identity?.map Prod.fst,
        identity?.map Prod.snd⟩ := by
  unfold approve at h
  cases hheader : encode (vouched m remoteIp identity?) with
  | error failure =>
    simp only [hheader, result_refuse] at h
    cases h
  | ok header =>
    simp only [hheader, Except.ok.injEq] at h
    exact ⟨header, rfl, h.symm⟩

theorem checkToken_eq_ok {registry : Registry} {t : Telemetry} {logs : List LogRecord} {m : Metadata}
    {remoteIp : Text} (h : (checkToken registry depth now t logs m remoteIp).result = .ok a) :
    ∃ v header, Token.verify registry depth now ((OrderedMap.get? m tokenKey).getD []) = .ok v
      ∧ encode (vouched m remoteIp v.identity?) = .ok header
      ∧ a = ⟨vouched m remoteIp v.identity?, header, remoteIp, v.identity?.map Prod.fst,
        v.identity?.map Prod.snd⟩ := by
  unfold checkToken at h
  cases hv : Token.verify registry depth now ((OrderedMap.get? m tokenKey).getD []) with
  | error failure =>
    simp only [hv, result_refuse] at h
    cases h
  | ok v =>
    simp only [hv] at h
    obtain ⟨header, hencode, ha⟩ := approve_eq_ok h
    exact ⟨v, header, rfl, hencode, ha⟩

theorem claimedKey?_eq_none_iff {m : Metadata} :
    claimedKey? m = none ↔ accountKey ∉ OrderedMap.keys m ∧ issuerKey ∉ OrderedMap.keys m := by
  simp only [claimedKey?, List.find?_eq_none, List.forall_mem_cons, Bool.not_eq_true, List.not_mem_nil,
    false_implies, implies_true, and_true]
  exact and_congr (OrderedMap.has_eq_false_iff m accountKey) (OrderedMap.has_eq_false_iff m issuerKey)

/-- **Whatever is let through went through every check.** -/
theorem grant_of_decide (h : (decide config depth now telemetry request).result = .ok a) :
    ∃ client v, Grant config depth now request a client v := by
  unfold decide at h
  split at h
  · rw [result_refuse] at h
    cases h
  · rename_i client hclient
    split at h
    · rw [result_refuse] at h
      cases h
    · rename_i hip
      simp only at h
      split at h
      · rw [result_refuse] at h
        cases h
      · rename_i remoteIp hresolved
        split at h
        · rw [result_refuse] at h
          cases h
        · rename_i hclaimed
          obtain ⟨v, header, hv, hencode, rfl⟩ := checkToken_eq_ok h
          obtain ⟨haccount, hissuer⟩ := claimedKey?_eq_none_iff.mp hclaimed
          have hnoip := (OrderedMap.has_eq_false_iff client remoteIpKey).mp (by simpa using hip)
          exact ⟨client, v, hclient, hnoip, haccount, hissuer, hresolved, hv, rfl, hencode, rfl, rfl⟩

/-! ### The header of a grant -/

/-- The entries of the identity that a token vouches for. -/
theorem identity?_cases (v : Token.Verification) :
    (∃ issuer account, v = .verified issuer (some account) ∧ v.identity? = some (issuer, account))
      ∨ ((∀ issuer account, v ≠ .verified issuer (some account)) ∧ v.identity? = none) := by
  cases v with
  | skipped => exact Or.inr ⟨(fun _ _ h => nomatch h), rfl⟩
  | degraded issuer => exact Or.inr ⟨(fun _ _ h => nomatch h), rfl⟩
  | verified issuer account? =>
    cases account? with
    | none => exact Or.inr ⟨(fun _ _ h => nomatch h), rfl⟩
    | some account => exact Or.inl ⟨issuer, account, rfl, rfl⟩

def identityEntries (identity? : Option (Text × Text)) : Metadata :=
  identity?.elim [] fun (issuer, account) => [(issuerKey, issuer), (accountKey, account)]

theorem keys_vouched (m : Metadata) (remoteIp : Text) (identity? : Option (Text × Text)) :
    OrderedMap.keys (vouched m remoteIp identity?)
      = OrderedMap.keys m ++ remoteIpKey :: OrderedMap.keys (identityEntries identity?) :=
  OrderedMap.keys_append m _

theorem mem_keys_identityEntries {identity? : Option (Text × Text)} {k : Text} :
    k ∈ OrderedMap.keys (identityEntries identity?)
      ↔ identity?.isSome = true ∧ (k = issuerKey ∨ k = accountKey) := by
  cases identity? <;> simp [identityEntries, OrderedMap.keys]

theorem nodup_keys_vouched {m : Metadata} {remoteIp : Text} (identity? : Option (Text × Text))
    (hm : (OrderedMap.keys m).Nodup) (hip : remoteIpKey ∉ OrderedMap.keys m)
    (haccount : accountKey ∉ OrderedMap.keys m) (hissuer : issuerKey ∉ OrderedMap.keys m) :
    (OrderedMap.keys (vouched m remoteIp identity?)).Nodup := by
  have hip' : remoteIpKey ∉ OrderedMap.keys (identityEntries identity?) := by
    rw [mem_keys_identityEntries]
    rintro ⟨-, h | h⟩ <;> exact absurd h (by decide)
  have hidentity : (OrderedMap.keys (identityEntries identity?)).Nodup := by
    cases identity? with
    | none => exact List.nodup_nil
    | some identity => exact (by decide : [issuerKey, accountKey].Nodup)
  rw [keys_vouched, List.nodup_append]
  refine ⟨hm, List.nodup_cons.mpr ⟨hip', hidentity⟩, ?_⟩
  rintro k hk j hj rfl
  rcases List.mem_cons.mp hj with rfl | hj
  · exact hip hk
  · rcases (mem_keys_identityEntries.mp hj).2 with rfl | rfl
    · exact hissuer hk
    · exact haccount hk

theorem mem_keys_vouched_iff {m : Metadata} {remoteIp k : Text} {identity? : Option (Text × Text)}
    (hk : k = issuerKey ∨ k = accountKey) (hm : k ∉ OrderedMap.keys m) :
    k ∈ OrderedMap.keys (vouched m remoteIp identity?) ↔ identity?.isSome = true := by
  have hne : k ≠ remoteIpKey := by
    rcases hk with rfl | rfl <;> decide
  rw [keys_vouched, List.mem_append, List.mem_cons, mem_keys_identityEntries]
  constructor
  · rintro (h | h | h)
    · exact absurd h hm
    · exact absurd h hne
    · exact h.1
  · intro h
    exact Or.inr (Or.inr ⟨h, hk⟩)

variable {client : Metadata} {v : Token.Verification}

theorem Grant.nodup_keys (g : Grant config depth now request a client v) :
    (OrderedMap.keys a.metadata).Nodup := by
  rw [g.metadata_eq]
  exact nodup_keys_vouched _ (isRead_of_decode g.decoded).keys_nodup g.noRemoteIp g.noAccount g.noIssuer

theorem Grant.get?_remoteIpKey (g : Grant config depth now request a client v) :
    OrderedMap.get? a.metadata remoteIpKey = some a.remoteIp := by
  have hmem : (remoteIpKey, a.remoteIp) ∈ a.metadata := by
    rw [g.metadata_eq, vouched]
    exact List.mem_append_right _ List.mem_cons_self
  exact OrderedMap.get?_eq_some_of_mem g.nodup_keys hmem

/-- What a grant writes can be read, and shows the rereading of what it vouches for. -/
theorem Grant.decode_header (g : Grant config depth now request a client v) :
    decode (some a.header) = .ok (rereadAll a.metadata) :=
  decode_of_encode g.encoded g.nodup_keys

/-- The entries of a client stand unchanged at the front. -/
theorem Grant.rereadAll_metadata (g : Grant config depth now request a client v) :
    rereadAll a.metadata = client ++ rereadAll (vouched [] a.remoteIp v.identity?) := by
  have hsplit : a.metadata = client ++ vouched [] a.remoteIp v.identity? := g.metadata_eq
  rw [hsplit, rereadAll_append, (isRead_of_decode g.decoded).rereadAll]

def octetEntries (m : Metadata) : List (Text × Except Failure Bytes) :=
  m.map fun e => (e.1, valueToBytes e.2)

theorem octetEntries_rereadAll (m : Metadata) : octetEntries (rereadAll m) = octetEntries m := by
  simp [octetEntries, rereadAll, valueToBytes_reread]

/-- **What a client cannot forge.**  The header of an upload that was let through can be
    read.  It holds, octet for octet and in this order, the entries of the client, the
    address that the request resolves to and, just when the token is verified with an
    account, the issuer and the account of the token.  The client names none of these
    keys, and none stands twice. -/
theorem decode_header_of_decide (h : (decide config depth now telemetry request).result = .ok a) :
    ∃ client v m identity,
      decode request.metadata? = .ok client
      ∧ Token.verify config.secrets depth now ((OrderedMap.get? client tokenKey).getD []) = .ok v
      ∧ (ProxyTrust.resolve config.trustedRanges request.peer request.forwarded?).result = .ok a.remoteIp
      ∧ decode (some a.header) = .ok m
      ∧ client <+: m
      ∧ octetEntries m = octetEntries (client ++ (remoteIpKey, a.remoteIp) :: identity)
      ∧ (∀ e ∈ m, ∃ bytes, valueToBytes e.2 = .ok bytes)
      ∧ ((∃ issuer account, v = .verified issuer (some account)
            ∧ identity = [(issuerKey, issuer), (accountKey, account)])
          ∨ ((∀ issuer account, v ≠ .verified issuer (some account)) ∧ identity = []))
      ∧ (∀ k ∈ [remoteIpKey, issuerKey, accountKey], k ∉ OrderedMap.keys client)
      ∧ (∀ k ∈ [remoteIpKey, issuerKey, accountKey], (OrderedMap.keys m).count k ≤ 1)
      ∧ (issuerKey ∈ OrderedMap.keys m ↔ accountKey ∈ OrderedMap.keys m) := by
  obtain ⟨client, v, g⟩ := grant_of_decide h
  refine ⟨client, v, rereadAll a.metadata, identityEntries v.identity?, g.decoded, g.verified,
    g.resolved, g.decode_header, ?_, ?_, ?_, ?_, ?_, ?_, ?_⟩
  · rw [g.rereadAll_metadata]
    exact List.prefix_append _ _
  · rw [octetEntries_rereadAll, g.metadata_eq]
    rfl
  · intro e he
    obtain ⟨bytes, hbytes⟩ := (isRead_of_decode g.decode_header).exists_bytes e he
    exact ⟨bytes, by rw [hbytes, valueToBytes_valueOfBytes]⟩
  · rcases identity?_cases v with ⟨issuer, account, hv, hidentity⟩ | ⟨hv, hidentity⟩
    · exact Or.inl ⟨issuer, account, hv, by rw [hidentity]; rfl⟩
    · exact Or.inr ⟨hv, by rw [hidentity]; rfl⟩
  · intro k hk
    simp only [List.mem_cons, List.not_mem_nil, or_false] at hk
    rcases hk with rfl | rfl | rfl
    · exact g.noRemoteIp
    · exact g.noIssuer
    · exact g.noAccount
  · intro k _
    rw [keys_rereadAll]
    exact List.nodup_iff_count.mp g.nodup_keys k
  · rw [keys_rereadAll, g.metadata_eq, mem_keys_vouched_iff (Or.inl rfl) g.noIssuer,
      mem_keys_vouched_iff (Or.inr rfl) g.noAccount]

/-! ### A signed token -/

def noTelemetry : Telemetry := ⟨⟨0, []⟩, ⟨0, []⟩⟩

def plainRequest : UploadRequest := ⟨some (Text.of "filename Zm9v"), Text.of "192.0.2.1:1", none⟩

/-- A request with a token, signed with the key `k`, of an account whose name is two
    escapes: the octets of an accented letter. -/
def escapedAccountRequest : UploadRequest where
  metadata? := some (Text.of "extjwt ZXlKaGJHY2lPaUpJVXpJMU5pSjkuZXlKcGMzTWlPaUpwSWl3aVlXTmpiM1Z1Z"
    ++ Text.of "ENJNklseDFaR05qTTF4MVpHTmhPU0o5LjVISEczeTlCeFhNTDFsQmhIeXA1V2ZEd1RUVHBoSnhHTEFKeHFHU"
    ++ Text.of "VBFZDA=")
  peer := Text.of "192.0.2.1:1"
  forwarded? := none

/-- The settings of a server that shares the key `k` with one issuer. -/
def sharedKeyConfig : Config := { secrets := [(Text.of "i", [107])] }

theorem decide_escapedAccountRequest :
    ∃ a m, (decide sharedKeyConfig 900 (.integer 0) noTelemetry escapedAccountRequest).result = .ok a
      ∧ decode (some a.header) = .ok m
      ∧ a.account?.isSome = true
      ∧ OrderedMap.keys m = [tokenKey, remoteIpKey, issuerKey, accountKey]
      ∧ OrderedMap.get? m accountKey = some [⟨0xE9, by decide⟩]
      ∧ OrderedMap.get? a.metadata accountKey = some [⟨0xDCC3, by decide⟩, ⟨0xDCA9, by decide⟩] := by
  have hrun :
      ((decide sharedKeyConfig 900 (.integer 0) noTelemetry escapedAccountRequest).result.toOption.map
        fun a => ((decode (some a.header)).toOption.map fun m =>
          (OrderedMap.keys m, OrderedMap.get? m accountKey),
            a.account?.isSome, OrderedMap.get? a.metadata accountKey))
      = some (some ([tokenKey, remoteIpKey, issuerKey, accountKey], some [⟨0xE9, by decide⟩]),
          true, some [⟨0xDCC3, by decide⟩, ⟨0xDCA9, by decide⟩]) := by
    decide +kernel
  obtain ⟨a, hresult, hread⟩ := map_toOption_eq_some_iff.mp hrun
  simp only [Prod.mk.injEq] at hread
  obtain ⟨m, hm, hentries⟩ := map_toOption_eq_some_iff.mp hread.1
  simp only [Prod.mk.injEq] at hentries
  exact ⟨a, m, hresult, hm, hread.2.1, hentries.1, hentries.2, hread.2.2⟩

/-- The identity of a signed token stands behind the address. -/
theorem decode_header_of_decide_signed :
    ∃ a client m issuer account,
      (decide sharedKeyConfig 900 (.integer 0) noTelemetry escapedAccountRequest).result = .ok a
      ∧ decode (some a.header) = .ok m
      ∧ octetEntries m = octetEntries
        (client ++ [(remoteIpKey, a.remoteIp), (issuerKey, issuer), (accountKey, account)])
      ∧ ∀ k ∈ [remoteIpKey, issuerKey, accountKey], k ∉ OrderedMap.keys client := by
  obtain ⟨a, m, ha, hm, -, hmkeys, -⟩ := decide_escapedAccountRequest
  obtain ⟨client, v, m', identity, -, -, -, hm', -, hoctets, -, hidentity, hkeys, -⟩ :=
    decode_header_of_decide ha
  obtain rfl : m = m' := Except.ok.inj (hm.symm.trans hm')
  rcases hidentity with ⟨issuer, account, -, rfl⟩ | ⟨-, rfl⟩
  · exact ⟨a, client, m, issuer, account, ha, hm, hoctets, hkeys⟩
  · have hlast : (OrderedMap.keys m).getLast? = some remoteIpKey := by
      have hentries := congrArg (fun entries => (entries.map Prod.fst).getLast?) hoctets
      simpa [octetEntries, OrderedMap.keys, Function.comp_def] using hentries
    rw [hmkeys] at hlast
    exact absurd hlast (by decide)

end UploadGate.Authorization
