/-
  UploadGate/Proofs/Authorization/Outcomes.lean
  =============================================
  **How requests end, and what is counted.**

  A request that ends as it should is let through and counted as authorized, or
  is refused and counted under the reason of its refusal.  Three failures are
  neither: an integer in a token that is too long to be read, an object in a
  token that is nested too deep for the stack, and a text that the server would
  vouch for and that has no octets.  Nothing but these escapes
  (`accounted_or_escapes`), and what escapes is not counted.

  The checks are passed through once, up to the token (`decide_cases`); what
  comes behind depends on the token and on the header alone.
-/
import UploadGate.Proofs.Authorization.Vouching
import UploadGate.Proofs.Metadata.Canonical
import UploadGate.Proofs.Telemetry
import UploadGate.Proofs.Token.Unread

namespace UploadGate

namespace Authorization

open Metadata

variable {config : Config} {depth : Nat} {now : Number} {request : UploadRequest}
  {client : Metadata} {remoteIp : Text} {v : Token.Verification}

/-! ### Outcomes -/

def occurrence (name label : String) (value : Text) : Metric :=
  Metric.of (Text.of name) (.integer 1) [(Text.of label, value)]

def rejectedMetric (e : UploadError) : Metric := occurrence "uploads.rejected" "reason" e.reason

def authorizedMetric (a : AuthorizedUpload) : Metric :=
  occurrence "uploads.authorized" "authenticated"
    (if a.account?.isSome then Text.of "true" else Text.of "false")

def degradedMetrics : Token.Verification → List Metric
  | .degraded issuer => [occurrence "uploads.claims_degraded" "issuer" issuer]
  | _ => []

/-- A request ends with a result and records metrics, whatever was collected before. -/
def Ends (config : Config) (depth : Nat) (now : Number) (request : UploadRequest)
    (result : Except Failure AuthorizedUpload) (metrics : List Metric) : Prop :=
  ∀ t, (decide config depth now t request).result = result
    ∧ (decide config depth now t request).telemetry = t.recordAll metrics

/-- The results that are accounted for, with their metrics. -/
inductive Accounted (config : Config) (depth : Nat) (now : Number) (request : UploadRequest) :
    Except Failure AuthorizedUpload → List Metric → Prop
  | authorized {a : AuthorizedUpload} {client : Metadata} {v : Token.Verification}
      (g : Grant config depth now request a client v) :
      Accounted config depth now request (.ok a) (degradedMetrics v ++ [authorizedMetric a])
  | rejected (e : UploadError) : Accounted config depth now request (.error (.upload e)) [rejectedMetric e]

/-- A request passes the checks before its token: the metadata of the client and the
    address that are found. -/
structure Reaches (config : Config) (request : UploadRequest) (client : Metadata) (remoteIp : Text) : Prop where
  decoded : decode request.metadata? = .ok client
  noRemoteIp : remoteIpKey ∉ OrderedMap.keys client
  noAccount : accountKey ∉ OrderedMap.keys client
  noIssuer : issuerKey ∉ OrderedMap.keys client
  resolved : (ProxyTrust.resolve config.trustedRanges request.peer request.forwarded?).result = .ok remoteIp

def vouchedTexts (remoteIp : Text) (v : Token.Verification) : List Text :=
  remoteIp :: (identityEntries v.identity?).map Prod.snd

/-- What escapes the accounting, with the metrics that are recorded before. -/
inductive Escapes (config : Config) (depth : Nat) (now : Number) (request : UploadRequest) :
    ValueFault → List Metric → Prop
  | tooManyDigits {client : Metadata} {remoteIp : Text} (hreaches : Reaches config request client remoteIp)
      (htoken : Token.IsUnread depth .integerTooLong ((OrderedMap.get? client tokenKey).getD [])) :
      Escapes config depth now request .tooManyDigits []
  | nestedTooDeep {client : Metadata} {remoteIp : Text} (hreaches : Reaches config request client remoteIp)
      (htoken : Token.IsUnread depth .nestedTooDeep ((OrderedMap.get? client tokenKey).getD [])) :
      Escapes config depth now request .nestedTooDeep []
  | unencodable {client : Metadata} {remoteIp : Text} {v : Token.Verification}
      (hreaches : Reaches config request client remoteIp)
      (hverified : Token.verify config.secrets depth now ((OrderedMap.get? client tokenKey).getD []) = .ok v)
      (htext : ∃ text ∈ vouchedTexts remoteIp v, Utf8.HasNoOctets text) :
      Escapes config depth now request .unencodable (degradedMetrics v)

/-! ### The checks before the token -/

theorem Reaches.decide_eq (h : Reaches config request client remoteIp) (depth : Nat) (now : Number)
    (t : Telemetry) :
    decide config depth now t request = checkToken config.secrets depth now t
      (ProxyTrust.resolve config.trustedRanges request.peer request.forwarded?).logs client remoteIp := by
  have hip : ¬ client.has remoteIpKey = true := by
    rw [(OrderedMap.has_eq_false_iff client remoteIpKey).mpr h.noRemoteIp]
    exact Bool.false_ne_true
  simp only [decide, h.decoded, if_neg hip, h.resolved,
    claimedKey?_eq_none_iff.mpr ⟨h.noAccount, h.noIssuer⟩]

/-- **A request is refused before its token is looked at, or reaches it.** -/
theorem decide_cases (config : Config) (request : UploadRequest) :
    (∃ e logs, ∀ depth now t, decide config depth now t request = refuse t logs (.upload e))
      ∨ ∃ client remoteIp, Reaches config request client remoteIp := by
  cases hdecoded : decode request.metadata? with
  | error fault =>
    refine Or.inl ⟨.metadata fault, [], ?_⟩
    intro depth now t
    simp only [decide, hdecoded]
  | ok client =>
    by_cases hip : client.has remoteIpKey = true
    · refine Or.inl ⟨.reservedField remoteIpKey, [], ?_⟩
      intro depth now t
      simp only [decide, hdecoded, if_pos hip]
    · cases hresolved : (ProxyTrust.resolve config.trustedRanges request.peer request.forwarded?).result with
      | error e =>
        refine Or.inl ⟨e, (ProxyTrust.resolve config.trustedRanges request.peer request.forwarded?).logs, ?_⟩
        intro depth now t
        simp only [decide, hdecoded, if_neg hip, hresolved]
      | ok remoteIp =>
        cases hclaimed : claimedKey? client with
        | some key =>
          refine Or.inl ⟨.reservedField key,
            (ProxyTrust.resolve config.trustedRanges request.peer request.forwarded?).logs, ?_⟩
          intro depth now t
          simp only [decide, hdecoded, if_neg hip, hresolved, hclaimed]
        | none =>
          obtain ⟨haccount, hissuer⟩ := claimedKey?_eq_none_iff.mp hclaimed
          have hnoip := (OrderedMap.has_eq_false_iff client remoteIpKey).mp (by simpa using hip)
          exact Or.inr ⟨client, remoteIp, hdecoded, hnoip, haccount, hissuer, hresolved⟩

/-! ### The header -/

theorem Reaches.isWritableKey_of_mem (h : Reaches config request client remoteIp) :
    ∀ e ∈ client, isWritableKey e.1 = true := by
  intro e he
  cases hheader : request.metadata? with
  | none =>
    have hdecoded := h.decoded
    rw [hheader] at hdecoded
    obtain rfl := Except.ok.inj hdecoded
    cases he
  | some header =>
    have hwritable := isWritable_of_decode (hheader ▸ h.decoded)
    exact isWritableKey_of_isWord (hwritable.isWord_key e he) (hwritable.comma_not_mem_key e he)

theorem isWritableKey_of_mem_identityEntries {identity? : Option (Text × Text)} :
    ∀ e ∈ identityEntries identity?, isWritableKey e.1 = true := by
  have hkeys : isWritableKey issuerKey = true ∧ isWritableKey accountKey = true := by decide
  cases identity? with
  | none => exact List.forall_mem_nil _
  | some identity =>
    intro e he
    rcases List.mem_cons.mp he with rfl | he
    · exact hkeys.1
    · obtain rfl := List.mem_singleton.mp he
      exact hkeys.2

/-- The header of a request that reached its token fails just when the server would vouch
    for a text without octets. -/
theorem Reaches.encode_eq_error_iff (h : Reaches config request client remoteIp) {failure : Failure} :
    encode (vouched client remoteIp v.identity?) = .error failure
      ↔ failure = .value .unencodable ∧ ∃ text ∈ vouchedTexts remoteIp v, Utf8.HasNoOctets text := by
  have hkeys : ∀ e ∈ vouched client remoteIp v.identity?, isWritableKey e.1 = true := by
    have hip : isWritableKey remoteIpKey = true := by decide
    rw [vouched, List.forall_mem_append, List.forall_mem_cons]
    exact ⟨h.isWritableKey_of_mem, hip, isWritableKey_of_mem_identityEntries⟩
  have hclient : ∀ e ∈ client, ¬ Utf8.HasNoOctets e.2 := by
    intro e he
    obtain ⟨bytes, hbytes⟩ := (isRead_of_decode h.decoded).exists_bytes e he
    rw [← Utf8.encodeEscaped?_eq_none_iff, hbytes, valueOfBytes, Utf8.encodeEscaped?_decodeEscaped]
    exact Option.some_ne_none bytes
  rw [Metadata.encode_eq_error_iff hkeys]
  refine and_congr_right fun _ => ?_
  constructor
  · rintro ⟨e, he, hnone⟩
    rcases List.mem_append.mp he with he | he
    · exact absurd hnone (hclient e he)
    · exact ⟨e.2, List.mem_map_of_mem (f := Prod.snd) he, hnone⟩
  · rintro ⟨text, htext, hnone⟩
    obtain ⟨e, he, rfl⟩ : ∃ e ∈ (remoteIpKey, remoteIp) :: identityEntries v.identity?, e.2 = text :=
      List.mem_map.mp htext
    exact ⟨e, List.mem_append_right client he, hnone⟩

/-! ### The token and what comes behind -/

theorem countDegraded_eq (t : Telemetry) (v : Token.Verification) :
    countDegraded t v = t.recordAll (degradedMetrics v) := by
  cases v <;> rfl

theorem ends_of_refuse {e : UploadError} {logs : List LogRecord}
    (h : ∀ t, decide config depth now t request = refuse t logs (.upload e)) :
    Ends config depth now request (.error (.upload e)) [rejectedMetric e] := by
  intro t
  rw [h t]
  exact ⟨rfl, rfl⟩

theorem Reaches.ends_of_verify (h : Reaches config request client remoteIp) {e : UploadError}
    (hverify : Token.verify config.secrets depth now ((OrderedMap.get? client tokenKey).getD [])
      = .error (.upload e)) :
    Ends config depth now request (.error (.upload e)) [rejectedMetric e] := by
  apply ends_of_refuse
  intro t
  rw [h.decide_eq, checkToken, hverify]

theorem Reaches.ends_of_encode (h : Reaches config request client remoteIp) {header : Text}
    (hverify : Token.verify config.secrets depth now ((OrderedMap.get? client tokenKey).getD []) = .ok v)
    (hencode : encode (vouched client remoteIp v.identity?) = .ok header) :
    ∃ a, Grant config depth now request a client v
      ∧ Ends config depth now request (.ok a) (degradedMetrics v ++ [authorizedMetric a]) := by
  refine ⟨⟨vouched client remoteIp v.identity?, header, remoteIp, v.identity?.map Prod.fst,
    v.identity?.map Prod.snd⟩, ?_, ?_⟩
  · exact ⟨h.decoded, h.noRemoteIp, h.noAccount, h.noIssuer, h.resolved, hverify, rfl, hencode, rfl, rfl⟩
  · intro t
    rw [h.decide_eq, checkToken, hverify]
    simp only [approve, hencode, true_and]
    rw [Telemetry.recordAll_append, ← countDegraded_eq, authorizedMetric, Option.isSome_map]
    rfl

theorem Reaches.ends_of_overruns (h : Reaches config request client remoteIp) {fault : ValueFault}
    (htoken : Token.Overruns depth ((OrderedMap.get? client tokenKey).getD []) fault) :
    Ends config depth now request (.error (.value fault)) [] := by
  intro t
  rw [h.decide_eq, checkToken, Token.verify_of_overruns htoken]
  exact ⟨rfl, rfl⟩

theorem Reaches.escapes_of_overruns (h : Reaches config request client remoteIp) {fault : ValueFault}
    (htoken : Token.Overruns depth ((OrderedMap.get? client tokenKey).getD []) fault) :
    Escapes config depth now request fault [] := by
  cases htoken with
  | tooManyDigits htoken => exact .tooManyDigits h htoken
  | nestedTooDeep htoken => exact .nestedTooDeep h htoken

theorem ends_of_escapes {fault : ValueFault} {metrics : List Metric}
    (h : Escapes config depth now request fault metrics) :
    Ends config depth now request (.error (.value fault)) metrics := by
  cases h with
  | tooManyDigits hreaches htoken => exact hreaches.ends_of_overruns (.tooManyDigits htoken)
  | nestedTooDeep hreaches htoken => exact hreaches.ends_of_overruns (.nestedTooDeep htoken)
  | unencodable hreaches hverified htext =>
    intro t
    rw [hreaches.decide_eq, checkToken, hverified]
    simp only [approve, hreaches.encode_eq_error_iff.mpr ⟨rfl, htext⟩, ← countDegraded_eq]
    exact ⟨rfl, rfl⟩

/-- **Every request is accounted for or escapes.** -/
theorem accounted_or_escapes (config : Config) (depth : Nat) (now : Number) (request : UploadRequest) :
    (∃ result metrics, Ends config depth now request result metrics
        ∧ Accounted config depth now request result metrics)
      ∨ ∃ fault metrics, Escapes config depth now request fault metrics := by
  rcases decide_cases config request with ⟨e, logs, hrefused⟩ | ⟨client, remoteIp, h⟩
  · exact Or.inl ⟨_, _, ends_of_refuse (hrefused depth now), .rejected e⟩
  · cases hverify : Token.verify config.secrets depth now ((OrderedMap.get? client tokenKey).getD []) with
    | error failure =>
      rcases Token.verify_eq_error hverify with ⟨e, rfl⟩ | ⟨fault, rfl, htoken⟩
      · exact Or.inl ⟨_, _, h.ends_of_verify hverify, .rejected e⟩
      · exact Or.inr ⟨_, _, h.escapes_of_overruns htoken⟩
    | ok v =>
      cases hencode : encode (vouched client remoteIp v.identity?) with
      | error failure => exact Or.inr ⟨_, _, .unencodable h hverify (h.encode_eq_error_iff.mp hencode).2⟩
      | ok header =>
        obtain ⟨a, g, hends⟩ := h.ends_of_encode hverify hencode
        exact Or.inl ⟨_, _, hends, .authorized g⟩

theorem not_accounted_of_escapes {fault : ValueFault} {metrics : List Metric}
    (h : Escapes config depth now request fault metrics) :
    ¬ ∃ result metrics, Ends config depth now request result metrics
      ∧ Accounted config depth now request result metrics := by
  rintro ⟨result, metrics', hends, haccounted⟩
  have hresult : result = .error (.value fault) :=
    (hends noTelemetry).1.symm.trans (ends_of_escapes h noTelemetry).1
  subst hresult
  cases haccounted

/-! ### Requests with a token alone -/

def tokenRequest (token : Text) : UploadRequest where
  metadata? := some (tokenKey ++ .ofChar ' ' :: Base64.encode (token.flatMap Utf8.octets))
  peer := Text.of "192.0.2.1:1"
  forwarded? := none

theorem decode_tokenRequest {token : Text} (hne : token ≠ []) (hplain : token.any CodePoint.isSurrogate = false) :
    decode (tokenRequest token).metadata? = .ok [(tokenKey, token)] := by
  have hkey : isWritableKey tokenKey = true := by decide
  have hentry : writeEntry (tokenKey, token)
      = .ok (tokenKey ++ .ofChar ' ' :: Base64.encode (token.flatMap Utf8.octets)) := by
    simp [writeEntry, hkey, hne, valueToBytes, Utf8.encodeEscaped?_of_not_isSurrogate hplain, Except.map]
  have hencode : encode [(tokenKey, token)]
      = .ok (tokenKey ++ .ofChar ' ' :: Base64.encode (token.flatMap Utf8.octets)) := by
    rw [encode, List.mapM_cons, hentry]
    rfl
  have hread : rereadAll [(tokenKey, token)] = [(tokenKey, token)] := by
    apply rereadAll_eq_self
    intro e he
    obtain rfl := List.mem_singleton.mp he
    exact reread_of_not_isSurrogate hplain
  have hkeys : (OrderedMap.keys [(tokenKey, token)]).Nodup := by simp [OrderedMap.keys]
  show decode (some _) = _
  rw [decode_of_encode hencode hkeys, hread]

theorem reaches_tokenRequest {token : Text} (hne : token ≠ []) (hplain : token.any CodePoint.isSurrogate = false) :
    Reaches {} (tokenRequest token) [(tokenKey, token)] (Text.of "192.0.2.1") := by
  have hkeys : ∀ k ∈ [remoteIpKey, accountKey, issuerKey], k ∉ [tokenKey] := by decide
  have hpeer : (ProxyTrust.resolve [] (Text.of "192.0.2.1:1") none).result = .ok (Text.of "192.0.2.1") :=
    rfl
  exact ⟨decode_tokenRequest hne hplain, hkeys _ (by simp), hkeys _ (by simp), hkeys _ (by simp), hpeer⟩

theorem tokenRequest_escapes {b : UInt8} {groups : Nat} {fault : ValueFault}
    (h : Token.Overruns depth (Token.repeatedToken b groups) fault) :
    Escapes {} depth now (tokenRequest (Token.repeatedToken b groups)) fault [] := by
  have hne : Token.repeatedToken b groups ≠ [] :=
    List.append_ne_nil_of_right_ne_nil _ (List.cons_ne_nil _ _)
  exact (reaches_tokenRequest hne (Token.any_isSurrogate_repeatedToken b groups)).escapes_of_overruns h

/-- However deep the stack is, anyone can make a token that is nested deeper. -/
theorem nestedToken_escapes (depth : Nat) (now : Number) :
    Escapes {} depth now (tokenRequest (Token.nestedToken (depth + 1))) .nestedTooDeep [] :=
  tokenRequest_escapes (.nestedTooDeep (Token.isUnread_nestedToken (by omega)))

/-! ### Requests that are accounted for -/

/-- **Which requests are accounted for.**  A request that does not escape is let through
    with one authorized metric, which says whether an account was asserted and has a
    degraded metric before it just when the issuer of the token is not configured; or it
    is refused with one rejected metric, which says the reason.  A request that escapes,
    by a token with a number too long or a nesting too deep or by a text without octets,
    ends in a failure that is no refusal, and is counted neither as authorized nor as
    rejected. -/
theorem accounted_iff (config : Config) (depth : Nat) (now : Number) (request : UploadRequest) :
    ((∃ result metrics, Ends config depth now request result metrics
          ∧ Accounted config depth now request result metrics)
        ↔ ∀ fault metrics, ¬ Escapes config depth now request fault metrics)
      ∧ ∀ fault metrics, Escapes config depth now request fault metrics →
        Ends config depth now request (.error (.value fault)) metrics := by
  refine ⟨?_, fun _ _ => ends_of_escapes⟩
  constructor
  · intro haccounted fault metrics hescapes
    exact not_accounted_of_escapes hescapes haccounted
  · intro hno
    rcases accounted_or_escapes config depth now request with haccounted | ⟨fault, metrics, hescapes⟩
    · exact haccounted
    · exact absurd hescapes (hno fault metrics)

theorem accounted_iff_nestedToken :
    Escapes {} 900 (.integer 0) (tokenRequest (Token.nestedToken 901)) .nestedTooDeep []
      ∧ Ends {} 900 (.integer 0) (tokenRequest (Token.nestedToken 901)) (.error (.value .nestedTooDeep)) [] :=
  have hescapes := nestedToken_escapes 900 (.integer 0)
  ⟨hescapes, (accounted_iff {} 900 (.integer 0) _).2 _ _ hescapes⟩

/-- A token with a long number, which needs no key, makes a request escape. -/
theorem not_accounted_numeralToken :
    (¬ ∃ result metrics, Ends {} 900 (.integer 0) (tokenRequest (Token.numeralToken 1434)) result metrics
        ∧ Accounted {} 900 (.integer 0) (tokenRequest (Token.numeralToken 1434)) result metrics)
      ∧ Ends {} 900 (.integer 0) (tokenRequest (Token.numeralToken 1434))
          (.error (.value .tooManyDigits)) [] := by
  have hescapes : Escapes {} 900 (.integer 0) (tokenRequest (Token.numeralToken 1434)) .tooManyDigits [] :=
    tokenRequest_escapes (.tooManyDigits (Token.isUnread_numeralToken (by decide)))
  exact ⟨not_accounted_of_escapes hescapes, ends_of_escapes hescapes⟩

end Authorization

end UploadGate
