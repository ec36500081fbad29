/-
  UploadGate/Proofs/Http/Client.lean
  ==================================
  **The client at the other end of a connection, and the address of its uploads.**

  The address of a client is put together from its host and its port and taken
  apart again by the trust checks.  Where the host holds no bracket these are the
  same two parts, so the checks never stop at the address (`KnowsPeer`), and no
  other part of the server looks at it.  Without a forwarding header the host is
  the address that an upload is recorded with.
-/
import UploadGate.Proofs.Authorization.Vouching
import UploadGate.Proofs.Engine.Memory
import UploadGate.Proofs.Http.Answer
import UploadGate.Proofs.Peer

namespace UploadGate

/-! ### Answers that do not turn on the address of the peer -/

/-- Whether an operation failed because the address of the peer cannot be read. -/
def Failure.isOfPeer : Failure → Bool
  | .upload (.address _ _) => true
  | _ => false

/-- An answer does not say that the address of the peer cannot be read. -/
def KnowsPeer {α : Type} (answer : Except Failure α) : Prop :=
  ∀ fault given, answer ≠ .error (.upload (.address fault given))

namespace KnowsPeer

variable {α β : Type}

theorem ok (a : α) : KnowsPeer (.ok a) := by
  intro fault given h
  cases h

/-- A failure that has another cause. -/
theorem error {failure : Failure} (h : failure.isOfPeer = false) :
    KnowsPeer (.error failure : Except Failure α) := by
  intro fault given hfailure
  obtain rfl := Except.error.inj hfailure
  cases h

theorem of_error {x : Except Failure α} (h : KnowsPeer x) {failure : Failure} (hx : x = .error failure) :
    KnowsPeer (.error failure : Except Failure β) := by
  intro fault given hfailure
  apply h fault given
  rw [hx, Except.error.inj hfailure]

theorem bind {x : Except Failure α} {f : α → Except Failure β} (hx : KnowsPeer x)
    (hf : ∀ a, KnowsPeer (f a)) : KnowsPeer (x >>= f) := by
  intro fault given h
  rcases bind_eq_error_iff.mp h with hfailed | ⟨a, -, hfailed⟩
  · exact hx fault given hfailed
  · exact hf a fault given hfailed

theorem map {x : Except Failure α} (hx : KnowsPeer x) (f : α → β) : KnowsPeer (x.map f) := by
  intro fault given h
  exact hx fault given (map_eq_error_iff.mp h)

theorem mapError {x : Except UploadError α} (hx : ∀ fault given, x ≠ .error (.address fault given)) :
    KnowsPeer (x.mapError Failure.upload) := by
  intro fault given h
  obtain ⟨e, hfailed, he⟩ := mapError_eq_error_iff.mp h
  apply hx fault given
  rw [hfailed, Failure.upload.inj he]

end KnowsPeer

/-! ### The trust checks -/

namespace Token

theorem knowsPeer_failureOf {α : Type} (part : TokenPart) (error : Json.ReadError) :
    KnowsPeer (.error (failureOf part error) : Except Failure α) := by
  cases error with
  | malformed => exact KnowsPeer.error rfl
  | integerTooLong => exact KnowsPeer.error rfl
  | nestedTooDeep => exact KnowsPeer.error rfl

theorem knowsPeer_readObject (depth : Nat) (part : TokenPart) (segment : Text) :
    KnowsPeer (readObject depth part segment) := by
  unfold readObject
  split
  · exact KnowsPeer.error rfl
  · split
    · exact knowsPeer_failureOf part _
    · split
      · exact KnowsPeer.ok _
      · exact KnowsPeer.error rfl

theorem verifySigned_ne_address (segments : Segments) (hash : HashFunction) (payload : Claims) (issuer : Text)
    (key : Bytes) (now : Number) (fault : AddressFault) (given : Text) :
    verifySigned segments hash payload issuer key now ≠ .error (.address fault given) := by
  intro h
  unfold verifySigned at h
  split at h
  · cases h
  · rcases bind_eq_error_iff.mp h with hread | ⟨times, -, h⟩
    · unfold TimeClaims.read at hread
      split at hread
      · cases hread
      · cases hread
    · rcases bind_eq_error_iff.mp h with hcheck | ⟨u, -, h⟩
      · unfold TimeClaims.check at hcheck
        split at hcheck
        · cases hcheck
        · split at hcheck
          · cases hcheck
          · cases hcheck
      · cases h

theorem parse_ne_address (token : Text) (fault : AddressFault) (given : Text) :
    Segments.parse token ≠ .error (.address fault given) := by
  unfold Segments.parse
  split
  · exact nofun
  · exact nofun

theorem issuerOf_ne_address (payload : Claims) (fault : AddressFault) (given : Text) :
    issuerOf payload ≠ .error (.address fault given) := by
  unfold issuerOf
  split
  · exact nofun
  · exact nofun
  · exact nofun

theorem knowsPeer_verify (registry : Registry) (depth : Nat) (now : Number) (token : Text) :
    KnowsPeer (verify registry depth now token) := by
  unfold verify
  split
  · exact KnowsPeer.ok _
  · apply KnowsPeer.bind
    · exact KnowsPeer.mapError (parse_ne_address token)
    · intro segments
      apply KnowsPeer.bind
      · exact knowsPeer_readObject depth .header segments.header
      · intro header
        split
        · exact KnowsPeer.error rfl
        · apply KnowsPeer.bind
          · exact knowsPeer_readObject depth .payload segments.payload
          · intro payload
            apply KnowsPeer.bind
            · exact KnowsPeer.mapError (issuerOf_ne_address payload)
            · intro issuer
              split
              · exact KnowsPeer.ok _
              · exact KnowsPeer.mapError (verifySigned_ne_address segments _ payload issuer _ now)

end Token

namespace Metadata

theorem knowsPeer_writeEntry (e : Text × Text) : KnowsPeer (writeEntry e) := by
  unfold writeEntry
  split
  · exact KnowsPeer.error rfl
  · split
    · exact KnowsPeer.ok _
    · apply KnowsPeer.map
      unfold valueToBytes
      split
      · exact KnowsPeer.ok _
      · exact KnowsPeer.error rfl

theorem knowsPeer_encode (m : Metadata) : KnowsPeer (encode m) := by
  apply KnowsPeer.map
  induction m with
  | nil => exact KnowsPeer.ok []
  | cons e m ih =>
    rw [List.mapM_cons]
    apply KnowsPeer.bind
    · exact knowsPeer_writeEntry e
    · intro entry
      apply KnowsPeer.bind
      · exact ih
      · exact fun entries => KnowsPeer.ok (entry :: entries)

end Metadata

/-- An upload that was let through is vouched to come from an address: the answer, the
    metadata and, octet for octet, the header name it. -/
structure AuthorizedUpload.ComesFrom (a : AuthorizedUpload) (ip : Text) : Prop where
  remoteIp : a.remoteIp = ip
  metadata : OrderedMap.get? a.metadata Metadata.remoteIpKey = some ip
  header : ∃ m, Metadata.decode (some a.header) = .ok m
    ∧ (OrderedMap.get? m Metadata.remoteIpKey).map Metadata.valueToBytes = some (Metadata.valueToBytes ip)

namespace Authorization

variable {request : UploadRequest} {hp : HostPort} {peer : Text}

theorem result_resolve_ne_address (hparse : HostPort.parse peer = .ok hp) (ranges : List Network)
    (forwarded? : Option Text) (fault : AddressFault) (given : Text) :
    (ProxyTrust.resolve ranges peer forwarded?).result ≠ .error (.address fault given) := by
  simp only [ProxyTrust.resolve, hparse]
  split
  · exact nofun
  · exact nofun
  · split
    · exact nofun
    · split
      · exact nofun
      · exact nofun

/-- A peer whose address can be read is refused for other reasons only. -/
theorem knowsPeer_decide (hparse : HostPort.parse request.peer = .ok hp) (config : Config) (depth : Nat)
    (now : Number) (t : Telemetry) : KnowsPeer (decide config depth now t request).result := by
  unfold decide
  split
  · exact KnowsPeer.error rfl
  · rename_i client hclient
    split
    · exact KnowsPeer.error rfl
    · dsimp only
      split
      · rename_i e hresolved
        intro fault given h
        rw [result_refuse] at h
        apply result_resolve_ne_address hparse config.trustedRanges request.forwarded? fault given
        rw [hresolved, Failure.upload.inj (Except.error.inj h)]
      · rename_i remoteIp hresolved
        split
        · exact KnowsPeer.error rfl
        · unfold checkToken
          split
          · rename_i failure hverify
            rw [result_refuse]
            exact (Token.knowsPeer_verify _ _ _ _).of_error hverify
          · rename_i v hverify
            unfold approve
            dsimp only
            split
            · rename_i failure hencode
              rw [result_refuse]
              exact (Metadata.knowsPeer_encode _).of_error hencode
            · exact KnowsPeer.ok _

theorem result_resolve_unforwarded (hparse : HostPort.parse peer = .ok hp) (ranges : List Network)
    {forwarded? : Option Text} (h : forwarded? = none ∨ forwarded? = some []) :
    (ProxyTrust.resolve ranges peer forwarded?).result = .ok hp.host := by
  rcases h with rfl | rfl
  · simp only [ProxyTrust.resolve, hparse]
  · simp only [ProxyTrust.resolve, hparse]

theorem comesFrom_of_decide {config : Config} {depth : Nat} {now : Number} {t : Telemetry}
    {a : AuthorizedUpload} {ip : Text}
    (hresolved : (ProxyTrust.resolve config.trustedRanges request.peer request.forwarded?).result = .ok ip)
    (h : (decide config depth now t request).result = .ok a) : a.ComesFrom ip := by
  obtain ⟨client, v, g⟩ := grant_of_decide h
  obtain rfl : a.remoteIp = ip := Except.ok.inj (g.resolved.symm.trans hresolved)
  refine ⟨rfl, g.get?_remoteIpKey, Metadata.rereadAll a.metadata, g.decode_header, ?_⟩
  rw [Metadata.get?_rereadAll, g.get?_remoteIpKey]
  exact congrArg some (Metadata.valueToBytes_reread a.remoteIp)

end Authorization

/-! ### The engine -/

namespace Engine

variable {α β : Type}

theorem Reply.knowsPeer_andThen {r : Reply α} {next : α → Engine → Reply β} (hr : KnowsPeer r.answer)
    (hnext : ∀ a e, KnowsPeer (next a e).answer) : KnowsPeer (r.andThen next).answer := by
  cases hanswer : r.answer with
  | error failure =>
    rw [(Reply.andThen_of_error hanswer next).1]
    exact hr.of_error hanswer
  | ok a =>
    rw [(Reply.andThen_of_ok hanswer next).1]
    exact hnext a r.engine

theorem knowsPeer_publish (e : Engine) (kind : EventKind) (info : UploadInfo) :
    KnowsPeer (e.publish kind info).answer := by
  unfold publish
  split
  · exact KnowsPeer.ok ()
  · exact KnowsPeer.error rfl

theorem knowsPeer_evict (retained : Int) (e : Engine) : KnowsPeer (evict retained e).answer := by
  unfold evict
  dsimp only
  split
  · exact KnowsPeer.error rfl
  · exact KnowsPeer.ok ()

theorem knowsPeer_completeIfDone (config : Config) (e : Engine) (info : UploadInfo) :
    KnowsPeer (e.completeIfDone config info).answer := by
  unfold completeIfDone
  split
  · apply Reply.knowsPeer_andThen
    · apply Reply.knowsPeer_andThen
      · exact knowsPeer_publish _ .completed info
      · exact fun _ _ => knowsPeer_evict _ _
    · exact fun _ _ => KnowsPeer.ok info
  · exact KnowsPeer.ok info

theorem knowsPeer_register (config : Config) (e : Engine) (info : UploadInfo) :
    KnowsPeer (e.register config info).answer := by
  apply Reply.knowsPeer_andThen
  · exact knowsPeer_publish _ .created info
  · exact fun _ e => knowsPeer_completeIfDone config e info

theorem knowsPeer_enroll (config : Config) (e : Engine) (id : Text) (header? : Option Text) (length : Int)
    (createdAt : Timestamp) : KnowsPeer (e.enroll config id header? length createdAt).answer := by
  have hrow : KnowsPeer (e.store.create id length.toNat createdAt) := by
    apply KnowsPeer.bind
    · unfold Store.require
      split
      · exact KnowsPeer.error rfl
      · split
        · exact KnowsPeer.ok ()
        · exact KnowsPeer.error rfl
    · intro u
      split
      · exact KnowsPeer.error rfl
      · split
        · exact KnowsPeer.error rfl
        · exact KnowsPeer.ok _
  unfold enroll
  split
  · rename_i error hlength
    unfold checkLength at hlength
    split at hlength
    · cases hlength
      exact KnowsPeer.error rfl
    · split at hlength
      · cases hlength
        exact KnowsPeer.error rfl
      · cases hlength
  · unfold insertRow
    dsimp only
    split
    · exact KnowsPeer.error rfl
    · split
      · rename_i failure hfailed
        exact hrow.of_error hfailed
      · exact KnowsPeer.ok _

theorem knowsPeer_info (e : Engine) (id : Text) : KnowsPeer (e.info id).answer := by
  unfold info find
  cases e.uploads.get? id with
  | none => exact KnowsPeer.error rfl
  | some info => exact KnowsPeer.ok info

theorem knowsPeer_write (config : Config) (e : Engine) (id : Text) (offset : Int) (data : Bytes) :
    KnowsPeer (e.write config id offset data).answer := by
  apply Reply.knowsPeer_andThen
  · exact knowsPeer_info e id
  · intro info e
    split
    · exact KnowsPeer.error rfl
    · split
      · exact KnowsPeer.error rfl
      · split
        · exact KnowsPeer.ok info
        · apply Reply.knowsPeer_andThen
          · apply Reply.knowsPeer_andThen
            · exact knowsPeer_publish _ .progress _
            · exact fun _ _ => KnowsPeer.ok _
          · exact fun info e => knowsPeer_completeIfDone config e info

theorem knowsPeer_terminate (e : Engine) (id : Text) : KnowsPeer (e.terminate id).answer := by
  apply Reply.knowsPeer_andThen
  · exact knowsPeer_info e id
  · intro info e
    apply Reply.knowsPeer_andThen
    · exact knowsPeer_publish _ .terminated info
    · exact fun _ _ => KnowsPeer.ok info

theorem knowsPeer_read (e : Engine) (id : Text) : KnowsPeer (e.read id).answer := by
  apply Reply.knowsPeer_andThen
  · exact knowsPeer_info e id
  · exact fun _ _ => KnowsPeer.ok _

end Engine

/-! ### The endpoints -/

namespace Http

theorem Response.knowsPeer_ofDetail (status : Nat) (detail : Json) (headers : Headers) :
    KnowsPeer (ofDetail status detail headers) := by
  unfold ofDetail
  split
  · exact KnowsPeer.error rfl
  · exact KnowsPeer.ok _

theorem Response.knowsPeer_checked (response : Response) : KnowsPeer (checked response) := by
  unfold checked
  split
  · exact KnowsPeer.ok response
  · exact KnowsPeer.error rfl

namespace Service

variable {s : Service} {request : Request} {hp : HostPort}

theorem knowsPeer_numberHeader {name : Text} {e : UploadError} (h : numberHeader request name = .error e) :
    KnowsPeer (.error (.upload e) : Except Failure Response) := by
  unfold numberHeader at h
  split at h
  · cases h
    exact KnowsPeer.error rfl
  · split at h
    · cases h
      exact KnowsPeer.error rfl
    · split at h
      · cases h
        exact KnowsPeer.error rfl
      · cases h

theorem knowsPeer_mapError_value {α : Type} (x : Except ValueFault α) :
    KnowsPeer (x.mapError Failure.value) := by
  intro fault given h
  obtain ⟨e, -, he⟩ := mapError_eq_error_iff.mp h
  cases he

theorem knowsPeer_created (f : Framework) (m : Mount) (url : RequestUrl) (info : UploadInfo) :
    KnowsPeer (created f m url info) := by
  apply KnowsPeer.bind
  · exact knowsPeer_mapError_value _
  · intro path
    apply KnowsPeer.bind
    · exact knowsPeer_mapError_value _
    · exact fun location => Response.knowsPeer_checked _

theorem knowsPeer_described (info : UploadInfo) : KnowsPeer (described info) := by
  apply KnowsPeer.bind
  · unfold metadataHeaders
    split
    · exact KnowsPeer.ok []
    · apply KnowsPeer.map
      exact Metadata.knowsPeer_encode info.metadata
  · exact fun headers => Response.knowsPeer_checked _

/-- The second half of a creation begins only when the first has not failed. -/
theorem knowsPeer_create (hparse : HostPort.parse (Client.address request.client?) = .ok hp) (now : Moment) :
    KnowsPeer (s.create now request).answer := by
  unfold create
  split
  · rename_i e hlength
    exact knowsPeer_numberHeader hlength
  · rename_i length hlength
    apply KnowsPeer.bind
    · unfold Deployment.create
      dsimp only
      split
      · rename_i failure hbegun
        unfold Deployment.enroll at hbegun
        dsimp only at hbegun
        split at hbegun
        · rename_i failure' hdecided
          obtain rfl := Except.error.inj hbegun
          exact (Authorization.knowsPeer_decide hparse _ _ _ _).of_error hdecided
        · have hfailed := map_eq_error_iff.mp hbegun
          exact (Engine.knowsPeer_enroll _ _ _ _ _ _).of_error hfailed
      · exact Engine.knowsPeer_register _ _ _
    · exact fun info => knowsPeer_created _ _ _ info

/-- **No endpoint fails for the address of a client** that can be read. -/
theorem knowsPeer_run (hparse : HostPort.parse (Client.address request.client?) = .ok hp) (now : Moment)
    (id : Text) (r : Route) : KnowsPeer (s.run now request id r).answer := by
  have hother : KnowsPeer (if s.mount.hidesParameter then
      outcome s.deployment (Response.ofDetail 422 missingId []) else runOn s.deployment request id r).answer := by
    split
    · exact Response.knowsPeer_ofDetail 422 missingId []
    · unfold runOn
      split
      · apply KnowsPeer.bind
        · exact Engine.knowsPeer_info _ id
        · exact fun info => knowsPeer_described info
      · unfold patch
        split
        · rename_i e hoffset
          exact knowsPeer_numberHeader hoffset
        · apply KnowsPeer.bind
          · exact Engine.knowsPeer_write _ _ id _ _
          · exact fun info => KnowsPeer.ok _
      · apply KnowsPeer.bind
        · exact Engine.knowsPeer_terminate _ id
        · exact fun info => KnowsPeer.ok _
      · apply KnowsPeer.bind
        · exact Engine.knowsPeer_read _ id
        · exact fun data => KnowsPeer.ok _
  cases r with
  | create => exact knowsPeer_create hparse now
  | createSlash => exact knowsPeer_create hparse now
  | head => exact hother
  | patch => exact hother
  | delete => exact hother
  | get => exact hother
  | getNamed => exact hother

/-- **The host of a client is kept as it is.**  The address of a client whose host holds no
    bracket is cut into that host and the decimal text of the port.  So no request of the
    client fails because its address cannot be read, neither in the trust checks, whatever
    they are configured with and whatever else the request brings, nor at any endpoint; and
    without a forwarding header the host itself is vouched for. -/
theorem host_of_client_kept (client : Client) (hhost : HostPort.IsUnbracketed client.host) :
    HostPort.parse (Client.address (some client)) = .ok ⟨client.host, Text.ofInt client.port⟩
      ∧ (∀ (config : Config) (depth : Nat) (now : Number) (t : Telemetry) (request : UploadRequest),
        request.peer = Client.address (some client) →
          KnowsPeer (Authorization.decide config depth now t request).result
          ∧ (request.forwarded? = none ∨ request.forwarded? = some [] →
            (ProxyTrust.resolve config.trustedRanges request.peer request.forwarded?).result = .ok client.host
            ∧ ∀ a, (Authorization.decide config depth now t request).result = .ok a → a.ComesFrom client.host))
      ∧ ∀ (s : Service) (now : Moment) (request : Request), request.client? = some client →
          (∀ id r, KnowsPeer (s.run now request id r).answer)
          ∧ (header? request forwardedFor = none →
            ∀ a, (s.deployment.authorize now (uploadRequest request)).answer = .ok a →
              a.ComesFrom client.host) := by
  have hparse : HostPort.parse (Client.address (some client)) = .ok ⟨client.host, Text.ofInt client.port⟩ := by
    apply HostPort.parse_eq_ok_iff_writes.mpr
    apply Or.inl
    exact HostPort.writes_text hhost (HostPort.isBare_ofInt client.port)
  refine ⟨hparse, ?_, ?_⟩
  · intro config depth now t request hpeer
    rw [← hpeer] at hparse
    refine ⟨Authorization.knowsPeer_decide hparse config depth now t, ?_⟩
    intro hforwarded
    have hresolved := Authorization.result_resolve_unforwarded hparse config.trustedRanges hforwarded
    exact ⟨hresolved, fun a ha => Authorization.comesFrom_of_decide hresolved ha⟩
  · intro s now request hclient
    rw [← hclient] at hparse
    refine ⟨knowsPeer_run hparse now, ?_⟩
    intro hforwarded a ha
    have hresolved := Authorization.result_resolve_unforwarded hparse s.deployment.config.trustedRanges
      (Or.inl hforwarded)
    exact Authorization.comesFrom_of_decide hresolved ha

/-- A request for an upload by a client on this link, whose address has a scope. -/
def linkCreation : Request :=
  { creationAt (Text.of "/files") with client? := some ⟨Text.of "fe80::1%eth0", 40000⟩ }

theorem host_of_client_kept_link :
    HostPort.parse (Text.of "[fe80::1%eth0]:40000") = .ok ⟨Text.of "fe80::1%eth0", Text.of "40000"⟩
      ∧ ∃ a, ((runningAt (Text.of "/files")).deployment.authorize newYear (uploadRequest linkCreation)).answer
          = .ok a ∧ a.ComesFrom (Text.of "fe80::1%eth0") := by
  have hhost : HostPort.IsUnbracketed (Text.of "fe80::1%eth0") := ⟨by decide, by decide⟩
  obtain ⟨hparse, -, hserver⟩ := host_of_client_kept ⟨Text.of "fe80::1%eth0", 40000⟩ hhost
  obtain ⟨a, ha⟩ : ∃ a, ((runningAt (Text.of "/files")).deployment.authorize newYear
      (uploadRequest linkCreation)).answer = .ok a := ⟨_, rfl⟩
  obtain ⟨-, hunforwarded⟩ := hserver (runningAt (Text.of "/files")) newYear linkCreation rfl
  exact ⟨hparse, a, ha, hunforwarded (by decide) a ha⟩

end Service

end Http

end UploadGate
