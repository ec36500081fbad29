/-
  UploadGate/Proofs/Http/Replay.lean
  ==================================
  **The header of an upload is of no use as the metadata of another.**

  The header that the checks write names the address of the client.  A header that names
  an address is refused before the peer or the token is looked at, so whoever sends such
  a header again, however its entries are spaced, is refused on any server at any time.
  The heads of uploads tell no other headers: an upload in memory has the metadata of a
  creation that was let through (`IsVouched`), which every action keeps.
-/
import UploadGate.Proofs.Http.Description
import UploadGate.Proofs.Metadata.Respacing

namespace UploadGate

/-! ### Headers that name an address -/

namespace Authorization

open Metadata

variable {config : Config} {depth : Nat} {now : Number} {telemetry : Telemetry} {request : UploadRequest}
  {a : AuthorizedUpload} {client : Metadata} {v : Token.Verification}

/-- A header is refused for the address that it names, in any spacing of its entries, from any
    peer, and whatever the server is configured with. -/
def IsBarred (header : Text) : Prop :=
  ∀ variant, IsRespaced header variant → ∀ config depth now telemetry peer forwarded?,
    decide config depth now telemetry ⟨some variant, peer, forwarded?⟩
      = refuse telemetry [] (.upload (.reservedField remoteIpKey))

/-- An address in the header is seen before anything else. -/
theorem decide_of_remoteIp (hdecoded : decode request.metadata? = .ok client)
    (hip : remoteIpKey ∈ OrderedMap.keys client) :
    decide config depth now telemetry request = refuse telemetry [] (.upload (.reservedField remoteIpKey)) := by
  have hhas : client.has remoteIpKey = true := by
    rw [← Bool.not_eq_false, OrderedMap.has_eq_false_iff]
    exact not_not_intro hip
  simp only [decide, hdecoded, if_pos hhas]

theorem Grant.isBarred (g : Grant config depth now request a client v) : IsBarred a.header := by
  intro variant hvariant config' depth' now' telemetry' peer forwarded?
  have hdecoded : decode (some variant) = .ok (rereadAll a.metadata) :=
    (decode_respaced hvariant).trans g.decode_header
  apply decide_of_remoteIp hdecoded
  rw [keys_rereadAll]
  exact OrderedMap.mem_keys_iff.mpr ⟨_, g.get?_remoteIpKey⟩

end Authorization

namespace Http

open Authorization (IsBarred)

theorem Post.IsGenuine.isBarred {post : Post} {config : Config} (h : post.IsGenuine config) :
    IsBarred post.authorized.header := by
  obtain ⟨client, v, g, -⟩ := h.exists_grant
  exact g.isBarred

/-! ### Whose metadata is in memory -/

namespace Service

variable {s : Service} {now : Moment} {request : Request} {id : Text} {info' : UploadInfo}

/-- **A request that is no creation** finds the uploads in memory that it leaves there, and at
    most adds a chunk to one. -/
theorem exists_grown_of_answer
    (hids : ∀ id info, s.deployment.engine.uploads.get? id = some info → info.id = id)
    (hopen : s.deployment.engine.broadcaster.isClosed = false)
    (hother : ∀ r id, Route.find s.mount request.method request.path = .endpoint r id →
      ¬ (r = .create ∨ r = .createSlash))
    (hget : (s.answer now request).deployment.engine.uploads.get? id = some info') :
    ∃ chunks info, s.deployment.engine.Grown (s.answer now request).deployment.engine chunks id info info' := by
  have hkept : (s.answer now request).deployment = s.deployment →
      ∃ chunks info, s.deployment.engine.Grown (s.answer now request).deployment.engine chunks id info info' := by
    intro hsame
    exact ⟨[], info', .of_memory_eq (by rw [hsame]) hget⟩
  cases hfind : Route.find s.mount request.method request.path with
  | endpoint r owner =>
    have hcreation := hother r owner hfind
    have hdeployment := deployment_answer now hfind
    cases hhidden : s.mount.hidesParameter with
    | true =>
      apply hkept
      rw [hdeployment, run_of_hidden hhidden hcreation]
      rfl
    | false =>
      rw [run_of_visible hhidden hcreation] at hdeployment
      cases r with
      | create => exact absurd (Or.inl rfl) hcreation
      | createSlash => exact absurd (Or.inr rfl) hcreation
      | head => exact hkept hdeployment
      | get => exact hkept (hdeployment.trans (deployment_get _ owner))
      | getNamed => exact hkept (hdeployment.trans (deployment_get _ owner))
      | delete =>
        rw [hdeployment] at hget ⊢
        exact ⟨[], info', Engine.terminate_grown hget⟩
      | patch =>
        rw [runOn, patch] at hdeployment
        cases hoffset : numberHeader request uploadOffset with
        | error e =>
          rw [hoffset] at hdeployment
          exact hkept hdeployment
        | ok offset =>
          rw [hoffset] at hdeployment
          rw [hdeployment] at hget ⊢
          exact ⟨_, Engine.write_grown hids hopen hget⟩
  | _ =>
    apply hkept
    apply deployment_answer_of_no_endpoint
    intro r id hfound
    cases hfind.symm.trans hfound

end Service

namespace Traffic

variable {t t' : Traffic} {config : Config} {mount : Mount} {now : Moment} {request : Request}

/-- Every upload in memory has the metadata of a creation that was let through. -/
def IsVouched (config : Config) (t : Traffic) : Prop :=
  ∀ id info, t.uploads.get? id = some info →
    ∃ post : Post, post.IsGenuine config ∧ info.metadata = post.info.metadata

namespace IsVouched

theorem of_grown (h : t.IsVouched config)
    (hgrown : ∀ id info', t'.uploads.get? id = some info' → ∃ chunks info,
      t.service.deployment.engine.Grown t'.service.deployment.engine chunks id info info') :
    t'.IsVouched config := by
  intro id info' hinfo'
  obtain ⟨chunks, info, hinfo⟩ := hgrown id info' hinfo'
  obtain ⟨post, hgenuine, hmetadata⟩ := h id info hinfo.before
  rw [hinfo.info_eq]
  exact ⟨post, hgenuine, hmetadata⟩

theorem of_memory_eq (h : t.IsVouched config)
    (hmemory : t'.service.deployment.engine.memory = t.service.deployment.engine.memory) :
    t'.IsVouched config := by
  apply h.of_grown
  intro id info' hinfo'
  exact ⟨[], info', .of_memory_eq hmemory hinfo'⟩

theorem enroll (h : t.IsVouched config) (now : Moment) (request : Request) :
    (t.step (.enroll now request)).IsVouched config := by
  obtain ⟨engine, hdeployment, hmemory, -⟩ := t.service.enroll_cases now request
  apply h.of_memory_eq
  have hstep : (t.step (.enroll now request)).service.deployment = (t.service.enroll now request).deployment := rfl
  rw [hstep, hdeployment]
  exact hmemory

/-- A creation that goes on brings metadata that was let through. -/
theorem register (h : t.IsVouched config) (hsound : t.IsSound config mount) (i : Nat) :
    (t.step (.register i)).IsVouched config := by
  cases hi : t.suspended[i]? with
  | none =>
    rw [step_register_of_none hi]
    exact h
  | some post =>
    rw [step_register_of_some hi]
    intro id info' hinfo'
    rcases (Engine.register_announces t.service.deployment.config t.service.deployment.engine post.info).get?_cases
      hinfo' with ⟨-, rfl, -⟩ | ⟨-, hgrown⟩
    · exact ⟨post, hsound.genuine post (List.mem_append_right _ (List.mem_of_getElem? hi)), rfl⟩
    · exact h id info' hgrown.before

theorem answer (h : t.IsVouched config) (hsound : t.IsSound config mount) (now : Moment) (request : Request) :
    (t.step (.answer now request)).IsVouched config := by
  by_cases hcreation : ∃ r id, Route.find t.service.mount request.method request.path = .endpoint r id
      ∧ (r = .create ∨ r = .createSlash)
  · obtain ⟨r, id, hfind, hroute⟩ := hcreation
    rcases step_answer_of_creation hfind hroute with hstep | hstep
    · rw [hstep]
      exact h.enroll now request
    · rw [hstep]
      exact (h.enroll now request).register (hsound.enroll now request) _
  · apply h.of_grown
    intro id info' hinfo'
    exact Service.exists_grown_of_answer hsound.ids hsound.isOpen
      (fun r id hfind hroute => hcreation ⟨r, id, hfind, hroute⟩) hinfo'

/-- **Every action keeps metadata that was let through.** -/
theorem step (h : t.IsVouched config) (hsound : t.IsSound config mount) (a : Action) :
    (t.step a).IsVouched config := by
  cases a with
  | answer now request => exact h.answer hsound now request
  | enroll now request => exact h.enroll now request
  | register i => exact h.register hsound i
  | distribute => exact h.of_memory_eq (Deployment.rests_distribute _).memory
  | consume i => exact h.of_memory_eq (Deployment.rests_consume i _).memory
  | endWrite i => exact h.of_memory_eq (Deployment.rests_endWrite i _).memory

theorem run (h : t.IsVouched config) (hsound : t.IsSound config mount) (actions : List Action) :
    (t.run actions).IsVouched config := by
  induction actions generalizing t with
  | nil => exact h
  | cons a actions ih => exact ih (h.step hsound a) (hsound.step a)

theorem of_isIdle {s : Service} (h : s.IsIdle) : IsVouched config { service := s } := by
  intro id info hinfo
  rw [uploads, h.uploads] at hinfo
  cases hinfo

end IsVouched

end Traffic

/-! ### What a head tells -/

theorem Response.first?_ofDetail {status : Nat} {detail : Json} {headers : Headers} {response : Response} {name : Text}
    (h : ofDetail status detail headers = .ok response) (hname : name ≠ Text.of "content-type") :
    response.headers.first? name = headers.first? name := by
  have hnone : Headers.values [(Text.of "content-type", Text.of "application/json")] name = [] := by
    simp [Headers.values, Ne.symm hname]
  rcases ofDetail_cases status detail headers with ⟨body, -, hbody⟩ | ⟨-, hfailed⟩
  · obtain rfl := Except.ok.inj (h.symm.trans hbody)
    rw [Headers.first?, Headers.values_append, hnone, List.append_nil, Headers.first?]
  · cases h.symm.trans hfailed

namespace Service

variable {s : Service} {now : Moment} {request : Request} {info : UploadInfo} {response : Response} {header : Text}

theorem metadataHeaders_of_described (h : described info = .ok response)
    (hheader : response.headers.first? (Text.of "upload-metadata") = some header) :
    metadataHeaders info.metadata = .ok [(uploadMetadata, header)] := by
  obtain ⟨metadata, hmetadata, hchecked⟩ := bind_eq_ok_iff.mp h
  have hresponse : response = ⟨200, Headers.ofList ([(uploadOffset, Text.ofNat info.offset),
      (uploadLength, Text.ofNat info.size), (Text.of "Cache-Control", Text.of "no-store")] ++ metadata), []⟩ := by
    unfold Response.checked at hchecked
    split at hchecked
    · exact (Except.ok.inj hchecked).symm
    · cases hchecked
  subst hresponse
  rw [hmetadata]
  unfold metadataHeaders at hmetadata
  split at hmetadata
  · obtain rfl := Except.ok.inj hmetadata
    cases hheader
  · obtain ⟨written, -, rfl⟩ := map_eq_ok_iff.mp hmetadata
    obtain rfl : written = header := Option.some.inj hheader
    rfl

/-- A response that an endpoint gives is its own or that of a refusal. -/
theorem answer_refused_cases {f : Framework} {o : Outcome} (h : (refused f request o).answer = .ok response) :
    o.answer = .ok response ∨ ∃ e : UploadError, Response.detail e.status e.detail [] = .ok response := by
  unfold refused at h
  split at h
  · rename_i e _
    split at h
    · cases h
    · exact Or.inr ⟨e, h⟩
  · exact Or.inl h

theorem exists_info_of_run {id : Text} (h : (s.run now request id .head).answer = .ok response)
    (hheader : response.headers.first? (Text.of "upload-metadata") = some header) :
    ∃ info, s.deployment.engine.uploads.get? id = some info
      ∧ metadataHeaders info.metadata = .ok [(uploadMetadata, header)] := by
  cases hhidden : s.mount.hidesParameter with
  | true =>
    rw [run_of_hidden hhidden (by decide)] at h
    simp only [outcome] at h
    rw [Response.first?_ofDetail h (by decide)] at hheader
    cases hheader
  | false =>
    rw [run_of_visible hhidden (by decide)] at h
    obtain ⟨info, hinfo, hdescribed⟩ := bind_eq_ok_iff.mp h
    refine ⟨info, ?_, metadataHeaders_of_described hdescribed hheader⟩
    change (s.deployment.engine.uploads.get? id).elim _ _ = _ at hinfo
    cases hget : s.deployment.engine.uploads.get? id with
    | none =>
      rw [hget] at hinfo
      cases hinfo
    | some found =>
      rw [hget] at hinfo
      rw [Except.ok.inj hinfo]

/-- **A metadata header in the answer to a head** is the one of an upload in memory. -/
theorem exists_info_of_head (hmethod : request.method = Text.of "HEAD")
    (hanswer : (s.answer now request).answer = .ok response)
    (hheader : response.headers.first? (Text.of "upload-metadata") = some header) :
    ∃ id info, s.deployment.engine.uploads.get? id = some info
      ∧ metadataHeaders info.metadata = .ok [(uploadMetadata, header)] := by
  have hpreflight : Cors.isPreflight request = false := by
    rw [Cors.isPreflight, hmethod]
    rfl
  simp only [answer, hpreflight, Bool.false_eq_true, if_false] at hanswer
  obtain ⟨plain, hplain, rfl⟩ := map_eq_ok_iff.mp hanswer
  rw [Cors.first?_decorate _ _ _ (by decide) (by decide) (by decide)] at hheader
  -- no other answer than that of the endpoint has the header
  unfold dispatch at hplain
  split at hplain
  · rename_i r id hfind
    obtain rfl : r = .head := by
      have hroute := (Route.method_of_find hfind).trans hmethod
      revert hroute
      cases r <;> decide
    rcases answer_refused_cases hplain with hrun | ⟨e, hdetail⟩
    · exact ⟨id, exists_info_of_run hrun hheader⟩
    · rw [Response.first?_ofDetail hdetail (by decide)] at hheader
      cases hheader
  · simp only [outcome] at hplain
    rw [Response.first?_ofDetail hplain (by decide)] at hheader
    cases hheader
  · rename_i path _
    obtain ⟨location, -, rfl⟩ := map_eq_ok_iff.mp hplain
    cases hheader
  · simp only [outcome] at hplain
    rw [Response.first?_ofDetail hplain (by decide)] at hheader
    cases hheader

/-- **A header that the server wrote is never taken as metadata.**  A request with the header
    of an upload that was let through, in any spacing of its entries, is refused for the
    address that the header names: from any peer, with any forwarding header, at any time, on
    a server with any configuration and any metrics so far, and nothing but this refusal is
    recorded.  The same holds of each header that is sent as the metadata of an upload in
    the answer to a head, after whatever was done to an idle server: it is the header of a
    creation that was let through. -/
theorem replay_refused :
    (∀ (config : Config) (depth : Nat) (now : Number) (telemetry : Telemetry) (request : UploadRequest)
        (a : AuthorizedUpload),
      (Authorization.decide config depth now telemetry request).result = .ok a → IsBarred a.header)
    ∧ ∀ (s : Service), s.IsIdle → ∀ (actions : List Traffic.Action) (now : Moment) (request : Request)
      (response : Response) (header : Text), request.method = Text.of "HEAD" →
      ((Traffic.run { service := s } actions).service.answer now request).answer = .ok response →
      response.headers.first? (Text.of "upload-metadata") = some header →
      (∃ post : Post, post.IsGenuine s.deployment.config ∧ header = post.authorized.header) ∧ IsBarred header := by
  refine ⟨?_, ?_⟩
  · intro config depth now telemetry request a h
    obtain ⟨client, v, g⟩ := Authorization.grant_of_decide h
    exact g.isBarred
  · intro s hidle actions now request response header hmethod hanswer hheader
    have hsound := Traffic.IsSound.of_isIdle hidle
    have hvouched := (Traffic.IsVouched.of_isIdle hidle).run hsound actions
    obtain ⟨id, info, hget, hmetadata⟩ := exists_info_of_head hmethod hanswer hheader
    obtain ⟨post, hgenuine, hsame⟩ := hvouched id info hget
    rw [hsame, hgenuine.metadataHeaders_eq] at hmetadata
    obtain rfl : post.authorized.header = header := by simpa using hmetadata
    exact ⟨⟨post, hgenuine, rfl⟩, hgenuine.isBarred⟩

/-- A header of a decision and one of a head are sent again with other blanks, from a peer
    without an address. -/
theorem replay_refused_respaced :
    (∃ a, (Authorization.decide {} 900 (.integer 0) Authorization.noTelemetry Authorization.plainRequest).result = .ok a
      ∧ a.header = Text.of "filename Zm9v,RemoteIP MTkyLjAuMi4x"
      ∧ (Authorization.decide {} 900 (.integer 1) Authorization.noTelemetry
          ⟨some (Text.of " filename Zm9v\t,\n RemoteIP MTkyLjAuMi4x"), [], none⟩).result
        = .error (.upload (.reservedField Metadata.remoteIpKey)))
    ∧ ∃ response,
      ((Traffic.run { service := runningAt (Text.of "/files") } (overlapping (Text.of "/files"))).service.answer
        newYear (headAt (Text.of "/files/u1"))).answer = .ok response
      ∧ response.headers.first? (Text.of "upload-metadata") = some (Text.of "RemoteIP MTkyLjAuMi4x")
      ∧ (Authorization.decide {} 900 (.integer 1) Authorization.noTelemetry
          ⟨some (Text.of " RemoteIP MTkyLjAuMi4x "), [], none⟩).result
        = .error (.upload (.reservedField Metadata.remoteIpKey)) := by
  obtain ⟨hdecided, hhead⟩ := replay_refused
  constructor
  · obtain ⟨a, ha, hheader⟩ : ∃ a,
        (Authorization.decide {} 900 (.integer 0) Authorization.noTelemetry Authorization.plainRequest).result = .ok a
        ∧ a.header = Text.of "filename Zm9v,RemoteIP MTkyLjAuMi4x" := ⟨_, rfl, by decide +kernel⟩
    refine ⟨a, ha, hheader, ?_⟩
    have hbarred := hdecided _ _ _ _ _ a ha (Text.of " filename Zm9v\t,\n RemoteIP MTkyLjAuMi4x")
      (by rw [hheader, Metadata.IsRespaced]; decide +kernel) {} 900 (.integer 1) Authorization.noTelemetry [] none
    rw [hbarred]
    rfl
  · have htold : ((Traffic.run { service := runningAt (Text.of "/files") }
          (overlapping (Text.of "/files"))).service.answer newYear (headAt (Text.of "/files/u1"))).answer.toOption.any
        (fun response => decide (response.headers.first? (Text.of "upload-metadata")
          = some (Text.of "RemoteIP MTkyLjAuMi4x"))) = true := by decide +kernel
    cases hanswer : ((Traffic.run { service := runningAt (Text.of "/files") }
        (overlapping (Text.of "/files"))).service.answer newYear (headAt (Text.of "/files/u1"))).answer with
    | error failure =>
      rw [hanswer] at htold
      cases htold
    | ok response =>
      rw [hanswer] at htold
      have hheader := of_decide_eq_true htold
      obtain ⟨-, hbarred⟩ := hhead (runningAt (Text.of "/files")) ⟨rfl, rfl⟩ (overlapping (Text.of "/files"))
        newYear (headAt (Text.of "/files/u1")) response _ rfl hanswer hheader
      refine ⟨response, rfl, hheader, ?_⟩
      rw [hbarred (Text.of " RemoteIP MTkyLjAuMi4x ") (by rw [Metadata.IsRespaced]; decide +kernel)]
      rfl

end Service

end Http

end UploadGate
