/-
  UploadGate/Proofs/Http/Description.lean
  =======================================
  **What the head of an upload says about it is what its creation was let through with.**

  The header that the checks write is read when the upload is created, kept as metadata
  and written again for every head.  Values may change when they are read, but the octets
  that they stand for do not, and only these are written, so the header is the same.  The
  offset is the length of the chunks by what holds of all traffic.
-/
import UploadGate.Proofs.Authorization.Vouching
import UploadGate.Proofs.Http.Traffic
import UploadGate.Proofs.Metadata.Rewriting

namespace UploadGate

open BasePath (slash)

/-! ### The header of a creation -/

namespace Authorization.Grant

open Metadata

variable {config : Config} {depth : Nat} {now : Number} {request : UploadRequest} {a : AuthorizedUpload}
  {client : Metadata} {v : Token.Verification}

theorem rereadAll_ne_nil (g : Grant config depth now request a client v) : rereadAll a.metadata ≠ [] := by
  intro hnil
  have hfound := g.get?_remoteIpKey
  rw [List.map_eq_nil_iff.mp hnil] at hfound
  cases hfound

/-- A header in Latin-1 is let through as one in Latin-1: the server adds octets in Base64
    and keys of its own. -/
theorem isEncodable_header (g : Grant config depth now request a client v)
    (hheader : ∀ header ∈ request.metadata?, Latin1.isEncodable header = true) :
    Latin1.isEncodable a.header = true := by
  have hclient : ∀ e ∈ client, Latin1.isEncodable e.1 = true := by
    have hdecoded := g.decoded
    cases hmetadata : request.metadata? with
    | none =>
      rw [hmetadata] at hdecoded
      obtain rfl := Except.ok.inj hdecoded
      exact List.forall_mem_nil _
    | some header =>
      rw [hmetadata] at hdecoded
      exact isEncodable_key_of_decode (hheader header hmetadata) hdecoded
  have hidentity : ∀ e ∈ identityEntries v.identity?, Latin1.isEncodable e.1 = true := by
    intro e he
    rcases (mem_keys_identityEntries.mp (List.mem_map_of_mem he)).2 with hkey | hkey
    · rw [hkey]
      decide
    · rw [hkey]
      decide
  apply isEncodable_of_encode ?_ g.encoded
  rw [g.metadata_eq]
  intro e he
  rcases List.mem_append.mp he with he | he
  · exact hclient e he
  · rcases List.mem_cons.mp he with rfl | he
    · exact (by decide : Latin1.isEncodable remoteIpKey = true)
    · exact hidentity e he

end Authorization.Grant

theorem Engine.slash_notMem_drawnId (drawn : Nat) : slash ∉ Engine.drawnId drawn := by
  intro hslash
  rcases List.mem_append.mp hslash with hfront | hdigits
  · revert hfront
    decide
  · have hdigit := Text.isAsciiDigit_of_mem_ofNat hdigits
    revert hdigit
    decide

namespace Http

/-- The header of a request that counts is one of its headers. -/
theorem Headers.mem_of_first? {headers : Headers} {name value : Text} (h : headers.first? name = some value) :
    (name, value) ∈ headers := by
  obtain ⟨entry, hentry, rfl⟩ := List.mem_map.mp (List.mem_of_mem_head? h)
  obtain ⟨hmem, hname⟩ := List.mem_filter.mp hentry
  rw [← of_decide_eq_true hname]
  exact hmem

namespace Post.IsGenuine

variable {post : Post} {config : Config}

theorem exists_grant (h : post.IsGenuine config) :
    ∃ client v, Authorization.Grant config post.now.depth post.now.seconds (Service.uploadRequest post.request)
        post.authorized client v
      ∧ post.info.metadata = Metadata.rereadAll post.authorized.metadata := by
  obtain ⟨telemetry, hdecide⟩ := h.authorized
  obtain ⟨client, v, g⟩ := Authorization.grant_of_decide hdecide
  exact ⟨client, v, g, Except.ok.inj (h.decoded.symm.trans g.decode_header)⟩

/-- **What was read of the header is written again** as the checks wrote it. -/
theorem encode_metadata (h : post.IsGenuine config) :
    Metadata.encode post.info.metadata = .ok post.authorized.header := by
  obtain ⟨client, v, g, hmetadata⟩ := h.exists_grant
  rw [hmetadata, Metadata.encode_rereadAll]
  exact g.encoded

theorem metadataHeaders_eq (h : post.IsGenuine config) :
    Service.metadataHeaders post.info.metadata
      = .ok [(Service.uploadMetadata, post.authorized.header)] := by
  obtain ⟨client, v, g, hmetadata⟩ := h.exists_grant
  have hsome : post.info.metadata.isEmpty = false := by
    rw [hmetadata]
    exact List.isEmpty_eq_false_iff.mpr g.rereadAll_ne_nil
  rw [Service.metadataHeaders, hsome, h.encode_metadata]
  rfl

theorem isEncodable_header (h : post.IsGenuine config)
    (hheaders : ∀ e ∈ post.request.headers, Latin1.isEncodable e.2 = true) :
    Latin1.isEncodable post.authorized.header = true := by
  obtain ⟨client, v, g, -⟩ := h.exists_grant
  apply g.isEncodable_header
  intro header hheader
  exact hheaders _ (Headers.mem_of_first? hheader)

end Post.IsGenuine

/-! ### The way to a head -/

/-- **A path that ends in an id behind the prefix** leads to the head of the upload. -/
theorem Route.find_head {m : Mount} {front id : Text} (hfront : m.fits front = true) (hid : id ≠ [])
    (hslash : slash ∉ id) : Route.find m (Text.of "HEAD") (front ++ slash :: id) = .endpoint .head id := by
  have hsegment : matchPath? m (front ++ slash :: id) .head = some id := by
    change segment? m (front ++ slash :: id) = some id
    rw [segment?, lastSegment?, Text.cutLast?_append front hslash]
    simp [Option.filter, hid, hfront]
  obtain ⟨early, hearly, htable⟩ : ∃ early, (∀ r ∈ early, r.method ≠ Text.of "HEAD")
      ∧ table m = early ++ .head :: [.patch, .delete, .get, .getNamed] := by
    refine ⟨(if m.path.isEmpty then [] else [.create]) ++ [.createSlash], ?_, ?_⟩
    · split
      · decide
      · decide
    · rw [table, List.append_assoc]
      rfl
  have hnone : (early.filterMap fun r => (r.matchPath? m (front ++ slash :: id)).map (r, ·)).find?
      (fun f => decide (f.1.method = Text.of "HEAD")) = none := by
    rw [List.find?_eq_none]
    intro f hf
    obtain ⟨r, hr, hmatch⟩ := List.mem_filterMap.mp hf
    obtain ⟨found, -, rfl⟩ := Option.map_eq_some_iff.mp hmatch
    simpa using hearly r hr
  unfold find
  simp only [htable, List.filterMap_append, List.filterMap_cons, hsegment, List.find?_append, hnone]
  rfl

namespace Service

variable {s : Service} {now : Moment} {request : Request} {info : UploadInfo} {id header : Text}

/-- What is sent about an upload whose metadata has a header in Latin-1. -/
def description (info : UploadInfo) (header : Text) : Response :=
  ⟨200, Headers.ofList [(uploadOffset, Text.ofNat info.offset), (uploadLength, Text.ofNat info.size),
    (Text.of "Cache-Control", Text.of "no-store"), (uploadMetadata, header)], []⟩

theorem described_eq (hmetadata : metadataHeaders info.metadata = .ok [(uploadMetadata, header)])
    (hheader : Latin1.isEncodable header = true) : described info = .ok (description info header) := by
  have hsent : Response.checked (description info header) = .ok (description info header) := by
    apply if_pos
    simp [description, Headers.ofList, Latin1.isEncodable_ofNat, hheader]
    decide
  rw [described, hmetadata]
  exact hsent

theorem answer_head (hfind : Route.find s.mount request.method request.path = .endpoint .head id)
    (hvisible : s.mount.hidesParameter = false) (hget : s.deployment.engine.uploads.get? id = some info)
    (hmetadata : metadataHeaders info.metadata = .ok [(uploadMetadata, header)])
    (hheader : Latin1.isEncodable header = true) (now : Moment) :
    (s.answer now request).answer = .ok (Cors.decorate s.framework.vary
      (Cors.allowed? s.deployment.config.corsOrigins request) (description info header)) := by
  apply answer_of_ok hfind
  have hinfo : (s.deployment.engine.info id).answer = .ok info := by
    simp only [Engine.info, Engine.reply, Engine.find, hget]
    rfl
  rw [run_of_visible hvisible (by decide), runOn, head, respond, Deployment.afterReply, hinfo]
  exact described_eq hmetadata hheader

/-- **The head of an upload tells what its creation was let through with.**  Whatever
    is done to an idle server, in any order, also between the two halves of a creation: an
    upload whose creation was answered with 201 and which is in memory is described by the
    header that the checks made of the request, octet for octet and in Latin-1 as its
    headers were, by the length that was declared and by the length of the chunks that
    were accepted.  Every request that is answered with 201 counts as such a creation.  The
    prefix of the routes must leave no brace open. -/
theorem head_of_run (hidle : s.IsIdle) (hvisible : s.mount.hidesParameter = false)
    (actions : List Traffic.Action) :
    let t := Traffic.run { service := s } actions
    (∀ (now : Moment) (request : Request) (r : Route) (id : Text),
      Route.find s.mount request.method request.path = .endpoint r id → r = .create ∨ r = .createSlash →
      hasStatus (t.service.answer now request).answer 201 = true →
      ∃ post, post.now = now ∧ post.request = request
        ∧ (t.step (.answer now request)).created = t.created ++ [post])
    ∧ ∀ post ∈ t.created, post.IsGenuine s.deployment.config
      ∧ ∀ info, t.uploads.get? post.info.id = some info →
        (∀ e ∈ post.request.headers, Latin1.isEncodable e.2 = true) →
          Latin1.isEncodable post.authorized.header = true
          ∧ ∀ (now : Moment) (request : Request) (front : Text), request.method = Text.of "HEAD" →
            s.mount.fits front = true → request.path = front ++ slash :: post.info.id →
            ∃ response, (t.service.answer now request).answer = .ok response ∧ response.status = 200
              ∧ response.headers.first? (Text.of "upload-metadata") = some post.authorized.header
              ∧ response.headers.first? (Text.of "upload-length") = some (Text.ofInt post.length)
              ∧ response.headers.first? (Text.of "upload-offset")
                = some (Text.ofNat (t.chunks post.info.id).flatten.length) := by
  intro t
  have hsound : t.IsSound s.deployment.config s.mount := (Traffic.IsSound.of_isIdle hidle).run actions
  constructor
  · intro now request r id hfind hroute hcreated
    obtain ⟨post, hposted, hnow, hrequest⟩ := exists_posted (hsound.mount_eq ▸ hfind) hroute hcreated
    refine ⟨post, hnow, hrequest, ?_⟩
    simp only [Traffic.step, hposted, Option.toList_some]
  intro post hpost
  have hgenuine := hsound.genuine post (List.mem_append_left _ hpost)
  refine ⟨hgenuine, ?_⟩
  intro info hget hheaders
  have hheader := hgenuine.isEncodable_header hheaders
  refine ⟨hheader, ?_⟩
  intro now request front hmethod hfront hpath
  have hinfo := hsound.held post hpost info hget
  obtain ⟨drawn, hid⟩ := hgenuine.id_eq
  have hslash : slash ∉ post.info.id := hid ▸ Engine.slash_notMem_drawnId drawn
  have hne : post.info.id ≠ [] := hid ▸ List.cons_ne_nil _ _
  have hfind : Route.find t.service.mount request.method request.path = .endpoint .head post.info.id := by
    rw [hsound.mount_eq, hmethod, hpath]
    exact Route.find_head hfront hne hslash
  have hhead : t.service.mount.hidesParameter = false := hsound.mount_eq ▸ hvisible
  subst hinfo
  refine ⟨_, answer_head hfind hhead hget hgenuine.metadataHeaders_eq hheader now, rfl, ?_, ?_, ?_⟩
  · rw [Cors.first?_decorate _ _ _ (by decide) (by decide) (by decide)]
    rfl
  · rw [Cors.first?_decorate _ _ _ (by decide) (by decide) (by decide), ← hgenuine.size_eq]
    rfl
  · rw [Cors.first?_decorate _ _ _ (by decide) (by decide) (by decide)]
    rfl

def headAt (path : Text) : Request where
  method := Text.of "HEAD"
  path := path

/-- A request that writes one octet to a new upload. -/
def writeAt (path : Text) : Request where
  method := Text.of "PATCH"
  path := path
  headers := Headers.ofList [(uploadOffset, Text.of "0")]
  body := [120]

/-- Another upload is created while the first is, and one octet is written to each,
    to the second one too late. -/
def overlapping (path : Text) : List Traffic.Action :=
  [.enroll newYear (creationAt path), .answer newYear (creationAt path), .register 0,
    .answer newYear (writeAt (path ++ Text.of "/u2")), .distribute,
    .answer newYear (writeAt (path ++ Text.of "/u2")), .answer newYear (writeAt (path ++ Text.of "/u1"))]

/-- The creation of an upload of one octet that comes without metadata. -/
def plainPost (path id : Text) : Post where
  now := newYear
  request := creationAt path
  length := 1
  authorized := ⟨[(Metadata.remoteIpKey, Text.of "192.0.2.1")], Text.of "RemoteIP MTkyLjAuMi4x",
    Text.of "192.0.2.1", none, none⟩
  info := ⟨id, 1, 0, [(Metadata.remoteIpKey, Text.of "192.0.2.1")]⟩

/-- A server on which the first of these uploads is there with its octet. -/
def keepsFirst (s : Service) : Bool :=
  let t := Traffic.run { service := s } (overlapping (Text.of "/files"))
  let post := plainPost (Text.of "/files") (Text.of "u1")
  decide (post ∈ t.created ∧ t.uploads.get? post.info.id = some (post.info.withOffset 1)
    ∧ t.chunks post.info.id = [[120]] ∧ s.mount.fits (Text.of "/files") = true
    ∧ s.mount.hidesParameter = false)

theorem head_of_run_overlapping :
    ∃ s response, (ofConfig .splitting { basePath := Text.of "/files" }).bind start = .ok s
      ∧ ((Traffic.run { service := s } (overlapping (Text.of "/files"))).service.answer newYear
        (headAt (Text.of "/files/u1"))).answer = .ok response
      ∧ response.headers.first? (Text.of "upload-metadata") = some (Text.of "RemoteIP MTkyLjAuMi4x")
      ∧ response.headers.first? (Text.of "upload-length") = some (Text.of "1")
      ∧ response.headers.first? (Text.of "upload-offset") = some (Text.of "1") := by
  have hkeeps : ((ofConfig .splitting { basePath := Text.of "/files" }).bind start).toOption.any keepsFirst
      = true := by decide +kernel
  cases hstart : (ofConfig .splitting { basePath := Text.of "/files" }).bind start with
  | error failure =>
    rw [hstart] at hkeeps
    cases hkeeps
  | ok s =>
    rw [hstart] at hkeeps
    obtain ⟨hpost, hget, hchunks, hfits, hvisible⟩ := of_decide_eq_true hkeeps
    obtain ⟨-, htold⟩ := (head_of_run (isIdle_of_start hstart) hvisible (overlapping (Text.of "/files"))).2
      _ hpost
    obtain ⟨-, hanswers⟩ := htold _ hget (by decide +kernel)
    obtain ⟨response, hanswer, -, hmetadata, hlength, hoffset⟩ := hanswers newYear
      (headAt (Text.of "/files/u1")) (Text.of "/files") rfl hfits (by decide +kernel)
    refine ⟨s, response, rfl, hanswer, hmetadata, hlength, ?_⟩
    rw [hoffset]
    exact congrArg (fun chunks : List Bytes => some (Text.ofNat chunks.flatten.length)) hchunks

def openBrace : Text := Text.of "/\x7bx"

/-- A server behind this prefix creates an upload, and a request for its head is refused. -/
def losesHead (s : Service) : Bool :=
  let t := Traffic.run { service := s } [.answer newYear (creationAt openBrace)]
  let post := plainPost openBrace (Text.of "u1")
  decide (post ∈ t.created ∧ t.uploads.get? post.info.id = some post.info ∧ s.mount.fits openBrace = true
    ∧ hasStatus (t.service.answer newYear (headAt (openBrace ++ slash :: post.info.id))).answer 200 = false)

/-- **An upload may have no head**: behind a prefix that leaves a brace open, uploads are
    created, but no request for a head has the id of one. -/
theorem exists_undescribed_upload :
    ¬ ∀ (framework : Framework) (config : Config) (s : Service) (actions : List Traffic.Action),
      (ofConfig framework config).bind start = .ok s →
      let t := Traffic.run { service := s } actions
      ∀ post ∈ t.created, ∀ info, t.uploads.get? post.info.id = some info →
        (∀ e ∈ post.request.headers, Latin1.isEncodable e.2 = true) →
          ∀ (now : Moment) (request : Request) (front : Text), request.method = Text.of "HEAD" →
            s.mount.fits front = true → request.path = front ++ slash :: post.info.id →
            ∃ response, (t.service.answer now request).answer = .ok response ∧ response.status = 200 := by
  intro h
  have hloses : ((ofConfig .splitting { basePath := openBrace }).bind start).toOption.any losesHead = true := by
    decide +kernel
  cases hstart : (ofConfig .splitting { basePath := openBrace }).bind start with
  | error failure =>
    rw [hstart] at hloses
    cases hloses
  | ok s =>
    rw [hstart] at hloses
    obtain ⟨hpost, hget, hfits, hrefused⟩ := of_decide_eq_true hloses
    obtain ⟨response, hanswer, hstatus⟩ := h _ _ s _ hstart _ hpost _ hget (by decide +kernel) newYear
      (headAt (openBrace ++ slash :: Text.of "u1")) openBrace rfl hfits rfl
    have hsuccess : hasStatus (.ok response) 200 = true := decide_eq_true hstatus
    rw [← hanswer] at hsuccess
    exact Bool.false_ne_true (hrefused.symm.trans hsuccess)

end Service

end Http

end UploadGate
