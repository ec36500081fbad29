/-
  UploadGate/Proofs/Http/Creation.lean
  ====================================
  **A request for a creation has all of its effects or none of them.**

  A request that the server admits gets its row, is put into memory and is
  published; any other leaves the engine as it was (`Admits`, `Creates`).  Two
  things are still to be done behind a creation that can fail: room is made among
  the complete uploads, and the answer is put together, which names the new
  upload in a header.  `Answerable` says when both succeed; otherwise there is an
  upload that no answer tells of.
-/
import UploadGate.Proofs.Deployment.Invariant
import UploadGate.Proofs.Engine.Atomicity
import UploadGate.Proofs.Http.Answer
import UploadGate.Proofs.Text.Numerals
import UploadGate.Proofs.Text.Surrogates

namespace UploadGate

theorem UploadError.le_status (e : UploadError) : 400 ≤ e.status := by
  unfold status
  split <;> omega

theorem Latin1.isEncodable_ofNat (n : Nat) : isEncodable (Text.ofNat n) = true := by
  unfold isEncodable
  rw [List.all_eq_true]
  intro c hc
  have hdigit := Text.isAsciiDigit_of_mem_ofNat hc
  simp only [CodePoint.isAsciiDigit, Bool.and_eq_true, decide_eq_true_eq] at hdigit
  rw [decide_eq_true_eq]
  omega

/-! ### Rows that are added -/

namespace Store

variable {s s' : Store} {id : Text} {size : Int} {createdAt : Timestamp}

theorem isStorableSize_of_create (h : s.create id size createdAt = .ok s') : isStorableSize size = true := by
  obtain ⟨u, -, h⟩ := bind_eq_ok_iff.mp h
  split at h
  · cases h
  · rename_i hsize
    simpa using hsize

theorem create_of_fresh (hconnected : s.isConnected = true) (hid : isStorable id = true)
    (hsize : isStorableSize size = true) (hfresh : s.rows.get? id = none) :
    s.create id size createdAt = .ok { s with rows := s.rows ++ [(id, ⟨size, createdAt, none⟩)] } := by
  rw [create_of_isStorable hid hsize, if_pos hconnected, OrderedMap.has_eq_isSome, hfresh,
    Option.isSome_none, if_neg Bool.false_ne_true]

end Store

theorem Engine.isStorable_drawnId (drawn : Nat) : Store.isStorable (drawnId drawn) = true := by
  simp [Store.isStorable, drawnId]

theorem Engine.checkLength_of_bounds {config : Config} {length : Int} (hnonneg : 0 ≤ length)
    (hbounded : length ≤ config.maximumUploadSize) : checkLength config length = .ok () := by
  unfold checkLength
  rw [if_neg (Int.not_lt.mpr hnonneg), if_neg (Int.not_lt.mpr hbounded)]

/-! ### Creations of a deployment -/

/-- The first half of a creation passes if nothing stands in its way. -/
theorem Deployment.enroll_of_ok {d : Deployment} {now : Moment} {request : UploadRequest} {id : Text}
    {length : Int} {a : AuthorizedUpload} {metadata : Metadata} {store : Store}
    (hdecide : (Authorization.decide d.config now.depth now.seconds d.engine.telemetry request).result = .ok a)
    (hchecked : Engine.checkLength d.config length = .ok ())
    (hdecode : Metadata.decode (some a.header) = .ok metadata)
    (hrow : d.engine.store.create id length now.stamp = .ok store) :
    (d.enroll now request id length).answer = .ok (a, ⟨id, length.toNat, 0, metadata⟩) := by
  obtain ⟨hnonneg, -⟩ := Engine.bounds_of_checkLength hchecked
  have hsize : (length.toNat : Int) = length := Int.toNat_of_nonneg hnonneg
  unfold Deployment.enroll Deployment.authorize
  simp only [hdecide, Engine.enroll, hchecked, Engine.insertRow, hdecode, hsize, setTelemetry, hrow]
  rfl

/-- **A creation** stops before its row is added, and has changed nothing then, or goes on
    to its second half. -/
theorem Deployment.create_cases (d : Deployment) (now : Moment) (request : UploadRequest) (length : Int) :
    (∃ failure, (d.enroll now request (Engine.drawnId d.engine.drawn) length).answer = .error failure
        ∧ (d.create now request length).answer = .error failure
        ∧ d.engine.Unchanged (d.create now request length).deployment.engine)
      ∨ ∃ a info engine,
        (Authorization.decide d.config now.depth now.seconds d.engine.telemetry request).result = .ok a
          ∧ Engine.Enrolls d.config d.engine (Engine.drawnId d.engine.drawn) (some a.header) length now.stamp
            info engine
          ∧ d.engine.memory = engine.memory ∧ d.engine.broadcaster = engine.broadcaster
          ∧ (d.create now request length).answer = (engine.register d.config info).answer
          ∧ (d.create now request length).deployment.engine = (engine.register d.config info).engine := by
  obtain ⟨engine, hdeployment, hmemory, hbroadcaster, hbegun⟩ :=
    d.enroll_spec now request (Engine.drawnId d.engine.drawn) length
  unfold Deployment.create
  simp only
  rcases hbegun with ⟨failure, hanswer, hstore⟩ | ⟨a, info, hanswer, hdecide, henrolls⟩
  · rw [hanswer, hdeployment]
    exact Or.inl ⟨failure, rfl, rfl, hmemory, hstore, hbroadcaster⟩
  · rw [hanswer, hdeployment]
    exact Or.inr ⟨a, info, engine, hdecide, henrolls, hmemory.symm, hbroadcaster.symm, rfl, rfl⟩

/-! ### Creations over HTTP -/

namespace Http.Service

variable {s : Service} {now : Moment} {request : Request} {length : Int} {metadata : Metadata}

def newId (s : Service) : Text := Engine.drawnId s.deployment.engine.drawn

def newUpload (s : Service) (length : Int) (metadata : Metadata) : UploadInfo :=
  ⟨s.newId, length.toNat, 0, metadata⟩

/-- The answer to a creation that leads to a location. -/
def createdResponse (location : Text) : Response :=
  ⟨201, Headers.ofList [(Text.of "Location", location), (uploadOffset, Text.ofNat 0)], []⟩

/-- **What a creation needs**: the length of the upload is given and within the limits, the
    request is authorized for metadata that can be read, and the row can be added. -/
structure Admits (s : Service) (now : Moment) (request : Request) (length : Int) (a : AuthorizedUpload)
    (metadata : Metadata) : Prop where
  length_eq : numberHeader request uploadLength = .ok length
  nonneg : 0 ≤ length
  bounded : length ≤ s.deployment.config.maximumUploadSize
  authorized : (Authorization.decide s.deployment.config now.depth now.seconds s.deployment.engine.telemetry
    (uploadRequest request)).result = .ok a
  decoded : Metadata.decode (some a.header) = .ok metadata
  connected : s.deployment.engine.store.isConnected = true
  storable : Store.isStorableSize length = true
  fresh : s.deployment.engine.store.rows.get? s.newId = none

/-- **All effects of a creation**: one row is added under an id that was free, the upload is put
    into memory, and its creation is published, and that it is complete if it has no octets. -/
structure Creates (s : Service) (now : Moment) (length : Int) (metadata : Metadata) (engine : Engine) :
    Prop where
  store : engine.store = { s.deployment.engine.store with
    rows := s.deployment.engine.store.rows ++ [(s.newId, ⟨length, now.stamp, none⟩)] }
  memory : engine.memory = (s.deployment.engine.memory.put (s.newUpload length metadata) []).advance
    s.deployment.config.retainedUploads false (s.newUpload length metadata)
  published : engine.broadcaster = { s.deployment.engine.broadcaster with
    source := s.deployment.engine.broadcaster.source
      ++ .event ((s.newUpload length metadata).event .created)
        :: if length = 0 then [.event ((s.newUpload length metadata).event .completed)] else [] }

/-- The upload that is created next can be told of: its path is known, the framework has a
    URL for it at the host of the request, and this location is Latin-1. -/
structure Locates (s : Service) (request : Request) (location : Text) : Prop where
  names : s.mount.names = []
  url : s.framework.urlFor request.url (s.mount.path ++ BasePath.slash :: s.newId) = .ok location
  encodable : Latin1.isEncodable location = true

/-- A creation can be answered: its upload has a location, and not less than no complete
    upload is to be kept where it is complete at once. -/
structure Answerable (s : Service) (request : Request) (length : Int) (location : Text) : Prop
    extends Locates s request location where
  retained : length = 0 → 0 ≤ s.deployment.config.retainedUploads

/-! ### The answer -/

theorem checked_createdResponse (location : Text) :
    Response.checked (createdResponse location)
      = if Latin1.isEncodable location then .ok (createdResponse location)
        else .error (.value .unencodable) := by
  have hheaders : (createdResponse location).headers.all (fun h => Latin1.isEncodable h.2)
      = Latin1.isEncodable location := by
    simp [createdResponse, Headers.ofList, Latin1.isEncodable_ofNat]
  rw [Response.checked, hheaders]

/-- Behind a path without parameters, an upload is told of with the URL that the framework has. -/
theorem created_of_names (hnames : s.mount.names = []) (request : Request) (length : Int) (metadata : Metadata) :
    created s.framework s.mount request.url (s.newUpload length metadata)
      = ((s.framework.urlFor request.url (s.mount.path ++ BasePath.slash :: s.newId)).mapError
        Failure.value).bind fun location => Response.checked (createdResponse location) := by
  have haddress : s.mount.address (BasePath.slash :: s.newId)
      = .ok (s.mount.path ++ BasePath.slash :: s.newId) := by
    unfold Mount.address
    rw [hnames]
    rfl
  unfold created newUpload
  simp only
  rw [haddress]
  rfl

theorem created_of_names_ne_nil (hnames : s.mount.names ≠ []) (request : Request) (info : UploadInfo) :
    created s.framework s.mount request.url info = .error (.value .unknownParameter) := by
  have haddress : s.mount.address (BasePath.slash :: info.id) = .error .unknownParameter := by
    unfold Mount.address
    rw [List.isEmpty_eq_false_iff.mpr hnames]
    rfl
  unfold created
  rw [haddress]
  rfl

/-- An upload is told of just if it has a location. -/
theorem created_newUpload (s : Service) (request : Request) (length : Int) (metadata : Metadata) :
    (∃ location, s.Locates request location
        ∧ created s.framework s.mount request.url (s.newUpload length metadata)
          = .ok (createdResponse location))
      ∨ (∀ location, ¬ s.Locates request location)
        ∧ ∃ fault, created s.framework s.mount request.url (s.newUpload length metadata)
          = .error (.value fault) := by
  by_cases hnames : s.mount.names = []
  · rw [created_of_names hnames]
    cases hurl : s.framework.urlFor request.url (s.mount.path ++ BasePath.slash :: s.newId) with
    | error fault =>
      refine Or.inr ⟨?_, fault, rfl⟩
      intro location h
      cases hurl.symm.trans h.url
    | ok location =>
      rw [Except.mapError, Except.bind, checked_createdResponse]
      by_cases hencodable : Latin1.isEncodable location = true
      · rw [if_pos hencodable]
        exact Or.inl ⟨location, ⟨hnames, hurl, hencodable⟩, rfl⟩
      · rw [if_neg hencodable]
        refine Or.inr ⟨?_, _, rfl⟩
        intro location' h
        obtain rfl := Except.ok.inj (hurl.symm.trans h.url)
        exact hencodable h.encodable
  · exact Or.inr ⟨fun location h => hnames h.names, _, created_of_names_ne_nil hnames request _⟩

/-- An upload has one location at most. -/
theorem Locates.eq {location location' : Text} (h : s.Locates request location)
    (h' : s.Locates request location') : location = location' :=
  Except.ok.inj (h.url.symm.trans h'.url)

/-! ### All or nothing -/

theorem isComplete_newUpload (s : Service) (hnonneg : 0 ≤ length) (metadata : Metadata) :
    (s.newUpload length metadata).isComplete = decide (length = 0) := by
  change decide (length.toNat ≤ 0) = decide (length = 0)
  rw [decide_eq_decide]
  omega

/-- What the first half of a creation tells makes the upload that is created next. -/
theorem eq_newUpload {info : UploadInfo} {engine : Engine} {header? : Option Text} {config : Config}
    (h : Engine.Enrolls config s.deployment.engine s.newId header? length now.stamp info engine) :
    info = s.newUpload length info.metadata := by
  obtain ⟨id, size, offset, metadata⟩ := info
  obtain rfl : id = s.newId := h.id_eq
  obtain rfl : offset = 0 := h.offset_eq
  have hsize : (size : Int) = length := h.size_eq
  unfold newUpload
  rw [← hsize, Int.toNat_natCast]

theorem Admits.enroll_answer {a : AuthorizedUpload} (h : s.Admits now request length a metadata) :
    (s.deployment.enroll now (uploadRequest request) s.newId length).answer
      = .ok (a, s.newUpload length metadata) :=
  Deployment.enroll_of_ok h.authorized (Engine.checkLength_of_bounds h.nonneg h.bounded) h.decoded
    (Store.create_of_fresh h.connected (Engine.isStorable_drawnId _) h.storable h.fresh)

theorem admits_of_enrolls {a : AuthorizedUpload} {engine : Engine}
    (hlength : numberHeader request uploadLength = .ok length)
    (hauthorized : (Authorization.decide s.deployment.config now.depth now.seconds s.deployment.engine.telemetry
      (uploadRequest request)).result = .ok a)
    (henrolls : Engine.Enrolls s.deployment.config s.deployment.engine s.newId (some a.header) length now.stamp
      (s.newUpload length metadata) engine) : s.Admits now request length a metadata := by
  obtain ⟨hnonneg, hbounded⟩ := Engine.bounds_of_checkLength henrolls.checked
  obtain ⟨hconnected, -, hfresh, -⟩ := Store.create_eq_ok henrolls.row
  exact ⟨hlength, hnonneg, hbounded, hauthorized, henrolls.metadata, hconnected,
    Store.isStorableSize_of_create henrolls.row, hfresh⟩

theorem creates_of_announces {header? : Option Text} {engine : Engine} {r : Engine.Reply UploadInfo}
    (hopen : s.deployment.engine.broadcaster.isClosed = false)
    (henrolls : Engine.Enrolls s.deployment.config s.deployment.engine s.newId header? length now.stamp
      (s.newUpload length metadata) engine)
    (hmemory : s.deployment.engine.memory = engine.memory)
    (hbroadcaster : s.deployment.engine.broadcaster = engine.broadcaster)
    (h : Engine.Announces s.deployment.config .created engine (s.newUpload length metadata) [] r) :
    s.Creates now length metadata r.engine := by
  obtain ⟨hnonneg, -⟩ := Engine.bounds_of_checkLength henrolls.checked
  obtain ⟨-, -, -, hstore⟩ := Store.create_eq_ok henrolls.row
  have hmemoryNext := h.memory
  have hpublished := h.publishes.broadcaster
  rw [← hmemory, ← hbroadcaster, hopen] at hmemoryNext
  rw [← hbroadcaster, hopen, Engine.announced, isComplete_newUpload s hnonneg] at hpublished
  refine ⟨h.publishes.store.trans hstore, hmemoryNext, ?_⟩
  rw [hpublished]
  by_cases hzero : length = 0
  · simp [hzero]
  · simp [hzero]

/-- What the second half of a creation gives is made into an answer just if there is one. -/
theorem answer_registered (s : Service) (request : Request) (length : Int) (metadata : Metadata) :
    let registered := if (decide (length = 0) && decide (s.deployment.config.retainedUploads < 0)) = true then
        .error (.value .nothingToEvict)
      else .ok (s.newUpload length metadata)
    (∀ location, s.Answerable request length location →
        Except.bind registered (created s.framework s.mount request.url) = .ok (createdResponse location))
      ∧ ((∀ location, ¬ s.Answerable request length location) →
        ∃ fault, Except.bind registered (created s.framework s.mount request.url)
          = .error (.value fault)) := by
  by_cases hstuck : length = 0 ∧ s.deployment.config.retainedUploads < 0
  · -- no complete upload is left to make room
    have hfailed : ∀ location, ¬ s.Answerable request length location := by
      intro location h
      have hretained := h.retained hstuck.1
      omega
    rw [← Bool.decide_and, decide_eq_true hstuck]
    exact ⟨fun location h => absurd h (hfailed location), fun _ => ⟨_, rfl⟩⟩
  · have hretained : length = 0 → 0 ≤ s.deployment.config.retainedUploads := by
      intro hzero
      by_contra hnegative
      exact hstuck ⟨hzero, by omega⟩
    rw [← Bool.decide_and, decide_eq_false hstuck]
    rcases s.created_newUpload request length metadata with
      ⟨location, hlocation, hcreated⟩ | ⟨hunknown, fault, hcreated⟩
    · constructor
      · intro location' h
        rw [← hlocation.eq h.toLocates]
        exact hcreated
      · intro h
        exact absurd ⟨hlocation, hretained⟩ (h location)
    · constructor
      · intro location h
        exact absurd h.toLocates (hunknown location)
      · intro _
        exact ⟨fault, hcreated⟩

/-- **The endpoint of creations** does all there is to do or nothing, and has an answer in
    the first case just if there is one. -/
theorem create_spec (s : Service) (now : Moment) (request : Request)
    (hopen : s.deployment.engine.broadcaster.isClosed = false) :
    (∃ length a metadata, s.Admits now request length a metadata
        ∧ s.Creates now length metadata (s.create now request).deployment.engine
        ∧ (∀ location, s.Answerable request length location →
          (s.create now request).answer = .ok (createdResponse location))
        ∧ ((∀ location, ¬ s.Answerable request length location) →
          ∃ fault, (s.create now request).answer = .error (.value fault)))
      ∨ (∀ length a metadata, ¬ s.Admits now request length a metadata)
        ∧ s.deployment.engine.Unchanged (s.create now request).deployment.engine
        ∧ ∃ failure, (s.create now request).answer = .error failure := by
  cases hlength : numberHeader request uploadLength with
  | error e =>
    refine Or.inr ⟨?_, ?_⟩
    · intro length a metadata h
      cases hlength.symm.trans h.length_eq
    · unfold create
      rw [hlength]
      exact ⟨⟨rfl, rfl, rfl⟩, _, rfl⟩
  | ok length =>
    have hcreate : s.create now request
        = respond (s.deployment.create now (uploadRequest request) length)
          (created s.framework s.mount request.url) := by
      unfold create
      rw [hlength]
    rw [hcreate]
    unfold respond
    simp only
    rcases s.deployment.create_cases now (uploadRequest request) length with
      ⟨failure, hbegun, hanswer, hunchanged⟩
        | ⟨a, info, engine, hauthorized, henrolls, hmemory, hbroadcaster, hanswer, hengine⟩
    · rw [hanswer]
      refine Or.inr ⟨?_, hunchanged, failure, rfl⟩
      intro length' a metadata h
      obtain rfl := Except.ok.inj (hlength.symm.trans h.length_eq)
      cases hbegun.symm.trans h.enroll_answer
    · obtain ⟨metadata, rfl⟩ : ∃ metadata, info = s.newUpload length metadata :=
        ⟨_, eq_newUpload henrolls⟩
      have hannounces :=
        Engine.register_announces s.deployment.config engine (s.newUpload length metadata)
      have hadmits := admits_of_enrolls hlength hauthorized henrolls
      have hcreates := creates_of_announces hopen henrolls hmemory hbroadcaster hannounces
      have hregistered := hannounces.answer
      rw [← hbroadcaster, hopen, isComplete_newUpload s hadmits.nonneg] at hregistered
      rw [← hengine] at hcreates
      rw [hanswer, hregistered]
      exact Or.inl ⟨length, a, metadata, hadmits, hcreates, s.answer_registered request length metadata⟩

theorem status_detail {e : UploadError} {rule : VaryRule} {allowed? : Option Text} {response : Response}
    (h : (Response.detail e.status e.detail []).map (Cors.decorate rule allowed?) = .ok response) :
    response.status = e.status := by
  obtain ⟨plain, hplain, rfl⟩ := map_eq_ok_iff.mp h
  rcases Response.ofDetail_cases e.status (.text e.detail) [] with ⟨body, -, hbody⟩ | ⟨-, hnone⟩
  · obtain rfl := Except.ok.inj (hplain.symm.trans hbody)
    rfl
  · cases hplain.symm.trans hnone

/-- **A request for a creation has all of its effects or none.**  While the broadcaster is
    open, a request that is admitted makes an upload, which is published and, if that can be,
    answered with 201 and its location.  Any other leaves the engine as it was, and the
    answer has the status of a refusal or there is none.  An upload that was made is not
    answered just if its creation is not `Answerable` with any location. -/
theorem answer_creation (s : Service) (now : Moment) (request : Request) {r : Route} {id : Text}
    (hopen : s.deployment.engine.broadcaster.isClosed = false)
    (hfind : Route.find s.mount request.method request.path = .endpoint r id)
    (hroute : r = .create ∨ r = .createSlash) :
    (∃ length a metadata, s.Admits now request length a metadata
        ∧ s.Creates now length metadata (s.answer now request).deployment.engine
        ∧ (∀ location, s.Answerable request length location →
          ∃ response, (s.answer now request).answer = .ok response
            ∧ response.status = 201
            ∧ response.headers.first? (Text.of "location") = some location)
        ∧ ((∀ location, ¬ s.Answerable request length location) →
          ∃ fault, (s.answer now request).answer = .error (.value fault)))
      ∨ (∀ length a metadata, ¬ s.Admits now request length a metadata)
        ∧ s.deployment.engine.Unchanged (s.answer now request).deployment.engine
        ∧ ((∃ (e : UploadError) (response : Response), (s.answer now request).answer = .ok response
            ∧ response.status = e.status ∧ 400 ≤ response.status)
          ∨ ∃ failure, (s.answer now request).answer = .error failure) := by
  have hrun : s.run now request id r = s.create now request := by
    rcases hroute with rfl | rfl
    · rfl
    · rfl
  have hdeployment := deployment_answer now hfind
  rw [hrun] at hdeployment
  rw [hdeployment]
  rcases s.create_spec now request hopen with
    ⟨length, a, metadata, hadmits, hcreates, hanswered, hunanswered⟩
      | ⟨hrefused, hunchanged, failure, hfailed⟩
  · refine Or.inl ⟨length, a, metadata, hadmits, hcreates, ?_, ?_⟩
    · intro location h
      refine ⟨_, answer_of_ok hfind (hrun ▸ hanswered location h), rfl, ?_⟩
      rw [Cors.first?_decorate _ _ _ (by decide) (by decide) (by decide)]
      rfl
    · intro h
      obtain ⟨fault, hfault⟩ := hunanswered h
      refine ⟨fault, answer_of_failure hfind (hrun ▸ hfault) ?_⟩
      intro e he
      cases he
  · refine Or.inr ⟨hrefused, hunchanged, ?_⟩
    by_cases hrefusal : ∃ e, failure = .upload e
    · obtain ⟨e, rfl⟩ := hrefusal
      cases hpath : s.framework.shownPath request.url with
      | error fault => exact Or.inr ⟨_, answer_of_no_url hfind (hrun ▸ hfailed) hpath⟩
      | ok path =>
        rw [answer_of_upload hfind (hrun ▸ hfailed) hpath]
        cases hsent : (Response.detail e.status e.detail []).map (Cors.decorate s.framework.vary
            (Cors.allowed? s.deployment.config.corsOrigins request)) with
        | error failure => exact Or.inr ⟨failure, rfl⟩
        | ok response =>
          have hstatus := status_detail hsent
          exact Or.inl ⟨e, response, rfl, hstatus, hstatus ▸ e.le_status⟩
    · refine Or.inr ⟨failure, answer_of_failure hfind (hrun ▸ hfailed) ?_⟩
      intro e he
      exact hrefusal ⟨e, he⟩

theorem answer_creation_plain :
    ∃ response, ((runningAt (Text.of "/files")).answer newYear (creationAt (Text.of "/files"))).answer
        = .ok response
      ∧ response.status = 201
      ∧ response.headers.first? (Text.of "location") = some (Text.of "http://testserver/files/u1") := by
  have hopen : (runningAt (Text.of "/files")).deployment.engine.broadcaster.isClosed = false := rfl
  have hfind : Route.find (runningAt (Text.of "/files")).mount (creationAt (Text.of "/files")).method
      (creationAt (Text.of "/files")).path = .endpoint .create [] := by decide +kernel
  have hlocates : (runningAt (Text.of "/files")).Locates (creationAt (Text.of "/files"))
      (Text.of "http://testserver/files/u1") := ⟨rfl, by decide +kernel, by decide +kernel⟩
  have hrows : ((runningAt (Text.of "/files")).answer newYear
      (creationAt (Text.of "/files"))).deployment.engine.store.rows.length = 1 := by decide +kernel
  rcases answer_creation (runningAt (Text.of "/files")) newYear (creationAt (Text.of "/files")) hopen hfind
    (Or.inl rfl) with ⟨length, a, metadata, -, -, hanswered, -⟩ | ⟨-, hunchanged, -⟩
  · exact hanswered _ ⟨hlocates, fun _ => by decide⟩
  · rw [hunchanged.store] at hrows
    cases hrows

/-- **A creation may have effects and no answer**: where the base path holds a letter that
    is not in Latin-1, the upload is made, and the answer that names it cannot be sent. -/
theorem exists_unanswered_creation :
    ¬ ∀ (s : Service) (now : Moment) (request : Request) (r : Route) (id : Text),
      s.deployment.engine.store.isConnected = true →
      s.deployment.engine.broadcaster.isClosed = false →
      Route.find s.mount request.method request.path = .endpoint r id →
      r = .create ∨ r = .createSlash →
      (∃ response, (s.answer now request).answer = .ok response ∧ response.status = 201)
        ∨ s.deployment.engine.Unchanged (s.answer now request).deployment.engine := by
  intro h
  have hfind : Route.find (runningAt (Text.of "/ж")).mount (creationAt (Text.of "/ж")).method
      (creationAt (Text.of "/ж")).path = .endpoint .create [] := by decide +kernel
  have hunanswered : ((runningAt (Text.of "/ж")).answer newYear
      (creationAt (Text.of "/ж"))).answer = .error (.value .unencodable) := by decide +kernel
  have hrows : ((runningAt (Text.of "/ж")).answer newYear
      (creationAt (Text.of "/ж"))).deployment.engine.store.rows.length = 1 := by decide +kernel
  rcases h (runningAt (Text.of "/ж")) newYear (creationAt (Text.of "/ж")) .create [] rfl rfl hfind
    (Or.inl rfl) with ⟨response, hanswer, -⟩ | hunchanged
  · rw [hanswer] at hunanswered
    cases hunanswered
  · rw [hunchanged.store] at hrows
    cases hrows

end Http.Service

end UploadGate
