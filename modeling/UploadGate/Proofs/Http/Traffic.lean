/-
  UploadGate/Proofs/Http/Traffic.lean
  ===================================
  **Everything that requests may do to a running server, in any order.**

  A creation has two halves, and other requests may be answered in between; all other
  requests are answered at once, and the broadcaster, the consumers and the writes of
  addresses go on at their own pace.  Traffic is a server with the creations in progress
  and with what it has answered so far: the creations, with what the checks made of
  them, and the chunks that were accepted.  What is in memory follows from these
  (`Traffic.IsSound`): an upload whose creation was answered is as it was created, and
  its offset is the length of its chunks.
-/
import Mathlib.Data.List.Perm.Basic
import UploadGate.Proofs.Engine.Contents
import UploadGate.Proofs.Http.Creation

namespace UploadGate

/-! ### Work that leaves memory alone -/

/-- A server has gone on without a change to what is in memory. -/
structure Deployment.Rests (d d' : Deployment) : Prop where
  config : d'.config = d.config
  memory : d'.engine.memory = d.engine.memory
  isClosed : d'.engine.broadcaster.isClosed = d.engine.broadcaster.isClosed
  rows : d.engine.store.KeepsRows d'.engine.store

theorem Provenance.keepsRows_record (store : Store) (t : Telemetry) (e : Event) :
    store.KeepsRows (record store t e).store := by
  unfold record
  split
  · exact Store.keepsRows_of_eq rfl
  · exact Store.keepsRows_of_eq rfl
  · unfold write
    split
    · rename_i store' hstore
      exact Store.keepsRows_setUploaderIp hstore
    · exact Store.keepsRows_of_eq rfl
    · exact Store.keepsRows_of_eq rfl

namespace Deployment

theorem rests_refl (d : Deployment) : d.Rests d := ⟨rfl, rfl, rfl, Store.keepsRows_of_eq rfl⟩

theorem Rests.trans {d d' d'' : Deployment} (h : d.Rests d') (h' : d'.Rests d'') : d.Rests d'' :=
  ⟨h'.config.trans h.config, h'.memory.trans h.memory, h'.isClosed.trans h.isClosed, h.rows.trans h'.rows⟩

theorem rests_subscribe {d d' : Deployment} {c : Consumer} (h : d.subscribe c = .ok d') : d.Rests d' := by
  obtain ⟨b, hlisten, rfl⟩ := map_eq_ok_iff.mp h
  unfold Broadcaster.listen at hlisten
  split at hlisten
  · cases hlisten
  · obtain rfl := Except.ok.inj hlisten
    exact ⟨rfl, rfl, rfl, Store.keepsRows_of_eq rfl⟩

theorem rests_start (d : Deployment) : d.Rests d.start.deployment := by
  have hconnected : d.Rests (d.setStore d.engine.store.connect) := ⟨rfl, rfl, rfl, Store.keepsRows_of_eq rfl⟩
  unfold start
  simp only
  split
  · exact hconnected
  · rename_i d' hsubscribed
    obtain ⟨between, hactivity, hprovenance⟩ := bind_eq_ok_iff.mp hsubscribed
    have hrests := (hconnected.trans (rests_subscribe hactivity)).trans (rests_subscribe hprovenance)
    have hstarted : d'.Rests (d'.setBroadcaster d'.engine.broadcaster.start) := by
      refine ⟨rfl, rfl, ?_, Store.keepsRows_of_eq rfl⟩
      simp only [setBroadcaster, Broadcaster.start]
      split <;> rfl
    split
    · exact hrests.trans hstarted
    · exact hrests.trans hstarted

theorem rests_distribute (d : Deployment) : d.Rests d.distribute.1 :=
  ⟨rfl, rfl, Broadcaster.isClosed_distributeOne _, Store.keepsRows_of_eq rfl⟩

theorem rests_take (d : Deployment) (e : Event) (c : Consumer) : d.Rests (d.take e c).1 := by
  cases c with
  | activity => exact ⟨rfl, rfl, rfl, Store.keepsRows_of_eq rfl⟩
  | provenance => exact ⟨rfl, rfl, rfl, Store.keepsRows_of_eq rfl⟩

theorem rests_consume (i : Nat) (d : Deployment) : d.Rests (d.consume i).1 := by
  have hclosed : (d.engine.broadcaster.receive i).2.isClosed = d.engine.broadcaster.isClosed := by
    unfold Broadcaster.receive
    split <;> rfl
  unfold consume
  simp only
  split
  · rename_i e c _ _
    obtain ⟨hconfig, hmemory, hsame, hrows⟩ :=
      rests_take (d.setBroadcaster (d.engine.broadcaster.receive i).2) e c
    exact ⟨hconfig, hmemory, hsame.trans hclosed, hrows⟩
  · exact ⟨rfl, rfl, hclosed, Store.keepsRows_of_eq rfl⟩

theorem rests_endWrite (i : Nat) (d : Deployment) : d.Rests (d.endWrite i).1 := by
  unfold endWrite
  split
  · exact d.rests_refl
  · exact ⟨rfl, rfl, rfl, Provenance.keepsRows_record _ _ _⟩

end Deployment

namespace Http

/-- A creation whose row is there. -/
structure Post where
  now : Moment
  request : Request
  /-- The length that was declared. -/
  length : Int
  authorized : AuthorizedUpload
  info : UploadInfo
deriving DecidableEq, Repr

/-- A creation is what its request asked for, as the checks let it through. -/
structure Post.IsGenuine (config : Config) (post : Post) : Prop where
  length_eq : Service.numberHeader post.request Service.uploadLength = .ok post.length
  authorized : ∃ telemetry, (Authorization.decide config post.now.depth post.now.seconds telemetry
    (Service.uploadRequest post.request)).result = .ok post.authorized
  id_eq : ∃ drawn, post.info.id = Engine.drawnId drawn
  decoded : Metadata.decode (some post.authorized.header) = .ok post.info.metadata
  size_eq : (post.info.size : Int) = post.length
  offset_eq : post.info.offset = 0

namespace Service

variable {s : Service} {now : Moment} {request : Request} {post : Post} {r : Route} {id : Text}

/-- A server that has no uploads and does not close. -/
structure IsIdle (s : Service) : Prop where
  uploads : s.deployment.engine.uploads = []
  isOpen : s.deployment.engine.broadcaster.isClosed = false

theorem isIdle_of_start {framework : Framework} {config : Config}
    (h : (ofConfig framework config).bind start = .ok s) : s.IsIdle := by
  obtain ⟨idle, hidle, hstart⟩ := bind_eq_ok_iff.mp h
  obtain ⟨unused, hanswer, rfl⟩ := map_eq_ok_iff.mp hstart
  obtain ⟨deployment, hdeployment, hmount⟩ := bind_eq_ok_iff.mp hidle
  obtain ⟨mount, -, hmount⟩ := bind_eq_ok_iff.mp hmount
  obtain rfl := Except.ok.inj hmount
  obtain ⟨engine, hengine, rfl⟩ := map_eq_ok_iff.mp hdeployment
  obtain ⟨telemetry, -, rfl⟩ := map_eq_ok_iff.mp (mapError_eq_ok_iff.mp hengine)
  obtain ⟨-, hmemory, hopen, -⟩ := Deployment.rests_start { config, engine := _ }
  exact ⟨congrArg Memory.uploads hmemory, hopen⟩

/-! ### The halves of a creation -/

/-- The first half of a creation, up to the row. -/
def enroll (s : Service) (now : Moment) (request : Request) : Deployment.Outcome Post :=
  match numberHeader request uploadLength with
  | .error e => ⟨.error (.upload e), s.deployment, []⟩
  | .ok length =>
    let begun := s.deployment.enroll now (uploadRequest request) s.newId length
    ⟨begun.answer.map fun (authorized, info) => ⟨now, request, length, authorized, info⟩, begun.deployment, begun.logs⟩

def register (s : Service) (post : Post) : Outcome :=
  respond (s.deployment.register post.info) (created s.framework s.mount post.request.url)

def withDeployment (s : Service) (d : Deployment) : Service := { s with deployment := d }

/-- A creation without a pause is its two halves in a row. -/
theorem create_of_enroll (s : Service) (now : Moment) (request : Request) :
    (∃ failure, (s.enroll now request).answer = .error failure ∧ (s.create now request).answer = .error failure
        ∧ (s.create now request).deployment = (s.enroll now request).deployment)
      ∨ ∃ post, (s.enroll now request).answer = .ok post
        ∧ (s.create now request).answer
          = ((s.withDeployment (s.enroll now request).deployment).register post).answer
        ∧ (s.create now request).deployment
          = ((s.withDeployment (s.enroll now request).deployment).register post).deployment := by
  unfold enroll create
  cases numberHeader request uploadLength with
  | error e => exact Or.inl ⟨_, rfl, rfl, rfl⟩
  | ok length =>
    simp only [respond, Deployment.create]
    cases hbegun : (s.deployment.enroll now (uploadRequest request) s.newId length).answer with
    | error failure =>
      refine Or.inl ⟨failure, rfl, ?_, ?_⟩
      · rw [show Engine.drawnId s.deployment.engine.drawn = s.newId from rfl, hbegun]
        rfl
      · rw [show Engine.drawnId s.deployment.engine.drawn = s.newId from rfl, hbegun]
    | ok begun =>
      obtain ⟨authorized, info⟩ := begun
      refine Or.inr ⟨⟨now, request, length, authorized, info⟩, rfl, ?_, ?_⟩
      · rw [show Engine.drawnId s.deployment.engine.drawn = s.newId from rfl, hbegun]
        rfl
      · rw [show Engine.drawnId s.deployment.engine.drawn = s.newId from rfl, hbegun]
        rfl

/-- The first half of a creation adds the row of what was asked for, or leaves the store alone. -/
theorem enroll_cases (s : Service) (now : Moment) (request : Request) :
    ∃ engine, (s.enroll now request).deployment = { s.deployment with engine }
      ∧ engine.memory = s.deployment.engine.memory ∧ engine.broadcaster = s.deployment.engine.broadcaster
      ∧ ((∃ failure, (s.enroll now request).answer = .error failure ∧ engine.store = s.deployment.engine.store)
        ∨ ∃ post, (s.enroll now request).answer = .ok post ∧ post.IsGenuine s.deployment.config
          ∧ ∃ createdAt, s.deployment.engine.store.create post.info.id post.length createdAt = .ok engine.store) := by
  unfold enroll
  cases hlength : numberHeader request uploadLength with
  | error e => exact ⟨s.deployment.engine, rfl, rfl, rfl, Or.inl ⟨_, rfl, rfl⟩⟩
  | ok length =>
    obtain ⟨engine, hdeployment, hmemory, hbroadcaster, hanswer⟩ :=
      s.deployment.enroll_spec now (uploadRequest request) s.newId length
    refine ⟨engine, hdeployment, hmemory, hbroadcaster, ?_⟩
    rcases hanswer with ⟨failure, hanswer, hstore⟩ | ⟨a, info, hanswer, hdecide, henrolls⟩
    · refine Or.inl ⟨failure, ?_, hstore⟩
      simp only [hanswer]
      rfl
    · refine Or.inr ⟨⟨now, request, length, a, info⟩, ?_, ?_, now.stamp, ?_⟩
      · simp only [hanswer]
        rfl
      · exact ⟨hlength, ⟨_, hdecide⟩, ⟨_, henrolls.id_eq⟩, henrolls.metadata, henrolls.size_eq, henrolls.offset_eq⟩
      · rw [henrolls.id_eq]
        exact henrolls.row

/-! ### Statuses -/

def hasStatus (answer : Except Failure Response) (status : Nat) : Bool :=
  answer.toOption.any (·.status = status)

/-- No refusal has the status of a success. -/
theorem hasStatus_answer {status : Nat} (now : Moment) (hstatus : status < 400)
    (hfind : Route.find s.mount request.method request.path = .endpoint r id) :
    hasStatus (s.answer now request).answer status = hasStatus (s.run now request id r).answer status := by
  cases hrun : (s.run now request id r).answer with
  | ok response =>
    rw [answer_of_ok hfind hrun]
    rfl
  | error failure =>
    by_cases hrefusal : ∃ e, failure = .upload e
    · obtain ⟨e, rfl⟩ := hrefusal
      cases hpath : s.framework.shownPath request.url with
      | error fault =>
        rw [answer_of_no_url hfind hrun hpath]
        rfl
      | ok path =>
        rw [answer_of_upload hfind hrun hpath]
        cases hsent : (Response.detail e.status e.detail []).map (Cors.decorate s.framework.vary
            (Cors.allowed? s.deployment.config.corsOrigins request)) with
        | error failure => rfl
        | ok response =>
          have hrefused := status_detail hsent
          have hle := e.le_status
          have hne : response.status ≠ status := by omega
          exact decide_eq_false hne
    · rw [answer_of_failure hfind hrun]
      · intro e he
        exact hrefusal ⟨e, he⟩

theorem hasStatus_written (o : Deployment.Outcome UploadInfo) :
    hasStatus (respond o written).answer 204 = o.answer.isOk := by
  unfold respond
  cases o.answer with
  | error failure => rfl
  | ok info => rfl

/-! ### Requests that change nothing -/

theorem run_of_hidden (hhidden : s.mount.hidesParameter = true) (hcreation : ¬ (r = .create ∨ r = .createSlash)) :
    s.run now request id r = outcome s.deployment (Response.ofDetail 422 missingId []) := by
  cases r with
  | create => exact absurd (Or.inl rfl) hcreation
  | createSlash => exact absurd (Or.inr rfl) hcreation
  | _ => simp only [run, hhidden, if_true]

theorem run_of_visible (hvisible : s.mount.hidesParameter = false)
    (hcreation : ¬ (r = .create ∨ r = .createSlash)) :
    s.run now request id r = runOn s.deployment request id r := by
  cases r with
  | create => exact absurd (Or.inl rfl) hcreation
  | createSlash => exact absurd (Or.inr rfl) hcreation
  | _ => simp only [run, hvisible, Bool.false_eq_true, if_false]

theorem deployment_get (d : Deployment) (id : Text) : (get d id).deployment = d := by
  have hsame : (get d id).deployment = { d with engine := (d.engine.read id).engine } := rfl
  rw [hsame, Engine.read_engine]

theorem deployment_answer_of_no_endpoint
    (hfind : ∀ r id, Route.find s.mount request.method request.path ≠ .endpoint r id) :
    (s.answer now request).deployment = s.deployment := by
  unfold answer
  split
  · rfl
  · simp only [dispatch]
    split
    · rename_i r id hfound
      exact absurd hfound (hfind r id)
    · rfl
    · rfl
    · rfl

/-- The creation that a request makes, if it is answered with 201. -/
def posted? (s : Service) (now : Moment) (request : Request) : Option Post :=
  match Route.find s.mount request.method request.path with
  | .endpoint .create _ | .endpoint .createSlash _ =>
    if hasStatus (s.answer now request).answer 201 then (s.enroll now request).answer.toOption else none
  | _ => none

theorem run_of_creation (now : Moment) (request : Request) (id : Text) (hroute : r = .create ∨ r = .createSlash) :
    s.run now request id r = s.create now request := by
  rcases hroute with rfl | rfl
  · rfl
  · rfl

theorem posted?_of_creation (now : Moment)
    (hfind : Route.find s.mount request.method request.path = .endpoint r id)
    (hroute : r = .create ∨ r = .createSlash) :
    s.posted? now request
      = if hasStatus (s.create now request).answer 201 then (s.enroll now request).answer.toOption else none := by
  rw [← run_of_creation now request id hroute, ← hasStatus_answer now (by decide : 201 < 400) hfind, posted?,
    hfind]
  rcases hroute with rfl | rfl
  · rfl
  · rfl

theorem eq_of_enroll (h : (s.enroll now request).answer = .ok post) : post.now = now ∧ post.request = request := by
  unfold enroll at h
  split at h
  · cases h
  · obtain ⟨begun, -, rfl⟩ := map_eq_ok_iff.mp h
    exact ⟨rfl, rfl⟩

/-- A creation that is answered with 201 is always there. -/
theorem exists_posted (hfind : Route.find s.mount request.method request.path = .endpoint r id)
    (hroute : r = .create ∨ r = .createSlash) (hcreated : hasStatus (s.answer now request).answer 201 = true) :
    ∃ post, s.posted? now request = some post ∧ post.now = now ∧ post.request = request := by
  rw [hasStatus_answer now (by decide : 201 < 400) hfind, run_of_creation now request id hroute] at hcreated
  rw [posted?_of_creation now hfind hroute, if_pos hcreated]
  rcases s.create_of_enroll now request with ⟨failure, -, hanswer, -⟩ | ⟨post, henroll, -⟩
  · rw [hanswer] at hcreated
    cases hcreated
  · rw [henroll]
    exact ⟨post, rfl, eq_of_enroll henroll⟩

/-- The chunk that a request adds, with the id of its upload, if it is answered with 204. -/
def patched? (s : Service) (now : Moment) (request : Request) : Option (Text × Bytes) :=
  match Route.find s.mount request.method request.path with
  | .endpoint .patch id => if hasStatus (s.answer now request).answer 204 then some (id, request.body) else none
  | _ => none

theorem patched?_of_hidden (now : Moment) (hhidden : s.mount.hidesParameter = true) :
    s.patched? now request = none := by
  unfold patched?
  split
  · rename_i id hfind
    have hroute : ¬ (Route.patch = .create ∨ Route.patch = .createSlash) := by decide
    rw [hasStatus_answer now (by decide : 204 < 400) hfind, run_of_hidden hhidden hroute]
    apply if_neg
    rcases Response.ofDetail_cases 422 missingId [] with ⟨body, -, hbody⟩ | ⟨-, hnone⟩
    · rw [outcome, hbody]
      exact Bool.false_ne_true
    · rw [outcome, hnone]
      exact Bool.false_ne_true
  · rfl

end Service

/-! ### Traffic -/

/-- A server with the creations in progress and with what it has answered. -/
structure Traffic where
  service : Service
  /-- The creations whose second half has not begun. -/
  suspended : List Post := []
  /-- The creations that were answered with 201. -/
  created : List Post := []
  /-- The chunks that were answered with 204, each with the id of its upload. -/
  accepted : List (Text × Bytes) := []

namespace Traffic

inductive Action where
  /-- A request is answered without a pause. -/
  | answer (now : Moment) (request : Request)
  | enroll (now : Moment) (request : Request)
  /-- The suspended creation at a position goes on and is answered. -/
  | register (i : Nat)
  | distribute
  | consume (i : Nat)
  | endWrite (i : Nat)

def withDeployment (t : Traffic) (d : Deployment) : Traffic := { t with service := t.service.withDeployment d }

def step (t : Traffic) : Action → Traffic
  | .answer now request =>
    { t.withDeployment (t.service.answer now request).deployment with
      created := t.created ++ (t.service.posted? now request).toList
      accepted := t.accepted ++ (t.service.patched? now request).toList }
  | .enroll now request =>
    let begun := t.service.enroll now request
    { t.withDeployment begun.deployment with suspended := t.suspended ++ begun.answer.toOption.toList }
  | .register i =>
    match t.suspended[i]? with
    | none => t
    | some post =>
      let made := t.service.register post
      { t.withDeployment made.deployment with
        suspended := t.suspended.eraseIdx i
        created := t.created ++ if Service.hasStatus made.answer 201 then [post] else [] }
  | .distribute => t.withDeployment t.service.deployment.distribute.1
  | .consume i => t.withDeployment (t.service.deployment.consume i).1
  | .endWrite i => t.withDeployment (t.service.deployment.endWrite i).1

def run (t : Traffic) (actions : List Action) : Traffic := actions.foldl step t

/-- The chunks of an upload that were accepted, in their order. -/
def chunks (t : Traffic) (id : Text) : List Bytes := (t.accepted.filter (·.1 = id)).map Prod.snd

def uploads (t : Traffic) : OrderedMap Text UploadInfo := t.service.deployment.engine.uploads

variable {t t' : Traffic} {now : Moment} {request : Request}

theorem step_enroll_of_error {failure : Failure} (h : (t.service.enroll now request).answer = .error failure) :
    t.step (.enroll now request) = t.withDeployment (t.service.enroll now request).deployment := by
  simp only [step, h, Except.toOption, Option.toList_none, List.append_nil]
  rfl

theorem step_enroll_of_ok {post : Post} (h : (t.service.enroll now request).answer = .ok post) :
    t.step (.enroll now request)
      = { t.withDeployment (t.service.enroll now request).deployment with
          suspended := t.suspended ++ [post] } := by
  simp only [step, h, Except.toOption, Option.toList_some]

theorem step_register_of_none {i : Nat} (hi : t.suspended[i]? = none) : t.step (.register i) = t := by
  simp only [step, hi]

theorem step_register_of_some {i : Nat} {post : Post} (hi : t.suspended[i]? = some post) :
    t.step (.register i)
      = { t.withDeployment (t.service.register post).deployment with
          suspended := t.suspended.eraseIdx i
          created := t.created ++ if Service.hasStatus (t.service.register post).answer 201 then [post] else [] } := by
  simp only [step, hi]

/-- A request for a creation that is answered without a pause is its two halves in a row. -/
theorem step_answer_of_creation {r : Route} {id : Text}
    (hfind : Route.find t.service.mount request.method request.path = .endpoint r id)
    (hroute : r = .create ∨ r = .createSlash) :
    t.step (.answer now request) = t.step (.enroll now request)
      ∨ t.step (.answer now request) = (t.step (.enroll now request)).step (.register t.suspended.length) := by
  have hdeployment := Service.deployment_answer now hfind
  rw [Service.run_of_creation now request id hroute] at hdeployment
  have hposted := Service.posted?_of_creation now hfind hroute
  have hpatched : t.service.patched? now request = none := by
    rw [Service.patched?, hfind]
    rcases hroute with rfl | rfl
    · rfl
    · rfl
  have hstep : t.step (.answer now request) = { t.withDeployment (t.service.create now request).deployment with
      created := t.created ++ (t.service.posted? now request).toList } := by
    simp only [step, hdeployment, hpatched, Option.toList_none, List.append_nil]
    rfl
  rcases t.service.create_of_enroll now request with
    ⟨failure, henroll, hanswer, hsame⟩ | ⟨post, henroll, hanswer, hmade⟩
  · left
    have hnone : t.service.posted? now request = none := by
      rw [hposted, hanswer]
      rfl
    rw [hstep, hnone, hsame, step_enroll_of_error henroll, Option.toList_none, List.append_nil]
    rfl
  · right
    -- the creation that just began is the last of those in progress
    have hlast : (t.suspended ++ [post])[t.suspended.length]? = some post := by simp
    have hrest : (t.suspended ++ [post]).eraseIdx t.suspended.length = t.suspended := by
      rw [List.eraseIdx_append_of_length_le (Nat.le_refl _), Nat.sub_self]
      exact List.append_nil _
    have hlisted : (t.service.posted? now request).toList
        = if Service.hasStatus (t.service.create now request).answer 201 then [post] else [] := by
      rw [hposted, henroll]
      split <;> rfl
    rw [hstep, hlisted, hanswer, hmade, step_enroll_of_ok henroll, step_register_of_some hlast, hrest]
    rfl

/-! ### What holds of all traffic -/

/-- An upload is in memory, was created, or has a chunk. -/
def Knows (t : Traffic) (id : Text) : Prop :=
  id ∈ t.uploads.keys ∨ (∃ post ∈ t.created ++ t.suspended, post.info.id = id) ∨ t.chunks id ≠ []

structure IsSound (config : Config) (mount : Mount) (t : Traffic) : Prop where
  config_eq : t.service.deployment.config = config
  mount_eq : t.service.mount = mount
  isOpen : t.service.deployment.engine.broadcaster.isClosed = false
  ids : ∀ id info, t.uploads.get? id = some info → info.id = id
  /-- No row is added under an id that is in use. -/
  rows : ∀ id, t.Knows id → id ∈ t.service.deployment.engine.store.rows.keys
  genuine : ∀ post ∈ t.created ++ t.suspended, post.IsGenuine config
  distinct : ((t.created ++ t.suspended).map (·.info.id)).Nodup
  /-- Nothing is known of an upload before its creation goes on. -/
  untouched : ∀ post ∈ t.suspended, t.uploads.get? post.info.id = none ∧ t.chunks post.info.id = []
  held : ∀ post ∈ t.created, ∀ info, t.uploads.get? post.info.id = some info →
    info = post.info.withOffset (t.chunks post.info.id).flatten.length

variable {config : Config} {mount : Mount} {post : Post}

theorem chunks_append {more : List (Text × Bytes)} (h : t'.accepted = t.accepted ++ more) (id : Text) :
    t'.chunks id = t.chunks id ++ (more.filter (·.1 = id)).map Prod.snd := by
  rw [chunks, h, List.filter_append, List.map_append]
  rfl

namespace IsSound

/-- **Where no creation begins or goes on**, uploads in memory were there before and have
    grown by the chunks that are added. -/
theorem of_grown (h : t.IsSound config mount) {added : Text → List Bytes}
    (hconfig : t'.service.deployment.config = t.service.deployment.config)
    (hmount : t'.service.mount = t.service.mount)
    (hopen : t'.service.deployment.engine.broadcaster.isClosed = t.service.deployment.engine.broadcaster.isClosed)
    (hrows : t.service.deployment.engine.store.KeepsRows t'.service.deployment.engine.store)
    (hsuspended : t'.suspended = t.suspended) (hcreated : t'.created = t.created)
    (hchunks : ∀ id, t'.chunks id = t.chunks id ++ added id) (hadded : ∀ id, added id ≠ [] → id ∈ t.uploads.keys)
    (hgrown : ∀ id info', t'.uploads.get? id = some info' →
      ∃ info, t.service.deployment.engine.Grown t'.service.deployment.engine (added id) id info info') :
    t'.IsSound config mount := by
  have hbefore : ∀ id, id ∈ t'.uploads.keys → id ∈ t.uploads.keys := by
    intro id hid
    obtain ⟨info', hinfo'⟩ := OrderedMap.mem_keys_iff.mp hid
    obtain ⟨info, hinfo⟩ := hgrown id info' hinfo'
    exact OrderedMap.mem_keys_iff.mpr ⟨info, hinfo.before⟩
  refine ⟨hconfig.trans h.config_eq, hmount.trans h.mount_eq, hopen.trans h.isOpen, ?_, ?_, ?_, ?_, ?_, ?_⟩
  · intro id info' hinfo'
    obtain ⟨info, hinfo⟩ := hgrown id info' hinfo'
    rw [hinfo.info_eq]
    exact h.ids id info hinfo.before
  · intro id hid
    apply hrows.mem_keys
    rcases hid with hmem | hpost | hsome
    · exact h.rows id (Or.inl (hbefore id hmem))
    · rw [hcreated, hsuspended] at hpost
      exact h.rows id (Or.inr (Or.inl hpost))
    · rw [hchunks id] at hsome
      by_cases hold : t.chunks id = []
      · rw [hold, List.nil_append] at hsome
        exact h.rows id (Or.inl (hadded id hsome))
      · exact h.rows id (Or.inr (Or.inr hold))
  · rw [hcreated, hsuspended]
    exact h.genuine
  · rw [hcreated, hsuspended]
    exact h.distinct
  · intro post hpost
    rw [hsuspended] at hpost
    obtain ⟨hunknown, hnone⟩ := h.untouched post hpost
    have habsent : post.info.id ∉ t.uploads.keys := OrderedMap.get?_eq_none_iff.mp hunknown
    refine ⟨OrderedMap.get?_eq_none_iff.mpr fun hmem => habsent (hbefore _ hmem), ?_⟩
    rw [hchunks, hnone, List.nil_append]
    by_contra hsome
    exact habsent (hadded _ hsome)
  · intro post hpost info' hinfo'
    rw [hcreated] at hpost
    obtain ⟨info, hinfo⟩ := hgrown _ info' hinfo'
    rw [hinfo.info_eq, h.held post hpost info hinfo.before, hchunks, List.flatten_append, List.length_append]
    rfl

/-- Where memory stays as it is, so does what is known of it. -/
theorem of_quiet (h : t.IsSound config mount) (hquiet : t.service.deployment.Rests t'.service.deployment)
    (hmount : t'.service.mount = t.service.mount) (hsuspended : t'.suspended = t.suspended)
    (hcreated : t'.created = t.created) (haccepted : t'.accepted = t.accepted) : t'.IsSound config mount := by
  have hchunks : ∀ id, t'.chunks id = t.chunks id ++ [] := by
    intro id
    rw [chunks, haccepted, List.append_nil]
    rfl
  apply h.of_grown hquiet.config hmount hquiet.isClosed hquiet.rows hsuspended hcreated hchunks
    (fun _ hne => absurd rfl hne)
  intro id info' hinfo'
  exact ⟨info', .of_memory_eq hquiet.memory hinfo'⟩

/-- **A creation begins** under an id that is not in use. -/
theorem enroll (h : t.IsSound config mount) (now : Moment) (request : Request) :
    (t.step (.enroll now request)).IsSound config mount := by
  obtain ⟨engine, hdeployment, hmemory, hbroadcaster, hanswer⟩ := t.service.enroll_cases now request
  have hopen : engine.broadcaster.isClosed = t.service.deployment.engine.broadcaster.isClosed := by
    rw [hbroadcaster]
  have huploads : engine.uploads = t.uploads := congrArg Memory.uploads hmemory
  rcases hanswer with ⟨failure, hanswer, hstore⟩ | ⟨post, hanswer, hgenuine, createdAt, hrow⟩
  · rw [step_enroll_of_error hanswer, hdeployment]
    exact h.of_quiet ⟨rfl, hmemory, hopen, hstore ▸ Store.keepsRows_of_eq rfl⟩ rfl rfl rfl rfl
  · rw [step_enroll_of_ok hanswer, hdeployment]
    have hkeeps := Store.keepsRows_create hrow
    -- whatever is known has a row, and the row of a creation is a new one
    have hnew : ¬ t.Knows post.info.id := by
      intro hknows
      exact OrderedMap.get?_eq_none_iff.mp (Store.create_eq_ok hrow).2.2.1 (h.rows _ hknows)
    have hadded : post.info.id ∈ engine.store.rows.keys := by
      apply OrderedMap.mem_keys_iff.mpr
      exact ⟨_, (Store.get?_of_create hrow _).trans (if_pos rfl)⟩
    have hlisted : ∀ other ∈ t.created ++ (t.suspended ++ [post]),
        other ∈ t.created ++ t.suspended ∨ other = post := by
      intro other hother
      rw [← List.append_assoc] at hother
      exact (List.mem_append.mp hother).imp_right List.mem_singleton.mp
    refine ⟨h.config_eq, h.mount_eq, hopen.trans h.isOpen, ?_, ?_, ?_, ?_, ?_, ?_⟩
    · intro id info hinfo
      exact h.ids id info (huploads ▸ hinfo)
    · rintro id (hmem | ⟨other, hother, rfl⟩ | hsome)
      · exact hkeeps.mem_keys (h.rows id (Or.inl (huploads ▸ hmem)))
      · rcases hlisted other hother with hbefore | rfl
        · exact hkeeps.mem_keys (h.rows _ (Or.inr (Or.inl ⟨other, hbefore, rfl⟩)))
        · exact hadded
      · exact hkeeps.mem_keys (h.rows id (Or.inr (Or.inr hsome)))
    · intro other hother
      rcases hlisted other hother with hbefore | rfl
      · exact h.genuine other hbefore
      · rw [← h.config_eq]
        exact hgenuine
    · rw [← List.append_assoc, List.map_append, List.nodup_append]
      refine ⟨h.distinct, List.nodup_singleton _, ?_⟩
      rintro id hid id' hid' rfl
      obtain ⟨other, hother, rfl⟩ := List.mem_map.mp hid
      exact hnew (Or.inr (Or.inl ⟨other, hother, List.mem_singleton.mp hid'⟩))
    · intro other hother
      rcases List.mem_append.mp hother with hother | hother
      · obtain ⟨hunknown, hnone⟩ := h.untouched other hother
        exact ⟨(congrArg (OrderedMap.get? · other.info.id) huploads).trans hunknown, hnone⟩
      · obtain rfl := List.mem_singleton.mp hother
        refine ⟨?_, ?_⟩
        · exact OrderedMap.get?_eq_none_iff.mpr fun hmem => hnew (Or.inl (huploads ▸ hmem))
        · by_contra hsome
          exact hnew (Or.inr (Or.inr hsome))
    · intro other hother info hinfo
      exact h.held other hother info (huploads ▸ hinfo)

theorem perm_of_suspended {i : Nat} (hi : t.suspended[i]? = some post) :
    (t.created ++ post :: t.suspended.eraseIdx i).Perm (t.created ++ t.suspended) := by
  obtain ⟨hlt, rfl⟩ := List.getElem?_eq_some_iff.mp hi
  exact (List.getElem_cons_eraseIdx_perm hlt).append_left t.created

theorem ne_of_suspended (h : t.IsSound config mount) {i : Nat} (hi : t.suspended[i]? = some post) :
    ∀ other ∈ t.created ++ t.suspended.eraseIdx i, other.info.id ≠ post.info.id := by
  intro other hother hid
  have hperm := List.perm_middle.symm.trans (perm_of_suspended hi)
  have hdistinct := ((hperm.map fun p : Post => p.info.id).nodup_iff).mpr h.distinct
  rw [List.map_cons, List.nodup_cons] at hdistinct
  exact hdistinct.1 (hid ▸ List.mem_map_of_mem hother)

/-- **A creation goes on**, whether or not it is answered: it puts its upload into memory,
    which has no chunks yet. -/
theorem of_registered (h : t.IsSound config mount) {i : Nat} (hi : t.suspended[i]? = some post)
    {answered : List Post} (hanswered : answered.Sublist [post]) :
    ({ t.withDeployment (t.service.register post).deployment with
        suspended := t.suspended.eraseIdx i
        created := t.created ++ answered } : Traffic).IsSound config mount := by
  have hpost : post ∈ t.suspended := List.mem_of_getElem? hi
  have hapart := h.ne_of_suspended hi
  have hannounces := Engine.register_announces t.service.deployment.config t.service.deployment.engine post.info
  have hkept : ((t.created ++ answered) ++ t.suspended.eraseIdx i).Sublist
      (t.created ++ post :: t.suspended.eraseIdx i) := by
    rw [List.append_assoc]
    exact (List.Sublist.refl _).append (hanswered.append (List.Sublist.refl _))
  have hlisted : ∀ other ∈ (t.created ++ answered) ++ t.suspended.eraseIdx i,
      other ∈ t.created ++ t.suspended := by
    intro other hother
    exact (perm_of_suspended hi).mem_iff.mp (hkept.subset hother)
  refine ⟨h.config_eq, h.mount_eq, ?_, ?_, ?_, ?_, ?_, ?_, ?_⟩
  · exact (Engine.isClosed_of_publishes hannounces.publishes).trans h.isOpen
  · intro id info hinfo
    rcases hannounces.get?_cases hinfo with ⟨hid, rfl, -⟩ | ⟨-, hgrown⟩
    · exact hid
    · exact h.ids id info hgrown.before
  · intro id hid
    apply (Store.keepsRows_of_eq (congrArg Store.rows hannounces.publishes.store)).mem_keys
    rcases hid with hmem | ⟨other, hother, hid⟩ | hsome
    · obtain ⟨info, hinfo⟩ := OrderedMap.mem_keys_iff.mp hmem
      rcases hannounces.get?_cases hinfo with ⟨hid, -, -⟩ | ⟨-, hgrown⟩
      · exact h.rows id (Or.inr (Or.inl ⟨post, List.mem_append_right _ hpost, hid⟩))
      · exact h.rows id (Or.inl (OrderedMap.mem_keys_iff.mpr ⟨info, hgrown.before⟩))
    · exact h.rows id (Or.inr (Or.inl ⟨other, hlisted other hother, hid⟩))
    · exact h.rows id (Or.inr (Or.inr hsome))
  · intro other hother
    exact h.genuine other (hlisted other hother)
  · have hdistinct := (((perm_of_suspended hi).map fun p : Post => p.info.id).nodup_iff).mpr h.distinct
    exact hdistinct.sublist (hkept.map _)
  · intro other hother
    obtain ⟨habsent, hempty⟩ := h.untouched other (List.mem_of_mem_eraseIdx hother)
    refine ⟨?_, hempty⟩
    apply OrderedMap.get?_eq_none_iff.mpr
    intro hmem
    obtain ⟨info, hinfo⟩ := OrderedMap.mem_keys_iff.mp hmem
    rcases hannounces.get?_cases hinfo with ⟨hid, -, -⟩ | ⟨-, hgrown⟩
    · exact hapart other (List.mem_append_right _ hother) hid.symm
    · cases habsent.symm.trans hgrown.before
  · intro other hother info hinfo
    rcases List.mem_append.mp hother with hother | hother
    · rcases hannounces.get?_cases hinfo with ⟨hid, -, -⟩ | ⟨-, hgrown⟩
      · exact absurd hid.symm (hapart other (List.mem_append_left _ hother))
      · exact h.held other hother info hgrown.before
    · obtain rfl := List.mem_singleton.mp (hanswered.subset hother)
      rcases hannounces.get?_cases hinfo with ⟨-, rfl, -⟩ | ⟨hne, -⟩
      · have hnone : t.chunks other.info.id = [] := (h.untouched other hpost).2
        have hzero := (h.genuine other (List.mem_append_right _ hpost)).offset_eq
        change other.info = other.info.withOffset (t.chunks other.info.id).flatten.length
        rw [hnone, UploadInfo.withOffset, List.flatten_nil, List.length_nil, ← hzero]
      · exact absurd rfl hne

theorem register (h : t.IsSound config mount) (i : Nat) : (t.step (.register i)).IsSound config mount := by
  cases hi : t.suspended[i]? with
  | none =>
    rw [step_register_of_none hi]
    exact h
  | some post =>
    rw [step_register_of_some hi]
    apply h.of_registered hi
    split
    · exact List.Sublist.refl _
    · exact List.nil_sublist _

theorem answer_of_same (h : t.IsSound config mount)
    (hdeployment : (t.service.answer now request).deployment = t.service.deployment)
    (hposted : t.service.posted? now request = none) (hpatched : t.service.patched? now request = none) :
    (t.step (.answer now request)).IsSound config mount := by
  have hstep : t.step (.answer now request) = t := by
    simp only [Traffic.step, hdeployment, hposted, hpatched, Option.toList_none, List.append_nil]
    rfl
  rw [hstep]
  exact h

/-- A request after which the engine has gone on, and its uploads have grown by the chunk
    that the request adds. -/
theorem answer_of_grown (h : t.IsSound config mount) {engine : Engine} {added : Text → List Bytes}
    (hdeployment : (t.service.answer now request).deployment = { t.service.deployment with engine })
    (hgoes : t.service.deployment.engine.GoesOn engine) (hposted : t.service.posted? now request = none)
    (hpatched : ∀ id, ((t.service.patched? now request).toList.filter (·.1 = id)).map Prod.snd = added id)
    (hadded : ∀ id, added id ≠ [] → id ∈ t.uploads.keys)
    (hgrown : ∀ id info', engine.uploads.get? id = some info' →
      ∃ info, t.service.deployment.engine.Grown engine (added id) id info info') :
    (t.step (.answer now request)).IsSound config mount := by
  obtain ⟨events, hpublishes, -⟩ := hgoes
  have hafter : (t.step (.answer now request)).service.deployment = { t.service.deployment with engine } :=
    hdeployment
  have hcreated : (t.step (.answer now request)).created = t.created := by
    simp only [Traffic.step, hposted, Option.toList_none, List.append_nil]
  have hchunks : ∀ id, (t.step (.answer now request)).chunks id = t.chunks id ++ added id := by
    intro id
    rw [← hpatched id]
    exact chunks_append rfl id
  refine h.of_grown ?_ rfl ?_ ?_ rfl hcreated hchunks hadded ?_
  · rw [hafter]
  · rw [hafter]
    exact Engine.isClosed_of_publishes hpublishes
  · rw [hafter]
    exact Store.keepsRows_of_eq (congrArg Store.rows hpublishes.store)
  · rw [uploads, hafter]
    exact hgrown

/-- **A chunk that is written** is added to its upload if it is accepted. -/
theorem answer_patch (h : t.IsSound config mount) {id : Text}
    (hfind : Route.find t.service.mount request.method request.path = .endpoint .patch id)
    (hvisible : t.service.mount.hidesParameter = false) :
    (t.step (.answer now request)).IsSound config mount := by
  have hstatus := Service.hasStatus_answer now (by decide : 204 < 400) hfind
  have hdeployment := Service.deployment_answer now hfind
  have hposted : t.service.posted? now request = none := by rw [Service.posted?, hfind]
  have hpatched : t.service.patched? now request
      = if Service.hasStatus (t.service.run now request id .patch).answer 204 then some (id, request.body)
        else none := by
    rw [Service.patched?, hfind, ← hstatus]
  rw [Service.run_of_visible hvisible (by decide), Service.runOn, Service.patch] at hdeployment hpatched
  cases hoffset : Service.numberHeader request Service.uploadOffset with
  | error e =>
    rw [hoffset] at hdeployment hpatched
    exact h.answer_of_same hdeployment hposted hpatched
  | ok offset =>
    rw [hoffset] at hdeployment hpatched
    simp only [Service.hasStatus_written, Deployment.write, Deployment.afterReply] at hpatched
    apply h.answer_of_grown hdeployment (Engine.write_goesOn _ _ _ _ _) hposted ?_
      (fun _ => Engine.mem_uploads_of_chunksAdded)
      (fun _ _ => Engine.write_grown h.ids h.isOpen)
    intro other
    rw [hpatched, Engine.chunksAdded]
    by_cases haccepted : (t.service.deployment.engine.write t.service.deployment.config id offset
        request.body).answer.isOk
    · rw [if_pos haccepted, if_congr (and_iff_left haccepted) rfl rfl]
      by_cases hid : id = other
      · simp [hid]
      · simp [hid]
    · rw [if_neg haccepted, if_neg fun hboth => haccepted hboth.2]
      rfl

theorem answer_delete (h : t.IsSound config mount) {id : Text}
    (hfind : Route.find t.service.mount request.method request.path = .endpoint .delete id)
    (hvisible : t.service.mount.hidesParameter = false) :
    (t.step (.answer now request)).IsSound config mount := by
  have hdeployment := Service.deployment_answer now hfind
  rw [Service.run_of_visible hvisible (by decide)] at hdeployment
  have hposted : t.service.posted? now request = none := by rw [Service.posted?, hfind]
  have hpatched : ∀ other, ((t.service.patched? now request).toList.filter (·.1 = other)).map Prod.snd = [] := by
    intro other
    rw [Service.patched?, hfind]
    rfl
  apply h.answer_of_grown hdeployment (Engine.terminate_goesOn _ _) hposted hpatched
  · intro other hne
    exact absurd rfl hne
  · intro other info' hget
    exact ⟨info', Engine.terminate_grown hget⟩

/-- **Every answer keeps what is known** of the uploads in memory. -/
theorem answer (h : t.IsSound config mount) (now : Moment) (request : Request) :
    (t.step (.answer now request)).IsSound config mount := by
  cases hfind : Route.find t.service.mount request.method request.path with
  | endpoint r id =>
    -- the two routes of a creation are its two halves, all others leave the lists of creations alone
    by_cases hcreation : r = .create ∨ r = .createSlash
    · rcases step_answer_of_creation hfind hcreation with hstep | hstep
      · rw [hstep]
        exact h.enroll now request
      · rw [hstep]
        exact (h.enroll now request).register _
    · have hdeployment := Service.deployment_answer now hfind
      cases hhidden : t.service.mount.hidesParameter with
      | true =>
        rw [Service.run_of_hidden hhidden hcreation] at hdeployment
        apply h.answer_of_same hdeployment
        · rw [Service.posted?, hfind]
          cases r <;> simp_all
        · exact Service.patched?_of_hidden now hhidden
      | false =>
        rw [Service.run_of_visible hhidden hcreation] at hdeployment
        cases r with
        | create => exact absurd (Or.inl rfl) hcreation
        | createSlash => exact absurd (Or.inr rfl) hcreation
        | patch => exact h.answer_patch hfind hhidden
        | delete => exact h.answer_delete hfind hhidden
        | head =>
          apply h.answer_of_same hdeployment
          · rw [Service.posted?, hfind]
          · rw [Service.patched?, hfind]
        | get =>
          apply h.answer_of_same (hdeployment.trans (Service.deployment_get _ id))
          · rw [Service.posted?, hfind]
          · rw [Service.patched?, hfind]
        | getNamed =>
          apply h.answer_of_same (hdeployment.trans (Service.deployment_get _ id))
          · rw [Service.posted?, hfind]
          · rw [Service.patched?, hfind]
  | _ =>
    apply h.answer_of_same
    · apply Service.deployment_answer_of_no_endpoint
      intro r id hfound
      cases hfind.symm.trans hfound
    · rw [Service.posted?, hfind]
    · rw [Service.patched?, hfind]

theorem of_isIdle {s : Service} (h : s.IsIdle) : IsSound s.deployment.config s.mount { service := s } := by
  have hnone : ∀ id, s.deployment.engine.uploads.get? id = none := by
    intro id
    rw [h.uploads]
    rfl
  refine ⟨rfl, rfl, h.isOpen, ?_, ?_, List.forall_mem_nil _, List.nodup_nil, List.forall_mem_nil _,
    List.forall_mem_nil _⟩
  · intro id info hinfo
    cases (hnone id).symm.trans hinfo
  · rintro id (hmem | ⟨post, hpost, -⟩ | hsome)
    · exact absurd hmem (OrderedMap.get?_eq_none_iff.mp (hnone id))
    · cases hpost
    · exact absurd rfl hsome

/-- **Every action keeps what is known** of the uploads in memory. -/
theorem step (h : t.IsSound config mount) (a : Action) : (t.step a).IsSound config mount := by
  cases a with
  | answer now request => exact h.answer now request
  | enroll now request => exact h.enroll now request
  | register i => exact h.register i
  | distribute => exact h.of_quiet (Deployment.rests_distribute _) rfl rfl rfl rfl
  | consume i => exact h.of_quiet (Deployment.rests_consume i _) rfl rfl rfl rfl
  | endWrite i => exact h.of_quiet (Deployment.rests_endWrite i _) rfl rfl rfl rfl

theorem run (h : t.IsSound config mount) (actions : List Action) : (t.run actions).IsSound config mount := by
  induction actions generalizing t with
  | nil => exact h
  | cons a actions ih => exact ih (h.step a)

end IsSound

end Traffic

end Http

end UploadGate
