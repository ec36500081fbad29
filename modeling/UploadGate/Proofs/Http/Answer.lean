/-
  UploadGate/Proofs/Http/Answer.lean
  ==================================
  **From what an endpoint makes of a request to the answer that is sent.**

  A request that leads to an endpoint is no preflight, so it is answered with
  what the endpoint makes of it.  A refusal is put into words on the way, and the
  check of origins touches three headers only.
-/
import Mathlib.Control.Monad.Basic
import UploadGate.Http.Service

namespace UploadGate.Http

/-! ### Headers -/

namespace Headers

variable {headers : Headers} {name other value : Text}

theorem values_append (headers more : Headers) (name : Text) :
    Headers.values (headers ++ more) name = headers.values name ++ Headers.values more name := by
  unfold values
  rw [List.filter_append, List.map_append]

/-- Headers that are found in another way than by a name are not erased with it. -/
theorem filter_erase {p : Text × Text → Bool} (h : ∀ value, p (other, value) = false) :
    (headers.erase other).filter p = headers.filter p := by
  unfold erase
  rw [List.filter_filter]
  apply List.filter_congr
  intro entry _
  by_cases hname : entry.1 = other
  · have hnot : p entry = false := by
      rw [← hname] at h
      exact h entry.2
    rw [hnot, Bool.false_and]
  · simp [hname]

/-- Headers that are found in another way than by a name stay when it is set. -/
theorem filter_set {p : Text × Text → Bool} (h : ∀ value, p (other, value) = false) (value : Text) :
    (headers.set other value).filter p = headers.filter p := by
  induction headers with
  | nil => exact List.filter_cons_of_neg (by simp [h value])
  | cons entry headers ih =>
    unfold set
    by_cases hname : entry.1 = other
    · have hnot : p entry = false := by
        rw [← hname] at h
        exact h entry.2
      rw [if_pos hname, List.filter_cons_of_neg (by simp [h value]), List.filter_cons_of_neg (by simp [hnot])]
      exact filter_erase h
    · rw [if_neg hname, List.filter_cons, List.filter_cons, ih]

theorem values_erase_of_ne (h : name ≠ other) : (headers.erase other).values name = headers.values name :=
  congrArg (List.map Prod.snd) (filter_erase fun _ => decide_eq_false (Ne.symm h))

theorem values_set_of_ne (h : name ≠ other) : (headers.set other value).values name = headers.values name :=
  congrArg (List.map Prod.snd) (filter_set (fun _ => decide_eq_false (Ne.symm h)) value)

theorem first?_set_of_ne (h : name ≠ other) : (headers.set other value).first? name = headers.first? name :=
  congrArg List.head? (values_set_of_ne h)

theorem first?_erase_of_ne (h : name ≠ other) : (headers.erase other).first? name = headers.first? name :=
  congrArg List.head? (values_erase_of_ne h)

end Headers

/-- The check of origins adds to three headers and leaves all others. -/
theorem Cors.first?_decorate (rule : VaryRule) (allowed? : Option Text) (response : Response) {name : Text}
    (horigin : name ≠ allowOrigin) (hexpose : name ≠ exposeHeaders) (hvary : name ≠ vary) :
    (decorate rule allowed? response).headers.first? name = response.headers.first? name := by
  unfold decorate
  rw [Headers.first?_set_of_ne hvary]
  cases allowed? with
  | none => exact Headers.first?_erase_of_ne horigin
  | some o =>
    unfold grant
    rw [Headers.first?_set_of_ne hexpose, Headers.first?_set_of_ne horigin]

/-! ### Routes -/

theorem Route.method_of_find {m : Mount} {method path id : Text} {r : Route}
    (h : Route.find m method path = .endpoint r id) : r.method = method := by
  unfold Route.find at h
  simp only at h
  split at h
  · rename_i found hfound
    obtain ⟨rfl, rfl⟩ := Route.Target.endpoint.inj h
    simpa using List.find?_some hfound
  · split at h
    · cases h
    · unfold Route.elsewhere at h
      split at h
      · cases h
      · cases h

/-- No endpoint has the method of a preflight. -/
theorem Route.method_ne_options (r : Route) : r.method ≠ Text.of "OPTIONS" := by
  cases r <;> decide

theorem Cors.isPreflight_of_find {m : Mount} {request : Request} {id : Text} {r : Route}
    (h : Route.find m request.method request.path = .endpoint r id) : Cors.isPreflight request = false := by
  have hmethod : request.method ≠ Text.of "OPTIONS" := Route.method_of_find h ▸ r.method_ne_options
  simp [isPreflight, hmethod]

/-! ### Details -/

namespace Response

/-- A detail is sent, or it has no octets. -/
theorem ofDetail_cases (status : Nat) (detail : Json) (headers : Headers) :
    (∃ body, Utf8.encode? (Json.object [(Text.of "detail", detail)]).write = some body
        ∧ ofDetail status detail headers
          = .ok ⟨status, headers ++ [(Text.of "content-type", Text.of "application/json")], body⟩)
      ∨ (Utf8.encode? (Json.object [(Text.of "detail", detail)]).write = none
        ∧ ofDetail status detail headers = .error (.value .unencodable)) := by
  unfold ofDetail
  split
  · rename_i hencode
    exact Or.inr ⟨hencode, rfl⟩
  · rename_i body hencode
    exact Or.inl ⟨body, hencode, rfl⟩

end Response

namespace Service

/-! ### A server and a request -/

/-- A server at a path without parameters, as it is once it is started. -/
def runningAt (path : Text) : Service where
  deployment :=
    { config := { basePath := path }
      engine :=
        { store := (Store.atPath (Text.of ":memory:")).connect
          broadcaster := { queueLimit := 0, distributor := .running }
          telemetry := ⟨⟨1000, []⟩, ⟨1000, []⟩⟩ } }
  mount := ⟨path, [.literal path]⟩
  framework := .splitting

/-- The midnight that a year began with. -/
def newYear : Moment := ⟨.integer 1704067200, { year := 2024, month := 1, day := 1 }, 900⟩

def creationAt (path : Text) : Request where
  method := Text.of "POST"
  path := path
  headers := Headers.ofList [(Text.of "Host", Text.of "testserver"), (uploadLength, Text.of "1")]
  client? := some ⟨Text.of "192.0.2.1", 1⟩

/-! ### Answers -/

variable {s : Service} {now : Moment} {request : Request} {id : Text} {r : Route}

/-- A refusal is put into words, once the path is known that is logged. -/
theorem refused_of_upload {f : Framework} {o : Outcome} {e : UploadError} {path : Text}
    (h : o.answer = .error (.upload e)) (hpath : f.shownPath request.url = .ok path) :
    refused f request o
      = ⟨Response.detail e.status e.detail [], o.deployment,
        o.logs ++ [refusalRecord request.method path e]⟩ := by
  unfold refused
  simp only [h, hpath]

/-- A refusal of a request without a URL is no refusal any more. -/
theorem refused_of_no_url {f : Framework} {o : Outcome} {e : UploadError} {fault : ValueFault}
    (h : o.answer = .error (.upload e)) (hurl : f.shownPath request.url = .error fault) :
    refused f request o = { o with answer := .error (.value fault) } := by
  unfold refused
  simp only [h, hurl]

/-- Every other outcome is left as it is. -/
theorem refused_of_not_upload {f : Framework} {o : Outcome} (h : ∀ e, o.answer ≠ .error (.upload e)) :
    refused f request o = o := by
  unfold refused
  split
  · rename_i e he
    exact absurd he (h e)
  · rfl

theorem deployment_refused (f : Framework) (request : Request) (o : Outcome) :
    (refused f request o).deployment = o.deployment := by
  unfold refused
  split
  · split <;> rfl
  · rfl

/-- **A request that leads to an endpoint** is answered with what becomes of it there. -/
theorem answer_of_find (now : Moment)
    (hfind : Route.find s.mount request.method request.path = .endpoint r id) :
    s.answer now request = { refused s.framework request (s.run now request id r) with
      answer := (refused s.framework request (s.run now request id r)).answer.map
        (Cors.decorate s.framework.vary (Cors.allowed? s.deployment.config.corsOrigins request)) } := by
  have hroute : s.dispatch now request = refused s.framework request (s.run now request id r) := by
    unfold dispatch
    rw [hfind]
  unfold answer
  rw [← hroute]
  simp only [Cors.isPreflight_of_find hfind, Bool.false_eq_true, if_false]

theorem deployment_answer (now : Moment)
    (hfind : Route.find s.mount request.method request.path = .endpoint r id) :
    (s.answer now request).deployment = (s.run now request id r).deployment := by
  rw [answer_of_find now hfind]
  exact deployment_refused s.framework request _

theorem answer_of_ok {response : Response}
    (hfind : Route.find s.mount request.method request.path = .endpoint r id)
    (hrun : (s.run now request id r).answer = .ok response) :
    (s.answer now request).answer = .ok (Cors.decorate s.framework.vary
      (Cors.allowed? s.deployment.config.corsOrigins request) response) := by
  have hkept : ∀ e, (s.run now request id r).answer ≠ .error (.upload e) := by
    intro e he
    rw [hrun] at he
    cases he
  rw [answer_of_find now hfind, refused_of_not_upload hkept, hrun]
  rfl

theorem answer_of_upload {e : UploadError} {path : Text}
    (hfind : Route.find s.mount request.method request.path = .endpoint r id)
    (hrun : (s.run now request id r).answer = .error (.upload e))
    (hpath : s.framework.shownPath request.url = .ok path) :
    (s.answer now request).answer = (Response.detail e.status e.detail []).map
      (Cors.decorate s.framework.vary (Cors.allowed? s.deployment.config.corsOrigins request)) := by
  rw [answer_of_find now hfind, refused_of_upload hrun hpath]

theorem answer_of_no_url {e : UploadError} {fault : ValueFault}
    (hfind : Route.find s.mount request.method request.path = .endpoint r id)
    (hrun : (s.run now request id r).answer = .error (.upload e))
    (hurl : s.framework.shownPath request.url = .error fault) :
    (s.answer now request).answer = .error (.value fault) := by
  rw [answer_of_find now hfind, refused_of_no_url hrun hurl]
  rfl

theorem answer_of_failure {failure : Failure}
    (hfind : Route.find s.mount request.method request.path = .endpoint r id)
    (hrun : (s.run now request id r).answer = .error failure) (hother : ∀ e, failure ≠ .upload e) :
    (s.answer now request).answer = .error failure := by
  have hkept : ∀ e, (s.run now request id r).answer ≠ .error (.upload e) := by
    intro e he
    rw [hrun] at he
    exact hother e (Except.error.inj he)
  rw [answer_of_find now hfind, refused_of_not_upload hkept, hrun]
  rfl

end Service

end UploadGate.Http
