/-
  UploadGate/Proofs/Http/CrossOrigin.lean
  =======================================
  **A listed origin is named once, and nothing else depends on the origin.**

  The check of origins works on three headers.  What is left of an answer without
  them (`Cors.plain`) is what the routes made of the request, and it is the same
  whatever origin the request names, for a single answer and for the server as a
  whole (`Service.dispatch_eq`).  A browser reads a header in whatever letter case
  its name is written, the check only in small letters: what an application names
  in other letters (`Headers.unseen`) passes it, also to an origin that is not
  listed.
-/
import UploadGate.Proofs.Http.Answer
import UploadGate.Proofs.Text.Cutting

namespace UploadGate

namespace Http

/-! ### Names in whatever letter case -/

namespace Headers

variable {headers : Headers} {name value : Text}

/-- The values of the headers that have a name, in whatever letter case. -/
def named (headers : Headers) (name : Text) : List Text :=
  (headers.filter fun h => h.1.map CodePoint.lowerAscii = name).map Prod.snd

/-- The headers that have none of some names, in whatever letter case. -/
def without (headers : Headers) (names : List Text) : Headers :=
  headers.filter fun h => !names.contains (h.1.map CodePoint.lowerAscii)

/-- The values of the headers that have a name, but not in small letters. -/
def unseen (headers : Headers) (name : Text) : List Text :=
  (headers.filter fun h => h.1.map CodePoint.lowerAscii = name && h.1 ≠ name).map Prod.snd

theorem unseen_append (headers more : Headers) (name : Text) :
    Headers.unseen (headers ++ more) name = headers.unseen name ++ Headers.unseen more name := by
  unfold unseen
  rw [List.filter_append, List.map_append]

/-- A header in whatever letter case is one in small letters or one in others. -/
theorem named_perm (headers : Headers) (hname : name.map CodePoint.lowerAscii = name) :
    (headers.named name).Perm (headers.values name ++ headers.unseen name) := by
  have hcases := List.filter_append_perm (fun h : Text × Text => decide (h.1 = name))
    (headers.filter fun h => h.1.map CodePoint.lowerAscii = name)
  have hsmall : (headers.filter fun h => h.1.map CodePoint.lowerAscii = name).filter
      (fun h => decide (h.1 = name)) = headers.filter fun h => h.1 = name := by
    rw [List.filter_filter]
    apply List.filter_congr
    intro entry _
    by_cases hentry : entry.1 = name
    · simp [hentry, hname]
    · simp [hentry]
  have hothers : (headers.filter fun h => h.1.map CodePoint.lowerAscii = name).filter
      (fun h => !decide (h.1 = name))
      = headers.filter fun h => h.1.map CodePoint.lowerAscii = name && h.1 ≠ name := by
    rw [List.filter_filter]
    apply List.filter_congr
    intro entry _
    rw [Bool.and_comm, decide_not]
  rw [hsmall, hothers] at hcases
  unfold named values unseen
  rw [← List.map_append]
  exact (hcases.map Prod.snd).symm

theorem values_erase_self (headers : Headers) (name : Text) : (headers.erase name).values name = [] := by
  unfold values erase
  rw [List.filter_filter, List.map_eq_nil_iff, List.filter_eq_nil_iff]
  simp

theorem values_cons (entry : Text × Text) (headers : Headers) (name : Text) :
    Headers.values (entry :: headers) name
      = if entry.1 = name then entry.2 :: headers.values name else headers.values name := by
  unfold values
  by_cases h : entry.1 = name
  · simp [h]
  · simp [h]

theorem values_set_self (headers : Headers) (name value : Text) :
    (headers.set name value).values name = [value] := by
  induction headers with
  | nil => exact (values_cons (name, value) [] name).trans (if_pos rfl)
  | cons entry headers ih =>
    unfold set
    by_cases hentry : entry.1 = name
    · rw [if_pos hentry, values_cons, if_pos rfl, values_erase_self]
    · rw [if_neg hentry, values_cons, if_neg hentry, ih]

/-- Work on small names is not seen in other letters. -/
theorem not_unseen (other : Text) (hname : name.map CodePoint.lowerAscii = name) (value : Text) :
    (decide ((name, value).1.map CodePoint.lowerAscii = other) && decide ((name, value).1 ≠ other)) = false := by
  rw [hname]
  by_cases h : name = other
  · simp [h]
  · simp [h]

theorem unseen_erase (other : Text) (hname : name.map CodePoint.lowerAscii = name) :
    (headers.erase name).unseen other = headers.unseen other :=
  congrArg (List.map Prod.snd) (filter_erase (not_unseen other hname))

theorem unseen_set (other : Text) (hname : name.map CodePoint.lowerAscii = name) (value : Text) :
    (headers.set name value).unseen other = headers.unseen other :=
  congrArg (List.map Prod.snd) (filter_set (not_unseen other hname) value)

theorem without_erase {names : List Text} (hname : name.map CodePoint.lowerAscii = name) (h : name ∈ names) :
    (headers.erase name).without names = headers.without names :=
  filter_erase fun _ => by simp [hname, h]

/-- A header that is left out may as well be set. -/
theorem without_set {names : List Text} (hname : name.map CodePoint.lowerAscii = name) (h : name ∈ names)
    (value : Text) : (headers.set name value).without names = headers.without names :=
  filter_set (fun _ => by simp [hname, h]) value

end Headers

/-! ### Requests that differ in their origin -/

/-- Two requests differ at most in the origin that they name. -/
structure Request.AlikeButOrigin (request request' : Request) : Prop where
  method : request'.method = request.method
  path : request'.path = request.path
  headers : request'.headers.erase (Text.of "origin") = request.headers.erase (Text.of "origin")
  body : request'.body = request.body
  client : request'.client? = request.client?
  query : request'.query = request.query
  isSecure : request'.isSecure = request.isSecure
  server : request'.server? = request.server?

theorem Request.AlikeButOrigin.first?_eq {request request' : Request} (h : request.AlikeButOrigin request')
    {name : Text} (hname : name ≠ Text.of "origin") :
    request'.headers.first? name = request.headers.first? name := by
  have herased : (request'.headers.erase (Text.of "origin")).first? name = request'.headers.first? name :=
    Headers.first?_erase_of_ne hname
  rw [← herased, h.headers, Headers.first?_erase_of_ne hname]

/-! ### One answer -/

namespace Cors

variable {request request' : Request} {response : Response}

def touched : List Text := [allowOrigin, exposeHeaders, vary]

/-- What an answer is apart from the headers that the check of origins works on. -/
def plain (response : Response) : Response := { response with headers := response.headers.without touched }

/-- The origin of a request is named in its answer just when it is in the list, and the answer
    is said to depend on the origin. -/
structure IsGuarded (origins : List Text) (request : Request) (sent : Response) : Prop where
  listed : ∀ o ∈ origins, request.headers.first? (Text.of "origin") = some o →
    sent.headers.named allowOrigin = [o]
  unlisted : (∀ o ∈ origins, request.headers.first? (Text.of "origin") ≠ some o) →
    sent.headers.named allowOrigin = []
  depends : ∃ value, sent.headers.values vary = [value]
    ∧ origin ∈ (value.splitOn (.ofChar ',')).map Text.strip

theorem allowOrigin_small : allowOrigin.map CodePoint.lowerAscii = allowOrigin := by decide

theorem allowed?_eq_some_iff {origins : List Text} {o : Text} :
    allowed? origins request = some o ↔ o ∈ origins ∧ request.headers.first? (Text.of "origin") = some o := by
  rw [allowed?, Option.filter_eq_some_iff, List.contains_iff_mem]
  exact and_comm

theorem allowed?_eq_none_iff {origins : List Text} :
    allowed? origins request = none
      ↔ ∀ o ∈ origins, request.headers.first? (Text.of "origin") ≠ some o := by
  simp only [Option.eq_none_iff_forall_ne_some, ne_eq, allowed?_eq_some_iff, not_and]

theorem values_allowOrigin_preflight (allowed? : Option Text) :
    (preflight allowed?).headers.values allowOrigin = allowed?.toList := by
  have hnone : preflightHeaders.values allowOrigin = [] := by decide
  unfold preflight
  rw [Headers.values_append, hnone]
  cases allowed? with
  | none => rfl
  | some o => simp [Headers.values]

theorem unseen_preflight (allowed? : Option Text) : (preflight allowed?).headers.unseen allowOrigin = [] := by
  have hnone : preflightHeaders.unseen allowOrigin = [] := by decide
  unfold preflight
  rw [Headers.unseen_append, hnone, List.append_nil]
  cases allowed? with
  | none => rfl
  | some o =>
    refine congrArg (List.map Prod.snd) (List.filter_cons_of_neg ?_)
    rw [Headers.not_unseen allowOrigin allowOrigin_small]
    exact Bool.false_ne_true

theorem values_allowOrigin_decorate (rule : VaryRule) (allowed? : Option Text) (response : Response) :
    (decorate rule allowed? response).headers.values allowOrigin = allowed?.toList := by
  unfold decorate
  rw [Headers.values_set_of_ne (by decide)]
  cases allowed? with
  | none => exact Headers.values_erase_self _ _
  | some o =>
    unfold grant
    rw [Headers.values_set_of_ne (by decide), Headers.values_set_self]
    rfl

/-- What an application names in other letters is still there. -/
theorem unseen_decorate (rule : VaryRule) (allowed? : Option Text) (response : Response) :
    (decorate rule allowed? response).headers.unseen allowOrigin = response.headers.unseen allowOrigin := by
  unfold decorate
  rw [Headers.unseen_set allowOrigin (by decide)]
  cases allowed? with
  | none => exact Headers.unseen_erase allowOrigin allowOrigin_small
  | some o =>
    unfold grant
    rw [Headers.unseen_set allowOrigin (by decide), Headers.unseen_set allowOrigin allowOrigin_small]

/-- **An answer names the origin that is allowed**, and in small letters no other. -/
theorem values_allowOrigin_answer (rule : VaryRule) (origins : List Text) (request : Request) (inner : Response) :
    (answer rule origins request inner).headers.values allowOrigin = (allowed? origins request).toList := by
  unfold answer
  split
  · exact values_allowOrigin_preflight _
  · exact values_allowOrigin_decorate _ _ _

theorem named_allowOrigin_answer (rule : VaryRule) (origins : List Text) (request : Request) (inner : Response) :
    ((answer rule origins request inner).headers.named allowOrigin).Perm ((allowed? origins request).toList
      ++ if isPreflight request then [] else inner.headers.unseen allowOrigin) := by
  have hunseen : (answer rule origins request inner).headers.unseen allowOrigin
      = if isPreflight request then [] else inner.headers.unseen allowOrigin := by
    unfold answer
    split
    · exact unseen_preflight _
    · exact unseen_decorate _ _ _
  rw [← hunseen, ← values_allowOrigin_answer rule origins request inner]
  exact Headers.named_perm _ allowOrigin_small

/-- What is joined with the word for the origin at the end has this word among its pieces. -/
theorem origin_mem_join (values : List Text) :
    origin ∈ ((Text.join (Text.of ", ") (values ++ [origin])).splitOn (.ofChar ',')).map Text.strip := by
  have hlast : Text.splitOn (.ofChar ',') (Text.of " Origin") = [Text.of " Origin"] := by decide
  have hstrip : (Text.of " Origin").strip = origin := by decide
  by_cases hvalues : values = []
  · subst hvalues
    decide
  · rw [Text.join_append _ hvalues (List.cons_ne_nil _ _)]
    have hcut : Text.join (Text.of ", ") values ++ Text.of ", " ++ Text.join (Text.of ", ") [origin]
        = Text.join (Text.of ", ") values ++ .ofChar ',' :: Text.of " Origin" := by
      rw [List.append_assoc]
      rfl
    rw [hcut, Text.splitOn_append_cons, hlast, List.map_append]
    apply List.mem_append_right
    rw [List.map_singleton, hstrip]
    exact List.mem_singleton_self _

theorem exists_vary_answer (rule : VaryRule) (origins : List Text) (request : Request) (inner : Response) :
    ∃ value, (answer rule origins request inner).headers.values vary = [value]
      ∧ origin ∈ (value.splitOn (.ofChar ',')).map Text.strip := by
  unfold answer
  split
  · refine ⟨origin, ?_, origin_mem_join []⟩
    have hothers : preflightHeaders.values vary = [origin] := by decide
    unfold preflight
    rw [Headers.values_append, hothers]
    cases allowed? origins request with
    | none => rfl
    | some o =>
      have hother : Headers.values [(allowOrigin, o)] vary = [] := by
        have hne : allowOrigin ≠ vary := by decide
        simp [Headers.values, hne]
      exact congrArg (· ++ [origin]) hother
  · exact ⟨_, Headers.values_set_self _ _ _, origin_mem_join _⟩

/-- An answer is guarded just if no application names an origin in other letters. -/
theorem isGuarded_answer_iff (rule : VaryRule) (origins : List Text) (request : Request) (inner : Response) :
    IsGuarded origins request (answer rule origins request inner)
      ↔ isPreflight request = true ∨ inner.headers.unseen allowOrigin = [] := by
  have hnamed := named_allowOrigin_answer rule origins request inner
  have hpassed : (isPreflight request = true ∨ inner.headers.unseen allowOrigin = [])
      ↔ (if isPreflight request then [] else inner.headers.unseen allowOrigin) = [] := by
    cases isPreflight request <;> simp
  rw [hpassed]
  generalize (if isPreflight request then [] else inner.headers.unseen allowOrigin) = passed at hnamed
  constructor
  · intro h
    have hlength := hnamed.length_eq
    rw [List.length_append] at hlength
    apply List.eq_nil_of_length_eq_zero
    cases hallowed : allowed? origins request with
    | none =>
      rw [hallowed, h.unlisted (allowed?_eq_none_iff.mp hallowed)] at hlength
      simpa using hlength.symm
    | some o =>
      obtain ⟨ho, horigin⟩ := allowed?_eq_some_iff.mp hallowed
      rw [hallowed, h.listed o ho horigin] at hlength
      simpa using hlength.symm
  · rintro rfl
    rw [List.append_nil] at hnamed
    refine ⟨?_, ?_, exists_vary_answer rule origins request inner⟩
    · intro o ho horigin
      rw [allowed?_eq_some_iff.mpr ⟨ho, horigin⟩] at hnamed
      exact List.perm_singleton.mp hnamed
    · intro hnone
      rw [allowed?_eq_none_iff.mpr hnone] at hnamed
      exact List.perm_nil.mp hnamed

/-- The check of origins leaves everything else as it is. -/
theorem plain_decorate (rule : VaryRule) (allowed? : Option Text) (response : Response) :
    plain (decorate rule allowed? response) = plain response := by
  have hgrant : (grant response.headers allowed?).without touched = response.headers.without touched := by
    cases allowed? with
    | none => exact Headers.without_erase (by decide) (by decide)
    | some o =>
      unfold grant
      rw [Headers.without_set (by decide) (by decide), Headers.without_set (by decide) (by decide)]
  have hvary : ∀ (headers : Headers) value, (headers.set vary value).without touched = headers.without touched :=
    fun headers value => Headers.without_set (by decide) (by decide) value
  unfold plain decorate
  simp only [hvary, hgrant]

/-- A preflight is told the same from every origin. -/
theorem plain_preflight (allowed? : Option Text) : plain (preflight allowed?) = plain (preflight none) := by
  cases allowed? with
  | none => rfl
  | some o =>
    have hnone : Headers.without [(allowOrigin, o)] touched = [] := by
      have hname : allowOrigin.map CodePoint.lowerAscii ∈ touched := by decide
      simp [Headers.without, hname]
    unfold plain preflight Headers.without
    simp only [Option.map_some, Option.toList_some, List.filter_append]
    rw [← Headers.without, hnone]
    rfl

theorem isPreflight_eq (h : request.AlikeButOrigin request') : isPreflight request' = isPreflight request := by
  unfold isPreflight
  rw [h.method, h.first?_eq (by decide)]

theorem plain_answer_eq (h : request.AlikeButOrigin request') (rule : VaryRule) (origins : List Text)
    (inner : Response) :
    plain (answer rule origins request' inner) = plain (answer rule origins request inner) := by
  unfold answer
  rw [isPreflight_eq h]
  split
  · rw [plain_preflight, plain_preflight (allowed? origins request)]
  · rw [plain_decorate, plain_decorate]

end Cors

/-! ### The server -/

namespace Service

variable {s : Service} {now : Moment} {request request' : Request}

theorem header?_eq (h : request.AlikeButOrigin request') {name : Text}
    (hname : name.map CodePoint.lowerAscii ≠ Text.of "origin") : header? request' name = header? request name :=
  h.first?_eq hname

theorem url_eq (h : request.AlikeButOrigin request') : request'.url = request.url := by
  unfold Request.url
  rw [h.isSecure, h.first?_eq (by decide), h.server, h.path, h.query]

theorem numberHeader_eq (h : request.AlikeButOrigin request') {name : Text}
    (hname : name.map CodePoint.lowerAscii ≠ Text.of "origin") :
    numberHeader request' name = numberHeader request name := by
  unfold numberHeader
  rw [header?_eq h hname]

theorem uploadRequest_eq (h : request.AlikeButOrigin request') : uploadRequest request' = uploadRequest request := by
  unfold uploadRequest
  rw [header?_eq h (by decide), header?_eq h (by decide), h.client]

theorem create_eq (h : request.AlikeButOrigin request') : s.create now request' = s.create now request := by
  unfold create
  rw [numberHeader_eq h (by decide), uploadRequest_eq h, url_eq h]

theorem run_eq (h : request.AlikeButOrigin request') (id : Text) (r : Route) :
    s.run now request' id r = s.run now request id r := by
  have hpatch : ∀ d, patch d id request' = patch d id request := by
    intro d
    unfold patch
    rw [numberHeader_eq h (by decide), h.body]
  have hrunOn : ∀ d, runOn d request' id r = runOn d request id r := by
    intro d
    cases r with
    | patch => exact hpatch d
    | _ => rfl
  unfold run
  rw [create_eq h, hrunOn]

/-- **No route looks at the origin** of a request. -/
theorem dispatch_eq (h : request.AlikeButOrigin request') : s.dispatch now request' = s.dispatch now request := by
  have hrefused : ∀ o, refused s.framework request' o = refused s.framework request o := by
    intro o
    unfold refused
    rw [url_eq h, h.method]
  have hredirect : ∀ path, redirect s.framework request' path = redirect s.framework request path := by
    intro path
    unfold redirect
    rw [url_eq h]
  unfold dispatch
  simp only [h.method, h.path, hrefused, run_eq h, hredirect]

/-- A preflight does not get to the routes; every other answer is what they make of the request,
    with the check of origins behind it. -/
theorem answer_eq (s : Service) (now : Moment) (request : Request) (inner : Response) :
    s.answer now request
      = if Cors.isPreflight request then
          outcome s.deployment
            (.ok (Cors.answer s.framework.vary s.deployment.config.corsOrigins request inner))
        else { s.dispatch now request with
          answer := (s.dispatch now request).answer.map
            (Cors.answer s.framework.vary s.deployment.config.corsOrigins request) } := by
  unfold answer Cors.answer
  by_cases h : Cors.isPreflight request = true
  · simp only [h, if_true]
  · simp only [h, Bool.false_eq_true, if_false]

end Service

/-- **Origins decide about three headers alone.**  Whatever an application answers to a request,
    the answer that is sent names the origin of the request once if it is in the list and no
    origin otherwise, just if the application names none in letters that are not small; one that
    it does name stays.  The answer says that it depends on the origin.  A preflight is answered
    without the application; to every other request the answer is the application's apart from
    the three headers.  A request from another origin gets the same answer apart from these
    headers, and the server does the same work for it. -/
theorem Cors.answer_names_listed_origin (rule : VaryRule) (origins : List Text) (request : Request)
    (inner : Response) :
    let sent := answer rule origins request inner
    (IsGuarded origins request sent
        ↔ isPreflight request = true ∨ inner.headers.unseen allowOrigin = [])
      ∧ (sent.headers.named allowOrigin).Perm ((allowed? origins request).toList
        ++ if isPreflight request then [] else inner.headers.unseen allowOrigin)
      ∧ (∃ value, sent.headers.values vary = [value]
        ∧ origin ∈ (value.splitOn (.ofChar ',')).map Text.strip)
      ∧ (isPreflight request = true →
        sent.status = 204 ∧ ∀ inner', answer rule origins request inner' = sent)
      ∧ (isPreflight request = false → plain sent = plain inner)
      ∧ (∀ request', request.AlikeButOrigin request' → isPreflight request' = isPreflight request
        ∧ plain (answer rule origins request' inner) = plain sent
        ∧ ∀ (s : Service) (now : Moment), s.dispatch now request' = s.dispatch now request)
      ∧ ∀ (s : Service) (now : Moment), s.answer now request
        = if isPreflight request then
            Service.outcome s.deployment
              (.ok (answer s.framework.vary s.deployment.config.corsOrigins request inner))
          else { s.dispatch now request with
            answer := (s.dispatch now request).answer.map
              (answer s.framework.vary s.deployment.config.corsOrigins request) } := by
  intro sent
  refine ⟨isGuarded_answer_iff rule origins request inner, named_allowOrigin_answer rule origins request inner,
    exists_vary_answer rule origins request inner, ?_, ?_, ?_, ?_⟩
  · intro hpreflight
    have hsent : ∀ inner', answer rule origins request inner' = preflight (allowed? origins request) :=
      fun _ => if_pos hpreflight
    refine ⟨?_, fun inner' => (hsent inner').trans (hsent inner).symm⟩
    rw [show sent = _ from hsent inner]
    rfl
  · intro hplain
    have hsent : sent = decorate rule (allowed? origins request) inner := by
      apply if_neg
      rw [hplain]
      exact Bool.false_ne_true
    rw [hsent]
    exact plain_decorate _ _ _
  · intro request' halike
    exact ⟨isPreflight_eq halike, plain_answer_eq halike rule origins inner,
      fun _ _ => Service.dispatch_eq halike⟩
  · intro s now
    exact Service.answer_eq s now request inner

namespace Cors

def questionFrom (origin : Text) : Request where
  method := Text.of "GET"
  path := Text.of "/files/u1"
  headers := Headers.ofList [(Text.of "Origin", origin)]

/-- An answer to any origin, under a name for the header. -/
def openAnswer (name : Text) : Response := ⟨200, [(name, Text.of "*"), (vary, Text.of "Accept")], []⟩

theorem answer_names_listed_origin_open :
    let sent := answer .all [Text.of "https://a.example"] (questionFrom (Text.of "https://b.example"))
      (openAnswer allowOrigin)
    sent.headers.named allowOrigin = [] ∧ plain sent = plain (openAnswer allowOrigin) := by
  obtain ⟨hguarded, -, -, -, hplain, -⟩ := answer_names_listed_origin .all [Text.of "https://a.example"]
    (questionFrom (Text.of "https://b.example")) (openAnswer allowOrigin)
  have hunlisted : ∀ o ∈ [Text.of "https://a.example"],
      (questionFrom (Text.of "https://b.example")).headers.first? (Text.of "origin") ≠ some o := by
    intro o ho
    rw [List.mem_singleton.mp ho]
    decide
  exact ⟨(hguarded.mpr (Or.inr (by decide))).unlisted hunlisted, hplain (by decide)⟩

/-- **A header may pass the check**: an application that names any origin in other than small
    letters is read by a page from an origin that is not listed. -/
theorem exists_unguarded_answer :
    ¬ ∀ (rule : VaryRule) (origins : List Text) (request : Request) (inner : Response),
      IsGuarded origins request (answer rule origins request inner) := by
  intro h
  have hguarded := h .all [Text.of "https://a.example"] (questionFrom (Text.of "https://b.example"))
    (openAnswer (Text.of "Access-Control-Allow-Origin"))
  rw [isGuarded_answer_iff] at hguarded
  revert hguarded
  decide

end Cors

end Http

end UploadGate
