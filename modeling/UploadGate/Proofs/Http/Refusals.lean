/-
  UploadGate/Proofs/Http/Refusals.lean
  ====================================
  **Whether a refusal reaches the client.**

  A refusal is logged with the path of the request, and answered with its status
  and with its detail in JSON.  A request whose URL is malformed has no path to
  log.  Most of the texts that a detail shows are quoted there; those that stand
  as they are may hold a surrogate, and then the detail has no octets.  Either way
  the refusal has no answer.
-/
import UploadGate.Proofs.Http.Answer
import UploadGate.Proofs.Json.Quoting
import UploadGate.Proofs.Text.Utf8

namespace UploadGate

/-! ### Details -/

theorem MetadataFault.any_isSurrogate_message (fault : MetadataFault) :
    fault.message.any CodePoint.isSurrogate = false := by
  cases fault <;> simp [message]

theorem TokenFault.any_isSurrogate_message (fault : TokenFault) :
    fault.message.any CodePoint.isSurrogate = false := by
  cases fault with
  | notThreeSegments => simp [message]
  | unreadable part => cases part <;> simp [message, TokenPart.name]
  | issuerNotText => simp [message]
  | registeredClaims n => simp [message]

namespace UploadError

/-- The text that a detail shows as it is. -/
def verbatim : UploadError → Text
  | .signingMethod shown => shown
  | .notFound id => id
  | .missingHeader name => name
  | .invalidHeader name => name
  | _ => []

/-- What is the server's own fault is not told. -/
theorem detail_of_isExposed_eq_false {e : UploadError} (h : e.isExposed = false) :
    e.detail = Text.of "Internal Server Error" := by
  cases e with
  | address fault given => rfl
  | persistence fault => rfl
  | _ => cases h

/-- Surrogates get into a detail through a text that is shown as it is. -/
theorem any_isSurrogate_detail (e : UploadError) :
    e.detail.any CodePoint.isSurrogate = e.verbatim.any CodePoint.isSurrogate := by
  cases e with
  | metadata fault => simpa [detail, isExposed, message, verbatim] using fault.any_isSurrogate_message
  | token fault => simpa [detail, isExposed, message, verbatim] using fault.any_isSurrogate_message
  | _ => simp [detail, isExposed, message, verbatim]

end UploadError

/-! ### Details as octets -/

namespace Http

namespace Response

/-- Octets are an object in JSON whose only member is a detail. -/
def Tells (body : Bytes) (detail : Text) : Prop :=
  ∃ t, Utf8.decode? body = some t ∧ Json.read {} t = .ok (.object [(Text.of "detail", .text detail)])

theorem any_isSurrogate_write_detail (t : Text) :
    (Json.object [(Text.of "detail", .text t)]).write.any CodePoint.isSurrogate
      = t.any CodePoint.isSurrogate := by
  rw [Json.any_isSurrogate_write_object, Text.any_isSurrogate_of, Bool.false_or]

/-- A detail without surrogates is sent, and can be read. -/
theorem detail_of_any_eq_false {t : Text} (h : t.any CodePoint.isSurrogate = false) (status : Nat)
    (headers : Headers) :
    ∃ body, detail status t headers
        = .ok ⟨status, headers ++ [(Text.of "content-type", Text.of "application/json")], body⟩
      ∧ Tells body t := by
  have hplain := (any_isSurrogate_write_detail t).trans h
  have hencode := Utf8.encode?_eq_some_iff.mpr ⟨hplain, rfl⟩
  rcases ofDetail_cases status (.text t) headers with ⟨body, hbody, hsent⟩ | ⟨hnone, -⟩
  · refine ⟨body, hsent, _, Utf8.decode?_eq_some_iff.mpr hbody, ?_⟩
    exact Json.read_write_object rfl _ t
  · rw [hencode] at hnone
    cases hnone

/-- A detail with a surrogate has no octets. -/
theorem detail_of_any_eq_true {t : Text} (h : t.any CodePoint.isSurrogate = true) (status : Nat)
    (headers : Headers) : detail status t headers = .error (.value .unencodable) := by
  rcases ofDetail_cases status (.text t) headers with ⟨body, hbody, -⟩ | ⟨-, hfailed⟩
  · have hplain := (Utf8.encode?_eq_some_iff.mp hbody).1
    rw [any_isSurrogate_write_detail, h] at hplain
    cases hplain
  · exact hfailed

end Response

/-! ### Refusals -/

namespace Service

variable {s : Service} {now : Moment} {request : Request} {r : Route} {id : Text} {e : UploadError}

/-- **What becomes of a refusal**, whichever endpoint it comes from.  Where the URL of the
    request shows a path, the refusal is answered with its status and with its detail in
    JSON, unless the detail holds a surrogate, and has no answer then; where it shows none,
    there is no answer either.  A detail that is not the message never holds a surrogate; one
    that is does just if a text does that it shows as it is. -/
theorem answer_refusal (hfind : Route.find s.mount request.method request.path = .endpoint r id)
    (hrefused : (s.run now request id r).answer = .error (.upload e)) :
    (∀ path, s.framework.shownPath request.url = .ok path →
        (e.detail.any CodePoint.isSurrogate = false → ∃ response, (s.answer now request).answer = .ok response
          ∧ response.status = e.status
          ∧ response.headers.first? (Text.of "content-type") = some (Text.of "application/json")
          ∧ Response.Tells response.body e.detail)
        ∧ (e.detail.any CodePoint.isSurrogate = true →
          (s.answer now request).answer = .error (.value .unencodable)))
      ∧ (∀ fault, s.framework.shownPath request.url = .error fault →
        (s.answer now request).answer = .error (.value fault))
      ∧ (e.isExposed = false → e.detail = Text.of "Internal Server Error")
      ∧ e.detail.any CodePoint.isSurrogate = e.verbatim.any CodePoint.isSurrogate := by
  refine ⟨?_, ?_, UploadError.detail_of_isExposed_eq_false, e.any_isSurrogate_detail⟩
  · intro path hpath
    have hanswer := answer_of_upload hfind hrefused hpath
    constructor
    · intro hplain
      obtain ⟨body, hsent, htells⟩ := Response.detail_of_any_eq_false hplain e.status []
      rw [hsent] at hanswer
      refine ⟨_, hanswer, rfl, ?_, htells⟩
      rw [Cors.first?_decorate _ _ _ (by decide) (by decide) (by decide)]
      rfl
    · intro hsurrogate
      rw [Response.detail_of_any_eq_true hsurrogate] at hanswer
      exact hanswer
  · intro fault hurl
    exact answer_of_no_url hfind hrefused hurl

def missingQuestion : Request where
  method := Text.of "HEAD"
  path := Text.of "/files/missing"
  headers := Headers.ofList [(Text.of "Host", Text.of "testserver")]

theorem answer_refusal_missing :
    ∃ response, ((runningAt (Text.of "/files")).answer newYear missingQuestion).answer = .ok response
      ∧ response.status = 404 ∧ Response.Tells response.body (Text.of "Upload missing not found") := by
  have hfind : Route.find (runningAt (Text.of "/files")).mount missingQuestion.method missingQuestion.path
      = .endpoint .head (Text.of "missing") := by decide +kernel
  have hrefused : ((runningAt (Text.of "/files")).run newYear missingQuestion (Text.of "missing") .head).answer
      = .error (.upload (.notFound (Text.of "missing"))) := by decide +kernel
  have hpath : (runningAt (Text.of "/files")).framework.shownPath missingQuestion.url
      = .ok (Text.of "/files/missing") := by decide +kernel
  obtain ⟨hanswered, -⟩ := answer_refusal hfind hrefused
  have hplain : (UploadError.notFound (Text.of "missing")).detail.any CodePoint.isSurrogate = false := by
    decide +kernel
  obtain ⟨response, hresponse, hstatus, -, htells⟩ := (hanswered _ hpath).1 hplain
  exact ⟨response, hresponse, hstatus, htells⟩

/-- A creation with a token whose header names a lone surrogate as its algorithm. -/
def surrogateCreation : Request where
  method := Text.of "POST"
  path := Text.of "/files"
  headers := Headers.ofList [(Text.of "Host", Text.of "testserver"), (uploadLength, Text.of "1"),
    (uploadMetadata, Text.of "extjwt ZXlKaGJHY2lPaUpjZFdRNE1EQWlmUS4u")]
  client? := some ⟨Text.of "192.0.2.1", 1⟩

/-- **A refusal may have no answer**: the message about an algorithm shows its name, and
    there are no octets for a name that holds a surrogate. -/
theorem exists_unanswered_refusal :
    ¬ ∀ (s : Service) (now : Moment) (request : Request) (r : Route) (id : Text) (e : UploadError),
      Route.find s.mount request.method request.path = .endpoint r id →
      (s.run now request id r).answer = .error (.upload e) →
      ∃ response, (s.answer now request).answer = .ok response ∧ response.status = e.status := by
  intro h
  have hfind : Route.find (runningAt (Text.of "/files")).mount surrogateCreation.method
      surrogateCreation.path = .endpoint .create [] := by decide +kernel
  have hrefused : ((runningAt (Text.of "/files")).run newYear surrogateCreation [] .create).answer
      = .error (.upload (.signingMethod [0xD800])) := by decide +kernel
  have hunanswered : ((runningAt (Text.of "/files")).answer newYear surrogateCreation).answer
      = .error (.value .unencodable) := by decide +kernel
  obtain ⟨response, hresponse, -⟩ := h _ _ _ _ _ _ hfind hrefused
  rw [hunanswered] at hresponse
  cases hresponse

end Service

end Http

end UploadGate
