import Vorze.Web.Status

/-! # What a control request is answered

The head of every response follows from its request, and so does the body unless
the request asks for the status document. In particular the answer to a command
does not tell what became of it.
-/

namespace Vorze

namespace Response

@[simp] theorem set_version (response : Response) (field : Field) (value : Bytes) :
    (response.set field value).version = response.version := rfl

@[simp] theorem set_keepAlive (response : Response) (field : Field) (value : Bytes) :
    (response.set field value).keepAlive = response.keepAlive := rfl

@[simp] theorem value_write (response : Response) (data : Bytes) (field : Field) :
    (response.write data).value field = response.value field := rfl

end Response

namespace HttpConnectSession

/-- All four parameters are there, and a number among them cannot be read. -/
def CastFails (queryPairs : QueryPairs) : Prop :=
  findTargets queryPairs ≠ none ∧ readCommand queryPairs = none

instance (queryPairs : QueryPairs) : Decidable (CastFails queryPairs) :=
  inferInstanceAs (Decidable (_ ∧ _))

/-- The status that a request is answered with. -/
def statusOf (request : Request) : Status :=
  if request.method = .get then
    match route request.target with
    | .status => .ok
    | .op query => if CastFails (splitQuery query) then .badRequest else .ok
    | .notFound => .notFound
  else .badRequest

/-- The content type, which an accepted command has none of. -/
def contentTypeOf (request : Request) : Option Bytes :=
  if statusOf request ≠ .ok then some (text "text/plain")
  else if request.target = text "/" then some (text "text/json")
  else none

/-- What a response has to say, given its request. -/
structure Answers (request : Request) (response : Response) : Prop where
  version : response.version = request.version
  closes : response.keepAlive = false
  result : response.result = statusOf request
  contentLength : response.value .contentLength = some (decimal response.body.length)
  contentType : response.value .contentType = contentTypeOf request
  origin : response.value .accessControlAllowOrigin = request.origin.filter (! ·.isEmpty)

/-! ## The head of a response -/

/-- What the code that makes the body does not touch. -/
structure SameHead (before after : Response) : Prop where
  version : after.version = before.version
  keepAlive : after.keepAlive = before.keepAlive
  origin : after.value .accessControlAllowOrigin = before.value .accessControlAllowOrigin

theorem SameHead.refl (response : Response) : SameHead response response := ⟨rfl, rfl, rfl⟩

/-- Setting the content type and writing a body. -/
theorem SameHead.body (response : Response) (result : Status) (contentType data : Bytes) :
    SameHead response
      (({ response with result := result }.set .contentType contentType).write data) where
  version := rfl
  keepAlive := rfl
  origin := by
    rw [Response.value_write, Response.value_set_of_ne _ _ (by decide)]
    rfl

/-- The response of `path_op` is decided by the query. -/
theorem pathOp_fst (server : SerialPortControlServer) (response : Response)
    (queryPairs : QueryPairs) :
    (pathOp server response queryPairs).1 =
      if CastFails queryPairs then
        ({ response with result := .badRequest }.set .contentType (text "text/plain")).write
          (text "boost::bad_lexical_cast:" ++ badLexicalCast ++ text "\r\n")
      else { response with result := .ok } := by
  unfold pathOp
  split
  next hempty =>
    have hnone : findTargets queryPairs = none := by
      rw [List.isEmpty_iff.mp hempty]
      rfl
    rw [if_neg fun hfails : CastFails queryPairs => hfails.1 hnone]
  next =>
    cases hfind : findTargets queryPairs with
    | none => rw [if_neg fun hfails : CastFails queryPairs => hfails.1 hfind]
    | some targets =>
        have hsome : findTargets queryPairs ≠ none := by
          rw [hfind]
          exact Option.some_ne_none targets
        cases hread : readCommand queryPairs with
        | some command =>
            rw [if_neg fun hfails : CastFails queryPairs => by
              rw [CastFails, hread] at hfails
              cases hfails.2]
        | none => rw [if_pos (show CastFails queryPairs from ⟨hsome, hread⟩)]

theorem createResponse_sameHead (server : SerialPortControlServer) (response : Response)
    (target : Bytes) : SameHead response (createResponse server response target).1 := by
  unfold createResponse
  cases route target with
  | status => exact .body response response.result _ _
  | notFound => exact .body response .notFound _ _
  | op query =>
      simp only [pathOp_fst]
      split
      next => exact .body response .badRequest _ _
      next => exact ⟨rfl, rfl, rfl⟩

/-- The request is for the status document. -/
def AsksForStatus (request : Request) : Prop :=
  request.method = .get ∧ request.target = text "/"

instance (request : Request) : Decidable (AsksForStatus request) :=
  inferInstanceAs (Decidable (_ ∧ _))

theorem route_eq_status_iff {target : Bytes} : route target = .status ↔ target = text "/" := by
  unfold route
  constructor
  · intro h
    by_contra hne
    rw [if_neg hne] at h
    split at h
    · split at h <;> cases h
    · cases h
  · rintro rfl
    exact if_pos rfl

/-- A response to `GET` before its length is known. -/
structure Created (request : Request) (response : Response) : Prop where
  result : response.result = statusOf request
  contentType : response.value .contentType = contentTypeOf request

theorem createResponse_created {request : Request} (hget : request.method = .get)
    (server : SerialPortControlServer) {response : Response} (hok : response.result = .ok)
    (hnone : response.value .contentType = none) :
    Created request (createResponse server response request.target).1 := by
  have hstatus : statusOf request = match route request.target with
      | .status => .ok
      | .op query => if CastFails (splitQuery query) then .badRequest else .ok
      | .notFound => .notFound := by
    rw [statusOf, if_pos hget]
  unfold createResponse
  cases hroute : route request.target with
  | status =>
      rw [hroute] at hstatus
      refine ⟨by simpa [hstatus] using hok, ?_⟩
      simp [contentTypeOf, hstatus, route_eq_status_iff.mp hroute]
  | notFound =>
      rw [hroute] at hstatus
      refine ⟨by simp [hstatus], by simp [contentTypeOf, hstatus]⟩
  | op query =>
      have htarget : request.target ≠ text "/" := fun htarget => by
        rw [route_eq_status_iff.mpr htarget] at hroute
        cases hroute
      rw [hroute] at hstatus
      simp only [pathOp_fst]
      by_cases hfails : CastFails (splitQuery query)
      · simp only [hfails, ↓reduceIte] at hstatus ⊢
        exact ⟨by simp [hstatus], by simp [contentTypeOf, hstatus]⟩
      · simp only [hfails, ↓reduceIte] at hstatus ⊢
        refine ⟨hstatus.symm, ?_⟩
        simp only [contentTypeOf, hstatus, ne_eq, not_true_eq_false, ↓reduceIte, htarget]
        exact hnone

/-- The response that `process_request` starts from. -/
def beginResponse (request : Request) : Response :=
  let response : Response := { version := request.version, keepAlive := false }
  match request.origin with
  | some origin =>
      if origin.isEmpty then response else response.set .accessControlAllowOrigin origin
  | none => response

theorem beginResponse_head (request : Request) :
    (beginResponse request).version = request.version ∧
      (beginResponse request).keepAlive = false ∧
      (beginResponse request).value .contentType = none ∧
      (beginResponse request).value .accessControlAllowOrigin =
        request.origin.filter (! ·.isEmpty) := by
  unfold beginResponse
  cases request.origin with
  | none => exact ⟨rfl, rfl, rfl, rfl⟩
  | some origin =>
      cases origin with
      | nil => exact ⟨rfl, rfl, rfl, rfl⟩
      | cons first rest => exact ⟨rfl, rfl, rfl, rfl⟩

theorem processRequest_get {request : Request} (hget : request.method = .get)
    (server : SerialPortControlServer) :
    (processRequest server request).1 = writeResponse (createResponse server
      ({ beginResponse request with result := .ok }.set .server (text "Beast"))
        request.target).1 := by
  simp only [processRequest, hget]
  rfl

theorem processRequest_other {request : Request} (hget : request.method ≠ .get)
    (server : SerialPortControlServer) :
    (processRequest server request).1 =
      writeResponse (({ beginResponse request with result := .badRequest }.set .contentType
        (text "text/plain")).write
          (text "Invalid request-method '" ++ request.method.name ++ text "'")) := by
  unfold processRequest beginResponse
  cases hmethod : request.method with
  | get => exact absurd hmethod hget
  | head | other => rfl

/-- Every request is answered as it should be, whatever state the server is in. -/
theorem processRequest_answers (server : SerialPortControlServer) (request : Request) :
    Answers request (processRequest server request).1 := by
  obtain ⟨hversion, hkeepAlive, hnone, horigin⟩ := beginResponse_head request
  by_cases hget : request.method = .get
  · rw [processRequest_get hget]
    have hbegun : ({ beginResponse request with result := .ok }.set .server
        (text "Beast")).value .contentType = none := by
      rw [Response.value_set_of_ne _ _ (by decide)]
      exact hnone
    have hcreated := createResponse_created hget server rfl hbegun
    have hhead := createResponse_sameHead server
      ({ beginResponse request with result := .ok }.set .server (text "Beast")) request.target
    exact
      { version := hhead.version.trans hversion
        closes := hhead.keepAlive.trans hkeepAlive
        result := hcreated.result
        contentLength := Response.value_set_self _ _ _
        contentType := (Response.value_set_of_ne _ _ (by decide)).trans hcreated.contentType
        origin := by
          rw [writeResponse, Response.value_set_of_ne _ _ (by decide), hhead.origin,
            Response.value_set_of_ne _ _ (by decide)]
          exact horigin }
  · have hstatus : statusOf request = .badRequest := if_neg hget
    rw [processRequest_other hget]
    exact
      { version := hversion
        closes := hkeepAlive
        result := by simp [hstatus]
        contentLength := Response.value_set_self _ _ _
        contentType := by
          rw [writeResponse, Response.value_set_of_ne _ _ (by decide)]
          simp [contentTypeOf, hstatus]
        origin := by
          rw [writeResponse, Response.value_set_of_ne _ _ (by decide), Response.value_write,
            Response.value_set_of_ne _ _ (by decide)]
          exact horigin }

/-! ## What the answer tells of the server -/

theorem createResponse_congr {target : Bytes} (htarget : target ≠ text "/")
    (server server' : SerialPortControlServer) (response : Response) :
    (createResponse server response target).1 = (createResponse server' response target).1 := by
  unfold createResponse
  cases hroute : route target with
  | status => exact absurd (route_eq_status_iff.mp hroute) htarget
  | op query => simp only [pathOp_fst]
  | notFound => rfl

theorem processRequest_congr {request : Request} (hstatus : ¬AsksForStatus request)
    (server server' : SerialPortControlServer) :
    (processRequest server request).1 = (processRequest server' request).1 := by
  by_cases hget : request.method = .get
  · have htarget : request.target ≠ text "/" := fun htarget => hstatus ⟨hget, htarget⟩
    rw [processRequest_get hget, processRequest_get hget,
      createResponse_congr htarget server server']
  · rw [processRequest_other hget, processRequest_other hget]

/-- The body of the status response. -/
theorem body_processRequest_status {request : Request} (hstatus : AsksForStatus request)
    (server : SerialPortControlServer) :
    (processRequest server request).1.body = createJsonString server ++ text "\n" := by
  obtain ⟨hget, htarget⟩ := hstatus
  have hbody : (beginResponse request).body = [] := by
    unfold beginResponse
    cases request.origin with
    | none => rfl
    | some origin => cases origin <;> rfl
  have hroute : route request.target = .status := route_eq_status_iff.mpr htarget
  rw [processRequest_get hget, writeResponse, Response.set_body, createResponse, hroute]
  simp [Response.write, hbody]

/-- Two states that differ in the list of ports have different documents. -/
theorem createJsonString_ports :
    createJsonString {} ≠ createJsonString { portsInfo := [⟨[], []⟩] } := by
  intro heq
  have hparse := congrArg Json.parse heq
  rw [parse_createJsonString, parse_createJsonString, Option.some.injEq,
    Json.object.injEq] at hparse
  have hports : (portsInfoTree []).toJson = (portsInfoTree [⟨[], []⟩]).toJson := by
    have hfields := congrArg (List.map Prod.snd) hparse
    exact (List.cons.inj (List.cons.inj hfields).2).1
  cases hports

/-- The answer tells something of the server exactly when it is the status
document: for every other request it is the same in all states. -/
theorem tells_nothing_iff (request : Request) :
    (∀ server server', (processRequest server request).1 = (processRequest server' request).1) ↔
      ¬AsksForStatus request := by
  constructor
  · intro h hstatus
    have hbody := congrArg Response.body (h {} { portsInfo := [⟨[], []⟩] })
    rw [body_processRequest_status hstatus, body_processRequest_status hstatus] at hbody
    exact createJsonString_ports (List.append_cancel_right hbody)
  · intro hstatus server server'
    exact processRequest_congr hstatus server server'

end HttpConnectSession

end Vorze
