import Vorze.EmbedWeb.Session

/-! # How long a connection is kept

Every response says where it ends and carries the wish of its request. So a
connection is read again after a response exactly when the request asked for
that, and is closed otherwise.
-/

namespace Vorze.EmbedWeb

open Transition

/-- What a response has to say, given its request. An answer to `HEAD` may
announce a body that it does not carry. -/
structure Suits (req : Request) (response : Response) : Prop where
  version : response.version = req.version
  keepAlive : response.keepAlive = req.keepAlive
  contentLength : ∃ length, response.value .contentLength = some (decimal length) ∧
    (response.body.length = length ∨ req.method = .head ∧ response.body = [])

/-! ## The responses of the server -/

theorem textResponse_suits (server : FileServer) (req : Request) (result : Status) (body : Bytes) :
    Suits req (textResponse server req result body) where
  version := rfl
  keepAlive := rfl
  contentLength := ⟨body.length, Response.value_set_self _ _ _, Or.inl rfl⟩

theorem fileResponse_suits (server : FileServer) (req : Request) (path content : Bytes) :
    Suits req (fileResponse server req path content) where
  version := rfl
  keepAlive := rfl
  contentLength := by
    refine ⟨content.length, Response.value_set_self _ _ _, ?_⟩
    by_cases hhead : req.method = .head
    · exact Or.inr ⟨hhead, if_pos hhead⟩
    · exact Or.inl (congrArg List.length (if_neg hhead))

theorem backendResponse_suits (config : SessionConfig) (req : Request) :
    Suits req (backendResponse config req) where
  version := rfl
  keepAlive := rfl
  contentLength := ⟨config.backendJsonString.length, Response.value_set_self _ _ _, Or.inl rfl⟩

theorem responseTo_suits (server : FileServer) (req : Request) (answers : FileAnswers) :
    Suits req (responseTo server req answers) := by
  unfold responseTo
  split
  next => exact textResponse_suits server req _ _
  next =>
    split
    next => exact textResponse_suits server req _ _
    next =>
      cases verdict server answers with
      | refused why => exact textResponse_suits server req _ _
      | threw => exact textResponse_suits server req _ _
      | passed =>
          cases answers.opened with
          | ok content => exact fileResponse_suits server req _ content
          | error ec =>
              simp only
              split
              next => exact textResponse_suits server req _ _
              next => exact textResponse_suits server req _ _

/-- The response of a session to a request. -/
def responseOf (config : SessionConfig) (req : Request) (answers : FileAnswers) : Response :=
  if req.method = .get ∧ req.target = text "/backend" then backendResponse config req
  else responseTo config.toFileServer req answers

theorem responseOf_suits (config : SessionConfig) (req : Request) (answers : FileAnswers) :
    Suits req (responseOf config req answers) := by
  unfold responseOf
  split
  next => exact backendResponse_suits config req
  next => exact responseTo_suits _ req answers

theorem answer_eq {State : Type} (send : Response → State → State) (config : SessionConfig)
    (req : Request) (answers : FileAnswers) (s : State) :
    answer send (fun _ s => s) config req answers s = send (responseOf config req answers) s := by
  unfold answer responseOf
  split
  next => rfl
  next => rw [handleWith_eq, touchAll_ignore]

/-- A response that suits its request ends the connection when that asked for it. -/
theorem Suits.needEof_eq {req : Request} {response : Response} (h : Suits req response) :
    needEof response = !req.keepAlive := by
  obtain ⟨length, hvalue, -⟩ := h.contentLength
  have hfound : (response.fields.find? (·.1 == .contentLength)).isSome = true := by
    rw [← Option.isSome_map (f := Prod.snd)]
    exact (congrArg Option.isSome hvalue).trans rfl
  have hset : response.fields.any (·.1 == .contentLength) = true := by
    rw [List.any_eq_true]
    exact List.find?_isSome.mp hfound
  rw [needEof, if_pos hset, h.keepAlive]

/-! ## Conversations -/

/-- The responses are made as they should be, and the exchanges that were followed by
another read asked for it. -/
def Asked (made : Request → Response → Prop) (exchanges : List (Request × Response))
    (stage : Stage) : Prop :=
  (∀ pair ∈ exchanges, made pair.1 pair.2 ∧ pair.1.keepAlive = true) ∧
    match stage with
    | .writing req response | .writeFailed req response => made req response
    | .writeClosed req response => made req response ∧ req.keepAlive = false
    | .reading | .readFailed | .readClosed => True

namespace Session

variable {config : SessionConfig} {s next : Session} {exchanges : List (Request × Response)}
variable {stage : Stage} {made : Request → Response → Prop}

/-- A request that is read gets a response that is made as it should be. -/
def Makes (config : SessionConfig) (made : Request → Response → Prop) (action : Action) : Prop :=
  ∀ req answers, action = .readDone (.request req answers) →
    made req (responseOf config req answers)

theorem asked_onRead (h : s.Follows exchanges .reading) (hasked : Asked made exchanges .reading)
    {result : ReadResult} (hmakes : Makes config made (.readDone result)) :
    ∃ stage, (onRead config result { s with reads := s.reads - 1 }).Follows exchanges stage ∧
      Asked made exchanges stage := by
  have hreads : s.reads - 1 = 0 := by
    rw [h.reads]
    rfl
  cases result with
  | endOfStream =>
      refine ⟨.readClosed, ⟨?_, hreads, h.writes⟩, hasked.1, trivial⟩
      simp [onRead, doClose, record, h.log, conversation, Stage.events]
  | failed =>
      refine ⟨.readFailed, ⟨?_, hreads, h.writes⟩, hasked.1, trivial⟩
      simp [onRead, record, h.log, conversation, Stage.events]
  | request req answers =>
      refine ⟨.writing req (responseOf config req answers), ?_, hasked.1, hmakes req answers rfl⟩
      rw [onRead, answer_eq]
      refine ⟨?_, hreads, ?_⟩
      · simp [sendLambda, record, h.log, conversation, Stage.events]
      · simp [sendLambda, record, h.writes, Stage.writes]

theorem asked_onWrite (hsuits : ∀ req response, made req response → Suits req response)
    {req : Request} {response : Response} (h : s.Follows exchanges (.writing req response))
    (hasked : Asked made exchanges (.writing req response)) (failed : Bool) :
    ∃ exchanges stage,
      (onWrite (needEof response) failed { s with writes := [] }).Follows exchanges stage ∧
        Asked made exchanges stage := by
  obtain ⟨hall, hmade⟩ := hasked
  cases failed with
  | true =>
      refine ⟨exchanges, .writeFailed req response, ⟨?_, h.reads, rfl⟩, hall, hmade⟩
      simp [onWrite, record, h.log, conversation, Stage.events]
  | false =>
      rw [(hsuits req response hmade).needEof_eq]
      cases hkeep : req.keepAlive with
      | false =>
          refine ⟨exchanges, .writeClosed req response, ⟨?_, h.reads, rfl⟩, hall, hmade, hkeep⟩
          simp [onWrite, record, doClose, h.log, conversation, Stage.events]
      | true =>
          refine ⟨exchanges ++ [(req, response)], .reading, ⟨?_, ?_, rfl⟩, ?_, trivial⟩
          · simp [onWrite, record, doRead, h.log, conversation, Stage.events, exchange]
          · simp [onWrite, record, doRead, h.reads, Stage.reads]
          · exact List.forall_mem_append.mpr ⟨hall, List.forall_mem_singleton.mpr ⟨hmade, hkeep⟩⟩

/-- The session follows a conversation in which the wishes of the requests count. -/
def FollowsAsked (made : Request → Response → Prop) (s : Session) : Prop :=
  ∃ exchanges stage, s.Follows exchanges stage ∧ Asked made exchanges stage

theorem FollowsAsked.step (hsuits : ∀ req response, made req response → Suits req response)
    {action : Action} (hmakes : Makes config made action) (h : s.FollowsAsked made)
    (hstep : Session.step config s action = some next) : next.FollowsAsked made := by
  obtain ⟨exchanges, stage, hfollows, hasked⟩ := h
  cases action with
  | readDone result =>
      simp only [Session.step, Option.ite_none_left_eq_some, Option.some.injEq] at hstep
      obtain ⟨hread, rfl⟩ := hstep
      rw [hfollows.reads] at hread
      cases stage with
      | reading => exact ⟨exchanges, asked_onRead hfollows hasked hmakes⟩
      | writing | readFailed | readClosed | writeFailed | writeClosed => exact absurd rfl hread
  | writeDone index failed =>
      obtain ⟨close, hclose, rfl⟩ := Option.map_eq_some_iff.mp hstep
      rw [hfollows.writes] at hclose
      cases stage with
      | writing req response =>
          rw [Stage.writes, List.getElem?_singleton, Option.ite_none_right_eq_some,
            Option.some.injEq] at hclose
          obtain ⟨rfl, rfl⟩ := hclose
          have herase : s.writes.eraseIdx 0 = [] := by
            rw [hfollows.writes]
            rfl
          rw [herase]
          exact asked_onWrite hsuits hfollows hasked failed
      | reading | readFailed | readClosed | writeFailed | writeClosed => cases hclose

theorem followsAsked_of_exec (hsuits : ∀ req response, made req response → Suits req response)
    {actions : List Action} (hmakes : ∀ action ∈ actions, Makes config made action)
    (hexec : exec (Session.step config) run actions = some s) : s.FollowsAsked made :=
  exec_invariant (FollowsAsked made) (fun _ _ _ hok h hstep => h.step hsuits hok hstep)
    ⟨[], .reading, follows_run, by simp [Asked]⟩ (meets_of_forall_mem hmakes run) hexec

end Session

/-- Every request gets a response that is made as it should be at once. When that was
written, the connection is read again if the request asked for it, and closed if it
did not. -/
def AnsweredAsAsked (made : Request → Response → Prop) (log : List Event) : Prop :=
  ∀ req after, .requestRead req :: after <:+ log →
    ∃ response rest, after = .responseStarted response :: rest ∧ made req response ∧
      ∀ more, rest = .written :: more →
        more.head? = some (if req.keepAlive = true then .readStarted else .closed)

/-- The one request of an exchange is where its events say. -/
theorem eq_of_suffix {req req' : Request} {after rest : List Event}
    (hnone : ∀ other, .requestRead other ∉ rest)
    (hsuffix : .requestRead req :: after <:+ .readStarted :: .requestRead req' :: rest) :
    req = req' ∧ after = rest := by
  rw [List.suffix_cons_iff, List.suffix_cons_iff] at hsuffix
  rcases hsuffix with heq | heq | hin
  · cases heq
  · cases heq
    exact ⟨rfl, rfl⟩
  · exact absurd (hin.subset List.mem_cons_self) (hnone req)

theorem answeredAsAsked_conversation {made : Request → Response → Prop}
    {exchanges : List (Request × Response)} {stage : Stage} (h : Asked made exchanges stage) :
    AnsweredAsAsked made (conversation exchanges stage) := by
  intro req after hsuffix
  induction exchanges with
  | nil =>
      have hstage := h.2
      cases stage with
      | reading | readFailed | readClosed =>
          simp [conversation, Stage.events, List.suffix_cons_iff] at hsuffix
      | writing req' response =>
          obtain ⟨rfl, rfl⟩ := eq_of_suffix (by simp) hsuffix
          exact ⟨response, [], rfl, hstage, fun more hmore => by cases hmore⟩
      | writeFailed req' response =>
          obtain ⟨rfl, rfl⟩ := eq_of_suffix (by simp) hsuffix
          exact ⟨response, [.writeFailed], rfl, hstage, fun more hmore => by cases hmore⟩
      | writeClosed req' response =>
          obtain ⟨rfl, rfl⟩ := eq_of_suffix (by simp) hsuffix
          refine ⟨response, [.written, .closed], rfl, hstage.1, ?_⟩
          intro more hmore
          rw [← (List.cons.inj hmore).2, hstage.2]
          rfl
  | cons pair exchanges ih =>
      obtain ⟨hpair, hrest⟩ := List.forall_mem_cons.mp h.1
      rw [conversation_cons] at hsuffix
      obtain ⟨rest, heq⟩ := conversation_starts exchanges stage
      simp only [exchange, List.cons_append, List.nil_append, List.suffix_cons_iff,
        reduceCtorEq, false_and, false_or, List.cons.injEq, Event.requestRead.injEq] at hsuffix
      rcases hsuffix with ⟨rfl, rfl⟩ | hsuffix
      · -- the next exchange begins with a read, as the request asked
        refine ⟨pair.2, _, rfl, hpair.1, ?_⟩
        intro more hmore
        rw [← (List.cons.inj hmore).2, heq, hpair.2]
        rfl
      · exact ih ⟨hrest, h.2⟩ hsuffix

end Vorze.EmbedWeb
