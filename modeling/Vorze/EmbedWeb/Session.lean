import Vorze.EmbedWeb.Exchange
import Vorze.Foundation.Transition

/-! # One connection of the embedded web server

A session reads a request, answers it, and reads the next one when the response
has been written, or closes. Its handlers run one at a time. Reading and writing
are asynchronous; they complete in any order and with any outcome.
-/

namespace Vorze.EmbedWeb

open Transition

structure SessionConfig extends FileServer where
  backendJsonString : Bytes
  deriving DecidableEq, Repr

/-- The answer to a `GET` of the backend description. -/
def backendResponse (config : SessionConfig) (req : Request) : Response :=
  ((({ version := req.version, result := .ok, keepAlive := req.keepAlive
       body := config.backendJsonString } :
    Response).set .server config.beastVersion).set .contentType (text "text/json")).set
      .contentLength (decimal config.backendJsonString.length)

section Answer

variable {State : Type} (send : Response → State → State) (touch : Bytes → State → State)

/-- What `on_read` does with a request. -/
def answer (config : SessionConfig) (req : Request) (answers : FileAnswers) (s : State) : State :=
  if req.method = .get ∧ req.target = text "/backend" then send (backendResponse config req) s
  else handleWith send touch config.toFileServer req answers s

end Answer

/-- A request is answered by one response, whatever the file system answers. -/
theorem answer_sends_once (config : SessionConfig) (req : Request) (answers : FileAnswers) :
    ∃ response, ∀ (State : Type) (send : Response → State → State) s,
      answer send (fun _ s => s) config req answers s = send response s := by
  by_cases hbackend : req.method = .get ∧ req.target = text "/backend"
  · refine ⟨backendResponse config req, ?_⟩
    intro State send s
    rw [answer, if_pos hbackend]
  · refine ⟨responseTo config.toFileServer req answers, ?_⟩
    intro State send s
    rw [answer, if_neg hbackend, handleWith_eq, touchAll_ignore]

/-- The connection is closed after a message that does not say where it ends, and
after one that asks for it. -/
def needEof (response : Response) : Bool :=
  if response.fields.any (·.1 == .contentLength) then !response.keepAlive else true

/-! ## The handlers -/

/-- What a session did and what happened to it. -/
inductive Event
  | readStarted
  | requestRead (req : Request)
  | readFailed
  | responseStarted (response : Response)
  | written
  | writeFailed
  | closed
  deriving DecidableEq, Repr

/-- The outstanding reads, and the outstanding writes with the `close` that is
bound to their handler. -/
structure Session where
  reads : Nat := 0
  writes : List Bool := []
  log : List Event := []
  deriving DecidableEq, Repr

/-- How `async_read` completes. -/
inductive ReadResult
  | request (req : Request) (answers : FileAnswers)
  | endOfStream
  | failed

namespace Session

def record (s : Session) (event : Event) : Session := { s with log := s.log ++ [event] }

def doRead (s : Session) : Session := { s.record .readStarted with reads := s.reads + 1 }

/-- `send_lambda`. -/
def sendLambda (response : Response) (s : Session) : Session :=
  { s.record (.responseStarted response) with writes := s.writes ++ [needEof response] }

def doClose (s : Session) : Session := s.record .closed

/-- Reading a character changes nothing, also where there is none. -/
def onRead (config : SessionConfig) (result : ReadResult) (s : Session) : Session :=
  match result with
  | .endOfStream => s.doClose
  | .failed => s.record .readFailed
  | .request req answers =>
      answer sendLambda (fun _ s => s) config req answers (s.record (.requestRead req))

def onWrite (close failed : Bool) (s : Session) : Session :=
  if failed then s.record .writeFailed
  else if close then (s.record .written).doClose
  else (s.record .written).doRead

/-- `run` comes down to the first read. -/
def run : Session := doRead {}

inductive Action
  | readDone (result : ReadResult)
  | writeDone (index : Nat) (failed : Bool)

def step (config : SessionConfig) (s : Session) : Action → Option Session
  | .readDone result =>
      if s.reads = 0 then none else some (onRead config result { s with reads := s.reads - 1 })
  | .writeDone index failed =>
      (s.writes[index]?).map fun close =>
        onWrite close failed { s with writes := s.writes.eraseIdx index }

end Session

/-! ## A conversation -/

/-- A request and its response, from the start of the read to the end of the write. -/
def exchange (pair : Request × Response) : List Event :=
  [.readStarted, .requestRead pair.1, .responseStarted pair.2, .written]

/-- Where the conversation is after its complete exchanges. -/
inductive Stage
  | reading
  | writing (req : Request) (response : Response)
  | readFailed
  | readClosed
  | writeFailed (req : Request) (response : Response)
  | writeClosed (req : Request) (response : Response)

namespace Stage

def events : Stage → List Event
  | reading => [.readStarted]
  | writing req response => [.readStarted, .requestRead req, .responseStarted response]
  | readFailed => [.readStarted, .readFailed]
  | readClosed => [.readStarted, .closed]
  | writeFailed req response =>
      [.readStarted, .requestRead req, .responseStarted response, .writeFailed]
  | writeClosed req response =>
      [.readStarted, .requestRead req, .responseStarted response, .written, .closed]

def reads : Stage → Nat
  | reading => 1
  | _ => 0

def writes : Stage → List Bool
  | writing _ response => [needEof response]
  | _ => []

theorem outstanding (stage : Stage) : stage.reads + stage.writes.length ≤ 1 := by
  cases stage <;> simp [reads, writes]

end Stage

/-- The events of a conversation. -/
def conversation (exchanges : List (Request × Response)) (stage : Stage) : List Event :=
  exchanges.flatMap exchange ++ stage.events

/-- The session has completed these exchanges and is at this stage of the next one. -/
structure Session.Follows (s : Session) (exchanges : List (Request × Response)) (stage : Stage) :
    Prop where
  log : s.log = conversation exchanges stage
  reads : s.reads = stage.reads
  writes : s.writes = stage.writes

namespace Session

variable {config : SessionConfig} {s next : Session} {exchanges : List (Request × Response)}

theorem follows_run : run.Follows [] .reading := ⟨rfl, rfl, rfl⟩

/-- A completed read is answered or ends the conversation. -/
theorem Follows.onRead (h : s.Follows exchanges .reading) (result : ReadResult) :
    ∃ stage, (onRead config result { s with reads := s.reads - 1 }).Follows exchanges stage := by
  have hreads : s.reads - 1 = 0 := by rw [h.reads]; rfl
  cases result with
  | endOfStream =>
      refine ⟨.readClosed, ?_, hreads, h.writes⟩
      simp [Session.onRead, doClose, record, h.log, conversation, Stage.events]
  | failed =>
      refine ⟨.readFailed, ?_, hreads, h.writes⟩
      simp [Session.onRead, record, h.log, conversation, Stage.events]
  | request req answers =>
      obtain ⟨response, hsends⟩ := answer_sends_once config req answers
      refine ⟨.writing req response, ?_⟩
      rw [Session.onRead, hsends]
      refine ⟨?_, hreads, ?_⟩
      · simp [sendLambda, record, h.log, conversation, Stage.events]
      · simp [sendLambda, record, h.writes, Stage.writes]

/-- A completed write leads to the next read or ends the conversation. -/
theorem Follows.onWrite {req : Request} {response : Response}
    (h : s.Follows exchanges (.writing req response)) (close failed : Bool) :
    ∃ exchanges stage, (onWrite close failed { s with writes := [] }).Follows exchanges stage := by
  cases failed with
  | true =>
      refine ⟨exchanges, .writeFailed req response, ?_, h.reads, rfl⟩
      simp [Session.onWrite, record, h.log, conversation, Stage.events]
  | false =>
      cases close with
      | true =>
          refine ⟨exchanges, .writeClosed req response, ?_, h.reads, rfl⟩
          simp [Session.onWrite, record, doClose, h.log, conversation, Stage.events]
      | false =>
          refine ⟨exchanges ++ [(req, response)], .reading, ?_, ?_, rfl⟩
          · simp [Session.onWrite, record, doRead, h.log, conversation, Stage.events, exchange]
          · simp [Session.onWrite, record, doRead, h.reads, Stage.reads]

/-- Every step follows the conversation, whatever the outcome it brings. -/
theorem follows_step {action : Action} (h : ∃ exchanges stage, s.Follows exchanges stage)
    (hstep : step config s action = some next) :
    ∃ exchanges stage, next.Follows exchanges stage := by
  obtain ⟨exchanges, stage, hfollows⟩ := h
  cases action with
  | readDone result =>
      simp only [step, Option.ite_none_left_eq_some, Option.some.injEq] at hstep
      obtain ⟨hread, rfl⟩ := hstep
      rw [hfollows.reads] at hread
      cases stage with
      | reading => exact ⟨exchanges, hfollows.onRead result⟩
      | writing | readFailed | readClosed | writeFailed | writeClosed => exact absurd rfl hread
  | writeDone index failed =>
      simp only [step, Option.map_eq_some_iff] at hstep
      obtain ⟨close, hclose, rfl⟩ := hstep
      rw [hfollows.writes] at hclose
      cases stage with
      | writing req response =>
          have hindex : index = 0 := by
            by_contra hne
            rw [Stage.writes, List.getElem?_singleton, if_neg hne] at hclose
            cases hclose
          have herase : s.writes.eraseIdx index = [] := by
            rw [hindex, hfollows.writes]
            rfl
          rw [herase]
          exact hfollows.onWrite close failed
      | reading | readFailed | readClosed | writeFailed | writeClosed => cases hclose

theorem follows_of_exec {actions : List Action} (hexec : exec (step config) run actions = some s) :
    ∃ exchanges stage, s.Follows exchanges stage :=
  exec_invariant (fun s => ∃ exchanges stage, Session.Follows s exchanges stage)
    (fun _ _ _ (_ : True) h hstep => follows_step h hstep) ⟨[], .reading, follows_run⟩
    (meets_true run actions) hexec

end Session

/-! ## What a conversation looks like -/

namespace Event

def isReadStarted : Event → Bool
  | readStarted => true
  | _ => false

def isResponseStarted : Event → Bool
  | responseStarted _ => true
  | _ => false

/-- A read or a write is started. -/
def starts (event : Event) : Bool := event.isReadStarted || event.isResponseStarted

/-- The connection is closed, or a read or a write has failed. -/
def ends : Event → Bool
  | readFailed | writeFailed | closed => true
  | _ => false

end Event

/-- After every request that was read, one response is started before the next read. -/
def AnsweredOnce (log : List Event) : Prop :=
  ∀ req after, .requestRead req :: after <:+ log →
    (after.takeWhile (!·.isReadStarted)).countP Event.isResponseStarted = 1

/-- Once the connection is closed or an operation has failed, nothing is started. -/
def QuietAfterEnd (log : List Event) : Prop :=
  log.Pairwise fun event later => event.ends = true → later.starts = false

theorem conversation_starts (exchanges : List (Request × Response)) (stage : Stage) :
    ∃ rest, conversation exchanges stage = .readStarted :: rest := by
  cases exchanges with
  | nil => cases stage <;> exact ⟨_, rfl⟩
  | cons pair exchanges => exact ⟨_, rfl⟩

theorem conversation_cons (pair : Request × Response) (exchanges : List (Request × Response))
    (stage : Stage) :
    conversation (pair :: exchanges) stage = exchange pair ++ conversation exchanges stage := by
  simp [conversation]

theorem answeredOnce_conversation (exchanges : List (Request × Response)) (stage : Stage) :
    AnsweredOnce (conversation exchanges stage) := by
  intro req after hsuffix
  induction exchanges with
  | nil =>
      cases stage with
      | reading | readFailed | readClosed =>
          simp [conversation, Stage.events, List.suffix_cons_iff] at hsuffix
      | writing | writeFailed | writeClosed =>
          simp only [conversation, Stage.events, List.flatMap_nil, List.nil_append,
            List.suffix_cons_iff, List.suffix_nil, reduceCtorEq, false_and, false_or, or_false,
            List.cons.injEq] at hsuffix
          obtain ⟨-, rfl⟩ := hsuffix
          rfl
  | cons pair exchanges ih =>
      rw [conversation_cons] at hsuffix
      obtain ⟨rest, hrest⟩ := conversation_starts exchanges stage
      simp only [exchange, List.cons_append, List.nil_append, List.suffix_cons_iff,
        reduceCtorEq, false_and, false_or, List.cons.injEq] at hsuffix
      rcases hsuffix with ⟨-, rfl⟩ | hsuffix
      · -- the next exchange begins with a read
        rw [hrest]
        rfl
      · exact ih hsuffix

theorem quietAfterEnd_conversation (exchanges : List (Request × Response)) (stage : Stage) :
    QuietAfterEnd (conversation exchanges stage) := by
  unfold QuietAfterEnd
  induction exchanges with
  | nil => cases stage <;> simp [conversation, Stage.events, Event.ends, Event.starts,
      Event.isReadStarted, Event.isResponseStarted]
  | cons pair exchanges ih =>
      rw [conversation_cons]
      simpa [exchange, Event.ends] using ih

/-- In every run at most one operation is outstanding, every request is answered
once before the next read, and nothing is started after the end. -/
theorem one_response_per_request (config : SessionConfig) {actions : List Session.Action}
    {s : Session} (hexec : exec (Session.step config) Session.run actions = some s) :
    s.reads + s.writes.length ≤ 1 ∧ AnsweredOnce s.log ∧ QuietAfterEnd s.log := by
  obtain ⟨exchanges, stage, hfollows⟩ := Session.follows_of_exec hexec
  rw [hfollows.log]
  refine ⟨?_, answeredOnce_conversation exchanges stage, quietAfterEnd_conversation exchanges stage⟩
  rw [hfollows.reads, hfollows.writes]
  exact stage.outstanding

def backendConfig : SessionConfig where
  toFileServer := htmlServer
  backendJsonString := text "\x7b\x7d"

/-- The file system throws at the first request, and the second asks to close. -/
def twoRequests : List Session.Action :=
  [.readDone (.request { target := text "/index.html" }
      { rootPath := .threw, filePath := .failed, relCheckString := none, isSymlink := .failed
        extensionThrows := false, opened := .error noSuchFile }),
    .writeDone 0 false,
    .readDone (.request { target := text "/backend", keepAlive := false }
      { rootPath := .failed, filePath := .failed, relCheckString := none, isSymlink := .failed
        extensionThrows := false, opened := .error noSuchFile }),
    .writeDone 0 false]

theorem one_response_per_request_twoRequests :
    ∃ s, exec (Session.step backendConfig) Session.run twoRequests = some s ∧
      s.log.length = 9 ∧
      s.reads + s.writes.length ≤ 1 ∧ AnsweredOnce s.log ∧ QuietAfterEnd s.log := by
  obtain ⟨s, hexec, hlog⟩ :
      ∃ s, exec (Session.step backendConfig) Session.run twoRequests = some s ∧
        s.log.length = 9 := Transition.exists_exec (by decide)
  exact ⟨s, hexec, hlog, one_response_per_request _ hexec⟩

end Vorze.EmbedWeb
