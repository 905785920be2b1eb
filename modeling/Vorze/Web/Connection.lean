import Vorze.Foundation.Simulation
import Vorze.Foundation.Slots
import Vorze.Serial.RefreshTimer
import Vorze.Web.Message

/-! # One connection of the control server

`HttpConnectSession` reads one request, writes one response and is done. A
deadline closes the socket when that takes too long. An operation completes at
some time after it was started; its handler is queued with the result then, and
runs later. The session lives as long as an operation or a handler refers to it.
-/

namespace Vorze.HttpConnectSession

open Transition

/-- What the handlers of a connection did. -/
inductive Event
  | readStarted
  | requestRead (request : Request)
  | readFailed
  | responseStarted (response : Response)
  | shutdown (failed : Bool)
  deriving DecidableEq, Repr

/-- The outstanding operations of each kind, and the results of the completed
ones whose handler is queued. A read without a request ended with an error. -/
structure Connection where
  socketOpen : Bool := true
  reads : Nat := 0
  readsDone : List (Option Request) := []
  writes : Nat := 0
  writesDone : List Bool := []
  waits : Nat := 0
  waitsDone : List WaitResult := []
  log : List Event := []
  deriving DecidableEq, Repr

namespace Connection

def record (c : Connection) (event : Event) : Connection := { c with log := c.log ++ [event] }

def readRequest (c : Connection) : Connection :=
  { c.record .readStarted with reads := c.reads + 1 }

def checkDeadline (c : Connection) : Connection := { c with waits := c.waits + 1 }

/-- `start` of a session that was made for an accepted socket. -/
def start : Connection := checkDeadline (readRequest {})

/-- `write_response` once the response is complete. -/
def writeResponse (response : Response) (c : Connection) : Connection :=
  { c.record (.responseStarted response) with writes := c.writes + 1 }

/-- The handler of the read, without an error; `response` is what `process_request`
makes of the request. -/
def processRequest (request : Request) (response : Response) (c : Connection) : Connection :=
  writeResponse response (c.record (.requestRead request))

/-- `deadline_.cancel()`: a wait whose handler is queued already keeps its result. -/
def cancelDeadline (c : Connection) : Connection :=
  { c with waits := 0, waitsDone := c.waitsDone ++ List.replicate c.waits .aborted }

/-- The handler of the write, which does not look at its error. -/
def onWritten (failed : Bool) (c : Connection) : Connection :=
  cancelDeadline (c.record (.shutdown failed))

def onDeadline (c : Connection) : WaitResult → Connection
  | .success => { c with socketOpen := false }
  | .aborted => c

/-! ## Steps -/

/-- What happens to a connection without the rest of the server. -/
inductive Input
  | readDone (request : Option Request)
  | readFailed (index : Nat)
  | writeDone (failed : Bool)
  | written (index : Nat)
  | deadlineExpires
  | deadlineHandler (index : Nat)
  deriving DecidableEq, Repr

/-- An operation on a closed socket ends with an error. -/
def input (c : Connection) : Input → Option Connection
  | .readDone request =>
      if 0 < c.reads ∧ (c.socketOpen = true ∨ request = none) then
        some { c with reads := c.reads - 1, readsDone := c.readsDone ++ [request] }
      else none
  | .readFailed index =>
      if c.readsDone[index]? = some none then
        some ({ c with readsDone := c.readsDone.eraseIdx index }.record .readFailed)
      else none
  | .writeDone failed =>
      if 0 < c.writes ∧ (c.socketOpen = true ∨ failed = true) then
        some { c with writes := c.writes - 1, writesDone := c.writesDone ++ [failed] }
      else none
  | .written index =>
      (c.writesDone[index]?).map fun failed =>
        onWritten failed { c with writesDone := c.writesDone.eraseIdx index }
  | .deadlineExpires =>
      if 0 < c.waits then
        some { c with waits := 0,
                      waitsDone := c.waitsDone ++ List.replicate c.waits .success }
      else none
  | .deadlineHandler index =>
      (c.waitsDone[index]?).map fun result =>
        onDeadline { c with waitsDone := c.waitsDone.eraseIdx index } result

/-- The request that the handler of a read would process. -/
def requestAt (c : Connection) (index : Nat) : Option Request := (c.readsDone[index]?).join

inductive Action
  | input (input : Input)
  | answer (index : Nat) (response : Response)
  deriving DecidableEq, Repr

def step (c : Connection) : Action → Option Connection
  | .input action => c.input action
  | .answer index response =>
      (c.requestAt index).map fun request =>
        processRequest request response { c with readsDone := c.readsDone.eraseIdx index }

/-! ## The life of a connection -/

end Connection

/-- Where the exchange is. -/
inductive Stage
  | reading
  | read (request : Option Request)
  | readFailed
  | writing (request : Request) (response : Response)
  | written (request : Request) (response : Response) (failed : Bool)
  | finished (request : Request) (response : Response) (failed : Bool)

namespace Stage

def events : Stage → List Event
  | reading | read _ => [.readStarted]
  | readFailed => [.readStarted, .readFailed]
  | writing request response | written request response _ =>
      [.readStarted, .requestRead request, .responseStarted response]
  | finished request response failed =>
      [.readStarted, .requestRead request, .responseStarted response, .shutdown failed]

def reads : Stage → Nat
  | reading => 1
  | _ => 0

def readsDone : Stage → List (Option Request)
  | read request => [request]
  | _ => []

def writes : Stage → Nat
  | writing .. => 1
  | _ => 0

def writesDone : Stage → List Bool
  | written _ _ failed => [failed]
  | _ => []

/-- The request that was processed and its response. -/
def answered : Stage → Option (Request × Response)
  | writing request response | written request response _ | finished request response _ =>
      some (request, response)
  | reading | read _ | readFailed => none

end Stage

/-- Where the deadline is. -/
inductive Deadline
  | waiting
  | expired
  | closed
  | cancelled
  | settled
  deriving DecidableEq

namespace Deadline

def waits : Deadline → Nat
  | waiting => 1
  | _ => 0

def waitsDone : Deadline → List WaitResult
  | expired => [.success]
  | cancelled => [.aborted]
  | _ => []

def socketOpen : Deadline → Bool
  | closed => false
  | _ => true

/-- A deadline that has expired is not taken back. -/
def cancel : Deadline → Deadline
  | waiting => cancelled
  | deadline => deadline

/-- A deadline is settled by the end of the exchange and by nothing else. -/
def Fits : Deadline → Stage → Prop
  | waiting, .finished .. => False
  | cancelled, .finished .. | settled, .finished .. => True
  | cancelled, _ | settled, _ => False
  | _, _ => True

end Deadline

/-- How an exchange and its deadline go on, each by itself but for two things: a
closed socket fails what is outstanding, and the end of the exchange cancels the
deadline. -/
inductive Next : Stage → Deadline → Stage → Deadline → Prop
  | readDone {deadline : Deadline} (request : Option Request)
      (hopen : deadline.socketOpen = true ∨ request = none) :
      Next .reading deadline (.read request) deadline
  | readFailed {deadline : Deadline} : Next (.read none) deadline .readFailed deadline
  | answer {deadline : Deadline} (request : Request) (response : Response) :
      Next (.read (some request)) deadline (.writing request response) deadline
  | writeDone {deadline : Deadline} {request : Request} {response : Response} (failed : Bool)
      (hopen : deadline.socketOpen = true ∨ failed = true) :
      Next (.writing request response) deadline (.written request response failed) deadline
  | finish {deadline : Deadline} {request : Request} {response : Response} {failed : Bool} :
      Next (.written request response failed) deadline (.finished request response failed)
        deadline.cancel
  | expire {stage : Stage} : Next stage .waiting stage .expired
  | close {stage : Stage} : Next stage .expired stage .closed
  | settle {stage : Stage} : Next stage .cancelled stage .settled

theorem Next.fits {stage stage' : Stage} {deadline deadline' : Deadline}
    (h : Next stage deadline stage' deadline') (hfits : deadline.Fits stage) :
    deadline'.Fits stage' := by
  cases h with
  | readDone | readFailed | answer | writeDone =>
      cases deadline with
      | waiting | expired | closed => trivial
      | cancelled | settled => exact hfits.elim
  | finish => cases deadline <;> trivial
  | expire => trivial
  | close => trivial
  | settle => cases stage <;> exact hfits

namespace Connection

/-- The connection at a stage of its exchange and of its deadline. -/
def situated (stage : Stage) (deadline : Deadline) : Connection where
  socketOpen := deadline.socketOpen
  reads := stage.reads
  readsDone := stage.readsDone
  writes := stage.writes
  writesDone := stage.writesDone
  waits := deadline.waits
  waitsDone := deadline.waitsDone
  log := stage.events

theorem start_eq : start = situated .reading .waiting := rfl

variable {stage : Stage} {deadline : Deadline}

theorem answer_situated {index : Nat} {response : Response} {next : Connection}
    (hstep : (situated stage deadline).step (.answer index response) = some next) :
    ∃ request, (situated stage deadline).requestAt index = some request ∧
      stage = .read (some request) ∧ next = situated (.writing request response) deadline := by
  obtain ⟨request, hrequest, rfl⟩ := Option.map_eq_some_iff.mp hstep
  refine ⟨request, hrequest, ?_⟩
  rw [requestAt, Option.join_eq_some_iff] at hrequest
  cases stage with
  | read result =>
      obtain ⟨rfl, rfl⟩ := Slots.eq_of_getElem?_singleton hrequest
      exact ⟨rfl, rfl⟩
  | reading | readFailed | writing | written | finished => cases hrequest

/-- Every other step is one of the exchange or of the deadline, too. -/
theorem input_situated {action : Input} {next : Connection}
    (hstep : (situated stage deadline).input action = some next) :
    ∃ stage' deadline', Next stage deadline stage' deadline' ∧
      stage'.answered = stage.answered ∧ next = situated stage' deadline' := by
  cases action with
  | readDone request =>
      obtain ⟨⟨hreads, hopen⟩, hnext⟩ := Option.ite_none_right_eq_some.mp hstep
      obtain rfl := Option.some.inj hnext
      cases stage with
      | reading => exact ⟨_, _, .readDone request hopen, rfl, rfl⟩
      | read | readFailed | writing | written | finished => cases hreads
  | readFailed index =>
      obtain ⟨hread, hnext⟩ := Option.ite_none_right_eq_some.mp hstep
      obtain rfl := Option.some.inj hnext
      cases stage with
      | read result =>
          obtain ⟨rfl, rfl⟩ := Slots.eq_of_getElem?_singleton hread
          exact ⟨_, _, .readFailed, rfl, rfl⟩
      | reading | readFailed | writing | written | finished => cases hread
  | writeDone failed =>
      obtain ⟨⟨hwrites, hopen⟩, hnext⟩ := Option.ite_none_right_eq_some.mp hstep
      obtain rfl := Option.some.inj hnext
      cases stage with
      | writing request response => exact ⟨_, _, .writeDone failed hopen, rfl, rfl⟩
      | reading | read | readFailed | written | finished => cases hwrites
  | written index =>
      obtain ⟨failed, hwritten, rfl⟩ := Option.map_eq_some_iff.mp hstep
      cases stage with
      | written request response result =>
          obtain ⟨rfl, rfl⟩ := Slots.eq_of_getElem?_singleton hwritten
          refine ⟨_, _, .finish, rfl, ?_⟩
          cases deadline <;> rfl
      | reading | read | readFailed | writing | finished => cases hwritten
  | deadlineExpires =>
      obtain ⟨hwaits, hnext⟩ := Option.ite_none_right_eq_some.mp hstep
      obtain rfl := Option.some.inj hnext
      cases deadline with
      | waiting => exact ⟨_, _, .expire, rfl, rfl⟩
      | expired | closed | cancelled | settled => cases hwaits
  | deadlineHandler index =>
      obtain ⟨result, hdone, rfl⟩ := Option.map_eq_some_iff.mp hstep
      cases deadline with
      | expired =>
          obtain ⟨rfl, rfl⟩ := Slots.eq_of_getElem?_singleton hdone
          exact ⟨_, _, .close, rfl, rfl⟩
      | cancelled =>
          obtain ⟨rfl, rfl⟩ := Slots.eq_of_getElem?_singleton hdone
          exact ⟨_, _, .settle, rfl, rfl⟩
      | waiting | closed | settled => cases hdone

/-- The connection is somewhere in its life. -/
def Sound (c : Connection) : Prop :=
  ∃ stage deadline, Deadline.Fits deadline stage ∧ c = situated stage deadline

theorem Sound.start : start.Sound := ⟨.reading, .waiting, trivial, start_eq⟩

theorem Sound.input {c next : Connection} {action : Input} (h : c.Sound)
    (hstep : c.input action = some next) : next.Sound := by
  obtain ⟨stage, deadline, hfits, rfl⟩ := h
  obtain ⟨stage', deadline', hnext, -, rfl⟩ := input_situated hstep
  exact ⟨stage', deadline', hnext.fits hfits, rfl⟩

theorem Sound.step {c next : Connection} {action : Action} (h : c.Sound)
    (hstep : c.step action = some next) : next.Sound := by
  cases action with
  | input action => exact h.input hstep
  | answer index response =>
      obtain ⟨stage, deadline, hfits, rfl⟩ := h
      obtain ⟨request, -, rfl, rfl⟩ := answer_situated hstep
      have hnext : Next (.read (some request)) deadline (.writing request response) deadline :=
        .answer request response
      exact ⟨_, deadline, hnext.fits hfits, rfl⟩

theorem sound_of_exec {actions : List Action} {c : Connection}
    (hexec : exec Connection.step Connection.start actions = some c) : c.Sound :=
  exec_invariant Sound (fun _ _ _ (_ : True) h hstep => h.step hstep) Sound.start
    (meets_true _ actions) hexec

/-! ## What holds of every connection -/

/-- A read or a write is outstanding, or its handler is queued. -/
def Busy (c : Connection) : Prop :=
  0 < c.reads + c.readsDone.length + (c.writes + c.writesDone.length)

/-- An exchange that is under way on an open socket has the deadline ahead of it. -/
def Guarded (c : Connection) : Prop :=
  c.socketOpen = true → c.Busy → c.waits = 1 ∨ .success ∈ c.waitsDone

/-- Nothing refers to the session any more. -/
def Released (c : Connection) : Prop := ¬c.Busy ∧ c.waits = 0 ∧ c.waitsDone = []

instance (c : Connection) : Decidable c.Busy := inferInstanceAs (Decidable (0 < _))

instance (c : Connection) : Decidable c.Released := inferInstanceAs (Decidable (_ ∧ _))

/-- The requests that were processed. -/
def requests (c : Connection) : List Request :=
  c.log.filterMap fun
    | .requestRead request => some request
    | _ => none

/-- The responses that were sent. -/
def responses (c : Connection) : List Response :=
  c.log.filterMap fun
    | .responseStarted response => some response
    | _ => none

theorem requests_situated (stage : Stage) (deadline : Deadline) :
    (situated stage deadline).requests = stage.answered.toList.map Prod.fst := by
  cases stage <;> rfl

theorem responses_situated (stage : Stage) (deadline : Deadline) :
    (situated stage deadline).responses = stage.answered.toList.map Prod.snd := by
  cases stage <;> rfl

theorem exchanged_input {c next : Connection} {action : Input} (h : c.Sound)
    (hstep : c.input action = some next) :
    next.requests = c.requests ∧ next.responses = c.responses := by
  obtain ⟨stage, deadline, -, rfl⟩ := h
  obtain ⟨stage', deadline', -, hanswered, rfl⟩ := input_situated hstep
  simp only [requests_situated, responses_situated, hanswered, and_self]

/-- A request is processed once, and answered by the response that was made of it. -/
theorem exchanged_answer {c next : Connection} {index : Nat} {request : Request}
    {response : Response} (h : c.Sound) (hrequest : c.requestAt index = some request)
    (hstep : c.step (.answer index response) = some next) :
    c.requests = [] ∧ next.requests = [request] ∧ next.responses = [response] := by
  obtain ⟨stage, deadline, -, rfl⟩ := h
  obtain ⟨other, hother, rfl, rfl⟩ := answer_situated hstep
  rw [hother, Option.some.injEq] at hrequest
  rw [requests_situated, requests_situated, responses_situated, hrequest]
  exact ⟨rfl, rfl, rfl⟩

/-- The write of the response has ended, with or without an error. -/
def WriteEnded (c : Connection) : Prop := ∃ failed, .shutdown failed ∈ c.log

theorem Sound.guarded {c : Connection} (h : c.Sound) : c.Guarded := by
  obtain ⟨stage, deadline, hfits, rfl⟩ := h
  intro hopen hbusy
  cases deadline with
  | waiting => exact Or.inl rfl
  | expired => exact Or.inr List.mem_cons_self
  | closed => cases hopen
  | cancelled | settled =>
      cases stage with
      | finished => cases hbusy
      | reading | read | readFailed | writing | written => exact hfits.elim

/-- A session goes away when the write of its response has ended or the deadline
closed it. -/
theorem Sound.writeEnded_or_closed {c : Connection} (h : c.Sound) (hreleased : c.Released) :
    c.WriteEnded ∨ c.socketOpen = false := by
  obtain ⟨stage, deadline, hfits, rfl⟩ := h
  obtain ⟨hidle, hwaits, hdone⟩ := hreleased
  cases stage with
  | reading | read | writing | written => exact (hidle Nat.one_pos).elim
  | finished request response failed => exact Or.inl ⟨failed, by simp [situated, Stage.events]⟩
  | readFailed =>
      cases deadline with
      | closed => exact Or.inr rfl
      | waiting => cases hwaits
      | expired => cases hdone
      | cancelled | settled => exact hfits.elim

/-! ## How long a connection lives -/

/-- The steps that are left at most. -/
def remaining (c : Connection) : Nat :=
  4 * c.reads + 3 * c.readsDone.length + 2 * c.writes + c.writesDone.length + 2 * c.waits +
    c.waitsDone.length

theorem remaining_input {c next : Connection} {action : Input}
    (hstep : c.input action = some next) : next.remaining < c.remaining := by
  cases action with
  | readDone request =>
      obtain ⟨⟨hreads, -⟩, hnext⟩ := Option.ite_none_right_eq_some.mp hstep
      obtain rfl := Option.some.inj hnext
      simp only [remaining, List.length_append, List.length_singleton]
      omega
  | readFailed index =>
      obtain ⟨hread, hnext⟩ := Option.ite_none_right_eq_some.mp hstep
      obtain rfl := Option.some.inj hnext
      have hlength := Slots.length_eraseIdx_add_one hread
      simp only [remaining, record]
      omega
  | writeDone failed =>
      obtain ⟨⟨hwrites, -⟩, hnext⟩ := Option.ite_none_right_eq_some.mp hstep
      obtain rfl := Option.some.inj hnext
      simp only [remaining, List.length_append, List.length_singleton]
      omega
  | written index =>
      obtain ⟨failed, hwritten, rfl⟩ := Option.map_eq_some_iff.mp hstep
      have hlength := Slots.length_eraseIdx_add_one hwritten
      simp only [remaining, onWritten, cancelDeadline, record, List.length_append,
        List.length_replicate]
      omega
  | deadlineExpires =>
      obtain ⟨hwaits, hnext⟩ := Option.ite_none_right_eq_some.mp hstep
      obtain rfl := Option.some.inj hnext
      simp only [remaining, List.length_append, List.length_replicate]
      omega
  | deadlineHandler index =>
      obtain ⟨result, hdone, rfl⟩ := Option.map_eq_some_iff.mp hstep
      have hlength := Slots.length_eraseIdx_add_one hdone
      cases result <;>
      · simp only [remaining, onDeadline]
        omega

theorem remaining_step {c next : Connection} {action : Action} (hstep : c.step action = some next) :
    next.remaining < c.remaining := by
  cases action with
  | input action => exact remaining_input hstep
  | answer index response =>
      obtain ⟨request, hrequest, rfl⟩ := Option.map_eq_some_iff.mp hstep
      have hlength := Slots.length_eraseIdx_add_one (Option.join_eq_some_iff.mp hrequest)
      simp only [remaining, processRequest, writeResponse, record]
      omega

/-- No connection takes more than six steps. -/
theorem length_le_of_exec {actions : List Action} {c : Connection}
    (hexec : exec step start actions = some c) : actions.length ≤ 6 := by
  have hle := length_add_le_of_exec remaining
    (fun _ _ _ (_ : True) hstep => remaining_step hstep) (meets_true start actions) hexec
  exact Nat.le_of_add_right_le hle

/-- A connection that can take no step is one that nothing refers to. -/
theorem released_of_stuck {c : Connection} (hstuck : ∀ action, c.step action = none) :
    c.Released := by
  have hreads : c.reads = 0 := by
    have h := hstuck (.input (.readDone none))
    simpa [step, input] using h
  have hread : c.readsDone = [] := by
    cases hdone : c.readsDone with
    | nil => rfl
    | cons result rest =>
        cases result with
        | none =>
            have h := hstuck (.input (.readFailed 0))
            simp [step, input, hdone] at h
        | some request =>
            have h := hstuck (.answer 0 {})
            simp [step, requestAt, hdone] at h
  have hwrites : c.writes = 0 := by
    have h := hstuck (.input (.writeDone true))
    simpa [step, input] using h
  have hwritten : c.writesDone = [] := by
    have h := hstuck (.input (.written 0))
    simpa [step, input] using h
  have hwaits : c.waits = 0 := by
    have h := hstuck (.input .deadlineExpires)
    simpa [step, input] using h
  have hdone : c.waitsDone = [] := by
    have h := hstuck (.input (.deadlineHandler 0))
    simpa [step, input] using h
  refine ⟨?_, hwaits, hdone⟩
  simp [Busy, hreads, hread, hwrites, hwritten]

end Connection

end Vorze.HttpConnectSession
