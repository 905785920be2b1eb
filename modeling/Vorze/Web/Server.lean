import Vorze.Foundation.Population
import Vorze.System.Step
import Vorze.Web.Connection
import Vorze.Web.Responses

/-! # The control server with its connections

`WebControlServer` accepts connections and lets each of them have its exchange,
while the serial ports' server goes on with its own steps. A request is processed
in the handler of the read that brought it.
-/

namespace Vorze

open Transition HttpConnectSession

/-- The errors that `async_accept` may end with, as far as `http_server` tells them
apart. -/
inductive AcceptError
  | operationAborted
  | hostUnreachable
  | addressInUse
  | addressFamilyNotSupported
  | other
  deriving DecidableEq, Repr

/-- The errors after which `http_server` gives up. -/
def AcceptError.givesUp : AcceptError → Bool
  | operationAborted | hostUnreachable | addressInUse | addressFamilyNotSupported => true
  | other => false

/-- `accepted` lists the results that the handler of `async_accept` was called
with; an accept without an error brings a socket. -/
structure WebControlServer where
  accepts : Nat := 0
  acceptsDone : List (Option AcceptError) := []
  accepted : List (Option AcceptError) := []
  sessions : List Connection := []
  serialPortControlServer : SerialPortControlServer := {}
  deriving DecidableEq, Repr

namespace WebControlServer

def httpServer (server : WebControlServer) : WebControlServer :=
  { server with accepts := server.accepts + 1 }

/-- The handler of `async_accept`. -/
def onAccept (server : WebControlServer) (ec : Option AcceptError) : WebControlServer :=
  let server := { server with accepted := server.accepted ++ [ec] }
  let server :=
    if ec = none then { server with sessions := server.sessions ++ [Connection.start] } else server
  if ec.any AcceptError.givesUp then server else server.httpServer

/-- The server as it is started in a process that has read its configuration. -/
def start (config : Config) : WebControlServer :=
  httpServer { serialPortControlServer := .init config }

inductive Action
  | acceptDone (ec : Option AcceptError)
  | acceptHandler (index : Nat)
  | session (id : Nat) (input : Connection.Input)
  | answer (id index : Nat)
  | serial (action : SerialPortControlServer.Action)
  deriving DecidableEq, Repr

/-- The steps of the serial ports' server that are not taken for a request. -/
def isRequest : SerialPortControlServer.Action → Bool
  | .request _ => true
  | _ => false

/-- Process the request that the connection has read, and start its response. -/
def answer (server : WebControlServer) (id index : Nat) : Option WebControlServer :=
  (server.sessions[id]?).bind fun c => (c.requestAt index).bind fun request =>
    let (response, serial) := processRequest server.serialPortControlServer request
    (c.step (.answer index response)).map fun next =>
      { server with sessions := server.sessions.set id next, serialPortControlServer := serial }

/-- One step. A process that used the null timer pointer takes none. -/
def step (server : WebControlServer) (action : Action) : Option WebControlServer :=
  if server.serialPortControlServer.timer.Faulted then none
  else
    match action with
    | .acceptDone ec =>
        if 0 < server.accepts then
          some { server with accepts := server.accepts - 1,
                             acceptsDone := server.acceptsDone ++ [ec] }
        else none
    | .acceptHandler index =>
        (server.acceptsDone[index]?).map fun ec =>
          onAccept { server with acceptsDone := server.acceptsDone.eraseIdx index } ec
    | .session id input =>
        (server.sessions[id]?).bind fun c => (c.input input).map fun next =>
          { server with sessions := server.sessions.set id next }
    | .answer id index => server.answer id index
    | .serial action =>
        if isRequest action then none
        else (server.serialPortControlServer.step action).map fun serial =>
          { server with serialPortControlServer := serial }

/-! ## The serial ports' server in a run -/

/-- The request that an answer is made to. -/
def requestOf (server : WebControlServer) (id index : Nat) : Option Request :=
  (server.sessions[id]?).bind fun c => c.requestAt index

/-- What a step is for the serial ports' server. -/
def serialLabels (server : WebControlServer) : Action → List SerialPortControlServer.Action
  | .answer id index => (server.requestOf id index).toList.map .request
  | .serial action => [action]
  | _ => []

theorem onAccept_serial (server : WebControlServer) (ec : Option AcceptError) :
    (server.onAccept ec).serialPortControlServer = server.serialPortControlServer := by
  unfold onAccept httpServer
  cases ec with
  | none => rfl
  | some error => cases error <;> rfl

theorem answer_eq_some {server next : WebControlServer} {id index : Nat}
    (hanswer : server.answer id index = some next) :
    ∃ c request, server.sessions[id]? = some c ∧ c.requestAt index = some request ∧
      ∃ after, c.step (.answer index
          (processRequest server.serialPortControlServer request).1) = some after ∧
        next = { server with
          sessions := server.sessions.set id after
          serialPortControlServer :=
            (processRequest server.serialPortControlServer request).2 } := by
  obtain ⟨c, hc, hanswer⟩ := Option.bind_eq_some_iff.mp hanswer
  obtain ⟨request, hrequest, hanswer⟩ := Option.bind_eq_some_iff.mp hanswer
  obtain ⟨after, hafter, rfl⟩ := Option.map_eq_some_iff.mp hanswer
  exact ⟨c, request, hc, hrequest, after, hafter, rfl⟩

theorem step_serial {server next : WebControlServer} {action : Action}
    (hstep : server.step action = some next) :
    exec SerialPortControlServer.step server.serialPortControlServer
      (server.serialLabels action) = some next.serialPortControlServer := by
  unfold step at hstep
  split at hstep
  next => cases hstep
  next hfault =>
    cases action with
    | acceptDone ec =>
        obtain ⟨-, hnext⟩ := Option.ite_none_right_eq_some.mp hstep
        obtain rfl := Option.some.inj hnext
        rfl
    | acceptHandler index =>
        obtain ⟨ec, -, rfl⟩ := Option.map_eq_some_iff.mp hstep
        rw [onAccept_serial]
        rfl
    | session id input =>
        obtain ⟨c, -, hstep⟩ := Option.bind_eq_some_iff.mp hstep
        obtain ⟨after, -, rfl⟩ := Option.map_eq_some_iff.mp hstep
        rfl
    | answer id index =>
        obtain ⟨c, request, hc, hrequest, after, -, rfl⟩ := answer_eq_some hstep
        have hlabel : server.serialLabels (.answer id index) = [.request request] := by
          simp [serialLabels, requestOf, hc, hrequest]
        rw [hlabel, exec, SerialPortControlServer.step, if_neg hfault]
        rfl
    | serial action =>
        obtain ⟨-, hstep⟩ := Option.ite_none_left_eq_some.mp hstep
        obtain ⟨serial, hserial, rfl⟩ := Option.map_eq_some_iff.mp hstep
        rw [serialLabels, exec, hserial]
        rfl

/-- What a run of the whole server is for the serial ports' server. -/
def serialActions (config : Config) (actions : List Action) :
    List SerialPortControlServer.Action :=
  trace step serialLabels (start config) actions

/-! ## The connections in a run -/

/-- What a step is for the connections. -/
def sessionLabels (server : WebControlServer) :
    Action → List (Population.Action Connection.Action)
  | .acceptHandler index => if server.acceptsDone[index]? = some none then [.start] else []
  | .session id input => [.member id (.input input)]
  | .answer id index => (server.requestOf id index).toList.map fun request =>
      .member id (.answer index (processRequest server.serialPortControlServer request).1)
  | _ => []

theorem onAccept_sessions (server : WebControlServer) (ec : Option AcceptError) :
    (server.onAccept ec).sessions =
      if ec = none then server.sessions ++ [Connection.start] else server.sessions := by
  unfold onAccept httpServer
  cases ec with
  | none => rfl
  | some error => cases error <;> rfl

theorem step_sessions {server next : WebControlServer} {action : Action}
    (hstep : server.step action = some next) :
    exec (Population.step Connection.start Connection.step) server.sessions
      (server.sessionLabels action) = some next.sessions := by
  unfold step at hstep
  split at hstep
  next => cases hstep
  next =>
    cases action with
    | acceptDone ec =>
        obtain ⟨-, hnext⟩ := Option.ite_none_right_eq_some.mp hstep
        obtain rfl := Option.some.inj hnext
        rfl
    | acceptHandler index =>
        obtain ⟨ec, hec, rfl⟩ := Option.map_eq_some_iff.mp hstep
        rw [onAccept_sessions, sessionLabels, hec]
        cases ec with
        | none => rfl
        | some error => rfl
    | session id input =>
        obtain ⟨c, hc, hstep⟩ := Option.bind_eq_some_iff.mp hstep
        obtain ⟨after, hafter, rfl⟩ := Option.map_eq_some_iff.mp hstep
        simp [sessionLabels, Population.step, hc, Connection.step, hafter]
    | answer id index =>
        obtain ⟨c, request, hc, hrequest, after, hafter, rfl⟩ := answer_eq_some hstep
        simp [sessionLabels, requestOf, Population.step, hc, hrequest, hafter]
    | serial action =>
        obtain ⟨-, hstep⟩ := Option.ite_none_left_eq_some.mp hstep
        obtain ⟨serial, -, rfl⟩ := Option.map_eq_some_iff.mp hstep
        rfl

/-- What a run of the whole server is for its connections. -/
def sessionActions (config : Config) (actions : List Action) :
    List (Population.Action Connection.Action) :=
  trace step sessionLabels (start config) actions

/-- Every connection has taken the steps of a connection, starting from its own start. -/
theorem exec_session {config : Config} {actions : List Action} {server : WebControlServer}
    (hexec : exec step (start config) actions = some server) {id : Nat} {c : Connection}
    (hc : server.sessions[id]? = some c) :
    exec Connection.step Connection.start
      (Population.actionsOf id (sessionActions config actions)) = some c :=
  Population.exec_member (exec_view sessions (fun _ _ _ => step_sessions) hexec) hc

theorem sound_of_mem {config : Config} {actions : List Action} {server : WebControlServer}
    (hexec : exec step (start config) actions = some server) {c : Connection}
    (hc : c ∈ server.sessions) : c.Sound := by
  obtain ⟨id, hget⟩ := List.getElem?_of_mem hc
  exact Connection.sound_of_exec (exec_session hexec hget)

/-- The deadline watches over every exchange. When nothing refers to a connection any
more, the write of its response has ended, with or without an error, or the deadline has
closed it. -/
theorem deadline_guards {config : Config} {actions : List Action} {server : WebControlServer}
    (hexec : exec step (start config) actions = some server) :
    ∀ c ∈ server.sessions, c.Guarded ∧
      (c.Released → c.WriteEnded ∨ c.socketOpen = false) := by
  intro c hc
  have hsound := sound_of_mem hexec hc
  exact ⟨hsound.guarded, hsound.writeEnded_or_closed⟩

/-- A connection asks for the ports and is told before its deadline. The next accept
fails for good. -/
def askStatus : List Action :=
  [.serial .start, .acceptDone none, .acceptHandler 0,
    .session 0 (.readDone (some { target := text "/" })), .answer 0 0,
    .acceptDone (some .addressInUse), .acceptHandler 0, .session 0 (.writeDone false),
    .session 0 (.written 0), .session 0 (.deadlineHandler 0)]

theorem deadline_guards_askStatus :
    ∃ server, exec step (start {}) askStatus = some server ∧
      ∃ c ∈ server.sessions, c.WriteEnded ∨ c.socketOpen = false := by
  obtain ⟨server, hexec, c, hc, hreleased⟩ :
      ∃ server, exec step (start {}) askStatus = some server ∧ ∃ c ∈ server.sessions, c.Released :=
    exists_exec (by decide +kernel)
  exact ⟨server, hexec, c, hc, (deadline_guards hexec c hc).2 hreleased⟩

/-- No connection takes more than six steps, and one that can take none is released. -/
theorem connection_ends {config : Config} {actions : List Action} {server : WebControlServer}
    (hexec : exec step (start config) actions = some server) {id : Nat} {c : Connection}
    (hc : server.sessions[id]? = some c) :
    (Population.actionsOf id (sessionActions config actions)).length ≤ 6 ∧
      ((∀ action, c.step action = none) → c.Released) :=
  ⟨Connection.length_le_of_exec (exec_session hexec hc), Connection.released_of_stuck⟩

theorem connection_ends_askStatus :
    ∃ server, exec step (start {}) askStatus = some server ∧
      (Population.actionsOf 0 (sessionActions {} askStatus)).length ≤ 6 := by
  obtain ⟨server, hexec, hlength⟩ :
      ∃ server, exec step (start {}) askStatus = some server ∧ 0 < server.sessions.length :=
    exists_exec (by decide +kernel)
  have hc : server.sessions[0]? = some server.sessions[0] := List.getElem?_eq_getElem hlength
  exact ⟨server, hexec, (connection_ends hexec hc).1⟩

/-! ## Accepting -/

/-- Some accept ended with an error that `http_server` gives up on. -/
def GivenUp (server : WebControlServer) : Prop :=
  ∃ ec ∈ server.accepted, ec.any AcceptError.givesUp = true

instance (server : WebControlServer) : Decidable server.GivenUp :=
  inferInstanceAs (Decidable (∃ ec ∈ server.accepted, _))

/-- One accept is under way until `http_server` gives up, and none from then on.
Every accepted socket has its session. -/
structure Accepting (server : WebControlServer) : Prop where
  under_way : server.accepts + server.acceptsDone.length = if server.GivenUp then 0 else 1
  sessions : server.sessions.length = server.accepted.count none

theorem Accepting.start (config : Config) : (start config).Accepting := ⟨rfl, rfl⟩

theorem onAccept_accepted (server : WebControlServer) (ec : Option AcceptError) :
    (server.onAccept ec).accepted = server.accepted ++ [ec] := by
  unfold onAccept httpServer
  cases ec with
  | none => rfl
  | some error => cases error <;> rfl

/-- The handler goes on accepting unless the error is one to give up on. -/
theorem onAccept_under_way (server : WebControlServer) (ec : Option AcceptError) :
    (server.onAccept ec).accepts + (server.onAccept ec).acceptsDone.length =
      server.accepts + server.acceptsDone.length +
        if ec.any AcceptError.givesUp = true then 0 else 1 := by
  unfold onAccept httpServer
  cases ec with
  | none => simp only [Option.any_none, Bool.false_eq_true, ↓reduceIte]; omega
  | some error =>
      cases error with
      | other => simp only [Option.any_some, AcceptError.givesUp, reduceCtorEq,
          Bool.false_eq_true, ↓reduceIte]; omega
      | operationAborted | hostUnreachable | addressInUse | addressFamilyNotSupported => rfl

theorem givenUp_onAccept_iff (server : WebControlServer) (ec : Option AcceptError) :
    (server.onAccept ec).GivenUp ↔ server.GivenUp ∨ ec.any AcceptError.givesUp = true := by
  simp only [GivenUp, onAccept_accepted, List.mem_append, List.mem_singleton, or_and_right,
    exists_or, exists_eq_left]

theorem Accepting.onAccept {server : WebControlServer} {index : Nat} {ec : Option AcceptError}
    (h : server.Accepting) (hdone : server.acceptsDone[index]? = some ec) :
    (onAccept { server with acceptsDone := server.acceptsDone.eraseIdx index } ec).Accepting := by
  have hlength := Slots.length_eraseIdx_add_one hdone
  have hunder := h.under_way
  -- an accept has just ended, so the server had not given up
  have hgoing : ¬server.GivenUp := by
    intro hgone
    rw [if_pos hgone] at hunder
    omega
  rw [if_neg hgoing] at hunder
  constructor
  · have hgone : (WebControlServer.onAccept { server with
        acceptsDone := server.acceptsDone.eraseIdx index } ec).GivenUp ↔
          ec.any AcceptError.givesUp = true := by
      rw [givenUp_onAccept_iff]
      exact or_iff_right hgoing
    rw [onAccept_under_way]
    simp only [hgone]
    omega
  · rw [onAccept_sessions, onAccept_accepted, List.count_append, ← h.sessions]
    cases ec with
    | none => simp
    | some error => simp

theorem Accepting.step {server next : WebControlServer} {action : Action} (h : server.Accepting)
    (hstep : server.step action = some next) : next.Accepting := by
  unfold WebControlServer.step at hstep
  split at hstep
  next => cases hstep
  next =>
    cases action with
    | acceptDone ec =>
        obtain ⟨haccepts, hnext⟩ := Option.ite_none_right_eq_some.mp hstep
        obtain rfl := Option.some.inj hnext
        have hunder := h.under_way
        refine ⟨?_, h.sessions⟩
        change server.accepts - 1 + (server.acceptsDone ++ [ec]).length =
          if server.GivenUp then 0 else 1
        rw [← hunder, List.length_append, List.length_singleton]
        omega
    | acceptHandler index =>
        obtain ⟨ec, hec, rfl⟩ := Option.map_eq_some_iff.mp hstep
        exact h.onAccept hec
    | session id input =>
        obtain ⟨c, -, hstep⟩ := Option.bind_eq_some_iff.mp hstep
        obtain ⟨after, -, rfl⟩ := Option.map_eq_some_iff.mp hstep
        exact ⟨h.under_way, List.length_set.trans h.sessions⟩
    | answer id index =>
        obtain ⟨c, request, -, -, after, -, rfl⟩ := answer_eq_some hstep
        exact ⟨h.under_way, List.length_set.trans h.sessions⟩
    | serial action =>
        obtain ⟨-, hstep⟩ := Option.ite_none_left_eq_some.mp hstep
        obtain ⟨serial, -, rfl⟩ := Option.map_eq_some_iff.mp hstep
        exact ⟨h.under_way, h.sessions⟩

/-- In every run there is one accept under way, until one has ended with an error
that the server gives up on, and there are as many sessions as accepted sockets. -/
theorem accepting_of_exec {config : Config} {actions : List Action} {server : WebControlServer}
    (hexec : exec WebControlServer.step (start config) actions = some server) : server.Accepting :=
  exec_invariant Accepting (fun _ _ _ (_ : True) h hstep => h.step hstep) (.start config)
    (meets_true _ actions) hexec

theorem accepting_of_exec_askStatus :
    ∃ server, exec step (start {}) askStatus = some server ∧
      server.accepts + server.acceptsDone.length = 0 := by
  obtain ⟨server, hexec, hgone⟩ :
      ∃ server, exec step (start {}) askStatus = some server ∧ server.GivenUp :=
    exists_exec (by decide +kernel)
  exact ⟨server, hexec, (accepting_of_exec hexec).under_way.trans (if_pos hgone)⟩

end WebControlServer

end Vorze
