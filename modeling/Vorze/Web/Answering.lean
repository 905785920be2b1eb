import Vorze.Foundation.Slots
import Vorze.System.Accounting
import Vorze.Web.Server

/-! # Every request is answered for itself

In a run of the whole server the requests that the serial ports' server is given
are those that the connections have read, each once. What a connection is sent
was made of its own request, in the state that all requests before had led to.
-/

namespace Vorze

open Transition HttpConnectSession
open SerialPortControlServer (commandsTaken orderOf requestsOf)

namespace WebControlServer

/-- The requests that the connections had processed. -/
def processed (server : WebControlServer) : List Request :=
  server.sessions.flatMap Connection.requests

/-- The response is what processing the request gives at its place among the actions. -/
def MadeOf (config : Config) (actions : List SerialPortControlServer.Action) (request : Request)
    (response : Response) : Prop :=
  ∃ before after serial, actions = before ++ .request request :: after ∧
    exec SerialPortControlServer.step (.init config) before = some serial ∧
    response = (processRequest serial request).1

theorem MadeOf.append {config : Config} {actions : List SerialPortControlServer.Action}
    {request : Request} {response : Response} (h : MadeOf config actions request response)
    (more : List SerialPortControlServer.Action) :
    MadeOf config (actions ++ more) request response := by
  obtain ⟨before, after, serial, rfl, hexec, hresponse⟩ := h
  refine ⟨before, after ++ more, serial, ?_, hexec, hresponse⟩
  rw [List.append_assoc, List.cons_append]

/-- What the actions of the serial ports' server so far have to do with the connections. -/
structure Answering (config : Config) (done : List SerialPortControlServer.Action)
    (server : WebControlServer) : Prop where
  serial : exec SerialPortControlServer.step (.init config) done =
    some server.serialPortControlServer
  sound : ∀ c ∈ server.sessions, c.Sound
  once : (requestsOf done).Perm server.processed
  made : ∀ c ∈ server.sessions, List.Forall₂ (MadeOf config done) c.requests c.responses

namespace Answering

variable {config : Config} {done : List SerialPortControlServer.Action}
variable {server next : WebControlServer}

theorem start (config : Config) : Answering config [] (start config) where
  serial := rfl
  sound := fun _ hc => by cases hc
  once := .refl []
  made := fun _ hc => by cases hc

/-- The connections of a state, with what was made for them. -/
theorem sessions {more : List SerialPortControlServer.Action} (h : Answering config done server)
    (hserial : exec SerialPortControlServer.step server.serialPortControlServer more =
      some next.serialPortControlServer)
    (hmore : requestsOf more = []) (hprocessed : next.processed = server.processed)
    (hsessions : ∀ c ∈ next.sessions, c.Sound ∧
      (c = Connection.start ∨ ∃ old ∈ server.sessions,
        c.requests = old.requests ∧ c.responses = old.responses)) :
    Answering config (done ++ more) next where
  serial := by rw [exec_append, h.serial, Option.bind_some, hserial]
  sound := fun c hc => (hsessions c hc).1
  once := by
    have hrequests : requestsOf (done ++ more) = requestsOf done := by
      rw [requestsOf, List.filterMap_append]
      exact (congrArg _ hmore).trans (List.append_nil _)
    rw [hrequests, hprocessed]
    exact h.once
  made := by
    intro c hc
    rcases (hsessions c hc).2 with rfl | ⟨old, hold, hrequests, hresponses⟩
    · exact .nil
    · rw [hrequests, hresponses]
      exact (h.made old hold).imp fun _ _ hmade => hmade.append more

/-- The other connections keep what was made for them. -/
theorem answer {id index : Nat} {c after : Connection} {request : Request}
    (h : Answering config done server) (hc : server.sessions[id]? = some c)
    (hrequest : c.requestAt index = some request)
    (hafter : c.step (.answer index
      (processRequest server.serialPortControlServer request).1) = some after)
    (hserial : exec SerialPortControlServer.step server.serialPortControlServer
      [.request request] = some (processRequest server.serialPortControlServer request).2) :
    Answering config (done ++ [.request request]) { server with
      sessions := server.sessions.set id after
      serialPortControlServer := (processRequest server.serialPortControlServer request).2 } where
  serial := by rw [exec_append, h.serial, Option.bind_some, hserial]
  sound := by
    intro other hother
    rcases List.mem_or_eq_of_mem_set hother with hold | rfl
    · exact h.sound other hold
    · exact (h.sound c (List.mem_of_getElem? hc)).step hafter
  once := by
    obtain ⟨hnone, hone, -⟩ :=
      Connection.exchanged_answer (h.sound c (List.mem_of_getElem? hc)) hrequest hafter
    have hrequests : requestsOf (done ++ [.request request]) = requestsOf done ++ [request] :=
      List.filterMap_append
    rw [hrequests]
    exact (h.once.append_right [request]).trans
      (Slots.flatMap_set_perm hc (by rw [hnone, hone]; rfl)).symm
  made := by
    intro other hother
    rcases List.mem_or_eq_of_mem_set hother with hold | rfl
    · exact (h.made other hold).imp fun _ _ hmade => hmade.append _
    · obtain ⟨-, hone, hresponse⟩ :=
        Connection.exchanged_answer (h.sound c (List.mem_of_getElem? hc)) hrequest hafter
      rw [hone, hresponse]
      exact .cons ⟨done, [], server.serialPortControlServer, rfl, h.serial, rfl⟩ .nil

/-- A new connection has not been answered. -/
theorem onAccept (h : Answering config done server) (index : Nat) (ec : Option AcceptError) :
    Answering config (done ++ []) (WebControlServer.onAccept
      { server with acceptsDone := server.acceptsDone.eraseIdx index } ec) := by
  refine h.sessions (by rw [onAccept_serial]; rfl) rfl ?_ ?_
  · rw [processed, onAccept_sessions]
    split
    next =>
      rw [List.flatMap_append]
      exact List.append_nil _
    next => rfl
  · intro c hc
    rw [onAccept_sessions] at hc
    split at hc
    next =>
      rcases List.mem_append.mp hc with hold | hnew
      · exact ⟨h.sound c hold, Or.inr ⟨c, hold, rfl, rfl⟩⟩
      · obtain rfl := List.mem_singleton.mp hnew
        exact ⟨Connection.Sound.start, Or.inl rfl⟩
    next => exact ⟨h.sound c hc, Or.inr ⟨c, hc, rfl, rfl⟩⟩

/-- What a connection does by itself leaves its answer as it is. -/
theorem input {id : Nat} {input : Connection.Input} {c after : Connection}
    (h : Answering config done server) (hc : server.sessions[id]? = some c)
    (hafter : c.input input = some after) :
    Answering config (done ++ []) { server with sessions := server.sessions.set id after } := by
  have hmem := List.mem_of_getElem? hc
  have hsame := Connection.exchanged_input (h.sound c hmem) hafter
  refine h.sessions rfl rfl (Slots.flatMap_set_of_eq hc hsame.1) ?_
  intro other hother
  rcases List.mem_or_eq_of_mem_set hother with hold | rfl
  · exact ⟨h.sound other hold, Or.inr ⟨other, hold, rfl, rfl⟩⟩
  · exact ⟨(h.sound c hmem).input hafter, Or.inr ⟨c, hmem, hsame⟩⟩

theorem step {action : Action} (h : Answering config done server)
    (hstep : server.step action = some next) :
    Answering config (done ++ server.serialLabels action) next := by
  have hserial := step_serial hstep
  unfold WebControlServer.step at hstep
  split at hstep
  next => cases hstep
  next =>
    cases action with
    | acceptDone ec =>
        obtain ⟨-, hnext⟩ := Option.ite_none_right_eq_some.mp hstep
        obtain rfl := Option.some.inj hnext
        exact h.sessions hserial rfl rfl fun c hc => ⟨h.sound c hc, Or.inr ⟨c, hc, rfl, rfl⟩⟩
    | acceptHandler index =>
        obtain ⟨ec, -, rfl⟩ := Option.map_eq_some_iff.mp hstep
        exact h.onAccept index ec
    | session id input =>
        obtain ⟨c, hc, hstep⟩ := Option.bind_eq_some_iff.mp hstep
        obtain ⟨after, hafter, rfl⟩ := Option.map_eq_some_iff.mp hstep
        exact h.input hc hafter
    | answer id index =>
        obtain ⟨c, request, hc, hrequest, after, hafter, rfl⟩ := answer_eq_some hstep
        have hlabel : server.serialLabels (.answer id index) = [.request request] := by
          simp [serialLabels, requestOf, hc, hrequest]
        rw [hlabel] at hserial ⊢
        exact h.answer hc hrequest hafter hserial
    | serial action =>
        obtain ⟨hrequest, hstep⟩ := Option.ite_none_left_eq_some.mp hstep
        obtain ⟨serial, -, rfl⟩ := Option.map_eq_some_iff.mp hstep
        have hnone : requestsOf [action] = [] := by
          cases action with
          | request request => exact absurd rfl hrequest
          | start | stop | timerExpires | timerHandler | found | session => rfl
        exact h.sessions hserial hnone rfl fun c hc =>
          ⟨h.sound c hc, Or.inr ⟨c, hc, rfl, rfl⟩⟩

end Answering

theorem answering_of_exec {config : Config} {actions : List Action} {server : WebControlServer}
    (hexec : exec step (WebControlServer.start config) actions = some server) :
    Answering config (serialActions config actions) server :=
  trace_invariant (Answering config) (fun _ _ _ _ h hstep => h.step hstep) (.start config) hexec

/-- Two connections ask for the same port: the first gets it opened, and the second
sends a command. -/
def openThenCommand : List Action :=
  let request := SerialPortControlServer.rawRequest (text "COM3") 1 50
  [.serial .start, .serial (.found (some [⟨text "(COM3)", text "COM3"⟩])), .acceptDone none,
    .acceptHandler 0, .acceptDone none, .acceptHandler 0, .session 1 (.readDone (some request)),
    .session 0 (.readDone (some request)), .answer 0 0, .serial (.session 0 (.handler 0 [])),
    .answer 1 0]

end WebControlServer

end Vorze
