import Vorze.EmbedWeb.KeepAlive
import Vorze.Foundation.Population
import Vorze.Foundation.Slots

/-! # The embedded web server with its connections

`EmbedWebServer` sets up its acceptor when it is constructed and then accepts
connections for good, whatever an accept ends with. Every connection has a strand
of its own.
-/

namespace Vorze.EmbedWeb

open Transition

/-- Which of the calls in the constructor fail; the first that does is the last one. -/
structure Setup where
  openFails : Bool := false
  setOptionFails : Bool := false
  bindFails : Bool := false
  listenFails : Bool := false
  deriving DecidableEq, Repr

/-- No call fails. -/
def Setup.Succeeds (setup : Setup) : Prop :=
  setup.openFails = false ∧ setup.setOptionFails = false ∧ setup.bindFails = false ∧
    setup.listenFails = false

/-- How far the acceptor came. -/
inductive Acceptor
  | closed
  | opened
  | bound
  | listening
  deriving DecidableEq, Repr

/-- `accepted` lists for every call of `on_accept` whether the accept had failed. -/
structure EmbedWebServer where
  acceptor : Acceptor
  accepts : Nat := 0
  acceptsDone : List Bool := []
  accepted : List Bool := []
  sessions : List Session := []
  deriving DecidableEq, Repr

namespace EmbedWebServer

/-- The constructor. It reports a failure and returns, and the server is used all
the same. -/
def construct (setup : Setup) : EmbedWebServer :=
  if setup.openFails then { acceptor := .closed }
  else if setup.setOptionFails then { acceptor := .opened }
  else if setup.bindFails then { acceptor := .opened }
  else if setup.listenFails then { acceptor := .bound }
  else { acceptor := .listening }

def doAccept (server : EmbedWebServer) : EmbedWebServer :=
  { server with accepts := server.accepts + 1 }

def onAccept (server : EmbedWebServer) (failed : Bool) : EmbedWebServer :=
  let server := { server with accepted := server.accepted ++ [failed] }
  let server :=
    if failed then server else { server with sessions := server.sessions ++ [Session.run] }
  server.doAccept

def start (setup : Setup) : EmbedWebServer := (construct setup).doAccept

inductive Action
  | acceptDone (failed : Bool)
  | acceptHandler (index : Nat)
  | session (id : Nat) (action : Session.Action)

/-- One step. Without a listening acceptor every accept ends with an error. -/
def step (config : SessionConfig) (server : EmbedWebServer) : Action → Option EmbedWebServer
  | .acceptDone failed =>
      if 0 < server.accepts ∧ (server.acceptor = .listening ∨ failed = true) then
        some { server with accepts := server.accepts - 1,
                           acceptsDone := server.acceptsDone ++ [failed] }
      else none
  | .acceptHandler index =>
      (server.acceptsDone[index]?).map fun failed =>
        onAccept { server with acceptsDone := server.acceptsDone.eraseIdx index } failed
  | .session id action =>
      (server.sessions[id]?).bind fun s => (s.step config action).map fun next =>
        { server with sessions := server.sessions.set id next }

variable {config : SessionConfig} {setup : Setup} {server next : EmbedWebServer}
variable {actions : List Action}

/-! ## The connections in a run -/

/-- What a step is for the connections. -/
def sessionLabels (server : EmbedWebServer) : Action → List (Population.Action Session.Action)
  | .acceptDone _ => []
  | .acceptHandler index => if server.acceptsDone[index]? = some false then [.start] else []
  | .session id action => [.member id action]

theorem onAccept_sessions (server : EmbedWebServer) (failed : Bool) :
    (server.onAccept failed).sessions =
      if failed then server.sessions else server.sessions ++ [Session.run] := by
  cases failed <;> rfl

theorem step_sessions {action : Action} (hstep : server.step config action = some next) :
    exec (Population.step Session.run (Session.step config)) server.sessions
      (server.sessionLabels action) = some next.sessions := by
  cases action with
  | acceptDone failed =>
      obtain ⟨-, hnext⟩ := Option.ite_none_right_eq_some.mp hstep
      obtain rfl := Option.some.inj hnext
      rfl
  | acceptHandler index =>
      obtain ⟨failed, hfailed, rfl⟩ := Option.map_eq_some_iff.mp hstep
      rw [onAccept_sessions, sessionLabels, hfailed]
      cases failed <;> rfl
  | session id action =>
      obtain ⟨s, hs, hstep⟩ := Option.bind_eq_some_iff.mp hstep
      obtain ⟨after, hafter, rfl⟩ := Option.map_eq_some_iff.mp hstep
      simp [sessionLabels, Population.step, hs, hafter]

/-- The step of one connection that an action is. -/
def ownAction (id : Nat) : Action → Option Session.Action
  | .session other action => if other = id then some action else none
  | .acceptDone _ | .acceptHandler _ => none

theorem actionsOf_sessionLabels (id : Nat) (server : EmbedWebServer) (action : Action) :
    Population.actionsOf id (server.sessionLabels action) = (ownAction id action).toList := by
  cases action with
  | acceptDone failed => rfl
  | acceptHandler index =>
      rw [sessionLabels]
      split <;> rfl
  | session other action =>
      by_cases hid : other = id <;> simp [sessionLabels, ownAction, Population.actionsOf, hid]

/-- Every connection has taken the steps of a session that were its own, whatever the
others did. -/
theorem exec_session (hexec : exec (step config) (start setup) actions = some server)
    {id : Nat} {s : Session} (hs : server.sessions[id]? = some s) :
    exec (Session.step config) Session.run (actions.filterMap (ownAction id)) = some s := by
  have hnone : (start setup).sessions = [] := by
    unfold start construct doAccept
    split_ifs <;> rfl
  have hsessions := exec_view sessions (fun _ _ _ => step_sessions) hexec
  rw [hnone] at hsessions
  rw [← filterMap_trace (actionsOf_sessionLabels id) hexec]
  exact Population.exec_member hsessions hs

/-- Every connection has one operation outstanding at most, answers every request
once, as it was asked to, and starts nothing after its end. -/
theorem sessions_answer (hexec : exec (step config) (start setup) actions = some server) :
    ∀ s ∈ server.sessions, s.reads + s.writes.length ≤ 1 ∧ AnsweredOnce s.log ∧
      AnsweredAsAsked Suits s.log ∧ QuietAfterEnd s.log := by
  intro s hs
  obtain ⟨id, hget⟩ := List.getElem?_of_mem hs
  obtain ⟨exchanges, stage, hfollows, hasked⟩ : s.FollowsAsked Suits :=
    Session.followsAsked_of_exec (fun _ _ hsuits => hsuits)
      (fun _ _ req answers _ => responseOf_suits config req answers) (exec_session hexec hget)
  rw [hfollows.log, hfollows.reads, hfollows.writes]
  exact ⟨stage.outstanding, answeredOnce_conversation exchanges stage,
    answeredAsAsked_conversation hasked, quietAfterEnd_conversation exchanges stage⟩

/-- One connection sends both requests, and the accept after it fails. -/
def oneConnection : List Action :=
  [.acceptDone false, .acceptHandler 0, .acceptDone true, .acceptHandler 0] ++
    twoRequests.map (.session 0)

theorem sessions_answer_oneConnection :
    ∃ server, exec (step backendConfig) (start {}) oneConnection = some server ∧
      ∃ s ∈ server.sessions, s.log.length = 9 ∧ AnsweredAsAsked Suits s.log := by
  obtain ⟨server, hexec, s, hs, hlog⟩ :
      ∃ server, exec (step backendConfig) (start {}) oneConnection = some server ∧
        ∃ s ∈ server.sessions, s.log.length = 9 :=
    exists_exec (by decide)
  exact ⟨server, hexec, s, hs, hlog, (sessions_answer hexec s hs).2.2.1⟩

/-! ## Accepting -/

/-- One accept is under way. Every accepted socket has its session, and there are
none without a listening acceptor. -/
structure Accepting (setup : Setup) (server : EmbedWebServer) : Prop where
  acceptor : server.acceptor = .listening → setup.Succeeds
  under_way : server.accepts + server.acceptsDone.length = 1
  sessions : server.sessions.length = server.accepted.count false
  failed : server.acceptor ≠ .listening → false ∉ server.acceptsDone ∧ false ∉ server.accepted

theorem listening_construct_iff : (construct setup).acceptor = .listening ↔ setup.Succeeds := by
  unfold construct Setup.Succeeds
  cases setup.openFails <;> cases setup.setOptionFails <;> cases setup.bindFails <;>
    cases setup.listenFails <;> decide

theorem Accepting.start : Accepting setup (start setup) where
  acceptor := fun hlistening => listening_construct_iff.mp hlistening
  under_way := by
    unfold EmbedWebServer.start construct doAccept
    split_ifs <;> rfl
  sessions := by
    unfold EmbedWebServer.start construct doAccept
    split_ifs <;> rfl
  failed := by
    unfold EmbedWebServer.start construct doAccept
    split_ifs <;> simp

theorem Accepting.step {action : Action} (h : Accepting setup server)
    (hstep : server.step config action = some next) : Accepting setup next := by
  have hunder := h.under_way
  cases action with
  | acceptDone failed =>
      obtain ⟨⟨haccepts, hopen⟩, hnext⟩ := Option.ite_none_right_eq_some.mp hstep
      obtain rfl := Option.some.inj hnext
      refine ⟨h.acceptor, ?_, h.sessions, ?_⟩
      · rw [List.length_append, List.length_singleton]
        change server.accepts - 1 + (server.acceptsDone.length + 1) = 1
        omega
      · intro hclosed
        obtain ⟨hdone, haccepted⟩ := h.failed hclosed
        have hfailed : failed = true := hopen.resolve_left hclosed
        simp [hdone, haccepted, hfailed]
  | acceptHandler index =>
      obtain ⟨failed, hdone, rfl⟩ := Option.map_eq_some_iff.mp hstep
      have hlength := Slots.length_eraseIdx_add_one hdone
      have hmem := List.mem_of_getElem? hdone
      cases failed with
      | true =>
          refine ⟨h.acceptor, ?_, ?_, ?_⟩
          · change server.accepts + 1 + (server.acceptsDone.eraseIdx index).length = 1
            omega
          · change server.sessions.length = (server.accepted ++ [true]).count false
            simp [h.sessions]
          · intro hclosed
            obtain ⟨hnone, haccepted⟩ := h.failed hclosed
            refine ⟨fun hin => hnone (List.mem_of_mem_eraseIdx hin), ?_⟩
            change false ∉ server.accepted ++ [true]
            simp [haccepted]
      | false =>
          refine ⟨h.acceptor, ?_, ?_, fun hclosed => absurd hmem (h.failed hclosed).1⟩
          · change server.accepts + 1 + (server.acceptsDone.eraseIdx index).length = 1
            omega
          · change (server.sessions ++ [Session.run]).length =
              (server.accepted ++ [false]).count false
            simp [h.sessions]
  | session id action =>
      obtain ⟨s, -, hstep⟩ := Option.bind_eq_some_iff.mp hstep
      obtain ⟨after, -, rfl⟩ := Option.map_eq_some_iff.mp hstep
      exact ⟨h.acceptor, hunder, List.length_set.trans h.sessions, h.failed⟩

/-- The server never stops accepting. It has a session for every accepted socket, and
none at all when its acceptor could not be set up. -/
theorem accepts_for_good (hexec : exec (step config) (start setup) actions = some server) :
    server.accepts + server.acceptsDone.length = 1 ∧
      server.sessions.length = server.accepted.count false ∧
      (¬setup.Succeeds → server.sessions = []) := by
  have h : Accepting setup server :=
    exec_invariant (Accepting setup) (fun _ _ _ (_ : True) h hstep => h.step hstep) .start
      (meets_true _ actions) hexec
  refine ⟨h.under_way, h.sessions, fun hfails => ?_⟩
  have hclosed : server.acceptor ≠ .listening := fun hopen => hfails (h.acceptor hopen)
  rw [← List.length_eq_zero_iff, h.sessions, List.count_eq_zero]
  exact (h.failed hclosed).2

theorem accepts_for_good_oneConnection :
    ∃ server, exec (step backendConfig) (start {}) oneConnection = some server ∧
      server.accepts + server.acceptsDone.length = 1 ∧ server.sessions.length = 1 := by
  obtain ⟨server, hexec, haccepted⟩ :
      ∃ server, exec (step backendConfig) (start {}) oneConnection = some server ∧
        server.accepted.count false = 1 :=
    exists_exec (by decide)
  obtain ⟨hunder, hsessions, -⟩ := accepts_for_good hexec
  exact ⟨server, hexec, hunder, hsessions.trans haccepted⟩

end EmbedWebServer

end Vorze.EmbedWeb
