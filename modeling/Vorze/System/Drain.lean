import Vorze.Foundation.Simulation
import Vorze.Foundation.Slots
import Vorze.Serial.Callbacks
import Vorze.System.Isolation
import Vorze.System.Shutdown

/-! # The executor runs empty

Code that runs on the executor of the sessions queues nothing there. So when no
caller adds to it, what is queued and in flight runs to its end in a number of
steps that is known beforehand. Once `stop` is the last thing that concerns the
ports, they are all closed by then.
-/

namespace Vorze

namespace SerialPortSession

/-- What is left to run for a session. -/
def remaining (s : SerialPortSession) : Nat := s.handlers.length + s.writing.length

theorem step_remaining {s next : SerialPortSession} {action : Action}
    (hstep : s.step action = some next) : next.remaining + 1 = s.remaining := by
  cases action with
  | handler index answers =>
      obtain ⟨handler, hget, rfl⟩ := Option.map_eq_some_iff.mp hstep
      have hqueues := runHandler_sameQueues
        { s with handlers := s.handlers.eraseIdx index, answers := answers } handler
      have hless := Slots.length_eraseIdx_add_one hget
      simp only [remaining, hqueues.1, hqueues.2]
      omega
  | complete index ec =>
      obtain ⟨write, hget, rfl⟩ := Option.map_eq_some_iff.mp hstep
      have hqueues := invoke_sameQueues write.cb
        { s with writing := s.writing.eraseIdx index, sendingData := s.sendingData.erase write.ptr }
        (.ofCode ec)
      have hless := Slots.length_eraseIdx_add_one hget
      simp only [remaining, completeWrite, eraseData, hqueues.1, hqueues.2]
      omega

end SerialPortSession

namespace SerialPortControlServer

open SerialPortSession

/-- What is left to run for all sessions. -/
def remaining (server : SerialPortControlServer) : Nat :=
  (server.created.map fun c => c.session.remaining).sum

theorem step_session {server next : SerialPortControlServer} {id : Nat}
    {action : SerialPortSession.Action} (hstep : server.step (.session id action) = some next) :
    ∃ c session, server.created[id]? = some c ∧ c.session.step action = some session ∧
      next = { server with created := server.created.set id { c with session := session } } := by
  unfold step at hstep
  split at hstep
  next => cases hstep
  next =>
    obtain ⟨c, hget, hstep⟩ := Option.bind_eq_some_iff.mp hstep
    obtain ⟨session, hsession, rfl⟩ := Option.map_eq_some_iff.mp hstep
    exact ⟨c, session, hget, hsession, onSession_eq_set hget _⟩

theorem step_remaining {server next : SerialPortControlServer} {id : Nat}
    {action : SerialPortSession.Action} (hstep : server.step (.session id action) = some next) :
    next.remaining + 1 = server.remaining := by
  obtain ⟨c, session, hget, hsession, rfl⟩ := step_session hstep
  have hless := SerialPortSession.step_remaining hsession
  have hsum := Slots.sum_map_set (fun c => c.session.remaining)
    (b := { c with session := session }) hget
  simp only [remaining] at hsum ⊢
  omega

theorem exists_step_of_remaining {server : SerialPortControlServer}
    (htimer : ¬server.timer.Faulted) (hremaining : server.remaining ≠ 0) :
    ∃ id action next, server.step (.session id action) = some next := by
  obtain ⟨c, hc, hpending⟩ : ∃ c ∈ server.created, c.session.remaining ≠ 0 := by
    by_contra hnone
    simp only [not_exists, not_and, not_not] at hnone
    exact hremaining (List.sum_eq_zero (List.forall_mem_map.mpr hnone))
  obtain ⟨id, hid⟩ := List.getElem?_of_mem hc
  obtain ⟨action, session, hstep, -⟩ := exists_step_of_pending hpending
  exact ⟨id, action, _, by rw [step, if_neg htimer]; simp only [hid, Option.bind_some, hstep]; rfl⟩

theorem drained_of_remaining {server : SerialPortControlServer}
    (hremaining : server.remaining = 0) : server.Drained := by
  intro c hc
  have hzero : c.session.remaining = 0 :=
    List.sum_eq_zero_iff_forall_eq_nat.mp hremaining _ (List.mem_map_of_mem hc)
  exact List.length_eq_zero_iff.mp (Nat.eq_zero_of_add_eq_zero_right hzero)

/-- A turn of the executor: one handler or one completion of a session. -/
def turn (server : SerialPortControlServer) (turn : Nat × SerialPortSession.Action) :
    Option SerialPortControlServer :=
  server.step (.session turn.1 turn.2)

theorem turn_eq_none_iff {server : SerialPortControlServer} (htimer : ¬server.timer.Faulted) :
    (∀ t, server.turn t = none) ↔ server.remaining = 0 := by
  constructor
  · intro hstuck
    by_contra hremaining
    obtain ⟨id, action, next, hstep⟩ := exists_step_of_remaining htimer hremaining
    rw [show server.step (.session id action) = none from hstuck (id, action)] at hstep
    cases hstep
  · intro hremaining t
    cases hturn : server.turn t with
    | none => rfl
    | some next =>
        have hless := step_remaining hturn
        omega

/-- The executor leaves the timer alone. -/
theorem exec_turn_timer {server final : SerialPortControlServer}
    {turns : List (Nat × SerialPortSession.Action)}
    (hexec : Transition.exec turn server turns = some final) : final.timer = server.timer := by
  refine Transition.exec_invariant (fun state => state.timer = server.timer) ?_ rfl
    (Transition.meets_true _ _) hexec
  intro state t next _ htimer hturn
  obtain ⟨c, session, -, -, rfl⟩ := step_session hturn
  exact htimer

theorem Stopping.turn {server next : SerialPortControlServer} {t : Nat × SerialPortSession.Action}
    (h : server.Stopping) (hturn : server.turn t = some next) : next.Stopping := by
  have hlast : StopIsLast server (.session t.1 t.2) := trivial
  exact h.step hlast hturn

theorem exec_turn_stopping {server final : SerialPortControlServer}
    {turns : List (Nat × SerialPortSession.Action)} (h : server.Stopping)
    (hexec : Transition.exec turn server turns = some final) : final.Stopping :=
  Transition.exec_invariant Stopping (fun _ _ _ _ h hturn => h.turn hturn) h
    (Transition.meets_true _ _) hexec

theorem Stopping.shutDown {server : SerialPortControlServer} (h : server.Stopping)
    (hgone : server.timer.present = false) (hdrained : server.Drained) : server.ShutDown where
  closed := fun c hc => ((h.closing hgone c hc).drained (hdrained c hc)).1
  stopped := fun c hc => ((h.closing hgone c hc).drained (hdrained c hc)).2

/-- When no caller adds to it, the executor finishes what it has, in whatever order, after
a number of turns that is known when it starts. If `stop` was the last thing that
concerns the ports, every device is stopped and released then. -/
theorem stop_completes {config : Config} {actions : List Action}
    {server final : SerialPortControlServer}
    (hexec : Transition.exec step (init config) actions = some server)
    (htimer : ¬server.timer.Faulted) {turns : List (Nat × SerialPortSession.Action)}
    (hturns : Transition.exec turn server turns = some final) :
    turns.length + final.remaining = server.remaining ∧
      ((∀ t, final.turn t = none) ↔ final.remaining = 0) ∧
      (.stop ∈ actions → Transition.Meets step StopIsLast (init config) actions →
        final.remaining = 0 → final.ShutDown) := by
  have hsame := exec_turn_timer hturns
  refine ⟨?_, turn_eq_none_iff (by rwa [hsame]), ?_⟩
  · exact Transition.length_add_eq_of_exec remaining (fun _ _ _ => step_remaining) hturns
  · intro hstop hlast hremaining
    have hstopping : server.Stopping :=
      Transition.exec_invariant Stopping (fun _ _ _ hok h hnext => h.step hok hnext)
        (stopping_init config) hlast hexec
    have hgone : final.timer.present = false := by
      rw [hsame, exec_present hexec]
      simp [hstop]
    exact (exec_turn_stopping hstopping hturns).shutDown hgone (drained_of_remaining hremaining)

/-- `stop` comes while a command is being written, and queues the closing handler. -/
def stopWithWork : List Action :=
  [.start, .found (some [⟨text "(COM3)", text "COM3"⟩]), .request (rawRequest (text "COM3") 1 50),
    .session 0 (.handler 0 []), .request (rawRequest (text "COM3") 1 50), .stop]

theorem stop_completes_stopWithWork :
    ∃ server final, Transition.exec step (init {}) stopWithWork = some server ∧
      Transition.exec turn server [(0, .complete 0 .success), (0, .handler 0 [])] = some final ∧
      server.remaining = 2 ∧ final.ShutDown := by
  obtain ⟨server, hexec, htimer, hremaining, hturns⟩ :
      ∃ server, Transition.exec step (init {}) stopWithWork = some server ∧
        ¬server.timer.Faulted ∧ server.remaining = 2 ∧
        (Transition.exec turn server [(0, .complete 0 .success), (0, .handler 0 [])]).isSome :=
    Transition.exists_exec (by decide +kernel)
  obtain ⟨final, hfinal⟩ := Option.isSome_iff_exists.mp hturns
  obtain ⟨hcount, -, hshut⟩ := stop_completes hexec htimer hfinal
  refine ⟨server, final, hexec, hfinal, hremaining, hshut (by decide) (by decide +kernel) ?_⟩
  simpa [hremaining] using hcount

end SerialPortControlServer

end Vorze
