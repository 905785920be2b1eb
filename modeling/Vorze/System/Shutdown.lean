import Vorze.System.Registry

/-! # What `stop` leaves behind

`stopAll` closes the ports that are open at that instant and forgets every
session. A session whose `init` is still queued is forgotten too, and it opens
its port afterwards; so does a session that a later request creates.
-/

namespace Vorze.SerialPortControlServer

open SerialPortSession

/-- Every port is closed, and each one that was opened was sent the stop frame
right before it was closed. -/
structure ShutDown (server : SerialPortControlServer) : Prop where
  closed : ∀ c ∈ server.created, c.session.isOpen = false
  stopped : ∀ c ∈ server.created, ∀ device, .opened device ∈ c.session.log →
    ∃ before, c.session.log = before ++ [.closed] ∧
      (writesStarted before).getLast? = some (frame 0)

/-- Every handler that was queued has run. -/
def Drained (server : SerialPortControlServer) : Prop :=
  ∀ c ∈ server.created, c.session.handlers = []

/-- `stop` finds no `init` queued, and no request after it gets a session created. -/
def StopIsLast (server : SerialPortControlServer) : Action → Prop
  | .stop => ∀ c ∈ server.created, c.session.initNames = []
  | .request request => server.timer.present = true ∨ server.createdName request = none
  | _ => True

instance (server : SerialPortControlServer) : Decidable server.Drained :=
  inferInstanceAs (Decidable (∀ c ∈ server.created, _))

instance (server : SerialPortControlServer) : ∀ action, Decidable (server.StopIsLast action)
  | .stop => inferInstanceAs (Decidable (∀ c ∈ server.created, _))
  | .request _ => inferInstanceAs (Decidable (_ ∨ _))
  | .start | .timerExpires | .timerHandler _ | .found _ | .session _ _ => .isTrue trivial

/-- A forgotten session on its way to being closed: its `init` has run, and if
that opened the port then a closing handler is queued. -/
def Closing (c : CreatedSession) : Prop :=
  c.registered = false ∧ ∃ phase, InPhase c.comName phase c.session ∧ phase ≠ .pending ∧
    (phase = .opened → c.session.handlers ≠ [])

/-- The pointer to the timer tells whether `stop` has run. Until then every
session is listed; from then on all of them are closing. -/
structure Stopping (server : SerialPortControlServer) : Prop where
  sound : server.Sound
  running : server.AllListed
  closing : server.timer.present = false → ∀ c ∈ server.created, Closing c

theorem stopping_init (config : Config) : (init config).Stopping where
  sound := Sound.init config
  running := fun _ c hc => by cases hc
  closing := by simp [init]

/-- Running a handler of a closing session closes it, and a completed write
leaves its handlers queued. -/
theorem Closing.step {c : CreatedSession} (h : Closing c) {action : SerialPortSession.Action}
    {session : SerialPortSession} (hstep : c.session.step action = some session) :
    Closing { c with session := session } := by
  obtain ⟨hforgotten, phase, hphase, hpending, hqueued⟩ := h
  refine ⟨hforgotten, ?_⟩
  cases action with
  | complete index ec =>
      obtain ⟨hnext, hhandlers⟩ := hphase.complete hstep
      exact ⟨phase, hnext, hpending, fun hopened => hhandlers ▸ hqueued hopened⟩
  | handler index answers =>
      rcases hphase.handler hstep with ⟨rfl, _⟩ | ⟨_, hnext⟩
      · exact absurd rfl hpending
      · exact ⟨.closed, hnext, by decide, by simp⟩

/-- `stop` starts closing every listed session that is open. -/
theorem Closing.stop {c : CreatedSession} (h : c.Sound) (hinit : c.session.initNames = [])
    (hclosing : c.registered = false → Closing c) : Closing (stopSession c) := by
  obtain ⟨phase, hphase, -⟩ := h
  unfold stopSession
  split
  next =>
    refine ⟨rfl, phase, hphase.close.1, ?_, hphase.close.2⟩
    intro hpending
    simp [hphase.initNames_eq, hpending] at hinit
  next hregistered => exact hclosing (by simpa using hregistered)

theorem Stopping.step {server next : SerialPortControlServer} {action : Action}
    (hok : server.StopIsLast action) (h : server.Stopping)
    (hstep : server.step action = some next) : next.Stopping := by
  refine ⟨h.sound.step hstep, h.running.step hstep, ?_⟩
  intro hnext
  have hchange := step_change hstep
  rw [step_present hstep] at hnext
  generalize next.created = created at hchange
  cases hchange with
  | keep hstop => exact h.closing (by simpa [hstop] using hnext)
  | create hcreates =>
      -- a new session is not closing, but no request after `stop` creates one
      have hgone : server.timer.present = false := by simpa using hnext
      rcases hok with hok | hok
      · rw [hgone] at hok
        cases hok
      · rw [hok] at hcreates
        cases hcreates
  | command hget =>
      -- no session is listed any more, so `get` finds none
      obtain ⟨c, hc, hregistered, -⟩ := get_eq_some hget
      have hforgotten := (h.closing (by simpa using hnext) c (List.mem_of_getElem? hc)).1
      rw [hregistered] at hforgotten
      cases hforgotten
  | session hget hsession =>
      have hclosing := h.closing (by simpa using hnext)
      apply forall_mem_modify hclosing
      intro c hc
      obtain rfl := Option.some.inj (hget.symm.trans hc)
      exact (hclosing _ (List.mem_of_getElem? hc)).step hsession
  | stop =>
      intro c hc
      obtain ⟨old, hold, rfl⟩ := List.mem_map.mp hc
      apply Closing.stop (h.sound old hold) (hok old hold)
      intro hregistered
      have hgone : server.timer.present = false := by
        rcases hthere : server.timer.present with _ | _
        · rfl
        · rw [h.running hthere old hold] at hregistered
          cases hregistered
      exact h.closing hgone old hold

/-- A closing session whose handlers have all run is closed. -/
theorem Closing.drained {c : CreatedSession} (h : Closing c) (hdrained : c.session.handlers = []) :
    c.session.isOpen = false ∧ ∀ device, .opened device ∈ c.session.log →
      ∃ before, c.session.log = before ++ [.closed] ∧
        (writesStarted before).getLast? = some (frame 0) := by
  obtain ⟨-, phase, hphase, hpending, hqueued⟩ := h
  have hopened : phase ≠ .opened := fun heq => hqueued heq hdrained
  constructor
  · rw [Bool.eq_false_iff]
    exact fun hopen => hopened (hphase.isOpen_iff.mp hopen)
  · intro device hdevice
    cases phase with
    | pending => exact absurd rfl hpending
    | opened => exact absurd rfl hopened
    | failed =>
        rw [show c.session.log = [.openFailed c.comName] from hphase.events] at hdevice
        simp at hdevice
    | closed =>
        obtain ⟨frames, hlog⟩ := hphase.events
        refine ⟨.opened c.comName :: frames.map .writeStarted ++ [.writeStarted (frame 0)],
          by simp [hlog], ?_⟩
        rw [writesStarted_append]
        exact List.getLast?_concat

/-- Once `stop` is the last thing that concerns the ports, every device is stopped
and released when the queue has run empty. -/
theorem shutDown_of_stopIsLast {config : Config} {actions : List Action}
    {server : SerialPortControlServer}
    (hexec : Transition.exec step (init config) actions = some server)
    (hlast : Transition.Meets step StopIsLast (init config) actions)
    (hstop : .stop ∈ actions) (hdrained : server.Drained) : server.ShutDown := by
  have hstopping : server.Stopping :=
    Transition.exec_invariant Stopping (fun _ _ _ hok h hnext => h.step hok hnext)
      (stopping_init config) hlast hexec
  have hgone : server.timer.present = false := by
    rw [exec_present hexec]
    simp [hstop]
  exact
    { closed := fun c hc => ((hstopping.closing hgone c hc).drained (hdrained c hc)).1
      stopped := fun c hc => ((hstopping.closing hgone c hc).drained (hdrained c hc)).2 }

/-- A port is opened and sent a command, and then the server stops. -/
def stopAfterCommand : List Action :=
  [.start, .found (some [⟨text "(COM3)", text "COM3"⟩]), .request (rawRequest (text "COM3") 1 50),
    .session 0 (.handler 0 []), .request (rawRequest (text "COM3") 1 50), .stop,
    .session 0 (.handler 0 [])]

theorem shutDown_stopAfterCommand :
    ∃ server, Transition.exec step (init {}) stopAfterCommand = some server ∧
      server.ShutDown := by
  obtain ⟨server, hexec, hdrained⟩ :
      ∃ server, Transition.exec step (init {}) stopAfterCommand = some server ∧ server.Drained :=
    Transition.exists_exec (by decide +kernel)
  exact ⟨server, hexec, shutDown_of_stopIsLast hexec (by decide +kernel) (by decide) hdrained⟩

/-- `stop` comes while an `init` is queued, which then opens the port for good. -/
theorem not_shutDown_stop_before_init :
    ∃ server, Transition.exec step (init {}) [.start,
        .found (some [⟨text "(COM3)", text "COM3"⟩]), .request (rawRequest (text "COM3") 1 50),
        .stop, .session 0 (.handler 0 [])] = some server ∧
      server.Drained ∧ ¬server.ShutDown := by
  obtain ⟨server, hexec, hdrained, c, hc, hopen⟩ :
      ∃ server, Transition.exec step (init {}) [.start,
          .found (some [⟨text "(COM3)", text "COM3"⟩]), .request (rawRequest (text "COM3") 1 50),
          .stop, .session 0 (.handler 0 [])] = some server ∧
        server.Drained ∧ ∃ c ∈ server.created, c.session.isOpen = true :=
    Transition.exists_exec (by decide +kernel)
  refine ⟨server, hexec, hdrained, fun hshut => ?_⟩
  rw [hshut.closed c hc] at hopen
  cases hopen

end Vorze.SerialPortControlServer
