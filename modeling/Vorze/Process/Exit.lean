import Vorze.Process.End

/-! # What the process leaves behind

The process ends half a second after the signal, whether or not the executor of the
sessions has finished by then. A device is stopped and released by the time its own
handlers have run, whatever the connections and the other devices were doing. The
process gets that far unless the refresh timer had expired when the signal came.
-/

namespace Vorze

open Transition SerialPortSession

namespace Process

variable {startup : Startup} {config : Config} {start process : Process} {actions : List Action}

/-- What a step of the process is for the serial ports' server. -/
def serialLabels (process : Process) (action : Action) : List SerialPortControlServer.Action :=
  (process.webLabels action).flatMap process.web.serialLabels

theorem Change.serial_exec {action : Action} {next : Process} (h : process.Change action next) :
    exec SerialPortControlServer.step process.web.serialPortControlServer
      (process.serialLabels action) = some next.web.serialPortControlServer := by
  cases h with
  | tick | embed | signalDone | delayExpires | delayHandler => rfl
  | web hmain hweb hclock =>
      rw [serialLabels, webLabels, List.flatMap_singleton]
      exact WebControlServer.step_serial hweb
  | signalFailed hended =>
      rw [serialLabels, webLabels, if_neg (by simp [hended])]
      rfl
  | stops hended hweb hclock =>
      rw [serialLabels, webLabels, if_pos hended, List.flatMap_singleton]
      exact WebControlServer.step_serial hweb

/-- What only `main` calls is not called by the control server. -/
theorem notMem_serialLabels {web : WebControlServer} {action : WebControlServer.Action}
    (hmain : isMainCall action = false) :
    .start ∉ web.serialLabels action ∧ .stop ∉ web.serialLabels action := by
  cases action with
  | acceptDone ec | acceptHandler index | session id input =>
      exact ⟨List.not_mem_nil, List.not_mem_nil⟩
  | answer id index => simp [WebControlServer.serialLabels]
  | serial action =>
      simp only [WebControlServer.serialLabels, List.mem_singleton]
      constructor <;>
      · rintro rfl
        cases hmain

theorem Change.start_notMem {action : Action} {next : Process} (h : process.Change action next) :
    .start ∉ process.serialLabels action := by
  cases h with
  | tick | embed | signalDone | delayExpires | delayHandler => exact List.not_mem_nil
  | web hmain hweb hclock =>
      rw [serialLabels, webLabels, List.flatMap_singleton]
      exact (notMem_serialLabels hmain).1
  | signalFailed hended => simp [serialLabels, webLabels, hended]
  | stops hended hweb hclock =>
      simp [serialLabels, webLabels, hended, WebControlServer.serialLabels]

/-! ## The timer tells whether the signal came -/

/-- Only `main` resets the pointer to the timer, after a signal. -/
def Armed (process : Process) : Prop :=
  process.web.serialPortControlServer.timer.present = decide (process.stops = [])

theorem Armed.step {action : Action} {next : Process} (h : process.Armed)
    (hchange : process.Change action next) : next.Armed := by
  have hpresent := SerialPortControlServer.exec_present hchange.serial_exec
  cases hchange with
  | tick | embed | signalDone | signalFailed | delayExpires | delayHandler => exact h
  | web hmain hweb hclock =>
      rw [serialLabels, webLabels, List.flatMap_singleton,
        decide_eq_true (notMem_serialLabels hmain).2, Bool.true_and] at hpresent
      exact hpresent.trans h
  | stops hended hweb hclock =>
      rw [serialLabels, webLabels, if_pos hended, List.flatMap_singleton] at hpresent
      simpa [Armed, WebControlServer.serialLabels] using hpresent

theorem armed_of_exec (hmain : main startup config = some start)
    (hexec : exec step start actions = some process) : process.Armed := by
  refine exec_invariant Armed (fun _ _ _ (_ : True) h hstep => h.step (step_change hstep).2) ?_
    (meets_true start actions) hexec
  rw [main_eq_some hmain]
  rfl

/-! ## The devices at the end -/

/-- The signal finds no `init` queued, and no request that is processed after it gets
a session created. -/
def LeavesPorts (process : Process) (action : Action) : Prop :=
  Meets SerialPortControlServer.step SerialPortControlServer.StopIsLast
    process.web.serialPortControlServer (process.serialLabels action)

instance (process : Process) (action : Action) : Decidable (process.LeavesPorts action) :=
  inferInstanceAs (Decidable (Meets _ _ _ _))

theorem stopping_of_exec (hmain : main startup config = some start)
    (hexec : exec step start actions = some process)
    (hleaves : Meets step LeavesPorts start actions) :
    process.web.serialPortControlServer.Stopping := by
  refine exec_invariant (fun process => process.web.serialPortControlServer.Stopping) ?_ ?_
    hleaves hexec
  · intro process action next hok h hstep
    exact exec_invariant SerialPortControlServer.Stopping
      (fun _ _ _ hlast h hnext => h.step hlast hnext) h hok (step_change hstep).2.serial_exec
  · rw [main_eq_some hmain]
    have hstart : (SerialPortControlServer.init config).step .start =
      some (SerialPortControlServer.init config).start := rfl
    have hlast : (SerialPortControlServer.init config).StopIsLast .start := trivial
    exact (SerialPortControlServer.stopping_init config).step hlast hstart

/-- The port is closed, and if it was open then the stop frame was the last that was
sent to it. -/
def LeftStopped (session : SerialPortSession) : Prop :=
  session.isOpen = false ∧ ∀ device, .opened device ∈ session.log →
    ∃ before, session.log = before ++ [.closed] ∧ (writesStarted before).getLast? = some (frame 0)

/-- When the process ends, every device whose handlers have run is stopped and released. -/
theorem ends_stopped (hmain : main startup config = some start)
    (hexec : exec step start actions = some process)
    (hleaves : Meets step LeavesPorts start actions) (hend : process.running = false) :
    ∀ c ∈ process.web.serialPortControlServer.created, c.session.handlers = [] →
      LeftStopped c.session := by
  intro c hc hdrained
  obtain ⟨stage, hstage⟩ := (sound_of_exec hmain hexec).stage
  have hexited := hstage.running.symm.trans hend
  have hstops : process.stops ≠ [] := by
    rw [hstage.stops]
    cases stage with
    | exited since exit => exact List.cons_ne_nil _ _
    | serving | waiting since | due since => cases hexited
  have hgone : process.web.serialPortControlServer.timer.present = false :=
    (armed_of_exec hmain hexec).trans (decide_eq_false hstops)
  exact ((stopping_of_exec hmain hexec hleaves).closing hgone c hc).drained hdrained

/-- Two connections send requests: the first opens the port, the second is a command.
The signal comes while it is written. -/
def interruptedCommand : List Action :=
  let request := SerialPortControlServer.rawRequest (text "COM3") 1 50
  [.web (.serial (.found (some [⟨text "(COM3)", text "COM3"⟩]))), .web (.acceptDone none),
    .web (.acceptHandler 0), .web (.acceptDone none), .web (.acceptHandler 0),
    .web (.session 0 (.readDone (some request))), .web (.answer 0 0),
    .web (.serial (.session 0 (.handler 0 []))), .web (.session 1 (.readDone (some request))),
    .web (.answer 1 0), .signalDone false, .signalHandler,
    .web (.serial (.session 0 (.complete 0 .success))),
    .web (.serial (.session 0 (.handler 0 []))), .tick 500, .delayExpires 0, .delayHandler]

theorem ends_stopped_interruptedCommand :
    ∃ start process, main plainStartup {} = some start ∧
      exec step start interruptedCommand = some process ∧
      ∃ c ∈ process.web.serialPortControlServer.created,
        .opened (text "COM3") ∈ c.session.log ∧ LeftStopped c.session := by
  obtain ⟨start, process, hmain, hexec, hend, c, hc, hopened, hdrained⟩ :
      ∃ start process, main plainStartup {} = some start ∧
        exec step start interruptedCommand = some process ∧ process.running = false ∧
        ∃ c ∈ process.web.serialPortControlServer.created,
          .opened (text "COM3") ∈ c.session.log ∧ c.session.handlers = [] :=
    exists_run (by decide +kernel)
  have hleaves : Meets step LeavesPorts start interruptedCommand := by
    rw [main_eq_some hmain]
    decide +kernel
  exact ⟨start, process, hmain, hexec, c, hc, hopened,
    ends_stopped hmain hexec hleaves hend c hc hdrained⟩

/-! ## Getting there -/

/-- The pointer was reset and no handler is left that would use it. -/
def Settled (timer : RefreshTimer) : Prop :=
  timer.present = false ∧ .success ∉ timer.queued ∧ ¬timer.Faulted

theorem settled_timer {timer next : RefreshTimer} {action : RefreshTimer.Action}
    (hstart : action ≠ .start) (h : Settled timer) (hstep : timer.step action = some next) :
    Settled next := by
  obtain ⟨hgone, hnone, hfault⟩ := h
  unfold RefreshTimer.step at hstep
  rw [if_neg hfault] at hstep
  cases action with
  | start => exact absurd rfl hstart
  | expire =>
      obtain ⟨⟨hpresent, -⟩, -⟩ := Option.ite_none_right_eq_some.mp hstep
      exact absurd hpresent (by simp [hgone])
  | handler index =>
      obtain ⟨result, hresult, rfl⟩ := Option.map_eq_some_iff.mp hstep
      cases result with
      | success => exact absurd (List.mem_of_getElem? hresult) hnone
      | aborted => exact ⟨hgone, fun hmem => hnone (List.mem_of_mem_eraseIdx hmem), hfault⟩
  | stop =>
      obtain rfl := Option.some.inj hstep
      simpa [RefreshTimer.stop, hgone, Settled, RefreshTimer.Faulted] using ⟨hnone, hfault⟩

theorem settled_serial {server next : SerialPortControlServer}
    {action : SerialPortControlServer.Action} (hstart : action ≠ .start)
    (h : Settled server.timer) (hstep : server.step action = some next) : Settled next.timer := by
  have htimer := SerialPortControlServer.step_timer hstep
  cases action with
  | start => exact absurd rfl hstart
  | stop | timerExpires | timerHandler index => exact settled_timer (by simp) h htimer
  | found ports | request request | session id action =>
      obtain ⟨finds, heq⟩ := htimer
      rw [heq]
      exact h

theorem Change.settled {action : Action} {next : Process} (hchange : process.Change action next)
    (h : Settled process.web.serialPortControlServer.timer) :
    Settled next.web.serialPortControlServer.timer := by
  have hlabels : ∀ label ∈ process.serialLabels action, label ≠ .start := by
    rintro label hlabel rfl
    exact hchange.start_notMem hlabel
  exact exec_invariant (fun server => Settled server.timer)
    (fun _ _ _ hstart h hstep => settled_serial hstart h hstep) h
    (meets_of_forall_mem hlabels _) hchange.serial_exec

/-- The handler of a wait that succeeded uses the pointer that `stop` has reset. -/
theorem step_faults (hlive : process.Live)
    (htimer : process.clock.timer = process.web.serialPortControlServer.timer)
    (hgone : process.web.serialPortControlServer.timer.present = false)
    (hqueued : .success ∈ process.web.serialPortControlServer.timer.queued) :
    ∃ action next, process.step action = some next ∧
      next.web.serialPortControlServer.timer.Faulted := by
  obtain ⟨index, hindex⟩ := List.getElem?_of_mem hqueued
  have hserial : ∃ serial, process.web.serialPortControlServer.step (.timerHandler index) =
      some serial ∧ serial.timer.Faulted := by
    simp only [SerialPortControlServer.step, if_neg hlive.2, RefreshTimer.step, hindex,
      Option.map_some]
    refine ⟨_, rfl, ?_⟩
    simp [RefreshTimer.handler, hgone, RefreshTimer.Faulted]
  obtain ⟨serial, hserial, hfaulted⟩ := hserial
  have hclock : ∃ clock, exec RefreshClock.step process.clock
      (timerLabels (.serial (.timerHandler index))) = some clock := by
    rw [show timerLabels (.serial (.timerHandler index)) = [.timer (.handler index)] from rfl,
      exec_singleton, RefreshClock.step, htimer, if_neg hlive.2]
    simp only [hindex, Option.map_some]
    exact ⟨_, rfl⟩
  obtain ⟨clock, hclock⟩ := hclock
  refine ⟨.web (.serial (.timerHandler index)), { process with
    web := { process.web with serialPortControlServer := serial }
    clock := clock }, ?_, hfaulted⟩
  rw [step, if_neg hlive.step_eq]
  simp [isMainCall, stepWeb, WebControlServer.step, WebControlServer.isRequest, hlive.2, hserial,
    hclock]

/-- After the signal the process may still crash, exactly as long as the handler of a
wait that succeeded is queued: in no other case does any order of steps lead there. -/
theorem can_fault_iff (hmain : main startup config = some start)
    (hexec : exec step start actions = some process) (hstops : process.stops ≠ [])
    (hlive : process.Live) :
    (∃ rest final, exec step process rest = some final ∧
        final.web.serialPortControlServer.timer.Faulted) ↔
      .success ∈ process.web.serialPortControlServer.timer.queued := by
  have hgone : process.web.serialPortControlServer.timer.present = false :=
    (armed_of_exec hmain hexec).trans (decide_eq_false hstops)
  constructor
  · rintro ⟨rest, final, hrest, hfaulted⟩
    by_contra hnone
    have hsettled : Settled final.web.serialPortControlServer.timer :=
      exec_invariant (fun process => Settled process.web.serialPortControlServer.timer)
        (fun _ _ _ (_ : True) h hstep => (step_change hstep).2.settled h) ⟨hgone, hnone, hlive.2⟩
        (meets_true process rest) hrest
    exact hsettled.2.2 hfaulted
  · intro hqueued
    obtain ⟨action, next, hstep, hfaulted⟩ :=
      step_faults hlive (sound_of_exec hmain hexec).timer hgone hqueued
    exact ⟨[action], next, (exec_singleton _ _).trans hstep, hfaulted⟩

/-- The signal comes between the expiry and its handler. -/
def interruptedRefresh : List Action :=
  [.tick 5000, .web (.serial .timerExpires), .signalDone false, .signalHandler]

theorem can_fault_iff_interruptedRefresh :
    ∃ start process, main plainStartup {} = some start ∧
      exec step start interruptedRefresh = some process ∧
      ∃ rest final, exec step process rest = some final ∧
        final.web.serialPortControlServer.timer.Faulted := by
  obtain ⟨start, process, hmain, hexec, hstops, hrunning, htimer, hqueued⟩ :
      ∃ start process, main plainStartup {} = some start ∧
        exec step start interruptedRefresh = some process ∧ process.stops ≠ [] ∧
        process.running = true ∧ ¬process.web.serialPortControlServer.timer.Faulted ∧
        .success ∈ process.web.serialPortControlServer.timer.queued :=
    exists_run (by decide)
  exact ⟨start, process, hmain, hexec,
    (can_fault_iff hmain hexec hstops ⟨hrunning, htimer⟩).mpr hqueued⟩

end Process

end Vorze
