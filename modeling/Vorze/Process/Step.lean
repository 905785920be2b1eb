import Vorze.EmbedWeb.Backend
import Vorze.EmbedWeb.Serving
import Vorze.Serial.RefreshClock
import Vorze.System.Drain
import Vorze.Web.Server

/-! # The process

`main` sets the servers up and lets them run on one `io_context`. A signal stops the
serial ports' server, and half a second later the `io_context` is stopped. Times are
in milliseconds since the start.
-/

namespace Vorze

open Transition

/-- What `main` gets from the operating system while it sets the servers up. -/
structure Startup where
  addressValid : Bytes → Bool
  webListens : Bool
  setup : EmbedWeb.Setup

/-- Where the wait for a signal is. -/
inductive SignalWait
  | waiting
  | ended (failed : Bool)
  | handled
  deriving DecidableEq, Repr

/-- `delays` has the expiries of the timers of `asyncDelay`, and `delaysDone` counts
their handlers that are queued. `stops` and `exits` have the times at which the serial
ports' server and the `io_context` were stopped. -/
structure Process where
  config : Config
  web : WebControlServer
  clock : RefreshClock
  embedWebServer : Option EmbedWeb.EmbedWebServer
  signal : SignalWait := .waiting
  delays : List Nat := []
  delaysDone : Nat := 0
  running : Bool := true
  stops : List Nat := []
  exits : List Nat := []
  deriving DecidableEq, Repr

namespace Process

/-- `main` up to the first handler; it ends at once when an exception is thrown. -/
def main (startup : Startup) (config : Config) : Option Process :=
  let web := WebControlServer.start config
  let process : Process :=
    { config := config
      web := { web with serialPortControlServer := web.serialPortControlServer.start }
      clock := RefreshClock.flushPortInfo {}
      embedWebServer := none }
  if startup.addressValid config.controlServerHost && startup.webListens then
    if config.embedWebServerConfig.enable then
      if startup.addressValid config.embedWebServerConfig.host then
        some { process with embedWebServer := some (.start startup.setup) }
      else none
    else some process
  else none

inductive Action
  | tick (delay : Nat)
  | web (action : WebControlServer.Action)
  | embed (action : EmbedWeb.EmbedWebServer.Action)
  | signalDone (failed : Bool)
  | signalHandler
  | delayExpires (index : Nat)
  | delayHandler

/-- The calls that only `main` makes. -/
def isMainCall : WebControlServer.Action → Bool
  | .serial .start | .serial .stop => true
  | _ => false

/-- What a step of the control server is for the refresh timer. -/
def timerLabels : WebControlServer.Action → List RefreshClock.Action
  | .serial (.found _) => [.answered]
  | .serial action => action.timer.toList.map .timer
  | _ => []

/-- A step of the control server, in which the timer keeps to the time. -/
def stepWeb (process : Process) (action : WebControlServer.Action) : Option Process :=
  (process.web.step action).bind fun web =>
    (exec RefreshClock.step process.clock (timerLabels action)).map fun clock =>
      { process with web := web, clock := clock }

/-- The timer is kept by its handler and nothing cancels it. -/
def asyncDelay (process : Process) (delayTimeMs : Nat) : Process :=
  { process with delays := process.delays ++ [process.clock.now + delayTimeMs] }

/-- The handler of `sig.async_wait`, which is not waited on again. -/
def onSignal (process : Process) (failed : Bool) : Option Process :=
  let process := { process with signal := .handled }
  if failed then some process
  else
    (process.stepWeb (.serial .stop)).map fun process =>
      { process with stops := process.stops ++ [process.clock.now] }.asyncDelay 500

/-- The callback that is given to `asyncDelay`. -/
def stop (process : Process) : Process :=
  { process with running := false, exits := process.exits ++ [process.clock.now] }

/-- One step. A stopped `io_context` runs nothing, and so does a process that used the
null timer pointer. -/
def step (process : Process) (action : Action) : Option Process :=
  if process.running = false ∨ process.web.serialPortControlServer.timer.Faulted then none
  else
    match action with
    | .tick delay =>
        (process.clock.step (.tick delay)).map fun clock => { process with clock := clock }
    | .web action => if isMainCall action then none else process.stepWeb action
    | .embed action =>
        process.embedWebServer.bind fun server =>
          (server.step (EmbedWeb.sessionConfigOf process.config.embedWebServerConfig) action).map
            fun next => { process with embedWebServer := some next }
    | .signalDone failed =>
        if process.signal = .waiting then some { process with signal := .ended failed } else none
    | .signalHandler =>
        match process.signal with
        | .ended failed => process.onSignal failed
        | .waiting | .handled => none
    | .delayExpires index =>
        (process.delays[index]?).bind fun expiry =>
          if expiry ≤ process.clock.now then
            some { process with delays := process.delays.eraseIdx index,
                                delaysDone := process.delaysDone + 1 }
          else none
    | .delayHandler =>
        if 0 < process.delaysDone then
          some { process with delaysDone := process.delaysDone - 1 }.stop
        else none

/-! ## The timer and the time -/

theorem processRequest_timer (server : SerialPortControlServer)
    (request : Request) :
    (HttpConnectSession.processRequest server request).2.timer = server.timer := by
  rcases SerialPortControlServer.processRequest_cases server request with
    heq | ⟨comName, _, heq⟩ | ⟨command, id, _, _, _, heq⟩ <;>
  simp only [heq, SerialPortControlServer.onSession]

/-- The labels say all that an action of the serial ports' server does to its timer. -/
theorem timer_of_serial {server next : SerialPortControlServer}
    {action : SerialPortControlServer.Action} {clock after : RefreshClock}
    (hsame : clock.timer = server.timer) (hstep : server.step action = some next)
    (hclock : exec RefreshClock.step clock (timerLabels (.serial action)) = some after) :
    after.timer = next.timer := by
  have htimer := SerialPortControlServer.step_timer hstep
  cases action with
  | start | stop | timerExpires | timerHandler index =>
      have hown := RefreshClock.step_timer ((exec_singleton _ _).symm.trans hclock)
      rw [hsame] at hown
      exact Option.some.inj (hown.symm.trans htimer)
  | found ports =>
      obtain rfl := Option.some.inj ((exec_singleton _ _).symm.trans hclock)
      unfold SerialPortControlServer.step at hstep
      split at hstep
      next => cases hstep
      next =>
        obtain ⟨-, hnext⟩ := Option.ite_none_right_eq_some.mp hstep
        obtain rfl := Option.some.inj hnext
        rw [hsame]
        rfl
  | request request =>
      obtain rfl := Option.some.inj hclock
      unfold SerialPortControlServer.step at hstep
      split at hstep
      next => cases hstep
      next =>
        obtain rfl := Option.some.inj hstep
        rw [hsame, processRequest_timer]
  | session id action =>
      obtain rfl := Option.some.inj hclock
      obtain ⟨c, session, -, -, rfl⟩ := SerialPortControlServer.step_session hstep
      exact hsame

theorem timer_of_web {web next : WebControlServer} {action : WebControlServer.Action}
    {clock after : RefreshClock} (hsame : clock.timer = web.serialPortControlServer.timer)
    (hstep : web.step action = some next)
    (hclock : exec RefreshClock.step clock (timerLabels action) = some after) :
    after.timer = next.serialPortControlServer.timer := by
  have hserial := WebControlServer.step_serial hstep
  cases action with
  | acceptDone ec | acceptHandler index | session id input =>
      obtain rfl := Option.some.inj hclock
      rw [hsame, Option.some.inj hserial]
  | answer id index =>
      cases hrequest : web.requestOf id index with
      | none =>
          rw [WebControlServer.serialLabels, hrequest] at hserial
          obtain rfl := Option.some.inj hclock
          rw [hsame, Option.some.inj hserial]
      | some request =>
          rw [WebControlServer.serialLabels, hrequest] at hserial
          exact timer_of_serial hsame ((exec_singleton _ _).symm.trans hserial) hclock
  | serial action =>
      exact timer_of_serial hsame ((exec_singleton _ _).symm.trans hserial) hclock

/-- Only `start` starts the timer. -/
theorem start_notMem_timerLabels {action : WebControlServer.Action}
    (hmain : action ≠ .serial .start) : .timer .start ∉ timerLabels action := by
  cases action with
  | acceptDone ec | acceptHandler index | session id input | answer id index =>
      exact List.not_mem_nil
  | serial action =>
      cases action <;> simp_all [timerLabels, SerialPortControlServer.Action.timer]

theorem onSchedule_of_web {action : WebControlServer.Action} {clock after : RefreshClock}
    (hmain : action ≠ .serial .start) (h : clock.OnSchedule)
    (hclock : exec RefreshClock.step clock (timerLabels action) = some after) :
    after.OnSchedule := by
  have hnone : ∀ label ∈ timerLabels action, label ≠ .timer .start := by
    rintro label hlabel rfl
    exact start_notMem_timerLabels hmain hlabel
  refine exec_invariant RefreshClock.OnSchedule ?_ h (meets_of_forall_mem hnone clock) hclock
  intro clock label next hlabel h hstep
  exact h.step (fun hstart => absurd hstart hlabel) hstep

/-! ## What a step does -/

/-- The ways a step can change the process. -/
inductive Change (process : Process) : Action → Process → Prop
  | tick {delay : Nat} {clock : RefreshClock}
      (hclock : process.clock.step (.tick delay) = some clock) :
      Change process (.tick delay) { process with clock := clock }
  | web {action : WebControlServer.Action} {web : WebControlServer} {clock : RefreshClock}
      (hmain : isMainCall action = false) (hweb : process.web.step action = some web)
      (hclock : exec RefreshClock.step process.clock (timerLabels action) = some clock) :
      Change process (.web action) { process with web := web, clock := clock }
  | embed {action : EmbedWeb.EmbedWebServer.Action} {server next : EmbedWeb.EmbedWebServer}
      (hserver : process.embedWebServer = some server)
      (hstep : server.step (EmbedWeb.sessionConfigOf process.config.embedWebServerConfig) action =
        some next) :
      Change process (.embed action) { process with embedWebServer := some next }
  | signalDone {failed : Bool} (hwaiting : process.signal = .waiting) :
      Change process (.signalDone failed) { process with signal := .ended failed }
  | signalFailed (hended : process.signal = .ended true) :
      Change process .signalHandler { process with signal := .handled }
  | stops {web : WebControlServer} {clock : RefreshClock} (hended : process.signal = .ended false)
      (hweb : process.web.step (.serial .stop) = some web)
      (hclock : exec RefreshClock.step process.clock (timerLabels (.serial .stop)) = some clock) :
      Change process .signalHandler
        { process with
          web := web
          clock := clock
          signal := .handled
          delays := process.delays ++ [clock.now + 500]
          stops := process.stops ++ [clock.now] }
  | delayExpires {index expiry : Nat} (hget : process.delays[index]? = some expiry)
      (hdue : expiry ≤ process.clock.now) :
      Change process (.delayExpires index)
        { process with
          delays := process.delays.eraseIdx index
          delaysDone := process.delaysDone + 1 }
  | delayHandler (hdone : 0 < process.delaysDone) :
      Change process .delayHandler
        { process with
          delaysDone := process.delaysDone - 1
          running := false
          exits := process.exits ++ [process.clock.now] }

theorem stepWeb_eq_some {process next : Process} {action : WebControlServer.Action}
    (hstep : process.stepWeb action = some next) :
    ∃ web clock, process.web.step action = some web ∧
      exec RefreshClock.step process.clock (timerLabels action) = some clock ∧
      next = { process with web := web, clock := clock } := by
  obtain ⟨web, hweb, hstep⟩ := Option.bind_eq_some_iff.mp hstep
  obtain ⟨clock, hclock, rfl⟩ := Option.map_eq_some_iff.mp hstep
  exact ⟨web, clock, hweb, hclock, rfl⟩

theorem step_change {process next : Process} {action : Action}
    (hstep : process.step action = some next) :
    process.running = true ∧ process.Change action next := by
  unfold step at hstep
  split at hstep
  next => cases hstep
  next hlive =>
    refine ⟨by simpa using (not_or.mp hlive).1, ?_⟩
    cases action with
    | tick delay =>
        obtain ⟨clock, hclock, rfl⟩ := Option.map_eq_some_iff.mp hstep
        exact .tick hclock
    | web action =>
        obtain ⟨hmain, hstep⟩ := Option.ite_none_left_eq_some.mp hstep
        obtain ⟨web, clock, hweb, hclock, rfl⟩ := stepWeb_eq_some hstep
        exact .web (Bool.eq_false_iff.mpr hmain) hweb hclock
    | embed action =>
        obtain ⟨server, hserver, hstep⟩ := Option.bind_eq_some_iff.mp hstep
        obtain ⟨next, hnext, rfl⟩ := Option.map_eq_some_iff.mp hstep
        exact .embed hserver hnext
    | signalDone failed =>
        obtain ⟨hwaiting, hnext⟩ := Option.ite_none_right_eq_some.mp hstep
        obtain rfl := Option.some.inj hnext
        exact .signalDone hwaiting
    | signalHandler =>
        cases hsignal : process.signal with
        | waiting | handled => simp [hsignal] at hstep
        | ended failed =>
            simp only [hsignal] at hstep
            cases failed with
            | true =>
                obtain rfl := Option.some.inj hstep
                exact .signalFailed hsignal
            | false =>
                obtain ⟨after, hafter, rfl⟩ := Option.map_eq_some_iff.mp hstep
                obtain ⟨web, clock, hweb, hclock, rfl⟩ := stepWeb_eq_some hafter
                exact .stops hsignal hweb hclock
    | delayExpires index =>
        obtain ⟨expiry, hget, hstep⟩ := Option.bind_eq_some_iff.mp hstep
        obtain ⟨hdue, hnext⟩ := Option.ite_none_right_eq_some.mp hstep
        obtain rfl := Option.some.inj hnext
        exact .delayExpires hget hdue
    | delayHandler =>
        obtain ⟨hdone, hnext⟩ := Option.ite_none_right_eq_some.mp hstep
        obtain rfl := Option.some.inj hnext
        exact .delayHandler hdone

/-- `main` and the handlers after it can be evaluated. -/
theorem exists_run {p : Process → Prop} [DecidablePred p] {startup : Startup} {config : Config}
    {actions : List Action}
    (hrun : ((main startup config).bind fun start => exec step start actions).any
      (fun process => decide (p process)) = true) :
    ∃ start process, main startup config = some start ∧ exec step start actions = some process ∧
      p process := by
  obtain ⟨process, hprocess, hp⟩ := (Option.any_eq_true _ _).mp hrun
  obtain ⟨start, hmain, hexec⟩ := Option.bind_eq_some_iff.mp hprocess
  exact ⟨start, process, hmain, hexec, of_decide_eq_true hp⟩

end Process

end Vorze
