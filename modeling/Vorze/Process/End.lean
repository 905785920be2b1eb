import Vorze.Process.Step

/-! # Runs of the process

The serial ports' server is started once and stopped at most once. The process runs on
for half a second after that, and a signal can always end it. Until then the ports are
enumerated on schedule.
-/

namespace Vorze

open Transition

namespace Process

/-! ## The end of the process -/

/-- How far the end of the process has come. -/
inductive Stage
  | serving
  | waiting (since : Nat)
  | due (since : Nat)
  | exited (since exit : Nat)
  deriving DecidableEq, Repr

namespace Stage

def running : Stage → Bool
  | exited _ _ => false
  | _ => true

def stops : Stage → List Nat
  | serving => []
  | waiting since | due since | exited since _ => [since]

def delays : Stage → List Nat
  | waiting since => [since + 500]
  | _ => []

def delaysDone : Stage → Nat
  | due _ => 1
  | _ => 0

def exits : Stage → List Nat
  | exited _ exit => [exit]
  | _ => []

/-- What the stage says about the time. -/
def Late (now : Nat) : Stage → Prop
  | serving => True
  | waiting since => since ≤ now
  | due since => since + 500 ≤ now
  | exited since exit => since + 500 ≤ exit

theorem Late.mono {stage : Stage} {now later : Nat} (h : stage.Late now) (hle : now ≤ later) :
    stage.Late later := by
  cases stage with
  | serving => trivial
  | waiting since | due since => exact Nat.le_trans h hle
  | exited since exit => exact h

end Stage

structure InStage (stage : Stage) (process : Process) : Prop where
  running : process.running = stage.running
  stops : process.stops = stage.stops
  delays : process.delays = stage.delays
  delaysDone : process.delaysDone = stage.delaysDone
  exits : process.exits = stage.exits
  signal : stage = .serving ∨ process.signal = .handled
  late : stage.Late process.clock.now

theorem InStage.eq_serving {process : Process} {stage : Stage} (h : InStage stage process)
    (hsignal : process.signal ≠ .handled) : stage = .serving :=
  h.signal.resolve_right hsignal

theorem InStage.step {process next : Process} {action : Action} {stage : Stage}
    (h : InStage stage process) (hchange : process.Change action next)
    (hnow : process.clock.now ≤ next.clock.now) : ∃ stage, InStage stage next := by
  cases hchange with
  | tick | web | embed =>
      exact ⟨stage, h.running, h.stops, h.delays, h.delaysDone, h.exits, h.signal,
        h.late.mono hnow⟩
  | signalDone hwaiting =>
      have hserving := h.eq_serving (by simp [hwaiting])
      exact ⟨stage, h.running, h.stops, h.delays, h.delaysDone, h.exits, Or.inl hserving, h.late⟩
  | signalFailed hended =>
      exact ⟨stage, h.running, h.stops, h.delays, h.delaysDone, h.exits, Or.inr rfl, h.late⟩
  | @stops web clock hended hweb hclock =>
      obtain rfl := h.eq_serving (by simp [hended])
      refine ⟨.waiting clock.now, h.running, ?_, ?_, h.delaysDone, h.exits, Or.inr rfl,
        Nat.le_refl _⟩
      · dsimp only
        rw [h.stops]
        rfl
      · dsimp only
        rw [h.delays]
        rfl
  | delayExpires hget hdue =>
      have hdelays := h.delays
      rw [hdelays] at hget
      cases stage with
      | serving | due since | exited since exit => cases hget
      | waiting since =>
          obtain ⟨rfl, rfl⟩ := Slots.eq_of_getElem?_singleton hget
          refine ⟨.due since, h.running, h.stops, ?_, ?_, h.exits, Or.inr ?_, hdue⟩
          · dsimp only
            rw [hdelays]
            rfl
          · exact congrArg Nat.succ h.delaysDone
          · exact h.signal.resolve_left (by simp)
  | delayHandler hdone =>
      rw [h.delaysDone] at hdone
      cases stage with
      | serving | waiting since | exited since exit => cases hdone
      | due since =>
          refine ⟨.exited since process.clock.now, rfl, h.stops, h.delays, ?_, ?_, Or.inr ?_,
            h.late⟩
          · dsimp only
            rw [h.delaysDone]
            rfl
          · dsimp only
            rw [h.exits]
            rfl
          · exact h.signal.resolve_left (by simp)

/-! ## Runs of the process -/

/-- The clock and the control server agree on the timer, which keeps its schedule. -/
structure Sound (process : Process) : Prop where
  timer : process.clock.timer = process.web.serialPortControlServer.timer
  schedule : process.clock.OnSchedule
  stage : ∃ stage, InStage stage process

theorem now_le_of_labels {labels : List RefreshClock.Action} {clock after : RefreshClock}
    (hclock : exec RefreshClock.step clock labels = some after) : clock.now ≤ after.now :=
  exec_invariant (fun later => clock.now ≤ later.now)
    (fun _ _ _ (_ : True) hle hstep => hle.trans (RefreshClock.now_le_of_step hstep))
    (Nat.le_refl _) (meets_true clock labels) hclock

theorem Sound.step {process next : Process} {action : Action} (h : process.Sound)
    (hstep : process.step action = some next) : next.Sound := by
  obtain ⟨-, hchange⟩ := step_change hstep
  obtain ⟨stage, hstage⟩ := h.stage
  cases hchange with
  | tick hclock =>
      obtain rfl := Option.some.inj hclock
      exact ⟨h.timer, h.schedule.step (fun hstart => by cases hstart) hclock,
        hstage.step (.tick hclock) (Nat.le_add_right _ _)⟩
  | web hmain hweb hclock =>
      refine ⟨timer_of_web h.timer hweb hclock, ?_,
        hstage.step (.web hmain hweb hclock) (now_le_of_labels hclock)⟩
      apply onSchedule_of_web _ h.schedule hclock
      rintro rfl
      cases hmain
  | embed hserver hembed =>
      exact ⟨h.timer, h.schedule, hstage.step (.embed hserver hembed) (Nat.le_refl _)⟩
  | signalDone hwaiting =>
      exact ⟨h.timer, h.schedule, hstage.step (.signalDone hwaiting) (Nat.le_refl _)⟩
  | signalFailed hended =>
      exact ⟨h.timer, h.schedule, hstage.step (.signalFailed hended) (Nat.le_refl _)⟩
  | stops hended hweb hclock =>
      exact ⟨timer_of_web h.timer hweb hclock, onSchedule_of_web (by simp) h.schedule hclock,
        hstage.step (.stops hended hweb hclock) (now_le_of_labels hclock)⟩
  | delayExpires hget hdue =>
      exact ⟨h.timer, h.schedule, hstage.step (.delayExpires hget hdue) (Nat.le_refl _)⟩
  | delayHandler hdone =>
      exact ⟨h.timer, h.schedule, hstage.step (.delayHandler hdone) (Nat.le_refl _)⟩

/-- What `main` comes to before anything runs. -/
theorem main_eq_some {startup : Startup} {config : Config} {process : Process}
    (hmain : main startup config = some process) :
    process =
      { config := config
        web := { WebControlServer.start config with
          serialPortControlServer := (SerialPortControlServer.init config).start }
        clock := RefreshClock.flushPortInfo {}
        embedWebServer :=
          if config.embedWebServerConfig.enable then some (.start startup.setup) else none } := by
  unfold main at hmain
  split at hmain
  next =>
    split at hmain
    next henable =>
      obtain ⟨-, hprocess⟩ := Option.ite_none_right_eq_some.mp hmain
      rw [if_pos henable]
      exact (Option.some.inj hprocess).symm
    next hdisable =>
      rw [if_neg hdisable]
      exact (Option.some.inj hmain).symm
  next => cases hmain

theorem sound_main {startup : Startup} {config : Config} {process : Process}
    (hmain : main startup config = some process) : process.Sound := by
  rw [main_eq_some hmain]
  have hstart : RefreshClock.step {} (.timer .start) = some (RefreshClock.flushPortInfo {}) := rfl
  exact ⟨rfl, RefreshClock.onSchedule_init.step (fun _ => rfl) hstart, .serving, rfl, rfl, rfl,
    rfl, rfl, Or.inl rfl, trivial⟩

section Run

variable {startup : Startup} {config : Config} {start process : Process} {actions : List Action}

theorem sound_of_exec (hmain : main startup config = some start)
    (hexec : exec step start actions = some process) : process.Sound :=
  exec_invariant Sound (fun _ _ _ (_ : True) h hstep => h.step hstep) (sound_main hmain)
    (meets_true start actions) hexec

/-- However late the handlers of the timer run, no enumeration is asked for before its
time. When the timer has caught up there was one at the start and one for every five
seconds since. -/
theorem enumerates_on_schedule (hmain : main startup config = some start)
    (hexec : exec step start actions = some process) :
    (∀ i time, process.clock.flushes[i]? = some time →
        5000 * i ≤ time ∧ time ≤ process.clock.now) ∧
      process.web.serialPortControlServer.timer.log.count .flushed =
        process.clock.flushes.length ∧
      (0 < process.web.serialPortControlServer.timer.waits →
        process.clock.now < process.clock.expiry →
        process.clock.flushes.length = process.clock.now / 5000 + 1) := by
  have h := sound_of_exec hmain hexec
  rw [← h.timer]
  exact ⟨h.schedule.due, h.schedule.logged, h.schedule.length_flushes⟩

/-- Everything that `main` asks the operating system for succeeds. -/
def plainStartup : Startup where
  addressValid := fun _ => true
  webListens := true
  setup := {}

/-- The handler of the timer is late, so the third enumeration is as well. -/
def lateHandler : List Action :=
  [.web (.serial (.found none)), .tick 7000, .web (.serial .timerExpires),
    .web (.serial (.timerHandler 0)), .tick 4000, .web (.serial .timerExpires),
    .web (.serial (.timerHandler 0)), .tick 20]

theorem enumerates_on_schedule_lateHandler :
    ∃ start process, main plainStartup {} = some start ∧
      exec step start lateHandler = some process ∧ process.clock.flushes.length = 3 := by
  obtain ⟨start, process, hmain, hexec, hwaits, hexpiry, hnow⟩ :
      ∃ start process, main plainStartup {} = some start ∧
        exec step start lateHandler = some process ∧
        0 < process.web.serialPortControlServer.timer.waits ∧
        process.clock.now < process.clock.expiry ∧ process.clock.now = 11020 :=
    exists_run (by decide)
  refine ⟨start, process, hmain, hexec, ?_⟩
  rw [(enumerates_on_schedule hmain hexec).2.2 hwaits hexpiry, hnow]

/-! ## The control server in a run -/

/-- What a step of the process is for the control server. -/
def webLabels (process : Process) : Action → List WebControlServer.Action
  | .web action => [action]
  | .signalHandler => if process.signal = .ended false then [.serial .stop] else []
  | _ => []

theorem Change.web_exec {action : Action} {next : Process} (h : process.Change action next) :
    exec WebControlServer.step process.web (process.webLabels action) = some next.web := by
  cases h with
  | tick | embed | signalDone | delayExpires | delayHandler => rfl
  | web hmain hweb hclock => exact (exec_singleton _ _).trans hweb
  | signalFailed hended => simp [webLabels, hended]
  | stops hended hweb hclock =>
      rw [webLabels, if_pos hended]
      exact (exec_singleton _ _).trans hweb

/-- What a run of the process is for the control server, from its construction on. -/
def webActions (start : Process) (actions : List Action) : List WebControlServer.Action :=
  .serial .start :: trace step webLabels start actions

theorem exec_web (hmain : main startup config = some start)
    (hexec : exec step start actions = some process) :
    exec WebControlServer.step (.start config) (webActions start actions) = some process.web := by
  have hview := exec_view web (fun _ _ _ hstep => (step_change hstep).2.web_exec) hexec
  rw [webActions, exec]
  rw [main_eq_some hmain] at hview ⊢
  exact hview

/-- After `main` has started it, the control server is not started again, and is stopped
as often as `stops` says. -/
def Started (done : List WebControlServer.Action) (process : Process) : Prop :=
  .serial .start ∉ done ∧ done.count (.serial .stop) = process.stops.length

theorem ne_of_isMainCall {action : WebControlServer.Action} (h : isMainCall action = false) :
    action ≠ .serial .start ∧ action ≠ .serial .stop := by
  constructor <;>
  · rintro rfl
    cases h

theorem Started.step {done : List WebControlServer.Action} {action : Action} {next : Process}
    (h : Started done process) (hchange : process.Change action next) :
    Started (done ++ process.webLabels action) next := by
  obtain ⟨hstart, hstop⟩ := h
  cases hchange with
  | tick | embed | signalDone | delayExpires | delayHandler =>
      exact ⟨by simpa [webLabels] using hstart, by simpa [webLabels] using hstop⟩
  | signalFailed hended =>
      exact ⟨by simpa [webLabels, hended] using hstart, by simpa [webLabels, hended] using hstop⟩
  | web hmain hweb hclock =>
      obtain ⟨hnoStart, hnoStop⟩ := ne_of_isMainCall hmain
      constructor
      · simp [webLabels, hstart, hnoStart.symm]
      · simp [webLabels, hstop, hnoStop]
  | stops hended hweb hclock =>
      constructor
      · simp [webLabels, hended, hstart]
      · simp [webLabels, hended, hstop]

/-- A run of the process is a run of the control server in which the serial ports' server
is started once and first, and stopped by the signal, once at most. The `io_context` is
stopped after that, once, and not before half a second has gone by. -/
theorem stops_once (hmain : main startup config = some start)
    (hexec : exec step start actions = some process) :
    (∃ rest, exec WebControlServer.step (.start config) (.serial .start :: rest) =
          some process.web ∧
        .serial .start ∉ rest ∧ rest.count (.serial .stop) = process.stops.length) ∧
      process.stops.length ≤ 1 ∧ process.exits.length ≤ 1 ∧
      (∀ exit ∈ process.exits, ∃ stop ∈ process.stops, stop + 500 ≤ exit) ∧
      (process.running = false ↔ process.exits ≠ []) := by
  obtain ⟨stage, hstage⟩ := (sound_of_exec hmain hexec).stage
  have hstarted : Started [] start := by
    rw [main_eq_some hmain]
    exact ⟨List.not_mem_nil, rfl⟩
  obtain ⟨hstart, hstop⟩ := trace_invariant Started
    (fun _ _ _ _ h hstep => h.step (step_change hstep).2) hstarted hexec
  refine ⟨⟨_, exec_web hmain hexec, hstart, hstop⟩, ?_⟩
  have hlate := hstage.late
  rw [hstage.stops, hstage.exits, hstage.running]
  cases stage with
  | serving | waiting since | due since => simp [Stage.stops, Stage.exits, Stage.running]
  | exited since exit =>
      simp only [Stage.stops, Stage.exits, Stage.running, List.length_singleton,
        List.mem_singleton, exists_eq_left, forall_eq]
      exact ⟨Nat.le_refl 1, Nat.le_refl 1, hlate, by simp⟩

/-- A signal comes after the second enumeration, and the last handler is late. -/
def interrupted : List Action :=
  [.web (.serial (.found none)), .tick 5000, .web (.serial .timerExpires),
    .web (.serial (.timerHandler 0)), .signalDone false, .signalHandler, .tick 600,
    .delayExpires 0, .delayHandler]

theorem stops_once_interrupted :
    ∃ start process, main plainStartup {} = some start ∧
      exec step start interrupted = some process ∧
      ∃ exit ∈ process.exits, ∃ stop ∈ process.stops, stop + 500 ≤ exit := by
  obtain ⟨start, process, hmain, hexec, hstopped⟩ :
      ∃ start process, main plainStartup {} = some start ∧
        exec step start interrupted = some process ∧ process.running = false :=
    exists_run (by decide)
  obtain ⟨-, -, -, hlate, hrunning⟩ := stops_once hmain hexec
  obtain ⟨exit, hexit⟩ := List.exists_mem_of_ne_nil _ (hrunning.mp hstopped)
  exact ⟨start, process, hmain, hexec, exit, hexit, hlate exit hexit⟩

/-! ## Ending the process -/

/-- The process can end within a number of steps. -/
def CanEnd (steps : Nat) (process : Process) : Prop :=
  ∃ rest final, rest.length ≤ steps ∧ exec step process rest = some final ∧ final.running = false

theorem CanEnd.cons {steps : Nat} {action : Action} {next : Process}
    (hstep : process.step action = some next) (h : CanEnd steps next) :
    CanEnd (steps + 1) process := by
  obtain ⟨rest, final, hlength, hexec, hend⟩ := h
  refine ⟨action :: rest, final, Nat.succ_le_succ hlength, ?_, hend⟩
  rw [exec, hstep, Option.bind_some, hexec]

theorem CanEnd.mono {few many : Nat} (h : CanEnd few process) (hle : few ≤ many) :
    CanEnd many process := by
  obtain ⟨rest, final, hlength, hend⟩ := h
  exact ⟨rest, final, hlength.trans hle, hend⟩

/-- The `io_context` runs and the timer's pointer was not misused. -/
def Live (process : Process) : Prop :=
  process.running = true ∧ ¬process.web.serialPortControlServer.timer.Faulted

theorem Live.step_eq (h : process.Live) :
    ¬(process.running = false ∨ process.web.serialPortControlServer.timer.Faulted) := by
  rw [h.1]
  simpa using h.2

theorem canEnd_of_due (hlive : process.Live) (hdone : 0 < process.delaysDone) :
    CanEnd 1 process := by
  have hstep : process.step .delayHandler =
      some { process with delaysDone := process.delaysDone - 1 }.stop := by
    rw [step, if_neg hlive.step_eq]
    exact if_pos hdone
  exact CanEnd.cons hstep ⟨[], _, Nat.le_refl 0, rfl, rfl⟩

theorem canEnd_of_waiting (hlive : process.Live) {since : Nat}
    (hdelays : process.delays = [since + 500]) (hsince : since ≤ process.clock.now) :
    CanEnd 3 process := by
  have htick : process.step (.tick 500) =
      some { process with clock := { process.clock with now := process.clock.now + 500 } } := by
    rw [step, if_neg hlive.step_eq]
    rfl
  have hexpires : step
      { process with clock := { process.clock with now := process.clock.now + 500 } }
      (.delayExpires 0) = some
        { process with
          clock := { process.clock with now := process.clock.now + 500 }
          delays := process.delays.eraseIdx 0
          delaysDone := process.delaysDone + 1 } := by
    rw [step, if_neg (by exact hlive.step_eq)]
    simp only [hdelays, List.getElem?_cons_zero, Option.bind_some]
    exact if_pos (Nat.add_le_add_right hsince 500)
  exact CanEnd.cons htick (CanEnd.cons hexpires (canEnd_of_due hlive (Nat.succ_pos _)))

theorem not_faulted_stop {timer : RefreshTimer} (h : ¬timer.Faulted) : ¬timer.stop.Faulted := by
  rw [RefreshTimer.stop]
  by_cases hpresent : timer.present = true <;>
    simpa [RefreshTimer.Faulted, RefreshTimer.cancel, hpresent] using h

/-- The handler of a signal stops the control server and leaves the timer usable. -/
theorem step_signalHandler (hlive : process.Live)
    (htimer : process.clock.timer = process.web.serialPortControlServer.timer)
    (hsignal : process.signal = .ended false) :
    ∃ next, process.step .signalHandler = some next ∧ next.Live ∧
      next.delays = process.delays ++ [process.clock.now + 500] ∧
      next.clock.now = process.clock.now := by
  have hweb : process.web.step (.serial .stop) = some
      { process.web with
        serialPortControlServer := process.web.serialPortControlServer.stop } := by
    rw [WebControlServer.step, if_neg hlive.2]
    simp [WebControlServer.isRequest, SerialPortControlServer.step, hlive.2]
  have hclock : exec RefreshClock.step process.clock (timerLabels (.serial .stop)) =
      some { process.clock with timer := process.clock.timer.stop } := by
    have hfault : ¬process.clock.timer.Faulted := by
      rw [htimer]
      exact hlive.2
    rw [show timerLabels (.serial .stop) = [.timer .stop] from rfl, exec_singleton,
      RefreshClock.step, if_neg hfault]
  have hstep : process.step .signalHandler = some
      { process with
        web := { process.web with
          serialPortControlServer := process.web.serialPortControlServer.stop }
        clock := { process.clock with timer := process.clock.timer.stop }
        signal := .handled
        delays := process.delays ++ [process.clock.now + 500]
        stops := process.stops ++ [process.clock.now] } := by
    rw [step, if_neg hlive.step_eq]
    simp only [hsignal, onSignal, stepWeb, hweb, hclock, Bool.false_eq_true, if_false,
      Option.bind_some, Option.map_some]
    rfl
  exact ⟨_, hstep, ⟨hlive.1, not_faulted_stop hlive.2⟩, rfl, rfl⟩

theorem canEnd_of_signal (hlive : process.Live)
    (htimer : process.clock.timer = process.web.serialPortControlServer.timer)
    (hsignal : process.signal = .ended false) (hdelays : process.delays = []) :
    CanEnd 4 process := by
  obtain ⟨next, hstep, hnext, hwaiting, hnow⟩ := step_signalHandler hlive htimer hsignal
  rw [hdelays, List.nil_append] at hwaiting
  exact CanEnd.cons hstep (canEnd_of_waiting hnext hwaiting (Nat.le_of_eq hnow.symm))

/-- A process that still serves has its signal ahead of it. -/
def Attentive (process : Process) : Prop :=
  process.stops = [] → process.signal = .waiting ∨ process.signal = .ended false

theorem Attentive.step {action : Action} {next : Process} (hok : action ≠ .signalDone true)
    (h : process.Attentive) (hchange : process.Change action next) : next.Attentive := by
  cases hchange with
  | tick | web | embed | delayExpires | delayHandler => exact h
  | @signalDone failed hwaiting =>
      cases failed with
      | true => exact absurd rfl hok
      | false => exact fun _ => Or.inr rfl
  | signalFailed hended =>
      intro hstops
      have hsignal := h hstops
      simp [hended] at hsignal
  | stops hended hweb hclock =>
      intro hstops
      simp at hstops

/-- Unless waiting for a signal failed, a signal ends the process: from wherever it is,
five steps are enough. -/
theorem signal_ends (hmain : main startup config = some start)
    (hexec : exec step start actions = some process)
    (hsignals : ∀ action ∈ actions, action ≠ .signalDone true) (hlive : process.Live) :
    CanEnd 5 process := by
  have hsound := sound_of_exec hmain hexec
  have hattentive : process.Attentive := by
    refine exec_invariant Attentive (fun _ _ _ hok h hstep => h.step hok (step_change hstep).2) ?_
      (meets_of_forall_mem hsignals start) hexec
    rw [main_eq_some hmain]
    exact fun _ => Or.inl rfl
  obtain ⟨stage, hstage⟩ := hsound.stage
  have hdelays := hstage.delays
  cases stage with
  | exited since exit => cases hstage.running.symm.trans hlive.1
  | due since =>
      have hdone : 0 < process.delaysDone := by
        rw [hstage.delaysDone]
        exact Nat.one_pos
      exact (canEnd_of_due hlive hdone).mono (by decide)
  | waiting since => exact (canEnd_of_waiting hlive hdelays hstage.late).mono (by decide)
  | serving =>
      rcases hattentive hstage.stops with hsignal | hsignal
      · have hstep : process.step (.signalDone false) =
            some { process with signal := .ended false } := by
          rw [step, if_neg hlive.step_eq]
          exact if_pos hsignal
        exact CanEnd.cons hstep (canEnd_of_signal hlive hsound.timer rfl hdelays)
      · exact (canEnd_of_signal hlive hsound.timer hsignal hdelays).mono (by decide)

theorem signal_ends_lateHandler :
    ∃ start process, main plainStartup {} = some start ∧
      exec step start lateHandler = some process ∧ CanEnd 5 process := by
  obtain ⟨start, process, hmain, hexec, hrunning, htimer⟩ :
      ∃ start process, main plainStartup {} = some start ∧
        exec step start lateHandler = some process ∧ process.running = true ∧
        ¬process.web.serialPortControlServer.timer.Faulted :=
    exists_run (by decide)
  exact ⟨start, process, hmain, hexec,
    signal_ends hmain hexec (by simp [lateHandler]) ⟨hrunning, htimer⟩⟩

end Run

end Process

end Vorze
