import Vorze.System.Registry

/-! # The refresh timer across `stop`

The timer of the server is safe as long as `stop` does not fall between an
expiry and its handler and `start` finds the timer idle. In the source nothing
keeps the signal handler out of that window.
-/

namespace Vorze.SerialPortControlServer

/-- The server's condition on an action is the timer's condition on its part. -/
def TimerOrdered (server : SerialPortControlServer) (action : Action) : Prop :=
  ∀ timerAction ∈ action.timer, server.timer.Ordered timerAction

instance (server : SerialPortControlServer) (action : Action) :
    Decidable (server.TimerOrdered action) :=
  match haction : action.timer with
  | some timerAction =>
      decidable_of_iff (server.timer.Ordered timerAction) (by simp [TimerOrdered, haction])
  | none => .isTrue (by simp [TimerOrdered, haction])

/-- Enumerations that answer do not concern the guard of the timer. -/
theorem guarded_finds {timer : RefreshTimer} (h : timer.Guarded) (finds : Nat) :
    RefreshTimer.Guarded { timer with finds := finds } where
  not_faulted := h.not_faulted
  one_wait := h.one_wait
  quiet_after_stop := h.quiet_after_stop
  running := h.running
  reset := h.reset

theorem guarded_step {server next : SerialPortControlServer} {action : Action}
    (hordered : server.TimerOrdered action) (h : server.timer.Guarded)
    (hstep : server.step action = some next) : next.timer.Guarded := by
  have htimer := step_timer hstep
  cases haction : action.timer with
  | some timerAction =>
      rw [haction] at htimer
      exact h.step (hordered timerAction haction) htimer
  | none =>
      rw [haction] at htimer
      obtain ⟨finds, heq⟩ := htimer
      rw [heq]
      exact guarded_finds h finds

/-- In a run that keeps the order, the handler never uses a timer that was
reset, at most one wait is outstanding, and nothing is flushed after `stop`. -/
theorem timer_safe_of_ordered {config : Config} {actions : List Action}
    {server : SerialPortControlServer}
    (hexec : Transition.exec step (init config) actions = some server)
    (hordered : Transition.Meets step TimerOrdered (init config) actions) :
    server.timer.Safe := by
  have hguarded : server.timer.Guarded :=
    Transition.exec_invariant (fun server => server.timer.Guarded)
      (fun _ _ _ hok h hstep => guarded_step hok h hstep) RefreshTimer.guarded_init hordered hexec
  exact hguarded.toSafe

/-- The timer fires twice and is stopped while its wait is outstanding. -/
def stopWhileWaiting : List Action :=
  [.start, .timerExpires, .timerHandler 0, .timerExpires, .timerHandler 0, .stop]

theorem timer_safe_stopWhileWaiting :
    ∃ server, Transition.exec step (init {}) stopWhileWaiting = some server ∧
      server.timer.Safe := by
  obtain ⟨server, hexec⟩ := Option.isSome_iff_exists.mp
    (show (Transition.exec step (init {}) stopWhileWaiting).isSome = true by decide)
  exact ⟨server, hexec, timer_safe_of_ordered hexec (by decide)⟩

/-- `stop` after the expiry: the handler that is queued with success runs on
the pointer that was reset. -/
theorem not_timer_safe_stop_between :
    ∃ server, Transition.exec step (init {}) [.start, .timerExpires, .stop, .timerHandler 0] =
      some server ∧ ¬server.timer.Safe :=
  ⟨_, rfl, fun hsafe => hsafe.not_faulted (by decide)⟩

end Vorze.SerialPortControlServer
