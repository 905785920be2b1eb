import Vorze.Foundation.Slots
import Vorze.Serial.RefreshTimer

/-! # The refresh timer and the time

Times are in milliseconds since the timer was made. Its handler may run late, but
it moves the expiry on from the one before and not from the time it runs at, so
that no period is lost.
-/

namespace Vorze

/-- `flushes` has the times at which `flushPortInfo` ran. -/
structure RefreshClock where
  timer : RefreshTimer := {}
  now : Nat := 0
  expiry : Nat := 5000
  flushes : List Nat := []
  deriving DecidableEq, Repr

namespace RefreshClock

def flushPortInfo (c : RefreshClock) : RefreshClock :=
  { c with timer := c.timer.flushPortInfo, flushes := c.flushes ++ [c.now] }

/-- The handler `c` of `flushPortInfo`. -/
def handler (c : RefreshClock) : WaitResult → RefreshClock
  | .aborted => c
  | .success =>
      if c.timer.present then
        flushPortInfo { c with timer := c.timer.cancel, expiry := c.expiry + 5000 }
      else { c with timer := c.timer.handler .success }

/-- The answer of an enumeration is no action of the timer, but it counts them. -/
inductive Action
  | tick (delay : Nat)
  | timer (action : RefreshTimer.Action)
  | answered
  deriving DecidableEq, Repr

/-- A wait ends when the expiry is reached, and its handler runs at some time after. -/
def step (c : RefreshClock) : Action → Option RefreshClock
  | .tick delay => some { c with now := c.now + delay }
  | .timer action =>
      if c.timer.Faulted then none
      else
        match action with
        | .start => some c.flushPortInfo
        | .expire =>
            if c.timer.present ∧ 0 < c.timer.waits ∧ c.expiry ≤ c.now then
              some { c with timer := c.timer.expire }
            else none
        | .handler index =>
            (c.timer.queued[index]?).map fun result =>
              handler { c with timer := { c.timer with queued := c.timer.queued.eraseIdx index } }
                result
        | .stop => some { c with timer := c.timer.stop }
  | .answered => some { c with timer := { c.timer with finds := c.timer.finds - 1 } }

theorem handler_timer (c : RefreshClock) (result : WaitResult) :
    (c.handler result).timer = c.timer.handler result := by
  cases result with
  | aborted => rfl
  | success =>
      by_cases hpresent : c.timer.present = true <;>
        simp [handler, RefreshTimer.handler, hpresent, flushPortInfo]

theorem handler_now (c : RefreshClock) (result : WaitResult) : (c.handler result).now = c.now := by
  cases result with
  | aborted => rfl
  | success =>
      by_cases hpresent : c.timer.present = true <;> simp [handler, hpresent, flushPortInfo]

/-- The timer takes its own steps. -/
theorem step_timer {c next : RefreshClock} {action : RefreshTimer.Action}
    (hstep : c.step (.timer action) = some next) : c.timer.step action = some next.timer := by
  simp only [step] at hstep
  unfold RefreshTimer.step
  split at hstep
  next => cases hstep
  next hfault =>
    rw [if_neg hfault]
    cases action with
    | start | stop =>
        obtain rfl := Option.some.inj hstep
        rfl
    | expire =>
        obtain ⟨⟨hpresent, hwaits, -⟩, hnext⟩ := Option.ite_none_right_eq_some.mp hstep
        obtain rfl := Option.some.inj hnext
        exact if_pos ⟨hpresent, hwaits⟩
    | handler index =>
        obtain ⟨result, hresult, rfl⟩ := Option.map_eq_some_iff.mp hstep
        simp only [hresult, Option.map_some, handler_timer]

theorem now_le_of_step {c next : RefreshClock} {action : Action}
    (hstep : c.step action = some next) : c.now ≤ next.now := by
  cases action with
  | tick delay =>
      obtain rfl := Option.some.inj hstep
      exact Nat.le_add_right c.now delay
  | answered =>
      obtain rfl := Option.some.inj hstep
      exact Nat.le_refl _
  | timer action =>
      simp only [step] at hstep
      split at hstep
      next => cases hstep
      next =>
        cases action with
        | start | stop =>
            obtain rfl := Option.some.inj hstep
            exact Nat.le_refl _
        | expire =>
            obtain ⟨-, hnext⟩ := Option.ite_none_right_eq_some.mp hstep
            obtain rfl := Option.some.inj hnext
            exact Nat.le_refl _
        | handler index =>
            obtain ⟨result, -, rfl⟩ := Option.map_eq_some_iff.mp hstep
            have hnow := handler_now
              { c with timer := { c.timer with queued := c.timer.queued.eraseIdx index } } result
            exact Nat.le_of_eq hnow.symm

/-! ## The schedule -/

/-- `start` runs once. -/
def StartsOnce (c : RefreshClock) (action : Action) : Prop :=
  action = .timer .start → c.flushes = []

instance (c : RefreshClock) (action : Action) : Decidable (c.StartsOnce action) :=
  inferInstanceAs (Decidable (_ → _))

/-- The expiry is a period after the one that let the last flush happen, and there
is one wait for it at most. -/
structure OnSchedule (c : RefreshClock) : Prop where
  expiry : c.expiry = 5000 * max 1 c.flushes.length
  due : ∀ i time, c.flushes[i]? = some time → 5000 * i ≤ time ∧ time ≤ c.now
  idle : c.flushes = [] → c.timer.outstanding = 0
  one_wait : c.timer.outstanding ≤ 1
  expired : .success ∈ c.timer.queued → c.expiry ≤ c.now
  logged : c.timer.log.count .flushed = c.flushes.length

theorem onSchedule_init : OnSchedule {} where
  expiry := rfl
  due := fun i time h => by cases h
  idle := fun _ => rfl
  one_wait := by decide
  expired := fun h => by cases h
  logged := rfl

@[simp] theorem cancel_outstanding (t : RefreshTimer) : t.cancel.outstanding = t.outstanding := by
  simp only [RefreshTimer.cancel, RefreshTimer.outstanding, List.length_append,
    List.length_replicate]
  omega

@[simp] theorem expire_outstanding (t : RefreshTimer) : t.expire.outstanding = t.outstanding := by
  simp only [RefreshTimer.expire, RefreshTimer.outstanding, List.length_append,
    List.length_replicate]
  omega

@[simp] theorem stop_outstanding (t : RefreshTimer) : t.stop.outstanding = t.outstanding := by
  rw [RefreshTimer.stop]
  by_cases hpresent : t.present = true
  · rw [if_pos hpresent]
    exact cancel_outstanding t
  · rw [if_neg hpresent]
    rfl

theorem stop_logged (t : RefreshTimer) : t.stop.log.count .flushed = t.log.count .flushed := by
  rw [RefreshTimer.stop]
  by_cases hpresent : t.present = true <;> simp [hpresent, RefreshTimer.cancel]

/-- `stop` queues handlers with an error only. -/
theorem success_mem_stop {t : RefreshTimer} (hmem : .success ∈ t.stop.queued) :
    .success ∈ t.queued := by
  rw [RefreshTimer.stop] at hmem
  by_cases hpresent : t.present = true
  · rw [if_pos hpresent] at hmem
    simpa [RefreshTimer.cancel, List.mem_replicate] using hmem
  · rw [if_neg hpresent] at hmem
    exact hmem

theorem flushPortInfo_outstanding_le (t : RefreshTimer) :
    t.flushPortInfo.outstanding ≤ t.outstanding + 1 := by
  unfold RefreshTimer.flushPortInfo RefreshTimer.outstanding
  by_cases hpresent : t.present = true
  · simp only [hpresent, ↓reduceIte]
    omega
  · simp [hpresent]

theorem flushPortInfo_queued (t : RefreshTimer) : t.flushPortInfo.queued = t.queued := by
  unfold RefreshTimer.flushPortInfo
  by_cases hpresent : t.present = true <;> simp [hpresent]

theorem flushPortInfo_logged (t : RefreshTimer) :
    t.flushPortInfo.log.count .flushed = t.log.count .flushed + 1 := by
  unfold RefreshTimer.flushPortInfo
  by_cases hpresent : t.present = true <;> simp [hpresent]

/-- A flush is due when as many periods are over as there were flushes. -/
theorem onSchedule_flush {c : RefreshClock} (hidle : c.timer.outstanding = 0)
    (hexpiry : c.expiry = 5000 * (c.flushes.length + 1))
    (hdue : ∀ i time, c.flushes[i]? = some time → 5000 * i ≤ time ∧ time ≤ c.now)
    (hnow : 5000 * c.flushes.length ≤ c.now)
    (hlogged : c.timer.log.count .flushed = c.flushes.length) : c.flushPortInfo.OnSchedule where
  expiry := by
    rw [flushPortInfo, List.length_append, List.length_singleton]
    exact hexpiry.trans (by rw [Nat.max_eq_right (Nat.le_add_left 1 _)])
  due := by
    intro i time htime
    rw [flushPortInfo, List.getElem?_append] at htime
    split at htime
    next => exact hdue i time htime
    next hlast =>
      obtain ⟨hi, rfl⟩ := Slots.eq_of_getElem?_singleton htime
      have heq : i = c.flushes.length := by omega
      exact ⟨heq ▸ hnow, Nat.le_refl _⟩
  idle := by simp [flushPortInfo]
  one_wait := by
    have hle := flushPortInfo_outstanding_le c.timer
    rw [hidle] at hle
    exact hle
  expired := by
    have hqueued : c.timer.queued = [] :=
      List.length_eq_zero_iff.mp (Nat.eq_zero_of_add_eq_zero_left hidle)
    rw [flushPortInfo, flushPortInfo_queued, hqueued]
    simp
  logged := by
    rw [flushPortInfo, flushPortInfo_logged, hlogged, List.length_append, List.length_singleton]

/-- There is no wait before `start`. -/
theorem OnSchedule.flushes_ne_nil {c : RefreshClock} (h : c.OnSchedule)
    (houtstanding : 0 < c.timer.outstanding) : c.flushes ≠ [] := by
  intro hnone
  rw [h.idle hnone] at houtstanding
  exact absurd houtstanding (Nat.lt_irrefl 0)

/-- A queued handler that is taken up is no longer outstanding. -/
theorem OnSchedule.eraseIdx {c : RefreshClock} (h : c.OnSchedule) (hstarted : c.flushes ≠ [])
    {index : Nat} {result : WaitResult} (hresult : c.timer.queued[index]? = some result) :
    RefreshClock.OnSchedule
        { c with timer := { c.timer with queued := c.timer.queued.eraseIdx index } } ∧
      c.timer.waits + (c.timer.queued.eraseIdx index).length = 0 := by
  have hlength := Slots.length_eraseIdx_add_one hresult
  have hone := h.one_wait
  unfold RefreshTimer.outstanding at hone
  refine ⟨⟨h.expiry, h.due, fun hnone => absurd hnone hstarted, ?_,
    fun hmem => h.expired (List.mem_of_mem_eraseIdx hmem), h.logged⟩, by omega⟩
  unfold RefreshTimer.outstanding
  dsimp only
  omega

/-- A handler without an error runs after the expiry and moves it on by a period. -/
theorem OnSchedule.handler {c : RefreshClock} (h : c.OnSchedule) {index : Nat}
    {result : WaitResult} (hresult : c.timer.queued[index]? = some result) :
    (RefreshClock.handler
      { c with timer := { c.timer with queued := c.timer.queued.eraseIdx index } }
      result).OnSchedule := by
  have hstarted : c.flushes ≠ [] := by
    have hlength := Slots.length_eraseIdx_add_one hresult
    exact h.flushes_ne_nil (by unfold RefreshTimer.outstanding; omega)
  obtain ⟨hrest, hnone⟩ := h.eraseIdx hstarted hresult
  cases result with
  | aborted => exact hrest
  | success =>
      by_cases hpresent : c.timer.present = true
      · have hexpired := h.expired (List.mem_of_getElem? hresult)
        have hexpiry := h.expiry
        rw [Nat.max_eq_right (List.length_pos_iff.mpr hstarted)] at hexpiry
        rw [RefreshClock.handler, if_pos (by exact hpresent)]
        apply onSchedule_flush
        · rw [cancel_outstanding]
          exact hnone
        · dsimp only
          omega
        · exact h.due
        · dsimp only
          omega
        · exact h.logged
      · rw [RefreshClock.handler, if_neg (by exact hpresent), RefreshTimer.handler,
          if_neg (by exact hpresent)]
        exact
          { expiry := h.expiry
            due := h.due
            idle := hrest.idle
            one_wait := hrest.one_wait
            expired := hrest.expired
            logged := (List.count_append.trans (Nat.add_zero _)).trans h.logged }

theorem OnSchedule.step {c next : RefreshClock} {action : Action} (honce : c.StartsOnce action)
    (h : c.OnSchedule) (hstep : c.step action = some next) : next.OnSchedule := by
  cases action with
  | tick delay =>
      obtain rfl := Option.some.inj hstep
      refine ⟨h.expiry, fun i time htime => ?_, h.idle, h.one_wait, fun hmem => ?_, h.logged⟩
      · obtain ⟨hdue, hpast⟩ := h.due i time htime
        exact ⟨hdue, Nat.le_add_right_of_le hpast⟩
      · exact Nat.le_add_right_of_le (h.expired hmem)
  | answered =>
      obtain rfl := Option.some.inj hstep
      exact ⟨h.expiry, h.due, h.idle, h.one_wait, h.expired, h.logged⟩
  | timer action =>
      simp only [RefreshClock.step] at hstep
      split at hstep
      next => cases hstep
      next =>
        cases action with
        | start =>
            obtain rfl := Option.some.inj hstep
            have hnone := honce rfl
            refine onSchedule_flush (h.idle hnone) ?_ h.due (by simp [hnone]) h.logged
            rw [h.expiry, hnone]
            rfl
        | expire =>
            obtain ⟨⟨-, -, hreached⟩, hnext⟩ := Option.ite_none_right_eq_some.mp hstep
            obtain rfl := Option.some.inj hnext
            refine ⟨h.expiry, h.due, fun hnone => ?_, ?_, fun _ => hreached, h.logged⟩
            · rw [expire_outstanding]
              exact h.idle hnone
            · rw [expire_outstanding]
              exact h.one_wait
        | handler index =>
            obtain ⟨result, hresult, rfl⟩ := Option.map_eq_some_iff.mp hstep
            exact h.handler hresult
        | stop =>
            obtain rfl := Option.some.inj hstep
            refine ⟨h.expiry, h.due, fun hnone => ?_, ?_,
              fun hmem => h.expired (success_mem_stop hmem), (stop_logged _).trans h.logged⟩
            · rw [stop_outstanding]
              exact h.idle hnone
            · rw [stop_outstanding]
              exact h.one_wait

/-- While a wait is under way there have been as many flushes as periods begun. -/
theorem OnSchedule.length_flushes {c : RefreshClock} (h : c.OnSchedule) (hwaits : 0 < c.timer.waits)
    (hwaiting : c.now < c.expiry) : c.flushes.length = c.now / 5000 + 1 := by
  have hstarted := h.flushes_ne_nil (Nat.add_pos_left hwaits _)
  have hexpiry := h.expiry
  rw [Nat.max_eq_right (List.length_pos_iff.mpr hstarted)] at hexpiry
  obtain ⟨hdue, hpast⟩ := h.due (c.flushes.length - 1) (c.flushes.getLast hstarted)
    (by rw [← List.getLast?_eq_getElem?, List.getLast?_eq_some_getLast])
  omega

end RefreshClock

end Vorze
