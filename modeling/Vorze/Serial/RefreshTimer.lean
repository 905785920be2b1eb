import Vorze.Foundation.Transition

/-! # The port refresh timer

The timer that `SerialPortControlServer` re-arms from its own handler. A wait is
outstanding until the timer expires or is cancelled; either way its handler is
then queued with the result and runs later.
-/

namespace Vorze

/-- The `error_code` a timer handler is called with. -/
inductive WaitResult
  | success
  | aborted
  deriving DecidableEq, Repr

/-- What the timer's code did, in order. -/
inductive RefreshEvent
  | flushed
  | stopped
  /-- the pointer was dereferenced after `timer.reset()` -/
  | nullTimer
  deriving DecidableEq, Repr

/-- The timer pointer with the waits on it. `finds` counts the enumerations
asked for that have not answered yet. -/
structure RefreshTimer where
  present : Bool := true
  waits : Nat := 0
  queued : List WaitResult := []
  finds : Nat := 0
  log : List RefreshEvent := []
  deriving DecidableEq, Repr

namespace RefreshTimer

/-- Cancelling ends the outstanding waits. Handlers queued before keep their result. -/
def cancel (t : RefreshTimer) : RefreshTimer :=
  { t with waits := 0, queued := t.queued ++ List.replicate t.waits .aborted }

def flushPortInfo (t : RefreshTimer) : RefreshTimer :=
  let t := { t with finds := t.finds + 1, log := t.log ++ [RefreshEvent.flushed] }
  -- `timer->async_wait`
  if t.present then { t with waits := t.waits + 1 }
  else { t with log := t.log ++ [RefreshEvent.nullTimer] }

/-- The handler `c` of `flushPortInfo`. Moving the expiry cancels what waits on it. -/
def handler (t : RefreshTimer) : WaitResult → RefreshTimer
  | .aborted => t
  | .success =>
      if t.present then t.cancel.flushPortInfo
      else { t with log := t.log ++ [.nullTimer] }

/-- The part of `SerialPortControlServer::stop` that concerns the timer. -/
def stop (t : RefreshTimer) : RefreshTimer :=
  let t := { t with log := t.log ++ [RefreshEvent.stopped] }
  if t.present then { t.cancel with present := false } else t

/-- Every outstanding wait ends when the expiry is reached. -/
def expire (t : RefreshTimer) : RefreshTimer :=
  { t with waits := 0, queued := t.queued ++ List.replicate t.waits .success }

def Faulted (t : RefreshTimer) : Prop := .nullTimer ∈ t.log

instance (t : RefreshTimer) : Decidable t.Faulted := inferInstanceAs (Decidable (_ ∈ _))

inductive Action
  | start
  | expire
  | handler (index : Nat)
  | stop
  deriving DecidableEq, Repr

/-- Nothing is said about a program that used the null pointer. -/
def step (t : RefreshTimer) (action : Action) : Option RefreshTimer :=
  if t.Faulted then none
  else
    match action with
    | .start => some t.flushPortInfo
    | .expire => if t.present ∧ 0 < t.waits then some t.expire else none
    | .handler index =>
        (t.queued[index]?).map fun result =>
          handler { t with queued := t.queued.eraseIdx index } result
    | .stop => some t.stop

/-! ## The pointer -/

@[simp] theorem cancel_present (t : RefreshTimer) : t.cancel.present = t.present := rfl

@[simp] theorem expire_present (t : RefreshTimer) : t.expire.present = t.present := rfl

@[simp] theorem flushPortInfo_present (t : RefreshTimer) :
    t.flushPortInfo.present = t.present := by
  by_cases hpresent : t.present = true <;> simp [flushPortInfo, hpresent]

@[simp] theorem handler_present (t : RefreshTimer) (result : WaitResult) :
    (t.handler result).present = t.present := by
  cases result with
  | aborted => rfl
  | success => by_cases hpresent : t.present = true <;> simp [handler, hpresent]

@[simp] theorem stop_present (t : RefreshTimer) : t.stop.present = false := by
  by_cases hpresent : t.present = true <;> simp [stop, hpresent]

/-- Only `stop` resets the pointer, and nothing sets it again. -/
theorem step_present {t next : RefreshTimer} {action : Action}
    (hstep : t.step action = some next) :
    next.present = (decide (action ≠ .stop) && t.present) := by
  unfold step at hstep
  split at hstep
  next => cases hstep
  next =>
    cases action with
    | start =>
        obtain rfl := Option.some.inj hstep
        simp
    | expire =>
        simp only [Option.ite_none_right_eq_some, Option.some.injEq] at hstep
        obtain ⟨_, rfl⟩ := hstep
        simp
    | handler index =>
        obtain ⟨result, _, rfl⟩ := Option.map_eq_some_iff.mp hstep
        simp
    | stop =>
        obtain rfl := Option.some.inj hstep
        simp

/-! ## Safety -/

/-- Waits whose handler has not run. -/
def outstanding (t : RefreshTimer) : Nat := t.waits + t.queued.length

/-- What is asked of the timer. -/
structure Safe (t : RefreshTimer) : Prop where
  not_faulted : ¬t.Faulted
  one_wait : t.outstanding ≤ 1
  quiet_after_stop : ¬[RefreshEvent.stopped, .flushed].Sublist t.log

/-- `start` finds a timer nobody waits on, and `stop` comes before an expiry
or after its handler, not between them. -/
def Ordered (t : RefreshTimer) : Action → Prop
  | .start => t.present = true ∧ t.outstanding = 0
  | .stop => .success ∉ t.queued
  | _ => True

instance (t : RefreshTimer) : ∀ action, Decidable (t.Ordered action)
  | .start => inferInstanceAs (Decidable (_ ∧ _))
  | .stop => inferInstanceAs (Decidable (¬_))
  | .expire => inferInstanceAs (Decidable True)
  | .handler _ => inferInstanceAs (Decidable True)

/-- The invariant behind safety: a timer that was reset has no handler left
that would use it. -/
structure Guarded (t : RefreshTimer) : Prop extends Safe t where
  running : t.present = true → .stopped ∉ t.log
  reset : t.present = false → t.waits = 0 ∧ .success ∉ t.queued

theorem guarded_init : Guarded {} where
  not_faulted := by decide
  one_wait := by decide
  quiet_after_stop := by decide
  running := by decide
  reset := by decide

/-- An order is broken by the last event only if the other one came before. -/
theorem not_pair_sublist_append {α : Type} {first second last : α} {log : List α}
    (hlog : ¬[first, second].Sublist log) (hlast : last = second → first ∉ log) :
    ¬[first, second].Sublist (log ++ [last]) := by
  intro hsub
  obtain ⟨left, right, heq, hleft, hright⟩ := List.sublist_append_iff.mp hsub
  rcases List.sublist_cons_iff.mp hright with hright | ⟨rest, rfl, hrest⟩
  · obtain rfl := List.sublist_nil.mp hright
    rw [List.append_nil] at heq
    exact hlog (heq ▸ hleft)
  · obtain rfl := List.sublist_nil.mp hrest
    have hsplit : [first] ++ [second] = left ++ [last] := heq
    obtain ⟨rfl, hsame⟩ := List.append_inj' hsplit rfl
    exact hlast (List.singleton_inj.mp hsame).symm (List.singleton_sublist.mp hleft)

/-- Arming a running timer that nobody waits on. -/
theorem Guarded.flush {t : RefreshTimer} (h : Guarded t) (hpresent : t.present = true)
    (hidle : t.outstanding = 0) : Guarded t.flushPortInfo where
  not_faulted := by
    have := h.not_faulted
    simpa [flushPortInfo, hpresent, Faulted] using this
  one_wait := by
    simp only [outstanding] at hidle
    simp only [flushPortInfo, hpresent, outstanding, ↓reduceIte]
    omega
  quiet_after_stop := by
    have : ¬[RefreshEvent.stopped, .flushed].Sublist (t.log ++ [.flushed]) :=
      not_pair_sublist_append h.quiet_after_stop fun _ => h.running hpresent
    simpa [flushPortInfo, hpresent] using this
  running := by
    have := h.running hpresent
    simpa [flushPortInfo, hpresent] using this
  reset := by simp [flushPortInfo, hpresent]

theorem Guarded.handler {t : RefreshTimer} (h : Guarded t) {index : Nat} {result : WaitResult}
    (hqueued : t.queued[index]? = some result) :
    Guarded (handler { t with queued := t.queued.eraseIdx index } result) := by
  have hlength := List.length_eraseIdx_of_lt (List.getElem?_eq_some_iff.mp hqueued).1
  have hlt := (List.getElem?_eq_some_iff.mp hqueued).1
  have hone := h.one_wait
  simp only [outstanding] at hone
  have hrest : Guarded { t with queued := t.queued.eraseIdx index } :=
    { not_faulted := h.not_faulted
      one_wait := by simp only [outstanding]; omega
      quiet_after_stop := h.quiet_after_stop
      running := h.running
      reset := fun hreset => ⟨(h.reset hreset).1,
        fun hmem => (h.reset hreset).2 (List.mem_of_mem_eraseIdx hmem)⟩ }
  cases result with
  | aborted => exact hrest
  | success =>
      -- a handler that succeeds is not queued on a timer that was reset
      have hpresent : t.present = true := by
        rcases hp : t.present with _ | _
        · exact absurd (List.mem_of_getElem? hqueued) (h.reset hp).2
        · rfl
      have hwaits : t.waits = 0 := by omega
      have hcancel : ({ t with queued := t.queued.eraseIdx index } : RefreshTimer).cancel =
          { t with queued := t.queued.eraseIdx index } := by
        simp [cancel, hwaits]
      rw [RefreshTimer.handler, if_pos (by exact hpresent), hcancel]
      apply hrest.flush hpresent
      simp only [outstanding]
      omega

theorem Guarded.expire {t : RefreshTimer} (h : Guarded t) (hpresent : t.present = true) :
    Guarded t.expire where
  not_faulted := h.not_faulted
  one_wait := by
    have hone := h.one_wait
    simp only [outstanding] at hone
    simp only [outstanding, RefreshTimer.expire, List.length_append, List.length_replicate]
    omega
  quiet_after_stop := h.quiet_after_stop
  running := h.running
  reset := fun hreset => by
    have : t.present = false := hreset
    rw [hpresent] at this
    cases this

theorem Guarded.stop {t : RefreshTimer} (h : Guarded t) (hqueued : .success ∉ t.queued) :
    Guarded t.stop := by
  have hfault : .nullTimer ∉ t.log ++ [.stopped] := by
    have := h.not_faulted
    simpa [Faulted] using this
  have hquiet : ¬[RefreshEvent.stopped, .flushed].Sublist (t.log ++ [.stopped]) :=
    not_pair_sublist_append h.quiet_after_stop (by simp)
  have hone := h.one_wait
  simp only [outstanding] at hone
  rw [RefreshTimer.stop]
  by_cases hpresent : t.present = true
  · rw [if_pos hpresent]
    exact
      { not_faulted := hfault
        one_wait := by
          simp only [outstanding, cancel, List.length_append, List.length_replicate]
          omega
        quiet_after_stop := hquiet
        running := fun hrunning => by cases hrunning
        reset := fun _ => ⟨rfl, by simpa [cancel, List.mem_replicate] using hqueued⟩ }
  · rw [if_neg hpresent]
    exact
      { not_faulted := hfault
        one_wait := hone
        quiet_after_stop := hquiet
        running := fun hrunning => absurd hrunning hpresent
        reset := h.reset }

theorem Guarded.step {t next : RefreshTimer} {action : Action} (hordered : t.Ordered action)
    (h : Guarded t) (hstep : t.step action = some next) : Guarded next := by
  unfold RefreshTimer.step at hstep
  rw [if_neg h.not_faulted] at hstep
  cases action with
  | start =>
      obtain rfl := Option.some.inj hstep
      exact h.flush hordered.1 hordered.2
  | expire =>
      simp only [Option.ite_none_right_eq_some, Option.some.injEq] at hstep
      obtain ⟨⟨hpresent, _⟩, rfl⟩ := hstep
      exact h.expire hpresent
  | handler index =>
      obtain ⟨result, hqueued, rfl⟩ := Option.map_eq_some_iff.mp hstep
      exact h.handler hqueued
  | stop =>
      obtain rfl := Option.some.inj hstep
      exact h.stop hordered

end RefreshTimer

end Vorze
