import Mathlib.Tactic.Common

/-! # Finite runs of a step function

A component is a partial step function: an action is either disabled or leads
to one next state. Nondeterminism lives in the choice of the actions. A run may
be restricted by a condition on each action at the state it is taken in, which
is how an assumption on schedules or inputs is stated.
-/

namespace Vorze.Transition

universe uState uAction

variable {State : Type uState} {Action : Type uAction}
variable (step : State → Action → Option State)

/-- Take the listed actions in order; a disabled action ends the attempt. -/
def exec : State → List Action → Option State
  | state, [] => some state
  | state, action :: rest => (step state action).bind fun next => exec next rest

/-- Every action of the run satisfies `ok` at the state it is taken in. -/
def Meets (ok : State → Action → Prop) : State → List Action → Prop
  | _, [] => True
  | state, action :: rest =>
      ok state action ∧ ∀ next, step state action = some next → Meets ok next rest

instance Meets.decidable (ok : State → Action → Prop)
    [∀ state action, Decidable (ok state action)] :
    ∀ state actions, Decidable (Meets step ok state actions)
  | _, [] => .isTrue trivial
  | state, action :: rest =>
      match hnext : step state action with
      | none => decidable_of_iff (ok state action) (by simp [Meets, hnext])
      | some next =>
          have := Meets.decidable ok next rest
          decidable_of_iff (ok state action ∧ Meets step ok next rest) (by simp [Meets, hnext])

variable {step}

@[simp] theorem exec_nil (state : State) : exec step state [] = some state := rfl

/-- A run that can be evaluated ends in a state, with what evaluates to true there. -/
theorem exists_exec {p : State → Prop} [DecidablePred p] {init : State} {actions : List Action}
    (hrun : (exec step init actions).any (fun final => decide (p final)) = true) :
    ∃ final, exec step init actions = some final ∧ p final := by
  cases hexec : exec step init actions with
  | none =>
      rw [hexec] at hrun
      cases hrun
  | some final =>
      rw [hexec, Option.any_some, decide_eq_true_eq] at hrun
      exact ⟨final, rfl, hrun⟩

/-- A property that holds at first and survives each permitted action holds
wherever a run of permitted actions ends. -/
theorem exec_invariant (inv : State → Prop) {ok : State → Action → Prop}
    (hstep : ∀ state action next, ok state action → inv state →
      step state action = some next → inv next)
    {actions : List Action} {state final : State} (hinit : inv state)
    (hmeets : Meets step ok state actions) (hexec : exec step state actions = some final) :
    inv final := by
  -- the run may be cut after its first action, so the state it starts in is general
  induction actions generalizing state with
  | nil =>
      simp only [exec_nil, Option.some.injEq] at hexec
      exact hexec ▸ hinit
  | cons action rest ih =>
      simp only [exec, Option.bind_eq_some_iff] at hexec
      obtain ⟨next, hnext, hrest⟩ := hexec
      exact ih (hstep state action next hmeets.1 hinit hnext) (hmeets.2 next hnext) hrest

/-- A condition on the actions alone is one on each action of the run. -/
theorem meets_of_forall_mem {ok : Action → Prop} {actions : List Action}
    (hall : ∀ action ∈ actions, ok action) (state : State) :
    Meets step (fun _ action => ok action) state actions := by
  induction actions generalizing state with
  | nil => trivial
  | cons action rest ih =>
      rw [List.forall_mem_cons] at hall
      exact ⟨hall.1, fun next _ => ih hall.2 next⟩

/-- Without a condition every run is permitted. -/
theorem meets_true (state : State) (actions : List Action) :
    Meets step (fun _ _ => True) state actions :=
  meets_of_forall_mem (fun _ _ => trivial) state

/-- When the first action that is not permitted breaks things for good, a run
tells by the state it ends in whether all its actions were permitted. -/
theorem exec_good_or_bad {ok : State → Action → Prop} (good bad : State → Prop)
    (hkeep : ∀ state action next, ok state action → good state →
      step state action = some next → good next)
    (hbreak : ∀ state action next, ¬ok state action → good state →
      step state action = some next → bad next)
    (hbad : ∀ state action next, bad state → step state action = some next → bad next)
    {actions : List Action} {state final : State} (hgood : good state)
    (hexec : exec step state actions = some final) :
    Meets step ok state actions ∧ good final ∨ ¬Meets step ok state actions ∧ bad final := by
  induction actions generalizing state with
  | nil =>
      simp only [exec_nil, Option.some.injEq] at hexec
      exact Or.inl ⟨trivial, hexec ▸ hgood⟩
  | cons action rest ih =>
      simp only [exec, Option.bind_eq_some_iff] at hexec
      obtain ⟨next, hnext, hrest⟩ := hexec
      by_cases hok : ok state action
      · rcases ih (hkeep state action next hok hgood hnext) hrest with ⟨hall, hend⟩ | ⟨hnot, hend⟩
        · refine Or.inl ⟨⟨hok, ?_⟩, hend⟩
          intro other hother
          rw [hnext] at hother
          exact Option.some.inj hother ▸ hall
        · exact Or.inr ⟨fun hall => hnot (hall.2 next hnext), hend⟩
      · have hend := exec_invariant bad
          (fun state action next (_ : True) => hbad state action next)
          (hbreak state action next hok hgood hnext) (meets_true next rest) hrest
        exact Or.inr ⟨fun hall => hok hall.1, hend⟩

end Vorze.Transition
