import Vorze.Foundation.Transition

/-! # One run seen through another component

A component that is built from others takes its steps by letting them take
theirs. The labels say which steps of the other component an action stands for
at the state it is taken in: none, one or several. Runs are compared step by
step, and so is what the labels of a run so far have to do with its state.
-/

namespace Vorze.Transition

universe uState uAction uModel uLabel

variable {State : Type uState} {Action : Type uAction} {Model : Type uModel}
variable {Label : Type uLabel}
variable {step : State → Action → Option State} {modelStep : Model → Label → Option Model}

theorem exec_append (state : State) (before after : List Action) :
    exec step state (before ++ after) =
      (exec step state before).bind fun next => exec step next after := by
  induction before generalizing state with
  | nil => rfl
  | cons action rest ih =>
      simp only [List.cons_append, exec, Option.bind_assoc]
      congr 1
      funext next
      exact ih next

@[simp] theorem exec_singleton (state : State) (action : Action) :
    exec step state [action] = step state action :=
  Option.bind_fun_some _

/-- A run of one more action. -/
theorem exec_concat {state middle final : State} {actions : List Action} {action : Action}
    (hexec : exec step state actions = some middle) (hstep : step middle action = some final) :
    exec step state (actions ++ [action]) = some final := by
  rw [exec_append, hexec, Option.bind_some, exec, hstep, Option.bind_some, exec_nil]

/-! ## Labels -/

/-- The labels of a run. -/
def trace (step : State → Action → Option State) (labels : State → Action → List Label) :
    State → List Action → List Label
  | _, [] => []
  | state, action :: rest =>
      labels state action ++ (step state action).elim [] fun next => trace step labels next rest

variable {labels : State → Action → List Label}

/-- What is picked from the labels of a run can be picked from its actions, if that
goes for each action by itself. -/
theorem filterMap_trace {Picked : Type uModel} {pick : Label → Option Picked}
    {pickAction : Action → Option Picked}
    (hlabels : ∀ state action, (labels state action).filterMap pick = (pickAction action).toList)
    {state final : State} {actions : List Action} (hexec : exec step state actions = some final) :
    (trace step labels state actions).filterMap pick = actions.filterMap pickAction := by
  induction actions generalizing state with
  | nil => rfl
  | cons action rest ih =>
      obtain ⟨next, hnext, hrest⟩ := Option.bind_eq_some_iff.mp hexec
      rw [trace, hnext, Option.elim_some, List.filterMap_append, ih hrest, hlabels,
        List.filterMap_cons]
      cases pickAction action <;> rfl

/-- What a step keeps between the labels so far and the state, a run keeps. -/
theorem trace_invariant (rel : List Label → State → Prop)
    (hstep : ∀ done state action next, rel done state → step state action = some next →
      rel (done ++ labels state action) next)
    {done : List Label} {state final : State} {actions : List Action} (hrel : rel done state)
    (hexec : exec step state actions = some final) :
    rel (done ++ trace step labels state actions) final := by
  induction actions generalizing done state with
  | nil =>
      obtain rfl := Option.some.inj hexec
      simpa [trace] using hrel
  | cons action rest ih =>
      obtain ⟨next, hnext, hrest⟩ := Option.bind_eq_some_iff.mp hexec
      have hlast := ih (hstep done state action next hrel hnext) hrest
      simpa only [trace, hnext, Option.elim_some, List.append_assoc] using hlast

/-- When each action is a run of the other component on what is seen of the
state, then a run of actions is one as well. -/
theorem exec_view (view : State → Model)
    (hstep : ∀ state action next, step state action = some next →
      exec modelStep (view state) (labels state action) = some (view next))
    {state final : State} {actions : List Action}
    (hexec : exec step state actions = some final) :
    exec modelStep (view state) (trace step labels state actions) = some (view final) := by
  induction actions generalizing state with
  | nil =>
      obtain rfl := Option.some.inj hexec
      rfl
  | cons action rest ih =>
      obtain ⟨next, hnext, hrest⟩ := Option.bind_eq_some_iff.mp hexec
      rw [trace, hnext, Option.elim_some, exec_append, hstep state action next hnext,
        Option.bind_some, ih hrest]

/-- When each action of one component is matched by a run of the other, which may be
empty, then a run is matched by the runs of its actions. -/
theorem exec_simulation (rel : State → Model → Prop) {labels : Action → List Label}
    (hstep : ∀ state model action next, rel state model → step state action = some next →
      ∃ modelNext, exec modelStep model (labels action) = some modelNext ∧ rel next modelNext)
    {state final : State} {model : Model} {actions : List Action} (hrel : rel state model)
    (hexec : exec step state actions = some final) :
    ∃ modelFinal, exec modelStep model (actions.flatMap labels) = some modelFinal ∧
      rel final modelFinal := by
  induction actions generalizing state model with
  | nil =>
      obtain rfl := Option.some.inj hexec
      exact ⟨model, rfl, hrel⟩
  | cons action rest ih =>
      obtain ⟨next, hnext, hrest⟩ := Option.bind_eq_some_iff.mp hexec
      obtain ⟨modelNext, hmodel, hnextRel⟩ := hstep state model action next hrel hnext
      obtain ⟨modelFinal, hfinal, hfinalRel⟩ := ih hnextRel hrest
      refine ⟨modelFinal, ?_, hfinalRel⟩
      rw [List.flatMap_cons, exec_append, hmodel, Option.bind_some, hfinal]

/-! ## How long runs are -/

/-- Actions that all lower a measure cannot go on for longer than it says. -/
theorem length_add_le_of_exec (measure : State → Nat) {ok : State → Action → Prop}
    (hstep : ∀ state action next, ok state action → step state action = some next →
      measure next < measure state)
    {state final : State} {actions : List Action} (hmeets : Meets step ok state actions)
    (hexec : exec step state actions = some final) :
    actions.length + measure final ≤ measure state := by
  induction actions generalizing state with
  | nil =>
      obtain rfl := Option.some.inj hexec
      simp
  | cons action rest ih =>
      obtain ⟨next, hnext, hrest⟩ := Option.bind_eq_some_iff.mp hexec
      have hlt := hstep state action next hmeets.1 hnext
      have hle := ih (hmeets.2 next hnext) hrest
      rw [List.length_cons]
      omega

/-- When every action lowers a measure by one, the measure counts the actions. -/
theorem length_add_eq_of_exec (measure : State → Nat)
    (hstep : ∀ state action next, step state action = some next →
      measure next + 1 = measure state)
    {state final : State} {actions : List Action} (hexec : exec step state actions = some final) :
    actions.length + measure final = measure state := by
  induction actions generalizing state with
  | nil =>
      obtain rfl := Option.some.inj hexec
      simp
  | cons action rest ih =>
      obtain ⟨next, hnext, hrest⟩ := Option.bind_eq_some_iff.mp hexec
      have hless := hstep state action next hnext
      have heq := ih hrest
      rw [List.length_cons]
      omega

end Vorze.Transition
