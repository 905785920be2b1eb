import Mathlib.Data.List.Basic
import Vorze.Foundation.Simulation

/-! # Populations

Components of one kind that are started one after another, in the same state,
and then take steps of their own in any order. None of them is affected by the
steps of another one.
-/

namespace Vorze

namespace Population

open Transition

universe uState uAction

inductive Action (Own : Type uAction)
  | start
  | member (id : Nat) (action : Own)

variable {State : Type uState} {Own : Type uAction}

def step (init : State) (memberStep : State → Own → Option State) (members : List State) :
    Action Own → Option (List State)
  | .start => some (members ++ [init])
  | .member id action =>
      (members[id]?).bind fun member => (memberStep member action).map fun next =>
        members.set id next

/-- The actions of one member. -/
def actionsOf (id : Nat) (actions : List (Action Own)) : List Own :=
  actions.filterMap fun
    | .start => none
    | .member other action => if other = id then some action else none

theorem actionsOf_append (id : Nat) (before after : List (Action Own)) :
    actionsOf id (before ++ after) = actionsOf id before ++ actionsOf id after :=
  List.filterMap_append

variable {init : State} {memberStep : State → Own → Option State}

/-- A member of the population is where its own actions lead from the start. -/
def Follows (init : State) (memberStep : State → Own → Option State)
    (done : List (Action Own)) (members : List State) : Prop :=
  (∀ id, members.length ≤ id → actionsOf id done = []) ∧
    ∀ id member, members[id]? = some member →
      exec memberStep init (actionsOf id done) = some member

theorem follows_nil : Follows init memberStep [] [] :=
  ⟨fun _ _ => rfl, fun _ _ hget => by cases hget⟩

/-- A new member has taken no step yet. -/
theorem Follows.start {done : List (Action Own)} {members : List State}
    (h : Follows init memberStep done members) :
    Follows init memberStep (done ++ [.start]) (members ++ [init]) := by
  obtain ⟨hnone, hfollows⟩ := h
  have hdone : ∀ id, actionsOf id (done ++ [Action.start]) = actionsOf id done := by
    intro id
    rw [actionsOf_append]
    exact List.append_nil _
  simp only [Follows, hdone]
  constructor
  · intro id hid
    rw [List.length_append] at hid
    exact hnone id (Nat.le_of_add_right_le hid)
  · intro id member hget
    by_cases hid : id < members.length
    · rw [List.getElem?_append_left hid] at hget
      exact hfollows id member hget
    · have hlast := Nat.le_of_not_lt hid
      rw [List.getElem?_append_right hlast, List.getElem?_singleton] at hget
      split at hget
      · rw [hnone id hlast]
        exact hget
      · cases hget

/-- A step of one member is its own next step and leaves the others where they are. -/
theorem Follows.member {done : List (Action Own)} {members : List State} {id : Nat}
    {action : Own} {member next : State} (h : Follows init memberStep done members)
    (hget : members[id]? = some member) (hstep : memberStep member action = some next) :
    Follows init memberStep (done ++ [.member id action]) (members.set id next) := by
  obtain ⟨hnone, hfollows⟩ := h
  have hlt : id < members.length := (List.getElem?_eq_some_iff.mp hget).1
  have hdone : ∀ other, actionsOf other (done ++ [Action.member id action]) =
      if id = other then actionsOf other done ++ [action] else actionsOf other done := by
    intro other
    rw [actionsOf_append]
    by_cases hid : id = other <;> simp [actionsOf, hid]
  simp only [Follows, hdone, List.length_set]
  constructor
  · intro other hother
    rw [if_neg (Nat.ne_of_lt (Nat.lt_of_lt_of_le hlt hother))]
    exact hnone other hother
  · intro other last hlast
    rw [List.getElem?_set] at hlast
    by_cases hid : id = other
    · subst hid
      rw [if_pos rfl, if_pos hlt] at hlast
      obtain rfl := Option.some.inj hlast
      rw [if_pos rfl]
      exact exec_concat (hfollows id member hget) hstep
    · rw [if_neg hid] at hlast ⊢
      exact hfollows other last hlast

theorem Follows.step {done : List (Action Own)} {members next : List State} {action : Action Own}
    (h : Follows init memberStep done members)
    (hstep : Population.step init memberStep members action = some next) :
    Follows init memberStep (done ++ [action]) next := by
  cases action with
  | start =>
      obtain rfl := Option.some.inj hstep
      exact h.start
  | member id own =>
      obtain ⟨old, hold, hmap⟩ := Option.bind_eq_some_iff.mp hstep
      obtain ⟨new, hnew, rfl⟩ := Option.map_eq_some_iff.mp hmap
      exact h.member hold hnew

theorem Follows.exec {done actions : List (Action Own)} {members final : List State}
    (h : Follows init memberStep done members)
    (hexec : Transition.exec (Population.step init memberStep) members actions = some final) :
    Follows init memberStep (done ++ actions) final := by
  induction actions generalizing done members with
  | nil =>
      obtain rfl := Option.some.inj hexec
      rw [List.append_nil]
      exact h
  | cons action rest ih =>
      obtain ⟨next, hstep, hrest⟩ := Option.bind_eq_some_iff.mp hexec
      rw [List.append_cons]
      exact ih (h.step hstep) hrest

/-- In a population that grew from nothing, every member is where a run of its
own leads. -/
theorem exec_member {actions : List (Action Own)} {members : List State}
    (hexec : exec (Population.step init memberStep) [] actions = some members) {id : Nat}
    {member : State} (hget : members[id]? = some member) :
    exec memberStep init (actionsOf id actions) = some member := by
  have hnil : Follows init memberStep [] ([] : List State) := follows_nil
  have hfollows := hnil.exec hexec
  rw [List.nil_append] at hfollows
  exact hfollows.2 id member hget

end Population

end Vorze
