import Mathlib.Tactic.Common
import Mathlib.Data.List.Infix

/-! # Words between separators

Splitting a list at every separator and keeping empty pieces gives exactly the
pieces that stand between two separators or at an end.
-/

namespace Vorze.Words

variable {α : Type*}

/-- The word stands in the list, free of separators and with one or the end of
the list on either side. -/
def Delimited (sep : α) (list word : List α) : Prop :=
  sep ∉ word ∧ ∃ before after, list = before ++ word ++ after ∧
    (before = [] ∨ before.getLast? = some sep) ∧ (after = [] ∨ after.head? = some sep)

variable {sep : α} {list word : List α}

/-- Putting a piece and a separator in front keeps a word delimited. -/
theorem Delimited.prepend (h : Delimited sep list word) (front : List α) :
    Delimited sep (front ++ sep :: list) word := by
  obtain ⟨hsep, before, after, rfl, hbefore, hafter⟩ := h
  refine ⟨hsep, front ++ sep :: before, after, by simp, Or.inr ?_, hafter⟩
  rw [List.getLast?_append_of_ne_nil _ (by simp)]
  rcases hbefore with rfl | hbefore
  · rfl
  · rw [List.getLast?_cons, hbefore]
    rfl

/-- Two places of a separator in one list are the same, or one comes after the other. -/
theorem append_cons_eq_cases {pre post front back : List α}
    (h : pre ++ sep :: post = front ++ sep :: back) :
    (front = pre ∧ back = post) ∨
      (∃ middle, front = pre ++ sep :: middle ∧ post = middle ++ sep :: back) ∨
      ∃ middle, pre = front ++ sep :: middle ∧ back = middle ++ sep :: post := by
  rcases List.append_eq_append_iff.mp h with ⟨middle, hfront, hmiddle⟩ | ⟨middle, hpre, hmiddle⟩
  · cases middle with
    | nil =>
        rw [List.append_nil] at hfront
        exact Or.inl ⟨hfront, (List.cons.inj hmiddle).2.symm⟩
    | cons x middle =>
        obtain ⟨rfl, hpost⟩ := List.cons.inj hmiddle
        exact Or.inr (Or.inl ⟨middle, hfront, hpost⟩)
  · cases middle with
    | nil =>
        rw [List.append_nil] at hpre
        exact Or.inl ⟨hpre.symm, (List.cons.inj hmiddle).2⟩
    | cons x middle =>
        obtain ⟨rfl, hback⟩ := List.cons.inj hmiddle
        exact Or.inr (Or.inr ⟨middle, hpre, hback⟩)

variable [DecidableEq α]

theorem delimited_of_mem_splitOn (h : word ∈ list.splitOn sep) : Delimited sep list word := by
  -- the part after the first separator is shorter
  induction hlength : list.length using Nat.strong_induction_on generalizing list with
  | _ length ih =>
  by_cases hsep : sep ∈ list
  · obtain ⟨front, rest, rfl, hfront⟩ := List.eq_append_cons_of_mem hsep
    rw [List.splitOn_append_cons_self_of_not_mem hfront, List.mem_cons] at h
    rcases h with rfl | hrest
    · exact ⟨hfront, [], sep :: rest, by simp, Or.inl rfl, Or.inr rfl⟩
    · refine (ih rest.length ?_ hrest rfl).prepend front
      simp only [List.length_append, List.length_cons] at hlength
      omega
  · rw [List.splitOn_eq_singleton hsep, List.mem_singleton] at h
    subst h
    exact ⟨hsep, [], [], by simp, Or.inl rfl, Or.inl rfl⟩

theorem mem_splitOn_of_delimited (h : Delimited sep list word) : word ∈ list.splitOn sep := by
  obtain ⟨hsep, before, after, rfl, hbefore, hafter⟩ := h
  have hlast : word ∈ (word ++ after).splitOn sep := by
    rcases hafter with rfl | hafter
    · rw [List.append_nil, List.splitOn_eq_singleton hsep]
      exact List.mem_cons_self
    · obtain ⟨rest, rfl⟩ := List.head?_eq_some_iff.mp hafter
      rw [List.splitOn_append_cons_self_of_not_mem hsep]
      exact List.mem_cons_self
  rcases hbefore with rfl | hbefore
  · exact hlast
  · obtain ⟨front, rfl⟩ := List.getLast?_eq_some_iff.mp hbefore
    rw [List.append_assoc, List.append_assoc, List.singleton_append,
      List.splitOn_append_cons_self]
    exact List.mem_append_right _ hlast

theorem mem_splitOn_iff : word ∈ list.splitOn sep ↔ Delimited sep list word :=
  ⟨delimited_of_mem_splitOn, mem_splitOn_of_delimited⟩

/-- A list has an empty piece when it is empty, begins or ends with a separator,
or has two in a row. -/
theorem nil_mem_splitOn_iff :
    [] ∈ list.splitOn sep ↔
      list = [] ∨ list.head? = some sep ∨ list.getLast? = some sep ∨ [sep, sep] <:+: list := by
  rw [mem_splitOn_iff]
  constructor
  · intro h
    obtain ⟨-, before, after, rfl, hbefore, hafter⟩ := h
    rw [List.append_nil]
    rcases hbefore with rfl | hbefore
    · rcases hafter with rfl | hafter
      · exact Or.inl rfl
      · exact Or.inr (Or.inl hafter)
    · rcases hafter with rfl | hafter
      · exact Or.inr (Or.inr (Or.inl (by rwa [List.append_nil])))
      · obtain ⟨front, rfl⟩ := List.getLast?_eq_some_iff.mp hbefore
        obtain ⟨rest, rfl⟩ := List.head?_eq_some_iff.mp hafter
        exact Or.inr (Or.inr (Or.inr ⟨front, rest, by simp⟩))
  · intro h
    refine ⟨List.not_mem_nil, ?_⟩
    rcases h with rfl | hfirst | hlast | ⟨front, rest, rfl⟩
    · exact ⟨[], [], rfl, Or.inl rfl, Or.inl rfl⟩
    · exact ⟨[], list, rfl, Or.inl rfl, Or.inr hfirst⟩
    · exact ⟨list, [], by simp, Or.inr hlast, Or.inl rfl⟩
    · exact ⟨front ++ [sep], sep :: rest, by simp, Or.inr (by simp), Or.inr rfl⟩

end Vorze.Words
