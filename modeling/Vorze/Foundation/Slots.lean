import Mathlib.Algebra.Ring.Nat
import Mathlib.Data.List.Basic

/-! # Lists with one element taken out or changed -/

namespace Vorze.Slots

variable {α β : Type} {l : List α} {i : Nat} {a b : α}

theorem length_eraseIdx_add_one (hget : l[i]? = some a) : (l.eraseIdx i).length + 1 = l.length := by
  obtain ⟨hlt, -⟩ := List.getElem?_eq_some_iff.mp hget
  rw [List.length_eraseIdx_of_lt hlt]
  omega

theorem eq_of_getElem?_singleton (hget : [a][i]? = some b) : i = 0 ∧ b = a := by
  rw [List.getElem?_singleton, Option.ite_none_right_eq_some, Option.some.injEq] at hget
  exact ⟨hget.1, hget.2.symm⟩

theorem eq_take_append_cons_drop (hget : l[i]? = some a) :
    l = l.take i ++ a :: l.drop (i + 1) := by
  obtain ⟨hlt, rfl⟩ := List.getElem?_eq_some_iff.mp hget
  rw [List.getElem_cons_drop, List.take_append_drop]

theorem set_eq_take_append_cons_drop (hget : l[i]? = some a) :
    l.set i b = l.take i ++ b :: l.drop (i + 1) := by
  obtain ⟨hlt, -⟩ := List.getElem?_eq_some_iff.mp hget
  rw [List.set_eq_take_append_cons_drop, if_pos hlt]

/-- A list made of pieces stays as it is when the new element has the old one's. -/
theorem flatMap_set_of_eq {pieces : α → List β} (hget : l[i]? = some a)
    (hsame : pieces b = pieces a) : (l.set i b).flatMap pieces = l.flatMap pieces := by
  conv_rhs => rw [eq_take_append_cons_drop hget]
  rw [set_eq_take_append_cons_drop hget, List.flatMap_append, List.flatMap_append,
    List.flatMap_cons, List.flatMap_cons, hsame]

/-- A list made of pieces gets what the new piece has more than the old one. -/
theorem flatMap_set_perm {pieces : α → List β} {more : List β} (hget : l[i]? = some a)
    (hb : pieces b = pieces a ++ more) :
    ((l.set i b).flatMap pieces).Perm (l.flatMap pieces ++ more) := by
  have hold : l.flatMap pieces =
      (l.take i).flatMap pieces ++ (pieces a ++ (l.drop (i + 1)).flatMap pieces) := by
    conv_lhs => rw [eq_take_append_cons_drop hget]
    rw [List.flatMap_append, List.flatMap_cons]
  rw [hold, set_eq_take_append_cons_drop hget, List.flatMap_append, List.flatMap_cons, hb,
    List.append_assoc, List.append_assoc, List.append_assoc]
  exact (List.perm_append_comm.append_left _).append_left _

/-- A sum changes by what the new element weighs more than the old one. -/
theorem sum_map_set (weight : α → Nat) (hget : l[i]? = some a) :
    ((l.set i b).map weight).sum + weight a = (l.map weight).sum + weight b := by
  have hold := congrArg (fun l => (l.map weight).sum) (eq_take_append_cons_drop hget)
  have hnew := congrArg (fun l => (l.map weight).sum) (set_eq_take_append_cons_drop (b := b) hget)
  simp only [List.map_append, List.map_cons, List.sum_append_nat, List.sum_cons] at hold hnew
  omega

end Vorze.Slots
