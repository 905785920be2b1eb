import Vorze.Foundation.Transition

/-! # A waiting line that can be passed

Items are accepted one after another. Each either joins the line or is handed
over at once, past whatever waits. The line itself is served in its order. Items
are handed over in the order in which they were accepted exactly when none
passed a line that was not empty.
-/

namespace Vorze

universe uItem

variable {Item : Type uItem}

structure Line (Item : Type uItem) where
  accepted : List Item
  handed : List Item
  queued : List Item

namespace Line

inductive Move (Item : Type uItem)
  | join (item : Item)
  | pass (item : Item)
  | serve
  | rest

def move (line : Line Item) : Move Item → Option (Line Item)
  | .join item =>
      some { line with accepted := line.accepted ++ [item], queued := line.queued ++ [item] }
  | .pass item =>
      some { line with accepted := line.accepted ++ [item], handed := line.handed ++ [item] }
  | .serve =>
      match line.queued with
      | [] => none
      | item :: queued => some { line with handed := line.handed ++ [item], queued := queued }
  | .rest => some line

/-- What was handed over is the first part of what was accepted. -/
def InOrder (line : Line Item) : Prop := line.handed <+: line.accepted

/-- Nothing passed the line so far. -/
def Waited (line : Line Item) : Prop := line.accepted = line.handed ++ line.queued

/-- Something passed it, and the order is lost. -/
def Passed (line : Line Item) : Prop :=
  ¬line.InOrder ∧ line.handed.length + line.queued.length = line.accepted.length

variable {line next : Line Item}

/-- Serving takes the first of the line. -/
theorem move_serve (hmove : line.move .serve = some next) :
    ∃ item queued, line.queued = item :: queued ∧
      next = { line with handed := line.handed ++ [item], queued := queued } := by
  cases hqueued : line.queued with
  | nil => simp [move, hqueued] at hmove
  | cons item queued =>
      simp only [move, hqueued, Option.some.injEq] at hmove
      exact ⟨item, queued, rfl, hmove.symm⟩

theorem Waited.inOrder (h : line.Waited) : line.InOrder := ⟨line.queued, h.symm⟩

/-- A move that passes nobody keeps the order. -/
theorem Waited.move {m : Move Item} (h : line.Waited)
    (hm : ∀ item, m = .pass item → line.queued = []) (hmove : line.move m = some next) :
    next.Waited := by
  unfold Waited at h ⊢
  cases m with
  | join item =>
      obtain rfl := Option.some.inj hmove
      simp [h]
  | pass item =>
      obtain rfl := Option.some.inj hmove
      simp [h, hm item rfl]
  | serve =>
      obtain ⟨item, queued, hqueued, rfl⟩ := move_serve hmove
      simp [h, hqueued]
  | rest =>
      obtain rfl := Option.some.inj hmove
      exact h

/-- A new item that passes a line is handed over before the first one in it. -/
theorem Waited.pass {item : Item} (h : line.Waited) (hnew : item ∉ line.queued)
    (hqueued : line.queued ≠ []) (hmove : line.move (.pass item) = some next) : next.Passed := by
  obtain rfl := Option.some.inj hmove
  have hlength : line.handed.length + line.queued.length = line.accepted.length := by
    rw [h, List.length_append]
  refine ⟨?_, by simp only [List.length_append]; omega⟩
  intro horder
  obtain ⟨first, queued, hfirst⟩ := List.exists_cons_of_ne_nil hqueued
  rw [InOrder, show line.accepted = line.handed ++ line.queued from h, hfirst, List.append_assoc,
    List.prefix_append_right_inj, List.cons_append, List.cons_prefix_cons] at horder
  rw [hfirst, horder.1] at hnew
  exact hnew List.mem_cons_self

/-- A lost order is never found again. -/
theorem Passed.move {m : Move Item} (h : line.Passed) (hmove : line.move m = some next) :
    next.Passed := by
  obtain ⟨hlost, hlength⟩ := h
  -- both lists only grow, and what was handed over is never longer than what was accepted
  have hgrow : ∀ {handed accepted : List Item}, line.handed <+: handed → handed <+: accepted →
      line.accepted <+: accepted → False := by
    intro handed accepted hhanded horder haccepted
    exact hlost (List.prefix_of_prefix_length_le (hhanded.trans horder) haccepted (by omega))
  cases m with
  | join item =>
      obtain rfl := Option.some.inj hmove
      refine ⟨fun horder => hgrow (List.prefix_refl _) horder (List.prefix_append _ _), ?_⟩
      simp only [List.length_append]
      omega
  | pass item =>
      obtain rfl := Option.some.inj hmove
      refine ⟨fun horder =>
        hgrow (List.prefix_append _ _) horder (List.prefix_append _ _), ?_⟩
      simp only [List.length_append]
      omega
  | serve =>
      obtain ⟨item, queued, hqueued, rfl⟩ := move_serve hmove
      refine ⟨fun horder => hgrow (List.prefix_append _ _) horder (List.prefix_refl _), ?_⟩
      simp only [hqueued, List.length_cons, List.length_append, List.length_nil] at hlength ⊢
      omega
  | rest =>
      obtain rfl := Option.some.inj hmove
      exact ⟨hlost, hlength⟩

end Line

end Vorze
