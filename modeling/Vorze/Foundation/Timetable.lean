import Mathlib.Data.Nat.Periodic

/-! # Timetables

A timetable lists the ticks at which its slots end, in order. Repeated over and
over, slot `i` fills the ticks from the end of the slot before it to its own end.
-/

namespace Vorze.Timetable

open Finset

/-- The first slot that ends after the tick. -/
def slot (ends : List Nat) (tick : Nat) : Nat := ends.findIdx (tick < ·)

/-- A slot starts where the one before it ends, the first one at zero. -/
def startOf (ends : List Nat) (i : Nat) : Nat := (0 :: ends).getD i 0

variable {ends : List Nat}

theorem le_of_sorted (hsorted : ends.Pairwise (· ≤ ·)) {i j : Nat} (hij : i ≤ j)
    (hj : j < ends.length) : ends[i] ≤ ends[j] := by
  rcases Nat.lt_or_eq_of_le hij with hlt | rfl
  · exact List.pairwise_iff_getElem.mp hsorted i j (by omega) hj hlt
  · exact Nat.le_refl _

theorem startOf_succ {k : Nat} (hk : k < ends.length) : startOf ends (k + 1) = ends[k] := by
  simp [startOf, List.getElem?_eq_getElem hk]

theorem startOf_le (hsorted : ends.Pairwise (· ≤ ·)) {i : Nat} (hi : i < ends.length) :
    startOf ends i ≤ ends[i] := by
  cases i with
  | zero => simp [startOf]
  | succ k =>
      rw [startOf_succ (Nat.lt_of_succ_lt hi)]
      exact le_of_sorted hsorted (Nat.le_succ k) hi

theorem slot_eq_iff (hsorted : ends.Pairwise (· ≤ ·)) {i : Nat} (hi : i < ends.length)
    (tick : Nat) : slot ends tick = i ↔ startOf ends i ≤ tick ∧ tick < ends[i] := by
  rw [slot, List.findIdx_eq hi, and_comm]
  simp only [decide_eq_true_eq, decide_eq_false_iff_not, Nat.not_lt]
  apply and_congr_left
  intro _
  cases i with
  | zero => simp [startOf]
  | succ k =>
      rw [startOf_succ (Nat.lt_of_succ_lt hi)]
      constructor
      · exact fun hall => hall k (Nat.lt_succ_self k)
      · intro hle j hj
        exact (le_of_sorted hsorted (Nat.le_of_lt_succ hj) (Nat.lt_of_succ_lt hi)).trans hle

/-- The slots before the current one have ended. -/
theorem le_of_lt_slot {tick i : Nat} (hlt : i < slot ends tick) (hi : i < ends.length) :
    ends[i] ≤ tick := by
  simpa using List.not_of_lt_findIdx hlt

/-- Every tick before the last end is in a slot. -/
theorem slot_lt_length {total tick : Nat} (htotal : total ∈ ends) (htick : tick < total) :
    slot ends tick < ends.length :=
  List.findIdx_lt_length_of_exists ⟨total, htotal, by simpa using htick⟩

/-- The slots start over after `total` ticks of `scale` time units. -/
theorem slot_periodic (total scale : Nat) (hscale : 0 < scale) (time : Nat) :
    slot ends ((time + total * scale) / scale % total) = slot ends (time / scale % total) := by
  rw [Nat.add_mul_div_right time total hscale, Nat.add_mod_right]

/-- In each period a slot has as many time units as it has ticks, scaled. -/
theorem card_slot (hsorted : ends.Pairwise (· ≤ ·)) {total scale : Nat}
    (htotal : ∀ tick ∈ ends, tick ≤ total) (hscale : 0 < scale) {i : Nat} (hi : i < ends.length)
    (time : Nat) :
    ((Ico time (time + total * scale)).filter
      fun t => slot ends (t / scale % total) = i).card = (ends[i] - startOf ends i) * scale := by
  rw [Nat.filter_Ico_card_eq_of_periodic _ _ _ fun t => by
      rw [slot_periodic total scale hscale], Nat.count_eq_card_filter_range]
  have hfilter : ((range (total * scale)).filter fun t => slot ends (t / scale % total) = i) =
      Ico (startOf ends i * scale) (ends[i] * scale) := by
    ext t
    rw [mem_filter, mem_range, mem_Ico, ← Nat.div_lt_iff_lt_mul hscale,
      ← Nat.div_lt_iff_lt_mul hscale, ← Nat.le_div_iff_mul_le hscale]
    constructor
    · rintro ⟨hlt, hslot⟩
      rwa [Nat.mod_eq_of_lt hlt, slot_eq_iff hsorted hi] at hslot
    · intro hin
      have hlt : t / scale < total := Nat.lt_of_lt_of_le hin.2 (htotal _ (List.getElem_mem hi))
      rw [Nat.mod_eq_of_lt hlt, slot_eq_iff hsorted hi]
      exact ⟨hlt, hin⟩
  rw [hfilter, Nat.card_Ico, Nat.sub_mul]

end Vorze.Timetable
