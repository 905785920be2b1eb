import Mathlib.Tactic.Common

/-! # The search of `std::upper_bound`

The halving loop of the standard library on a sequence, and what it finds when
the elements after the searched value stand behind those that are not.
-/

namespace Vorze.UpperBound

universe uElement

variable {Element : Type uElement}

/-- The loop over the `count` elements from `first` on. `after` says that an
element comes after the searched value. The first argument bounds the passes. -/
def loop (after : Element → Bool) (l : List Element) : Nat → Nat → Nat → Nat
  | 0, first, _ => first
  | fuel + 1, first, count =>
      if 0 < count then
        let step := count / 2
        match l[first + step]? with
        | some element =>
            if after element then loop after l fuel first step
            else loop after l fuel (first + step + 1) (count - (step + 1))
        | none => first -- the range ends behind the sequence
      else first

/-- The place of the first element that comes after the value, or the end. -/
def upperBound (less : Element → Element → Bool) (l : List Element) (value : Element) : Nat :=
  loop (less value) l l.length 0 l.length

variable {after : Element → Bool} {l : List Element}

/-- The place that divides a sequence is the first one with an element behind it. -/
theorem findIdx_eq_of_divides {place : Nat} (hplace : place ≤ l.length)
    (hbefore : ∀ i (hi : i < l.length), i < place → after l[i] = false)
    (hafter : ∀ i (hi : i < l.length), place ≤ i → after l[i] = true) :
    l.findIdx after = place := by
  rcases Nat.lt_or_ge place l.length with hlt | hge
  · rw [List.findIdx_eq hlt]
    exact ⟨hafter place hlt (Nat.le_refl _), fun j hj => hbefore j (Nat.lt_trans hj hlt) hj⟩
  · rw [Nat.le_antisymm hplace hge, List.findIdx_eq_length]
    intro element hmem
    obtain ⟨i, hi, rfl⟩ := List.getElem_of_mem hmem
    exact hbefore i hi (Nat.lt_of_lt_of_le hi hge)

/-- Each pass keeps the place in the range that is left. -/
theorem loop_eq_findIdx (hsorted : l.Pairwise fun a b => after a = true → after b = true)
    {fuel first count : Nat} (hfuel : count ≤ fuel) (hrange : first + count ≤ l.length)
    (hbefore : ∀ i (hi : i < l.length), i < first → after l[i] = false)
    (hafter : ∀ i (hi : i < l.length), first + count ≤ i → after l[i] = true) :
    loop after l fuel first count = l.findIdx after := by
  have hmono : ∀ i j (hi : i < l.length) (hj : j < l.length), i ≤ j →
      after l[i] = true → after l[j] = true := by
    intro i j hi hj hij
    rcases Nat.lt_or_eq_of_le hij with hlt | rfl
    · exact List.pairwise_iff_getElem.mp hsorted i j hi hj hlt
    · exact id
  induction fuel generalizing first count with
  | zero =>
      obtain rfl : count = 0 := by omega
      exact (findIdx_eq_of_divides hrange hbefore hafter).symm
  | succ fuel ih =>
      unfold loop
      by_cases hcount : 0 < count
      · have hmid : first + count / 2 < l.length := by omega
        rw [if_pos hcount]
        simp only [List.getElem?_eq_getElem hmid]
        by_cases hmiddle : after l[first + count / 2] = true
        · -- the middle comes after the value, and so does all that follows it
          rw [if_pos hmiddle]
          refine ih (by omega) (by omega) hbefore ?_
          intro i hi hge
          exact hmono _ i hmid hi hge hmiddle
        · rw [if_neg hmiddle]
          refine ih (by omega) (by omega) ?_ ?_
          · intro i hi hlt
            by_contra hin
            exact hmiddle (hmono i _ hi hmid (by omega) (by simpa using hin))
          · intro i hi hge
            exact hafter i hi (by omega)
      · obtain rfl : count = 0 := by omega
        rw [if_neg hcount]
        exact (findIdx_eq_of_divides hrange hbefore hafter).symm

theorem upperBound_eq_findIdx {less : Element → Element → Bool} {value : Element}
    (hsorted : l.Pairwise fun a b => less value a = true → less value b = true) :
    upperBound less l value = l.findIdx (less value) := by
  apply loop_eq_findIdx hsorted (Nat.le_refl _) (by omega)
  · intro i hi hlt
    exact absurd hlt (Nat.not_lt_zero i)
  · intro i hi hge
    exact absurd hge (by omega)

end Vorze.UpperBound
