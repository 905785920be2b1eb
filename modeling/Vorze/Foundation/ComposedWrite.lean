import Mathlib.Tactic.Common

/-! # Composed writes on one stream

A composed write hands over its data in steps, each of which moves some
non-empty prefix of what is left. The stream does not order the steps of
different writes. If each write starts when all earlier ones have handed over
everything, then the stream carries the data of the writes one after another.
-/

namespace Vorze.ComposedWrite

universe u

variable {α : Type u}

/-- What the stream has carried, and the writes with something left, in the
order they were started. -/
structure Stream (α : Type u) where
  wire : List α := []
  pending : List (Nat × List α) := []
  deriving DecidableEq, Repr

namespace Stream

def start (s : Stream α) (id : Nat) (data : List α) : Stream α :=
  if data.isEmpty then s else { s with pending := s.pending ++ [(id, data)] }

/-- One step of one pending write. -/
def transfer (s : Stream α) (index count : Nat) : Option (Stream α) :=
  match s.pending[index]? with
  | none => none
  | some (id, remaining) =>
      if 0 < count ∧ count ≤ remaining.length then
        some
          { wire := s.wire ++ remaining.take count
            pending :=
              if count = remaining.length then s.pending.eraseIdx index
              else s.pending.set index (id, remaining.drop count) }
      else none

/-- The write has not handed over everything. -/
def Unfinished (s : Stream α) (id : Nat) : Prop := id ∈ s.pending.map Prod.fst

instance (s : Stream α) (id : Nat) : Decidable (s.Unfinished id) :=
  inferInstanceAs (Decidable (_ ∈ _))

/-- The data that was started has been carried in order, up to what one write
has left. -/
structure Serial (s : Stream α) (started : List (List α)) : Prop where
  one_pending : s.pending.length ≤ 1
  carried : s.wire ++ (s.pending.map Prod.snd).flatten = started.flatten

theorem serial_empty : Serial ({} : Stream α) [] where
  one_pending := Nat.zero_le 1
  carried := rfl

/-- A write that starts when nothing is left of the earlier ones keeps the order. -/
theorem Serial.start {s : Stream α} {started : List (List α)} (h : s.Serial started)
    (hidle : s.pending = []) (id : Nat) (data : List α) :
    (s.start id data).Serial (started ++ [data]) := by
  have hcarried := h.carried
  rw [hidle, List.map_nil, List.flatten_nil, List.append_nil] at hcarried
  unfold Stream.start
  by_cases hempty : data = []
  · subst hempty
    exact
      { one_pending := h.one_pending
        carried := by simp [hidle, hcarried] }
  · rw [if_neg (by simpa using hempty)]
    exact
      { one_pending := by simp [hidle]
        carried := by simp [hidle, hcarried] }

/-- The steps of the one pending write keep the order, whatever their sizes. -/
theorem Serial.transfer {s next : Stream α} {started : List (List α)} (h : s.Serial started)
    {index count : Nat} (htransfer : s.transfer index count = some next) :
    next.Serial started := by
  unfold Stream.transfer at htransfer
  split at htransfer
  next => cases htransfer
  next id remaining hget =>
    simp only [Option.ite_none_right_eq_some, Option.some.injEq] at htransfer
    obtain ⟨⟨_, hcount⟩, rfl⟩ := htransfer
    obtain ⟨hindex, hpending⟩ : index = 0 ∧ s.pending = [(id, remaining)] := by
      have hone := h.one_pending
      match hlist : s.pending, hone with
      | [], _ => simp [hlist] at hget
      | [write], _ =>
          rw [hlist] at hget
          have hlt := (List.getElem?_eq_some_iff.mp hget).1
          have hzero : index = 0 := by simpa using hlt
          subst hzero
          exact ⟨rfl, by simpa using hget⟩
    have hcarried := h.carried
    rw [hpending] at hcarried
    subst hindex
    by_cases hwhole : count = remaining.length
    · subst hwhole
      exact
        { one_pending := by simp [hpending]
          carried := by simpa [hpending] using hcarried }
    · exact
        { one_pending := by simp [hpending, hwhole]
          carried := by simpa [hpending, hwhole, List.append_assoc] using hcarried }

theorem Serial.wire_prefix {s : Stream α} {started : List (List α)} (h : s.Serial started) :
    s.wire <+: started.flatten :=
  h.carried ▸ List.prefix_append s.wire _

end Stream

end Vorze.ComposedWrite
