import Vorze.Foundation.Timetable
import Vorze.Foundation.UpperBound
import Vorze.Text

/-! # The schedule of an action

`ActionSession::getNowAction` divides the time since the start into ticks, takes
them modulo the length of the action and searches the item that is on. The
quotient is signed and the ticks are unsigned.
-/

namespace Vorze

/-- The size of `size_t`. -/
inductive SizeT
  | bits32
  | bits64
  deriving DecidableEq, Repr

def SizeT.width : SizeT → Nat
  | .bits32 => 32
  | .bits64 => 64

structure ActionItem where
  direct : UInt8
  speed : UInt8
  /-- the tick at which the item ends -/
  timeTick : Nat
  deriving DecidableEq, Repr

namespace ActionItem

/-- `operator<`. -/
def less (a b : ActionItem) : Bool := a.timeTick < b.timeTick

/-- Nothing reads the members that `createTimeTickObject` leaves unset. -/
def createTimeTickObject (timeTick : Nat) : ActionItem where
  direct := 0
  speed := 0
  timeTick := timeTick

end ActionItem

structure ActionInfo where
  MsPerTick : Int := 1000
  ops : List ActionItem
  deriving DecidableEq, Repr

namespace ActionSession

/-! ## The function -/

/-- The conversion of a `long long` to `size_t`. -/
def toSizeT (size : SizeT) (value : Int) : Nat := (value % 2 ^ size.width).toNat

/-- `quotient % timeTick`. A `size_t` of 32 bits converts to `long long`; one of
64 bits makes the quotient convert to unsigned. -/
def remainder (size : SizeT) (quotient : Int) (timeTick : Nat) : Int :=
  match size with
  | .bits32 => quotient.tmod timeTick
  | .bits64 => toSizeT size quotient % timeTick

/-- The tick that is searched. There is none for an empty `ops` or a division by zero. -/
def nowTick (size : SizeT) (action : ActionInfo) (dt : Int) : Option Nat :=
  match action.ops.getLast? with
  | some last =>
      if action.MsPerTick = 0 ∨ last.timeTick = 0 then none
      else some (toSizeT size (remainder size (dt.tdiv action.MsPerTick) last.timeTick))
  | none => none

/-- Way 1: the place of `nIt`. -/
def search (ops : List ActionItem) (tick : Nat) : Nat :=
  UpperBound.upperBound ActionItem.less ops (.createTimeTickObject tick)

/-- Way 2, the loop that is commented out. -/
def scan (tick : Nat) : List ActionItem → Nat
  | [] => 0
  | n :: rest => if n.timeTick > tick then 0 else scan tick rest + 1

/-- The place of the item that is on, or the end. -/
def nowIndex (size : SizeT) (action : ActionInfo) (dt : Int) : Option Nat :=
  (nowTick size action dt).map (search action.ops)

/-- `getNowAction`, with the milliseconds since the start. -/
def getNowAction (size : SizeT) (action : ActionInfo) (dt : Int) :
    Option (Except Bytes ActionItem) :=
  if dt < 0 then
    some (.error (text "ActionSession::getNowAction() error : (dt.count() < 0)"))
  else
    (nowIndex size action dt).map fun nIt =>
      match action.ops[nIt]? with
      | some item => .ok item
      | none =>
          .error (text "ActionSession::getNowAction() error : (nIt == action->ops.end())")

/-! ## The schedule -/

/-- The ticks of the items. -/
def ticks (action : ActionInfo) : List Nat := action.ops.map ActionItem.timeTick

/-- The tick of the last item is how long all items are. -/
def total (action : ActionInfo) : Nat := (ticks action).getLastD 0

/-- What the type asks of an action, and the ranges of its members. -/
structure Valid (size : SizeT) (action : ActionInfo) : Prop where
  sorted : (ticks action).Pairwise (· ≤ ·)
  total_pos : 1 ≤ total action
  msPerTick_pos : 1 ≤ action.MsPerTick
  msPerTick_lt : action.MsPerTick < 2 ^ 63
  timeTick_lt : ∀ tick ∈ ticks action, tick < 2 ^ size.width

/-- The item is the one to play: the first that ends after the tick in exact integers. -/
structure Plays (size : SizeT) (action : ActionInfo) (dt : Int) (i : Nat) (item : ActionItem) :
    Prop where
  answer : getNowAction size action dt = some (.ok item)
  index : nowIndex size action dt = some i
  place : action.ops[i]? = some item
  scan : scan (dt / action.MsPerTick % total action).toNat action.ops = i
  late : dt / action.MsPerTick % total action < item.timeTick
  early : ∀ j < i, ∀ other, action.ops[j]? = some other →
    other.timeTick ≤ dt / action.MsPerTick % total action

variable {size : SizeT} {action : ActionInfo}

theorem scan_eq_findIdx (tick : Nat) (ops : List ActionItem) :
    scan tick ops = ops.findIdx fun item => tick < item.timeTick := by
  induction ops with
  | nil => rfl
  | cons n rest ih =>
      rw [scan, List.findIdx_cons, ih]
      by_cases hlate : tick < n.timeTick <;> simp [hlate]

/-- Both ways find the slot of the timetable. -/
theorem search_eq_slot (hsorted : (ticks action).Pairwise (· ≤ ·)) (tick : Nat) :
    search action.ops tick = Timetable.slot (ticks action) tick := by
  rw [search, UpperBound.upperBound_eq_findIdx, Timetable.slot, ticks, List.findIdx_map]
  · rfl
  · rw [ticks, List.pairwise_map] at hsorted
    refine hsorted.imp ?_
    intro a b hle hlate
    simp only [ActionItem.less, decide_eq_true_eq] at hlate ⊢
    omega

theorem scan_eq_slot (tick : Nat) :
    scan tick action.ops = Timetable.slot (ticks action) tick := by
  rw [scan_eq_findIdx, Timetable.slot, ticks, List.findIdx_map]
  rfl

/-! ## The arithmetic -/

theorem toSizeT_natCast {n : Nat} (hn : n < 2 ^ size.width) : toSizeT size n = n := by
  have hlt : (n : Int) < 2 ^ size.width := by exact_mod_cast hn
  rw [toSizeT, Int.emod_eq_of_lt (Int.natCast_nonneg n) hlt, Int.toNat_natCast]

/-- On values that are not negative both sizes of `size_t` give the exact remainder. -/
theorem remainder_natCast {q : Nat} (hq : q < 2 ^ 63) (timeTick : Nat) :
    remainder size q timeTick = (q % timeTick : Nat) := by
  cases size with
  | bits32 => exact (Int.ofNat_tmod q timeTick).symm
  | bits64 =>
      have hwidth : q < 2 ^ SizeT.bits64.width := Nat.lt_trans hq (by decide)
      rw [remainder, toSizeT_natCast hwidth, Int.natCast_emod]

theorem Valid.last (h : Valid size action) :
    ∃ last, action.ops.getLast? = some last ∧ last.timeTick = total action := by
  cases hlast : action.ops.getLast? with
  | none =>
      have hops : action.ops = [] := List.getLast?_eq_none_iff.mp hlast
      have hpos := h.total_pos
      simp [total, ticks, hops] at hpos
  | some last =>
      refine ⟨last, rfl, ?_⟩
      rw [total, ticks, List.getLastD_eq_getLast?, List.getLast?_map, hlast]
      rfl

theorem Valid.total_mem (h : Valid size action) : total action ∈ ticks action := by
  obtain ⟨last, hlast, htick⟩ := h.last
  rw [← htick]
  exact List.mem_map_of_mem (List.mem_of_getLast? hlast)

theorem Valid.le_total (h : Valid size action) : ∀ tick ∈ ticks action, tick ≤ total action := by
  intro tick htick
  obtain ⟨i, hi, rfl⟩ := List.getElem_of_mem htick
  have hlast : total action = (ticks action)[(ticks action).length - 1] := by
    rw [total, List.getLastD_eq_getLast?, List.getLast?_eq_getElem?,
      List.getElem?_eq_getElem (by omega)]
    rfl
  rw [hlast]
  exact Timetable.le_of_sorted h.sorted (by omega) (by omega)

/-- The tick is that of exact integers. -/
theorem Valid.nowTick_eq (h : Valid size action) {t m : Nat} (hm : action.MsPerTick = m)
    (ht : t < 2 ^ 63) : nowTick size action t = some (t / m % total action) := by
  obtain ⟨last, hlast, htick⟩ := h.last
  have hpos := h.total_pos
  have hmpos : 1 ≤ m := by
    have := h.msPerTick_pos
    omega
  have hbound : t / m % total action < 2 ^ size.width :=
    Nat.lt_trans (Nat.mod_lt _ hpos) (h.timeTick_lt _ h.total_mem)
  have hzero : ¬(action.MsPerTick = 0 ∨ last.timeTick = 0) := by
    rw [htick]
    omega
  rw [nowTick, hlast]
  dsimp only
  rw [if_neg hzero, hm, htick, Int.natCast_tdiv_eq_ediv, ← Int.natCast_ediv,
    remainder_natCast (Nat.lt_of_le_of_lt (Nat.div_le_self t m) ht), toSizeT_natCast hbound]

theorem Valid.nowIndex_eq (h : Valid size action) {t m : Nat} (hm : action.MsPerTick = m)
    (ht : t < 2 ^ 63) :
    nowIndex size action t = some (Timetable.slot (ticks action) (t / m % total action)) := by
  rw [nowIndex, h.nowTick_eq hm ht, Option.map_some, search_eq_slot h.sorted]

theorem Valid.slot_lt_length (h : Valid size action) (tick : Nat) :
    Timetable.slot (ticks action) (tick % total action) < action.ops.length := by
  have hlt := Timetable.slot_lt_length h.total_mem (Nat.mod_lt tick h.total_pos)
  rwa [ticks, List.length_map] at hlt

/-- An item is always on, and it is the right one. -/
theorem Valid.plays (h : Valid size action) {t m : Nat} (hm : action.MsPerTick = m)
    (ht : t < 2 ^ 63) : ∃ i item, Plays size action t i item := by
  have hindex := h.nowIndex_eq hm ht
  have hi := h.slot_lt_length (t / m)
  have htick : (t : Int) / action.MsPerTick % total action = (t / m % total action : Nat) := by
    rw [hm, ← Int.natCast_ediv, ← Int.natCast_emod]
  generalize hn : t / m % total action = tick at hindex hi htick
  have hslot : Timetable.slot (ticks action) tick < (ticks action).length := by
    rwa [ticks, List.length_map]
  have hlate : tick < (ticks action)[Timetable.slot (ticks action) tick] :=
    ((Timetable.slot_eq_iff h.sorted hslot tick).mp rfl).2
  exact ⟨Timetable.slot (ticks action) tick, action.ops[Timetable.slot (ticks action) tick],
    { answer := by
        rw [getNowAction, if_neg (Int.not_lt.mpr (Int.natCast_nonneg t)), hindex]
        simp [List.getElem?_eq_getElem hi]
      index := hindex
      place := List.getElem?_eq_getElem hi
      scan := by rw [htick, Int.toNat_natCast, scan_eq_slot]
      late := by
        rw [htick]
        simpa [ticks] using hlate
      early := by
        intro j hj other hother
        obtain ⟨hlt, rfl⟩ := List.getElem?_eq_some_iff.mp hother
        have hle := Timetable.le_of_lt_slot hj (by rwa [ticks, List.length_map])
        rw [htick]
        simpa [ticks] using hle }⟩

theorem Valid.nowIndex_periodic (h : Valid size action) {t m : Nat} (hm : action.MsPerTick = m)
    (ht : t + total action * m < 2 ^ 63) :
    nowIndex size action (t + total action * m : Nat) = nowIndex size action t := by
  have hmpos : 0 < m := by
    have := h.msPerTick_pos
    omega
  rw [h.nowIndex_eq hm ht, h.nowIndex_eq hm (by omega), Timetable.slot_periodic _ _ hmpos]

/-- The milliseconds of one period in which an item is on. -/
theorem Valid.card_nowIndex (h : Valid size action) {m : Nat} (hm : action.MsPerTick = m)
    {time : Nat} (htime : time + total action * m ≤ 2 ^ 63) {i : Nat}
    (hi : i < (ticks action).length) :
    ((Finset.Ico time (time + total action * m)).filter
        fun t : Nat => nowIndex size action t = some i).card =
      ((ticks action)[i] - Timetable.startOf (ticks action) i) * m := by
  have hmpos : 0 < m := by
    have := h.msPerTick_pos
    omega
  rw [← Timetable.card_slot h.sorted h.le_total hmpos hi time]
  congr 1
  apply Finset.filter_congr
  intro t ht
  rw [h.nowIndex_eq hm (Nat.lt_of_lt_of_le (Finset.mem_Ico.mp ht).2 htime), Option.some_inj]

/-- For every elapsed time that a `long long` holds the item of the timetable is
played, as the linear scan would find it. The schedule starts over after
`T * MsPerTick` milliseconds, and in each period item `i` has its own share. -/
theorem getNowAction_schedule (h : Valid size action) :
    (∀ dt, 0 ≤ dt → dt < 2 ^ 63 → ∃ i item, Plays size action dt i item) ∧
    (∀ dt, 0 ≤ dt → dt + total action * action.MsPerTick < 2 ^ 63 →
      nowIndex size action (dt + total action * action.MsPerTick) = nowIndex size action dt ∧
      getNowAction size action (dt + total action * action.MsPerTick) =
        getNowAction size action dt) ∧
    ∀ i item, action.ops[i]? = some item → ∀ time : Nat,
      time + total action * action.MsPerTick ≤ 2 ^ 63 →
      (((Finset.Ico time (time + total action * action.MsPerTick.toNat)).filter
          fun t : Nat => nowIndex size action t = some i).card : Int) =
        (item.timeTick - Timetable.startOf (ticks action) i) * action.MsPerTick := by
  obtain ⟨m, hm⟩ := Int.eq_ofNat_of_zero_le (Int.le_trans (by decide) h.msPerTick_pos)
  refine ⟨?_, ?_, ?_⟩
  · intro dt hzero hlong
    obtain ⟨t, rfl⟩ := Int.eq_ofNat_of_zero_le hzero
    exact h.plays hm (by exact_mod_cast hlong)
  · intro dt hzero hlong
    obtain ⟨t, rfl⟩ := Int.eq_ofNat_of_zero_le hzero
    rw [hm] at hlong ⊢
    have hperiod := h.nowIndex_periodic (t := t) hm (by exact_mod_cast hlong)
    push_cast at hperiod
    have hneg : ¬((t : Int) + total action * m < 0) :=
      Int.not_lt.mpr (by exact_mod_cast Nat.zero_le (t + total action * m))
    refine ⟨hperiod, ?_⟩
    rw [getNowAction, getNowAction, if_neg hneg, if_neg (by omega), hperiod]
  · intro i item hitem time hlong
    rw [hm] at hlong ⊢
    obtain ⟨hlt, rfl⟩ := List.getElem?_eq_some_iff.mp hitem
    have hi : i < (ticks action).length := by rwa [ticks, List.length_map]
    have hle := Timetable.startOf_le h.sorted hi
    rw [Int.toNat_natCast, h.card_nowIndex hm (by exact_mod_cast hlong) hi, Nat.cast_mul,
      Nat.cast_sub hle]
    simp [ticks]

/-- Three items, of which the second has no ticks of its own. -/
def threeItems : ActionInfo where
  ops := [⟨1, 50, 2⟩, ⟨0, 20, 2⟩, ⟨1, 0, 5⟩]

theorem valid_threeItems : Valid .bits32 threeItems where
  sorted := by decide
  total_pos := by decide
  msPerTick_pos := by decide
  msPerTick_lt := by decide
  timeTick_lt := by decide

example : getNowAction .bits64 threeItems 7999 = some (.ok ⟨1, 0, 5⟩) := by decide

theorem getNowAction_schedule_threeItems :
    (∃ i item, Plays .bits32 threeItems 7500 i item) ∧
      nowIndex .bits32 threeItems (500 + 5 * 1000) = nowIndex .bits32 threeItems 500 ∧
      (((Finset.Ico 700 (700 + 5 * 1000)).filter
        fun t : Nat => nowIndex .bits32 threeItems t = some 2).card : Int) = (5 - 2) * 1000 := by
  obtain ⟨hplays, hperiod, hshare⟩ := getNowAction_schedule valid_threeItems
  refine ⟨hplays 7500 (by decide) (by decide), ?_, ?_⟩
  · exact (hperiod 500 (by decide) (by decide)).1
  · exact hshare 2 ⟨1, 0, 5⟩ rfl 700 (by decide)

end ActionSession

end Vorze
