import Vorze.Serial.Operations
import Mathlib.Data.List.Nodup
import Mathlib.Data.List.Perm.Basic

/-! # The data of sends in flight

A send puts a copy of its data in `sendingData`, which the write or the queued
handler holds until it is through. A queued send that finds the port closed
returns before it erases its entry, and nothing refers to the entry afterwards.
-/

namespace Vorze.SerialPortSession

/-- The entries that a queued handler or a write in flight still holds. -/
def pending (s : SerialPortSession) : List Nat :=
  s.handlers.filterMap entry ++ s.writing.map AsyncWrite.ptr

/-- The entries that were there before a turn, or were added in it, and are gone after it. -/
def erased (s next : SerialPortSession) : List Nat :=
  (s.sendingData ++ List.range' s.nextPtr (next.nextPtr - s.nextPtr)).filter
    (· ∉ next.sendingData)

/-- The entries erased in the course of a run. -/
def erasures : SerialPortSession → List Turn → List Nat
  | _, [] => []
  | s, t :: rest =>
      match s.turn t with
      | some next => erased s next ++ erasures next rest
      | none => []

/-- The entries are those of the sends that are not through, one each, and every
other entry ever made was erased once. -/
structure Bookkept (erased : List Nat) (s : SerialPortSession) : Prop where
  entries : s.sendingData.Perm s.pending
  once : (erased ++ s.sendingData).Perm (List.range s.nextPtr)
  empty : s.pending = [] → s.sendingData = []

/-- The entry that is left behind by a queued send on a closed port. -/
def leftBehind (s : SerialPortSession) : Turn → List Nat
  | .own (.handler index _) =>
      if s.isOpen then [] else ((s.handlers[index]?).bind entry).toList
  | _ => []

/-- A queued send runs only while the port is open. -/
def FindsPortOpen (s : SerialPortSession) (t : Turn) : Prop :=
  match t with
  | .own (.handler index _) => ((s.handlers[index]?).bind entry).isSome → s.isOpen = true
  | _ => True

instance (s : SerialPortSession) (t : Turn) : Decidable (FindsPortOpen s t) := by
  unfold FindsPortOpen
  split <;> infer_instance

theorem leftBehind_eq_nil_iff (s : SerialPortSession) (t : Turn) :
    s.leftBehind t = [] ↔ s.FindsPortOpen t := by
  unfold leftBehind FindsPortOpen
  split
  next index answers =>
    cases s.isOpen with
    | true => simp
    | false => cases (s.handlers[index]?).bind entry <;> simp
  next => simp

variable {s next : SerialPortSession}

/-! ## Entries that are gone -/

/-- A turn adds entries under new names and erases some. -/
theorem Now.sendingData (h : Now s next) :
    next.sendingData = s.sendingData ∧ s.nextPtr ≤ next.nextPtr := by
  cases h with
  | report => exact ⟨rfl, Nat.le_refl _⟩
  | write _ _ _ _ _ hptr | close _ _ _ hptr | initFails _ _ _ _ hptr | initOpens _ _ _ _ _ hptr =>
      exact ⟨rfl, hptr⟩

theorem Called.sendingData (h : Called s next) :
    next.sendingData.Sublist
        (s.sendingData ++ List.range' s.nextPtr (next.nextPtr - s.nextPtr)) ∧
      s.nextPtr ≤ next.nextPtr := by
  cases h with
  | now h =>
      rw [h.sendingData.1]
      exact ⟨List.sublist_append_left _ _, h.sendingData.2⟩
  | queueInit => exact ⟨List.sublist_append_left _ _, Nat.le_refl _⟩
  | queueWrite | startWrite => exact ⟨by simp, Nat.le_succ _⟩

theorem Change.sendingData {t : Turn} (h : s.Change t next) :
    next.sendingData.Sublist
        (s.sendingData ++ List.range' s.nextPtr (next.nextPtr - s.nextPtr)) ∧
      s.nextPtr ≤ next.nextPtr := by
  cases h with
  | call h => exact h.sendingData
  | ranInit _ h | foundClosed _ _ h =>
      rw [h.sendingData.1]
      exact ⟨List.sublist_append_left _ _, h.sendingData.2⟩
  | ranWrite _ _ h | completed _ h =>
      rw [h.sendingData.1]
      exact ⟨List.erase_sublist.trans (List.sublist_append_left _ _), h.sendingData.2⟩

/-- What is not kept of a list without duplicates makes up the rest of it. -/
theorem filter_notMem_append_perm {kept all : List Nat} (hsub : kept.Sublist all)
    (hnodup : all.Nodup) : (all.filter (· ∉ kept) ++ kept).Perm all := by
  have hdisjoint : (all.filter (· ∉ kept)).Disjoint kept := by
    intro ptr hgone hkept
    simpa [hkept] using (List.mem_filter.mp hgone).2
  have happend := List.nodup_append'.mpr
    ⟨hnodup.filter (· ∉ kept), hnodup.sublist hsub, hdisjoint⟩
  rw [List.perm_ext_iff_of_nodup happend hnodup]
  intro ptr
  by_cases hkept : ptr ∈ kept
  · simp [hkept, hsub.subset hkept]
  · simp [hkept]

/-- One turn accounts for all entries: each is erased, or still there. -/
theorem Change.erased_perm {t : Turn} (h : s.Change t next) {before : List Nat}
    (hbefore : (before ++ s.sendingData).Perm (List.range s.nextPtr)) :
    (before ++ erased s next ++ next.sendingData).Perm (List.range next.nextPtr) := by
  obtain ⟨hsub, hptr⟩ := h.sendingData
  have hrange : List.range s.nextPtr ++ List.range' s.nextPtr (next.nextPtr - s.nextPtr) =
      List.range next.nextPtr := by
    rw [List.range_eq_range', List.range_eq_range']
    have happend := List.range'_append_1 (s := 0) (m := s.nextPtr)
      (n := next.nextPtr - s.nextPtr)
    rwa [Nat.zero_add, Nat.add_sub_cancel' hptr] at happend
  have hall : (before ++ (s.sendingData ++
      List.range' s.nextPtr (next.nextPtr - s.nextPtr))).Perm (List.range next.nextPtr) := by
    rw [← List.append_assoc, ← hrange]
    exact hbefore.append_right _
  have hnodup := (hall.nodup_iff.mpr List.nodup_range).of_append_right
  rw [List.append_assoc]
  exact ((filter_notMem_append_perm hsub hnodup).append_left before).trans hall

theorem exec_erasures_perm {turns : List Turn} (before : List Nat) {s final : SerialPortSession}
    (hs : FromCalls s) (hbefore : (before ++ s.sendingData).Perm (List.range s.nextPtr))
    (hexec : Transition.exec turn s turns = some final) :
    (before ++ erasures s turns ++ final.sendingData).Perm (List.range final.nextPtr) := by
  induction turns generalizing s before with
  | nil =>
      obtain rfl := Option.some.inj hexec
      rwa [erasures, List.append_nil]
  | cons t rest ih =>
      obtain ⟨next, hturn, hrest⟩ := Option.bind_eq_some_iff.mp hexec
      have hchange := turn_change hs hturn
      have herasures : erasures s (t :: rest) = erased s next ++ erasures next rest := by
        rw [erasures, hturn]
      rw [herasures, ← List.append_assoc before]
      exact ih _ (hchange.fromCalls hs) (hchange.erased_perm hbefore) hrest

/-! ## Entries that are held -/

/-- Taking a handler from the queue takes its entry from the pending ones. -/
theorem pending_pop {index : Nat} {handler : Handler} (hget : s.handlers[index]? = some handler) :
    s.pending.Perm ((entry handler).toList ++
      pending { s with handlers := s.handlers.eraseIdx index }) := by
  obtain ⟨hlt, rfl⟩ := List.getElem?_eq_some_iff.mp hget
  have hperm := (List.getElem_cons_eraseIdx_perm hlt).symm.filterMap entry
  rw [List.filterMap_cons] at hperm
  rw [pending, pending, ← List.append_assoc]
  cases hentry : entry s.handlers[index] with
  | none => exact (by simpa [hentry] using hperm : List.Perm _ _).append_right _
  | some ptr => exact (by simpa [hentry] using hperm : List.Perm _ _).append_right _

theorem pending_complete {index : Nat} {write : AsyncWrite}
    (hget : s.writing[index]? = some write) :
    s.pending.Perm (write.ptr :: pending { s with writing := s.writing.eraseIdx index }) := by
  obtain ⟨hlt, rfl⟩ := List.getElem?_eq_some_iff.mp hget
  have hperm := (List.getElem_cons_eraseIdx_perm hlt).symm.map AsyncWrite.ptr
  rw [List.map_cons] at hperm
  exact (hperm.append_left _).trans List.perm_middle

theorem Now.pending (h : Now s next) : next.pending = s.pending := by
  cases h <;> rfl

theorem Called.pending (h : Called s next) {left : List Nat}
    (hs : s.sendingData.Perm (s.pending ++ left)) :
    next.sendingData.Perm (next.pending ++ left) := by
  have hnew : (s.sendingData ++ [s.nextPtr]).Perm (s.nextPtr :: (s.pending ++ left)) :=
    (List.perm_append_singleton _ _).trans (hs.cons _)
  cases h with
  | now h => rwa [h.sendingData.1, h.pending]
  | queueInit name cb =>
      simpa [SerialPortSession.pending, List.filterMap_append, List.filterMap_cons, entry] using hs
  | queueWrite data cb =>
      refine hnew.trans ?_
      simp only [SerialPortSession.pending, List.filterMap_append, List.filterMap_cons, entry,
        List.filterMap_nil, List.append_assoc, List.singleton_append]
      exact List.perm_middle.symm
  | startWrite data cb =>
      refine hnew.trans ?_
      simp only [SerialPortSession.pending, List.map_append, List.map_cons, List.map_nil]
      rw [← List.append_assoc, List.append_assoc _ [s.nextPtr]]
      exact List.perm_middle.symm

/-- The entries are the pending ones and those left behind, turn by turn. -/
theorem Change.pending {t : Turn} (h : s.Change t next) {left : List Nat}
    (hs : s.sendingData.Perm (s.pending ++ left)) :
    next.sendingData.Perm (next.pending ++ (s.leftBehind t ++ left)) := by
  cases h with
  | call h => exact h.pending hs
  | @ranInit index answers _ _ _ hget h =>
      have hleft : s.leftBehind (.own (.handler index answers)) = [] := by
        simp [leftBehind, hget, entry]
      rw [h.sendingData.1, h.pending, hleft]
      exact hs.trans ((pending_pop hget).append_right left)
  | @ranWrite index answers ptr _ _ _ hget hopen h =>
      have hleft : s.leftBehind (.own (.handler index answers)) = [] := by
        simp [leftBehind, hopen]
      rw [h.sendingData.1, h.pending, hleft]
      have hpop := (hs.trans ((pending_pop hget).append_right left)).erase ptr
      simpa [entry, SerialPortSession.pending] using hpop
  | @foundClosed index answers ptr _ _ _ hget hport h =>
      have hleft : s.leftBehind (.own (.handler index answers)) = [ptr] := by
        simp [leftBehind, isOpen, hport, hget, entry]
      rw [h.sendingData.1, h.pending, hleft]
      have hpop := hs.trans ((pending_pop hget).append_right left)
      exact hpop.trans (by simpa [entry] using List.perm_middle.symm)
  | @completed index ec write _ hget h =>
      rw [h.sendingData.1, h.pending]
      have hpop := (hs.trans ((pending_complete hget).append_right left)).erase write.ptr
      simpa [leftBehind, SerialPortSession.pending] using hpop

theorem exec_pending {turns : List Turn} (left : List Nat) {s final : SerialPortSession}
    (hs : FromCalls s) (hleft : s.sendingData.Perm (s.pending ++ left))
    (hexec : Transition.exec turn s turns = some final) :
    ∃ more, final.sendingData.Perm (final.pending ++ (more ++ left)) ∧
      (more = [] ↔ Transition.Meets turn FindsPortOpen s turns) := by
  induction turns generalizing s left with
  | nil =>
      obtain rfl := Option.some.inj hexec
      exact ⟨[], hleft, iff_of_true rfl trivial⟩
  | cons t rest ih =>
      obtain ⟨next, hturn, hrest⟩ := Option.bind_eq_some_iff.mp hexec
      have hchange := turn_change hs hturn
      obtain ⟨more, hperm, hmeets⟩ := ih _ (hchange.fromCalls hs) (hchange.pending hleft) hrest
      refine ⟨more ++ s.leftBehind t, by rwa [List.append_assoc], ?_⟩
      rw [List.append_eq_nil_iff, hmeets, leftBehind_eq_nil_iff, and_comm]
      simp [Transition.Meets, hturn]

/-- The data of sends is kept exactly in the runs in which no queued send comes
to a closed port. -/
theorem bookkept_iff {turns : List Turn} {final : SerialPortSession}
    (hexec : Transition.exec turn {} turns = some final) :
    Bookkept (erasures {} turns) final ↔ Transition.Meets turn FindsPortOpen {} turns := by
  obtain ⟨left, hperm, hmeets⟩ := exec_pending [] fromCalls_new .nil hexec
  rw [List.append_nil] at hperm
  rw [← hmeets]
  constructor
  · intro hbook
    have hlength := (hbook.entries.symm.trans hperm).length_eq
    rw [List.length_append] at hlength
    exact List.length_eq_zero_iff.mp (by omega)
  · rintro rfl
    rw [List.append_nil] at hperm
    refine { entries := hperm, once := ?_, empty := ?_ }
    · exact exec_erasures_perm [] fromCalls_new .nil hexec
    · intro hnone
      rw [hnone] at hperm
      exact hperm.eq_nil

/-- The port is closed from outside while another call has queued a send. -/
def stopAfterClose : List Turn :=
  [.call false (.init (text "COM3") none) [], .own (.handler 0 []), .call false .close [],
    .call false (.stop none) [], .own (.handler 0 []), .own (.handler 0 [])]

/-- Nothing is pending any more and an entry is still there. -/
theorem not_bookkept_stopAfterClose :
    ∃ final, Transition.exec turn {} stopAfterClose = some final ∧ final.pending = [] ∧
      final.sendingData = [1] ∧ ¬Bookkept (erasures {} stopAfterClose) final := by
  obtain ⟨final, hexec, hpending, hdata⟩ :
      ∃ final, Transition.exec turn {} stopAfterClose = some final ∧ final.pending = [] ∧
        final.sendingData = [1] :=
    Transition.exists_exec (by decide +kernel)
  refine ⟨final, hexec, hpending, hdata, ?_⟩
  intro hbook
  rw [hbook.empty hpending] at hdata
  cases hdata

/-- A command, a stop from outside and a close, with the writes failing or not. -/
def commandStopClose : List Turn :=
  [.call false (.init (text "COM3") none) [], .own (.handler 0 []),
    .call false (.setState true 50 none) [], .call false (.stop (some 1)) [],
    .own (.handler 0 [⟨5, text "fault"⟩]), .own (.complete 0 ⟨5, text "fault"⟩),
    .call true .close []]

theorem bookkept_commandStopClose :
    ∃ final, Transition.exec turn {} commandStopClose = some final ∧
      (Bookkept (erasures {} commandStopClose) final ↔
        Transition.Meets turn FindsPortOpen {} commandStopClose) ∧
      Transition.Meets turn FindsPortOpen {} commandStopClose := by
  obtain ⟨final, hexec, -⟩ :
      ∃ final, Transition.exec turn {} commandStopClose = some final ∧ final.isOpen = false :=
    Transition.exists_exec (by decide +kernel)
  exact ⟨final, hexec, bookkept_iff hexec, by decide +kernel⟩

end Vorze.SerialPortSession
