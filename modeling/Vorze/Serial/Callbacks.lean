import Vorze.Serial.Operations
import Mathlib.Algebra.BigOperators.Group.List.Basic
import Mathlib.Algebra.Ring.Nat

/-! # Completion callbacks

A callback given to a call is owed an invocation until it had one. Every closure
and every early return passes the debt on or pays it, but for the overload of
`setState` with a mode that is left to the mode manager.
-/

namespace Vorze

/-- How often running the closure will invoke the caller's callback `id`. -/
def Callback.owed (id : Nat) : Callback → Nat
  | .noop | .closePort => 0
  | .user other => if other = id then 1 else 0
  | .start _ cb => cb.owed id

def Handler.owed (id : Nat) : Handler → Nat
  | .init _ cb | .write _ _ cb => cb.owed id

namespace Operation

/-- The call does not leave its mode to the mode manager. -/
def ModeIsNone : Operation → Prop
  | .setStateMode mode _ _ _ => text "none" = mode
  | _ => True

instance (op : Operation) : Decidable op.ModeIsNone := by
  unfold ModeIsNone
  split <;> infer_instance

/-- How often a call will invoke the callback `id`. -/
def owed (id : Nat) (op : Operation) : Nat :=
  if op.ModeIsNone then (Callback.given op.callback).owed id else 0

end Operation

/-- The callback that a turn brings in. -/
def Turn.callback : Turn → Option Nat
  | .call _ op _ => op.callback
  | .own _ => none

namespace SerialPortSession

/-- How often the callback was invoked. -/
def fired (s : SerialPortSession) (id : Nat) : Nat := (s.completed.map Prod.fst).count id

/-- The invocations a callback had and those that queued code will make. -/
def owed (s : SerialPortSession) (id : Nat) : Nat :=
  s.fired id + (s.handlers.map (Handler.owed id)).sum +
    (s.writing.map fun write => write.cb.owed id).sum

/-- No handler and no write of the session is pending. -/
def Drained (s : SerialPortSession) : Prop := s.handlers = [] ∧ s.writing = []

instance (s : SerialPortSession) : Decidable s.Drained := inferInstanceAs (Decidable (_ ∧ _))

/-- The callback that a call is given is never invoked twice, and it was invoked
once when nothing is pending any more. Other calls may come in between. -/
def FiresOnce (s : SerialPortSession) (inside : Bool) (op : Operation) (id : Nat) : Prop :=
  ∀ answers turns final, (∀ t ∈ turns, t.callback ≠ some id) →
    Transition.exec turn s (.call inside op answers :: turns) = some final →
    final.fired id ≤ 1 ∧ (final.Drained → final.fired id = 1)

variable {id : Nat}

/-! ## What each function owes -/

/-- A body that invokes the callback a given number of times, now or later. -/
def Owes (id : Nat) (body : Body) (count : Nat) : Prop :=
  ∀ s e, (body s e).owed id = s.owed id + count

theorem serialClose_owed (s : SerialPortSession) : s.serialClose.owed id = s.owed id := by
  unfold serialClose
  split <;> rfl

theorem setBaudRate_owed (s : SerialPortSession) (baudRate : Nat) :
    (s.setBaudRate baudRate).2.owed id = s.owed id := by
  cases hport : s.serialPort with
  | none => rw [setBaudRate_closed hport]
  | some port =>
      obtain ⟨rate, hrate⟩ := setBaudRate_open hport baudRate
      rw [hrate]
      rfl

theorem sendAsync_owed (s : SerialPortSession) (data : Bytes) {cb : Callback} {body : Body}
    (hbody : Owes id body (cb.owed id)) :
    (s.sendAsync data cb body).owed id = s.owed id + cb.owed id := by
  unfold sendAsync
  split
  next => simp [owed, fired, emplaceData, Nat.add_assoc]
  next => exact hbody s .notOpen

theorem writeHandler_owed (s : SerialPortSession) (ptr : Nat) (data : Bytes) {body : Body}
    {count : Nat} (hbody : Owes id body count) :
    (s.writeHandler ptr data body).owed id = s.owed id + count := by
  unfold writeHandler
  split
  next => exact hbody _ _
  next => exact hbody s .notOpen

theorem sendSync_owed (s : SerialPortSession) (inside : Bool) (data : Bytes) {cb : Callback}
    {body : Body} (hbody : Owes id body (cb.owed id)) :
    (s.sendSync inside data cb body).owed id = s.owed id + cb.owed id := by
  unfold sendSync
  split
  next =>
    cases inside with
    | true => exact writeHandler_owed _ _ _ hbody
    | false =>
        simp only [owed, fired, emplaceData, Bool.false_eq_true, ↓reduceIte, List.map_append,
          List.map_cons, List.map_nil, Handler.owed, List.sum_append, List.sum_singleton]
        omega
  next => exact hbody s .notOpen

theorem sendCommand_owed (s : SerialPortSession) (inside : Bool) (c : UInt8) {cb : Callback}
    {body : Body} (async : Bool) (hbody : Owes id body (cb.owed id)) :
    (s.sendCommand inside c cb body async).owed id = s.owed id + cb.owed id := by
  unfold sendCommand
  split
  next =>
    cases async with
    | true => exact sendAsync_owed s _ hbody
    | false => exact sendSync_owed s inside _ hbody
  next => exact hbody s .notOpen

theorem setState_owed (s : SerialPortSession) (direct : Bool) (speed : UInt8) {cb : Callback}
    {body : Body} (hbody : Owes id body (cb.owed id)) :
    (s.setState direct speed cb body).owed id = s.owed id + cb.owed id := by
  unfold setState
  split
  next => exact sendCommand_owed s false _ true hbody
  next => exact hbody s .notOpen

theorem close_owed (s : SerialPortSession) (inside : Bool) :
    (s.close inside).owed id = s.owed id := by
  unfold close
  split
  next => exact sendCommand_owed s inside 0 false fun s _ => serialClose_owed s
  next => rfl

theorem serialOpen_owed (s : SerialPortSession) (name : Bytes) :
    (s.serialOpen name).2.owed id = s.owed id := by
  unfold serialOpen nextAnswer
  split
  next => rfl
  next =>
    dsimp only
    split <;> rfl

theorem openPort_snd (s : SerialPortSession) (inside : Bool) (serialPortName : Bytes) :
    (s.openPort inside serialPortName).2 =
      ({ s.close inside with serialPortName := serialPortName }.serialOpen serialPortName).2 := by
  unfold openPort
  dsimp only
  split <;> rfl

theorem openPort_owed (s : SerialPortSession) (inside : Bool) (serialPortName : Bytes) :
    (s.openPort inside serialPortName).2.owed id = s.owed id := by
  rw [openPort_snd, serialOpen_owed]
  exact close_owed s inside

/-- A closure invokes the callback as often as it owes it, by recursion on the closure. -/
theorem invoke_owed (cb : Callback) : Owes id (invoke cb) (cb.owed id) := by
  induction cb with
  | noop => exact fun s _ => rfl
  | user other =>
      intro s e
      by_cases hsame : other = id
      · subst hsame
        simp only [invoke, owed, fired, Callback.owed, List.map_append, List.map_cons,
          List.map_nil, List.count_append, List.count_singleton_self, ↓reduceIte]
        omega
      · simp [invoke, owed, fired, Callback.owed, hsame]
  | closePort => exact fun s _ => serialClose_owed s
  | start serialPortName cb ih =>
      intro s e
      simp only [invoke]
      rw [ih, Callback.owed]
      split
      next => rw [setBaudRate_owed, openPort_owed, setBaudRate_owed]
      next => rw [openPort_owed, setBaudRate_owed]

theorem initHandler_owed (s : SerialPortSession) (serialPortName : Bytes) (cb : Callback) :
    (s.initHandler serialPortName cb).owed id = s.owed id + cb.owed id := by
  unfold initHandler
  split
  next => exact sendCommand_owed s true 0 false (invoke_owed (.start serialPortName cb))
  next => exact invoke_owed (.start serialPortName cb) s {}

theorem init_owed (s : SerialPortSession) (inside : Bool) (serialPortName : Bytes)
    (cb : Callback) : (s.init inside serialPortName cb).owed id = s.owed id + cb.owed id := by
  cases inside with
  | true => exact initHandler_owed s serialPortName cb
  | false =>
      simp only [init, owed, fired, Bool.false_eq_true, ↓reduceIte, List.map_append,
        List.map_cons, List.map_nil, Handler.owed, List.sum_append, List.sum_singleton]
      omega

/-- A call owes its callback one invocation, unless its mode is not `none`. -/
theorem call_owed (s : SerialPortSession) (inside : Bool) (op : Operation) :
    (s.call inside op).owed id = s.owed id + op.owed id := by
  have hgiven (cb : Option Nat) : Owes id (invoke (.given cb)) ((Callback.given cb).owed id) :=
    invoke_owed (.given cb)
  cases op with
  | sendAsync data cb => exact sendAsync_owed s data (hgiven cb)
  | sendSync data cb => exact sendSync_owed s inside data (hgiven cb)
  | sendCommand c cb async => exact sendCommand_owed s inside c async (hgiven cb)
  | stop cb => exact sendCommand_owed s inside 0 false (hgiven cb)
  | setState direct speed cb => exact setState_owed s direct speed (hgiven cb)
  | setStateMode mode direct speed cb =>
      by_cases hmode : text "none" = mode
      · have howed : (Operation.setStateMode mode direct speed cb).owed id =
            (Callback.given cb).owed id := if_pos hmode
        rw [call, setStateMode, if_pos hmode, howed]
        exact setState_owed s direct speed (hgiven cb)
      · have howed : (Operation.setStateMode mode direct speed cb).owed id = 0 := if_neg hmode
        rw [call, setStateMode, if_neg hmode, howed, Nat.add_zero]
  | init serialPortName cb => exact init_owed s inside serialPortName (.given cb)
  | close => exact close_owed s inside

theorem runHandler_owed (s : SerialPortSession) (handler : Handler) :
    (s.runHandler handler).owed id = s.owed id + handler.owed id := by
  cases handler with
  | init serialPortName cb => exact initHandler_owed s serialPortName cb
  | write ptr data cb => exact writeHandler_owed s ptr data (invoke_owed cb)

/-! ## Turns and runs -/

/-- An element taken out of a list no longer counts towards the sum. -/
theorem sum_map_eraseIdx {α : Type} (f : α → Nat) {l : List α} {index : Nat} {a : α}
    (hget : l[index]? = some a) : ((l.eraseIdx index).map f).sum + f a = (l.map f).sum := by
  obtain ⟨hindex, rfl⟩ := List.getElem?_eq_some_iff.mp hget
  have hmap : index < (l.map f).length := by rwa [List.length_map]
  have hsum := List.CommMonoid.add_sum_eraseIdx hmap
  rw [List.getElem_map, List.eraseIdx_map] at hsum
  rw [Nat.add_comm, hsum]

/-- The invocations that a turn adds to the debt. -/
def turnOwed (id : Nat) : Turn → Nat
  | .call _ op _ => op.owed id
  | .own _ => 0

theorem turn_owed {s next : SerialPortSession} {t : Turn} (hturn : s.turn t = some next) :
    next.owed id = s.owed id + turnOwed id t := by
  cases t with
  | call inside op answers =>
      obtain rfl := Option.some.inj hturn
      exact call_owed { s with answers := answers } inside op
  | own action =>
      cases action with
      | handler index answers =>
          obtain ⟨handler, hget, rfl⟩ := Option.map_eq_some_iff.mp hturn
          have hsum := sum_map_eraseIdx (Handler.owed id) hget
          refine (runHandler_owed
            { s with handlers := s.handlers.eraseIdx index, answers := answers } handler).trans ?_
          simp only [owed, fired, turnOwed]
          omega
      | complete index ec =>
          obtain ⟨write, hget, rfl⟩ := Option.map_eq_some_iff.mp hturn
          have hsum := sum_map_eraseIdx (fun write => write.cb.owed id) hget
          refine (invoke_owed write.cb
            { s with writing := s.writing.eraseIdx index,
                     sendingData := s.sendingData.erase write.ptr } (.ofCode ec)).trans ?_
          simp only [owed, fired, turnOwed]
          omega

theorem turnOwed_eq_zero {t : Turn} (hother : t.callback ≠ some id) : turnOwed id t = 0 := by
  cases t with
  | own action => rfl
  | call inside op answers =>
      rw [turnOwed, Operation.owed]
      split
      next =>
        cases hcb : op.callback with
        | none => rfl
        | some other =>
            have hne : other ≠ id := by
              rintro rfl
              exact hother hcb
            exact if_neg hne
      next => rfl

/-- Turns that do not bring the callback in leave the debt as it is. -/
theorem exec_owed {turns : List Turn} {s final : SerialPortSession}
    (hother : ∀ t ∈ turns, t.callback ≠ some id)
    (hexec : Transition.exec turn s turns = some final) : final.owed id = s.owed id := by
  induction turns generalizing s with
  | nil =>
      obtain rfl := Option.some.inj hexec
      rfl
  | cons t rest ih =>
      obtain ⟨next, hturn, hrest⟩ := Option.bind_eq_some_iff.mp hexec
      rw [List.forall_mem_cons] at hother
      rw [ih hother.2 hrest, turn_owed hturn, turnOwed_eq_zero hother.1, Nat.add_zero]

theorem owed_of_drained {s : SerialPortSession} (hdrained : s.Drained) :
    s.owed id = s.fired id := by
  simp [owed, hdrained.1, hdrained.2]

theorem fired_le_owed (s : SerialPortSession) : s.fired id ≤ s.owed id := by
  unfold owed
  omega

/-! ## Runs that end with nothing pending -/

/-- Code inside the executor queues nothing. -/
def SameQueues (s next : SerialPortSession) : Prop :=
  next.handlers = s.handlers ∧ next.writing = s.writing

theorem SameQueues.trans {s middle next : SerialPortSession} (h : SameQueues s middle)
    (h' : SameQueues middle next) : SameQueues s next :=
  ⟨h'.1.trans h.1, h'.2.trans h.2⟩

theorem serialClose_sameQueues (s : SerialPortSession) : SameQueues s s.serialClose := by
  unfold serialClose
  split <;> exact ⟨rfl, rfl⟩

theorem setBaudRate_sameQueues (s : SerialPortSession) (baudRate : Nat) :
    SameQueues s (s.setBaudRate baudRate).2 := by
  cases hport : s.serialPort with
  | none => rw [setBaudRate_closed hport]; exact ⟨rfl, rfl⟩
  | some port =>
      obtain ⟨rate, hrate⟩ := setBaudRate_open hport baudRate
      rw [hrate]
      exact ⟨rfl, rfl⟩

theorem writeHandler_sameQueues (s : SerialPortSession) (ptr : Nat) (data : Bytes) {body : Body}
    (hbody : ∀ s e, SameQueues s (body s e)) :
    SameQueues s (s.writeHandler ptr data body) := by
  unfold writeHandler
  split
  next => exact SameQueues.trans ⟨rfl, rfl⟩ (hbody _ _)
  next => exact hbody s .notOpen

theorem stop_sameQueues (s : SerialPortSession) {cb : Callback} {body : Body}
    (hbody : ∀ s e, SameQueues s (body s e)) : SameQueues s (s.stop true cb body) := by
  by_cases hopen : s.isOpen = true
  · simp only [stop, sendCommand, sendSync, hopen, Bool.false_eq_true, ↓reduceIte]
    exact SameQueues.trans ⟨rfl, rfl⟩ (writeHandler_sameQueues s.emplaceData.2 s.nextPtr _ hbody)
  · simp only [stop, sendCommand, hopen, Bool.false_eq_true, ↓reduceIte]
    exact hbody s .notOpen

theorem close_sameQueues (s : SerialPortSession) : SameQueues s (s.close true) := by
  unfold close
  split
  next => exact stop_sameQueues s fun s _ => serialClose_sameQueues s
  next => exact ⟨rfl, rfl⟩

theorem openPort_sameQueues (s : SerialPortSession) (serialPortName : Bytes) :
    SameQueues s (s.openPort true serialPortName).2 := by
  rw [openPort_snd]
  refine (close_sameQueues s).trans ?_
  unfold serialOpen nextAnswer
  split
  next => exact ⟨rfl, rfl⟩
  next =>
    dsimp only
    split <;> exact ⟨rfl, rfl⟩

theorem invoke_sameQueues (cb : Callback) (s : SerialPortSession) (e : ErrorInfo) :
    SameQueues s (invoke cb s e) := by
  induction cb generalizing s e with
  | noop => exact ⟨rfl, rfl⟩
  | user id => exact ⟨rfl, rfl⟩
  | closePort => exact serialClose_sameQueues s
  | start serialPortName cb ih =>
      have hopened := (setBaudRate_sameQueues s 19200).trans
        (openPort_sameQueues (s.setBaudRate 19200).2 serialPortName)
      simp only [invoke]
      refine SameQueues.trans ?_ (ih _ _)
      split
      next => exact hopened.trans (setBaudRate_sameQueues _ _)
      next => exact hopened

theorem runHandler_sameQueues (s : SerialPortSession) (handler : Handler) :
    SameQueues s (s.runHandler handler) := by
  cases handler with
  | write ptr data cb => exact writeHandler_sameQueues s ptr data (invoke_sameQueues cb)
  | init serialPortName cb =>
      rw [runHandler, initHandler]
      split
      next => exact stop_sameQueues s (invoke_sameQueues (.start serialPortName cb))
      next => exact invoke_sameQueues (.start serialPortName cb) s {}

/-- A handler, or else a completion, can run, and one thing less is pending then. -/
theorem exists_step_of_pending {s : SerialPortSession}
    (hpending : s.handlers.length + s.writing.length ≠ 0) :
    ∃ action next, s.step action = some next ∧
      next.handlers.length + next.writing.length + 1 = s.handlers.length + s.writing.length := by
  cases hhandlers : s.handlers with
  | cons handler rest =>
      have hqueues := runHandler_sameQueues { s with handlers := rest, answers := [] } handler
      refine ⟨.handler 0 [], _, by simp [step, hhandlers]; rfl, ?_⟩
      simp only [hqueues.1, hqueues.2, List.length_cons]
      omega
  | nil =>
      cases hwriting : s.writing with
      | nil => simp [hhandlers, hwriting] at hpending
      | cons write rest =>
          have hqueues := invoke_sameQueues write.cb
            { s with writing := rest, sendingData := s.sendingData.erase write.ptr }
            (.ofCode .success)
          refine ⟨.complete 0 .success, _, by simp [step, hwriting]; rfl, ?_⟩
          rw [completeWrite]
          simp only [eraseData, hqueues.1, hqueues.2]
          simp only [hhandlers, List.length_nil, List.length_cons]
          omega

/-- The queued handlers and the writes in flight can always run to the end. -/
theorem exists_exec_drained (s : SerialPortSession) :
    ∃ turns final, (∀ t ∈ turns, t.callback = none) ∧
      Transition.exec turn s turns = some final ∧ final.Drained := by
  generalize hcount : s.handlers.length + s.writing.length = count
  induction count generalizing s with
  | zero =>
      have hdrained : s.Drained :=
        ⟨List.length_eq_zero_iff.mp (by omega), List.length_eq_zero_iff.mp (by omega)⟩
      exact ⟨[], s, by simp, rfl, hdrained⟩
  | succ count ih =>
      obtain ⟨action, next, hstep, hless⟩ := exists_step_of_pending (s := s) (by omega)
      obtain ⟨turns, final, hown, hexec, hdrained⟩ := ih next (by omega)
      refine ⟨.own action :: turns, final, ?_, ?_, hdrained⟩
      · exact List.forall_mem_cons.mpr ⟨rfl, hown⟩
      · rw [Transition.exec, turn, hstep]
        exact hexec

/-! ## The callback of a call -/

theorem owed_given {op : Operation} (hcb : op.callback = some id) :
    op.owed id = if op.ModeIsNone then 1 else 0 := by
  simp [Operation.owed, hcb, Callback.given, Callback.owed]

/-- A callback fires once, in any state and whatever else is called, unless the
call leaves its mode to the mode manager, which never invokes it. -/
theorem firesOnce_iff (s : SerialPortSession) (inside : Bool) (op : Operation)
    (hcb : op.callback = some id) (hnew : s.owed id = 0) :
    FiresOnce s inside op id ↔ op.ModeIsNone := by
  have hexec_owed : ∀ answers turns final, (∀ t ∈ turns, t.callback ≠ some id) →
      Transition.exec turn s (.call inside op answers :: turns) = some final →
      final.owed id = if op.ModeIsNone then 1 else 0 := by
    intro answers turns final hother hexec
    obtain ⟨next, hturn, hrest⟩ := Option.bind_eq_some_iff.mp hexec
    rw [exec_owed hother hrest, turn_owed hturn, hnew, Nat.zero_add, turnOwed, owed_given hcb]
  constructor
  · intro hfires
    obtain ⟨next, hturn⟩ : ∃ next, s.turn (.call inside op []) = some next := ⟨_, rfl⟩
    obtain ⟨turns, final, hown, hrest, hdrained⟩ := exists_exec_drained next
    have hother : ∀ t ∈ turns, t.callback ≠ some id := by
      intro t ht
      simp [hown t ht]
    have hexec : Transition.exec turn s (.call inside op [] :: turns) = some final :=
      Option.bind_eq_some_iff.mpr ⟨next, hturn, hrest⟩
    have honce := (hfires [] turns final hother hexec).2 hdrained
    rw [← owed_of_drained hdrained, hexec_owed [] turns final hother hexec] at honce
    by_contra hmode
    rw [if_neg hmode] at honce
    cases honce
  · intro hmode answers turns final hother hexec
    have howed := hexec_owed answers turns final hother hexec
    rw [if_pos hmode] at howed
    refine ⟨howed ▸ fired_le_owed final, ?_⟩
    intro hdrained
    rw [← owed_of_drained hdrained, howed]

/-- A session with `COM3` open and nothing pending. -/
def openSession : SerialPortSession where
  serialPort := some ⟨text "COM3", some 19200⟩
  serialPortName := text "COM3"

/-- With a mode of the mode manager the callback is dropped. -/
theorem not_firesOnce_otherMode :
    ¬FiresOnce openSession false (.setStateMode (text "wave") true 50 (some 1)) 1 := by
  intro hfires
  have hexec : Transition.exec turn openSession
      [.call false (.setStateMode (text "wave") true 50 (some 1)) []] = some openSession := by
    decide +kernel
  have honce := (hfires [] [] openSession (by simp) hexec).2 ⟨rfl, rfl⟩
  cases honce

/-- The callback of an `init` that moves an open session to another port fires once. -/
theorem firesOnce_openSession_init :
    FiresOnce openSession true (.init (text "COM4") (some 1)) 1 :=
  (firesOnce_iff openSession true (.init (text "COM4") (some 1)) rfl rfl).mpr trivial

end SerialPortSession

end Vorze
