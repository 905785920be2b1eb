import Vorze.Foundation.Transition
import Vorze.Serial.Session

/-! # Operations on a session

The calls of a session's users, made inside or outside its executor, mixed with
what the session does by itself. A callback is the last thing a handler does, so
a call made in one is a turn inside the executor right after that handler.
-/

namespace Vorze

/-- The callback of a caller; a call without one passes `noop`. -/
def Callback.given : Option Nat → Callback
  | none => .noop
  | some id => .user id

/-- The public methods that send, open or close. -/
inductive Operation
  | sendAsync (data : Bytes) (cb : Option Nat)
  | sendSync (data : Bytes) (cb : Option Nat)
  | sendCommand (c : UInt8) (cb : Option Nat) (async : Bool)
  | stop (cb : Option Nat)
  | setState (direct : Bool) (speed : UInt8) (cb : Option Nat)
  | setStateMode (mode : Bytes) (direct : Bool) (speed : UInt8) (cb : Option Nat)
  | init (serialPortName : Bytes) (cb : Option Nat)
  | close
  deriving DecidableEq, Repr

/-- The callback that the caller gave. -/
def Operation.callback : Operation → Option Nat
  | .sendAsync _ cb | .sendSync _ cb | .sendCommand _ cb _ | .stop cb | .setState _ _ cb
  | .setStateMode _ _ _ cb | .init _ cb => cb
  | .close => none

/-- A call of a user, with the results of the port calls it makes, or a step of
the session itself. -/
inductive Turn
  | call (inside : Bool) (op : Operation) (answers : List ErrorCode)
  | own (action : SerialPortSession.Action)
  deriving DecidableEq, Repr

namespace SerialPortSession

/-- Make a call. -/
def call (s : SerialPortSession) (inside : Bool) : Operation → SerialPortSession
  | .sendAsync data cb => s.sendAsync data (.given cb) (invoke (.given cb))
  | .sendSync data cb => s.sendSync inside data (.given cb) (invoke (.given cb))
  | .sendCommand c cb async => s.sendCommand inside c (.given cb) (invoke (.given cb)) async
  | .stop cb => s.stop inside (.given cb) (invoke (.given cb))
  | .setState direct speed cb => s.setState direct speed (.given cb) (invoke (.given cb))
  | .setStateMode mode direct speed cb =>
      s.setStateMode mode direct speed (.given cb) (invoke (.given cb))
  | .init serialPortName cb => s.init inside serialPortName (.given cb)
  | .close => s.close inside

def turn (s : SerialPortSession) : Turn → Option SerialPortSession
  | .call inside op answers =>
      some { call { s with answers := answers } inside op with answers := [] }
  | .own action => s.step action

/-! ## What calls leave behind -/

theorem invoke_given (cb : Option Nat) (s : SerialPortSession) (e : ErrorInfo) :
    ∃ completed, invoke (.given cb) s e = { s with completed := completed } := by
  cases cb with
  | none => exact ⟨s.completed, rfl⟩
  | some id => exact ⟨s.completed ++ [(id, e)], rfl⟩

/-- A handler that a call queued: an `init`, a send, or the closing of the port. -/
def FromCall : Handler → Prop
  | .init _ cb => ∃ given, cb = .given given
  | .write _ data cb => (∃ given, cb = .given given) ∨ data = frame 0 ∧ cb = .closePort

/-- A session that is used through its calls only. -/
structure FromCalls (s : SerialPortSession) : Prop where
  handlers : ∀ handler ∈ s.handlers, FromCall handler
  writing : ∀ write ∈ s.writing, ∃ given, write.cb = .given given
  fresh : ∀ ptr ∈ s.sendingData, ptr < s.nextPtr

theorem FromCalls.nextPtr_notMem {s : SerialPortSession} (h : FromCalls s) :
    s.nextPtr ∉ s.sendingData :=
  fun hmem => Nat.lt_irrefl _ (h.fresh _ hmem)

theorem fromCalls_new : FromCalls {} where
  handlers := by simp
  writing := by simp
  fresh := by simp

/-- What an `init` writes to an open port before it closes it. -/
def released (s : SerialPortSession) : List PortEvent :=
  if s.isOpen then [.writeStarted (frame 0), .writeStarted (frame 0), .closed] else []

/-- What code that runs inside the executor does to the session. Entries of
`sendingData` that it adds are gone again when it ends. -/
inductive Now (s : SerialPortSession) : SerialPortSession → Prop
  | report (answers : List ErrorCode) (completed : List (Nat × ErrorInfo)) :
      Now s { s with answers := answers, completed := completed }
  | write (data : Bytes) (nextPtr : Nat) (answers : List ErrorCode)
      (completed : List (Nat × ErrorInfo)) (hopen : s.isOpen = true) (hptr : s.nextPtr ≤ nextPtr) :
      Now s { s with nextPtr := nextPtr, answers := answers, completed := completed,
                     log := s.log ++ [.writeStarted data] }
  | close (nextPtr : Nat) (answers : List ErrorCode) (hopen : s.isOpen = true)
      (hptr : s.nextPtr ≤ nextPtr) :
      Now s { s with serialPort := none, nextPtr := nextPtr, answers := answers,
                     log := s.log ++ [.writeStarted (frame 0), .closed] }
  | initFails (name : Bytes) (nextPtr : Nat) (answers : List ErrorCode)
      (completed : List (Nat × ErrorInfo)) (hptr : s.nextPtr ≤ nextPtr) :
      Now s { s with serialPort := none, serialPortName := name, nextPtr := nextPtr,
                     answers := answers, completed := completed,
                     log := s.log ++ s.released ++ [.openFailed name] }
  | initOpens (name : Bytes) (rate : Option Nat) (nextPtr : Nat) (answers : List ErrorCode)
      (completed : List (Nat × ErrorInfo)) (hptr : s.nextPtr ≤ nextPtr) :
      Now s { s with serialPort := some ⟨name, rate⟩, serialPortName := name, nextPtr := nextPtr,
                     answers := answers, completed := completed,
                     log := s.log ++ s.released ++ [.opened name] }

/-- What a call does: it runs inside the executor, queues a handler, or starts a
write of its own. -/
inductive Called (s : SerialPortSession) : SerialPortSession → Prop
  | now {next : SerialPortSession} (h : Now s next) : Called s next
  | queueInit (name : Bytes) (cb : Option Nat) (answers : List ErrorCode) :
      Called s { s with handlers := s.handlers ++ [.init name (.given cb)], answers := answers }
  | queueWrite (data : Bytes) (cb : Callback) (answers : List ErrorCode) (hopen : s.isOpen = true)
      (hfrom : FromCall (.write s.nextPtr data cb)) :
      Called s { s with sendingData := s.sendingData ++ [s.nextPtr], nextPtr := s.nextPtr + 1,
                        handlers := s.handlers ++ [.write s.nextPtr data cb], answers := answers }
  | startWrite (data : Bytes) (cb : Option Nat) (answers : List ErrorCode)
      (hopen : s.isOpen = true) :
      Called s { s with sendingData := s.sendingData ++ [s.nextPtr], nextPtr := s.nextPtr + 1,
                        writing := s.writing ++ [⟨s.nextPtr, data, .given cb⟩], answers := answers,
                        log := s.log ++ [.writeStarted data] }

variable {s next : SerialPortSession}

/-- The results of port calls are given to a turn and forgotten after it. -/
theorem Now.congr_answers {given : List ErrorCode} (h : Now { s with answers := given } next)
    (answers : List ErrorCode) : Now s { next with answers := answers } := by
  cases h with
  | report _ completed => exact .report answers completed
  | write data nextPtr _ completed hopen hptr =>
      exact .write data nextPtr answers completed hopen hptr
  | close nextPtr _ hopen hptr => exact .close nextPtr answers hopen hptr
  | initFails name nextPtr _ completed hptr =>
      exact .initFails name nextPtr answers completed hptr
  | initOpens name rate nextPtr _ completed hptr =>
      exact .initOpens name rate nextPtr answers completed hptr

theorem Called.congr_answers {given : List ErrorCode} (h : Called { s with answers := given } next)
    (answers : List ErrorCode) : Called s { next with answers := answers } := by
  cases h with
  | now h => exact .now (h.congr_answers answers)
  | queueInit name cb _ => exact .queueInit name cb answers
  | queueWrite data cb _ hopen hfrom => exact .queueWrite data cb answers hopen hfrom
  | startWrite data cb _ hopen => exact .startWrite data cb answers hopen

/-! ## Code inside the executor -/

/-- What the handler of `init` does, whether the port was open or not. -/
theorem initHandler_cases (hfresh : ∀ ptr ∈ s.sendingData, ptr < s.nextPtr) (name : Bytes)
    (cb : Callback) :
    ∃ nextPtr answers error, s.nextPtr ≤ nextPtr ∧
      (s.initHandler name cb = invoke cb
          { s with serialPort := none, serialPortName := name, nextPtr := nextPtr,
                   answers := answers, log := s.log ++ s.released ++ [.openFailed name] } error ∨
        ∃ rate, s.initHandler name cb = invoke cb
          { s with serialPort := some ⟨name, rate⟩, serialPortName := name, nextPtr := nextPtr,
                   answers := answers, log := s.log ++ s.released ++ [.opened name] } error) := by
  cases hport : s.serialPort with
  | none =>
      have hreleased : s.released = [] := by simp [released, isOpen, hport]
      rcases initHandler_closed s hport name cb with
        ⟨error, answers, heq⟩ | ⟨error, rate, answers, heq⟩
      · refine ⟨s.nextPtr, answers, error, Nat.le_refl _, Or.inl ?_⟩
        simpa [hreleased, hport] using heq
      · refine ⟨s.nextPtr, answers, error, Nat.le_refl _, Or.inr ⟨rate, ?_⟩⟩
        simpa [hreleased] using heq
  | some port =>
      have hreleased : s.released =
          [.writeStarted (frame 0), .writeStarted (frame 0), .closed] := by
        simp [released, isOpen, hport]
      have hfirst : s.nextPtr ∉ s.sendingData := fun hmem => Nat.lt_irrefl _ (hfresh _ hmem)
      have hsecond : s.nextPtr + 1 ∉ s.sendingData := fun hmem =>
        absurd (hfresh _ hmem) (Nat.not_lt.mpr (Nat.le_succ _))
      rw [initHandler_open hport, written_fresh hfirst, written_fresh hsecond, hreleased]
      rcases initHandler_closed
        { s with serialPort := none, nextPtr := s.nextPtr + 2, answers := s.answers.drop 3,
                 log := s.log ++ [.writeStarted (frame 0), .writeStarted (frame 0), .closed] }
        rfl name cb with ⟨error, answers, heq⟩ | ⟨error, rate, answers, heq⟩
      · exact ⟨s.nextPtr + 2, answers, error, Nat.le_add_right _ _, Or.inl heq⟩
      · exact ⟨s.nextPtr + 2, answers, error, Nat.le_add_right _ _, Or.inr ⟨rate, heq⟩⟩

theorem now_initHandler (hfresh : ∀ ptr ∈ s.sendingData, ptr < s.nextPtr) (name : Bytes)
    (cb : Option Nat) : Now s (s.initHandler name (.given cb)) := by
  obtain ⟨nextPtr, answers, error, hptr, heq | ⟨rate, heq⟩⟩ :=
    initHandler_cases hfresh name (.given cb)
  · obtain ⟨completed, hcb⟩ := invoke_given cb _ error
    rw [heq, hcb]
    exact .initFails name nextPtr answers completed hptr
  · obtain ⟨completed, hcb⟩ := invoke_given cb _ error
    rw [heq, hcb]
    exact .initOpens name rate nextPtr answers completed hptr

/-- A call on a closed port only reports. -/
theorem now_refused (cb : Option Nat) : Now s (invoke (.given cb) s .notOpen) := by
  obtain ⟨completed, hcb⟩ := invoke_given cb s .notOpen
  rw [hcb]
  exact .report s.answers completed

theorem called_sendAsync (data : Bytes) (cb : Option Nat) :
    Called s (s.sendAsync data (.given cb) (invoke (.given cb))) := by
  by_cases hopen : s.isOpen = true
  · rw [sendAsync, if_pos hopen]
    exact .startWrite data cb s.answers hopen
  · rw [sendAsync, if_neg hopen]
    exact .now (now_refused cb)

theorem called_sendSync (h : FromCalls s) (inside : Bool) (data : Bytes) (cb : Option Nat) :
    Called s (s.sendSync inside data (.given cb) (invoke (.given cb))) := by
  by_cases hopen : s.isOpen = true
  · cases inside with
    | false =>
        rw [sendSync, if_pos hopen]
        exact .queueWrite data (.given cb) s.answers hopen (Or.inl ⟨cb, rfl⟩)
    | true =>
        obtain ⟨port, hport⟩ := Option.isSome_iff_exists.mp hopen
        rw [sendSync_inside hport, written_fresh h.nextPtr_notMem]
        obtain ⟨completed, hcb⟩ := invoke_given cb
          { s with nextPtr := s.nextPtr + 1, answers := s.answers.tail,
                   log := s.log ++ [.writeStarted data] }
          (.ofCode (s.answers.headD .success))
        rw [hcb]
        exact .now (.write data (s.nextPtr + 1) s.answers.tail completed hopen (Nat.le_succ _))
  · rw [sendSync, if_neg hopen]
    exact .now (now_refused cb)

theorem called_sendCommand (h : FromCalls s) (inside : Bool) (c : UInt8) (cb : Option Nat)
    (async : Bool) :
    Called s (s.sendCommand inside c (.given cb) (invoke (.given cb)) async) := by
  unfold sendCommand
  split
  next =>
    split
    next => exact called_sendAsync (frame c) cb
    next => exact called_sendSync h inside (frame c) cb
  next => exact .now (now_refused cb)

theorem called_setState (h : FromCalls s) (direct : Bool) (speed : UInt8) (cb : Option Nat) :
    Called s (s.setState direct speed (.given cb) (invoke (.given cb))) := by
  unfold setState
  split
  next => exact called_sendCommand h false _ cb true
  next => exact .now (now_refused cb)

theorem called_setStateMode (h : FromCalls s) (mode : Bytes) (direct : Bool) (speed : UInt8)
    (cb : Option Nat) :
    Called s (s.setStateMode mode direct speed (.given cb) (invoke (.given cb))) := by
  unfold setStateMode
  split
  next => exact called_setState h direct speed cb
  next => exact .now (.report s.answers s.completed)

theorem called_close (h : FromCalls s) (inside : Bool) : Called s (s.close inside) := by
  cases hport : s.serialPort with
  | none =>
      rw [close_closed hport]
      exact .now (.report s.answers s.completed)
  | some port =>
      have hopen : s.isOpen = true := isOpen_of_some hport
      cases inside with
      | false =>
          rw [close_outside s hopen, stop_outside s hopen]
          exact .queueWrite (frame 0) .closePort s.answers hopen (Or.inr ⟨rfl, rfl⟩)
      | true =>
          rw [close_inside hport, written_fresh h.nextPtr_notMem]
          exact .now (.close (s.nextPtr + 1) s.answers.tail hopen (Nat.le_succ _))

/-- What a call can do, for every call and from inside or outside. -/
theorem call_called (h : FromCalls s) (inside : Bool) (op : Operation) :
    Called s (s.call inside op) := by
  cases op with
  | sendAsync data cb => exact called_sendAsync data cb
  | sendSync data cb => exact called_sendSync h inside data cb
  | sendCommand c cb async => exact called_sendCommand h inside c cb async
  | stop cb => exact called_sendCommand h inside 0 cb false
  | setState direct speed cb => exact called_setState h direct speed cb
  | setStateMode mode direct speed cb => exact called_setStateMode h mode direct speed cb
  | init serialPortName cb =>
      cases inside with
      | false => exact .queueInit serialPortName cb s.answers
      | true => exact .now (now_initHandler h.fresh serialPortName cb)
  | close => exact called_close h inside

/-! ## Turns -/

/-- The entry of `sendingData` that a queued handler holds. -/
def entry : Handler → Option Nat
  | .init .. => none
  | .write ptr _ _ => some ptr

/-- The ways a turn can change the session. -/
inductive Change (s : SerialPortSession) : Turn → SerialPortSession → Prop
  | call {inside : Bool} {op : Operation} {answers : List ErrorCode} {next : SerialPortSession}
      (h : Called s next) : Change s (.call inside op answers) next
  | ranInit {index : Nat} {answers : List ErrorCode} {name : Bytes} {cb : Callback}
      {next : SerialPortSession} (hget : s.handlers[index]? = some (.init name cb))
      (h : Now { s with handlers := s.handlers.eraseIdx index } next) :
      Change s (.own (.handler index answers)) next
  | ranWrite {index : Nat} {answers : List ErrorCode} {ptr : Nat} {data : Bytes} {cb : Callback}
      {next : SerialPortSession} (hget : s.handlers[index]? = some (.write ptr data cb))
      (hopen : s.isOpen = true)
      (h : Now { s with handlers := s.handlers.eraseIdx index,
                        sendingData := s.sendingData.erase ptr } next) :
      Change s (.own (.handler index answers)) next
  | foundClosed {index : Nat} {answers : List ErrorCode} {ptr : Nat} {data : Bytes} {cb : Callback}
      {next : SerialPortSession} (hget : s.handlers[index]? = some (.write ptr data cb))
      (hport : s.serialPort = none)
      (h : Now { s with handlers := s.handlers.eraseIdx index } next) :
      Change s (.own (.handler index answers)) next
  | completed {index : Nat} {ec : ErrorCode} {write : AsyncWrite} {next : SerialPortSession}
      (hget : s.writing[index]? = some write)
      (h : Now { s with writing := s.writing.eraseIdx index,
                        sendingData := s.sendingData.erase write.ptr } next) :
      Change s (.own (.complete index ec)) next

/-- A queued send that finds the port open writes, and may close the port then. -/
theorem now_writeHandler (hopen : s.isOpen = true) {ptr : Nat} {data : Bytes} {cb : Callback}
    (hfrom : FromCall (.write ptr data cb)) :
    Now { s with sendingData := s.sendingData.erase ptr } (s.writeHandler ptr data (invoke cb)) := by
  obtain ⟨port, hport⟩ := Option.isSome_iff_exists.mp hopen
  rw [writeHandler_open s hport]
  rcases hfrom with ⟨given, rfl⟩ | ⟨rfl, rfl⟩
  · obtain ⟨completed, hcb⟩ := invoke_given given
      { s with sendingData := s.sendingData.erase ptr, answers := s.answers.tail,
               log := s.log ++ [.writeStarted data] }
      (.ofCode (s.answers.headD .success))
    rw [hcb]
    exact .write data s.nextPtr s.answers.tail completed hopen (Nat.le_refl _)
  · have hclose := Now.close (s := { s with sendingData := s.sendingData.erase ptr }) s.nextPtr
      s.answers.tail hopen (Nat.le_refl _)
    simpa [invoke, serialClose, hport] using hclose

/-- A queued send that finds the port closed only reports. -/
theorem now_foundClosed (hport : s.serialPort = none) {ptr : Nat} {data : Bytes} {cb : Callback}
    (hfrom : FromCall (.write ptr data cb)) :
    Now s (s.writeHandler ptr data (invoke cb)) := by
  rw [writeHandler_closed s hport]
  rcases hfrom with ⟨given, rfl⟩ | ⟨rfl, rfl⟩
  · exact now_refused given
  · have hsame : invoke .closePort s .notOpen = s := by simp [invoke, serialClose, hport]
    rw [hsame]
    exact .report s.answers s.completed

theorem turn_change {t : Turn} (h : FromCalls s) (hturn : s.turn t = some next) :
    s.Change t next := by
  cases t with
  | call inside op answers =>
      obtain rfl := Option.some.inj hturn
      exact .call ((call_called (s := { s with answers := answers })
        { handlers := h.handlers, writing := h.writing, fresh := h.fresh } inside op).congr_answers [])
  | own action =>
      cases action with
      | handler index answers =>
          obtain ⟨handler, hget, rfl⟩ := Option.map_eq_some_iff.mp hturn
          have hfrom := h.handlers handler (List.mem_of_getElem? hget)
          cases handler with
          | init name cb =>
              obtain ⟨given, rfl⟩ := hfrom
              exact .ranInit hget ((now_initHandler
                (s := { s with handlers := s.handlers.eraseIdx index, answers := answers })
                h.fresh name given).congr_answers [])
          | write ptr data cb =>
              by_cases hopen : s.isOpen = true
              · exact .ranWrite hget hopen ((now_writeHandler
                  (s := { s with handlers := s.handlers.eraseIdx index, answers := answers })
                  hopen hfrom).congr_answers [])
              · have hport : s.serialPort = none := Option.not_isSome_iff_eq_none.mp hopen
                exact .foundClosed hget hport ((now_foundClosed
                  (s := { s with handlers := s.handlers.eraseIdx index, answers := answers })
                  hport hfrom).congr_answers [])
      | complete index ec =>
          obtain ⟨write, hget, rfl⟩ := Option.map_eq_some_iff.mp hturn
          obtain ⟨given, hgiven⟩ := h.writing write (List.mem_of_getElem? hget)
          obtain ⟨completed, hcb⟩ := invoke_given given
            { s with writing := s.writing.eraseIdx index,
                     sendingData := s.sendingData.erase write.ptr } (.ofCode ec)
          have hnext : completeWrite { s with writing := s.writing.eraseIdx index } write ec =
              { s with writing := s.writing.eraseIdx index,
                       sendingData := s.sendingData.erase write.ptr, completed := completed } := by
            rw [completeWrite, hgiven]
            exact hcb
          rw [hnext]
          exact .completed hget (.report s.answers completed)

/-! ## Runs -/

theorem Now.fromCalls (h : Now s next) (hs : FromCalls s) : FromCalls next := by
  cases h with
  | report => exact { hs with }
  | write _ nextPtr _ _ _ hptr | close nextPtr _ _ hptr | initFails _ nextPtr _ _ hptr
  | initOpens _ _ nextPtr _ _ hptr =>
      exact { handlers := hs.handlers, writing := hs.writing,
              fresh := fun ptr hmem => Nat.lt_of_lt_of_le (hs.fresh ptr hmem) hptr }

theorem Called.fromCalls (h : Called s next) (hs : FromCalls s) : FromCalls next := by
  have hfresh : ∀ ptr ∈ s.sendingData ++ [s.nextPtr], ptr < s.nextPtr + 1 := by
    intro ptr hmem
    rcases List.mem_append.mp hmem with hold | hnew
    · exact Nat.lt_succ_of_lt (hs.fresh ptr hold)
    · exact List.mem_singleton.mp hnew ▸ Nat.lt_succ_self _
  cases h with
  | now h => exact h.fromCalls hs
  | queueInit name cb =>
      exact { handlers := List.forall_mem_append.mpr
                ⟨hs.handlers, List.forall_mem_singleton.mpr ⟨cb, rfl⟩⟩,
              writing := hs.writing, fresh := hs.fresh }
  | queueWrite data cb _ _ hfrom =>
      exact { handlers := List.forall_mem_append.mpr
                ⟨hs.handlers, List.forall_mem_singleton.mpr hfrom⟩,
              writing := hs.writing, fresh := hfresh }
  | startWrite data cb =>
      exact { handlers := hs.handlers, writing := List.forall_mem_append.mpr
                ⟨hs.writing, List.forall_mem_singleton.mpr ⟨cb, rfl⟩⟩, fresh := hfresh }

theorem Change.fromCalls {t : Turn} (h : s.Change t next) (hs : FromCalls s) : FromCalls next := by
  have hhandlers (index : Nat) : ∀ handler ∈ s.handlers.eraseIdx index, FromCall handler :=
    fun handler hmem => hs.handlers handler (List.mem_of_mem_eraseIdx hmem)
  have hfresh (ptr : Nat) : ∀ other ∈ s.sendingData.erase ptr, other < s.nextPtr :=
    fun other hmem => hs.fresh other (List.mem_of_mem_erase hmem)
  cases h with
  | call h => exact h.fromCalls hs
  | @ranInit index _ _ _ _ _ h | @foundClosed index _ _ _ _ _ _ _ h =>
      exact h.fromCalls
        { handlers := hhandlers index, writing := hs.writing, fresh := hs.fresh }
  | @ranWrite index _ ptr _ _ _ _ _ h =>
      exact h.fromCalls
        { handlers := hhandlers index, writing := hs.writing, fresh := hfresh ptr }
  | @completed index _ write _ _ h =>
      exact h.fromCalls
        { handlers := hs.handlers,
          writing := fun other hmem => hs.writing other (List.mem_of_mem_eraseIdx hmem),
          fresh := hfresh write.ptr }

theorem fromCalls_of_exec {turns : List Turn} {final : SerialPortSession}
    (hexec : Transition.exec turn {} turns = some final) : FromCalls final :=
  Transition.exec_invariant FromCalls
    (fun _ _ _ _ hs hturn => (turn_change hs hturn).fromCalls hs)
    fromCalls_new (Transition.meets_true _ turns) hexec

end SerialPortSession

end Vorze
