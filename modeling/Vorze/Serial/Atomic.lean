import Vorze.Foundation.Simulation
import Vorze.Serial.Operations
import Vorze.Serial.Wire

/-! # A blocking write as one step

While the executor waits in a blocking write, the session is called by other threads,
and the bytes of all writes are on their way. What the session becomes is the same as if
the handler had done all of its work when the write began. So its turns, in which every
handler is one step, leave out the order of the bytes and nothing else.
-/

namespace Vorze

open Transition SerialPortSession

namespace Wire

/-- The session as it will be when the write that the executor is in has returned. -/
def settled (w : Wire) : SerialPortSession :=
  match w.executor with
  | none => w.session
  | some (ptr, cb) => endWrite w.session ptr cb

/-- What an action is for the session: a handler does its work when it begins. -/
def turns : Action → List Turn
  | .setState direct speed id => [.call false (.setState direct speed (some id)) []]
  | .stop inside id => [.call inside (.stop (some id)) []]
  | .handler index => [.own (.handler index [])]
  | .complete index => [.own (.complete index .success)]
  | .transfer .. | .finish => []

/-- The port is open and does not fail. All sends are callers', and each has an entry
that was made for it. -/
structure InUse (w : Wire) : Prop where
  isOpen : w.session.isOpen = true
  answers : w.session.answers = []
  handlers : ∀ handler ∈ w.session.handlers, ∃ ptr data id,
    handler = .write ptr data (.user id) ∧ ptr < w.session.nextPtr
  writing : ∀ write ∈ w.session.writing, ∃ id, write.cb = .user id
  executor : ∀ write ∈ w.executor, ∃ id, write.2 = .user id ∧ write.1 < w.session.nextPtr

variable {w next : Wire}

/-! ## Calls -/

theorem reset_answers {s : SerialPortSession} (h : s.answers = []) :
    { s with answers := [] } = s := by
  rw [← h]

/-- An entry is erased from where it was, whatever was added after it. -/
theorem erase_concat {entries : List Nat} {ptr new : Nat} (hne : ptr ≠ new) :
    (entries ++ [new]).erase ptr = entries.erase ptr ++ [new] := by
  by_cases hmem : ptr ∈ entries
  · exact List.erase_append_left _ hmem
  · rw [List.erase_append_right _ hmem, List.erase_of_not_mem hmem,
      List.erase_of_not_mem (by simpa using hne)]

theorem InUse.of_settled (h : w.InUse) : w.settled.isOpen = true ∧ w.settled.answers = [] := by
  unfold settled
  cases hexecutor : w.executor with
  | none => exact ⟨h.isOpen, h.answers⟩
  | some write =>
      obtain ⟨ptr, cb⟩ := write
      obtain ⟨id, rfl, -⟩ := h.executor _ hexecutor
      exact ⟨h.isOpen, h.answers⟩

/-- A command may be given before or after the write has returned. -/
theorem settled_setState (h : w.InUse) (direct : Bool) (speed : UInt8) (id : Nat) :
    settled { w.startNew (w.session.setState direct speed (.user id) (invoke (.user id))) with
        calls := w.calls ++ [.setState direct speed] } =
      w.settled.setState direct speed (.user id) (invoke (.user id)) := by
  cases hexecutor : w.executor with
  | none => simp [settled, startNew, hexecutor]
  | some write =>
      obtain ⟨ptr, cb⟩ := write
      obtain ⟨other, rfl, hptr⟩ := h.executor _ hexecutor
      have hopen : (endWrite w.session ptr (.user other)).isOpen = true := h.isOpen
      simp only [settled, startNew, hexecutor, setState_open _ hopen, setState_open _ h.isOpen]
      simp [endWrite, invoke, eraseData, erase_concat (Nat.ne_of_lt hptr)]

/-- So may a stop from outside. -/
theorem settled_queueStop (h : w.InUse) (id : Nat) :
    settled { w with
        session := w.session.stop false (.user id) (invoke (.user id))
        calls := w.calls ++ [.stop] } =
      w.settled.stop false (.user id) (invoke (.user id)) := by
  cases hexecutor : w.executor with
  | none => simp [settled, hexecutor]
  | some write =>
      obtain ⟨ptr, cb⟩ := write
      obtain ⟨other, rfl, hptr⟩ := h.executor _ hexecutor
      have hopen : (endWrite w.session ptr (.user other)).isOpen = true := h.isOpen
      simp only [settled, hexecutor, stop_outside _ hopen, stop_outside _ h.isOpen]
      simp [endWrite, invoke, eraseData, erase_concat (Nat.ne_of_lt hptr)]

theorem turn_setState {s : SerialPortSession} (hopen : s.isOpen = true) (hanswers : s.answers = [])
    (direct : Bool) (speed : UInt8) (id : Nat) :
    s.turn (.call false (.setState direct speed (some id)) []) =
      some (s.setState direct speed (.user id) (invoke (.user id))) := by
  rw [turn, reset_answers hanswers, call, Callback.given, setState_open s hopen]
  rw [← hanswers]

theorem turn_stop {s : SerialPortSession} (hopen : s.isOpen = true) (hanswers : s.answers = [])
    (id : Nat) :
    s.turn (.call false (.stop (some id)) []) =
      some (s.stop false (.user id) (invoke (.user id))) := by
  rw [turn, reset_answers hanswers, call, Callback.given, stop_outside s hopen]
  rw [← hanswers]

theorem InUse.started (h : w.InUse) (direct : Bool) (speed : UInt8) (id : Nat) :
    InUse { w.startNew (w.session.setState direct speed (.user id) (invoke (.user id))) with
      calls := w.calls ++ [.setState direct speed] } := by
  rw [setState_open w.session h.isOpen]
  refine ⟨h.isOpen, h.answers, ?_, ?_, ?_⟩
  · intro handler hhandler
    obtain ⟨ptr, data, other, heq, hptr⟩ := h.handlers handler hhandler
    exact ⟨ptr, data, other, heq, Nat.lt_succ_of_lt hptr⟩
  · exact List.forall_mem_append.mpr ⟨h.writing, List.forall_mem_singleton.mpr ⟨id, rfl⟩⟩
  · intro write hwrite
    obtain ⟨other, hcb, hptr⟩ := h.executor write hwrite
    exact ⟨other, hcb, Nat.lt_succ_of_lt hptr⟩

theorem InUse.queued (h : w.InUse) (id : Nat) :
    InUse { w with
      session := w.session.stop false (.user id) (invoke (.user id))
      calls := w.calls ++ [.stop] } := by
  rw [stop_outside w.session h.isOpen]
  refine ⟨h.isOpen, h.answers, ?_, h.writing, ?_⟩
  · refine List.forall_mem_append.mpr ⟨fun handler hhandler => ?_, ?_⟩
    · obtain ⟨ptr, data, other, heq, hptr⟩ := h.handlers handler hhandler
      exact ⟨ptr, data, other, heq, Nat.lt_succ_of_lt hptr⟩
    · exact List.forall_mem_singleton.mpr ⟨_, _, id, rfl, Nat.lt_succ_self _⟩
  · intro write hwrite
    obtain ⟨other, hcb, hptr⟩ := h.executor write hwrite
    exact ⟨other, hcb, Nat.lt_succ_of_lt hptr⟩

/-! ## The executor -/

/-- A handler that begins its write has done its work when the write returns. -/
theorem InUse.runHandler (h : w.InUse) {index : Nat} (hrun : w.runHandler index = some next) :
    next.InUse ∧ w.session.step (.handler index []) = some next.settled := by
  unfold Wire.runHandler at hrun
  split at hrun
  next ptr data cb hget =>
    obtain ⟨_, _, id, hhandler, hptr⟩ := h.handlers _ (List.mem_of_getElem? hget)
    obtain ⟨rfl, rfl, rfl⟩ := Handler.write.inj hhandler
    have hopen : SerialPortSession.isOpen
        { w.session with handlers := w.session.handlers.eraseIdx index } = true := h.isOpen
    rw [if_pos hopen] at hrun
    obtain rfl := Option.some.inj hrun
    constructor
    · refine ⟨h.isOpen, h.answers, ?_, h.writing, ?_⟩
      · exact fun handler hhandler => h.handlers handler (List.mem_of_mem_eraseIdx hhandler)
      · intro write hwrite
        obtain rfl := Option.some.inj hwrite
        exact ⟨id, rfl, hptr⟩
    · have hwhole := endWrite_beginWrite
        { w.session with handlers := w.session.handlers.eraseIdx index } hopen h.answers ptr data
        (.user id)
      have hanswers : (endWrite (beginWrite
          { w.session with handlers := w.session.handlers.eraseIdx index } data) ptr
          (.user id)).answers = [] := h.answers
      rw [SerialPortSession.step, hget, Option.map_some, SerialPortSession.runHandler,
        reset_answers (s := { w.session with handlers := w.session.handlers.eraseIdx index })
          h.answers, ← hwhole, reset_answers hanswers]
      rfl
  next => cases hrun

/-- A stop from inside is queued last and taken at once. -/
theorem stop_inside_eq (h : w.InUse) (id : Nat) :
    (w.session.stop false (.user id) (invoke (.user id))).step
        (.handler w.session.handlers.length []) =
      w.session.turn (.call true (.stop (some id)) []) := by
  obtain ⟨port, hport⟩ := Option.isSome_iff_exists.mp h.isOpen
  have herase : (w.session.handlers ++
      [Handler.write w.session.nextPtr (frame 0) (.user id)]).eraseIdx w.session.handlers.length =
        w.session.handlers := by
    rw [List.eraseIdx_append_of_length_le (Nat.le_refl _), Nat.sub_self]
    exact List.append_nil _
  rw [stop_outside w.session h.isOpen, SerialPortSession.step]
  simp [SerialPortSession.runHandler, writeHandler_open, turn, call, Callback.given, stop_inside,
    hport, written, herase]

/-- What a step of the wire makes of the session, its turns make at once. -/
theorem InUse.step {action : Action} (h : w.InUse) (hstep : w.step action = some next) :
    next.InUse ∧ exec SerialPortSession.turn w.settled (turns action) = some next.settled := by
  obtain ⟨hopen, hanswers⟩ := h.of_settled
  unfold Wire.step at hstep
  cases action with
  | setState direct speed id =>
      obtain rfl := Option.some.inj hstep
      refine ⟨h.started direct speed id, ?_⟩
      rw [settled_setState h, turns, exec_singleton, turn_setState hopen hanswers]
  | stop inside id =>
      cases inside with
      | false =>
          obtain rfl := Option.some.inj hstep
          refine ⟨h.queued id, ?_⟩
          rw [turns, exec_singleton, turn_stop hopen hanswers]
          exact congrArg some (settled_queueStop h id).symm
      | true =>
          simp only [↓reduceIte, Option.ite_none_right_eq_some] at hstep
          obtain ⟨hidle, hrun⟩ := hstep
          obtain ⟨hnext, hsession⟩ := (h.queued id).runHandler hrun
          refine ⟨hnext, ?_⟩
          rw [turns, exec_singleton, settled, hidle, ← stop_inside_eq h]
          exact hsession
  | handler index =>
      obtain ⟨hidle, hrun⟩ := Option.ite_none_right_eq_some.mp hstep
      obtain ⟨hnext, hsession⟩ := h.runHandler hrun
      refine ⟨hnext, ?_⟩
      rw [turns, exec_singleton, turn, settled, hidle]
      exact hsession
  | transfer index count =>
      obtain ⟨stream, -, rfl⟩ := Option.map_eq_some_iff.mp hstep
      exact ⟨⟨h.isOpen, h.answers, h.handlers, h.writing, h.executor⟩, rfl⟩
  | complete index =>
      obtain ⟨write, hget, hstep⟩ := Option.bind_eq_some_iff.mp hstep
      simp only [Option.ite_none_right_eq_some, Option.some.injEq] at hstep
      obtain ⟨⟨hidle, -⟩, rfl⟩ := hstep
      obtain ⟨id, hcb⟩ := h.writing write (List.mem_of_getElem? hget)
      constructor
      · rw [completeWrite, hcb]
        exact ⟨h.isOpen, h.answers, h.handlers,
          fun other hother => h.writing other (List.mem_of_mem_eraseIdx hother), h.executor⟩
      · rw [turns, exec_singleton, turn, settled, settled, hidle, SerialPortSession.step, hget]
        rfl
  | finish =>
      obtain ⟨⟨ptr, cb⟩, hexecutor, hstep⟩ := Option.bind_eq_some_iff.mp hstep
      simp only [Option.ite_none_right_eq_some, Option.some.injEq] at hstep
      obtain ⟨-, rfl⟩ := hstep
      obtain ⟨id, rfl, -⟩ := h.executor _ hexecutor
      constructor
      · exact ⟨h.isOpen, h.answers, h.handlers, h.writing, fun write hwrite => by cases hwrite⟩
      · rw [turns, settled, settled, hexecutor]
        rfl

/-- However the calls, the handlers and the bytes of the writes are interleaved, the
session is where its turns lead: each handler has done all of its work when its write
began. -/
theorem session_turns {session : SerialPortSession} (hopen : session.isOpen = true)
    (hhandlers : session.handlers = []) (hwriting : session.writing = [])
    (hanswers : session.answers = []) {actions : List Action}
    (hexec : exec Wire.step { session := session } actions = some w) :
    exec SerialPortSession.turn session (actions.flatMap turns) = some w.settled := by
  have hinit : InUse { session := session } :=
    ⟨hopen, hanswers, by simp [hhandlers], by simp [hwriting], by simp⟩
  obtain ⟨last, hturns, -, rfl⟩ := exec_simulation
    (fun (w : Wire) (s : SerialPortSession) => w.InUse ∧ s = w.settled)
    (by
      rintro w s action next ⟨h, rfl⟩ hstep
      obtain ⟨hnext, hturns⟩ := h.step hstep
      exact ⟨_, hturns, hnext, rfl⟩)
    ⟨hinit, rfl⟩ hexec
  exact hturns

/-- The executor is in the write of a stop, and a command is called meanwhile. -/
def commandWhileStopping : List Action :=
  [.stop false 0, .handler 0, .transfer 0 1, .setState true 50 1, .transfer 1 2]

theorem session_turns_commandWhileStopping :
    ∃ w, exec Wire.step { session := com3 } commandWhileStopping = some w ∧
      w.executor.isSome = true ∧
      exec SerialPortSession.turn com3 (commandWhileStopping.flatMap turns) = some w.settled := by
  obtain ⟨w, hexec, hbusy⟩ :
      ∃ w, exec Wire.step { session := com3 } commandWhileStopping = some w ∧
        w.executor.isSome = true := exists_exec (by decide)
  exact ⟨w, hexec, hbusy, session_turns rfl rfl rfl rfl hexec⟩

end Wire

end Vorze
