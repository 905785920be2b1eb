import Vorze.Foundation.ComposedWrite
import Vorze.Foundation.Transition
import Vorze.Serial.Session

/-! # Commands on the wire

The writes of one session taken apart into the steps in which they hand their
bytes to the port. A command is a composed `async_write`; the stop frame is a
composed `write` that the executor waits for. Commands may be given at any time,
also while the executor is in such a write.
-/

namespace Vorze

open ComposedWrite

/-- The calls that send a frame. -/
inductive Call
  | setState (direct : Bool) (speed : UInt8)
  | stop
  deriving DecidableEq, Repr

/-- The third byte of the frame a call sends. -/
def Call.code : Call → UInt8
  | .setState direct speed =>
      (if direct then 0x80 else 0x00) + SerialPortSession.clampSpeed speed
  | .stop => 0

theorem Call.code_mod (call : Call) : call.code % 128 ≤ 100 := by
  cases call with
  | stop => decide
  | setState direct speed =>
      have hspeed := SerialPortSession.clampSpeed_le speed
      rw [UInt8.le_iff_toNat_le] at hspeed ⊢
      rw [UInt8.toNat_mod, Call.code, UInt8.toNat_add]
      cases direct with
      | false => simp at hspeed ⊢; omega
      | true => simp at hspeed ⊢; omega

/-- A session with an open port, the bytes on their way, and the blocking write
that the executor is in. `calls` are the calls made so far. -/
structure Wire where
  session : SerialPortSession
  stream : Stream UInt8 := {}
  executor : Option (Nat × Callback) := none
  calls : List Call := []
  deriving DecidableEq, Repr

namespace Wire

open SerialPortSession

inductive Action
  | setState (direct : Bool) (speed : UInt8) (id : Nat)
  | stop (inside : Bool) (id : Nat)
  | handler (index : Nat)
  | transfer (index count : Nat)
  | complete (index : Nat)
  | finish
  deriving DecidableEq, Repr

/-- The composed write of every `async_write` that a call made is started. -/
def startNew (w : Wire) (session : SerialPortSession) : Wire :=
  { w with
    session := session
    stream := (session.writing.drop w.session.writing.length).foldl
      (fun stream write => stream.start write.ptr write.data) w.stream }

/-- The first half of `writeHandler`, up to the call of `write`. -/
def beginWrite (s : SerialPortSession) (data : Bytes) : SerialPortSession :=
  { s with log := s.log ++ [.writeStarted data] }

/-- The second half, when `write` has returned. -/
def endWrite (s : SerialPortSession) (ptr : Nat) (cb : Callback) : SerialPortSession :=
  invoke cb (s.eraseData ptr) (.ofCode .success)

/-- A write that nothing comes between is the handler as one step. -/
theorem endWrite_beginWrite (s : SerialPortSession) (hopen : s.isOpen = true)
    (hanswers : s.answers = []) (ptr : Nat) (data : Bytes) (cb : Callback) :
    endWrite (beginWrite s data) ptr cb = s.writeHandler ptr data (invoke cb) := by
  obtain ⟨port, hport⟩ := Option.isSome_iff_exists.mp hopen
  rw [writeHandler_open s hport, hanswers]
  simp [endWrite, beginWrite, eraseData, hanswers]

/-- The executor takes a queued handler up to its blocking write. -/
def runHandler (w : Wire) (index : Nat) : Option Wire :=
  match w.session.handlers[index]? with
  | some (.write ptr data cb) =>
      let session := { w.session with handlers := w.session.handlers.eraseIdx index }
      if session.isOpen then
        some { w with
          session := beginWrite session data
          stream := w.stream.start ptr data
          executor := some (ptr, cb) }
      else some { w with session := invoke cb session .notOpen }
  | _ => none

/-- The calls and the steps of the writes. Callbacks are the callers' own, and
no write fails. -/
def step (w : Wire) : Action → Option Wire
  | .setState direct speed id =>
      some { w.startNew (w.session.setState direct speed (.user id) (invoke (.user id))) with
        calls := w.calls ++ [.setState direct speed] }
  | .stop inside id =>
      -- the handler of a stop from inside is the last one and runs at once
      let queued := { w with
        session := w.session.stop false (.user id) (invoke (.user id))
        calls := w.calls ++ [.stop] }
      if inside then
        if w.executor = none then queued.runHandler w.session.handlers.length else none
      else some queued
  | .handler index => if w.executor = none then w.runHandler index else none
  | .transfer index count =>
      (w.stream.transfer index count).map fun stream => { w with stream := stream }
  | .complete index =>
      (w.session.writing[index]?).bind fun write =>
        if w.executor = none ∧ ¬w.stream.Unfinished write.ptr then
          let session := { w.session with writing := w.session.writing.eraseIdx index }
          some { w with session := completeWrite session write .success }
        else none
  | .finish =>
      w.executor.bind fun (ptr, cb) =>
        if ¬w.stream.Unfinished ptr then
          some { w with session := endWrite w.session ptr cb, executor := none }
        else none

/-- The bytes on the wire are the beginning of whole frames, one for each call. -/
def Framed (w : Wire) : Prop :=
  ∃ codes : List UInt8, codes.Perm (w.calls.map Call.code) ∧ (∀ c ∈ codes, c % 128 ≤ 100) ∧
    w.stream.wire <+: (codes.map frame).flatten

/-- A write starts only when the earlier ones have handed over all their bytes. -/
def WriteAlone (w : Wire) : Action → Prop
  | .setState _ _ _ | .stop true _ | .handler _ => w.stream.pending = []
  | _ => True

instance (w : Wire) : ∀ action, Decidable (w.WriteAlone action)
  | .setState _ _ _ | .stop true _ | .handler _ =>
      inferInstanceAs (Decidable (w.stream.pending = []))
  | .stop false _ | .transfer _ _ | .complete _ | .finish => .isTrue trivial

/-- The frames that were started are on the wire in order, and the calls whose
frame was not started yet are the queued stops. -/
structure InOrder (w : Wire) : Prop where
  isOpen : w.session.isOpen = true
  handlers : ∀ handler ∈ w.session.handlers, ∃ ptr id,
    handler = .write ptr (frame 0) (.user id)
  executor : ∀ write ∈ w.executor, ∃ id, write.2 = .user id
  writing : ∀ write ∈ w.session.writing, ∃ id, write.cb = .user id
  started : ∃ codes : List UInt8, w.stream.Serial (codes.map frame) ∧
    (codes ++ List.replicate w.session.handlers.length 0).Perm (w.calls.map Call.code)

theorem InOrder.framed {w : Wire} (h : w.InOrder) : w.Framed := by
  obtain ⟨codes, hserial, hperm⟩ := h.started
  refine ⟨_, hperm, ?_, ?_⟩
  · intro c hc
    obtain ⟨call, _, rfl⟩ := List.mem_map.mp (hperm.mem_iff.mp hc)
    exact call.code_mod
  · rw [List.map_append, List.flatten_append]
    exact hserial.wire_prefix.trans (List.prefix_append _ _)

theorem InOrder.init {session : SerialPortSession} (hopen : session.isOpen = true)
    (hhandlers : session.handlers = []) (hwriting : session.writing = []) :
    InOrder { session := session } where
  isOpen := hopen
  handlers := by simp [hhandlers]
  executor := by simp
  writing := by simp [hwriting]
  started := ⟨[], Stream.serial_empty, by simp [hhandlers]⟩

/-- One more code for one more call. -/
theorem perm_snoc {codes queued calls : List UInt8} (hperm : (codes ++ queued).Perm calls)
    (c : UInt8) : (codes ++ [c] ++ queued).Perm (calls ++ [c]) := by
  have hmove : (codes ++ [c] ++ queued).Perm (codes ++ queued ++ [c]) := by
    rw [List.append_assoc, List.append_assoc]
    exact List.perm_append_comm.append_left codes
  exact hmove.trans (hperm.append_right [c])

theorem InOrder.setState {w : Wire} (h : w.InOrder) (halone : w.stream.pending = [])
    (direct : Bool) (speed : UInt8) (id : Nat) :
    InOrder { w.startNew (w.session.setState direct speed (.user id) (invoke (.user id))) with
      calls := w.calls ++ [.setState direct speed] } := by
  obtain ⟨codes, hserial, hperm⟩ := h.started
  rw [setState_open w.session h.isOpen]
  refine ⟨h.isOpen, h.handlers, h.executor, ?_, codes ++ [Call.code (.setState direct speed)],
    ?_, ?_⟩
  · exact List.forall_mem_append.mpr ⟨h.writing, List.forall_mem_singleton.mpr ⟨id, rfl⟩⟩
  · simpa [startNew, Call.code] using hserial.start halone _ _
  · rw [List.map_append]
    exact perm_snoc hperm _

/-- A stop from outside only queues its frame. -/
theorem InOrder.queueStop {w : Wire} (h : w.InOrder) (id : Nat) :
    InOrder { w with
      session := w.session.stop false (.user id) (invoke (.user id))
      calls := w.calls ++ [.stop] } := by
  obtain ⟨codes, hserial, hperm⟩ := h.started
  rw [stop_outside w.session h.isOpen]
  refine ⟨h.isOpen, ?_, h.executor, h.writing, codes, hserial, ?_⟩
  · exact List.forall_mem_append.mpr ⟨h.handlers, List.forall_mem_singleton.mpr ⟨_, id, rfl⟩⟩
  · rw [List.length_append, List.length_singleton, List.replicate_succ', ← List.append_assoc,
      List.map_append]
    exact hperm.append_right [0]

/-- Starting the write of a queued stop moves its frame to the wire's end. -/
theorem InOrder.runHandler {w next : Wire} (h : w.InOrder) (halone : w.stream.pending = [])
    {index : Nat} (hrun : w.runHandler index = some next) : next.InOrder := by
  obtain ⟨codes, hserial, hperm⟩ := h.started
  unfold Wire.runHandler at hrun
  split at hrun
  next ptr data cb hget =>
    obtain ⟨_, id, hhandler⟩ := h.handlers _ (List.mem_of_getElem? hget)
    obtain ⟨rfl, rfl, rfl⟩ := Handler.write.inj hhandler
    have hopen : SerialPortSession.isOpen
        { w.session with handlers := w.session.handlers.eraseIdx index } = true := h.isOpen
    rw [if_pos hopen] at hrun
    obtain rfl := Option.some.inj hrun
    refine ⟨h.isOpen, ?_, ?_, h.writing, codes ++ [0], ?_, ?_⟩
    · exact fun handler hhandler => h.handlers handler (List.mem_of_mem_eraseIdx hhandler)
    · intro write hwrite
      obtain rfl := Option.some.inj hwrite
      exact ⟨id, rfl⟩
    · simpa using hserial.start halone ptr (frame 0)
    · -- one queued stop less, one frame more on the stream
      have hlt := (List.getElem?_eq_some_iff.mp hget).1
      have hlength : w.session.handlers.length =
          (w.session.handlers.eraseIdx index).length + 1 := by
        rw [List.length_eraseIdx_of_lt hlt]
        omega
      rw [hlength, List.replicate_succ] at hperm
      simpa [beginWrite] using hperm
  next => cases hrun

/-- A callback of a caller leaves the port and what is queued alone. -/
theorem InOrder.congr {w next : Wire} (h : w.InOrder)
    (hport : next.session.serialPort = w.session.serialPort)
    (hhandlers : next.session.handlers = w.session.handlers)
    (hexecutor : ∀ write ∈ next.executor, write ∈ w.executor)
    (hwriting : ∀ write ∈ next.session.writing, write ∈ w.session.writing)
    (hstream : next.stream = w.stream) (hcalls : next.calls = w.calls) : next.InOrder where
  isOpen := by
    have := h.isOpen
    rwa [SerialPortSession.isOpen, ← hport] at this
  handlers := hhandlers ▸ h.handlers
  executor := fun write hwrite => h.executor write (hexecutor write hwrite)
  writing := fun write hwrite => h.writing write (hwriting write hwrite)
  started := by
    rw [hstream, hhandlers, hcalls]
    exact h.started

theorem InOrder.step {w next : Wire} {action : Action} (halone : w.WriteAlone action)
    (h : w.InOrder) (hstep : w.step action = some next) : next.InOrder := by
  unfold Wire.step at hstep
  cases action with
  | setState direct speed id =>
      obtain rfl := Option.some.inj hstep
      exact h.setState halone direct speed id
  | stop inside id =>
      cases inside with
      | false =>
          obtain rfl := Option.some.inj hstep
          exact h.queueStop id
      | true =>
          simp only [↓reduceIte, Option.ite_none_right_eq_some] at hstep
          exact (h.queueStop id).runHandler halone hstep.2
  | handler index =>
      simp only [Option.ite_none_right_eq_some] at hstep
      exact h.runHandler halone hstep.2
  | transfer index count =>
      obtain ⟨stream, htransfer, rfl⟩ := Option.map_eq_some_iff.mp hstep
      obtain ⟨codes, hserial, hperm⟩ := h.started
      exact ⟨h.isOpen, h.handlers, h.executor, h.writing, codes, hserial.transfer htransfer, hperm⟩
  | complete index =>
      obtain ⟨write, hget, hstep⟩ := Option.bind_eq_some_iff.mp hstep
      simp only [Option.ite_none_right_eq_some, Option.some.injEq] at hstep
      obtain ⟨_, rfl⟩ := hstep
      obtain ⟨id, hcb⟩ := h.writing write (List.mem_of_getElem? hget)
      rw [completeWrite, hcb]
      exact h.congr rfl rfl (fun _ hwrite => hwrite) (fun _ hwrite => List.mem_of_mem_eraseIdx hwrite)
        rfl rfl
  | finish =>
      obtain ⟨⟨ptr, cb⟩, hexecutor, hstep⟩ := Option.bind_eq_some_iff.mp hstep
      simp only [Option.ite_none_right_eq_some, Option.some.injEq] at hstep
      obtain ⟨_, rfl⟩ := hstep
      obtain ⟨id, hcb⟩ := h.executor _ hexecutor
      simp only at hcb
      subst hcb
      exact h.congr rfl rfl (by simp) (fun _ hwrite => hwrite) rfl rfl

/-- When no write starts before the earlier ones are through, the wire carries
whole frames, one for each call, whatever the sizes of the steps. -/
theorem framed_of_writeAlone {session : SerialPortSession} (hopen : session.isOpen = true)
    (hhandlers : session.handlers = []) (hwriting : session.writing = []) {actions : List Action}
    {w : Wire} (hexec : Transition.exec Wire.step { session := session } actions = some w)
    (halone : Transition.Meets Wire.step WriteAlone { session := session } actions) :
    w.Framed := by
  have hinOrder : w.InOrder :=
    Transition.exec_invariant InOrder (fun _ _ _ hok h hstep => h.step hok hstep)
      (InOrder.init hopen hhandlers hwriting) halone hexec
  exact hinOrder.framed

/-- A session whose port was opened. -/
def com3 : SerialPortSession :=
  { serialPort := some ⟨text "COM3", some 19200⟩, serialPortName := text "COM3" }

/-- A command in two steps, then a stop whose frame is half through. -/
def commandThenStop : List Action :=
  [.setState true 50 0, .transfer 0 1, .transfer 0 2, .stop false 1, .complete 0, .handler 0,
    .transfer 0 2]

theorem framed_commandThenStop :
    ∃ w, Transition.exec Wire.step { session := com3 } commandThenStop = some w ∧
      w.Framed := by
  obtain ⟨w, hexec⟩ := Option.isSome_iff_exists.mp
    (show (Transition.exec Wire.step { session := com3 } commandThenStop).isSome = true by decide)
  exact ⟨w, hexec, framed_of_writeAlone rfl rfl rfl hexec (by decide)⟩

/-- The second of two commands is sent while the first has two bytes left. -/
theorem not_framed_two_commands :
    ∃ w, Transition.exec Wire.step { session := com3 } [.setState true 1 0, .setState false 2 1,
        .transfer 0 1, .transfer 1 3, .transfer 0 2] = some w ∧
      w.stream.wire = [1, 1, 1, 2, 1, 129] ∧ ¬w.Framed := by
  have hrun : ((Transition.exec Wire.step { session := com3 } [.setState true 1 0,
        .setState false 2 1, .transfer 0 1, .transfer 1 3, .transfer 0 2]).map
      fun w => (w.stream.wire, w.calls)) =
        some ([1, 1, 1, 2, 1, 129], [.setState true 1, .setState false 2]) := by decide
  obtain ⟨w, hexec, hstate⟩ := Option.map_eq_some_iff.mp hrun
  obtain ⟨hwire, hcalls⟩ := Prod.mk.inj hstate
  refine ⟨w, hexec, hwire, ?_⟩
  intro ⟨codes, hperm, _, hprefix⟩
  rw [hcalls] at hperm
  have hlength : codes.length = 2 := hperm.length_eq
  -- the third byte would be the code of the first frame
  match codes, hlength with
  | [first, second], _ =>
      have hthird : first = 1 := by
        rw [hwire] at hprefix
        have hget := hprefix.getElem (i := 2) (by decide)
        simpa [frame] using hget.symm
      have hmem := hperm.mem_iff.mp (List.mem_cons_self (a := first))
      rw [hthird] at hmem
      revert hmem
      decide

end Wire

end Vorze
