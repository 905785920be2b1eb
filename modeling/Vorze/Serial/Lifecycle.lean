import Vorze.Foundation.Transition
import Vorze.Serial.Session

/-! # The life of a session the server created

The server gives a new session one `init` and later at most closes it. Seen from
outside such a session is pending, failed, opened or closed, and it moves
through these phases in one direction. Commands and completed writes do not
change the phase.
-/

namespace Vorze

/-- What a session is for the server. -/
inductive Phase
  | pending
  | failed
  | opened
  | closed
  deriving DecidableEq, Repr

namespace Phase

/-- How a phase can change when code of the session runs. -/
inductive Next : Phase → Phase → Prop
  | stay (phase : Phase) : Next phase phase
  | openFails : Next .pending .failed
  | opens : Next .pending .opened
  | closes : Next .opened .closed

/-- The device events of a session for `comName`. A port is closed right after
the stop frame was written to it. -/
def Events (comName : Bytes) : Phase → List PortEvent → Prop
  | .pending, log => log = []
  | .failed, log => log = [.openFailed comName]
  | .opened, log => ∃ frames : List Bytes, log = .opened comName :: frames.map .writeStarted
  | .closed, log => ∃ frames : List Bytes, log =
      .opened comName :: frames.map .writeStarted ++
        [.writeStarted (SerialPortSession.frame 0), .closed]

/-- What is queued: the one `init`, or closing handlers. -/
def Queued (comName : Bytes) : Phase → List Handler → Prop
  | .pending, handlers => handlers = [.init comName .noop]
  | .failed, handlers => handlers = []
  | .opened, handlers | .closed, handlers =>
      ∀ handler ∈ handlers, ∃ ptr, handler = .write ptr (SerialPortSession.frame 0) .closePort

end Phase

open SerialPortSession

/-- A session created for `comName` is in a phase. -/
structure InPhase (comName : Bytes) (phase : Phase) (s : SerialPortSession) : Prop where
  device : s.serialPort.map OpenPort.device = if phase = .opened then some comName else none
  name : s.serialPortName = if phase = .pending then [] else comName
  queued : phase.Queued comName s.handlers
  writing : ∀ write ∈ s.writing, write.cb = .noop
  events : phase.Events comName s.log

namespace InPhase

variable {comName : Bytes} {phase : Phase} {s : SerialPortSession}

/-- The session that `create` pushes. -/
theorem created (comName : Bytes) :
    InPhase comName .pending (init {} false comName .noop) where
  device := rfl
  name := rfl
  queued := rfl
  writing := by simp [init]
  events := rfl

theorem isOpen_iff (h : InPhase comName phase s) : s.isOpen = true ↔ phase = .opened := by
  have hdevice := h.device
  rw [isOpen, ← Option.isSome_map (f := OpenPort.device), hdevice]
  by_cases hphase : phase = .opened <;> simp [hphase]

theorem serialPort_eq_none (h : InPhase comName phase s) (hphase : phase ≠ .opened) :
    s.serialPort = none := by
  have hdevice := h.device
  rw [if_neg hphase] at hdevice
  exact Option.map_eq_none_iff.mp hdevice

theorem serialPort_eq_some (h : InPhase comName .opened s) :
    ∃ baudRate, s.serialPort = some ⟨comName, baudRate⟩ := by
  obtain ⟨port, hport, hdevice⟩ := Option.map_eq_some_iff.mp h.device
  exact ⟨port.baudRate, by rw [hport, ← hdevice]⟩

/-- A session that is not pending carries its name. -/
theorem name_eq (h : InPhase comName phase s) (hphase : phase ≠ .pending) :
    s.serialPortName = comName := by
  have hname := h.name
  rwa [if_neg hphase] at hname

/-- An `init` is queued exactly while the session is pending. -/
theorem initNames_eq (h : InPhase comName phase s) :
    s.initNames = if phase = .pending then [comName] else [] := by
  have hqueued := h.queued
  rw [initNames]
  cases phase with
  | pending =>
      rw [show s.handlers = [.init comName .noop] from hqueued]
      rfl
  | failed =>
      rw [show s.handlers = [] from hqueued]
      rfl
  | opened | closed =>
      rw [if_neg (by decide), List.filterMap_eq_nil_iff]
      intro handler hhandler
      obtain ⟨ptr, rfl⟩ := hqueued handler hhandler
      rfl

/-- Only a failed session saw an open fail. -/
theorem openFailed_mem_iff (h : InPhase comName phase s) (name : Bytes) :
    .openFailed name ∈ s.log ↔ phase = .failed ∧ name = comName := by
  have hevents := h.events
  cases phase with
  | pending =>
      rw [show s.log = [] from hevents]
      simp
  | failed =>
      rw [show s.log = [.openFailed comName] from hevents]
      simp
  | opened =>
      obtain ⟨frames, hlog⟩ := hevents
      simp [hlog]
  | closed =>
      obtain ⟨frames, hlog⟩ := hevents
      simp [hlog]

/-- A session opens no device but its own. -/
theorem opened_mem (h : InPhase comName phase s) {device : Bytes} (hmem : .opened device ∈ s.log) :
    device = comName := by
  have hevents := h.events
  cases phase with
  | pending =>
      rw [show s.log = [] from hevents] at hmem
      cases hmem
  | failed =>
      rw [show s.log = [.openFailed comName] from hevents] at hmem
      simp at hmem
  | opened =>
      obtain ⟨frames, hlog⟩ := hevents
      simpa [hlog] using hmem
  | closed =>
      obtain ⟨frames, hlog⟩ := hevents
      simpa [hlog] using hmem

/-! ## Steps of the session -/

/-- A field that the phase does not mention may change. -/
theorem congr {s' : SerialPortSession} (h : InPhase comName phase s)
    (hdevice : s'.serialPort = s.serialPort) (hname : s'.serialPortName = s.serialPortName)
    (hhandlers : s'.handlers = s.handlers) (hwriting : ∀ write ∈ s'.writing, write.cb = .noop)
    (hlog : s'.log = s.log) : InPhase comName phase s' where
  device := hdevice ▸ h.device
  name := hname ▸ h.name
  queued := hhandlers ▸ h.queued
  writing := hwriting
  events := hlog ▸ h.events

/-- The queued `init` opens the port or fails to. -/
theorem runInit (h : InPhase comName .pending s) (answers : List ErrorCode) :
    let next := { runHandler { s with handlers := [], answers := answers } (.init comName .noop)
      with answers := [] }
    InPhase comName .opened next ∧ next.handlers = [] ∨ InPhase comName .failed next := by
  have hport := h.serialPort_eq_none (by decide)
  have hlog : s.log = [] := h.events
  have hwriting := h.writing
  rcases initHandler_closed { s with handlers := [], answers := answers } hport comName .noop
    with ⟨error, rest, heq⟩ | ⟨error, rate, rest, heq⟩
  · right
    rw [runHandler, heq]
    exact
      { device := by simp [invoke, hport]
        name := rfl
        queued := rfl
        writing := hwriting
        events := by simp [invoke, hlog, Phase.Events] }
  · left
    rw [runHandler, heq]
    exact
      ⟨{ device := rfl
         name := rfl
         queued := by simp [invoke, Phase.Queued]
         writing := hwriting
         events := ⟨[], by simp [invoke, hlog]⟩ }, rfl⟩

/-- The handler that `close` queued writes the stop frame and closes the port. -/
theorem runClose (h : InPhase comName .opened s) {rest : List Handler}
    (hrest : ∀ handler ∈ rest, ∃ ptr, handler = .write ptr (frame 0) .closePort) (ptr : Nat)
    (answers : List ErrorCode) :
    InPhase comName .closed
      { runHandler { s with handlers := rest, answers := answers } (.write ptr (frame 0) .closePort)
        with answers := [] } := by
  obtain ⟨rate, hport⟩ := h.serialPort_eq_some
  obtain ⟨frames, hlog⟩ := h.events
  have hrun := writeHandler_open { s with handlers := rest, answers := answers } hport ptr (frame 0)
    (invoke .closePort)
  rw [runHandler, hrun]
  exact
    { device := by simp [invoke, serialClose, hport]
      name := by simpa [invoke, serialClose, hport] using h.name_eq (by decide)
      queued := by simpa [invoke, serialClose, hport, Phase.Queued] using hrest
      writing := by simpa [invoke, serialClose, hport] using h.writing
      events := ⟨frames, by simp [invoke, serialClose, hport, hlog]⟩ }

/-- A closing handler finds the port closed already. -/
theorem runClosed (h : InPhase comName .closed s) {rest : List Handler}
    (hrest : ∀ handler ∈ rest, ∃ ptr, handler = .write ptr (frame 0) .closePort) (ptr : Nat)
    (answers : List ErrorCode) :
    InPhase comName .closed
      { runHandler { s with handlers := rest, answers := answers } (.write ptr (frame 0) .closePort)
        with answers := [] } := by
  have hport := h.serialPort_eq_none (by decide)
  have hrun := writeHandler_closed { s with handlers := rest, answers := answers } hport ptr
    (frame 0) (invoke .closePort)
  rw [runHandler, hrun]
  exact
    { device := by simp [invoke, serialClose, hport]
      name := by simpa [invoke, serialClose, hport] using h.name
      queued := by simpa [invoke, serialClose, hport, Phase.Queued] using hrest
      writing := by simpa [invoke, serialClose, hport] using h.writing
      events := by simpa [invoke, serialClose, hport] using h.events }

/-- What a queued handler does to the phase. -/
theorem handler {next : SerialPortSession} {index : Nat} {answers : List ErrorCode}
    (h : InPhase comName phase s) (hstep : step s (.handler index answers) = some next) :
    phase = .pending ∧
        (InPhase comName .opened next ∧ next.handlers = [] ∨ InPhase comName .failed next) ∨
      (phase = .opened ∨ phase = .closed) ∧ InPhase comName .closed next := by
  obtain ⟨handler, hget, rfl⟩ := Option.map_eq_some_iff.mp hstep
  have hmem := List.mem_of_getElem? hget
  have hqueued := h.queued
  cases phase with
  | pending =>
      rw [show s.handlers = [.init comName .noop] from hqueued] at hget hmem
      obtain rfl := List.mem_singleton.mp hmem
      have hindex : index = 0 := by
        have := (List.getElem?_eq_some_iff.mp hget).1
        simpa using this
      have herase : s.handlers.eraseIdx index = [] := by
        rw [show s.handlers = [.init comName .noop] from hqueued, hindex]
        rfl
      rw [herase]
      exact Or.inl ⟨rfl, h.runInit answers⟩
  | failed =>
      rw [show s.handlers = [] from hqueued] at hmem
      cases hmem
  | opened =>
      obtain ⟨ptr, rfl⟩ := hqueued _ hmem
      exact Or.inr ⟨Or.inl rfl,
        h.runClose (fun other hother => hqueued other (List.mem_of_mem_eraseIdx hother)) ptr answers⟩
  | closed =>
      obtain ⟨ptr, rfl⟩ := hqueued _ hmem
      exact Or.inr ⟨Or.inr rfl,
        h.runClosed (fun other hother => hqueued other (List.mem_of_mem_eraseIdx hother)) ptr
          answers⟩

/-- A completed write leaves the phase and the queued handlers alone. -/
theorem complete {next : SerialPortSession} {index : Nat} {ec : ErrorCode}
    (h : InPhase comName phase s) (hstep : step s (.complete index ec) = some next) :
    InPhase comName phase next ∧ next.handlers = s.handlers := by
  obtain ⟨write, hget, rfl⟩ := Option.map_eq_some_iff.mp hstep
  rw [completeWrite, h.writing write (List.mem_of_getElem? hget)]
  refine ⟨h.congr rfl rfl rfl ?_ rfl, rfl⟩
  intro other hother
  exact h.writing other (List.mem_of_mem_eraseIdx hother)

/-- Whatever a session does by itself follows the order of the phases. -/
theorem step {next : SerialPortSession} {action : SerialPortSession.Action}
    (h : InPhase comName phase s) (hstep : SerialPortSession.step s action = some next) :
    ∃ phase', phase.Next phase' ∧ InPhase comName phase' next := by
  cases action with
  | handler index answers =>
      rcases h.handler hstep with ⟨rfl, ⟨hnext, _⟩ | hnext⟩ | ⟨rfl | rfl, hnext⟩
      · exact ⟨_, .opens, hnext⟩
      · exact ⟨_, .openFails, hnext⟩
      · exact ⟨_, .closes, hnext⟩
      · exact ⟨_, .stay _, hnext⟩
  | complete index ec => exact ⟨_, .stay _, (h.complete hstep).1⟩

/-! ## Calls of the server -/

/-- A command is written to an opened port and changes nothing else. -/
theorem setStateMode (h : InPhase comName phase s) (mode : Bytes) (direct : Bool) (speed : UInt8) :
    InPhase comName phase (s.setStateMode mode direct speed .noop (invoke .noop)) ∧
      (s.setStateMode mode direct speed .noop (invoke .noop)).handlers = s.handlers := by
  by_cases hmode : text "none" = mode
  · by_cases hopen : s.isOpen = true
    · obtain rfl := h.isOpen_iff.mp hopen
      obtain ⟨frames, hlog⟩ := h.events
      rw [SerialPortSession.setStateMode, if_pos hmode, setState_open s hopen]
      refine ⟨{ device := h.device, name := h.name, queued := h.queued, writing := ?_,
                events := ⟨frames ++ [_], by simp [hlog]; rfl⟩ }, rfl⟩
      exact List.forall_mem_append.mpr ⟨h.writing, List.forall_mem_singleton.mpr rfl⟩
    · simp [SerialPortSession.setStateMode, hmode, setState, hopen, invoke, h]
  · simp [SerialPortSession.setStateMode, hmode, h]

/-- Closing from outside the executor queues the closing handler of an opened port. -/
theorem close (h : InPhase comName phase s) :
    InPhase comName phase (s.close false) ∧
      (phase = .opened → (s.close false).handlers ≠ []) := by
  by_cases hopen : s.isOpen = true
  · obtain rfl := h.isOpen_iff.mp hopen
    rw [close_outside s hopen, stop_outside s hopen]
    refine ⟨{ device := h.device, name := h.name, queued := ?_, writing := h.writing,
              events := h.events }, by simp⟩
    have hqueued : ∀ handler ∈ s.handlers, ∃ ptr, handler = .write ptr (frame 0) .closePort :=
      h.queued
    exact List.forall_mem_append.mpr
      ⟨hqueued, List.forall_mem_singleton.mpr ⟨s.nextPtr, rfl⟩⟩
  · have hclosed : s.close false = s := by simp [SerialPortSession.close, hopen]
    rw [hclosed]
    exact ⟨h, fun hphase => absurd (h.isOpen_iff.mpr hphase) hopen⟩

end InPhase

end Vorze
