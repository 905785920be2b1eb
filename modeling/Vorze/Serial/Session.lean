import Vorze.Serial.ErrorInfo

/-! # One serial port session

The methods of `SerialPortSession`. The closures that are passed as completion
callbacks or queued on the session's executor are data, and `invoke` and `run`
give their bodies. `dispatch` runs its handler at once when the caller is
`inside` the executor and queues it otherwise.
-/

namespace Vorze

/-- `boost::asio::serial_port` while a device is open. -/
structure OpenPort where
  device : Bytes
  baudRate : Option Nat
  deriving DecidableEq, Repr

/-- What happened at the device, in order. -/
inductive PortEvent
  | opened (device : Bytes)
  | openFailed (device : Bytes)
  | writeStarted (data : Bytes)
  | closed
  deriving DecidableEq, Repr

/-- The closures passed as `SendCompleteCallback`. -/
inductive Callback
  | noop
  /-- a callback of the caller that records its argument -/
  | user (id : Nat)
  /-- the closure of `close`, which closes the port -/
  | closePort
  /-- the closure `start` of `init` -/
  | start (serialPortName : Bytes) (cb : Callback)
  deriving DecidableEq, Repr

/-- The handlers that `init` and `sendSync` dispatch. -/
inductive Handler
  | init (serialPortName : Bytes) (cb : Callback)
  | write (ptr : Nat) (data : Bytes) (cb : Callback)
  deriving DecidableEq, Repr

/-- An `async_write` in flight and its completion handler. -/
structure AsyncWrite where
  ptr : Nat
  data : Bytes
  cb : Callback
  deriving DecidableEq, Repr

/-- `SerialPortSession`. Entries of `sendingData` are named by the allocation
that made them. `answers` are the results the device gives to the next port
calls, `completed` and `log` record the callbacks run and the device events. -/
structure SerialPortSession where
  serialPort : Option OpenPort := none
  serialPortName : Bytes := []
  sendingData : List Nat := []
  nextPtr : Nat := 0
  handlers : List Handler := []
  writing : List AsyncWrite := []
  answers : List ErrorCode := []
  completed : List (Nat × ErrorInfo) := []
  log : List PortEvent := []
  deriving DecidableEq, Repr

namespace SerialPortSession

/-! ## Port calls -/

def isOpen (s : SerialPortSession) : Bool := s.serialPort.isSome

/-- The result of the next port call; a device that is not asked to fail succeeds. -/
def nextAnswer (s : SerialPortSession) : ErrorCode × SerialPortSession :=
  (s.answers.headD .success, { s with answers := s.answers.tail })

/-- `serialPort.open(name, ec)`. -/
def serialOpen (s : SerialPortSession) (name : Bytes) : ErrorCode × SerialPortSession :=
  match s.serialPort with
  | some _ => (.alreadyOpen, { s with log := s.log ++ [.openFailed name] })
  | none =>
      let (ec, s) := s.nextAnswer
      if ec.failed then (ec, { s with log := s.log ++ [.openFailed name] })
      else (ec, { s with serialPort := some ⟨name, none⟩, log := s.log ++ [.opened name] })

/-- `serialPort.close(ec)`: the handle is released whatever `ec` says. -/
def serialClose (s : SerialPortSession) : SerialPortSession :=
  match s.serialPort with
  | some _ => { s with serialPort := none, log := s.log ++ [.closed] }
  | none => s

/-- `boost::asio::write(serialPort, data, ec)`. -/
def serialWrite (s : SerialPortSession) (data : Bytes) : ErrorCode × SerialPortSession :=
  let (ec, s) := s.nextAnswer
  (ec, { s with log := s.log ++ [.writeStarted data] })

def setBaudRate (s : SerialPortSession) (baudRate : Nat) :
    (Bool × ErrorInfo) × SerialPortSession :=
  match s.serialPort with
  | some port =>
      let (ec, s) := s.nextAnswer
      if ec.failed then
        ((false, .ofText (text "setBaudRate::setBaudRate() error on serialPortName:" ++
          s.serialPortName ++ text " with baudRate:" ++ decimal baudRate ++ text " error:" ++
          ec.message)), s)
      else ((true, {}), { s with serialPort := some { port with baudRate := some baudRate } })
  | none => ((false, .notOpen), s)

/-! ## Sending -/

/-- `sendingData.emplace(...)`. -/
def emplaceData (s : SerialPortSession) : Nat × SerialPortSession :=
  (s.nextPtr, { s with sendingData := s.sendingData ++ [s.nextPtr], nextPtr := s.nextPtr + 1 })

def eraseData (s : SerialPortSession) (ptr : Nat) : SerialPortSession :=
  { s with sendingData := s.sendingData.erase ptr }

/-- The body of a callback, as a change of the session. -/
abbrev Body := SerialPortSession → ErrorInfo → SerialPortSession

/-- `sendAsync`; `body` is what calling `cb` does. -/
def sendAsync (s : SerialPortSession) (data : Bytes) (cb : Callback) (body : Body) :
    SerialPortSession :=
  if s.isOpen then
    let (ptr, s) := s.emplaceData
    -- nothing waits for the writes that are in flight already
    { s with writing := s.writing ++ [⟨ptr, data, cb⟩], log := s.log ++ [.writeStarted data] }
  else body s .notOpen

/-- The handler that `sendSync` dispatches. -/
def writeHandler (s : SerialPortSession) (ptr : Nat) (data : Bytes) (body : Body) :
    SerialPortSession :=
  if s.isOpen then
    let (ec, s) := s.serialWrite data
    body (s.eraseData ptr) (.ofCode ec)
  else body s .notOpen -- the early return leaves the entry of `sendingData`

def sendSync (s : SerialPortSession) (inside : Bool) (data : Bytes) (cb : Callback) (body : Body) :
    SerialPortSession :=
  if s.isOpen then
    let (ptr, s) := s.emplaceData
    if inside then s.writeHandler ptr data body
    else { s with handlers := s.handlers ++ [.write ptr data cb] }
  else body s .notOpen

/-- The three bytes of a command. -/
def frame (c : UInt8) : Bytes := [1, 1, c]

def sendCommand (s : SerialPortSession) (inside : Bool) (c : UInt8) (cb : Callback) (body : Body)
    (async : Bool) : SerialPortSession :=
  if s.isOpen then
    if async then s.sendAsync (frame c) cb body else s.sendSync inside (frame c) cb body
  else body s .notOpen

def stop (s : SerialPortSession) (inside : Bool) (cb : Callback) (body : Body) :
    SerialPortSession :=
  s.sendCommand inside 0 cb body false

/-- The speed byte after the two range checks of `setState`. -/
def clampSpeed (speed : UInt8) : UInt8 :=
  let speed := if speed > 100 then 100 else speed
  if speed ≥ 0x80 then 0 else speed

def setState (s : SerialPortSession) (direct : Bool) (speed : UInt8) (cb : Callback)
    (body : Body) : SerialPortSession :=
  if s.isOpen then
    s.sendCommand false ((if direct then 0x80 else 0x00) + clampSpeed speed) cb body true
  else body s .notOpen

/-- The overload with a mode. `ActionModeManager::init` only looks the mode up
and its result is dropped, so another mode does nothing, not even call `cb`. -/
def setStateMode (s : SerialPortSession) (mode : Bytes) (direct : Bool) (speed : UInt8)
    (cb : Callback) (body : Body) : SerialPortSession :=
  if text "none" = mode then s.setState direct speed cb body else s

/-! ## Opening and closing -/

def close (s : SerialPortSession) (inside : Bool) : SerialPortSession :=
  if s.isOpen then s.stop inside .closePort fun s _ => s.serialClose else s

def openPort (s : SerialPortSession) (inside : Bool) (serialPortName : Bytes) :
    (Bool × ErrorInfo) × SerialPortSession :=
  let s := { s.close inside with serialPortName := serialPortName }
  let (ec, s) := s.serialOpen serialPortName
  if ec.failed then
    ((false, .ofText (text "SerialPortSession::open() error on serialPortName:" ++
      serialPortName ++ text " error:" ++ ec.message)), s)
  else ((true, {}), s)

/-- The bodies of the closures. `start` runs in the handler of `init`, so its
calls are made inside the executor. -/
def invoke : Callback → Body
  | .noop, s, _ => s
  | .user id, s, e => { s with completed := s.completed ++ [(id, e)] }
  | .closePort, s, _ => s.serialClose
  | .start serialPortName cb, s, _ =>
      -- the rate is also set before `open`, where it only concerns a port still open
      let s := (s.setBaudRate 19200).2
      let (result, s) := s.openPort true serialPortName
      let s := if result.1 then (s.setBaudRate 19200).2 else s
      invoke cb s result.2

/-- The handler that `init` dispatches. -/
def initHandler (s : SerialPortSession) (serialPortName : Bytes) (cb : Callback) :
    SerialPortSession :=
  let start := Callback.start serialPortName cb
  if s.isOpen then s.stop true start (invoke start) else invoke start s {}

def init (s : SerialPortSession) (inside : Bool) (serialPortName : Bytes) (cb : Callback) :
    SerialPortSession :=
  if inside then s.initHandler serialPortName cb
  else { s with handlers := s.handlers ++ [.init serialPortName cb] }

/-! ## What the port calls come to -/

theorem isOpen_of_some {s : SerialPortSession} {port : OpenPort} (hport : s.serialPort = some port) :
    s.isOpen = true := by
  rw [isOpen, hport, Option.isSome_some]

theorem isOpen_of_none {s : SerialPortSession} (hport : s.serialPort = none) :
    s.isOpen = false := by
  rw [isOpen, hport, Option.isSome_none]

theorem setBaudRate_closed {s : SerialPortSession} (hport : s.serialPort = none) (baudRate : Nat) :
    s.setBaudRate baudRate = ((false, .notOpen), s) := by
  rw [setBaudRate, hport]

/-- Only the rate of the port can change, and an answer is used up. -/
theorem setBaudRate_open {s : SerialPortSession} {port : OpenPort}
    (hport : s.serialPort = some port) (baudRate : Nat) :
    ∃ rate, (s.setBaudRate baudRate).2 =
      { s with serialPort := some { port with baudRate := rate }, answers := s.answers.tail } := by
  simp only [setBaudRate, hport, nextAnswer]
  split
  · exact ⟨port.baudRate, by rw [← hport]⟩
  · exact ⟨some baudRate, rfl⟩

/-- Opening a closed port either fails or leaves the port open on the device. -/
theorem openPort_closed {s : SerialPortSession} (hport : s.serialPort = none) (inside : Bool)
    (name : Bytes) :
    (∃ error answers, s.openPort inside name = ((false, error),
        { s with serialPortName := name, answers := answers,
                 log := s.log ++ [.openFailed name] })) ∨
      ∃ answers, s.openPort inside name = ((true, {}),
        { s with serialPort := some ⟨name, none⟩, serialPortName := name, answers := answers,
                 log := s.log ++ [.opened name] }) := by
  have hclose : s.close inside = s := by simp [close, isOpen, hport]
  by_cases hfailed : (s.answers.headD .success).failed = true
  · simp only [openPort, hclose, serialOpen, hport, nextAnswer, hfailed, ↓reduceIte]
    exact Or.inl ⟨_, s.answers.tail, rfl⟩
  · simp only [openPort, hclose, serialOpen, hport, nextAnswer, hfailed, Bool.false_eq_true,
      ↓reduceIte]
    exact Or.inr ⟨s.answers.tail, rfl⟩

/-- The handler of `init` on a closed port opens it and reports to the callback. -/
theorem initHandler_closed (s : SerialPortSession) (hport : s.serialPort = none) (name : Bytes)
    (cb : Callback) :
    (∃ error answers, s.initHandler name cb = invoke cb
        { s with serialPortName := name, answers := answers,
                 log := s.log ++ [.openFailed name] } error) ∨
      ∃ error rate answers, s.initHandler name cb = invoke cb
        { s with serialPort := some ⟨name, rate⟩, serialPortName := name, answers := answers,
                 log := s.log ++ [.opened name] } error := by
  simp only [initHandler, isOpen_of_none hport, Bool.false_eq_true, ↓reduceIte, invoke,
    setBaudRate_closed hport]
  rcases openPort_closed hport true name with ⟨error, answers, heq⟩ | ⟨answers, heq⟩
  · exact Or.inl ⟨error, answers, by simp [heq]⟩
  · obtain ⟨rate, hrate⟩ := setBaudRate_open
      (s := { s with serialPort := some ⟨name, none⟩, serialPortName := name, answers := answers,
                     log := s.log ++ [.opened name] }) rfl 19200
    exact Or.inr ⟨{}, rate, answers.tail, by simp [heq, hrate]⟩

theorem writeHandler_open (s : SerialPortSession) {port : OpenPort} (hport : s.serialPort = some port)
    (ptr : Nat) (data : Bytes) (body : Body) :
    s.writeHandler ptr data body =
      body { s with sendingData := s.sendingData.erase ptr, answers := s.answers.tail,
                    log := s.log ++ [.writeStarted data] }
        (.ofCode (s.answers.headD .success)) := by
  simp [writeHandler, isOpen, hport, serialWrite, nextAnswer, eraseData]

theorem writeHandler_closed (s : SerialPortSession) (hport : s.serialPort = none) (ptr : Nat)
    (data : Bytes) (body : Body) : s.writeHandler ptr data body = body s .notOpen := by
  simp [writeHandler, isOpen, hport]

/-- A command on an open port starts one write of one frame. -/
theorem setState_open (s : SerialPortSession) (hopen : s.isOpen = true) (direct : Bool)
    (speed : UInt8) (cb : Callback) (body : Body) :
    s.setState direct speed cb body =
      { s with
        sendingData := s.sendingData ++ [s.nextPtr]
        nextPtr := s.nextPtr + 1
        writing := s.writing ++
          [⟨s.nextPtr, frame ((if direct then 0x80 else 0x00) + clampSpeed speed), cb⟩]
        log := s.log ++
          [.writeStarted (frame ((if direct then 0x80 else 0x00) + clampSpeed speed))] } := by
  simp [setState, hopen, sendCommand, sendAsync, emplaceData]

/-- Stopping an open port from outside the executor queues the stop frame. -/
theorem stop_outside (s : SerialPortSession) (hopen : s.isOpen = true) (cb : Callback)
    (body : Body) :
    s.stop false cb body =
      { s with
        sendingData := s.sendingData ++ [s.nextPtr]
        nextPtr := s.nextPtr + 1
        handlers := s.handlers ++ [.write s.nextPtr (frame 0) cb] } := by
  simp [stop, hopen, sendCommand, sendSync, emplaceData]

/-- The session after a frame was written inside the executor. -/
def written (s : SerialPortSession) (data : Bytes) : SerialPortSession :=
  { s with
    sendingData := (s.sendingData ++ [s.nextPtr]).erase s.nextPtr
    nextPtr := s.nextPtr + 1
    answers := s.answers.tail
    log := s.log ++ [.writeStarted data] }

/-- The entry of the frame is gone again, unless the pointer was in use. -/
theorem written_fresh {s : SerialPortSession} (hfresh : s.nextPtr ∉ s.sendingData) (data : Bytes) :
    s.written data =
      { s with nextPtr := s.nextPtr + 1, answers := s.answers.tail,
               log := s.log ++ [.writeStarted data] } := by
  rw [written, List.erase_append_right _ hfresh, List.erase_cons_head, List.append_nil]

theorem sendSync_inside {s : SerialPortSession} {port : OpenPort}
    (hport : s.serialPort = some port) (data : Bytes) (cb : Callback) (body : Body) :
    s.sendSync true data cb body =
      body (s.written data) (.ofCode (s.answers.headD .success)) := by
  rw [sendSync, if_pos (isOpen_of_some hport)]
  exact writeHandler_open s.emplaceData.2 hport s.nextPtr data body

theorem stop_inside {s : SerialPortSession} {port : OpenPort} (hport : s.serialPort = some port)
    (cb : Callback) (body : Body) :
    s.stop true cb body =
      body (s.written (frame 0)) (.ofCode (s.answers.headD .success)) := by
  rw [stop, sendCommand, if_pos (isOpen_of_some hport), if_neg (by decide), sendSync_inside hport]

/-- Inside the executor a port is closed at once, right after the stop frame. -/
theorem close_inside {s : SerialPortSession} {port : OpenPort} (hport : s.serialPort = some port) :
    s.close true =
      { s.written (frame 0) with
        serialPort := none
        log := s.log ++ [.writeStarted (frame 0), .closed] } := by
  rw [close, if_pos (isOpen_of_some hport), stop_inside hport]
  simp [serialClose, written, hport]

theorem close_closed {s : SerialPortSession} (hport : s.serialPort = none) (inside : Bool) :
    s.close inside = s := by
  simp [close, isOpen, hport]

theorem openPort_inside (s : SerialPortSession) (name : Bytes)
    (hclosed : (s.close true).serialPort = none) :
    s.openPort true name = (s.close true).openPort true name := by
  rw [openPort, openPort, close_closed hclosed]

/-- On an open port `start` sets a rate, stops the device and closes the port, whatever
that comes to, and goes on as `init` does on a closed one. -/
theorem invoke_start_open {s : SerialPortSession} {port : OpenPort}
    (hport : s.serialPort = some port) (name : Bytes) (cb : Callback) (e : ErrorInfo) :
    invoke (.start name cb) s e = initHandler
      { s.written (frame 0) with
        serialPort := none
        answers := s.answers.drop 2
        log := s.log ++ [.writeStarted (frame 0), .closed] }
      name cb := by
  obtain ⟨rate, hrate⟩ := setBaudRate_open hport 19200
  have hrated : (s.setBaudRate 19200).2.serialPort = some { port with baudRate := rate } := by
    rw [hrate]
  have hclose : (s.setBaudRate 19200).2.close true =
      { s.written (frame 0) with
        serialPort := none
        answers := s.answers.drop 2
        log := s.log ++ [.writeStarted (frame 0), .closed] } := by
    rw [close_inside hrated, hrate]
    simp [written, ← List.drop_one]
  rw [invoke, openPort_inside _ name (by rw [hclose]), hclose, initHandler]
  simp [isOpen, invoke, setBaudRate_closed]

/-- On an open port `init` stops the device twice, closes the port and goes on
as on a closed one, three results later. -/
theorem initHandler_open {s : SerialPortSession} {port : OpenPort} (hport : s.serialPort = some port)
    (name : Bytes) (cb : Callback) :
    s.initHandler name cb = initHandler
      { (s.written (frame 0)).written (frame 0) with
        serialPort := none
        answers := s.answers.drop 3
        log := s.log ++ [.writeStarted (frame 0), .writeStarted (frame 0), .closed] }
      name cb := by
  have hwritten : (s.written (frame 0)).serialPort = some port := hport
  rw [initHandler, if_pos (isOpen_of_some hport), stop_inside hport, invoke_start_open hwritten]
  simp [written]

theorem close_outside (s : SerialPortSession) (hopen : s.isOpen = true) :
    s.close false = s.stop false .closePort fun s _ => s.serialClose := by
  rw [close, if_pos hopen]

/-- The speed that is sent never exceeds a hundred. -/
theorem clampSpeed_le (speed : UInt8) : clampSpeed speed ≤ 100 := by
  unfold clampSpeed
  by_cases hlarge : speed > 100
  · simp [hlarge]
  · have hsmall : ¬speed ≥ 0x80 := fun hge => hlarge (UInt8.lt_of_lt_of_le (by decide) hge)
    simp only [hlarge, hsmall, ↓reduceIte]
    exact UInt8.not_lt.mp hlarge

/-! ## The executor -/

/-- The body of a queued handler. -/
def runHandler (s : SerialPortSession) : Handler → SerialPortSession
  | .init serialPortName cb => s.initHandler serialPortName cb
  | .write ptr data cb => s.writeHandler ptr data (invoke cb)

/-- The completion handler of an `async_write`. -/
def completeWrite (s : SerialPortSession) (write : AsyncWrite) (ec : ErrorCode) :
    SerialPortSession :=
  invoke write.cb (s.eraseData write.ptr) (.ofCode ec)

/-- The ports that the queued `init` handlers will open. -/
def initNames (s : SerialPortSession) : List Bytes :=
  s.handlers.filterMap fun
    | .init serialPortName _ => some serialPortName
    | .write .. => none

/-- The data of the writes that were started, in order. -/
def writesStarted (log : List PortEvent) : List Bytes :=
  log.filterMap fun
    | .writeStarted data => some data
    | _ => none

@[simp] theorem writesStarted_append (log rest : List PortEvent) :
    writesStarted (log ++ rest) = writesStarted log ++ writesStarted rest :=
  List.filterMap_append

@[simp] theorem writesStarted_singleton (data : Bytes) :
    writesStarted [.writeStarted data] = [data] := rfl

/-- What can run next for a session: a queued handler, with the results of its
port calls, or the completion of a write in flight. -/
inductive Action
  | handler (index : Nat) (answers : List ErrorCode)
  | complete (index : Nat) (ec : ErrorCode)
  deriving DecidableEq, Repr

/-- Handlers run one at a time; any queued handler may be the next one. -/
def step (s : SerialPortSession) : Action → Option SerialPortSession
  | .handler index answers =>
      (s.handlers[index]?).map fun handler =>
        { runHandler { s with handlers := s.handlers.eraseIdx index, answers := answers } handler
          with answers := [] }
  | .complete index ec =>
      (s.writing[index]?).map fun write =>
        completeWrite { s with writing := s.writing.eraseIdx index } write ec

end SerialPortSession

end Vorze
