import Vorze.Serial.Operations

/-! # What `init` reports

`init` hands the result of `open` to its callback. The rate is set after the port
is open, and nobody hears of it when that fails.
-/

namespace Vorze

/-- The results of the port calls that are made in a turn. -/
def Turn.answers : Turn → List ErrorCode
  | .call _ _ answers | .own (.handler _ answers) => answers
  | .own (.complete ..) => []

namespace SerialPortSession

/-- The turn runs the body of an `init`, called inside the executor or queued. -/
def RunsInit (s : SerialPortSession) (name : Bytes) (id : Nat) : Turn → Prop
  | .call inside op _ => inside = true ∧ op = .init name (some id)
  | .own (.handler index _) => s.handlers[index]? = some (.init name (.user id))
  | .own (.complete ..) => False

/-- The callback gets a value without an error exactly when the port is open on
the name with its rate set, and with an error the port is closed. -/
def ReportsInit (s : SerialPortSession) (t : Turn) (name : Bytes) (id : Nat) : Prop :=
  ∃ next e, s.turn t = some next ∧ next.completed = s.completed ++ [(id, e)] ∧
    (e.isError = false ↔ next.serialPort = some ⟨name, some 19200⟩) ∧
    (e.isError = true → next.serialPort = none)

/-- An open port is stopped, given a rate and stopped again before it is closed. -/
def callsBeforeOpen (s : SerialPortSession) : Nat := if s.isOpen then 3 else 0

/-- The result of `serialPort.open`. -/
def openResult (s : SerialPortSession) (answers : List ErrorCode) : ErrorCode :=
  answers.getD s.callsBeforeOpen .success

/-- The result of the `set_option` after it. -/
def rateResult (s : SerialPortSession) (answers : List ErrorCode) : ErrorCode :=
  answers.getD (s.callsBeforeOpen + 1) .success

/-! ## The body of `init` -/

variable {s : SerialPortSession}

/-- A port that cannot be opened is reported with a text. -/
theorem openPort_failed (hport : s.serialPort = none) (inside : Bool) (name : Bytes)
    (hfailed : (s.answers.headD .success).failed = true) :
    ∃ error : ErrorInfo, error.isError = true ∧ s.openPort inside name = ((false, error),
      { s with serialPortName := name, answers := s.answers.tail,
               log := s.log ++ [.openFailed name] }) := by
  simp only [openPort, close_closed hport, serialOpen, hport, nextAnswer, hfailed, ↓reduceIte]
  refine ⟨_, ?_, rfl⟩
  simp [ErrorInfo.ofText, ErrorInfo.isError, text]

theorem openPort_succeeded (hport : s.serialPort = none) (inside : Bool) (name : Bytes)
    (hok : (s.answers.headD .success).failed = false) :
    s.openPort inside name = ((true, {}),
      { s with serialPort := some ⟨name, none⟩, serialPortName := name,
               answers := s.answers.tail, log := s.log ++ [.opened name] }) := by
  simp only [openPort, close_closed hport, serialOpen, hport, nextAnswer, hok,
    Bool.false_eq_true, ↓reduceIte]

/-- The rate is the new one when it could be set. -/
theorem setBaudRate_serialPort {port : OpenPort} (hport : s.serialPort = some port)
    (baudRate : Nat) :
    (s.setBaudRate baudRate).2.serialPort =
      some { port with baudRate :=
        if (s.answers.headD .success).failed then port.baudRate else some baudRate } := by
  simp only [setBaudRate, hport, nextAnswer]
  split <;> rfl

/-- On a closed port the results of two calls decide. -/
theorem initHandler_user (hport : s.serialPort = none) (name : Bytes) (id : Nat) :
    ∃ e : ErrorInfo, (s.initHandler name (.user id)).completed = s.completed ++ [(id, e)] ∧
      e.isError = (s.answers.headD .success).failed ∧
      (s.initHandler name (.user id)).serialPort =
        if (s.answers.headD .success).failed then none
        else some ⟨name,
          if (s.answers.tail.headD .success).failed then none else some 19200⟩ := by
  have hopen : ¬s.isOpen = true := by simp [isOpen, hport]
  rw [initHandler, if_neg hopen, invoke, setBaudRate_closed hport]
  by_cases hfailed : (s.answers.headD .success).failed = true
  · obtain ⟨error, herror, heq⟩ := openPort_failed hport true name hfailed
    refine ⟨error, ?_, by rw [herror, hfailed], ?_⟩
    · simp [heq, invoke]
    · simp only [heq, invoke, if_pos hfailed]
      exact hport
  · have hok : (s.answers.headD .success).failed = false := by simpa using hfailed
    have heq := openPort_succeeded hport true name hok
    have hopened : (s.openPort true name).2.serialPort = some ⟨name, none⟩ := by rw [heq]
    obtain ⟨rate, hrate⟩ := setBaudRate_open hopened 19200
    have hrated := setBaudRate_serialPort hopened 19200
    refine ⟨{}, ?_, hok.symm, ?_⟩
    · simp only [heq] at hrate
      simp [heq, hrate, invoke]
    · simp only [heq] at hrated
      simp only [heq, hrated, invoke, ↓reduceIte, if_neg hfailed]

/-- The body of an `init` in a turn: its callback hears of the opening, and the rate
of the port is whatever became of it. -/
theorem initHandler_reports (s : SerialPortSession) (name : Bytes) (id : Nat) :
    ∃ e : ErrorInfo, (s.initHandler name (.user id)).completed = s.completed ++ [(id, e)] ∧
      e.isError = (s.openResult s.answers).failed ∧
      (s.initHandler name (.user id)).serialPort =
        if (s.openResult s.answers).failed then none
        else some ⟨name, if (s.rateResult s.answers).failed then none else some 19200⟩ := by
  cases hport : s.serialPort with
  | none =>
      have hcalls : s.callsBeforeOpen = 0 := by simp [callsBeforeOpen, isOpen, hport]
      have huser := initHandler_user hport name id
      rw [List.headD_eq_head?_getD, List.headD_eq_head?_getD, List.head?_tail] at huser
      rw [openResult, rateResult, hcalls]
      simpa [List.getD_eq_getElem?_getD, List.head?_eq_getElem?] using huser
  | some port =>
      have hcalls : s.callsBeforeOpen = 3 := by simp [callsBeforeOpen, isOpen, hport]
      have huser := initHandler_user (s :=
        { (s.written (frame 0)).written (frame 0) with
          serialPort := none
          answers := s.answers.drop 3
          log := s.log ++ [.writeStarted (frame 0), .writeStarted (frame 0), .closed] })
        rfl name id
      rw [initHandler_open hport, openResult, rateResult, hcalls]
      rw [List.headD_eq_head?_getD, List.headD_eq_head?_getD, List.head?_tail] at huser
      simpa [List.getD_eq_getElem?_getD, List.head?_drop, written] using huser

/-- The turn of an `init` is its body. -/
theorem turn_init {t : Turn} {name : Bytes} {id : Nat} (hruns : RunsInit s name id t) :
    ∃ begun : SerialPortSession, s.turn t =
        some { begun.initHandler name (.user id) with answers := [] } ∧
      begun.answers = t.answers ∧ begun.serialPort = s.serialPort ∧
      begun.completed = s.completed := by
  cases t with
  | call inside op answers =>
      obtain ⟨hinside, hop⟩ := hruns
      subst hinside hop
      exact ⟨{ s with answers := answers }, rfl, rfl, rfl, rfl⟩
  | own action =>
      cases action with
      | handler index answers =>
          refine ⟨{ s with handlers := s.handlers.eraseIdx index, answers := answers },
            ?_, rfl, rfl, rfl⟩
          have hqueued : s.handlers[index]? = some (.init name (.user id)) := hruns
          rw [turn, step, hqueued, Option.map_some, runHandler]
      | complete index ec => exact absurd hruns not_false

/-- `init` reports what it did unless the port opens and the rate cannot be set then. -/
theorem reportsInit_iff (s : SerialPortSession) (name : Bytes) (id : Nat) (t : Turn)
    (hruns : RunsInit s name id t) :
    ReportsInit s t name id ↔
      ((s.openResult t.answers).failed = false → (s.rateResult t.answers).failed = false) := by
  obtain ⟨begun, hturn, hanswers, hport, hcompleted⟩ := turn_init hruns
  obtain ⟨e, hreport, herror, hleft⟩ := begun.initHandler_reports name id
  have hcalls : begun.callsBeforeOpen = s.callsBeforeOpen := by
    rw [callsBeforeOpen, callsBeforeOpen, isOpen, isOpen, hport]
  have hopened : begun.openResult begun.answers = s.openResult t.answers := by
    rw [openResult, openResult, hcalls, hanswers]
  have hrated : begun.rateResult begun.answers = s.rateResult t.answers := by
    rw [rateResult, rateResult, hcalls, hanswers]
  rw [hopened] at herror hleft
  rw [hrated] at hleft
  constructor
  · rintro ⟨next, e', hnext, hreport', hport', -⟩ hok
    rw [hturn, Option.some.injEq] at hnext
    subst hnext
    have he : e' = e := by simpa [hreport, hcompleted] using hreport'.symm
    rw [he, herror, hleft, hok] at hport'
    simpa using hport'
  · intro hrate
    refine ⟨_, e, hturn, by rw [hreport, hcompleted], ?_, ?_⟩
    · rw [herror, hleft]
      cases hok : (s.openResult t.answers).failed with
      | true => simp
      | false => simp [hrate hok]
    · intro hfailed
      rw [hleft, ← herror, if_pos hfailed]

theorem reportsInit_com3 :
    RunsInit {} (text "COM3") 1 (.call true (.init (text "COM3") (some 1)) []) ∧
      ReportsInit {} (.call true (.init (text "COM3") (some 1)) []) (text "COM3") 1 :=
  ⟨⟨rfl, rfl⟩, (reportsInit_iff {} (text "COM3") 1
    (.call true (.init (text "COM3") (some 1)) []) ⟨rfl, rfl⟩).mpr fun _ => by decide⟩

/-- A device that opens and then refuses the rate: the callback hears of no error. -/
theorem exists_init_without_rate :
    ∃ (s : SerialPortSession) (name : Bytes) (id : Nat) (t : Turn), RunsInit s name id t ∧
      ¬ReportsInit s t name id := by
  refine ⟨{}, text "COM3", 1, .call true (.init (text "COM3") (some 1))
    [.success, ⟨87, text "The parameter is incorrect"⟩], ⟨rfl, rfl⟩, ?_⟩
  rintro ⟨next, e, hnext, hreport, hport, -⟩
  have hnext' : next =
      { serialPort := some ⟨text "COM3", none⟩, serialPortName := text "COM3",
        completed := [(1, {})], log := [.opened (text "COM3")] } := by
    rw [← Option.some.inj hnext]
    decide
  subst hnext'
  have he : e = {} := by simpa using hreport.symm
  subst he
  exact absurd (hport.mp (by decide)) (by decide)

end SerialPortSession

end Vorze
