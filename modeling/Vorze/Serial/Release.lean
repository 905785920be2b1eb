import Vorze.Serial.Operations
import Mathlib.Data.List.Basic

/-! # Releasing a port

Whatever is called on a session, it closes a port only right after it stopped
the device, and the name it gives is that of the device it has open.
-/

namespace Vorze.SerialPortSession

/-- Every closing comes right after the stop frame. -/
def StopsBeforeClosing (events : List PortEvent) : Prop :=
  ∀ before after, events = before ++ .closed :: after →
    before.getLast? = some (.writeStarted (frame 0))

/-- The name of the session is the name of its device. -/
def NamesDevice (s : SerialPortSession) : Prop :=
  ∀ port, s.serialPort = some port → s.serialPortName = port.device

/-- What happens at the device in one turn: a port that is given up is closed,
and the stop frame is written in the same turn right before. -/
def ReleasesStopped (s next : SerialPortSession) : Prop :=
  ∃ events, next.log = s.log ++ events ∧ StopsBeforeClosing events ∧
    ∀ port, s.serialPort = some port →
      next.serialPort.map OpenPort.device ≠ some port.device → .closed ∈ events

theorem stopsBeforeClosing_of_notMem {events : List PortEvent} (h : .closed ∉ events) :
    StopsBeforeClosing events := by
  intro before after heq
  rw [heq] at h
  exact absurd (List.mem_append_right before List.mem_cons_self) h

/-- One closing, and the stop frame before it. -/
theorem stopsBeforeClosing_once (front : List PortEvent) {back : List PortEvent}
    (hfront : .closed ∉ front) (hback : .closed ∉ back) :
    StopsBeforeClosing (front ++ .writeStarted (frame 0) :: .closed :: back) := by
  intro before after heq
  have hfront' : PortEvent.closed ∉ front ++ [.writeStarted (frame 0)] := by simp [hfront]
  have hsplit : before ++ .closed :: after =
      (front ++ [.writeStarted (frame 0)]) ++ .closed :: back := by
    rw [← heq, List.append_assoc, List.singleton_append]
  obtain ⟨rfl, -, -⟩ := (List.append_cons_inj_of_notMem hfront' hback).mp hsplit.symm
  exact List.getLast?_concat

variable {s next : SerialPortSession}

/-- The events of an `init`, whether it had a port to close or not. -/
theorem stopsBeforeClosing_released {event : PortEvent} (hevent : event ≠ .closed) :
    StopsBeforeClosing (s.released ++ [event]) := by
  unfold released
  split
  next =>
    exact stopsBeforeClosing_once [.writeStarted (frame 0)] (by simp)
      (by simpa using hevent.symm)
  next => exact stopsBeforeClosing_of_notMem (by simpa using hevent.symm)

theorem closed_mem_released {port : OpenPort} (hport : s.serialPort = some port) :
    .closed ∈ s.released := by
  simp [released, isOpen, hport]

/-! ## One turn -/

theorem Now.namesDevice (h : Now s next) (hs : NamesDevice s) : NamesDevice next := by
  intro port hport
  cases h with
  | report | write => exact hs port hport
  | close | initFails => cases hport
  | initOpens =>
      obtain rfl := Option.some.inj hport
      rfl

theorem Now.releasesStopped (h : Now s next) : ReleasesStopped s next := by
  cases h with
  | report => exact ⟨[], by simp, stopsBeforeClosing_of_notMem (by simp), by simp +contextual⟩
  | write data =>
      exact ⟨[.writeStarted data], rfl, stopsBeforeClosing_of_notMem (by simp),
        by simp +contextual⟩
  | close =>
      exact ⟨_, rfl, stopsBeforeClosing_once [] (by simp) (by simp), by simp⟩
  | initFails name | initOpens name =>
      refine ⟨_, List.append_assoc .., stopsBeforeClosing_released (by simp), ?_⟩
      intro port hport _
      exact List.mem_append_left _ (closed_mem_released hport)

theorem Called.namesDevice (h : Called s next) (hs : NamesDevice s) : NamesDevice next := by
  cases h with
  | now h => exact h.namesDevice hs
  | queueInit | queueWrite | startWrite => exact hs

theorem Called.releasesStopped (h : Called s next) : ReleasesStopped s next := by
  cases h with
  | now h => exact h.releasesStopped
  | queueInit | queueWrite =>
      exact ⟨[], by simp, stopsBeforeClosing_of_notMem (by simp), by simp +contextual⟩
  | startWrite data =>
      exact ⟨[.writeStarted data], rfl, stopsBeforeClosing_of_notMem (by simp),
        by simp +contextual⟩

theorem Change.namesDevice {t : Turn} (h : s.Change t next) (hs : NamesDevice s) :
    NamesDevice next := by
  cases h with
  | call h => exact h.namesDevice hs
  | ranInit _ h | ranWrite _ _ h | foundClosed _ _ h | completed _ h => exact h.namesDevice hs

theorem Change.releasesStopped {t : Turn} (h : s.Change t next) : ReleasesStopped s next := by
  cases h with
  | call h => exact h.releasesStopped
  | ranInit _ h | ranWrite _ _ h | foundClosed _ _ h | completed _ h =>
      -- popping the handler changes neither the port nor the log
      exact h.releasesStopped

/-! ## Runs -/

theorem namesDevice_of_exec {turns : List Turn} (hexec : Transition.exec turn {} turns = some s) :
    NamesDevice s := by
  have hinv := Transition.exec_invariant (fun s => FromCalls s ∧ NamesDevice s)
    (fun _ _ _ _ hs hturn =>
      have hchange := turn_change hs.1 hturn
      ⟨hchange.fromCalls hs.1, hchange.namesDevice hs.2⟩)
    ⟨fromCalls_new, fun _ hport => by cases hport⟩ (Transition.meets_true _ turns) hexec
  exact hinv.2

/-- In any run a port is closed right after the device was stopped, in the same
turn, and an open session carries the name of its device. -/
theorem port_released_stopped {turns : List Turn}
    (hexec : Transition.exec turn {} turns = some s) :
    NamesDevice s ∧ ∀ t next, s.turn t = some next → ReleasesStopped s next := by
  refine ⟨namesDevice_of_exec hexec, ?_⟩
  intro t next hturn
  exact (turn_change (fromCalls_of_exec hexec) hturn).releasesStopped

/-- An open session is moved from one port to another and closed from outside. -/
def moveAndClose : List Turn :=
  [.call false (.init (text "COM3") none) [], .own (.handler 0 []),
    .call true (.init (text "COM4") (some 1)) [], .call false .close [], .own (.handler 0 [])]

theorem port_released_stopped_moveAndClose :
    ∃ s, Transition.exec turn {} moveAndClose = some s ∧
      s.log = [.opened (text "COM3"), .writeStarted (frame 0), .writeStarted (frame 0), .closed,
        .opened (text "COM4"), .writeStarted (frame 0), .closed] ∧
      NamesDevice s ∧ ∀ t next, s.turn t = some next → ReleasesStopped s next := by
  obtain ⟨s, hexec, hlog⟩ :
      ∃ s, Transition.exec turn {} moveAndClose = some s ∧
        s.log = [.opened (text "COM3"), .writeStarted (frame 0), .writeStarted (frame 0), .closed,
          .opened (text "COM4"), .writeStarted (frame 0), .closed] :=
    Transition.exists_exec (by decide +kernel)
  exact ⟨s, hexec, hlog, port_released_stopped hexec⟩

end Vorze.SerialPortSession
