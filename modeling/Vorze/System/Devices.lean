import Vorze.Serial.Finder
import Vorze.Serial.Wire
import Vorze.System.Isolation

/-! # Which devices are opened, and what they are sent

The name in a request selects among the ports that were enumerated. So whatever
clients ask for, the process opens serial ports only, and what it sends them is
whole frames with a speed of a hundred at most.
-/

namespace Vorze

namespace SerialPortFinder

/-- The port name of an entry; it is empty when the second pattern did not match. -/
def IsPortName (name : Bytes) : Prop := IsCom name ∨ name = []

theorem found_isPortName {names : List Bytes} {info : SerialPortNameInfo}
    (hinfo : info ∈ found names) : IsPortName info.comName := by
  obtain ⟨name, hname, rfl⟩ := List.mem_map.mp hinfo
  obtain ⟨front, port, hsplits⟩ := selects_iff.mp (List.mem_filter.mp hname).2
  by_cases hfront : ∀ b ∈ front, notLineTerminator b = true
  · rw [comName_eq hsplits hfront]
    exact Or.inl hsplits.2
  · exact Or.inr (comName_eq_nil hsplits hfront)

end SerialPortFinder

namespace SerialPortControlServer

open HttpConnectSession SerialPortSession SerialPortFinder

/-! ## Where the names of the sessions come from -/

/-- Every known port was listed, and every session was created for a listed port
that was asked for. -/
structure Accounted (listed asked : Bytes → Prop) (server : SerialPortControlServer) : Prop where
  portsInfo : ∀ info ∈ server.portsInfo, listed info.comName
  created : ∀ c ∈ server.created, listed c.comName ∧ asked c.comName

theorem createdName_effect {server : SerialPortControlServer} {request : Request}
    {comName : Bytes} (hcreates : server.createdName request = some comName) :
    targetCOM request = some comName ∧ ∃ info ∈ server.portsInfo, info.comName = comName := by
  unfold createdName at hcreates
  split at hcreates
  next command hcommand =>
    obtain ⟨⟨_, _, hname⟩, hcom⟩ := Option.ite_none_right_eq_some.mp hcreates
    obtain rfl := Option.some.inj hcom
    refine ⟨targetCOM_of_requestCommand hcommand, ?_⟩
    simpa [checkNameValid] using hname
  next => cases hcreates

theorem Accounted.step {listed asked : Bytes → Prop} {server next : SerialPortControlServer}
    {action : Action} (h : Accounted listed asked server)
    (hlisted : ∀ ports, action = .found (some ports) → ∀ info ∈ ports, listed info.comName)
    (hasked : ∀ request name, action = .request request → targetCOM request = some name →
      asked name)
    (hstep : server.step action = some next) : Accounted listed asked next := by
  constructor
  · have hports : next.portsInfo = server.portsAfter action :=
      congrArg SerialPortControlServer.portsInfo (step_eq hstep)
    cases action with
    | found ports =>
        rw [hports]
        cases ports with
        | none => exact h.portsInfo
        | some ports => exact hlisted ports rfl
    | start | stop | timerExpires | timerHandler | request | session =>
        rw [hports]
        exact h.portsInfo
  · have hchange := step_change hstep
    generalize next.created = created at hchange
    cases hchange with
    | keep => exact h.created
    | create hcreates =>
        obtain ⟨htarget, info, hinfo, rfl⟩ := createdName_effect hcreates
        refine List.forall_mem_append.mpr ⟨h.created, List.forall_mem_singleton.mpr ?_⟩
        exact ⟨h.portsInfo info hinfo, hasked _ _ rfl htarget⟩
    | command hget =>
        exact forall_mem_modify h.created fun c hc => h.created c (List.mem_of_getElem? hc)
    | session hget hsession =>
        exact forall_mem_modify h.created fun c hc => h.created c (List.mem_of_getElem? hc)
    | stop =>
        intro c hc
        obtain ⟨old, hold, rfl⟩ := List.mem_map.mp hc
        rw [stopSession_comName]
        exact h.created old hold

/-- An enumeration of the run has listed the port. -/
def Listed (actions : List Action) (name : Bytes) : Prop :=
  ∃ ports, .found (some ports) ∈ actions ∧ ∃ info ∈ ports, info.comName = name

/-- A request of the run has named the port. -/
def Named (actions : List Action) (name : Bytes) : Prop :=
  ∃ request, .request request ∈ actions ∧ targetCOM request = some name

theorem accounted_of_exec {config : Config} {actions : List Action}
    {server : SerialPortControlServer}
    (hexec : Transition.exec SerialPortControlServer.step (.init config) actions = some server) :
    Accounted (Listed actions) (Named actions) server := by
  refine Transition.exec_invariant (Accounted (Listed actions) (Named actions)) ?_ ?_
    (Transition.meets_of_forall_mem (fun action (hmem : action ∈ actions) => hmem) _) hexec
  · intro server action next hmem h hstep
    refine h.step ?_ ?_ hstep
    · rintro ports rfl info hinfo
      exact ⟨ports, hmem, info, hinfo, rfl⟩
    · rintro request name rfl htarget
      exact ⟨request, hmem, htarget⟩
  · exact ⟨List.forall_mem_nil _, List.forall_mem_nil _⟩

/-! ## What happens to the devices -/

/-- The answer of an enumeration is what `find` tells the server, given the names that
WMI has or its exception. -/
def Enumerated : Action → Prop
  | .found ports => ∃ wmis : Except WmiException (List Bytes),
      ∀ server : SerialPortControlServer, server.found ports = find wmis takePorts server
  | _ => True

/-- The device was opened, or opening it failed. -/
def Tried (log : List PortEvent) (device : Bytes) : Prop :=
  .opened device ∈ log ∨ .openFailed device ∈ log

/-- A frame with a speed that the device knows. -/
def KnownFrame (data : Bytes) : Prop := ∃ code : UInt8, data = frame code ∧ code % 128 ≤ 100

theorem eq_of_tried {comName device : Bytes} {phase : Phase} {s : SerialPortSession}
    (h : InPhase comName phase s) (htried : Tried s.log device) : device = comName := by
  rcases htried with hopened | hfailed
  · exact h.opened_mem hopened
  · exact ((h.openFailed_mem_iff device).mp hfailed).2

theorem isPortName_of_enumerated {ports : List SerialPortNameInfo}
    (h : Enumerated (.found (some ports))) {info : SerialPortNameInfo} (hinfo : info ∈ ports) :
    IsPortName info.comName := by
  obtain ⟨wmis, hfound⟩ := h
  have hports : ports = (wmis.toOption.map SerialPortFinder.found).getD [] :=
    congrArg SerialPortControlServer.portsInfo ((hfound {}).trans (find_takePorts wmis {}))
  rw [hports] at hinfo
  cases wmis with
  | error ex => cases hinfo
  | ok names => exact found_isPortName hinfo

/-- A frame that a request asks for is one that the device knows. -/
theorem knownFrame_frame (command : Command) : KnownFrame command.frame :=
  ⟨_, rfl, (Call.setState (command.direct == 1) command.speed).code_mod⟩

theorem knownFrame_of_exec {config : Config} {actions : List Action}
    {server : SerialPortControlServer}
    (hexec : Transition.exec SerialPortControlServer.step (.init config) actions = some server)
    {c : CreatedSession} (hc : c ∈ server.created) {data : Bytes}
    (hdata : .writeStarted data ∈ c.session.log) : KnownFrame data := by
  by_cases hstop : data = frame 0
  · exact ⟨0, hstop, by decide⟩
  · have hstarted : data ∈ writesStarted c.session.log :=
      List.mem_filterMap.mpr ⟨_, hdata, rfl⟩
    obtain ⟨request, -, -, hframe⟩ := framesAskedFor_of_exec hexec c hc data hstarted hstop
    obtain ⟨command, -, rfl⟩ := Option.map_eq_some_iff.mp hframe
    exact knownFrame_frame command

/-- However the requests and the steps of the process are ordered, and whatever they
ask for, a device is opened only if an enumeration has listed it and a request has
named it, so it is a serial port if `find` has enumerated. All that is ever written are
frames with a speed of a hundred at most. -/
theorem devices_safe {config : Config} {actions : List Action} {server : SerialPortControlServer}
    (hexec : Transition.exec SerialPortControlServer.step (.init config) actions = some server) :
    ∀ c ∈ server.created,
      (∀ device, Tried c.session.log device → Listed actions device ∧ Named actions device ∧
        ((∀ action ∈ actions, Enumerated action) → IsPortName device)) ∧
      ∀ data, .writeStarted data ∈ c.session.log → KnownFrame data := by
  intro c hc
  refine ⟨fun device htried => ?_, fun data hdata => knownFrame_of_exec hexec hc hdata⟩
  obtain ⟨phase, hphase, -⟩ := sound_of_exec hexec c hc
  obtain rfl := eq_of_tried hphase htried
  obtain ⟨hlisted, hnamed⟩ := (accounted_of_exec hexec).created c hc
  refine ⟨hlisted, hnamed, fun hwmi => ?_⟩
  obtain ⟨ports, hmem, info, hinfo, hname⟩ := hlisted
  rw [← hname]
  exact isPortName_of_enumerated (hwmi _ hmem) hinfo

/-- One of three names is a port; it is asked for, and so is a name that is not listed. -/
def askForListed : List Action :=
  [.start,
    .found (some (SerialPortFinder.found [text "Mouse", text "Serial (COM3)", text "Modem COM4"])),
    .request (rawRequest (text "COM3") 1 100), .session 0 (.handler 0 []),
    .request (rawRequest (text "COM4") 1 100), .request (rawRequest (text "COM3") 1 100)]

theorem devices_safe_askForListed :
    ∃ server, Transition.exec SerialPortControlServer.step (.init {}) askForListed = some server ∧
      ∃ c ∈ server.created, Tried c.session.log (text "COM3") ∧
        Listed askForListed (text "COM3") ∧ Named askForListed (text "COM3") ∧
        IsPortName (text "COM3") := by
  obtain ⟨server, hexec, c, hc, hopened⟩ :
      ∃ server, Transition.exec SerialPortControlServer.step (.init {}) askForListed =
        some server ∧ ∃ c ∈ server.created, .opened (text "COM3") ∈ c.session.log :=
    Transition.exists_exec (by decide +kernel)
  have hwmi : ∀ action ∈ askForListed, Enumerated action := by
    simp only [askForListed, List.forall_mem_cons, Enumerated, List.not_mem_nil, false_imp_iff,
      implies_true, and_true, true_and]
    exact ⟨.ok [text "Mouse", text "Serial (COM3)", text "Modem COM4"],
      fun server => (find_takePorts (.ok _) server).symm⟩
  obtain ⟨hlisted, hnamed, hport⟩ := (devices_safe hexec c hc).1 (text "COM3") (Or.inl hopened)
  exact ⟨server, hexec, c, hc, Or.inl hopened, hlisted, hnamed, hport hwmi⟩

end SerialPortControlServer

end Vorze
