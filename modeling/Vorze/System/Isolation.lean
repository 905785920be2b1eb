import Vorze.System.Registry

/-! # A request touches one port

A request changes nothing, or registers one session for the port it names, or
starts one write on the session of that port. So what a device is sent, apart
from the stop frame, was asked for by a request that named the device.
-/

namespace Vorze

namespace HttpConnectSession

/-- The frame that a command asks for. -/
def Command.frame (command : Command) : Bytes :=
  SerialPortSession.frame
    ((if command.direct == 1 then 0x80 else 0x00) + SerialPortSession.clampSpeed command.speed)

end HttpConnectSession

namespace SerialPortControlServer

open HttpConnectSession SerialPortSession

/-- The value of `_targetCOM` that `path_op` looks up. -/
def targetCOM (request : Request) : Option Bytes :=
  if request.method = .get then
    (pathOpPairs request.target).bind fun queryPairs => queryPairs.find (text "_targetCOM")
  else none

/-- What one request may do to the server. -/
inductive Effect (server : SerialPortControlServer) (request : Request) :
    SerialPortControlServer → Prop
  | none : Effect server request server
  | create {comName : Bytes} (htarget : targetCOM request = some comName)
      (hport : ∃ info ∈ server.portsInfo, info.comName = comName)
      (hnew : ∀ c ∈ server.created, c.registered = true → c.session.serialPortName ≠ comName) :
      Effect server request
        { server with
          created := server.created ++
            [{ comName := comName, registered := true,
               session := { handlers := [.init comName .noop] } }] }
  | write {comName data : Bytes} {id : Nat} {c : CreatedSession}
      (htarget : targetCOM request = some comName) (hget : server.created[id]? = some c)
      (hregistered : c.registered = true) (hname : c.session.serialPortName = comName)
      (hopen : c.session.isOpen = true)
      (hframe : (requestCommand request).map Command.frame = some data) :
      Effect server request
        { server with
          created := server.created.set id { c with session := { c.session with
            sendingData := c.session.sendingData ++ [c.session.nextPtr]
            nextPtr := c.session.nextPtr + 1
            writing := c.session.writing ++ [⟨c.session.nextPtr, data, .noop⟩]
            log := c.session.log ++ [.writeStarted data] } } }

/-- The bytes were written while the device was open. -/
def WrittenTo (log : List PortEvent) (device data : Bytes) : Prop :=
  ∃ before middle after, log = before ++ .opened device :: (middle ++ .writeStarted data :: after) ∧
    .closed ∉ middle ∧ ∀ other, .opened other ∉ middle

/-- A request that named the device asked for the frame. -/
def AskedFor (request : Request) (device data : Bytes) : Prop :=
  targetCOM request = some device ∧ (requestCommand request).map Command.frame = some data

/-! ## One request -/

/-- The port of a command is the one that the query names. -/
theorem targetCOM_of_requestCommand {request : Request} {command : Command}
    (hcommand : requestCommand request = some command) :
    targetCOM request = some command.comName := by
  unfold requestCommand at hcommand
  unfold targetCOM
  split at hcommand
  next hget =>
    rw [if_pos hget]
    obtain ⟨pairs, hpairs, hread⟩ := Option.bind_eq_some_iff.mp hcommand
    rw [hpairs, Option.bind_some]
    simp only [readCommand, findTargets, Option.bind_eq_bind, Option.bind_eq_some_iff,
      Option.pure_def, Option.some.injEq] at hread
    obtain ⟨_, ⟨_, _, comName, hcom, _, _, _, _, rfl⟩, _, _, _, _, rfl⟩ := hread
    exact hcom
  next => cases hcommand

/-- A query whose command can be read is answered 200. -/
theorem pathOp_result {queryPairs : QueryPairs} {command : Command}
    (hread : readCommand queryPairs = some command) (server : SerialPortControlServer)
    (response : Response) : (pathOp server response queryPairs).1.result = .ok := by
  unfold pathOp
  split
  next => rfl
  next =>
    rw [hread]
    cases findTargets queryPairs <;> rfl

/-- A request that carries a command is answered 200, so one that is not changes nothing. -/
theorem result_of_requestCommand {request : Request} {command : Command}
    (hcommand : requestCommand request = some command) (server : SerialPortControlServer) :
    (processRequest server request).1.result = .ok := by
  unfold requestCommand at hcommand
  split at hcommand
  next hget =>
    obtain ⟨pairs, hpairs, hread⟩ := Option.bind_eq_some_iff.mp hcommand
    simp only [processRequest, hget, writeResponse_result]
    unfold pathOpPairs pathOpQuery at hpairs
    unfold createResponse
    split at hpairs
    next query hroute =>
      obtain rfl := Option.some.inj hpairs
      rw [hroute]
      exact pathOp_result hread server _
    next => cases hpairs
  next => cases hcommand

theorem processRequest_of_refused {server : SerialPortControlServer} {request : Request}
    (hresult : (processRequest server request).1.result ≠ .ok) :
    (processRequest server request).2 = server := by
  rw [processRequest_snd]
  cases hcommand : requestCommand request with
  | none => rfl
  | some command => exact absurd (result_of_requestCommand hcommand server) hresult

/-- Code that leaves a session as it is leaves the server as it is. -/
theorem onSession_eq_set {server : SerialPortControlServer} {id : Nat} {c : CreatedSession}
    (hget : server.created[id]? = some c) (f : SerialPortSession → SerialPortSession) :
    server.onSession id f =
      { server with created := server.created.set id { c with session := f c.session } } := by
  have : Inhabited CreatedSession := ⟨c⟩
  rw [onSession, List.modify_eq_set, hget, Option.getD_some]

theorem set_self {server : SerialPortControlServer} {id : Nat} {c : CreatedSession}
    (hget : server.created[id]? = some c) :
    { server with created := server.created.set id c } = server := by
  obtain ⟨hlt, rfl⟩ := List.getElem?_eq_some_iff.mp hget
  rw [List.set_getElem_self]

/-- Every request has at most one effect. -/
theorem processRequest_effect (server : SerialPortControlServer) (request : Request) :
    Effect server request (processRequest server request).2 := by
  rcases processRequest_cases server request with
    heq | ⟨comName, hcreates, heq⟩ | ⟨command, id, hcommand, hvalid, hget, heq⟩
  · rw [heq]
    exact .none
  · rw [heq]
    unfold createdName at hcreates
    split at hcreates
    next command hcommand =>
      rw [Option.ite_none_right_eq_some] at hcreates
      obtain ⟨⟨_, hnone, hname⟩, hcom⟩ := hcreates
      obtain rfl := Option.some.inj hcom
      refine .create (targetCOM_of_requestCommand hcommand) ?_ (get_eq_none_iff.mp hnone)
      simpa [checkNameValid] using hname
    next => cases hcreates
  · obtain ⟨c, hc, hregistered, hname⟩ := get_eq_some hget
    rw [heq, onSession_eq_set hc]
    by_cases hwrites : c.session.isOpen = true ∧ text "none" = command.mode
    · rw [Command.send, if_pos hwrites.1, setStateMode, if_pos hwrites.2,
        setState_open _ hwrites.1]
      exact .write (targetCOM_of_requestCommand hcommand) hc hregistered hname hwrites.1
        (by rw [hcommand]; rfl)
    · have hsame : command.send c.session = c.session := by
        unfold Command.send setStateMode
        split
        next hopen => rw [if_neg fun hmode => hwrites ⟨hopen, hmode⟩]
        next => rfl
      rw [hsame, set_self hc]
      exact .none

end SerialPortControlServer

/-! ## What a session writes by itself -/

namespace InPhase

open SerialPortSession

variable {comName : Bytes} {phase : Phase} {s : SerialPortSession}

/-- The handlers of a created session write nothing but stop frames. -/
theorem runHandler_log (h : InPhase comName phase s) {handler : Handler}
    (hmem : handler ∈ s.handlers) (rest : List Handler) (answers : List ErrorCode) :
    ∃ count, writesStarted (runHandler { s with handlers := rest, answers := answers } handler).log =
      writesStarted s.log ++ List.replicate count (frame 0) := by
  have hqueued := h.queued
  cases phase with
  | failed =>
      rw [show s.handlers = [] from hqueued] at hmem
      cases hmem
  | pending =>
      rw [show s.handlers = [.init comName .noop] from hqueued] at hmem
      obtain rfl := List.mem_singleton.mp hmem
      refine ⟨0, ?_⟩
      rcases initHandler_closed { s with handlers := rest, answers := answers }
        (h.serialPort_eq_none (by decide)) comName .noop with
        ⟨error, _, heq⟩ | ⟨error, rate, _, heq⟩ <;>
      · rw [runHandler, heq]
        simp [invoke, writesStarted]
  | opened =>
      obtain ⟨ptr, rfl⟩ := hqueued handler hmem
      obtain ⟨rate, hport⟩ := h.serialPort_eq_some
      refine ⟨1, ?_⟩
      rw [runHandler, writeHandler_open { s with handlers := rest, answers := answers } hport]
      simp [invoke, serialClose, hport, writesStarted]
  | closed =>
      obtain ⟨ptr, rfl⟩ := hqueued handler hmem
      have hport := h.serialPort_eq_none (by decide)
      refine ⟨0, ?_⟩
      rw [runHandler, writeHandler_closed { s with handlers := rest, answers := answers } hport]
      simp [invoke, serialClose, hport]

theorem step_log {next : SerialPortSession} {action : SerialPortSession.Action}
    (h : InPhase comName phase s) (hstep : SerialPortSession.step s action = some next) :
    ∃ count, writesStarted next.log =
      writesStarted s.log ++ List.replicate count (frame 0) := by
  cases action with
  | handler index answers =>
      obtain ⟨handler, hget, rfl⟩ := Option.map_eq_some_iff.mp hstep
      exact h.runHandler_log (List.mem_of_getElem? hget) (s.handlers.eraseIdx index) answers
  | complete index ec =>
      obtain ⟨write, hget, rfl⟩ := Option.map_eq_some_iff.mp hstep
      refine ⟨0, ?_⟩
      rw [completeWrite, h.writing write (List.mem_of_getElem? hget)]
      simp [invoke, eraseData]

theorem close_log (s : SerialPortSession) : (s.close false).log = s.log := by
  by_cases hopen : s.isOpen = true
  · rw [close_outside s hopen, stop_outside s hopen]
  · simp [SerialPortSession.close, hopen]

end InPhase

/-! ## Runs -/

namespace SerialPortControlServer

open HttpConnectSession SerialPortSession

/-- Every frame of every session that is no stop frame was asked for. -/
def FramesAskedFor (requests : Request → Prop) (server : SerialPortControlServer) : Prop :=
  ∀ c ∈ server.created, ∀ data ∈ writesStarted c.session.log, data ≠ frame 0 →
    ∃ request, requests request ∧ AskedFor request c.comName data

/-- One more write that a request of the run asked for. -/
theorem FramesAskedFor.effect {requests : Request → Prop} {server next : SerialPortControlServer}
    {request : Request} (h : FramesAskedFor requests server) (hsound : server.Sound)
    (hrequest : requests request) (heffect : Effect server request next) :
    FramesAskedFor requests next := by
  cases heffect with
  | none => exact h
  | create =>
      refine List.forall_mem_append.mpr ⟨h, List.forall_mem_singleton.mpr ?_⟩
      intro data hdata
      cases hdata
  | @write comName data id c htarget hget hregistered hname hopen hframe =>
      intro other hother data' hdata hne
      rcases List.mem_or_eq_of_mem_set hother with hold | rfl
      · exact h other hold data' hdata hne
      · have hmem := List.mem_of_getElem? hget
        obtain ⟨phase, hphase, -⟩ := hsound c hmem
        -- an open session carries the name it was created for
        have hcom : c.comName = comName := by
          rw [← hname, hphase.name_eq (by rw [hphase.isOpen_iff.mp hopen]; decide)]
        simp only [writesStarted_append, writesStarted_singleton, List.mem_append,
          List.mem_singleton] at hdata
        rcases hdata with hold | rfl
        · exact h c hmem data' hold hne
        · exact ⟨request, hrequest, by rw [hcom]; exact ⟨htarget, hframe⟩⟩

/-- What a session does by itself adds stop frames only. -/
theorem FramesAskedFor.session {requests : Request → Prop} {server : SerialPortControlServer}
    {id : Nat} {c : CreatedSession} {action : SerialPortSession.Action} {after : SerialPortSession}
    (h : FramesAskedFor requests server) (hsound : server.Sound)
    (hget : server.created[id]? = some c)
    (hsession : SerialPortSession.step c.session action = some after) :
    ∀ data ∈ writesStarted after.log, data ≠ frame 0 →
      ∃ request, requests request ∧ AskedFor request c.comName data := by
  intro data hdata hne
  have hmem := List.mem_of_getElem? hget
  obtain ⟨phase, hphase, -⟩ := hsound c hmem
  obtain ⟨count, hlog⟩ := hphase.step_log hsession
  rw [hlog, List.mem_append, List.mem_replicate] at hdata
  rcases hdata with hold | ⟨-, hstop⟩
  · exact h c hmem data hold hne
  · exact absurd hstop hne

theorem stopSession_log (c : CreatedSession) : (stopSession c).session.log = c.session.log := by
  unfold stopSession
  split
  next => exact InPhase.close_log c.session
  next => rfl

theorem FramesAskedFor.step {requests : Request → Prop} {server next : SerialPortControlServer}
    {action : Action} (h : FramesAskedFor requests server) (hsound : server.Sound)
    (hrequests : ∀ request, action = .request request → requests request)
    (hstep : server.step action = some next) : FramesAskedFor requests next := by
  have hchange := step_change hstep
  unfold FramesAskedFor
  cases action with
  | request request =>
      unfold SerialPortControlServer.step at hstep
      split at hstep
      next => cases hstep
      next =>
        obtain rfl := Option.some.inj hstep
        exact h.effect hsound (hrequests request rfl) (processRequest_effect server request)
  | session id action =>
      generalize next.created = created at hchange
      cases hchange with
      | keep => exact h
      | session hget hsession =>
          apply forall_mem_modify h
          intro c hc
          obtain rfl := Option.some.inj (hget.symm.trans hc)
          have hasked := h.session hsound hget hsession
          exact hasked
  | stop =>
      generalize next.created = created at hchange
      cases hchange with
      | keep => exact h
      | stop =>
          intro c hc
          obtain ⟨old, hold, rfl⟩ := List.mem_map.mp hc
          rw [stopSession_log, stopSession_comName]
          exact h old hold
  | start | timerExpires | timerHandler index | found ports =>
      generalize next.created = created at hchange
      cases hchange with
      | keep => exact h

theorem framesAskedFor_of_exec {config : Config} {actions : List Action}
    {server : SerialPortControlServer}
    (hexec : Transition.exec SerialPortControlServer.step (.init config) actions = some server) :
    FramesAskedFor (fun request => .request request ∈ actions) server := by
  have hinv := Transition.exec_invariant
    (fun server => server.Sound ∧ FramesAskedFor (fun request => .request request ∈ actions) server)
    (by
      intro server action next (hmem : action ∈ actions) h hstep
      refine ⟨h.1.step hstep, h.2.step h.1 ?_ hstep⟩
      rintro request rfl
      exact hmem)
    ⟨Sound.init config, fun c hc => by cases hc⟩
    (Transition.meets_of_forall_mem (fun _ hmem => hmem) _) hexec
  exact hinv.2

/-- A request that is not answered 200 changes nothing, every request has one
effect at most, and what any device was ever sent, apart from the stop frame, was
asked for by a request that named it. -/
theorem requests_isolated {config : Config} {actions : List Action}
    {server : SerialPortControlServer}
    (hexec : Transition.exec SerialPortControlServer.step (.init config) actions = some server) :
    (∀ request, ((processRequest server request).1.result ≠ .ok →
        (processRequest server request).2 = server) ∧
      Effect server request (processRequest server request).2) ∧
    ∀ c ∈ server.created, ∀ device data, WrittenTo c.session.log device data →
      data ≠ frame 0 → ∃ request, .request request ∈ actions ∧ AskedFor request device data := by
  refine ⟨fun request => ⟨processRequest_of_refused, processRequest_effect server request⟩, ?_⟩
  intro c hc device data hwritten hne
  obtain ⟨before, middle, after, hlog, -⟩ := hwritten
  obtain ⟨phase, hphase, -⟩ := sound_of_exec hexec c hc
  have hdevice : device = c.comName := hphase.opened_mem (by simp [hlog])
  have hdata : data ∈ writesStarted c.session.log := by simp [hlog, writesStarted]
  rw [hdevice]
  exact framesAskedFor_of_exec hexec c hc data hdata hne

/-- `COM3` is opened by one request and sent a command by the next. -/
def commandCom3 : List Action :=
  [.start, .found (some [⟨text "(COM3)", text "COM3"⟩]), .request (rawRequest (text "COM3") 1 50),
    .session 0 (.handler 0 []), .request (rawRequest (text "COM3") 1 50)]

theorem requests_isolated_commandCom3 :
    ∃ server, Transition.exec step (init {}) commandCom3 = some server ∧
      server.created.map (·.session.log) =
        [[.opened (text "COM3"), .writeStarted (frame 178)]] ∧
      (∀ request, ((processRequest server request).1.result ≠ .ok →
          (processRequest server request).2 = server) ∧
        Effect server request (processRequest server request).2) ∧
      ∀ c ∈ server.created, ∀ device data, WrittenTo c.session.log device data →
        data ≠ frame 0 →
          ∃ request, .request request ∈ commandCom3 ∧ AskedFor request device data := by
  obtain ⟨server, hexec, hlog⟩ :
      ∃ server, Transition.exec step (init {}) commandCom3 = some server ∧
        server.created.map (·.session.log) =
          [[.opened (text "COM3"), .writeStarted (frame 178)]] :=
    Transition.exists_exec (by decide +kernel)
  exact ⟨server, hexec, hlog, requests_isolated hexec⟩

end SerialPortControlServer

end Vorze
