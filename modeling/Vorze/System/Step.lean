import Vorze.Web.Control

/-! # The server process

All orders in which the parts of the process can take their steps: the signal
handler, requests on the web executor, and the handlers of the timer and of
every session on the serial executor. Each handler is one step. Where an idle
strand takes a dispatched handler at once, that handler is the next step.
-/

namespace Vorze

open HttpConnectSession

namespace SerialPortControlServer

inductive Action
  | start
  | stop
  | timerExpires
  | timerHandler (index : Nat)
  | found (ports : Option (List SerialPortNameInfo))
  | request (request : Request)
  | session (id : Nat) (action : SerialPortSession.Action)
  deriving DecidableEq, Repr

/-- The timer's part of an action of the server. -/
def Action.timer : Action → Option RefreshTimer.Action
  | .start => some .start
  | .stop => some .stop
  | .timerExpires => some .expire
  | .timerHandler index => some (.handler index)
  | _ => none

/-- One step. Nothing runs after the null timer pointer was used. -/
def step (server : SerialPortControlServer) (action : Action) : Option SerialPortControlServer :=
  if server.timer.Faulted then none
  else
    match action with
    | .start => some server.start
    | .stop => some server.stop
    | .timerExpires =>
        (server.timer.step .expire).map fun timer => { server with timer := timer }
    | .timerHandler index =>
        (server.timer.step (.handler index)).map fun timer => { server with timer := timer }
    | .found ports => if 0 < server.timer.finds then some (server.found ports) else none
    | .request request => some (processRequest server request).2
    | .session id action =>
        (server.created[id]?).bind fun c =>
          (c.session.step action).map fun session => server.onSession id fun _ => session

/-- The server as it is constructed. -/
def init (config : Config) : SerialPortControlServer := { config := config }

/-! ## Requests -/

/-- The command that a request carries, if `path_op` gets to look at one. -/
def requestCommand (request : Request) : Option Command :=
  if request.method = .get then (pathOpPairs request.target).bind readCommand else none

theorem readCommand_eq_none {queryPairs : QueryPairs} (hfind : findTargets queryPairs = none) :
    readCommand queryPairs = none := by
  simp [readCommand, hfind]

/-- A query without a readable command leaves the server alone. -/
theorem pathOp_snd (server : SerialPortControlServer) (response : Response)
    (queryPairs : QueryPairs) :
    (pathOp server response queryPairs).2 =
      ((readCommand queryPairs).map (execute server)).getD server := by
  unfold pathOp
  by_cases hempty : queryPairs.isEmpty = true
  · rw [if_pos hempty]
    rw [List.isEmpty_iff] at hempty
    subst hempty
    rfl
  · rw [if_neg hempty]
    cases hfind : findTargets queryPairs with
    | none => rw [readCommand_eq_none hfind]; rfl
    | some targets => cases readCommand queryPairs <;> rfl

/-- All a request does to the server is the command it carries. -/
theorem processRequest_snd (server : SerialPortControlServer) (request : Request) :
    (processRequest server request).2 =
      ((requestCommand request).map (execute server)).getD server := by
  unfold processRequest requestCommand
  cases hmethod : request.method with
  | get =>
      simp only [↓reduceIte, pathOpPairs, pathOpQuery, createResponse]
      cases route request.target with
      | status => rfl
      | op query => simp only [Option.map_some, Option.bind_some, pathOp_snd]
      | notFound => rfl
  | head => simp
  | other name => simp

/-- A request for a port with direction and speed written the way the casts read them. -/
def rawRequest (comName : Bytes) (direct speed : UInt8) : Request where
  target := opTarget [(text "_targetMode", text "none"), (text "_targetCOM", comName),
    (text "_targetDirect", [direct]), (text "_targetSpeed", [speed])]

/-- The port name of the session that a request makes the server create. -/
def createdName (server : SerialPortControlServer) (request : Request) : Option Bytes :=
  match requestCommand request with
  | some command =>
      if command.valid ∧ server.get command.comName = none ∧
          server.checkNameValid command.comName then some command.comName
      else none
  | none => none

/-- The three things a request can do. -/
theorem processRequest_cases (server : SerialPortControlServer) (request : Request) :
    (processRequest server request).2 = server ∨
      (∃ comName, server.createdName request = some comName ∧ (processRequest server request).2 =
        { server with created := server.created ++ [newSession comName] }) ∨
      ∃ command id, requestCommand request = some command ∧ command.valid = true ∧
        server.get command.comName = some id ∧
        (processRequest server request).2 = server.onSession id command.send := by
  rw [processRequest_snd]
  cases hcommand : requestCommand request with
  | none => exact Or.inl rfl
  | some command =>
      simp only [Option.map_some, Option.getD_some, execute]
      by_cases hvalid : command.valid = true
      · rw [if_pos hvalid]
        cases hget : server.get command.comName with
        | some id => exact Or.inr (Or.inr ⟨command, id, rfl, hvalid, hget, rfl⟩)
        | none =>
            simp only [create]
            by_cases hname : server.checkNameValid command.comName = true
            · rw [if_pos hname]
              refine Or.inr (Or.inl ⟨command.comName, ?_, rfl⟩)
              simp [createdName, hcommand, hvalid, hget, hname]
            · rw [if_neg hname]
              exact Or.inl rfl
      · rw [if_neg hvalid]
        exact Or.inl rfl

/-! ## What a step does to the sessions -/

/-- The ways a step can change the list of created sessions. -/
inductive Change (server : SerialPortControlServer) : Action → List CreatedSession → Prop
  | keep {action : Action} (hstop : action ≠ .stop) : Change server action server.created
  | create {request : Request} {comName : Bytes}
      (hcreates : server.createdName request = some comName) :
      Change server (.request request) (server.created ++ [newSession comName])
  | command {request : Request} {command : Command} {id : Nat}
      (hget : server.get command.comName = some id) :
      Change server (.request request) (server.created.modify id fun c =>
        { c with session := command.send c.session })
  | session {id : Nat} {action : SerialPortSession.Action} {c : CreatedSession}
      {session : SerialPortSession} (hget : server.created[id]? = some c)
      (hstep : c.session.step action = some session) :
      Change server (.session id action) (server.created.modify id fun c =>
        { c with session := session })
  | stop : Change server .stop (server.created.map stopSession)

theorem step_change {server next : SerialPortControlServer} {action : Action}
    (hstep : server.step action = some next) : server.Change action next.created := by
  unfold step at hstep
  split at hstep
  next => cases hstep
  next =>
    cases action with
    | start =>
        obtain rfl := Option.some.inj hstep
        exact .keep (by simp)
    | stop =>
        obtain rfl := Option.some.inj hstep
        exact .stop
    | timerExpires | timerHandler index =>
        obtain ⟨timer, _, rfl⟩ := Option.map_eq_some_iff.mp hstep
        exact .keep (by simp)
    | found ports =>
        simp only [Option.ite_none_right_eq_some, Option.some.injEq] at hstep
        obtain ⟨_, rfl⟩ := hstep
        exact .keep (by simp)
    | request request =>
        obtain rfl := Option.some.inj hstep
        rcases processRequest_cases server request with
          heq | ⟨comName, hcreates, heq⟩ | ⟨command, id, _, _, hget, heq⟩
        · rw [heq]
          exact .keep (by simp)
        · rw [heq]
          exact .create hcreates
        · rw [heq]
          exact .command hget
    | session id action =>
        obtain ⟨c, hget, hstep⟩ := Option.bind_eq_some_iff.mp hstep
        obtain ⟨session, hsession, rfl⟩ := Option.map_eq_some_iff.mp hstep
        exact .session hget hsession

/-- The timer moves by its own steps only. -/
theorem step_timer {server next : SerialPortControlServer} {action : Action}
    (hstep : server.step action = some next) :
    match action.timer with
    | some timerAction => server.timer.step timerAction = some next.timer
    | none => ∃ finds, next.timer = { server.timer with finds := finds } := by
  unfold step at hstep
  split at hstep
  next => cases hstep
  next hfault =>
    cases action with
    | start | stop =>
        obtain rfl := Option.some.inj hstep
        simp only [Action.timer, RefreshTimer.step, if_neg hfault]
        rfl
    | timerExpires | timerHandler index =>
        obtain ⟨timer, htimer, rfl⟩ := Option.map_eq_some_iff.mp hstep
        exact htimer
    | found ports =>
        simp only [Option.ite_none_right_eq_some, Option.some.injEq] at hstep
        obtain ⟨_, rfl⟩ := hstep
        exact ⟨_, rfl⟩
    | request request =>
        obtain rfl := Option.some.inj hstep
        rcases processRequest_cases server request with
          heq | ⟨comName, _, heq⟩ | ⟨command, id, _, _, _, heq⟩ <;>
        · rw [heq]
          exact ⟨_, rfl⟩
    | session id action =>
        obtain ⟨c, _, hstep⟩ := Option.bind_eq_some_iff.mp hstep
        obtain ⟨session, _, rfl⟩ := Option.map_eq_some_iff.mp hstep
        exact ⟨_, rfl⟩

/-- Whether the timer's pointer is there changes with `stop` only. -/
theorem step_present {server next : SerialPortControlServer} {action : Action}
    (hstep : server.step action = some next) :
    next.timer.present = (decide (action ≠ .stop) && server.timer.present) := by
  have htimer := step_timer hstep
  cases action with
  | start | stop | timerExpires | timerHandler index =>
      simpa using RefreshTimer.step_present htimer
  | found ports | request request | session id action =>
      obtain ⟨finds, heq⟩ := htimer
      simp [heq]

theorem exec_present {server final : SerialPortControlServer} {actions : List Action}
    (hexec : Transition.exec step server actions = some final) :
    final.timer.present = (decide (.stop ∉ actions) && server.timer.present) := by
  induction actions generalizing server with
  | nil =>
      obtain rfl := Option.some.inj hexec
      simp
  | cons action rest ih =>
      obtain ⟨next, hstep, hrest⟩ := Option.bind_eq_some_iff.mp hexec
      rw [ih hrest, step_present hstep]
      by_cases hstop : action = .stop
      · simp [hstop]
      · simp [hstop, Ne.symm hstop]

/-- The ports that are known after an action. They change when an enumeration
answers, and at no other time. -/
def portsAfter (server : SerialPortControlServer) : Action → List SerialPortNameInfo
  | .found ports => ports.getD server.portsInfo
  | _ => server.portsInfo

/-- Apart from the sessions and the timer, a step changes the known ports only. -/
theorem step_eq {server next : SerialPortControlServer} {action : Action}
    (hstep : server.step action = some next) :
    next = { server with
      created := next.created
      portsInfo := server.portsAfter action
      timer := next.timer } := by
  unfold step at hstep
  split at hstep
  next => cases hstep
  next =>
    cases action with
    | start | stop =>
        obtain rfl := Option.some.inj hstep
        rfl
    | timerExpires | timerHandler index =>
        obtain ⟨timer, _, rfl⟩ := Option.map_eq_some_iff.mp hstep
        rfl
    | found ports =>
        obtain ⟨_, hnext⟩ := Option.ite_none_right_eq_some.mp hstep
        obtain rfl := Option.some.inj hnext
        rfl
    | request request =>
        obtain rfl := Option.some.inj hstep
        rcases processRequest_cases server request with
          heq | ⟨comName, _, heq⟩ | ⟨command, id, _, _, _, heq⟩ <;>
        · rw [heq]
          rfl
    | session id action =>
        obtain ⟨c, _, hstep⟩ := Option.bind_eq_some_iff.mp hstep
        obtain ⟨session, _, rfl⟩ := Option.map_eq_some_iff.mp hstep
        rfl

/-- `get` finds a listed session that carries the name. -/
theorem get_eq_some {server : SerialPortControlServer} {serialPortName : Bytes} {id : Nat}
    (hget : server.get serialPortName = some id) :
    ∃ c, server.created[id]? = some c ∧ c.registered = true ∧
      c.session.serialPortName = serialPortName := by
  obtain ⟨hlt, hmatch, -⟩ := List.findIdx?_eq_some_iff_getElem.mp hget
  simp only [Bool.and_eq_true, beq_iff_eq] at hmatch
  exact ⟨_, List.getElem?_eq_getElem hlt, hmatch⟩

theorem get_eq_none_iff {server : SerialPortControlServer} {serialPortName : Bytes} :
    server.get serialPortName = none ↔
      ∀ c ∈ server.created, c.registered = true → c.session.serialPortName ≠ serialPortName := by
  rw [get, List.findIdx?_eq_none_iff]
  simp

end SerialPortControlServer

end Vorze
