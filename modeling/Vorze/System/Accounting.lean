import Vorze.System.Drain
import Mathlib.Data.List.Perm.Subperm

/-! # Every command frame is accounted for

A request that carries a command for an open port starts one write, and nothing else
writes a command. So the commands that the devices were sent are the ones that found
their port open: none is lost, none is sent twice, and on each session they are in the
order of the requests.
-/

namespace Vorze

open SerialPortSession

/-! ## The device of a frame -/

/-- The device that is open after an event. -/
def PortEvent.deviceAfter (device : Option Bytes) : PortEvent → Option Bytes
  | .opened name => some name
  | .closed => none
  | .openFailed _ | .writeStarted _ => device

/-- The frames of a log, each with the device that is open when it is written. -/
def writesTo (device : Option Bytes) : List PortEvent → List (Option Bytes × Bytes)
  | [] => []
  | .writeStarted data :: log => (device, data) :: writesTo device log
  | event :: log => writesTo (event.deviceAfter device) log

/-- The commands that a session wrote, with the devices they went to. The stop frame is
left out: the sessions also write it by themselves. -/
def CreatedSession.commandFrames (c : CreatedSession) : List (Option Bytes × Bytes) :=
  (writesTo none c.session.log).filter fun order => order.2 ≠ frame 0

@[simp] theorem writesTo_opened (device : Option Bytes) (name : Bytes) (log : List PortEvent) :
    writesTo device (.opened name :: log) = writesTo (some name) log := rfl

theorem writesTo_frames (device : Option Bytes) (frames : List Bytes) (log : List PortEvent) :
    writesTo device (frames.map .writeStarted ++ log) =
      frames.map (fun data => (device, data)) ++ writesTo device log := by
  induction frames with
  | nil => rfl
  | cons data rest ih => exact congrArg ((device, data) :: ·) ih

/-- Whatever a session writes goes to the device it was created for. -/
theorem InPhase.writesTo_eq {comName : Bytes} {phase : Phase} {s : SerialPortSession}
    (h : InPhase comName phase s) :
    writesTo none s.log = (writesStarted s.log).map fun data => (some comName, data) := by
  have hevents := h.events
  cases phase with
  | pending =>
      rw [show s.log = [] from hevents]
      rfl
  | failed =>
      rw [show s.log = [.openFailed comName] from hevents]
      rfl
  | opened =>
      obtain ⟨frames, hlog⟩ := hevents
      have hwrites := writesTo_frames (some comName) frames []
      rw [List.append_nil] at hwrites
      rw [hlog, writesTo_opened, hwrites]
      simp [writesStarted, writesTo]
  | closed =>
      obtain ⟨frames, hlog⟩ := hevents
      rw [hlog, List.cons_append, writesTo_opened, writesTo_frames]
      simp [writesStarted, writesTo]

theorem CreatedSession.commandFrames_eq {c : CreatedSession} {phase : Phase}
    (h : InPhase c.comName phase c.session) :
    c.commandFrames =
      ((writesStarted c.session.log).filter (· ≠ frame 0)).map fun data =>
        (some c.comName, data) := by
  rw [commandFrames, h.writesTo_eq, List.filter_map]
  rfl

/-! ## Orders -/

namespace SerialPortControlServer

open HttpConnectSession

/-- The requests among the actions. -/
def requestsOf (actions : List Action) : List Request :=
  actions.filterMap fun
    | .request request => some request
    | _ => none

/-- The port and the frame that a request asks for. -/
def orderOf (request : Request) : Option (Option Bytes × Bytes) :=
  (requestCommand request).map fun command => (some command.comName, command.frame)

/-- The command has valid values and the mode that is implemented, and the session that
`get` finds for it is open. -/
def takes (server : SerialPortControlServer) (command : Command) : Bool :=
  command.valid && command.mode == text "none" &&
    (server.get command.comName).any fun id => (server.created[id]?).any (·.session.isOpen)

/-- The command that an action gets carried out, unless it is the stop frame. -/
def carriedOut (server : SerialPortControlServer) : Action → List (Option Bytes × Bytes)
  | .request request =>
      ((requestCommand request).filter fun command =>
        server.takes command && command.frame != frame 0).toList.map
          fun command => (some command.comName, command.frame)
  | _ => []

/-- The commands that a run gets carried out. -/
def commandsTaken (config : Config) (actions : List Action) : List (Option Bytes × Bytes) :=
  Transition.trace step carriedOut (init config) actions

/-- The commands that all sessions have written. -/
def commandFrames (server : SerialPortControlServer) : List (Option Bytes × Bytes) :=
  server.created.flatMap CreatedSession.commandFrames

/-! ## Commands that are taken and requests -/

theorem requestsOf_cons (action : Action) (rest : List Action) :
    requestsOf (action :: rest) = requestsOf [action] ++ requestsOf rest :=
  List.filterMap_append (l := [action])

theorem filterMap_orderOf_singleton (request : Request) :
    (requestsOf [.request request]).filterMap orderOf = (orderOf request).toList := by
  change [request].filterMap orderOf = (orderOf request).toList
  cases horder : orderOf request <;> simp [horder]

theorem carriedOut_sublist (server : SerialPortControlServer) (action : Action) :
    (server.carriedOut action).Sublist ((requestsOf [action]).filterMap orderOf) := by
  cases action with
  | request request =>
      rw [filterMap_orderOf_singleton, carriedOut, orderOf]
      cases requestCommand request with
      | none => exact List.Sublist.refl _
      | some command =>
          rw [Option.filter_some]
          split
          · exact List.Sublist.refl _
          · exact List.nil_sublist _
  | start | stop | timerExpires | timerHandler | found | session => exact List.nil_sublist _

/-- Every command that is taken was asked for by a request of its own. -/
theorem trace_carriedOut_sublist (server : SerialPortControlServer) (actions : List Action) :
    (Transition.trace step carriedOut server actions).Sublist
      ((requestsOf actions).filterMap orderOf) := by
  induction actions generalizing server with
  | nil => exact List.Sublist.refl _
  | cons action rest ih =>
      rw [Transition.trace, requestsOf_cons, List.filterMap_append]
      apply (carriedOut_sublist server action).append
      cases server.step action with
      | none => exact List.nil_sublist _
      | some next => exact ih next

/-! ## What a request writes -/

theorem carriedOut_of_not_takes {server : SerialPortControlServer} {request : Request}
    {command : Command} (hcommand : requestCommand request = some command)
    (htakes : server.takes command = false) : server.carriedOut (.request request) = [] := by
  rw [carriedOut, hcommand, Option.filter_some, if_neg (by simp [htakes])]
  rfl

/-- What a request writes: nothing, or its command to the session of the port. -/
inductive Writes (server : SerialPortControlServer) (request : Request) :
    SerialPortControlServer → Prop
  | same (hnone : server.carriedOut (.request request) = []) : Writes server request server
  | create {comName : Bytes} (hnone : server.carriedOut (.request request) = []) :
      Writes server request { server with created := server.created ++ [newSession comName] }
  | write {id : Nat} {c : CreatedSession} {command : Command}
      (hget : server.created[id]? = some c) (hname : c.session.serialPortName = command.comName)
      (hopen : c.session.isOpen = true)
      (hcarried : server.carriedOut (.request request) =
        ([command.frame].filter (· ≠ frame 0)).map fun data => (some command.comName, data))
      (hlog : writesStarted (command.send c.session).log =
        writesStarted c.session.log ++ [command.frame]) :
      Writes server request { server with
        created := server.created.set id { c with session := command.send c.session } }

/-- An open session writes the command when its mode is the one that is implemented. -/
theorem send_open {c : SerialPortSession} (hopen : c.isOpen = true) (command : Command) :
    text "none" = command.mode ∧
        writesStarted (command.send c).log = writesStarted c.log ++ [command.frame] ∨
      text "none" ≠ command.mode ∧ command.send c = c := by
  rw [Command.send, if_pos hopen, setStateMode]
  by_cases hmode : text "none" = command.mode
  · rw [if_pos hmode, setState_open _ hopen, writesStarted_append]
    exact Or.inl ⟨hmode, rfl⟩
  · rw [if_neg hmode]
    exact Or.inr ⟨hmode, rfl⟩

/-- A command whose session was found is written or dropped there. -/
theorem writes_found {server : SerialPortControlServer} {request : Request} {command : Command}
    {id : Nat} (hcommand : requestCommand request = some command) (hvalid : command.valid = true)
    (hget : server.get command.comName = some id) :
    Writes server request (server.onSession id command.send) := by
  obtain ⟨c, hc, -, hname⟩ := get_eq_some hget
  rw [onSession_eq_set hc]
  by_cases hopen : c.session.isOpen = true
  · rcases send_open hopen command with ⟨hmode, hlog⟩ | ⟨hmode, hsame⟩
    · refine .write hc hname hopen ?_ hlog
      have htakes : server.takes command = true := by
        simp [takes, hvalid, ← hmode, hget, hc, hopen]
      rw [carriedOut, hcommand, Option.filter_some, htakes, Bool.true_and]
      by_cases hstop : command.frame = frame 0 <;> simp [hstop]
    · rw [hsame, set_self hc]
      refine .same (carriedOut_of_not_takes hcommand ?_)
      simp [takes, hmode.symm]
  · have hsame : command.send c.session = c.session := if_neg hopen
    rw [hsame, set_self hc]
    refine .same (carriedOut_of_not_takes hcommand ?_)
    simp [takes, hget, hc, hopen]

theorem processRequest_writes (server : SerialPortControlServer) (request : Request) :
    Writes server request (processRequest server request).2 := by
  rw [processRequest_snd]
  cases hcommand : requestCommand request with
  | none => exact .same (by rw [carriedOut, hcommand]; rfl)
  | some command =>
      simp only [Option.map_some, Option.getD_some, execute]
      by_cases hvalid : command.valid = true
      · rw [if_pos hvalid]
        cases hget : server.get command.comName with
        | some id => exact writes_found hcommand hvalid hget
        | none =>
            have hnone := carriedOut_of_not_takes hcommand
              (show server.takes command = false by simp [takes, hget])
            simp only [create]
            split
            · exact .create hnone
            · exact .same hnone
      · rw [if_neg hvalid]
        exact .same (carriedOut_of_not_takes hcommand (by simp [takes, hvalid]))

/-! ## The accounts -/

/-- The commands that were written are those that were taken, each once. On every
session they are in that order. -/
structure Accounts (taken : List (Option Bytes × Bytes)) (server : SerialPortControlServer) :
    Prop where
  all : server.commandFrames.Perm taken
  order : ∀ c ∈ server.created, c.commandFrames.Sublist taken

namespace Accounts

variable {taken : List (Option Bytes × Bytes)} {server next : SerialPortControlServer}

theorem init (config : Config) : Accounts [] (init config) where
  all := .refl []
  order := fun _ hc => by cases hc

/-- Sessions that write no command leave the accounts as they are. -/
theorem quiet (h : Accounts taken server) (hall : next.commandFrames.Perm server.commandFrames)
    (hsame : ∀ c ∈ next.created, ∃ old ∈ server.created, c.commandFrames = old.commandFrames) :
    Accounts (taken ++ []) next := by
  rw [List.append_nil]
  refine ⟨hall.trans h.all, fun c hc => ?_⟩
  obtain ⟨old, hold, heq⟩ := hsame c hc
  rw [heq]
  exact h.order old hold

theorem writes {request : Request} (h : Accounts taken server) (hsound : server.Sound)
    (hwrites : Writes server request next) :
    Accounts (taken ++ server.carriedOut (.request request)) next := by
  cases hwrites with
  | same hnone =>
      rw [hnone, List.append_nil]
      exact h
  | create hnone =>
      rw [hnone, List.append_nil]
      constructor
      · rw [commandFrames, List.flatMap_append]
        exact (List.append_nil _).symm ▸ h.all
      · exact List.forall_mem_append.mpr
          ⟨h.order, List.forall_mem_singleton.mpr (List.nil_sublist _)⟩
  | @write id c command hget hname hopen hcarried hlog =>
      have hmem := List.mem_of_getElem? hget
      -- an open session carries the name it was created for
      obtain ⟨phase, hphase, -⟩ := hsound c hmem
      obtain ⟨last, hlast, -⟩ := (hsound c hmem).send command
      have hcom : c.comName = command.comName := by
        rw [← hname, hphase.name_eq (by rw [hphase.isOpen_iff.mp hopen]; decide)]
      have hframes : CreatedSession.commandFrames { c with session := command.send c.session } =
          c.commandFrames ++ server.carriedOut (.request request) := by
        rw [CreatedSession.commandFrames_eq hlast, CreatedSession.commandFrames_eq hphase, hcarried,
          ← hcom, hlog, List.filter_append, List.map_append]
      constructor
      · exact (Slots.flatMap_set_perm hget hframes).trans (h.all.append_right _)
      · intro other hother
        rcases List.mem_or_eq_of_mem_set hother with hold | rfl
        · exact (h.order other hold).trans (List.sublist_append_left _ _)
        · rw [hframes]
          exact (h.order c hmem).append_right _

/-- What a session does by itself adds stop frames only. -/
theorem session {id : Nat} {action : SerialPortSession.Action} (h : Accounts taken server)
    (hsound : server.Sound) (hstep : server.step (.session id action) = some next) :
    Accounts (taken ++ []) next := by
  obtain ⟨c, after, hget, hafter, rfl⟩ := step_session hstep
  have hmem := List.mem_of_getElem? hget
  obtain ⟨phase, hphase, -⟩ := hsound c hmem
  obtain ⟨last, -, hlast⟩ := hphase.step hafter
  obtain ⟨count, hlog⟩ := hphase.step_log hafter
  have hframes : CreatedSession.commandFrames { c with session := after } =
      c.commandFrames ++ [] := by
    rw [CreatedSession.commandFrames_eq (c := { c with session := after }) hlast,
      CreatedSession.commandFrames_eq hphase, hlog]
    simp
  have hperm := Slots.flatMap_set_perm hget hframes
  rw [List.append_nil] at hperm hframes
  refine h.quiet hperm ?_
  intro other hother
  rcases List.mem_or_eq_of_mem_set hother with hold | rfl
  · exact ⟨other, hold, rfl⟩
  · exact ⟨c, hmem, hframes⟩

theorem stop (h : Accounts taken server) : Accounts (taken ++ []) server.stop := by
  have hframes : ∀ c : CreatedSession, (stopSession c).commandFrames = c.commandFrames := by
    intro c
    rw [CreatedSession.commandFrames, stopSession_log]
    rfl
  refine h.quiet ?_ ?_
  · have hcreated : server.stop.created = server.created.map stopSession := rfl
    rw [commandFrames, hcreated, List.flatMap_map]
    simp only [hframes]
    exact .refl _
  · intro c hc
    obtain ⟨old, hold, rfl⟩ := List.mem_map.mp hc
    exact ⟨old, hold, hframes old⟩

theorem same_created (h : Accounts taken server) (hcreated : next.created = server.created) :
    Accounts (taken ++ []) next := by
  refine h.quiet ?_ ?_
  · rw [commandFrames, hcreated]
    exact .refl _
  · rw [hcreated]
    exact fun c hc => ⟨c, hc, rfl⟩

theorem step {action : Action} (h : Accounts taken server) (hsound : server.Sound)
    (hstep : server.step action = some next) :
    Accounts (taken ++ server.carriedOut action) next := by
  cases action with
  | request request =>
      unfold SerialPortControlServer.step at hstep
      split at hstep
      next => cases hstep
      next =>
        obtain rfl := Option.some.inj hstep
        exact h.writes hsound (processRequest_writes server request)
  | session id action => exact h.session hsound hstep
  | stop =>
      unfold SerialPortControlServer.step at hstep
      split at hstep
      next => cases hstep
      next =>
        obtain rfl := Option.some.inj hstep
        exact h.stop
  | start | timerExpires | timerHandler index | found ports =>
      have hchange := step_change hstep
      refine h.same_created ?_
      generalize next.created = created at hchange
      cases hchange with
      | keep => rfl

end Accounts

theorem accounts_of_exec {config : Config} {actions : List Action}
    {server : SerialPortControlServer}
    (hexec : Transition.exec SerialPortControlServer.step (.init config) actions = some server) :
    Accounts (commandsTaken config actions) server := by
  have hinv : server.Sound ∧ Accounts ([] ++ commandsTaken config actions) server :=
    Transition.trace_invariant (fun taken server => server.Sound ∧ Accounts taken server)
      (fun _ _ _ _ h hstep => ⟨h.1.step hstep, h.2.step h.1 hstep⟩)
      ⟨Sound.init config, .init config⟩ hexec
  rw [List.nil_append] at hinv
  exact hinv.2

end SerialPortControlServer

end Vorze
