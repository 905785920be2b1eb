import Vorze.System.Registry
import Mathlib.Data.List.Nodup

/-! # Ports, sessions and the report of open ports

`get` compares the name a session got when its `init` ran. Before that the
session cannot be found, and after a failed open it is still found. The results
say when the registry nevertheless has one session for a port, when a request
can try a port again, and when the list of open ports is right.
-/

namespace Vorze.SerialPortControlServer

open SerialPortSession

/-! ## Creating -/

theorem createdName_eq_some {server : SerialPortControlServer} {request : Request}
    {comName : Bytes} (hcreates : server.createdName request = some comName) :
    ∃ command, requestCommand request = some command ∧ command.comName = comName ∧
      server.get comName = none := by
  unfold createdName at hcreates
  split at hcreates
  next command hcommand =>
    simp only [Option.ite_none_right_eq_some, Option.some.injEq] at hcreates
    obtain ⟨⟨_, hget, _⟩, rfl⟩ := hcreates
    exact ⟨command, hcommand, rfl, hget⟩
  next => cases hcreates

/-- A listed session for a port without a queued `init` carries the port's name. -/
theorem name_of_listed {server : SerialPortControlServer} (hsound : server.Sound)
    {c : CreatedSession} (hc : c ∈ server.created) (hinit : c.comName ∉ c.session.initNames) :
    c.session.serialPortName = c.comName := by
  obtain ⟨phase, hphase, -⟩ := hsound c hc
  apply hphase.name_eq
  intro hpending
  simp [hphase.initNames_eq, hpending] at hinit

/-! ## One session for a port -/

/-- A request that gets a session created finds no `init` for that port queued. -/
def InitFirst (server : SerialPortControlServer) : Action → Prop
  | .request request => ∀ comName ∈ server.createdName request,
      ∀ c ∈ server.sessions, comName ∉ c.session.initNames
  | _ => True

instance (server : SerialPortControlServer) : ∀ action, Decidable (server.InitFirst action)
  | .request request =>
      inferInstanceAs (Decidable (∀ comName ∈ server.createdName request, _))
  | .start | .stop | .timerExpires | .timerHandler _ | .found _ | .session _ _ => .isTrue trivial

/-- The names the listed sessions were created for. -/
def listedNames (server : SerialPortControlServer) : List Bytes :=
  server.sessions.map (·.comName)

theorem listedNames_congr {server next : SerialPortControlServer}
    (hkeys : next.created.map (fun c => (c.registered, c.comName)) =
      server.created.map fun c => (c.registered, c.comName)) :
    next.listedNames = server.listedNames := by
  have hnames : ∀ server : SerialPortControlServer, server.listedNames =
      ((server.created.map fun c => (c.registered, c.comName)).filter Prod.fst).map Prod.snd := by
    intro server
    rw [listedNames, sessions, List.filter_map, List.map_map]
    rfl
  rw [hnames, hnames, hkeys]

/-- Whether the session ever tried to open the device. -/
def Attempted (c : CreatedSession) (device : Bytes) : Prop :=
  .opened device ∈ c.session.log ∨ .openFailed device ∈ c.session.log

theorem Attempted.eq {c : CreatedSession} (h : c.Sound) {device : Bytes}
    (hattempted : Attempted c device) : device = c.comName := by
  obtain ⟨phase, hphase, -⟩ := h
  rcases hattempted with hopened | hfailed
  · exact hphase.opened_mem hopened
  · exact ((hphase.openFailed_mem_iff device).mp hfailed).2

theorem nodup_step {server next : SerialPortControlServer} {action : Action}
    (hok : server.InitFirst action) (hsound : server.Sound) (h : server.listedNames.Nodup)
    (hstep : server.step action = some next) : next.listedNames.Nodup := by
  have hchange := step_change hstep
  generalize hcreated : next.created = created at hchange
  cases hchange with
  | keep =>
      have hnames : next.listedNames = server.listedNames := listedNames_congr (by rw [hcreated])
      rwa [hnames]
  | command hget | session hget hsession =>
      have hnames : next.listedNames = server.listedNames := by
        apply listedNames_congr
        rw [hcreated]
        exact map_modify_of_eq (by intro _; rfl) _ _
      rwa [hnames]
  | stop =>
      have hnone : next.sessions = [] := by
        rw [sessions, hcreated, List.filter_eq_nil_iff]
        intro c hc
        obtain ⟨old, -, rfl⟩ := List.mem_map.mp hc
        simp
      simp [listedNames, hnone]
  | @create request comName hcreates =>
      have hnames : next.listedNames = server.listedNames ++ [comName] := by
        rw [listedNames, sessions, hcreated, List.filter_append, List.map_append]
        rfl
      rw [hnames, List.nodup_append]
      refine ⟨h, List.nodup_singleton _, ?_⟩
      -- a listed session for the port would have been found, or its `init` be queued
      intro name hname other hother heq
      obtain rfl := List.mem_singleton.mp hother
      obtain ⟨c, hc, rfl⟩ := List.mem_map.mp hname
      obtain ⟨hmem, hregistered⟩ := mem_sessions.mp hc
      subst heq
      have hinit := hok _ hcreates c hc
      obtain ⟨_, _, _, hget⟩ := createdName_eq_some hcreates
      exact get_eq_none_iff.mp hget c hmem hregistered (name_of_listed hsound hmem hinit)

/-- When every port's `init` runs before the port is asked for again, no two
listed sessions are for one port, and before `stop` no two sessions ever try to
open one device. -/
theorem one_session_per_port {config : Config} {actions : List Action}
    {server : SerialPortControlServer}
    (hexec : Transition.exec step (init config) actions = some server)
    (hfirst : Transition.Meets step InitFirst (init config) actions) :
    server.listedNames.Nodup ∧ (.stop ∉ actions →
      server.created.Pairwise fun a b => ∀ device, Attempted a device → ¬Attempted b device) := by
  have hinv : server.Sound ∧ server.listedNames.Nodup :=
    Transition.exec_invariant (fun server => server.Sound ∧ server.listedNames.Nodup)
      (fun _ _ _ hok h hstep => ⟨h.1.step hstep, nodup_step hok h.1 h.2 hstep⟩)
      ⟨Sound.init config, List.nodup_nil⟩ hfirst hexec
  refine ⟨hinv.2, fun hstop => ?_⟩
  have hlisted := registered_of_exec hexec hstop
  have hnames : (server.created.map (·.comName)).Nodup := by
    have hall : server.sessions = server.created := List.filter_eq_self.mpr hlisted
    rw [← hall]
    exact hinv.2
  refine (List.pairwise_map.mp hnames).imp_of_mem ?_
  intro a b ha hb hne device hattemptA hattemptB
  exact hne ((hattemptA.eq (hinv.1 a ha)).symm.trans (hattemptB.eq (hinv.1 b hb)))

/-- Two ports are created, and the first is asked for again once it is open. -/
def createTwo : List Action :=
  [.start, .found (some [⟨text "(COM3)", text "COM3"⟩, ⟨text "(COM4)", text "COM4"⟩]),
    .request (rawRequest (text "COM3") 1 50), .request (rawRequest (text "COM4") 0 10),
    .session 0 (.handler 0 []), .request (rawRequest (text "COM3") 1 60)]

theorem one_session_createTwo :
    ∃ server, Transition.exec step (init {}) createTwo = some server ∧
      server.listedNames.Nodup ∧ (.stop ∉ createTwo →
        server.created.Pairwise fun a b =>
          ∀ device, Attempted a device → ¬Attempted b device) := by
  obtain ⟨server, hexec⟩ := Option.isSome_iff_exists.mp
    (show (Transition.exec step (init {}) createTwo).isSome = true by decide +kernel)
  exact ⟨server, hexec, one_session_per_port hexec (by decide +kernel)⟩

/-- Two requests before the first `init` runs make two sessions for one port. -/
theorem not_one_session_two_requests :
    ∃ server, Transition.exec step (init {}) [.start,
        .found (some [⟨text "(COM3)", text "COM3"⟩]), .request (rawRequest (text "COM3") 1 50),
        .request (rawRequest (text "COM3") 1 50)] = some server ∧
      ¬server.listedNames.Nodup :=
  Transition.exists_exec (by decide +kernel)

/-! ## Trying a port again -/

/-- An `init` for the port waits to run. -/
def InitQueued (server : SerialPortControlServer) (comName : Bytes) : Prop :=
  ∃ c ∈ server.created, comName ∈ c.session.initNames

/-- A session has the port open. -/
def PortOpen (server : SerialPortControlServer) (comName : Bytes) : Prop :=
  ∃ c ∈ server.created, c.session.serialPort.map OpenPort.device = some comName

/-- An attempt to open the port was made and failed. -/
def OpenFailed (server : SerialPortControlServer) (comName : Bytes) : Prop :=
  ∃ c ∈ server.created, .openFailed comName ∈ c.session.log

instance (server : SerialPortControlServer) (comName : Bytes) :
    Decidable (server.InitQueued comName) :=
  inferInstanceAs (Decidable (∃ c ∈ server.created, _))

instance (server : SerialPortControlServer) (comName : Bytes) :
    Decidable (server.PortOpen comName) :=
  inferInstanceAs (Decidable (∃ c ∈ server.created, _))

/-- A command for a session that exists queues no `init`. -/
theorem send_initNames {c : CreatedSession} (h : c.Sound) (command : HttpConnectSession.Command) :
    (command.send c.session).initNames = c.session.initNames := by
  obtain ⟨phase, hphase, -⟩ := h
  unfold HttpConnectSession.Command.send
  split
  next =>
    rw [initNames, (hphase.setStateMode _ _ _).2]
    rfl
  next => rfl

/-- A request for a port nobody is opening gets its `init` queued exactly when
`get` finds no session for it. -/
theorem initQueued_request_iff {server : SerialPortControlServer} (hsound : server.Sound)
    {request : Request} {command : HttpConnectSession.Command}
    (hcommand : requestCommand request = some command) (hvalid : command.valid = true)
    (hname : server.checkNameValid command.comName = true)
    (hqueued : ¬server.InitQueued command.comName) :
    (HttpConnectSession.processRequest server request).2.InitQueued command.comName ↔
      server.get command.comName = none := by
  rw [processRequest_snd, hcommand, Option.map_some, Option.getD_some, HttpConnectSession.execute,
    if_pos hvalid]
  cases hget : server.get command.comName with
  | some id =>
      -- a command at most starts a write, which queues nothing
      refine iff_of_false ?_ (by simp)
      intro hinit
      obtain ⟨c, hc, hmem⟩ := hinit
      have hnone : ∀ c ∈ (server.onSession id command.send).created,
          command.comName ∉ c.session.initNames := by
        apply forall_mem_modify fun c hc hmem => hqueued ⟨c, hc, hmem⟩
        intro c hc
        have hold := List.mem_of_getElem? hc
        rw [send_initNames (hsound c hold)]
        exact fun hmem => hqueued ⟨c, hold, hmem⟩
      exact hnone c hc hmem
  | none =>
      refine iff_of_true ?_ rfl
      rw [create, if_pos hname]
      exact ⟨newSession command.comName, by simp, by simp [newSession, SerialPortSession.init,
        initNames]⟩

/-- Before `stop`, a request for a known port that is not open and not being
opened starts an attempt exactly when no attempt on the port has failed. A port
with the empty name also needs that no other `init` is queued, since a session
whose `init` has not run is found under that name. -/
theorem request_reopens_iff {config : Config} {actions : List Action}
    {server : SerialPortControlServer}
    (hexec : Transition.exec step (init config) actions = some server) (hstop : .stop ∉ actions)
    {request : Request} {command : HttpConnectSession.Command}
    (hcommand : requestCommand request = some command) (hvalid : command.valid = true)
    (hname : server.checkNameValid command.comName = true)
    (hclosed : ¬server.PortOpen command.comName) (hqueued : ¬server.InitQueued command.comName) :
    (HttpConnectSession.processRequest server request).2.InitQueued command.comName ↔
      ¬server.OpenFailed command.comName ∧
        (command.comName = [] → ∀ c ∈ server.created, c.session.initNames = []) := by
  have hsound := sound_of_exec hexec
  have hlisted := registered_of_exec hexec hstop
  rw [initQueued_request_iff hsound hcommand hvalid hname hqueued, get_eq_none_iff]
  constructor
  · intro hget
    constructor
    · rintro ⟨c, hc, hfailed⟩
      obtain ⟨phase, hphase, -⟩ := hsound c hc
      obtain ⟨rfl, hsame⟩ := (hphase.openFailed_mem_iff _).mp hfailed
      exact hget c hc (hlisted c hc) ((hphase.name_eq (by decide)).trans hsame.symm)
    · intro hempty c hc
      obtain ⟨phase, hphase, -⟩ := hsound c hc
      rw [hphase.initNames_eq, ite_eq_right_iff]
      intro hpending
      have hcname := hphase.name
      rw [if_pos hpending, ← hempty] at hcname
      exact absurd hcname (hget c hc (hlisted c hc))
  · intro ⟨hfailed, hempty⟩ c hc hregistered hcname
    obtain ⟨phase, hphase, hphaseListed⟩ := hsound c hc
    -- a session that `get` finds is pending, failed or open, and each is excluded
    cases phase with
    | pending =>
        have hnoInit := hempty (hcname.symm.trans hphase.name) c hc
        simp [hphase.initNames_eq] at hnoInit
    | failed =>
        have hsame := hcname.symm.trans (hphase.name_eq (by decide))
        exact hfailed ⟨c, hc, (hphase.openFailed_mem_iff _).mpr ⟨rfl, hsame⟩⟩
    | opened =>
        have hsame := hcname.symm.trans (hphase.name_eq (by decide))
        exact hclosed ⟨c, hc, by rw [hphase.device, if_pos rfl, hsame]⟩
    | closed => exact (hphaseListed hregistered).1 rfl

/-- One port could not be opened; another one has not been tried. -/
def failOne : List Action :=
  [.start, .found (some [⟨text "(COM3)", text "COM3"⟩, ⟨text "(COM4)", text "COM4"⟩]),
    .request (rawRequest (text "COM3") 1 50), .session 0 (.handler 0 [⟨2, text "not found"⟩])]

/-- A port that was not tried yet is tried. -/
theorem request_reopens_failOne :
    ∃ server, Transition.exec step (init {}) failOne = some server ∧
      ((HttpConnectSession.processRequest server (rawRequest (text "COM4") 0 10)).2.InitQueued
          (text "COM4") ↔
        ¬server.OpenFailed (text "COM4") ∧
          (text "COM4" = [] → ∀ c ∈ server.created, c.session.initNames = [])) := by
  obtain ⟨server, hexec, hname, hclosed, hqueued⟩ :
      ∃ server, Transition.exec step (init {}) failOne = some server ∧
        server.checkNameValid (text "COM4") = true ∧ ¬server.PortOpen (text "COM4") ∧
        ¬server.InitQueued (text "COM4") :=
    Transition.exists_exec (by decide +kernel)
  have hcommand : requestCommand (rawRequest (text "COM4") 0 10) =
      some ⟨text "none", text "COM4", 0, 10⟩ := by decide +kernel
  exact ⟨server, hexec, request_reopens_iff hexec (by decide) hcommand (by decide) hname hclosed
    hqueued⟩

/-- The port whose open failed is found in the registry, so it is not tried again. -/
theorem not_request_reopens_failed :
    ∃ server, Transition.exec step (init {}) failOne = some server ∧
      server.checkNameValid (text "COM3") = true ∧ ¬server.PortOpen (text "COM3") ∧
      ¬server.InitQueued (text "COM3") ∧
      requestCommand (rawRequest (text "COM3") 1 50) = some ⟨text "none", text "COM3", 1, 50⟩ ∧
      ¬(HttpConnectSession.processRequest server (rawRequest (text "COM3") 1 50)).2.InitQueued
        (text "COM3") :=
  Transition.exists_exec (by decide +kernel)

/-! ## The report of open ports -/

/-- The report holds the ports that are open in a listed session, each once. -/
structure Truthful (server : SerialPortControlServer) : Prop where
  nodup : server.listOpenPortsName.Nodup
  mem_iff : ∀ device, device ∈ server.listOpenPortsName ↔
    ∃ c ∈ server.sessions, c.session.serialPort.map OpenPort.device = some device

/-- Every listed session has opened its port, and no two are for one port. -/
structure AllOpened (server : SerialPortControlServer) : Prop where
  ran : ∀ c ∈ server.sessions, c.session.initNames = []
  succeeded : ∀ c ∈ server.sessions, ∀ device, .openFailed device ∉ c.session.log
  nodup : server.listedNames.Nodup

/-- What a listed session without a queued `init` or a failed open is. -/
theorem opened_of_listed {server : SerialPortControlServer} (hsound : server.Sound)
    {c : CreatedSession} (hc : c ∈ server.sessions) (hran : c.session.initNames = [])
    (hsucceeded : .openFailed c.comName ∉ c.session.log) :
    InPhase c.comName .opened c.session := by
  obtain ⟨hmem, hregistered⟩ := mem_sessions.mp hc
  obtain ⟨phase, hphase, hlisted⟩ := hsound c hmem
  cases phase with
  | pending => simp [hphase.initNames_eq] at hran
  | failed => exact absurd ((hphase.openFailed_mem_iff _).mpr ⟨rfl, rfl⟩) hsucceeded
  | opened => exact hphase
  | closed => exact absurd rfl (hlisted hregistered).1

/-- With a true report, every listed session has its port open. -/
theorem Truthful.opened {server : SerialPortControlServer} (hsound : server.Sound)
    (h : server.Truthful) {c : CreatedSession} (hc : c ∈ server.sessions) :
    InPhase c.comName .opened c.session := by
  -- some session has the port open that this one is listed with
  obtain ⟨other, hother, hdevice⟩ := (h.mem_iff c.session.serialPortName).mp
    (List.mem_map.mpr ⟨c, hc, rfl⟩)
  obtain ⟨phase, hphase, -⟩ := hsound other (mem_sessions.mp hother).1
  rw [hphase.device, Option.ite_none_right_eq_some, Option.some.injEq] at hdevice
  obtain ⟨rfl, hsame⟩ := hdevice
  have hname := (hphase.name_eq (by decide)).trans hsame
  obtain rfl := List.inj_on_of_nodup_map h.nodup hother hc hname
  exact hphase

/-- In every reachable state the report is right exactly when every listed
session has opened its port and no two sessions are for one port. -/
theorem truthful_iff {config : Config} {actions : List Action} {server : SerialPortControlServer}
    (hexec : Transition.exec step (init config) actions = some server) :
    server.Truthful ↔ server.AllOpened := by
  have hsound := sound_of_exec hexec
  constructor
  · intro h
    have hnames : server.listOpenPortsName = server.listedNames :=
      List.map_congr_left fun c hc => (h.opened hsound hc).name_eq (by decide)
    exact
      { ran := fun c hc => by
          rw [(h.opened hsound hc).initNames_eq]
          rfl
        succeeded := fun c hc device hfailed => by
          have := ((h.opened hsound hc).openFailed_mem_iff device).mp hfailed
          simp at this
        nodup := hnames ▸ h.nodup }
  · intro h
    have hopened : ∀ c ∈ server.sessions, InPhase c.comName .opened c.session := fun c hc =>
      opened_of_listed hsound hc (h.ran c hc) (h.succeeded c hc c.comName)
    have hnames : server.listOpenPortsName = server.listedNames :=
      List.map_congr_left fun c hc => (hopened c hc).name_eq (by decide)
    refine ⟨hnames ▸ h.nodup, fun device => ?_⟩
    rw [hnames, listedNames, List.mem_map]
    apply exists_congr
    intro c
    apply and_congr_right
    intro hc
    rw [(hopened c hc).device, if_pos rfl, Option.some.injEq]

/-- Two ports, both opened. -/
def openTwo : List Action :=
  [.start, .found (some [⟨text "(COM3)", text "COM3"⟩, ⟨text "(COM4)", text "COM4"⟩]),
    .request (rawRequest (text "COM3") 1 50), .request (rawRequest (text "COM4") 0 10),
    .session 1 (.handler 0 []), .session 0 (.handler 0 [])]

theorem truthful_openTwo :
    ∃ server, Transition.exec step (init {}) openTwo = some server ∧
      (server.Truthful ↔ server.AllOpened) := by
  obtain ⟨server, hexec⟩ := Option.isSome_iff_exists.mp
    (show (Transition.exec step (init {}) openTwo).isSome = true by decide +kernel)
  exact ⟨server, hexec, truthful_iff hexec⟩

/-- A session whose `init` waits is reported under the empty name. -/
theorem not_truthful_pending :
    ∃ server, Transition.exec step (init {}) [.start,
        .found (some [⟨text "(COM3)", text "COM3"⟩]),
        .request (rawRequest (text "COM3") 1 50)] = some server ∧
      server.listOpenPortsName = [[]] ∧ ¬server.Truthful := by
  obtain ⟨server, hexec, hnames, hclosed⟩ :
      ∃ server, Transition.exec step (init {}) [.start,
          .found (some [⟨text "(COM3)", text "COM3"⟩]),
          .request (rawRequest (text "COM3") 1 50)] = some server ∧
        server.listOpenPortsName = [[]] ∧
        ∀ c ∈ server.sessions, c.session.serialPort.map OpenPort.device ≠ some [] :=
    Transition.exists_exec (by decide +kernel)
  refine ⟨server, hexec, hnames, fun h => ?_⟩
  obtain ⟨c, hc, hdevice⟩ := (h.mem_iff []).mp (by simp [hnames])
  exact hclosed c hc hdevice

end Vorze.SerialPortControlServer
