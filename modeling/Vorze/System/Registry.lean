import Vorze.System.Step

/-! # Every session follows its life

The server calls its sessions only in ways that keep each of them in one of the
phases of a created session, whatever the order of the steps. A listed session
is not closed and has no closing handler queued.
-/

namespace Vorze

/-- The invariant of one created session. -/
def CreatedSession.Sound (c : CreatedSession) : Prop :=
  ∃ phase, InPhase c.comName phase c.session ∧
    (c.registered = true → phase ≠ .closed ∧ (phase = .opened → c.session.handlers = []))

namespace CreatedSession.Sound

open SerialPortControlServer

theorem newSession (comName : Bytes) : (newSession comName).Sound :=
  ⟨.pending, InPhase.created comName, fun _ => ⟨by decide, by simp⟩⟩

theorem send {c : CreatedSession} (h : c.Sound) (command : HttpConnectSession.Command) :
    ({ c with session := command.send c.session } : CreatedSession).Sound := by
  obtain ⟨phase, hphase, hlisted⟩ := h
  unfold HttpConnectSession.Command.send
  split
  next =>
    obtain ⟨hnext, hhandlers⟩ :=
      hphase.setStateMode command.mode (command.direct == 1) command.speed
    refine ⟨phase, hnext, fun hregistered => ⟨(hlisted hregistered).1, fun hopened => ?_⟩⟩
    exact hhandlers.trans ((hlisted hregistered).2 hopened)
  next => exact ⟨phase, hphase, hlisted⟩

/-- A listed session has at most its `init` to run, so it is not closed by a step. -/
theorem step {c : CreatedSession} (h : c.Sound) {action : SerialPortSession.Action}
    {session : SerialPortSession} (hstep : c.session.step action = some session) :
    ({ c with session := session } : CreatedSession).Sound := by
  obtain ⟨phase, hphase, hlisted⟩ := h
  cases action with
  | complete index ec =>
      obtain ⟨hnext, hhandlers⟩ := hphase.complete hstep
      refine ⟨phase, hnext, fun hregistered => ⟨(hlisted hregistered).1, fun hopened => ?_⟩⟩
      exact hhandlers.trans ((hlisted hregistered).2 hopened)
  | handler index answers =>
      rcases hphase.handler hstep with ⟨rfl, ⟨hnext, hempty⟩ | hnext⟩ | ⟨hwas, hnext⟩
      · exact ⟨.opened, hnext, fun _ => ⟨by decide, fun _ => hempty⟩⟩
      · exact ⟨.failed, hnext, fun _ => ⟨by decide, by simp⟩⟩
      · refine ⟨.closed, hnext, fun hregistered => ?_⟩
        -- a listed session has no closing handler that could have run
        obtain ⟨hnotClosed, hempty⟩ := hlisted hregistered
        rcases hwas with rfl | rfl
        · obtain ⟨handler, hget, _⟩ := Option.map_eq_some_iff.mp hstep
          simp [hempty rfl] at hget
        · exact absurd rfl hnotClosed

theorem stop {c : CreatedSession} (h : c.Sound) : (stopSession c).Sound := by
  obtain ⟨phase, hphase, hlisted⟩ := h
  unfold stopSession
  split
  next => exact ⟨phase, hphase.close.1, fun hregistered => by cases hregistered⟩
  next => exact ⟨phase, hphase, hlisted⟩

end CreatedSession.Sound

/-- What holds of all elements of a list holds after one of them was changed to
another that has it. -/
theorem forall_mem_modify {α : Type} {p : α → Prop} {l : List α} {f : α → α} {i : Nat}
    (hall : ∀ a ∈ l, p a) (hnew : ∀ a, l[i]? = some a → p (f a)) :
    ∀ a ∈ l.modify i f, p a := by
  intro a ha
  obtain ⟨j, hj⟩ := List.getElem?_of_mem ha
  rw [List.getElem?_modify] at hj
  obtain ⟨b, hb, rfl⟩ := Option.map_eq_some_iff.mp hj
  by_cases hij : i = j
  · subst hij
    simpa using hnew b hb
  · simpa [hij] using hall b (List.mem_of_getElem? hb)

/-- A list keeps its keys when one element is changed to another with the same key. -/
theorem map_modify_of_eq {α β : Type} {key : α → β} {f : α → α} (hkey : ∀ a, key (f a) = key a)
    (l : List α) (i : Nat) : (l.modify i f).map key = l.map key := by
  apply List.ext_getElem?
  intro j
  rw [List.getElem?_map, List.getElem?_modify, List.getElem?_map, Option.map_eq_map, Option.map_map]
  congr 1
  funext a
  by_cases hij : i = j <;> simp [hij, hkey]

namespace SerialPortControlServer

/-- Every session that was ever created is in a phase of its life. -/
def Sound (server : SerialPortControlServer) : Prop := ∀ c ∈ server.created, c.Sound

theorem Sound.init (config : Config) : (init config).Sound := by
  intro c hc
  cases hc

theorem Sound.step {server next : SerialPortControlServer} {action : Action} (h : server.Sound)
    (hstep : server.step action = some next) : next.Sound := by
  have hchange := step_change hstep
  unfold Sound
  generalize next.created = created at hchange
  cases hchange with
  | keep => exact h
  | create hcreates =>
      exact List.forall_mem_append.mpr ⟨h, List.forall_mem_singleton.mpr (.newSession _)⟩
  | command hget =>
      exact forall_mem_modify h fun c hc => (h c (List.mem_of_getElem? hc)).send _
  | session hget hsession =>
      apply forall_mem_modify h
      intro c hc
      obtain rfl := Option.some.inj (hget.symm.trans hc)
      exact (h _ (List.mem_of_getElem? hc)).step hsession
  | stop =>
      intro c hc
      obtain ⟨old, hold, rfl⟩ := List.mem_map.mp hc
      exact (h old hold).stop

/-- In every state the server can get to, each session follows its life. -/
theorem sound_of_exec {config : Config} {actions : List Action} {server : SerialPortControlServer}
    (hexec : Transition.exec SerialPortControlServer.step (.init config) actions = some server) :
    server.Sound :=
  Transition.exec_invariant Sound (fun _ _ _ _ h hstep => h.step hstep) (Sound.init config)
    (Transition.meets_true _ actions) hexec

/-! ## Listed sessions -/

theorem mem_sessions {server : SerialPortControlServer} {c : CreatedSession} :
    c ∈ server.sessions ↔ c ∈ server.created ∧ c.registered = true := List.mem_filter

/-- Before `stop` every session is listed. -/
def AllListed (server : SerialPortControlServer) : Prop :=
  server.timer.present = true → ∀ c ∈ server.created, c.registered = true

theorem AllListed.step {server next : SerialPortControlServer} {action : Action}
    (h : server.AllListed) (hstep : server.step action = some next) : next.AllListed := by
  intro hnext
  have hchange := step_change hstep
  rw [step_present hstep, Bool.and_eq_true, decide_eq_true_eq] at hnext
  have hlisted := h hnext.2
  generalize next.created = created at hchange
  cases hchange with
  | keep => exact hlisted
  | create hcreates =>
      exact List.forall_mem_append.mpr ⟨hlisted, List.forall_mem_singleton.mpr rfl⟩
  | command hget =>
      exact forall_mem_modify hlisted fun c hc => hlisted c (List.mem_of_getElem? hc)
  | session hget hsession =>
      exact forall_mem_modify hlisted fun c hc => hlisted c (List.mem_of_getElem? hc)
  | stop => exact absurd rfl hnext.1

theorem registered_of_exec {config : Config} {actions : List Action}
    {server : SerialPortControlServer}
    (hexec : Transition.exec SerialPortControlServer.step (.init config) actions = some server)
    (hstop : .stop ∉ actions) : ∀ c ∈ server.created, c.registered = true := by
  have hlisted : server.AllListed :=
    Transition.exec_invariant AllListed (fun _ _ _ _ h hstep => h.step hstep)
      (fun _ c hc => by cases hc) (Transition.meets_true _ actions) hexec
  apply hlisted
  rw [exec_present hexec]
  simpa [SerialPortControlServer.init] using hstop

end SerialPortControlServer

end Vorze
