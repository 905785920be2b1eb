import Vorze.Foundation.Line
import Vorze.Serial.InFlight

/-! # The order of commands

`stop` from outside the executor waits in its queue, while `setState` and every
call made inside hand their frame over at once. The frames are a line that can
be passed.
-/

namespace Vorze

namespace Operation

/-- The methods that send a command. -/
def isCommand : Operation → Bool
  | .stop .. | .sendCommand .. | .setState .. | .setStateMode .. => true
  | _ => false

/-- The command byte that a call asks for, and whether it is sent by `async_write`.
A mode that is left to the mode manager sends none. -/
def command : Operation → Option (UInt8 × Bool)
  | .stop _ => some (0, false)
  | .sendCommand c _ async => some (c, async)
  | .setState direct speed _ =>
      some ((if direct then 0x80 else 0x00) + SerialPortSession.clampSpeed speed, true)
  | .setStateMode mode direct speed _ =>
      if text "none" = mode then
        some ((if direct then 0x80 else 0x00) + SerialPortSession.clampSpeed speed, true)
      else none
  | _ => none

end Operation

/-- Only commands are called, and the executor takes its handlers in the order in
which they were queued. -/
def Turn.ofCommands : Turn → Bool
  | .call _ op _ => op.isCommand
  | .own (.handler index _) => index == 0
  | .own (.complete ..) => true

namespace SerialPortSession

/-- The sends that wait in the executor, with their frames. -/
def queued (s : SerialPortSession) : List (Nat × Bytes) :=
  s.handlers.filterMap fun
    | .init .. => none
    | .write ptr data _ => some (ptr, data)

/-- The frame that a call asks for, once its check found the port open. -/
def accepts (s : SerialPortSession) : Turn → List (Nat × Bytes)
  | .call _ op _ =>
      if s.isOpen then op.command.toList.map fun c => (s.nextPtr, frame c.1) else []
  | .own _ => []

/-- The entry whose data a turn may write. -/
def turnEntry (s : SerialPortSession) : Turn → Option Nat
  | .call .. => some s.nextPtr
  | .own (.handler index _) => (s.handlers[index]?).bind entry
  | .own (.complete index _) => (s.writing[index]?).map AsyncWrite.ptr

/-- The frames whose write was started in a turn. -/
def handsOver (s next : SerialPortSession) (t : Turn) : List (Nat × Bytes) :=
  (s.turnEntry t).toList.flatMap fun ptr =>
    ((writesStarted next.log).drop (writesStarted s.log).length).map (ptr, ·)

end SerialPortSession

open SerialPortSession

/-- A session with the frames of the accepted calls, in the order of the calls,
and those that were handed to the port, in the order of the writes. -/
structure CommandRun where
  session : SerialPortSession
  accepted : List (Nat × Bytes)
  handed : List (Nat × Bytes)
  deriving DecidableEq, Repr

namespace CommandRun

/-- The commands that wait already were accepted before. -/
def start (s : SerialPortSession) : CommandRun where
  session := s
  accepted := s.queued
  handed := []

def step (r : CommandRun) (t : Turn) : Option CommandRun :=
  if t.ofCommands then
    (r.session.turn t).map fun next =>
      { session := next
        accepted := r.accepted ++ r.session.accepts t
        handed := r.handed ++ r.session.handsOver next t }
  else none

/-- The frames are handed over in the order in which the calls were accepted, and
when none waits any more the last one written is that of the last accepted call. -/
def KeepsOrder (r : CommandRun) : Prop :=
  r.handed <+: r.accepted ∧
    (r.session.handlers = [] → r.accepted ≠ [] →
      (writesStarted r.session.log).getLast? = r.accepted.getLast?.map Prod.snd)

/-- A call hands its frame over at once only when no other one waits. -/
def PassesNone (r : CommandRun) : Turn → Prop
  | .call inside op _ =>
      match op.command with
      | some (_, async) => (async || inside) = true → r.session.handlers = []
      | none => True
  | .own _ => True

instance (r : CommandRun) (t : Turn) : Decidable (r.PassesNone t) := by
  unfold PassesNone
  repeat' split
  all_goals infer_instance

end CommandRun

/-! ## The calls -/

namespace SerialPortSession

variable {s : SerialPortSession}

/-- On an open port all commands are sent by `sendCommand`. -/
theorem call_command (hopen : s.isOpen = true) {op : Operation} {c : UInt8} {async : Bool}
    (hcommand : op.command = some (c, async)) (inside : Bool) :
    s.call inside op =
      s.sendCommand inside c (.given op.callback) (invoke (.given op.callback)) async := by
  cases op with
  | stop cb | sendCommand c' cb async' =>
      cases hcommand
      rfl
  | setState direct speed cb =>
      cases hcommand
      simp [call, setState, sendCommand, hopen, Operation.callback]
  | setStateMode mode direct speed cb =>
      by_cases hmode : text "none" = mode
      · rw [Operation.command, if_pos hmode] at hcommand
        cases hcommand
        simp [call, setStateMode, hmode, setState, sendCommand, hopen, Operation.callback]
      · rw [Operation.command, if_neg hmode] at hcommand
        cases hcommand
  | sendAsync | sendSync | init | close => cases hcommand

/-- A frame that does not have to wait. -/
theorem sendCommand_passes (hopen : s.isOpen = true) (hfresh : s.nextPtr ∉ s.sendingData)
    (inside : Bool) (c : UInt8) (cb : Option Nat) (async : Bool)
    (hpass : (async || inside) = true) :
    ∃ sendingData writing answers completed,
      s.sendCommand inside c (.given cb) (invoke (.given cb)) async =
        { s with sendingData := sendingData, nextPtr := s.nextPtr + 1, writing := writing,
                 answers := answers, completed := completed,
                 log := s.log ++ [.writeStarted (frame c)] } := by
  obtain ⟨port, hport⟩ := Option.isSome_iff_exists.mp hopen
  cases async with
  | true =>
      refine ⟨s.sendingData ++ [s.nextPtr], s.writing ++ [⟨s.nextPtr, frame c, .given cb⟩],
        s.answers, s.completed, ?_⟩
      rw [sendCommand, if_pos hopen, if_pos rfl, sendAsync, if_pos hopen]
      rfl
  | false =>
      rw [Bool.false_or] at hpass
      subst hpass
      rw [sendCommand, if_pos hopen, if_neg (by decide), sendSync_inside hport, written_fresh hfresh]
      obtain ⟨completed, hcb⟩ := invoke_given cb
        { s with nextPtr := s.nextPtr + 1, answers := s.answers.tail,
                 log := s.log ++ [.writeStarted (frame c)] }
        (.ofCode (s.answers.headD .success))
      exact ⟨s.sendingData, s.writing, s.answers.tail, completed, hcb⟩

/-- A frame that waits in the executor. -/
theorem sendCommand_waits (hopen : s.isOpen = true) (c : UInt8) (cb : Option Nat) :
    s.sendCommand false c (.given cb) (invoke (.given cb)) false =
      { s with sendingData := s.sendingData ++ [s.nextPtr], nextPtr := s.nextPtr + 1,
               handlers := s.handlers ++ [.write s.nextPtr (frame c) (.given cb)] } := by
  simp [sendCommand, sendSync, emplaceData, hopen]

/-- A handler that sends the frame of a command. -/
def IsSend (s : SerialPortSession) (handler : Handler) : Prop :=
  ∃ ptr data cb, handler = .write ptr data (.given cb) ∧ ptr < s.nextPtr

theorem queued_eq_nil_iff (hsends : ∀ handler ∈ s.handlers, s.IsSend handler) :
    s.queued = [] ↔ s.handlers = [] := by
  rw [queued, List.filterMap_eq_nil_iff]
  constructor
  · intro hnone
    rw [List.eq_nil_iff_forall_not_mem]
    intro handler hmem
    obtain ⟨ptr, data, cb, rfl, -⟩ := hsends handler hmem
    cases hnone _ hmem
  · intro hnil
    simp [hnil]

theorem queued_lt (hsends : ∀ handler ∈ s.handlers, s.IsSend handler) {item : Nat × Bytes}
    (hitem : item ∈ s.queued) : item.1 < s.nextPtr := by
  obtain ⟨handler, hmem, hsome⟩ := List.mem_filterMap.mp hitem
  obtain ⟨ptr, data, cb, rfl, hlt⟩ := hsends handler hmem
  obtain rfl := Option.some.inj hsome
  exact hlt

end SerialPortSession

/-! ## The line of frames -/

namespace CommandRun

/-- The session is open and has nothing but commands to do. `writes` are the
writes from before the run. -/
structure Commanded (writes : List Bytes) (r : CommandRun) : Prop where
  opened : r.session.isOpen = true
  calls : FromCalls r.session
  sends : ∀ handler ∈ r.session.handlers, r.session.IsSend handler
  log : writesStarted r.session.log = writes ++ r.handed.map Prod.snd

/-- The run as a line. -/
def line (r : CommandRun) : Line (Nat × Bytes) where
  accepted := r.accepted
  handed := r.handed
  queued := r.session.queued

/-- A turn that is some move of the line, and passes it only when it must not. -/
def Follows (r next : CommandRun) (t : Turn) : Prop :=
  ∃ m, r.line.move m = some next.line ∧
    (∀ item, m = .pass item → item ∉ r.line.queued) ∧
    (r.PassesNone t ↔ ∀ item, m = .pass item → r.line.queued = [])

variable {writes : List Bytes} {r next : CommandRun}

theorem of_step {t : Turn} (hstep : r.step t = some next) :
    t.ofCommands = true ∧ ∃ session, r.session.turn t = some session ∧
      next = { session := session
               accepted := r.accepted ++ r.session.accepts t
               handed := r.handed ++ r.session.handsOver session t } := by
  unfold step at hstep
  split at hstep
  next hof =>
    obtain ⟨session, hturn, rfl⟩ := Option.map_eq_some_iff.mp hstep
    exact ⟨hof, session, hturn, rfl⟩
  next => cases hstep

theorem handsOver_of_log {s s' : SerialPortSession} {t : Turn} {ptr : Nat} {data : Bytes}
    (hentry : s.turnEntry t = some ptr) (hlog : s'.log = s.log ++ [.writeStarted data]) :
    s.handsOver s' t = [(ptr, data)] := by
  simp [handsOver, hentry, hlog]

theorem handsOver_eq_nil {s s' : SerialPortSession} (hlog : s'.log = s.log) (t : Turn) :
    s.handsOver s' t = [] := by
  simp [handsOver, hlog]

/-- The conditions on a session that stays open, after more entries were named. -/
theorem Commanded.after (h : Commanded writes r) {t : Turn} (hstep : r.step t = some next)
    (hopened : next.session.isOpen = true)
    (hsends : ∀ handler ∈ next.session.handlers, next.session.IsSend handler)
    (hlog : writesStarted next.session.log = writes ++ next.handed.map Prod.snd) :
    Commanded writes next := by
  obtain ⟨-, session, hturn, rfl⟩ := of_step hstep
  exact { opened := hopened, calls := (turn_change h.calls hturn).fromCalls h.calls,
          sends := hsends, log := hlog }

theorem isSend_mono {s s' : SerialPortSession} {handler : Handler} (h : s.IsSend handler)
    (hle : s.nextPtr ≤ s'.nextPtr) : s'.IsSend handler := by
  obtain ⟨ptr, data, cb, rfl, hlt⟩ := h
  exact ⟨ptr, data, cb, rfl, Nat.lt_of_lt_of_le hlt hle⟩

/-- A call that hands its frame over at once passes the line. -/
theorem follows_pass (h : Commanded writes r) {inside : Bool} {op : Operation}
    {answers : List ErrorCode} {c : UInt8} {async : Bool}
    (hcommand : op.command = some (c, async)) (hpass : (async || inside) = true)
    (hstep : r.step (.call inside op answers) = some next) :
    Commanded writes next ∧ r.Follows next (.call inside op answers) := by
  obtain ⟨-, session, hturn, hnext⟩ := of_step hstep
  obtain ⟨sendingData, writing, rest, completed, hcall⟩ :=
    sendCommand_passes (s := { r.session with answers := answers }) h.opened
      h.calls.nextPtr_notMem inside c op.callback async hpass
  have hsession : session =
      { r.session with sendingData := sendingData, nextPtr := r.session.nextPtr + 1,
                       writing := writing, answers := [], completed := completed,
                       log := r.session.log ++ [.writeStarted (frame c)] } := by
    rw [← Option.some.inj hturn,
      call_command (s := { r.session with answers := answers }) h.opened hcommand, hcall]
  have haccepts : r.session.accepts (.call inside op answers) =
      [(r.session.nextPtr, frame c)] := by
    simp [accepts, h.opened, hcommand]
  have hhands : r.session.handsOver session (.call inside op answers) =
      [(r.session.nextPtr, frame c)] :=
    handsOver_of_log rfl (by rw [hsession])
  rw [haccepts, hhands, hsession] at hnext
  subst hnext
  constructor
  · refine h.after hstep h.opened ?_ ?_
    · intro handler hmem
      exact isSend_mono (h.sends handler hmem) (Nat.le_succ _)
    · simp [h.log]
  · refine ⟨.pass (r.session.nextPtr, frame c), rfl, ?_, ?_⟩
    · rintro _ ⟨rfl⟩ hmem
      exact Nat.lt_irrefl _ (queued_lt h.sends hmem)
    · have hnil := queued_eq_nil_iff h.sends
      simp [PassesNone, hcommand, hpass, line, hnil]

/-- A stop from outside joins the line. -/
theorem follows_join (h : Commanded writes r) {op : Operation} {answers : List ErrorCode}
    {c : UInt8} (hcommand : op.command = some (c, false))
    (hstep : r.step (.call false op answers) = some next) :
    Commanded writes next ∧ r.Follows next (.call false op answers) := by
  obtain ⟨-, session, hturn, hnext⟩ := of_step hstep
  have hsession : session =
      { r.session with sendingData := r.session.sendingData ++ [r.session.nextPtr],
                       nextPtr := r.session.nextPtr + 1, answers := [],
                       handlers := r.session.handlers ++
                         [.write r.session.nextPtr (frame c) (.given op.callback)] } := by
    rw [← Option.some.inj hturn,
      call_command (s := { r.session with answers := answers }) h.opened hcommand,
      sendCommand_waits (s := { r.session with answers := answers }) h.opened]
  have haccepts : r.session.accepts (.call false op answers) =
      [(r.session.nextPtr, frame c)] := by
    simp [accepts, h.opened, hcommand]
  have hhands : r.session.handsOver session (.call false op answers) = [] :=
    handsOver_eq_nil (by rw [hsession]) _
  rw [haccepts, hhands, List.append_nil, hsession] at hnext
  subst hnext
  constructor
  · refine h.after hstep h.opened ?_ h.log
    refine List.forall_mem_append.mpr ⟨?_, List.forall_mem_singleton.mpr ?_⟩
    · intro handler hmem
      exact isSend_mono (h.sends handler hmem) (Nat.le_succ _)
    · exact ⟨r.session.nextPtr, frame c, op.callback, rfl, Nat.lt_succ_self _⟩
  · refine ⟨.join (r.session.nextPtr, frame c), ?_, by simp, ?_⟩
    · simp [Line.move, line, queued]
    · simp [PassesNone, hcommand]

/-- A turn that neither accepts nor hands over a frame. -/
theorem follows_rest (h : Commanded writes r) {t : Turn} {session : SerialPortSession}
    (hturn : r.session.turn t = some session) (hstep : r.step t = some next)
    (hport : session.serialPort = r.session.serialPort)
    (hhandlers : session.handlers = r.session.handlers)
    (hptr : session.nextPtr = r.session.nextPtr) (hlog : session.log = r.session.log)
    (haccepts : r.session.accepts t = []) (hpasses : r.PassesNone t) :
    Commanded writes next ∧ r.Follows next t := by
  obtain ⟨-, session', hturn', hnext⟩ := of_step hstep
  obtain rfl := Option.some.inj (hturn.symm.trans hturn')
  rw [haccepts, handsOver_eq_nil hlog, List.append_nil, List.append_nil] at hnext
  subst hnext
  constructor
  · refine h.after hstep (by rw [isOpen, hport]; exact h.opened) ?_ (by rw [hlog]; exact h.log)
    intro handler hmem
    rw [hhandlers] at hmem
    exact isSend_mono (h.sends handler hmem) (Nat.le_of_eq hptr.symm)
  · refine ⟨.rest, ?_, by simp, by simp [hpasses]⟩
    simp [Line.move, line, queued, hhandlers]

/-- The executor takes the first send that waits. -/
theorem follows_serve (h : Commanded writes r) {answers : List ErrorCode}
    (hstep : r.step (.own (.handler 0 answers)) = some next) :
    Commanded writes next ∧ r.Follows next (.own (.handler 0 answers)) := by
  obtain ⟨-, session, hturn, hnext⟩ := of_step hstep
  obtain ⟨handler, hget, hrun⟩ := Option.map_eq_some_iff.mp hturn
  obtain ⟨rest, hhandlers⟩ : ∃ rest, r.session.handlers = handler :: rest := by
    cases hlist : r.session.handlers with
    | nil => simp [hlist] at hget
    | cons first rest => exact ⟨rest, by simpa [hlist] using hget⟩
  obtain ⟨ptr, data, cb, rfl, hlt⟩ := h.sends handler (by simp [hhandlers])
  obtain ⟨port, hport⟩ := Option.isSome_iff_exists.mp h.opened
  obtain ⟨completed, hcb⟩ := invoke_given cb
    { r.session with handlers := rest, sendingData := r.session.sendingData.erase ptr,
                     answers := answers.tail, log := r.session.log ++ [.writeStarted data] }
    (.ofCode (answers.headD .success))
  have hsession : session =
      { r.session with handlers := rest, sendingData := r.session.sendingData.erase ptr,
                       answers := [], completed := completed,
                       log := r.session.log ++ [.writeStarted data] } := by
    rw [← hrun, hhandlers, List.eraseIdx_cons_zero, runHandler,
      writeHandler_open { r.session with handlers := rest, answers := answers } hport, hcb]
  have hhands : r.session.handsOver session (.own (.handler 0 answers)) = [(ptr, data)] :=
    handsOver_of_log (by simp [turnEntry, hhandlers, entry]) (by rw [hsession])
  rw [hhands, hsession] at hnext
  subst hnext
  constructor
  · refine h.after hstep h.opened ?_ (by simp [h.log])
    intro other hmem
    exact isSend_mono (h.sends other (by rw [hhandlers]; exact List.mem_cons_of_mem _ hmem))
      (Nat.le_refl _)
  · refine ⟨.serve, ?_, by simp, by simp [PassesNone]⟩
    simp [Line.move, line, queued, hhandlers, accepts]

/-- Every turn of a run of commands is a move of the line. -/
theorem step_follows (h : Commanded writes r) {t : Turn} (hstep : r.step t = some next) :
    Commanded writes next ∧ r.Follows next t := by
  obtain ⟨hof, session, hturn, -⟩ := of_step hstep
  cases t with
  | call inside op answers =>
      cases hcommand : op.command with
      | some sent =>
          obtain ⟨c, async⟩ := sent
          by_cases hpass : (async || inside) = true
          · exact follows_pass h hcommand hpass hstep
          · simp only [Bool.or_eq_true, not_or, Bool.not_eq_true] at hpass
            obtain ⟨rfl, rfl⟩ := hpass
            exact follows_join h hcommand hstep
      | none =>
          have hcall : call { r.session with answers := answers } inside op =
              { r.session with answers := answers } := by
            cases op with
            | setStateMode mode direct speed cb =>
                have hmode : text "none" ≠ mode := by
                  intro hmode
                  simp [Operation.command, hmode] at hcommand
                rw [call, setStateMode, if_neg hmode]
            | stop | sendCommand | setState => cases hcommand
            | sendAsync | sendSync | init | close => cases hof
          have hsession := Option.some.inj hturn
          rw [hcall] at hsession
          subst hsession
          exact follows_rest h hturn hstep rfl rfl rfl rfl (by simp [accepts, hcommand])
            (by simp [PassesNone, hcommand])
  | own action =>
      cases action with
      | handler index answers =>
          obtain rfl : index = 0 := by simpa [Turn.ofCommands] using hof
          exact follows_serve h hstep
      | complete index ec =>
          obtain ⟨write, hget, hrun⟩ := Option.map_eq_some_iff.mp hturn
          obtain ⟨cb, hgiven⟩ := h.calls.writing write (List.mem_of_getElem? hget)
          obtain ⟨completed, hcb⟩ := invoke_given cb
            { r.session with writing := r.session.writing.eraseIdx index,
                             sendingData := r.session.sendingData.erase write.ptr } (.ofCode ec)
          rw [completeWrite, hgiven, eraseData, hcb] at hrun
          subst hrun
          exact follows_rest h hturn hstep rfl rfl rfl rfl rfl trivial

/-! ## Runs -/

/-- The sends that wait in a session hold entries it named before. -/
theorem commanded_start {before : List Turn} {s : SerialPortSession}
    (hreach : Transition.exec turn {} before = some s) (hopen : s.isOpen = true)
    (hquiet : ∀ handler ∈ s.handlers, ∃ ptr data cb, handler = .write ptr data (.given cb)) :
    Commanded (writesStarted s.log) (start s) := by
  have hcalls := fromCalls_of_exec hreach
  obtain ⟨left, hperm, -⟩ := exec_pending [] fromCalls_new .nil hreach
  refine { opened := hopen, calls := hcalls, sends := ?_, log := by simp [start] }
  intro handler hmem
  obtain ⟨ptr, data, cb, rfl⟩ := hquiet handler hmem
  have hpending : ptr ∈ s.pending :=
    List.mem_append_left _ (List.mem_filterMap.mpr ⟨_, hmem, rfl⟩)
  exact ⟨ptr, data, cb, rfl,
    hcalls.fresh ptr (hperm.mem_iff.mpr (List.mem_append_left _ hpending))⟩

/-- Frames that waited their turn leave the device in the state that was asked for last. -/
theorem keepsOrder_of_waited (h : Commanded writes r) (hwaited : r.line.Waited) :
    r.KeepsOrder := by
  refine ⟨hwaited.inOrder, ?_⟩
  intro hhandlers hnonempty
  have hall : r.accepted = r.handed := by
    have hqueued : r.line.queued = [] := (queued_eq_nil_iff h.sends).mpr hhandlers
    have haccepted : r.accepted = r.handed ++ r.line.queued := hwaited
    rw [haccepted, hqueued, List.append_nil]
  have hlast : (r.handed.map Prod.snd) ≠ [] := by
    rw [← hall]
    simpa using hnonempty
  rw [h.log, hall, List.getLast?_append_of_ne_nil _ hlast, List.getLast?_map]

/-- The order of commands is kept in exactly the runs in which no call hands its
frame over while another frame waits. -/
theorem keepsOrder_iff {before turns : List Turn} {s : SerialPortSession} {final : CommandRun}
    (hreach : Transition.exec turn {} before = some s) (hopen : s.isOpen = true)
    (hquiet : ∀ handler ∈ s.handlers, ∃ ptr data cb, handler = .write ptr data (.given cb))
    (hexec : Transition.exec step (start s) turns = some final) :
    final.KeepsOrder ↔ Transition.Meets step PassesNone (start s) turns := by
  have hstart := commanded_start hreach hopen hquiet
  have hcases : Transition.Meets step PassesNone (start s) turns ∧ _ ∨
      ¬Transition.Meets step PassesNone (start s) turns ∧ _ := Transition.exec_good_or_bad
    (fun r => Commanded (writesStarted s.log) r ∧ r.line.Waited)
    (fun r => Commanded (writesStarted s.log) r ∧ r.line.Passed)
    (by
      intro r t next hpasses hr hstep
      obtain ⟨hnext, m, hmove, -, hiff⟩ := step_follows hr.1 hstep
      exact ⟨hnext, hr.2.move (hiff.mp hpasses) hmove⟩)
    (by
      intro r t next hpasses hr hstep
      obtain ⟨hnext, m, hmove, hnew, hiff⟩ := step_follows hr.1 hstep
      rw [hiff] at hpasses
      push Not at hpasses
      obtain ⟨item, rfl, hqueued⟩ := hpasses
      exact ⟨hnext, hr.2.pass (hnew item rfl) hqueued hmove⟩)
    (by
      intro r t next hr hstep
      obtain ⟨hnext, m, hmove, -⟩ := step_follows hr.1 hstep
      exact ⟨hnext, hr.2.move hmove⟩)
    ⟨hstart, rfl⟩ hexec
  rcases hcases with ⟨hmeets, hend⟩ | ⟨hnot, hend⟩
  · exact iff_of_true (keepsOrder_of_waited hend.1 hend.2) hmeets
  · exact iff_of_false (fun horder => hend.2.1 horder.1) hnot

/-- `COM3` is opened. -/
def opening : List Turn := [.call false (.init (text "COM3") none) [], .own (.handler 0 [])]

/-- The session once `COM3` is open. -/
def opened : SerialPortSession where
  serialPort := some ⟨text "COM3", some 19200⟩
  serialPortName := text "COM3"
  log := [.opened (text "COM3")]

theorem exec_opening : Transition.exec turn {} opening = some opened := by decide +kernel

/-- A command overtakes a stop that was accepted before it. -/
def stopThenCommand : List Turn :=
  [.call false (.stop none) [], .call false (.setState true 50 none) [], .own (.handler 0 [])]

/-- The device is left stopped although the last accepted call asked for speed 50. -/
theorem not_keepsOrder_stopThenCommand :
    ∃ final, Transition.exec turn {} opening = some opened ∧
      Transition.exec step (start opened) stopThenCommand = some final ∧
      final.accepted = [(0, frame 0), (1, frame 178)] ∧
      final.handed = [(1, frame 178), (0, frame 0)] ∧ ¬final.KeepsOrder := by
  obtain ⟨final, hexec, haccepted, hhanded⟩ :
      ∃ final, Transition.exec step (start opened) stopThenCommand = some final ∧
        final.accepted = [(0, frame 0), (1, frame 178)] ∧
        final.handed = [(1, frame 178), (0, frame 0)] :=
    Transition.exists_exec (by decide +kernel)
  refine ⟨final, exec_opening, hexec, haccepted, hhanded, ?_⟩
  intro horder
  have hfirst := horder.1
  rw [haccepted, hhanded] at hfirst
  revert hfirst
  decide

/-- Two commands from outside with a stop that runs before the second one. -/
def commandStopCommand : List Turn :=
  [.call false (.setState true 50 none) [], .call false (.stop (some 1)) [],
    .own (.complete 0 .success), .own (.handler 0 []), .call true (.setState false 20 none) []]

theorem keepsOrder_commandStopCommand :
    ∃ final, Transition.exec step (start opened) commandStopCommand = some final ∧
      final.accepted = [(0, frame 178), (1, frame 0), (2, frame 20)] ∧
      (final.KeepsOrder ↔
        Transition.Meets step PassesNone (start opened) commandStopCommand) ∧
      Transition.Meets step PassesNone (start opened) commandStopCommand := by
  obtain ⟨final, hexec, haccepted⟩ :
      ∃ final, Transition.exec step (start opened) commandStopCommand = some final ∧
        final.accepted = [(0, frame 178), (1, frame 0), (2, frame 20)] :=
    Transition.exists_exec (by decide +kernel)
  exact ⟨final, hexec, haccepted,
    keepsOrder_iff exec_opening rfl (fun handler hmem => nomatch hmem) hexec, by decide +kernel⟩

end CommandRun

end Vorze
