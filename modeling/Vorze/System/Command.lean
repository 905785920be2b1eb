import Vorze.System.Registry
import Vorze.Web.QueryDecoding
import Mathlib.Data.List.Nodup

/-! # A command from the request to the wire

A client that writes direction and speed in decimal does not reach the device:
the casts of `path_op` read one character each and yield its code, so a digit is
never the number it stands for.
-/

namespace Vorze.SerialPortControlServer

open HttpConnectSession SerialPortSession

/-- Free of the characters that mean something in a target. -/
def Plain (value : Bytes) : Prop :=
  ∀ b ∈ value, b ≠ ch '&' ∧ b ≠ ch '=' ∧ b ≠ ch '/' ∧ b ≠ ch '?' ∧ b ≠ ch ' '

instance (value : Bytes) : Decidable (Plain value) :=
  List.decidableBAll _ value

/-- The four parameters of a command, with the numbers in decimal. -/
def commandPairs (comName : Bytes) (direct speed : Nat) : List (Bytes × Bytes) :=
  [(text "_targetMode", text "none"), (text "_targetCOM", comName),
    (text "_targetDirect", decimal direct), (text "_targetSpeed", decimal speed)]

def commandKeys : List Bytes :=
  [text "_targetMode", text "_targetCOM", text "_targetDirect", text "_targetSpeed"]

/-- A request that carries the command, among other parameters and in any order. -/
structure Carries (request : Request) (comName : Bytes) (direct speed : Nat) : Prop where
  method : request.method = .get
  target : ∃ pairs extra, request.target = opTarget pairs ∧
    pairs.Perm (commandPairs comName direct speed ++ extra) ∧
    (∀ pair ∈ extra, pair.1 ∉ commandKeys) ∧ ∀ pair ∈ pairs, Plain pair.1 ∧ Plain pair.2

/-- The frames that were started on a session. -/
def writesOn (server : SerialPortControlServer) (id : Nat) : List Bytes :=
  ((server.created[id]?).map fun c => writesStarted c.session.log).getD []

/-- The request is answered 200 and starts one write of the given frame on the
port's session, and no other write. -/
def SendsFrame (server : SerialPortControlServer) (request : Request) (comName : Bytes)
    (c : UInt8) : Prop :=
  (processRequest server request).1.result = .ok ∧
    ∃ id, server.get comName = some id ∧ ∀ other,
      (processRequest server request).2.writesOn other =
        server.writesOn other ++ if other = id then [frame c] else []

/-! ## Looking the parameters up -/

/-- A key that stands for one value only is found with that value. -/
theorem find_eq_some {pairs : QueryPairs} {key value : Bytes} (hmem : (key, value) ∈ pairs)
    (hunique : ∀ pair ∈ pairs, pair.1 = key → pair.2 = value) :
    pairs.find key = some value := by
  rw [QueryPairs.find]
  cases hfind : List.find? (fun pair => pair.1 == key) pairs with
  | none => simpa using List.find?_eq_none.mp hfind _ hmem
  | some pair =>
      have hkey : pair.1 = key := by simpa using List.find?_some hfind
      rw [Option.map_some, hunique pair (List.mem_of_find?_eq_some hfind) hkey]

/-- The four lookups find the parameters of the command wherever they stand. -/
theorem findTargets_perm {pairs extra : List (Bytes × Bytes)} {comName : Bytes}
    {direct speed : Nat} (hperm : pairs.Perm (commandPairs comName direct speed ++ extra))
    (hextra : ∀ pair ∈ extra, pair.1 ∉ commandKeys) :
    findTargets pairs = some (text "none", comName, decimal direct, decimal speed) := by
  have hkeys : (commandPairs comName direct speed).map Prod.fst = commandKeys := rfl
  have hnodup : ((commandPairs comName direct speed).map Prod.fst).Nodup := by
    rw [hkeys]
    decide
  have hfind : ∀ pair ∈ commandPairs comName direct speed,
      QueryPairs.find pairs pair.1 = some pair.2 := by
    intro pair hpair
    apply find_eq_some (hperm.mem_iff.mpr (List.mem_append_left _ hpair))
    intro other hother hsame
    rcases List.mem_append.mp (hperm.mem_iff.mp hother) with hcommand | hmore
    · rw [List.inj_on_of_nodup_map hnodup hcommand hpair hsame]
    · have hkey : pair.1 ∈ commandKeys := hkeys ▸ List.mem_map_of_mem hpair
      exact absurd (hsame ▸ hkey) (hextra other hmore)
  simp only [commandPairs, List.forall_mem_cons] at hfind
  obtain ⟨hmode, hcom, hdirect, hspeed, -⟩ := hfind
  simp [findTargets, hmode, hcom, hdirect, hspeed]

/-! ## The casts -/

/-- A direction in decimal is read as the code of its digit, which is no direction. -/
theorem lexicalCast_direct {direct : Nat} (hdirect : direct ≤ 1) :
    ∃ code, lexicalCast (decimal direct) = some code ∧ code ≠ 0 ∧ code ≠ 1 := by
  have hcases : direct = 0 ∨ direct = 1 := by omega
  rcases hcases with rfl | rfl
  · exact ⟨48, by decide⟩
  · exact ⟨49, by decide⟩

/-- Only a speed of one digit can be read at all. -/
theorem lexicalCast_speed {speed : Nat} (hspeed : speed ≤ 100) :
    (lexicalCast (decimal speed)).isSome = decide (speed < 10) := by
  have hall : ∀ speed < 101, (lexicalCast (decimal speed)).isSome = decide (speed < 10) := by
    decide +kernel
  exact hall speed (by omega)

/-- Numbers in decimal are read as no command, or as one that is not valid. -/
theorem readCommand_decimal {pairs extra : List (Bytes × Bytes)} {comName : Bytes}
    {direct speed : Nat} (hperm : pairs.Perm (commandPairs comName direct speed ++ extra))
    (hextra : ∀ pair ∈ extra, pair.1 ∉ commandKeys) (hdirect : direct ≤ 1) (hspeed : speed ≤ 100) :
    if speed < 10 then ∃ command, readCommand pairs = some command ∧ command.valid = false
    else readCommand pairs = none := by
  -- the direction is read as the code of a digit, which is neither 0 nor 1
  obtain ⟨code, hcode, hzero, hone⟩ := lexicalCast_direct hdirect
  have hsome := lexicalCast_speed hspeed
  simp only [readCommand, findTargets_perm hperm hextra, Option.bind_eq_bind, Option.bind_some,
    hcode, Option.pure_def]
  cases hcast : lexicalCast (decimal speed) with
  | none =>
      have hlarge : ¬speed < 10 := by simpa [hcast] using hsome
      rw [if_neg hlarge]
      rfl
  | some speedCode =>
      have hsmall : speed < 10 := by simpa [hcast] using hsome
      rw [if_pos hsmall]
      exact ⟨_, rfl, by simp [Command.valid, Command.directIsValid, hzero, hone]⟩

/-! ## The request -/

theorem createResponse_op {target : Bytes} {pairs : QueryPairs}
    (hpairs : pathOpPairs target = some pairs) (server : SerialPortControlServer)
    (response : Response) :
    createResponse server response target = pathOp server response pairs := by
  unfold pathOpPairs pathOpQuery at hpairs
  unfold createResponse
  split at hpairs
  next query hroute =>
    rw [hroute]
    obtain rfl := Option.some.inj hpairs
    rfl
  next => cases hpairs

/-- The pairs reach `path_op` as the client wrote them. -/
theorem Carries.pairs {request : Request} {comName : Bytes} {direct speed : Nat}
    (h : Carries request comName direct speed) :
    ∃ pairs extra, pathOpPairs request.target = some pairs ∧
      pairs.Perm (commandPairs comName direct speed ++ extra) ∧
      ∀ pair ∈ extra, pair.1 ∉ commandKeys := by
  obtain ⟨pairs, extra, htarget, hperm, hextra, hplain⟩ := h.target
  refine ⟨pairs, extra, ?_, hperm, hextra⟩
  have hmode : (text "_targetMode", text "none") ∈ pairs :=
    hperm.mem_iff.mpr (List.mem_append_left _ List.mem_cons_self)
  rw [htarget, pathOpPairs_opTarget
    (fun pair hpair b hb => ⟨((hplain pair hpair).1 b hb).1, ((hplain pair hpair).1 b hb).2.1,
      ((hplain pair hpair).1 b hb).2.2.1, ((hplain pair hpair).1 b hb).2.2.2.2⟩)
    (fun pair hpair b hb => ⟨((hplain pair hpair).2 b hb).1, ((hplain pair hpair).2 b hb).2.2.1,
      ((hplain pair hpair).2 b hb).2.2.2.2⟩)
    ⟨_, hmode, by decide, by decide⟩]
  congr 1
  conv_rhs => rw [← List.map_id pairs]
  apply List.map_congr_left
  intro pair hpair
  have hfilter : pair.2.filter (· != ch '=') = pair.2 := by
    rw [List.filter_eq_self]
    intro b hb
    simpa using ((hplain pair hpair).2 b hb).2.1
  rw [hfilter, id]

/-- What a command with its numbers in decimal comes to: nothing is sent, and
the answer is 200 all the same when the speed has one digit. -/
theorem processRequest_carries {request : Request} {comName : Bytes} {direct speed : Nat}
    (h : Carries request comName direct speed) (hdirect : direct ≤ 1) (hspeed : speed ≤ 100)
    (server : SerialPortControlServer) :
    (processRequest server request).1.result = (if speed < 10 then .ok else .badRequest) ∧
      (processRequest server request).2 = server := by
  obtain ⟨pairs, extra, hpairs, hperm, hextra⟩ := h.pairs
  have hnonempty : pairs.isEmpty = false := by
    cases pairs with
    | nil => simp [commandPairs] at hperm
    | cons => rfl
  have hread := readCommand_decimal hperm hextra hdirect hspeed
  simp only [processRequest, h.method, createResponse_op hpairs, pathOp, hnonempty,
    findTargets_perm hperm hextra, Bool.false_eq_true, ↓reduceIte]
  by_cases hsmall : speed < 10
  · rw [if_pos hsmall] at hread ⊢
    obtain ⟨command, hcommand, hinvalid⟩ := hread
    simp [hcommand, execute, hinvalid]
  · rw [if_neg hsmall] at hread ⊢
    simp [hread]

/-- No command written in decimal is carried out, in any state of the server. -/
theorem not_sendsFrame {request : Request} {comName : Bytes} {direct speed : Nat}
    (h : Carries request comName direct speed) (hdirect : direct ≤ 1) (hspeed : speed ≤ 100)
    (server : SerialPortControlServer) :
    ¬SendsFrame server request comName (UInt8.ofNat (128 * direct + speed)) := by
  intro ⟨_, id, _, hwrites⟩
  have hsame := hwrites id
  rw [(processRequest_carries h hdirect hspeed server).2, if_pos rfl] at hsame
  simp at hsame

/-- The command for direction 1 and speed 50 on `COM3`, with a parameter more. -/
def decimalRequest : Request where
  target := opTarget ((text "id", text "7") :: commandPairs (text "COM3") 1 50)

theorem decimalRequest_carries : Carries decimalRequest (text "COM3") 1 50 where
  method := rfl
  target := ⟨_, [(text "id", text "7")], rfl, (List.perm_append_singleton _ _).symm,
    by decide, by decide⟩

/-- The port of the command is created and opened. -/
def openCom3 : List Action :=
  [.start, .found (some [⟨text "(COM3)", text "COM3"⟩]), .request (rawRequest (text "COM3") 1 50),
    .session 0 (.handler 0 [])]

theorem not_sendsFrame_openCom3 :
    ∃ server, Transition.exec step (init {}) openCom3 = some server ∧
      (∃ c ∈ server.created, c.session.serialPort.map OpenPort.device = some (text "COM3")) ∧
      ¬SendsFrame server decimalRequest (text "COM3") (UInt8.ofNat (128 * 1 + 50)) := by
  obtain ⟨server, hexec, hopen⟩ :
      ∃ server, Transition.exec step (init {}) openCom3 = some server ∧
        ∃ c ∈ server.created, c.session.serialPort.map OpenPort.device = some (text "COM3") :=
    Transition.exists_exec (by decide +kernel)
  exact ⟨server, hexec, hopen,
    not_sendsFrame decimalRequest_carries (by decide) (by decide) server⟩

/-- With `COM3` open, the command is answered 400 and nothing is written. -/
theorem not_sendsFrame_answered_400 :
    ∃ server, Transition.exec step (init {}) openCom3 = some server ∧
      server.get (text "COM3") = some 0 ∧
      server.created.map (fun c => c.session.serialPort.map OpenPort.device) =
        [some (text "COM3")] ∧
      (processRequest server decimalRequest).1.result = .badRequest ∧
      ¬SendsFrame server decimalRequest (text "COM3") 178 := by
  obtain ⟨server, hexec, hget, hopen, hresult⟩ :
      ∃ server, Transition.exec step (init {}) openCom3 = some server ∧
        server.get (text "COM3") = some 0 ∧
        server.created.map (fun c => c.session.serialPort.map OpenPort.device) =
          [some (text "COM3")] ∧
        (processRequest server decimalRequest).1.result = .badRequest :=
    Transition.exists_exec (by decide +kernel)
  refine ⟨server, hexec, hget, hopen, hresult, ?_⟩
  intro ⟨hok, _⟩
  rw [hresult] at hok
  cases hok

end Vorze.SerialPortControlServer
