import Vorze.Foundation.Regex
import Vorze.Foundation.Words
import Vorze.Serial.ControlServer

/-! # Enumerating the serial ports

`SerialPortFinder::find`. One pattern selects the service names that end with a
port in parentheses, a second one takes the port out of them. They differ on a
name with a line break before the port.
-/

namespace Vorze

/-- What `Wmi::WmiException` says of itself. -/
structure WmiException where
  errorMessage : Bytes
  hexErrorCode : Bytes
  deriving DecidableEq, Repr

namespace SerialPortFinder

open Regex

/-! ## The two patterns -/

/-- `[1-9]`. -/
def firstDigit (b : UInt8) : Bool := ch '1' ≤ b && b ≤ ch '9'

/-- `[0-9]`. -/
def digit (b : UInt8) : Bool := ch '0' ≤ b && b ≤ ch '9'

/-- `.`. -/
def notLineTerminator (b : UInt8) : Bool := b != ch '\n' && b != ch '\r'

/-- `COM[1-9][0-9]?[0-9]?`. -/
def com : Regex UInt8 :=
  .seq (.char (ch 'C')) (.seq (.char (ch 'O')) (.seq (.char (ch 'M'))
    (.seq (.cls firstDigit) (.seq (.opt (.cls digit)) (.opt (.cls digit))))))

/-- `\((COM[1-9][0-9]?[0-9]?)\)$`. -/
def regexFind : Regex UInt8 :=
  .seq (.char (ch '(')) (.seq (.group 1 com) (.seq (.char (ch ')')) .atEnd))

/-- `.*\((COM[1-9][0-9]?[0-9]?)\)$`. -/
def regexGet : Regex UInt8 := .seq (.star (.cls notLineTerminator)) regexFind

/-- The filter of `copy_if`. -/
def selects (name : Bytes) : Bool := (regexFind.search name).isSome

/-- `sm[1].str()` after the match, whose result is not looked at. A group that
did not take part is empty. -/
def comName (name : Bytes) : Bytes := ((regexGet.fullMatch name).bind fun caps => caps 1).getD []

/-- `find`, with what WMI gives and what the caller does in the callback. -/
def find {State : Type} (wmis : Except WmiException (List Bytes))
    (callback : List SerialPortNameInfo → ErrorInfo → State → State) : State → State :=
  match wmis with
  | .ok names =>
      let wmif := names.filter selects
      callback (wmif.map fun name => ⟨name, comName name⟩) {}
  | .error ex =>
      callback [] (.ofText (text "Wmi error: " ++ ex.errorMessage ++ text ", Code: " ++
        ex.hexErrorCode))

/-! ## Names that end with a port -/

/-- `COM` and a number of one to three digits that does not start with 0. -/
def IsCom (input : Bytes) : Prop :=
  ∃ first more, input = text "COM" ++ first :: more ∧ firstDigit first = true ∧
    more.length ≤ 2 ∧ ∀ b ∈ more, digit b = true

/-- The name is some text and a port in parentheses. -/
def Splits (name front port : Bytes) : Prop :=
  name = front ++ text "(" ++ port ++ text ")" ∧ IsCom port

/-- One entry for each name that ends with a port, in order. -/
inductive Lists : List Bytes → List SerialPortNameInfo → Prop
  | nil : Lists [] []
  | entry {name front port names ports} (hname : Splits name front port)
      (hrest : Lists names ports) : Lists (name :: names) (⟨name, port⟩ :: ports)
  | skip {name names ports} (hname : ∀ front port, ¬Splits name front port)
      (hrest : Lists names ports) : Lists (name :: names) ports

/-- The callback is called once, without an error, with the ports of the names. -/
def FindsPorts (names : List Bytes) : Prop :=
  ∃ ports, Lists names ports ∧
    ∀ (State : Type) (callback : List SerialPortNameInfo → ErrorInfo → State → State) (s : State),
      find (.ok names) callback s = callback ports {} s

theorem IsCom.notMem {input : Bytes} (h : IsCom input) : ch '(' ∉ input := by
  obtain ⟨first, more, rfl, hfirst, -, hmore⟩ := h
  have hparen : digit (ch '(') = false := by decide
  simp only [List.mem_append, List.mem_cons, not_or]
  refine ⟨by decide, ?_, fun hmem => ?_⟩
  · rintro rfl
    exact absurd hfirst (by decide)
  · rw [hmore _ hmem] at hparen
    cases hparen

/-- The last opening parenthesis is the one before the port. -/
theorem Splits.unique {name front port front' port' : Bytes} (h : Splits name front port)
    (h' : Splits name front' port') : front = front' ∧ port = port' := by
  obtain ⟨hname, hport⟩ := h
  obtain ⟨hname', hport'⟩ := h'
  have hback : ∀ {port : Bytes}, IsCom port → ch '(' ∉ port ++ text ")" := by
    intro port hport
    rw [List.mem_append, not_or]
    exact ⟨hport.notMem, by decide⟩
  have heq : front ++ ch '(' :: (port ++ text ")") = front' ++ ch '(' :: (port' ++ text ")") := by
    simpa [text] using hname.symm.trans hname'
  rcases Words.append_cons_eq_cases heq with ⟨hfront, hrest⟩ | ⟨middle, -, hrest⟩ | ⟨middle, -, hrest⟩
  · exact ⟨hfront.symm, (List.append_cancel_right hrest).symm⟩
  · exact absurd (hrest ▸ List.mem_append_right middle List.mem_cons_self) (hback hport)
  · exact absurd (hrest ▸ List.mem_append_right middle List.mem_cons_self) (hback hport')

/-! ## What the patterns match -/

theorem matches_com_iff {caps caps' : Captures UInt8} {input rest : Bytes} :
    Matches com caps input caps' rest ↔
      caps' = caps ∧ ∃ port, IsCom port ∧ input = port ++ rest := by
  simp only [com, Regex.char, matches_seq_iff, matches_cls_iff, matches_opt_cls_iff, beq_iff_eq]
  constructor
  · rintro ⟨_, _, ⟨rfl, _, rfl, rfl⟩, _, _, ⟨rfl, _, rfl, rfl⟩, _, _, ⟨rfl, _, rfl, rfl⟩,
      _, _, ⟨rfl, first, hfirst, rfl⟩, _, _, ⟨rfl, second, hsecond, hdigits, rfl⟩,
      rfl, third, hthird, hdigits', rfl⟩
    refine ⟨rfl, text "COM" ++ first :: (second ++ third),
      ⟨first, second ++ third, rfl, hfirst, ?_, ?_⟩, by simp [text]⟩
    · rw [List.length_append]
      omega
    · intro b hb
      exact (List.mem_append.mp hb).elim (hdigits b) (hdigits' b)
  · rintro ⟨rfl, port, ⟨first, more, rfl, hfirst, hlength, hdigits⟩, rfl⟩
    refine ⟨_, _, ⟨rfl, _, rfl, rfl⟩, _, _, ⟨rfl, _, rfl, rfl⟩, _, _, ⟨rfl, _, rfl, rfl⟩,
      _, _, ⟨rfl, first, hfirst, rfl⟩, _, more.drop 1 ++ rest,
      ⟨rfl, more.take 1, List.length_take_le 1 more, ?_, ?_⟩, rfl, more.drop 1, ?_, ?_, rfl⟩
    · exact fun b hb => hdigits b (List.mem_of_mem_take hb)
    · rw [← List.append_assoc, List.take_append_drop]
      rfl
    · rw [List.length_drop]
      omega
    · exact fun b hb => hdigits b (List.mem_of_mem_drop hb)

theorem matches_regexFind_iff {caps caps' : Captures UInt8} {input rest : Bytes} :
    Matches regexFind caps input caps' rest ↔
      rest = [] ∧ ∃ port, Splits input [] port ∧ caps' = Function.update caps 1 (some port) := by
  simp only [regexFind, Regex.char, matches_seq_iff, matches_cls_iff, matches_group_iff,
    matches_com_iff, matches_atEnd_iff, beq_iff_eq]
  constructor
  · rintro ⟨_, _, ⟨rfl, _, rfl, rfl⟩, _, _, ⟨_, ⟨rfl, port, hport, rfl⟩, rfl⟩, _, _,
      ⟨rfl, _, rfl, rfl⟩, rfl, rfl, rfl⟩
    refine ⟨rfl, port, ⟨by simp [text], hport⟩, by simp⟩
  · rintro ⟨rfl, port, ⟨rfl, hport⟩, rfl⟩
    refine ⟨_, port ++ text ")", ⟨rfl, _, rfl, by simp [text]⟩, _, _,
      ⟨_, ⟨rfl, port, hport, rfl⟩, rfl⟩, _, _, ⟨rfl, _, rfl, rfl⟩, by simp [text], rfl, rfl⟩

theorem matches_regexGet_iff {caps caps' : Captures UInt8} {input rest : Bytes} :
    Matches regexGet caps input caps' rest ↔
      rest = [] ∧ ∃ front port, (∀ b ∈ front, notLineTerminator b = true) ∧
        Splits input front port ∧ caps' = Function.update caps 1 (some port) := by
  simp only [regexGet, matches_seq_iff, matches_star_cls_iff, matches_regexFind_iff]
  constructor
  · rintro ⟨_, _, ⟨rfl, front, hfront, rfl⟩, rfl, port, ⟨rfl, hport⟩, rfl⟩
    exact ⟨rfl, front, port, hfront, ⟨by simp, hport⟩, rfl⟩
  · rintro ⟨rfl, front, port, hfront, ⟨rfl, hport⟩, rfl⟩
    refine ⟨_, text "(" ++ port ++ text ")", ⟨rfl, front, hfront, by simp⟩, rfl, port,
      ⟨rfl, hport⟩, rfl⟩

/-- The filter keeps the names that end with a port. -/
theorem selects_iff {name : Bytes} : selects name = true ↔ ∃ front port, Splits name front port := by
  rw [selects, isSome_search_iff]
  simp only [matches_regexFind_iff]
  constructor
  · rintro ⟨front, _, _, _, rfl, rfl, port, ⟨rfl, hport⟩, rfl⟩
    exact ⟨front, port, by simp, hport⟩
  · rintro ⟨front, port, rfl, hport⟩
    exact ⟨front, _, _, [], by simp, rfl, port, ⟨rfl, hport⟩, rfl⟩

/-- The port is taken out of a name whose front is on one line. -/
theorem comName_eq {name front port : Bytes} (hname : Splits name front port)
    (hfront : ∀ b ∈ front, notLineTerminator b = true) : comName name = port := by
  have hmatch : Matches regexGet (fun _ => none) name
      (Function.update (fun _ => none) 1 (some port)) [] :=
    matches_regexGet_iff.mpr ⟨rfl, front, port, hfront, hname, rfl⟩
  rw [comName, fullMatch_eq_some hmatch]
  · simp
  · intro other hother
    obtain ⟨-, front', port', -, hname', rfl⟩ := matches_regexGet_iff.mp hother
    rw [(hname.unique hname').2]

/-- With a line break before the port, nothing is. -/
theorem comName_eq_nil {name front port : Bytes} (hname : Splits name front port)
    (hfront : ¬∀ b ∈ front, notLineTerminator b = true) : comName name = [] := by
  rw [comName, fullMatch_eq_none]
  · rfl
  · intro caps hmatch
    obtain ⟨-, front', port', hfront', hname', -⟩ := matches_regexGet_iff.mp hmatch
    rw [(hname.unique hname').1] at hfront
    exact hfront hfront'

/-! ## What the callback gets -/

/-- The entries that `find` makes. -/
def found (names : List Bytes) : List SerialPortNameInfo :=
  (names.filter selects).map fun name => ⟨name, comName name⟩

/-- The callback of `flushPortInfo`: an error leaves the known ports. -/
def takePorts (ports : List SerialPortNameInfo) (e : ErrorInfo)
    (server : SerialPortControlServer) : SerialPortControlServer :=
  server.found (if e.isError then none else some ports)

/-- An enumeration answers the server with these entries, or with nothing. -/
theorem find_takePorts (wmis : Except WmiException (List Bytes))
    (server : SerialPortControlServer) :
    find wmis takePorts server = server.found (wmis.toOption.map found) := by
  cases wmis with
  | ok names => rfl
  | error ex => rfl

theorem found_cons_of_splits {name front port : Bytes} (hname : Splits name front port)
    (names : List Bytes) : found (name :: names) = ⟨name, comName name⟩ :: found names := by
  rw [found, List.filter_cons_of_pos (selects_iff.mpr ⟨front, port, hname⟩)]
  rfl

theorem found_cons_of_not_splits {name : Bytes} (hname : ∀ front port, ¬Splits name front port)
    (names : List Bytes) : found (name :: names) = found names := by
  rw [found, List.filter_cons_of_neg]
  · rfl
  · rintro hselects
    obtain ⟨front, port, hsplits⟩ := selects_iff.mp hselects
    exact hname front port hsplits

/-- No line ends before the port of the name. -/
def OnOneLine (name : Bytes) : Prop :=
  ∀ front port, Splits name front port → ∀ b ∈ front, notLineTerminator b = true

theorem IsCom.ne_nil {input : Bytes} (h : IsCom input) : input ≠ [] := by
  obtain ⟨first, more, rfl, -⟩ := h
  simp

/-- An entry always has a port name. -/
theorem Lists.comName_ne_nil {names : List Bytes} {ports : List SerialPortNameInfo}
    (h : Lists names ports) : ∀ info ∈ ports, info.comName ≠ [] := by
  induction h with
  | nil => simp
  | entry hname _ ih => exact List.forall_mem_cons.mpr ⟨hname.2.ne_nil, ih⟩
  | skip _ _ ih => exact ih

/-- The entries are the right ones exactly when every port is on the first line of
its name. -/
theorem lists_found_iff (names : List Bytes) :
    Lists names (found names) ↔ ∀ name ∈ names, OnOneLine name := by
  induction names with
  | nil => exact iff_of_true .nil (by simp)
  | cons name names ih =>
      rw [List.forall_mem_cons, ← ih]
      by_cases hsplits : ∃ front port, Splits name front port
      · obtain ⟨front, port, hname⟩ := hsplits
        rw [found_cons_of_splits hname]
        constructor
        · intro h
          cases h with
          | entry hname' hrest =>
              -- the port of the entry is not empty, so the second pattern matched
              refine ⟨?_, hrest⟩
              intro front' port' hsplits
              obtain ⟨rfl, -⟩ := hname.unique hsplits
              by_contra hline
              exact hname'.2.ne_nil (comName_eq_nil hname hline)
          | skip hname' => exact absurd hname (hname' front port)
        · rintro ⟨hline, hrest⟩
          rw [comName_eq hname (hline front port hname)]
          exact .entry hname hrest
      · have hname : ∀ front port, ¬Splits name front port := fun front port h =>
          hsplits ⟨front, port, h⟩
        rw [found_cons_of_not_splits hname]
        constructor
        · intro h
          refine ⟨fun front port hsplits => absurd hsplits (hname front port), ?_⟩
          generalize found names = ports at h ⊢
          cases h with
          | entry hname' => exact absurd hname' (hname _ _)
          | skip _ hrest => exact hrest
        · rintro ⟨-, hrest⟩
          exact .skip hname hrest

/-- `find` reports the ports exactly when no line ends before the port of a name. -/
theorem findsPorts_iff (names : List Bytes) :
    FindsPorts names ↔ ∀ name ∈ names, OnOneLine name := by
  rw [← lists_found_iff]
  constructor
  · rintro ⟨ports, hlists, hcalls⟩
    -- a callback that keeps what it gets shows what that is
    have hports := hcalls (List SerialPortNameInfo) (fun ports _ _ => ports) []
    have heq : found names = ports := hports
    rw [heq]
    exact hlists
  · intro hlists
    exact ⟨found names, hlists, fun _ _ _ => rfl⟩

/-- A line break before the port: the entry has no port name. -/
theorem not_findsPorts_lineBreak : ¬FindsPorts [text "a\n(COM3)"] := by
  rintro ⟨ports, hlists, hcalls⟩
  have hports : [⟨text "a\n(COM3)", []⟩] = ports :=
    hcalls (List SerialPortNameInfo) (fun ports _ _ => ports) []
  subst hports
  exact hlists.comName_ne_nil _ List.mem_cons_self rfl

end SerialPortFinder

end Vorze
