import Mathlib.Data.List.Nodup
import Vorze.Text

/-! # Reading JSON

A JSON value and a parser for it. The text is a list of bytes; those from 0x80 on
stand for themselves in a string, whatever the encoding is.
-/

namespace Vorze

/-- A number is kept as it is written, and an object may repeat a key. -/
inductive Json
  | null
  | bool (value : Bool)
  | number (literal : Bytes)
  | string (value : Bytes)
  | array (elements : List Json)
  | object (members : List (Bytes × Json))

namespace Json

/-- The key is there, and whichever member a reader picks has the value. -/
def Has (members : List (Bytes × Json)) (key : Bytes) (value : Json) : Prop :=
  (key, value) ∈ members ∧ ∀ other, (key, other) ∈ members → other = value

/-! ## Strings -/

def isSpace (b : UInt8) : Bool := b == 0x20 || b == 0x09 || b == 0x0A || b == 0x0D

def skipSpaces (input : Bytes) : Bytes := input.dropWhile isSpace

def hexValue (b : UInt8) : Option Nat :=
  if ch '0' ≤ b ∧ b ≤ ch '9' then some (b.toNat - 48)
  else if ch 'A' ≤ b ∧ b ≤ ch 'F' then some (b.toNat - 55)
  else if ch 'a' ≤ b ∧ b ≤ ch 'f' then some (b.toNat - 87)
  else none

/-- The four digits after `\u`. -/
def codeUnit (a b c d : UInt8) : Option Nat := do
  return (((← hexValue a) * 16 + (← hexValue b)) * 16 + (← hexValue c)) * 16 + (← hexValue d)

/-- The code point in UTF-8. -/
def utf8 (n : Nat) : Bytes :=
  if n < 0x80 then [n.toUInt8]
  else if n < 0x800 then [(0xC0 + n / 64).toUInt8, (0x80 + n % 64).toUInt8]
  else if n < 0x10000 then
    [(0xE0 + n / 4096).toUInt8, (0x80 + n / 64 % 64).toUInt8, (0x80 + n % 64).toUInt8]
  else
    [(0xF0 + n / 262144).toUInt8, (0x80 + n / 4096 % 64).toUInt8, (0x80 + n / 64 % 64).toUInt8,
      (0x80 + n % 64).toUInt8]

/-- The character that a backslash and one letter stand for. -/
def unescape (b : UInt8) : Option UInt8 :=
  if b = ch '"' ∨ b = ch '\\' ∨ b = ch '/' then some b
  else if b = ch 'b' then some 0x08
  else if b = ch 'f' then some 0x0C
  else if b = ch 'n' then some 0x0A
  else if b = ch 'r' then some 0x0D
  else if b = ch 't' then some 0x09
  else none

/-- A character that stands for itself in a string. -/
def isPlain (b : UInt8) : Bool := b != ch '"' && b != ch '\\' && 0x20 ≤ b

/-- What an escape after its backslash stands for, and the input after it. The
half of a surrogate pair needs the other one. -/
def escape : Bytes → Option (Bytes × Bytes)
  | [] => none
  | letter :: rest =>
      if letter = ch 'u' then
        match rest with
        | a :: b :: c :: d :: rest => do
            let unit ← codeUnit a b c d
            if 0xDC00 ≤ unit ∧ unit < 0xE000 then none
            else if 0xD800 ≤ unit ∧ unit < 0xDC00 then
              match rest with
              | backslash :: letter :: a :: b :: c :: d :: rest => do
                  let low ← codeUnit a b c d
                  if backslash = ch '\\' ∧ letter = ch 'u' ∧ 0xDC00 ≤ low ∧ low < 0xE000 then
                    some (utf8 (0x10000 + (unit - 0xD800) * 1024 + (low - 0xDC00)), rest)
                  else none
              | _ => none
            else some (utf8 unit, rest)
        | _ => none
      else (unescape letter).map fun b => ([b], rest)

/-- The characters of a string up to its closing quote, and the input after that.
The number bounds the characters. -/
def chars : Nat → Bytes → Option (Bytes × Bytes)
  | 0, _ | _, [] => none
  | bound + 1, b :: rest =>
      if b = ch '"' then some ([], rest)
      else if b = ch '\\' then do
        let (escaped, rest) ← escape rest
        let (s, rest) ← chars bound rest
        return (escaped ++ s, rest)
      else if isPlain b then do
        let (s, rest) ← chars bound rest
        return (b :: s, rest)
      else none

def readString (input : Bytes) : Option (Bytes × Bytes) := chars (input.length + 1) input

/-! ## Numbers -/

def isDigit (b : UInt8) : Bool := ch '0' ≤ b && b ≤ ch '9'

/-- At least one digit, and what follows the digits. -/
def digits (input : Bytes) : Option Bytes :=
  if input.head?.any isDigit then some (input.dropWhile isDigit) else none

def integerPart (input : Bytes) : Option Bytes :=
  let rest := if input.head? = some (ch '-') then input.tail else input
  if rest.head? = some (ch '0') then some rest.tail else digits rest

def fraction (input : Bytes) : Option Bytes :=
  if input.head? = some (ch '.') then digits input.tail else some input

def exponent (input : Bytes) : Option Bytes :=
  if input.head?.any (fun b => b == ch 'e' || b == ch 'E') then
    let rest := input.tail
    digits (if rest.head?.any (fun b => b == ch '+' || b == ch '-') then rest.tail else rest)
  else some input

def readNumber (input : Bytes) : Option (Json × Bytes) := do
  let rest ← exponent (← fraction (← integerPart input))
  return (.number (input.take (input.length - rest.length)), rest)

/-! ## Values -/

/-- Items with commas between them up to a closing character. -/
def items {α : Type} (item : Bytes → Option (α × Bytes)) (close : UInt8) :
    Nat → Bytes → Option (List α × Bytes)
  | 0, _ => none
  | bound + 1, input => do
      let (x, rest) ← item input
      match skipSpaces rest with
      | [] => none
      | b :: rest =>
          if b = close then some ([x], rest)
          else if b = ch ',' then do
            let (xs, rest) ← items item close bound rest
            return (x :: xs, rest)
          else none

/-- Perhaps no items at all. -/
def listOf {α : Type} (item : Bytes → Option (α × Bytes)) (close : UInt8) (bound : Nat)
    (input : Bytes) : Option (List α × Bytes) :=
  match skipSpaces input with
  | [] => none
  | b :: rest => if b = close then some ([], rest) else items item close bound input

/-- A key and its value. -/
def readMember (value : Bytes → Option (Json × Bytes)) (input : Bytes) :
    Option ((Bytes × Json) × Bytes) :=
  match skipSpaces input with
  | [] => none
  | b :: rest =>
      if b = ch '"' then do
        let (key, rest) ← readString rest
        match skipSpaces rest with
        | [] => none
        | b :: rest =>
            if b = ch ':' then do
              let (json, rest) ← value rest
              return ((key, json), rest)
            else none
      else none

def keyword (word : Bytes) (json : Json) (input : Bytes) : Option (Json × Bytes) :=
  if word.isPrefixOf input then some (json, input.drop word.length) else none

/-- A value and the input after it. The number bounds the depth and the length. -/
def readValue : Nat → Bytes → Option (Json × Bytes)
  | 0, _ => none
  | bound + 1, input =>
      match skipSpaces input with
      | [] => none
      | b :: rest =>
          if b = ch '"' then (readString rest).map fun (s, rest) => (.string s, rest)
          else if b = ch '[' then
            (listOf (readValue bound) (ch ']') bound rest).map fun (xs, rest) => (.array xs, rest)
          else if b = ch '\x7b' then
            (listOf (readMember (readValue bound)) (ch '\x7d') bound rest).map fun (ms, rest) =>
              (.object ms, rest)
          else (keyword (text "null") .null (b :: rest)).or <|
            (keyword (text "true") (.bool true) (b :: rest)).or <|
            (keyword (text "false") (.bool false) (b :: rest)).or (readNumber (b :: rest))

/-- The value that a whole text stands for. -/
def parse (input : Bytes) : Option Json :=
  match readValue (input.length + 1) input with
  | some (json, rest) => if skipSpaces rest = [] then some json else none
  | none => none

/-! ## Members -/

/-- When no key is repeated, a key has the value of its member. -/
theorem has_iff {members : List (Bytes × Json)} (hnodup : (members.map Prod.fst).Nodup)
    {key : Bytes} {value json : Json} (hmem : (key, value) ∈ members) :
    Has members key json ↔ json = value := by
  have honly : ∀ other, (key, other) ∈ members → other = value := by
    intro other hother
    have heq := List.inj_on_of_nodup_map hnodup hother hmem rfl
    exact (Prod.mk.inj heq).2
  constructor
  · intro h
    exact honly json h.1
  · rintro rfl
    exact ⟨hmem, honly⟩

end Json

end Vorze
