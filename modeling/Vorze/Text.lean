import Mathlib.Tactic.Common

/-! # Byte strings

A `std::string` is a sequence of `char`s; it is modelled by its bytes. The
literals of the source are plain ASCII.
-/

namespace Vorze

/-- The characters of a `std::string`. -/
abbrev Bytes := List UInt8

/-- The code of an ASCII character literal. -/
def ch (c : Char) : UInt8 := c.toNat.toUInt8

/-- A string literal of the source. -/
def text (literal : String) : Bytes := literal.toList.map ch

/-- An unsigned integer as a stream writes it. -/
def decimal (n : Nat) : Bytes := (Nat.toDigits 10 n).map ch

end Vorze
