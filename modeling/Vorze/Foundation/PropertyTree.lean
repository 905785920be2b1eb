import Vorze.Text

/-! # Property trees and their JSON text

`boost::property_tree::ptree` with the keys and data of a `std::string`, and
`write_json` as it prints one.
-/

namespace Vorze

/-- A node has data and keyed children; keys may repeat. -/
inductive PropertyTree
  | node (data : Bytes) (children : List (Bytes × PropertyTree))

namespace PropertyTree

def empty : PropertyTree := .node [] []

def data : PropertyTree → Bytes
  | .node data _ => data

def children : PropertyTree → List (Bytes × PropertyTree)
  | .node _ children => children

/-- `put` with a path of one key: the first child with the key gets the data. -/
def putChild (children : List (Bytes × PropertyTree)) (key value : Bytes) :
    List (Bytes × PropertyTree) :=
  match children with
  | [] => [(key, .node value [])]
  | (name, child) :: rest =>
      if name = key then (name, .node value child.children) :: rest
      else (name, child) :: putChild rest key value

/-- `put`; the empty path is the node itself. -/
def put (tree : PropertyTree) (key value : Bytes) : PropertyTree :=
  if key = [] then .node value tree.children
  else .node tree.data (putChild tree.children key value)

/-- `push_back`, and `add_child` with a path of one key. -/
def pushBack (tree : PropertyTree) (key : Bytes) (child : PropertyTree) : PropertyTree :=
  .node tree.data (tree.children ++ [(key, child)])

/-! ## Writing JSON -/

def hexDigit (n : Nat) : UInt8 := (text "0123456789ABCDEF").getD n 0

/-- `create_escapes` on one character. -/
def escapeByte (b : UInt8) : Bytes :=
  if b = 0x20 ∨ b = 0x21 ∨ (0x23 ≤ b ∧ b ≤ 0x2E) ∨ (0x30 ≤ b ∧ b ≤ 0x5B) ∨ 0x5D ≤ b then [b]
  else if b = 0x08 then text "\\b"
  else if b = 0x0C then text "\\f"
  else if b = 0x0A then text "\\n"
  else if b = 0x0D then text "\\r"
  else if b = 0x09 then text "\\t"
  else if b = ch '/' then text "\\/"
  else if b = ch '"' then text "\\\""
  else if b = ch '\\' then text "\\\\"
  else text "\\u00" ++ [hexDigit (b.toNat / 16), hexDigit (b.toNat % 16)]

def createEscapes (data : Bytes) : Bytes := data.flatMap escapeByte

def quoted (data : Bytes) : Bytes := [ch '"'] ++ createEscapes data ++ [ch '"']

def spaces (indent : Nat) : Bytes := List.replicate (4 * indent) (ch ' ')

mutual

/-- `write_json_helper` with `pretty`. Below the root a node without children is
a string and one whose keys are all empty is an array; the rest are objects. -/
def writeNode (indent : Nat) : PropertyTree → Bytes
  | .node data children =>
      if 0 < indent ∧ children.isEmpty then quoted data
      else if 0 < indent ∧ children.all (fun child => child.1.isEmpty) then
        text "[\n" ++ writeChildren indent false children ++ spaces indent ++ text "]"
      else text "\x7b\n" ++ writeChildren indent true children ++ spaces indent ++ text "\x7d"

/-- The lines of an array, or of an object when `keyed`. -/
def writeChildren (indent : Nat) (keyed : Bool) : List (Bytes × PropertyTree) → Bytes
  | [] => []
  | (key, child) :: rest =>
      spaces (indent + 1) ++ (if keyed then quoted key ++ text ": " else []) ++
        writeNode (indent + 1) child ++ (if rest.isEmpty then text "\n" else text ",\n") ++
        writeChildren indent keyed rest

end

/-- `write_json`. -/
def writeJson (tree : PropertyTree) : Bytes := writeNode 0 tree ++ text "\n"

end PropertyTree

end Vorze
