import Vorze.Foundation.JsonText

/-! # Property trees from JSON

`read_json`, for text in whatever encoding. Plain values lose their type, and the
elements of an array get empty keys. So a tree comes back from its text exactly when
none of its nodes has both data and children.
-/

namespace Vorze.PropertyTree

open Json

mutual

/-- The node that a value becomes. -/
def ofJson : Json → PropertyTree
  | .null => node (text "null") []
  | .bool value => node (if value then text "true" else text "false") []
  | .number literal => node literal []
  | .string value => node value []
  | .array elements => node [] (ofElements elements)
  | .object members => node [] (ofMembers members)

def ofElements : List Json → List (Bytes × PropertyTree)
  | [] => []
  | element :: rest => ([], ofJson element) :: ofElements rest

def ofMembers : List (Bytes × Json) → List (Bytes × PropertyTree)
  | [] => []
  | (key, value) :: rest => (key, ofJson value) :: ofMembers rest

end

/-- `read_json`. -/
def readJson (input : Bytes) : Option PropertyTree := (parse input).map ofJson

/-- No node has both data and children. -/
inductive Representable : PropertyTree → Prop
  | leaf (data : Bytes) : Representable (node data [])
  | branch {children : List (Bytes × PropertyTree)}
      (hchildren : ∀ child ∈ children, Representable child.2) : Representable (node [] children)

theorem ofElements_eq_map (elements : List Json) :
    ofElements elements = elements.map fun element => ([], ofJson element) := by
  induction elements with
  | nil => simp [ofElements]
  | cons element rest ih => rw [ofElements, ih, List.map_cons]

theorem ofMembers_eq_map (members : List (Bytes × Json)) :
    ofMembers members = members.map fun member => (member.1, ofJson member.2) := by
  induction members with
  | nil => simp [ofMembers]
  | cons member rest ih => rw [ofMembers, ih, List.map_cons]

theorem map_eq_self_iff {α : Type} {f : α → α} {l : List α} :
    l.map f = l ↔ ∀ a ∈ l, f a = a := by
  conv_lhs => rhs; rw [← List.map_id l]
  exact List.map_inj_left

/-- The members of an object bring the children back when each of them comes back. -/
theorem ofMembers_members_eq_iff (children : List (Bytes × PropertyTree)) :
    ofMembers (members children) = children ↔
      ∀ child ∈ children, ofJson child.2.toJson = child.2 := by
  rw [ofMembers_eq_map, members_eq_map, List.map_map, map_eq_self_iff]
  simp [Prod.ext_iff]

/-- So do the elements of an array, whose keys are empty. -/
theorem ofElements_members_eq_iff {children : List (Bytes × PropertyTree)}
    (hkeys : ∀ child ∈ children, child.1 = []) :
    ofElements ((members children).map Prod.snd) = children ↔
      ∀ child ∈ children, ofJson child.2.toJson = child.2 := by
  rw [ofElements_eq_map, members_eq_map, List.map_map, List.map_map, map_eq_self_iff]
  refine forall₂_congr fun child hchild => ?_
  simp [Prod.ext_iff, hkeys child hchild]

theorem representable_node_iff {data : Bytes} {children : List (Bytes × PropertyTree)} :
    (node data children).Representable ↔
      (children = [] ∨ data = []) ∧ ∀ child ∈ children, child.2.Representable := by
  constructor
  · intro h
    cases h with
    | leaf => exact ⟨Or.inl rfl, List.forall_mem_nil _⟩
    | branch hchildren => exact ⟨Or.inr rfl, hchildren⟩
  · rintro ⟨rfl | rfl, hchildren⟩
    · exact .leaf data
    · exact .branch hchildren

theorem ofJson_toJson_node_iff {data : Bytes} {children : List (Bytes × PropertyTree)} :
    ofJson (node data children).toJson = node data children ↔
      (children = [] ∨ data = []) ∧ ∀ child ∈ children, ofJson child.2.toJson = child.2 := by
  rw [toJson]
  by_cases hempty : children.isEmpty = true
  · rw [if_pos hempty]
    obtain rfl := List.isEmpty_iff.mp hempty
    simp [ofJson]
  · have hne : children ≠ [] := fun hnil => hempty (List.isEmpty_iff.mpr hnil)
    rw [if_neg hempty]
    by_cases hkeys : children.all (fun child => child.1.isEmpty) = true
    · have hall : ∀ child ∈ children, child.1 = [] := fun child hchild =>
        List.isEmpty_iff.mp (List.all_eq_true.mp hkeys child hchild)
      rw [if_pos hkeys, ofJson, node.injEq, ofElements_members_eq_iff hall, or_iff_right hne,
        eq_comm]
    · rw [if_neg hkeys, ofJson, node.injEq, ofMembers_members_eq_iff, or_iff_right hne, eq_comm]

theorem ofJson_toJson_iff (tree : PropertyTree) :
    ofJson tree.toJson = tree ↔ tree.Representable := by
  cases tree with
  | node data children =>
      rw [ofJson_toJson_node_iff, representable_node_iff]
      refine and_congr_right fun _ => forall₂_congr fun child hmem => ?_
      exact ofJson_toJson_iff child.2
termination_by tree
decreasing_by
  have hlt := List.sizeOf_lt_of_mem hmem
  cases child
  simp at hlt ⊢
  omega

/-- What is written is read back as the same tree, provided that it can be. -/
theorem readJson_writeJson_iff (tree : PropertyTree) :
    readJson (writeJson tree) = some tree ↔
      tree.data = [] ∧ ∀ child ∈ tree.children, child.2.Representable := by
  cases tree with
  | node data children =>
      rw [readJson, parse_writeJson, Option.map_some, Option.some.injEq, ofJson, node.injEq]
      refine and_congr eq_comm ?_
      simp only [← ofJson_toJson_iff]
      exact ofMembers_members_eq_iff children

end Vorze.PropertyTree
