import Vorze.Foundation.JsonReading
import Vorze.Foundation.PropertyTree

/-! # What `write_json` writes

The text of a property tree is read back as the JSON value the rule of the writer
gives for it: a string, an array or an object by the shape of each node.
-/

namespace Vorze.PropertyTree

open Json

mutual

/-- The value of a node below the root. -/
def toJson : PropertyTree → Json
  | .node data children =>
      if children.isEmpty then .string data
      else if children.all (fun child => child.1.isEmpty) then
        .array ((members children).map Prod.snd)
      else .object (members children)

/-- The children with their keys. -/
def members : List (Bytes × PropertyTree) → List (Bytes × Json)
  | [] => []
  | (key, child) :: rest => (key, child.toJson) :: members rest

end

theorem members_eq_map (children : List (Bytes × PropertyTree)) :
    members children = children.map fun child => (child.1, child.2.toJson) := by
  induction children with
  | nil => simp [members]
  | cons child rest ih => rw [members, ih, List.map_cons]

/-! ## Strings -/

theorem codeUnit_hexDigit {b : UInt8} (h : b < 0x20) :
    codeUnit (ch '0') (ch '0') (hexDigit (b.toNat / 16)) (hexDigit (b.toNat % 16)) =
      some b.toNat := by
  have hall : ∀ n < 32, codeUnit (ch '0') (ch '0') (hexDigit (n / 16)) (hexDigit (n % 16)) =
      some n := by decide
  exact hall b.toNat (UInt8.lt_iff_toNat_lt.mp h)

/-- Every character is escaped into something that is read as it. -/
theorem isChar_escapeByte (b : UInt8) : IsChar (escapeByte b) b := by
  have hquote : ch '"' = 0x22 := rfl
  have hbackslash : ch '\\' = 0x5C := rfl
  have hslash : ch '/' = 0x2F := rfl
  unfold escapeByte
  split
  next h =>
    apply isChar_plain
    simp only [isPlain, Bool.and_eq_true, bne_iff_ne, decide_eq_true_eq, hquote, hbackslash,
      UInt8.le_iff_toNat_le, ne_eq, ← UInt8.toNat_inj, UInt8.reduceToNat] at h ⊢
    omega
  next h =>
    -- the characters with a letter of their own
    iterate 8
      split
      next heq =>
        subst heq
        exact isChar_unescape (by decide)
    have hcontrol : b < 0x20 := by
      simp only [hquote, hbackslash, hslash, UInt8.le_iff_toNat_le, UInt8.lt_iff_toNat_lt,
        ← UInt8.toNat_inj, UInt8.reduceToNat] at *
      omega
    have hsmall : b.toNat < 0x80 :=
      Nat.lt_trans (UInt8.lt_iff_toNat_lt.mp hcontrol) (by decide)
    have hchar := isChar_codeUnit (codeUnit_hexDigit hcontrol) hsmall
    rwa [Nat.toUInt8_eq, UInt8.ofNat_toNat] at hchar

theorem isString_createEscapes (data : Bytes) : IsString (createEscapes data) data :=
  isString_flatMap fun b _ => isChar_escapeByte b

/-! ## Lines -/

/-- The line of a child, from the end of the line before it to its own comma. -/
def line (indent : Nat) (keyed : Bool) (child : Bytes × PropertyTree) : Bytes :=
  text "\n" ++ spaces (indent + 1) ++ (if keyed then quoted child.1 ++ text ": " else []) ++
    writeNode (indent + 1) child.2

theorem writeChildren_eq (indent : Nat) (keyed : Bool) (children : List (Bytes × PropertyTree)) :
    text "\n" ++ writeChildren indent keyed children =
      [ch ','].intercalate (children.map (line indent keyed)) ++ text "\n" := by
  induction children with
  | nil => simp [writeChildren]
  | cons child rest ih =>
      cases rest with
      | nil => simp [writeChildren, line]
      | cons next rest =>
          have hcomma : text ",\n" = ch ',' :: text "\n" := rfl
          rw [List.map_cons, List.intercalate_cons_of_ne_nil (by simp), List.append_assoc, ← ih,
            writeChildren]
          simp [line, hcomma]

theorem length_line_le {indent : Nat} {keyed : Bool} {children : List (Bytes × PropertyTree)}
    {child : Bytes × PropertyTree} (hmem : child ∈ children) :
    (line indent keyed child).length ≤ (writeChildren indent keyed children).length := by
  induction children with
  | nil => cases hmem
  | cons head rest ih =>
      rw [writeChildren]
      rcases List.mem_cons.mp hmem with rfl | hrest
      · have hend : 0 < (if rest.isEmpty then text "\n" else text ",\n").length := by
          split <;> decide
        have hline : (text "\n").length = 1 := rfl
        simp only [line, List.length_append, hline]
        omega
      · have hle := ih hrest
        simp only [List.length_append]
        omega

theorem length_children_le (indent : Nat) (keyed : Bool)
    (children : List (Bytes × PropertyTree)) :
    children.length ≤ (writeChildren indent keyed children).length := by
  induction children with
  | nil => exact Nat.zero_le _
  | cons child rest ih =>
      have hend : 0 < (if rest.isEmpty then text "\n" else text ",\n").length := by
        split <;> decide
      rw [writeChildren]
      simp only [List.length_append, List.length_cons]
      omega

theorem isSpace_of_mem_spaces {indent : Nat} {b : UInt8} (h : b ∈ text "\n" ++ spaces indent) :
    isSpace b = true := by
  rcases List.mem_append.mp h with hline | hspaces
  · rw [List.mem_singleton.mp hline]
    decide
  · rw [List.eq_of_mem_replicate hspaces]
    decide

/-- The lines of the children are read as the items that the children are. -/
theorem listOf_writeChildren {α : Type} {item : Bytes → Option (α × Bytes)} {close : UInt8}
    (hcomma : close ≠ ch ',') (hspace : isSpace close = false) (indent : Nat) (keyed : Bool)
    {children : List (Bytes × PropertyTree)} {json : Bytes × PropertyTree → α}
    (hitem : ∀ child ∈ children, IsItem item close (line indent keyed child) (json child))
    {bound : Nat} (hbound : (writeChildren indent keyed children).length ≤ bound) (rest : Bytes) :
    listOf item close bound
        (text "\n" ++ writeChildren indent keyed children ++ spaces indent ++ close :: rest) =
      some (children.map json, rest) := by
  have hitems : ∀ w ∈ children.map fun child => (line indent keyed child, json child),
      IsItem item close w.1 w.2 := by
    intro w hw
    obtain ⟨child, hmem, rfl⟩ := List.mem_map.mp hw
    exact hitem child hmem
  have hlength : (children.map fun child => (line indent keyed child, json child)).length ≤
      bound := by
    rw [List.length_map]
    exact Nat.le_trans (length_children_le indent keyed children) hbound
  have hspaces : ∀ b ∈ text "\n" ++ spaces indent, isSpace b = true :=
    fun b hb => isSpace_of_mem_spaces hb
  have hlist := listOf_intercalate hcomma hspace hitems hspaces rest hlength
  simp only [List.map_map, Function.comp_def] at hlist
  rw [writeChildren_eq]
  simpa only [List.append_assoc] using hlist

/-! ## Nodes -/

/-- The text of a node is read as its value. -/
def Reads (tree : PropertyTree) : Prop :=
  ∀ indent bound rest, (writeNode (indent + 1) tree).length ≤ bound →
    readValue bound (writeNode (indent + 1) tree ++ rest) = some (tree.toJson, rest)

theorem exists_head_writeNode (indent : Nat) (tree : PropertyTree) :
    ∃ first tail, writeNode indent tree = first :: tail ∧
      (first = ch '"' ∨ first = ch '[' ∨ first = ch '\x7b') := by
  cases tree with
  | node data children =>
      rw [writeNode]
      split
      · exact ⟨_, _, rfl, Or.inl rfl⟩
      split
      · exact ⟨_, _, rfl, Or.inr (Or.inl rfl)⟩
      · exact ⟨_, _, rfl, Or.inr (Or.inr rfl)⟩

theorem isItem_element {indent bound : Nat} {child : Bytes × PropertyTree}
    (hreads : child.2.Reads) (hbound : (line indent false child).length ≤ bound) :
    IsItem (readValue bound) (ch ']') (line indent false child) child.2.toJson := by
  have hline : line indent false child =
      (text "\n" ++ spaces (indent + 1)) ++ writeNode (indent + 1) child.2 := by
    simp [line]
  have hspaces : ∀ b ∈ text "\n" ++ spaces (indent + 1), isSpace b = true :=
    fun b hb => isSpace_of_mem_spaces hb
  rw [hline, List.length_append] at hbound
  rw [hline]
  constructor
  · obtain ⟨first, tail, hfirst, hcases⟩ := exists_head_writeNode (indent + 1) child.2
    refine ⟨first, ?_, by rcases hcases with rfl | rfl | rfl <;> decide⟩
    rw [skipSpaces_append hspaces, hfirst, skipSpaces_cons]
    · rfl
    · rcases hcases with rfl | rfl | rfl <;> decide
  · intro b rest _
    rw [List.append_assoc, readValue_append hspaces]
    exact hreads indent bound (b :: rest) (by omega)

theorem isItem_member {indent bound : Nat} {child : Bytes × PropertyTree}
    (hreads : child.2.Reads) (hbound : (line indent true child).length ≤ bound) :
    IsItem (readMember (readValue bound)) (ch '\x7d') (line indent true child)
      (child.1, child.2.toJson) := by
  have hline : line indent true child = (text "\n" ++ spaces (indent + 1)) ++
      ([ch '"'] ++ createEscapes child.1 ++ [ch '"', ch ':'] ++
        (text " " ++ writeNode (indent + 1) child.2)) := by
    have hcolon : text ": " = ch ':' :: text " " := rfl
    simp [line, quoted, hcolon]
  have hspaces : ∀ b ∈ text "\n" ++ spaces (indent + 1), isSpace b = true :=
    fun b hb => isSpace_of_mem_spaces hb
  have hspace : ∀ b ∈ text " ", isSpace b = true := List.all_eq_true.mp (by decide)
  rw [hline] at hbound ⊢
  simp only [List.length_append] at hbound
  apply isItem_readMember hspaces (isString_createEscapes child.1)
  intro b rest _
  rw [List.append_assoc, readValue_append hspace]
  exact hreads indent bound (b :: rest) (by omega)

theorem readValue_members {children : List (Bytes × PropertyTree)}
    (hreads : ∀ child ∈ children, child.2.Reads) (indent : Nat) {bound : Nat}
    (hbound : (writeChildren indent true children).length ≤ bound) (rest : Bytes) :
    readValue (bound + 1) (text "\x7b\n" ++ writeChildren indent true children ++
      spaces indent ++ text "\x7d" ++ rest) = some (.object (members children), rest) := by
  have hcomma : ch '\x7d' ≠ ch ',' := by decide
  have hlist := listOf_writeChildren hcomma rfl indent true
    (fun child hmem => isItem_member (hreads child hmem)
      (Nat.le_trans (length_line_le hmem) hbound)) hbound rest
  rw [← members_eq_map] at hlist
  have hobject := readValue_brace bound (text "\n" ++ writeChildren indent true children ++
    spaces indent ++ ch '\x7d' :: rest)
  rw [hlist, Option.map_some] at hobject
  have hopen : text "\x7b\n" = ch '\x7b' :: text "\n" := rfl
  have hclose : text "\x7d" = [ch '\x7d'] := rfl
  rw [hopen, hclose]
  simpa only [List.append_assoc, List.cons_append, List.nil_append] using hobject

theorem readValue_elements {children : List (Bytes × PropertyTree)}
    (hreads : ∀ child ∈ children, child.2.Reads) (indent : Nat) {bound : Nat}
    (hbound : (writeChildren indent false children).length ≤ bound) (rest : Bytes) :
    readValue (bound + 1) (text "[\n" ++ writeChildren indent false children ++
      spaces indent ++ text "]" ++ rest) =
        some (.array ((members children).map Prod.snd), rest) := by
  have hcomma : ch ']' ≠ ch ',' := by decide
  have hlist := listOf_writeChildren hcomma rfl indent false
    (fun child hmem => isItem_element (hreads child hmem)
      (Nat.le_trans (length_line_le hmem) hbound)) hbound rest
  have harray := readValue_bracket bound (text "\n" ++ writeChildren indent false children ++
    spaces indent ++ ch ']' :: rest)
  rw [hlist, Option.map_some] at harray
  have hopen : text "[\n" = ch '[' :: text "\n" := rfl
  have hclose : text "]" = [ch ']'] := rfl
  have helements : (members children).map Prod.snd = children.map fun child => child.2.toJson := by
    rw [members_eq_map, List.map_map]
    rfl
  rw [hopen, hclose, helements]
  simpa only [List.append_assoc, List.cons_append, List.nil_append] using harray

theorem reads_node (data : Bytes) {children : List (Bytes × PropertyTree)}
    (hreads : ∀ child ∈ children, child.2.Reads) : (node data children).Reads := by
  intro indent bound rest hbound
  have hopen : (text "[\n").length = 2 := rfl
  have hopen' : (text "\x7b\n").length = 2 := rfl
  rw [writeNode] at hbound ⊢
  rw [toJson]
  split at hbound
  next hempty =>
    rw [if_pos hempty, if_pos hempty.2]
    cases bound with
    | zero => simp [quoted] at hbound
    | succ bound => exact readValue_string (isString_createEscapes data) bound rest
  next hempty =>
    have hchildren : ¬children.isEmpty = true := fun h => hempty ⟨Nat.succ_pos indent, h⟩
    rw [if_neg hempty, if_neg hchildren]
    split at hbound
    next hkeys =>
      rw [if_pos hkeys, if_pos hkeys.2]
      simp only [List.length_append, hopen] at hbound
      obtain ⟨bound, rfl⟩ := Nat.exists_eq_add_of_le' (by omega : 1 ≤ bound)
      exact readValue_elements hreads (indent + 1) (by omega) rest
    next hkeys =>
      have hkeys' : ¬children.all (fun child => child.1.isEmpty) = true :=
        fun h => hkeys ⟨Nat.succ_pos indent, h⟩
      rw [if_neg hkeys, if_neg hkeys']
      simp only [List.length_append, hopen'] at hbound
      obtain ⟨bound, rfl⟩ := Nat.exists_eq_add_of_le' (by omega : 1 ≤ bound)
      exact readValue_members hreads (indent + 1) (by omega) rest

theorem reads (tree : PropertyTree) : tree.Reads := by
  cases tree with
  | node data children =>
      apply reads_node
      intro child hmem
      exact reads child.2
termination_by tree
decreasing_by
  have hlt := List.sizeOf_lt_of_mem hmem
  cases child
  simp at hlt ⊢
  omega

/-- The written text is read as an object of the root's children. -/
theorem parse_writeJson (tree : PropertyTree) :
    parse (writeJson tree) = some (.object (members tree.children)) := by
  cases tree with
  | node data children =>
      have hroot : writeJson (node data children) = text "\x7b\n" ++
          writeChildren 0 true children ++ spaces 0 ++ text "\x7d" ++ text "\n" := by
        simp [writeJson, writeNode]
      have hbound : (writeChildren 0 true children).length ≤
          (writeJson (node data children)).length := by
        rw [hroot]
        simp only [List.length_append]
        omega
      have hread := readValue_members (fun child _ => reads child.2) 0 hbound (text "\n")
      rw [← hroot] at hread
      rw [parse, hread]
      rfl

end Vorze.PropertyTree
