import Mathlib.Data.List.Induction
import Mathlib.Tactic.Common

/-! # Directory trees with several roots and links

A file system answers lookups of one name in one directory and gives back the
name as it is stored. Links may lead anywhere, also to another root. Resolving
a path follows every link on the way; the result is a location without links,
which resolves to itself. Dots are removed from a path before it is walked.
-/

namespace Vorze.Files

/-- An element of a path. -/
inductive PathPart (Name : Type)
  | self
  | parent
  | name (n : Name)
  deriving DecidableEq, Repr

/-- A place in a tree: a root name and the names below it. -/
structure Location (Name : Type) where
  root : Name
  names : List Name := []
  deriving DecidableEq, Repr

/-- A path as it is written: perhaps with a root name, from the root directory
or from the current one. -/
structure Path (Name : Type) where
  root : Option Name
  fromRoot : Bool
  parts : List (PathPart Name)
  deriving DecidableEq, Repr

inductive Node (Name Data : Type)
  | directory
  | file (data : Data)
  | link (target : Path Name)
  deriving DecidableEq, Repr

inductive ResolveError
  | notFound
  | tooManyLinks
  deriving DecidableEq, Repr

variable {Name Data : Type}

namespace Location

def child (loc : Location Name) (name : Name) : Location Name :=
  { loc with names := loc.names ++ [name] }

/-- The location written out as a path. -/
def toPath (loc : Location Name) : Path Name where
  root := some loc.root
  fromRoot := true
  parts := loc.names.map .name

/-- The location is somewhere below the other one. -/
def Below (loc base : Location Name) : Prop :=
  loc.root = base.root ∧ base.names <+: loc.names ∧ loc ≠ base

end Location

/-- A file system that does not change. Looking a stored name up again finds the
same entry. `current` is the current directory and `currentOn` that of each root. -/
structure FileSystem (Name Data : Type) where
  root : Name → Option Name
  entry : Location Name → Name → Option (Name × Node Name Data)
  current : Location Name
  currentOn : Name → List Name
  linkLimit : Nat
  root_stored : ∀ {name stored}, root name = some stored → root stored = some stored
  entry_stored : ∀ {loc name stored node},
    entry loc name = some (stored, node) → entry loc stored = some (stored, node)

namespace FileSystem

variable (fs : FileSystem Name Data)

/-- The names that are left when the dots are worked off. -/
def normalize (base : List Name) (parts : List (PathPart Name)) : List Name :=
  parts.foldl (fun names part =>
    match part with
    | .self => names
    | .parent => names.dropLast
    | .name n => names ++ [n]) base

/-- A path made absolute. What has no root name is relative to `base`. -/
def fullPath (base : Location Name) (path : Path Name) : Location Name :=
  match path.root with
  | none =>
      { root := base.root, names := normalize (if path.fromRoot then [] else base.names) path.parts }
  | some root =>
      { root := root,
        names := normalize (if path.fromRoot then [] else fs.currentOn root) path.parts }

/-- Walk down the names. `follow` says where the target of a link in a directory is. -/
def walk (follow : Location Name → Path Name → Except ResolveError (Location Name)) :
    Location Name → List Name → Except ResolveError (Location Name)
  | loc, [] => .ok loc
  | loc, name :: rest =>
      match fs.entry loc name with
      | none => .error .notFound
      -- what follows the name goes on from the target of the link
      | some (_, .link target) => (follow loc target).bind fun dest => walk follow dest rest
      | some (stored, _) => walk follow (loc.child stored) rest

/-- The location a path leads to, with links nested no deeper than the limit. -/
def resolve : Nat → Location Name → Path Name → Except ResolveError (Location Name)
  | 0, _, _ => .error .tooManyLinks
  | limit + 1, base, path =>
      let full := fs.fullPath base path
      match fs.root full.root with
      | none => .error .notFound
      | some root => fs.walk (resolve limit) { root := root } full.names

def canonical (path : Path Name) : Except ResolveError (Location Name) :=
  fs.resolve fs.linkLimit fs.current path

/-- The node at a location, whose own link is not followed. -/
def node (loc : Location Name) : Option (Node Name Data) :=
  match loc.names.getLast? with
  | none => if (fs.root loc.root).isSome then some .directory else none
  | some name => (fs.entry { loc with names := loc.names.dropLast } name).map Prod.snd

/-- The link that the last name of a path stands for: the directory it is in, and
its target. -/
def lastLink (path : Path Name) : Option (Location Name × Path Name) :=
  match path.parts.getLast?, fs.canonical { path with parts := path.parts.dropLast } with
  | some (.name name), .ok dir =>
      match fs.entry dir name with
      | some (_, .link target) => some (dir, target)
      | _ => none
  | _, _ => none

/-! ## Locations without links -/

/-- Every step down to the location is a stored name and not a link. -/
inductive Real : Location Name → Prop
  | root {name : Name} (hroot : fs.root name = some name) : Real { root := name }
  | child {loc : Location Name} {name : Name} {node : Node Name Data} (hloc : Real loc)
      (hentry : fs.entry loc name = some (name, node)) (hlink : ∀ target, node ≠ .link target) :
      Real (loc.child name)

variable {fs}

theorem walk_real
    {follow : Location Name → Path Name → Except ResolveError (Location Name)}
    (hfollow : ∀ base path dest, follow base path = .ok dest → fs.Real dest)
    {names : List Name} {loc dest : Location Name} (hloc : fs.Real loc)
    (hwalk : fs.walk follow loc names = .ok dest) : fs.Real dest := by
  induction names generalizing loc with
  | nil =>
      obtain rfl := Except.ok.inj hwalk
      exact hloc
  | cons name rest ih =>
      unfold walk at hwalk
      split at hwalk
      next => cases hwalk
      next target hentry =>
        cases hstep : follow loc target with
        | error e => simp [hstep, Except.bind] at hwalk
        | ok middle =>
            rw [hstep] at hwalk
            exact ih (hfollow loc target middle hstep) hwalk
      next stored node hlink hentry =>
        refine ih (.child hloc (fs.entry_stored hentry) ?_) hwalk
        intro target heq
        exact hlink target heq

/-- Resolving a path leads to a location without links. -/
theorem resolve_real {limit : Nat} {base dest : Location Name} {path : Path Name}
    (hresolve : fs.resolve limit base path = .ok dest) : fs.Real dest := by
  -- every link on the way is resolved with a smaller limit
  induction limit generalizing base path dest with
  | zero => cases hresolve
  | succ limit ih =>
      simp only [resolve] at hresolve
      split at hresolve
      next => cases hresolve
      next root hroot =>
        exact walk_real (fun base path dest h => ih h) (.root (fs.root_stored hroot)) hresolve

theorem normalize_names (base names : List Name) :
    normalize base (names.map .name) = base ++ names := by
  induction names generalizing base with
  | nil => simp [normalize]
  | cons name rest ih =>
      have hrest := ih (base ++ [name])
      simp only [normalize, List.map_cons, List.foldl_cons] at hrest ⊢
      rw [hrest, List.append_assoc]
      rfl

/-- Walking down to a location without links leads there. -/
theorem Real.walk {loc : Location Name} (h : fs.Real loc)
    (follow : Location Name → Path Name → Except ResolveError (Location Name))
    (rest : List Name) :
    fs.walk follow { root := loc.root } (loc.names ++ rest) = fs.walk follow loc rest := by
  induction h generalizing rest with
  | root hroot => rfl
  | @child loc name node hloc hentry hlink ih =>
      rw [Location.child, List.append_assoc, ih]
      cases node with
      | directory | file data => simp [FileSystem.walk, hentry, Location.child]
      | link target => exact absurd rfl (hlink target)

theorem Real.rootName {loc : Location Name} (h : fs.Real loc) :
    fs.root loc.root = some loc.root := by
  induction h with
  | root hroot => exact hroot
  | child _ _ _ ih => exact ih

/-- A location without links is what its own path resolves to. -/
theorem Real.resolve {loc : Location Name} (h : fs.Real loc) (limit : Nat)
    (base : Location Name) : fs.resolve (limit + 1) base loc.toPath = .ok loc := by
  have hwalk := h.walk (fs.resolve limit) []
  rw [List.append_nil] at hwalk
  simp only [FileSystem.resolve, fullPath, Location.toPath, ↓reduceIte, normalize_names,
    List.nil_append, h.rootName, hwalk]
  rfl

/-- Resolving twice is resolving once. -/
theorem canonical_toPath {path : Path Name} {loc : Location Name}
    (hcanonical : fs.canonical path = .ok loc) : fs.canonical loc.toPath = .ok loc := by
  have hreal := resolve_real hcanonical
  unfold canonical at hcanonical ⊢
  cases hlimit : fs.linkLimit with
  | zero =>
      rw [hlimit] at hcanonical
      cases hcanonical
  | succ limit => exact hreal.resolve limit fs.current

/-- The node at a location without links is there and is not a link. -/
theorem Real.node {loc : Location Name} (h : fs.Real loc) :
    ∃ node, fs.node loc = some node ∧ ∀ target, node ≠ .link target := by
  cases h with
  | root hroot => exact ⟨.directory, by simp [FileSystem.node, hroot], by simp⟩
  | @child loc name node hloc hentry hlink =>
      exact ⟨node, by simp [FileSystem.node, Location.child, hentry], hlink⟩

/-! ## Links at the end of a path -/

theorem walk_append
    {follow : Location Name → Path Name → Except ResolveError (Location Name)}
    {loc middle : Location Name} {names : List Name}
    (hwalk : fs.walk follow loc names = .ok middle) (rest : List Name) :
    fs.walk follow loc (names ++ rest) = fs.walk follow middle rest := by
  induction names generalizing loc with
  | nil =>
      obtain rfl := Except.ok.inj hwalk
      rfl
  | cons name names ih =>
      rw [List.cons_append]
      simp only [walk] at hwalk ⊢
      split at hwalk
      next => cases hwalk
      next target hentry =>
        cases hstep : follow loc target with
        | error e => simp [hstep, Except.bind] at hwalk
        | ok dest =>
            rw [hstep] at hwalk
            exact ih hwalk
      next stored node hlink hentry => exact ih hwalk

/-- The last name of a path is the last one of the full path. -/
theorem fullPath_append (base : Location Name) {path : Path Name} {init : List (PathPart Name)}
    {name : Name} (hparts : path.parts = init ++ [.name name]) :
    fs.fullPath base path = (fs.fullPath base { path with parts := init }).child name := by
  unfold fullPath
  cases path.root <;> simp [hparts, normalize, Location.child]

/-- A path that ends with a link resolves to where the link leads. -/
theorem canonical_of_lastLink {path target : Path Name} {dir : Location Name}
    (h : fs.lastLink path = some (dir, target)) :
    fs.canonical path = fs.resolve (fs.linkLimit - 1) dir target := by
  unfold lastLink at h
  split at h
  next name found hlast hparent =>
    split at h
    next stored target' hentry =>
      obtain ⟨rfl, rfl⟩ := Prod.mk.inj (Option.some.inj h)
      obtain ⟨init, hparts⟩ := List.getLast?_eq_some_iff.mp hlast
      rw [hparts, List.dropLast_concat] at hparent
      unfold canonical at hparent ⊢
      cases hlimit : fs.linkLimit with
      | zero =>
          rw [hlimit] at hparent
          cases hparent
      | succ limit =>
          rw [hlimit] at hparent
          simp only [resolve, Nat.add_sub_cancel, fullPath_append fs.current hparts,
            Location.child] at hparent ⊢
          split at hparent
          next => cases hparent
          next root hroot =>
            rw [walk_append hparent]
            simp only [walk, hentry]
            cases fs.resolve limit found target' <;> rfl
    next => cases h
  next => cases h

/-! ## Relative paths -/

/-- The leading part of the names that exists is resolved, the rest is kept. The
names are given from the last one on. -/
def weaklyCanonicalFrom (fs : FileSystem Name Data) (root : Name) :
    List Name → Except ResolveError (Location Name)
  | [] => .ok { root := root }
  | name :: init =>
      match fs.canonical { root := root, names := (name :: init).reverse : Location Name }.toPath with
      | .error .notFound => (weaklyCanonicalFrom fs root init).map (·.child name)
      | result => result

def weaklyCanonical (fs : FileSystem Name Data) (loc : Location Name) :
    Except ResolveError (Location Name) :=
  fs.weaklyCanonicalFrom loc.root loc.names.reverse

theorem weaklyCanonical_canonical {path : Path Name} {loc : Location Name}
    (hcanonical : fs.canonical path = .ok loc) : fs.weaklyCanonical loc = .ok loc := by
  have hsame := canonical_toPath hcanonical
  unfold weaklyCanonical
  cases hnames : loc.names.reverse with
  | nil =>
      have hnil : loc.names = [] := by simpa using hnames
      rw [weaklyCanonicalFrom, ← hnil]
  | cons name init =>
      have hloc : ({ root := loc.root, names := (name :: init).reverse } : Location Name) = loc := by
        rw [← hnames, List.reverse_reverse]
      rw [weaklyCanonicalFrom, hloc, hsame]

variable [DecidableEq Name]

/-- What is left of two lists after their common beginning. -/
def dropCommon : List Name → List Name → List Name × List Name
  | a :: as, b :: bs => if a = b then dropCommon as bs else (a :: as, b :: bs)
  | as, bs => (as, bs)

/-- `lexically_relative` on locations; the empty list is the empty path. -/
def lexicallyRelative (loc base : Location Name) : List (PathPart Name) :=
  if loc.root = base.root then
    match dropCommon loc.names base.names with
    | ([], []) => [.self]
    | (down, up) => List.replicate up.length .parent ++ down.map .name
  else []

/-- `relative`. -/
def relative (fs : FileSystem Name Data) (loc base : Location Name) :
    Except ResolveError (List (PathPart Name)) :=
  (fs.weaklyCanonical loc).bind fun loc =>
    (fs.weaklyCanonical base).map fun base => lexicallyRelative loc base

/-- Between resolved locations the relative path is the lexical one. -/
theorem relative_canonical {path basePath : Path Name} {loc base : Location Name}
    (hloc : fs.canonical path = .ok loc) (hbase : fs.canonical basePath = .ok base) :
    fs.relative loc base = .ok (lexicallyRelative loc base) := by
  rw [relative, weaklyCanonical_canonical hloc, weaklyCanonical_canonical hbase]
  rfl

theorem dropCommon_self (names : List Name) : dropCommon names names = ([], []) := by
  induction names with
  | nil => rfl
  | cons name rest ih => simpa [dropCommon] using ih

theorem lexicallyRelative_self (loc : Location Name) : lexicallyRelative loc loc = [.self] := by
  rw [lexicallyRelative, if_pos rfl, dropCommon_self]

/-- Between two roots there is no relative path. -/
theorem lexicallyRelative_of_ne {loc base : Location Name} (hroot : loc.root ≠ base.root) :
    lexicallyRelative loc base = [] := if_neg hroot

theorem dropCommon_snd_eq_nil {as bs : List Name} (h : (dropCommon as bs).2 = []) : bs <+: as := by
  induction as generalizing bs with
  | nil =>
      cases bs with
      | nil => exact List.prefix_rfl
      | cons => simp [dropCommon] at h
  | cons a as ih =>
      cases bs with
      | nil => exact List.nil_prefix
      | cons b bs =>
          by_cases hab : a = b
          · subst hab
            simp only [dropCommon, ↓reduceIte] at h
            exact List.cons_prefix_cons.mpr ⟨rfl, ih h⟩
          · simp [dropCommon, hab] at h

/-- A relative path on one root that does not start by going up stays under its base. -/
theorem prefix_of_lexicallyRelative {loc base : Location Name} (hroot : loc.root = base.root)
    (hup : (lexicallyRelative loc base).head? ≠ some .parent) : base.names <+: loc.names := by
  rw [lexicallyRelative, if_pos hroot] at hup
  cases hdrop : dropCommon loc.names base.names with
  | mk down up =>
      rw [hdrop] at hup
      apply dropCommon_snd_eq_nil
      rw [hdrop]
      cases up with
      | nil => rfl
      | cons name rest => simp [List.replicate_succ] at hup

/-! ## Tables -/

/-- The file system with the listed roots and nodes, where names are stored as
they are written. -/
def ofTable (roots : List Name) (nodes : List (Location Name × Node Name Data))
    (current : Location Name) (linkLimit : Nat) : FileSystem Name Data where
  root name := if name ∈ roots then some name else none
  entry loc name := (nodes.lookup (loc.child name)).map fun node => (name, node)
  current := current
  currentOn _ := []
  linkLimit := linkLimit
  root_stored := by
    intro name stored hroot
    simp only [Option.ite_none_right_eq_some, Option.some.injEq] at hroot
    obtain ⟨hmem, rfl⟩ := hroot
    rw [if_pos hmem]
  entry_stored := by
    intro loc name stored node hentry
    obtain ⟨found, hfound, heq⟩ := Option.map_eq_some_iff.mp hentry
    obtain ⟨rfl, rfl⟩ := Prod.mk.inj heq
    exact hentry

end FileSystem

end Vorze.Files
