import Vorze.EmbedWeb.HandleRequest
import Vorze.Foundation.Words
import Mathlib.Data.List.TakeWhile

/-! # The list of allowed extensions

The constructor of the server splits the configured string at its spaces and
keeps empty words. The path check compares the extension of a file with every
word, and a file without an extension has the empty one.
-/

namespace Vorze.EmbedWeb

open Files

/-- `boost::split` of the configured string, when there is one. -/
def allowFileExtListOf (allowFileExtList : Option Bytes) : List Bytes :=
  match allowFileExtList with
  | some list => list.splitOn (ch ' ')
  | none => []

def FileServer.withExtList (server : FileServer) (list : Bytes) : FileServer :=
  { server with allowFileExtList := allowFileExtListOf (some list) }

/-- If the answer is 200, the extension of the file that was opened is not empty
and stands between spaces in the list. -/
def ServesListed (fs : WindowsFiles) (server : FileServer) (list : Bytes) (req : Request) : Prop :=
  (handleRequest fs (server.withExtList list) req).response.result = .ok →
    ∃ file, (handleRequest fs (server.withExtList list) req).opened = some file ∧
      fileExt file ≠ [] ∧ Words.Delimited (ch ' ') list (fileExt file)

/-! ## The condition -/

/-- The list is empty, begins or ends with a space, or has two in a row. -/
def HasEmptyWord (list : Bytes) : Prop :=
  list = [] ∨ list.head? = some (ch ' ') ∨ list.getLast? = some (ch ' ') ∨
    [ch ' ', ch ' '] <:+: list

/-- The name has a dot after its first character and does not end in one. -/
def HasExtension (filename : Bytes) : Prop :=
  ch '.' ∈ filename.tail ∧ filename.getLast? ≠ some (ch '.')

/-- Everything but its extension speaks for serving the file. -/
structure Fetchable (fs : WindowsFiles) (server : FileServer) (req : Request)
    (root file : Location Bytes) : Prop where
  method : req.method = .get ∨ req.method = .head
  target : legalTarget req.target = true
  rootPath : canonical fs server.docRoot = .ok root
  resolved : canonical fs (requestedPath server req.target) = .ok file
  relative : contains (text "..")
    (genericString (FileSystem.lexicallyRelative file root)) = false
  readable : ∃ content, fs.node file = some (.file (.ok content))

/-! ## Extensions of names -/

/-- The part after the last dot. -/
def afterDot (filename : Bytes) : Bytes := (filename.reverse.takeWhile (· != ch '.')).reverse

theorem afterDot_append {front rest : Bytes} (h : ch '.' ∉ rest) :
    afterDot (front ++ ch '.' :: rest) = rest := by
  have hrest : ∀ b ∈ rest.reverse, (b != ch '.') = true := by
    intro b hb
    rw [bne_iff_ne]
    rintro rfl
    exact h (List.mem_reverse.mp hb)
  rw [afterDot, List.reverse_append, List.reverse_cons, List.append_assoc,
    List.takeWhile_append_of_pos hrest]
  simp

theorem afterDot_of_notMem {filename : Bytes} (h : ch '.' ∉ filename) :
    afterDot filename = filename := by
  rw [afterDot, List.takeWhile_eq_self_iff.mpr, List.reverse_reverse]
  intro b hb
  rw [bne_iff_ne]
  rintro rfl
  exact h (List.mem_reverse.mp hb)

theorem extension_eq (filename : Bytes) :
    extension filename =
      if filename.length ≤ (afterDot filename).length + 1 ∨ filename = text ".." then []
      else ch '.' :: afterDot filename := rfl

theorem fileExt_eq (file : Location Bytes) (filename : Bytes)
    (hname : file.names.getLast?.getD [] = filename) :
    fileExt file =
      if filename.length ≤ (afterDot filename).length + 1 ∨ filename = text ".." then []
      else afterDot filename := by
  simp only [fileExt, hname, extension_eq]
  by_cases hshort : filename.length ≤ (afterDot filename).length + 1 ∨ filename = text ".."
  · rw [if_pos hshort, if_pos hshort]
    rfl
  · rw [if_neg hshort, if_neg hshort]
    rfl

theorem exists_last_dot {filename : Bytes} (h : ch '.' ∈ filename) :
    ∃ front ext, filename = front ++ ch '.' :: ext ∧ ch '.' ∉ ext := by
  obtain ⟨ext, front, hreverse, hext⟩ := List.eq_append_cons_of_mem (List.mem_reverse.mpr h)
  refine ⟨front.reverse, ext.reverse, ?_, by simpa using hext⟩
  rw [← List.reverse_reverse filename, hreverse]
  simp

/-- A file has an extension when its name has a dot after the first character and
does not end in one. -/
theorem fileExt_ne_nil_iff (file : Location Bytes) :
    fileExt file ≠ [] ↔ HasExtension (file.names.getLast?.getD []) := by
  generalize hname : file.names.getLast?.getD [] = filename
  rw [fileExt_eq file filename hname, HasExtension]
  cases filename with
  | nil => simp
  | cons first tail =>
  by_cases hdot : ch '.' ∈ tail
  · obtain ⟨front, ext, rfl, hext⟩ := exists_last_dot hdot
    rw [← List.cons_append, afterDot_append hext, List.cons_append, List.tail_cons]
    have hlast : (first :: (front ++ ch '.' :: ext)).getLast? = some (ext.getLast?.getD (ch '.')) := by
      simp [List.getLast?_cons, List.getLast?_append]
    cases ext using List.reverseRecOn with
    | nil => simp [hlast]
    | append_singleton init last =>
        have hne : last ≠ ch '.' := by
          rintro rfl
          exact hext (by simp)
        have hdots : first :: (front ++ ch '.' :: (init ++ [last])) ≠ text ".." := by
          intro heq
          rw [heq] at hlast
          simp [text, hne.symm] at hlast
        rw [if_neg (not_or.mpr ⟨by simp; omega, hdots⟩), hlast]
        simp [hne]
  · -- at most the first character is a dot
    have hlength : (first :: tail).length ≤ (afterDot (first :: tail)).length + 1 := by
      by_cases hfirst : first = ch '.'
      · have hafter : afterDot ([] ++ ch '.' :: tail) = tail := afterDot_append hdot
        rw [hfirst, ← List.nil_append (ch '.' :: tail), hafter]
        rfl
      · rw [afterDot_of_notMem (by simp [Ne.symm hfirst, hdot])]
        exact Nat.le_succ _
    rw [if_pos (Or.inl hlength)]
    simp [hdot]

/-! ## Soundness of the list -/

variable {fs : WindowsFiles} {server : FileServer} {list : Bytes} {req : Request}

theorem isAllow_iff {file : Location Bytes} :
    isAllow (server.withExtList list) file = true ↔
      Words.Delimited (ch ' ') list (fileExt file) := by
  rw [isAllow, List.any_eq_true, ← Words.mem_splitOn_iff]
  constructor
  · intro h
    obtain ⟨word, hword, heq⟩ := h
    rw [beq_iff_eq] at heq
    exact heq ▸ hword
  · intro h
    exact ⟨fileExt file, h, beq_self_eq_true _⟩

/-- The list admits only its non-empty words exactly when it has no empty word or
the file that could be served has an extension. -/
theorem servesListed_iff (fs : WindowsFiles) (server : FileServer) (list : Bytes)
    (req : Request) :
    ServesListed fs server list req ↔
      ¬HasEmptyWord list ∨
        ∀ root file, Fetchable fs server req root file →
          HasExtension (file.names.getLast?.getD []) := by
  constructor
  · intro h
    rw [or_iff_not_imp_left, not_not]
    intro hempty root file hfetch
    by_contra hbare
    have hext : fileExt file = [] := by
      by_contra hne
      exact hbare ((fileExt_ne_nil_iff file).mp hne)
    -- the empty word admits the file
    have hallow : isAllow (server.withExtList list) file = true := by
      rw [isAllow_iff, hext, ← Words.mem_splitOn_iff]
      exact Words.nil_mem_splitOn_iff.mpr hempty
    have hservable : Servable fs (server.withExtList list) req file :=
      ⟨hfetch.method, hfetch.target, hfetch.resolved, hallow, hfetch.readable⟩
    have hroot : canonical fs (server.withExtList list).docRoot = .ok root := hfetch.rootPath
    obtain ⟨content, -, hhandled⟩ := handleRequest_of_servable hroot hservable hfetch.relative
    obtain ⟨served, hopened, hne, -⟩ := h (by rw [hhandled]; rfl)
    rw [hhandled] at hopened
    obtain rfl := Option.some.inj hopened
    exact hne hext
  · intro h hok
    obtain ⟨root, file, hroot, hservable, hdots, hopened⟩ := servable_of_ok hok
    have hword := isAllow_iff.mp hservable.allowed
    refine ⟨file, hopened, ?_, hword⟩
    rcases h with hfull | hnamed
    · intro hext
      rw [hext, ← Words.mem_splitOn_iff] at hword
      exact hfull (Words.nil_mem_splitOn_iff.mp hword)
    · exact (fileExt_ne_nil_iff file).mpr (hnamed root file
        ⟨hservable.method, hservable.target, hroot, hservable.resolved, hdots,
          hservable.readable⟩)

/-- `C:\html` has a file without an extension and one whose name ends in a dot. -/
def bareFiles : WindowsFiles :=
  .ofTable [text "C:"]
    [(⟨text "C:", [text "html"]⟩, .directory),
      (⟨text "C:", [text "html", text "README"]⟩, .file (.ok (text "read me"))),
      (⟨text "C:", [text "html", text "notes."]⟩, .file (.ok (text "notes")))]
    ⟨text "C:", []⟩ 63

/-- With a space after its last word the list admits both files. -/
theorem not_servesListed_trailingSpace :
    ¬ServesListed bareFiles htmlServer (text "html ") { target := text "/README" } ∧
      ¬ServesListed bareFiles htmlServer (text "html ") { target := text "/notes." } := by
  constructor
  · intro h
    obtain ⟨file, hopened, hext, -⟩ := h (by decide)
    have hfile : (handleRequest bareFiles (htmlServer.withExtList (text "html "))
        { target := text "/README" }).opened = some ⟨text "C:", [text "html", text "README"]⟩ := by
      decide
    obtain rfl := Option.some.inj (hfile.symm.trans hopened)
    exact hext (by decide)
  · intro h
    obtain ⟨file, hopened, hext, -⟩ := h (by decide)
    have hfile : (handleRequest bareFiles (htmlServer.withExtList (text "html "))
        { target := text "/notes." }).opened = some ⟨text "C:", [text "html", text "notes."]⟩ := by
      decide
    obtain rfl := Option.some.inj (hfile.symm.trans hopened)
    exact hext (by decide)

end Vorze.EmbedWeb
