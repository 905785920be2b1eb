import Vorze.EmbedWeb.Exchange

/-! # First and last characters

`handle_request` reads the first or the last character of the target, of the
document root, of the target without its query and of the extension of the
resolved file. Only the last one may be empty.
-/

namespace Vorze.EmbedWeb

open Files

/-- The strings whose first or last character is read for one request, in order. -/
def accessed (server : FileServer) (req : Request) (answers : FileAnswers) : List Bytes :=
  handleWith (fun _ strings => strings) (fun string strings => strings ++ [string]) server req
    answers []

/-- The path check comes as far as the extension of the file. -/
structure BlockReaches (answers : FileAnswers) (file : Location Bytes) : Prop where
  rootPath : ∃ root, answers.rootPath = .ok root
  filePath : answers.filePath = .ok file
  relCheckString : ∃ rel, answers.relCheckString = some rel ∧ contains (text "..") rel = false
  isSymlink : answers.isSymlink = .ok false
  extensionReturns : answers.extensionThrows = false

/-- A request with which `handle_request` comes as far as the extension of the file. -/
structure ReachesExtension (req : Request) (answers : FileAnswers) (file : Location Bytes) :
    Prop extends BlockReaches answers file where
  method : req.method = .get ∨ req.method = .head
  target : legalTarget req.target = true

variable {server : FileServer} {req : Request} {answers : FileAnswers}

theorem accessed_eq : accessed server req answers = readsOf server req answers := by
  have happend : ∀ strings done : List Bytes,
      touchAll (fun string done => done ++ [string]) strings done = done ++ strings := by
    intro strings
    induction strings with
    | nil => simp [touchAll]
    | cons string rest ih =>
        intro done
        simpa [touchAll] using ih (done ++ [string])
  rw [accessed, handleWith_eq, happend, List.nil_append]

/-- The extension is read exactly when the path check comes as far as that. -/
theorem mem_extensionRead_iff {string : Bytes} :
    string ∈ extensionRead answers ↔
      ∃ file, BlockReaches answers file ∧ extension (file.names.getLast?.getD []) = string := by
  constructor
  · intro h
    unfold extensionRead at h
    split at h
    next root file rel hroot hfile hrel hlink =>
      split at h
      next => cases h
      next hgoes =>
        obtain ⟨hdots, hthrows⟩ := Bool.or_eq_false_iff.mp (Bool.not_eq_true _ |>.mp hgoes)
        exact ⟨file, ⟨⟨root, hroot⟩, hfile, ⟨rel, hrel, hdots⟩, hlink, hthrows⟩,
          (List.mem_singleton.mp h).symm⟩
    next => cases h
  · intro h
    obtain ⟨file, ⟨⟨root, hroot⟩, hfile, ⟨rel, hrel, hdots⟩, hlink, hreturns⟩, rfl⟩ := h
    simp only [extensionRead, hroot, hfile, hrel, hlink, hdots, hreturns, Bool.or_self,
      Bool.false_eq_true, if_false]
    exact List.mem_cons_self

/-! ## The strings that are read -/

/-- A legal target starts with a slash, with or without its query. -/
theorem stripQuery_ne_nil {target : Bytes} (h : legalTarget target = true) :
    stripQuery target ≠ [] := by
  simp only [legalTarget, Bool.not_eq_true', Bool.or_eq_false_iff] at h
  obtain ⟨⟨-, hslash⟩, -⟩ := h
  cases target with
  | nil => cases hslash
  | cons first rest =>
      have hfirst : first = ch '/' := by simpa using hslash
      subst hfirst
      simp [stripQuery, ch]

theorem ne_nil_of_legalTarget {target : Bytes} (h : legalTarget target = true) : target ≠ [] := by
  intro hempty
  rw [hempty] at h
  cases h

theorem earlyReads_ne_nil {target : Bytes} (h : legalTarget target = true) :
    ∀ string ∈ earlyReads server target, string ≠ [] := by
  by_cases hdoc : server.docRoot.isEmpty = true
  · simp [earlyReads, hdoc, stripQuery_ne_nil h, ne_nil_of_legalTarget h]
  · have hroot : server.docRoot ≠ [] := by simpa using hdoc
    simp [earlyReads, hdoc, hroot, stripQuery_ne_nil h, ne_nil_of_legalTarget h]

/-- Only the extension may be empty. -/
theorem nil_mem_readsOf_iff :
    [] ∈ readsOf server req answers ↔
      (req.method = .get ∨ req.method = .head) ∧ legalTarget req.target = true ∧
        [] ∈ extensionRead answers := by
  unfold readsOf
  by_cases hmethod : req.method = .get ∨ req.method = .head
  · have hknown : ¬(req.method ≠ .get ∧ req.method ≠ .head) := by
      intro h
      exact hmethod.elim h.1 h.2
    rw [if_neg hknown]
    by_cases htarget : legalTarget req.target = true
    · have hearly : [] ∉ earlyReads server req.target := fun h => earlyReads_ne_nil htarget [] h rfl
      simp [htarget, hmethod, hearly]
    · rw [if_pos (by simpa using htarget)]
      by_cases hempty : req.target.isEmpty = true
      · simp [hempty, htarget]
      · have hne : req.target ≠ [] := by simpa using hempty
        simp [hempty, htarget, hne.symm]
  · rw [if_pos (not_or.mp hmethod)]
    simp [hmethod]

/-- Only non-empty strings are asked for a character exactly when the path check
never comes as far as a file without an extension. -/
theorem accessed_nonempty_iff (server : FileServer) (req : Request) (answers : FileAnswers) :
    (∀ string ∈ accessed server req answers, string ≠ []) ↔
      ∀ file, ReachesExtension req answers file →
        extension (file.names.getLast?.getD []) ≠ [] := by
  rw [accessed_eq]
  constructor
  · intro h file hreaches hbare
    refine h [] ?_ rfl
    rw [nil_mem_readsOf_iff, mem_extensionRead_iff]
    exact ⟨hreaches.method, hreaches.target, file, hreaches.toBlockReaches, hbare⟩
  · intro h string hread hnil
    rw [hnil, nil_mem_readsOf_iff, mem_extensionRead_iff] at hread
    obtain ⟨hmethod, htarget, file, hblock, hbare⟩ := hread
    exact h file { hblock with method := hmethod, target := htarget } hbare

/-! ## On a file system that does not change -/

theorem ofExcept_eq_ok_iff {ε Value : Type} {answer : Except ε Value} {value : Value} :
    Answer.ofExcept answer = .ok value ↔ answer = .ok value := by
  cases answer <;> simp [Answer.ofExcept]

/-- The extension is reached for the file the target resolves to, when the
relative path shows no `..`. -/
theorem reachesExtension_answersOf {fs : WindowsFiles} {file : Location Bytes} :
    ReachesExtension req (answersOf fs server req) file ↔
      (req.method = .get ∨ req.method = .head) ∧ legalTarget req.target = true ∧
        ∃ root, canonical fs server.docRoot = .ok root ∧
          canonical fs (requestedPath server req.target) = .ok file ∧
          contains (text "..") (genericString (FileSystem.lexicallyRelative file root)) = false := by
  constructor
  · intro h
    obtain ⟨⟨⟨root, hroot⟩, hfile, ⟨rel, hrel, hdots⟩, -, -⟩, hmethod, htarget⟩ := h
    have hrootIs := ofExcept_eq_ok_iff.mp hroot
    have hfileIs := ofExcept_eq_ok_iff.mp hfile
    simp only [answersOf, hrootIs, hfileIs, relative_of_canonical hfileIs hrootIs,
      Except.toOption, Option.map_some, Option.some.injEq] at hrel
    exact ⟨hmethod, htarget, root, hrootIs, hfileIs, hrel ▸ hdots⟩
  · intro h
    obtain ⟨hmethod, htarget, root, hroot, hfile, hdots⟩ := h
    obtain ⟨node, hnode, hlink⟩ := (FileSystem.resolve_real (canonical_eq_ok hfile)).node
    refine ⟨⟨⟨root, ofExcept_eq_ok_iff.mpr hroot⟩, ofExcept_eq_ok_iff.mpr hfile,
      ⟨_, ?_, hdots⟩, ?_, rfl⟩, hmethod, htarget⟩
    · simp only [answersOf, hroot, hfile, relative_of_canonical hfile hroot, Except.toOption,
        Option.map_some]
    · cases node with
      | link target => exact absurd rfl (hlink target)
      | directory | file data => simp only [answersOf, hfile, Except.toOption, Option.bind_some, hnode]

/-- `C:\html` has a file without an extension. -/
def readmeFiles : WindowsFiles :=
  .ofTable [text "C:"]
    [(⟨text "C:", [text "html"]⟩, .directory),
      (⟨text "C:", [text "html", text "README"]⟩, .file (.ok (text "read me")))]
    ⟨text "C:", []⟩ 63

/-- The extension of the file is empty when its first character is read. -/
theorem not_accessed_nonempty_readme :
    ¬∀ string ∈ accessed htmlServer { target := text "/README" }
        (answersOf readmeFiles htmlServer { target := text "/README" }), string ≠ [] := by
  decide

end Vorze.EmbedWeb
