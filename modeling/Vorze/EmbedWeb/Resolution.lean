import Vorze.EmbedWeb.HandleRequest

/-! # What the resolved path no longer shows

The requested path is resolved before the other checks look at it. A link at its
end has been followed by then, so the test for links never meets one, and a path
that leads nowhere is refused before a file is opened.
-/

namespace Vorze.EmbedWeb

open Files

variable {fs : WindowsFiles} {server : FileServer} {req : Request}

/-! ## Links -/

/-- The link that the last component of a path string is. After a separator the
last component is empty. -/
def lastLink (fs : WindowsFiles) (path : Bytes) : Option (Location Bytes × Path Bytes) :=
  if path.getLast?.any isSlash then none else fs.lastLink (parsePath path)

/-- A request for a path that ends with a link is not answered with 200. -/
def RefusesLinks (fs : WindowsFiles) (server : FileServer) (req : Request) : Prop :=
  (lastLink fs (requestedPath server req.target)).isSome = true →
    (handleRequest fs server req).response.result ≠ .ok

/-- A link in a directory leads to a readable file of an allowed extension whose
relative path from the document root shows no `..`. -/
def LeadsToAllowed (fs : WindowsFiles) (server : FileServer) (dir : Location Bytes)
    (target : Path Bytes) : Prop :=
  ∃ root file, canonical fs server.docRoot = .ok root ∧
    fs.resolve (fs.linkLimit - 1) dir target = .ok file ∧ isAllow server file = true ∧
    (∃ content, fs.node file = some (.file (.ok content))) ∧
    contains (text "..") (genericString (FileSystem.lexicallyRelative file root)) = false

/-- What a path string that does not end with a separator leads to. -/
theorem canonical_of_name {path : Bytes} (hempty : path ≠ [])
    (hslash : ¬path.getLast?.any isSlash = true) :
    canonical fs path = fs.canonical (parsePath path) := by
  rw [canonical, if_neg (by simpa using hempty)]
  cases hloc : fs.canonical (parsePath path) with
  | error e => rfl
  | ok loc =>
      simp only [Except.bind, if_neg hslash]
      split <;> rfl

/-- A path string that ends with a link leads where the link leads. -/
theorem canonical_of_lastLink {path : Bytes} {dir : Location Bytes} {target : Path Bytes}
    (h : lastLink fs path = some (dir, target)) :
    canonical fs path = fs.resolve (fs.linkLimit - 1) dir target := by
  unfold lastLink at h
  split at h
  next => cases h
  next hslash =>
    have hempty : path ≠ [] := by
      rintro rfl
      cases h
    rw [canonical_of_name hempty hslash, FileSystem.canonical_of_lastLink h]

/-- The test for links comes too late: a resolved path is not one. -/
theorem node_ne_link {path : Bytes} {file : Location Bytes}
    (hfile : canonical fs path = .ok file) (target : Path Bytes) :
    fs.node file ≠ some (.link target) := by
  obtain ⟨node, hnode, hlink⟩ := (FileSystem.resolve_real (canonical_eq_ok hfile)).node
  rw [hnode]
  exact fun heq => hlink target (Option.some.inj heq)

/-- A link is refused exactly when the request is refused anyway or what the link
leads to would be. -/
theorem refusesLinks_iff (fs : WindowsFiles) (server : FileServer) (req : Request) :
    RefusesLinks fs server req ↔
      ((req.method = .get ∨ req.method = .head) → legalTarget req.target = true →
        ∀ dir target, lastLink fs (requestedPath server req.target) = some (dir, target) →
          ¬LeadsToAllowed fs server dir target) := by
  constructor
  · rintro hrefuses hmethod htarget dir target hlink
      ⟨root, file, hroot, hleads, hallowed, hreadable, hdots⟩
    have hservable : Servable fs server req file :=
      ⟨hmethod, htarget, (canonical_of_lastLink hlink).trans hleads, hallowed, hreadable⟩
    obtain ⟨content, -, hhandled⟩ := handleRequest_of_servable hroot hservable hdots
    exact hrefuses (by rw [hlink]; rfl) (by rw [hhandled]; rfl)
  · intro h hlink hok
    obtain ⟨⟨dir, target⟩, hlink⟩ := Option.isSome_iff_exists.mp hlink
    obtain ⟨root, file, hroot, hservable, hdots, -⟩ := servable_of_ok hok
    have hleads := (canonical_of_lastLink hlink).symm.trans hservable.resolved
    exact h hservable.method hservable.target dir target hlink
      ⟨root, file, hroot, hleads, hservable.allowed, hservable.readable, hdots⟩

/-- `C:\html\a.html` is a link to `C:\html\b.html`. -/
def linkedFiles : WindowsFiles :=
  .ofTable [text "C:"]
    [(⟨text "C:", [text "html"]⟩, .directory),
      (⟨text "C:", [text "html", text "a.html"]⟩, .link (parsePath (text "C:\\html\\b.html"))),
      (⟨text "C:", [text "html", text "b.html"]⟩, .file (.ok (text "b")))]
    ⟨text "C:", []⟩ 63

/-- The link is followed and its target sent. -/
theorem not_refusesLinks_allowed :
    ¬RefusesLinks linkedFiles htmlServer { target := text "/a.html" } := by
  intro h
  exact h (by decide) (by decide)

/-! ## Missing files -/

/-- Something is there at the path. -/
def Exists (fs : WindowsFiles) (path : Bytes) : Prop := ∃ loc, canonical fs path = .ok loc

/-- The answer is 404 exactly when nothing is there at the requested path. -/
def ReportsMissing (fs : WindowsFiles) (server : FileServer) (req : Request) : Prop :=
  (handleRequest fs server req).response.result = .notFound ↔
    ¬Exists fs (requestedPath server req.target)

/-- Opening what is at a place fails: the file says so, or it is a directory. -/
inductive OpenFails (fs : WindowsFiles) (file : Location Bytes) : ErrorCode → Prop
  | file {ec : ErrorCode} (hnode : fs.node file = some (.file (.error ec))) : OpenFails fs file ec
  | directory (hnode : fs.node file = some .directory) : OpenFails fs file accessDenied

/-- What is at the place passes the path check, and the error with which opening it
fails counts as a file that is not there. -/
def OpensAsMissing (fs : WindowsFiles) (server : FileServer) (root file : Location Bytes) : Prop :=
  contains (text "..") (genericString (FileSystem.lexicallyRelative file root)) = false ∧
    isAllow server file = true ∧ ∃ ec, OpenFails fs file ec ∧ server.isNoSuchFile ec = true

/-- What a path leads to is the only thing that can keep it from being opened. -/
theorem openFile_eq_error_iff {path : Bytes} {file : Location Bytes} {ec : ErrorCode}
    (hfile : canonical fs path = .ok file) :
    openFile fs path = .error ec ↔ OpenFails fs file ec := by
  obtain ⟨node, hnode, -⟩ := (FileSystem.resolve_real (canonical_eq_ok hfile)).node
  have hopen : OpenFails fs file ec ↔
      node = .file (.error ec) ∨ node = .directory ∧ ec = accessDenied := by
    constructor
    · rintro (hfails | hfails)
      · exact Or.inl (Option.some.inj (hnode.symm.trans hfails))
      · exact Or.inr ⟨Option.some.inj (hnode.symm.trans hfails), rfl⟩
    · rintro (rfl | ⟨rfl, rfl⟩)
      · exact .file hnode
      · exact .directory hnode
  rw [hopen]
  simp only [openFile, hfile, hnode]
  cases node with
  | directory => simp [eq_comm]
  | link target => exact absurd hnode (node_ne_link hfile target)
  | file data => cases data <;> simp [Except.map]

/-- The only way to an answer of 404. -/
theorem result_notFound_iff {root : Location Bytes}
    (hmethod : req.method = .get ∨ req.method = .head) (htarget : legalTarget req.target = true)
    (hroot : canonical fs server.docRoot = .ok root) :
    (handleRequest fs server req).response.result = .notFound ↔
      ∃ file, canonical fs (requestedPath server req.target) = .ok file ∧
        OpensAsMissing fs server root file := by
  have hknown : ¬(req.method ≠ .get ∧ req.method ≠ .head) := by
    rintro ⟨hget, hhead⟩
    exact hmethod.elim hget hhead
  rw [handleRequest, if_neg hknown, htarget]
  simp only [Bool.not_true, Bool.false_eq_true, ↓reduceIte]
  constructor
  · intro h
    cases hcheck : checkPath fs server (requestedPath server req.target) with
    | error why =>
        rw [hcheck] at h
        cases h
    | ok =>
        obtain ⟨root', file, hroot', hfile, hdots, hallow⟩ := checkPath_eq_ok_iff.mp hcheck
        obtain rfl := Except.ok.inj (hroot.symm.trans hroot')
        refine ⟨file, hfile, hdots, hallow, ?_⟩
        rw [hcheck] at h
        cases hopen : openFile fs (requestedPath server req.target) with
        | ok opened =>
            simp only [hopen] at h
            cases h
        | error ec =>
            simp only [hopen] at h
            split at h
            next hec => exact ⟨ec, (openFile_eq_error_iff hfile).mp hopen, hec⟩
            next => cases h
  · rintro ⟨file, hfile, hdots, hallow, ec, hfails, hec⟩
    have hcheck : checkPath fs server (requestedPath server req.target) = .ok () :=
      checkPath_eq_ok_iff.mpr ⟨root, file, hroot, hfile, hdots, hallow⟩
    have hopen := (openFile_eq_error_iff hfile).mpr hfails
    simp only [hcheck, hopen, if_pos hec]
    rfl

/-- A missing file is answered with 404 on no request; what is there is not, unless
it passes the path check and then counts as missing when it is opened. -/
theorem reportsMissing_iff (fs : WindowsFiles) (server : FileServer) (req : Request)
    (root : Location Bytes) (hmethod : req.method = .get ∨ req.method = .head)
    (htarget : legalTarget req.target = true)
    (hroot : canonical fs server.docRoot = .ok root) :
    ReportsMissing fs server req ↔
      ∃ file, canonical fs (requestedPath server req.target) = .ok file ∧
        ¬OpensAsMissing fs server root file := by
  rw [ReportsMissing, result_notFound_iff hmethod htarget hroot]
  cases hfile : canonical fs (requestedPath server req.target) with
  | error e => simp [Exists, hfile]
  | ok file => simp [Exists, hfile]

theorem reportsMissing_linkedFiles :
    ReportsMissing linkedFiles htmlServer { target := text "/b.html" } := by
  refine (reportsMissing_iff linkedFiles htmlServer { target := text "/b.html" }
    ⟨text "C:", [text "html"]⟩ (Or.inl rfl) (by decide) rfl).mpr
      ⟨⟨text "C:", [text "html", text "b.html"]⟩, rfl, ?_⟩
  rintro ⟨-, -, ec, hfails, -⟩
  have hfile : linkedFiles.node ⟨text "C:", [text "html", text "b.html"]⟩ =
      some (.file (.ok (text "b"))) := rfl
  cases hfails with
  | file hnode | directory hnode =>
      rw [hfile] at hnode
      cases hnode

/-- A file that is not there is a bad request. -/
theorem not_reportsMissing_missing :
    ¬ReportsMissing linkedFiles htmlServer { target := text "/missing.html" } := by
  intro h
  have hmissing : ¬Exists linkedFiles (requestedPath htmlServer (text "/missing.html")) := by
    rintro ⟨loc, hloc⟩
    have herror : canonical linkedFiles (requestedPath htmlServer (text "/missing.html")) =
        .error .notFound := by rfl
    rw [herror] at hloc
    cases hloc
  exact absurd (h.mpr hmissing) (by decide)

end Vorze.EmbedWeb
