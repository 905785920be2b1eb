import Vorze.EmbedWeb.HandleRequest

/-! # Files are served from below the document root

The check of the relative path keeps a request inside the document root as long
as the file is on the same root name. Between two root names there is no
relative path, and its empty text passes.
-/

namespace Vorze.EmbedWeb

open Files

/-- If the answer is 200, the file that was opened is below the document root. -/
def ServesBelowRoot (fs : WindowsFiles) (server : FileServer) (req : Request) : Prop :=
  (handleRequest fs server req).response.result = .ok →
    ∃ root file, canonical fs server.docRoot = .ok root ∧
      (handleRequest fs server req).opened = some file ∧ file.Below root

/-- A file that would be served is on the root name of the document root, and it
is not the document root itself. -/
def StaysOnRoot (fs : WindowsFiles) (server : FileServer) (req : Request) : Prop :=
  ∀ root file, canonical fs server.docRoot = .ok root → Servable fs server req file →
    file.root = root.root ∧ file ≠ root

/-- Without a step up at its beginning, a relative path on one root leads down. -/
theorem below_of_dots {root file : Location Bytes} (hroot : file.root = root.root)
    (hne : file ≠ root) (hdots : contains (text "..")
      (genericString (FileSystem.lexicallyRelative file root)) = false) : file.Below root := by
  refine ⟨hroot, FileSystem.prefix_of_lexicallyRelative hroot ?_, hne⟩
  intro hup
  rw [contains_dots_of_head? hup] at hdots
  cases hdots

/-- What the check misses: a file on another root name, and the root itself. -/
theorem dots_of_not_staying {root file : Location Bytes}
    (h : ¬(file.root = root.root ∧ file ≠ root)) :
    contains (text "..") (genericString (FileSystem.lexicallyRelative file root)) = false := by
  by_cases hroot : file.root = root.root
  · have hsame : file = root := by
      by_contra hne
      exact h ⟨hroot, hne⟩
    rw [hsame, FileSystem.lexicallyRelative_self]
    decide
  · rw [FileSystem.lexicallyRelative_of_ne hroot]
    decide

/-- A request is served from below the document root exactly when no servable
file is on another root name or the document root itself. -/
theorem servesBelowRoot_iff (fs : WindowsFiles) (server : FileServer) (req : Request) :
    ServesBelowRoot fs server req ↔ StaysOnRoot fs server req := by
  constructor
  · -- a servable file that leaves the root passes the check and is served
    intro h root file hroot hservable
    by_contra hleaves
    obtain ⟨content, -, hhandled⟩ :=
      handleRequest_of_servable hroot hservable (dots_of_not_staying hleaves)
    obtain ⟨root', file', hroot', hopened, hbelow⟩ := h (by rw [hhandled]; rfl)
    obtain rfl := Except.ok.inj (hroot.symm.trans hroot')
    rw [hhandled] at hopened
    obtain rfl := Option.some.inj hopened
    exact hleaves ⟨hbelow.1, hbelow.2.2⟩
  · intro h hok
    obtain ⟨root, file, hroot, hservable, hdots, hopened⟩ := servable_of_ok hok
    obtain ⟨hsame, hne⟩ := h root file hroot hservable
    exact ⟨root, file, hroot, hopened, below_of_dots hsame hne hdots⟩

/-! ## A junction to another drive -/

/-- `C:\html\d` leads to `D:\data`. -/
def twoDrives : WindowsFiles :=
  .ofTable [text "C:", text "D:"]
    [(⟨text "C:", [text "html"]⟩, .directory),
      (⟨text "C:", [text "html", text "d"]⟩, .link (parsePath (text "D:\\data"))),
      (⟨text "D:", [text "data"]⟩, .directory),
      (⟨text "D:", [text "data", text "secret.html"]⟩, .file (.ok (text "secret")))]
    ⟨text "C:", []⟩ 63

/-- The file on the other drive is served. -/
theorem not_servesBelowRoot_junction :
    ¬ServesBelowRoot twoDrives htmlServer { target := text "/d/secret.html" } := by
  intro h
  obtain ⟨root, file, hroot, hopened, hsame, -⟩ := h (by decide)
  have hrootIs : canonical twoDrives htmlServer.docRoot =
      .ok ⟨text "C:", [text "html"]⟩ := by rfl
  have hfileIs : (handleRequest twoDrives htmlServer { target := text "/d/secret.html" }).opened =
      some ⟨text "D:", [text "data", text "secret.html"]⟩ := by decide
  obtain rfl := Except.ok.inj (hrootIs.symm.trans hroot)
  obtain rfl := Option.some.inj (hfileIs.symm.trans hopened)
  exact absurd hsame (by decide)

end Vorze.EmbedWeb
