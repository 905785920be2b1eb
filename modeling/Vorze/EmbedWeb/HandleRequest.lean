import Vorze.EmbedWeb.Path
import Vorze.Serial.ErrorInfo
import Vorze.Web.Message

/-! # Requests for files

`handle_request` of the embedded web server on a file system that does not
change meanwhile. `std::filesystem` and the opening of the file read the same
path string and find the same file.
-/

namespace Vorze.EmbedWeb

open Files

/-- Opening a file gives its content or fails. -/
abbrev WindowsFiles := FileSystem Bytes (Except ErrorCode Bytes)

/-- The arguments of `handle_request` that the session was configured with, the name
Beast gives itself, and the error codes of the system that compare equal to
`errc::no_such_file_or_directory`: file not found and path not found. -/
structure FileServer where
  docRoot : Bytes
  indexFileOfRoot : Bytes
  allowFileExtList : List Bytes
  beastVersion : Bytes := text "Boost.Beast"
  noSuchFileCodes : List Nat := [2, 3]
  deriving DecidableEq, Repr

/-- `ec == errc::no_such_file_or_directory`. -/
def FileServer.isNoSuchFile (server : FileServer) (ec : ErrorCode) : Bool :=
  server.noSuchFileCodes.contains ec.value

/-- A server of the HTML files below `C:\html`. -/
def htmlServer : FileServer where
  docRoot := text "C:\\html"
  indexFileOfRoot := text "index.html"
  allowFileExtList := [text "html"]

/-! ## The file system as the code asks it -/

/-- `canonical` of a path string. The empty path does not exist, and a path that
ends with a separator can only lead to a directory. -/
def canonical (fs : WindowsFiles) (path : Bytes) : Except ResolveError (Location Bytes) :=
  if path.isEmpty then .error .notFound
  else
    (fs.canonical (parsePath path)).bind fun loc =>
      match fs.node loc with
      | some (.file _) => if path.getLast?.any isSlash then .error .notFound else .ok loc
      | _ => .ok loc

def noSuchFile : ErrorCode := ⟨2, text "The system cannot find the file specified"⟩

def accessDenied : ErrorCode := ⟨5, text "Access is denied"⟩

def cantResolve : ErrorCode := ⟨1921, text "The name of the file cannot be resolved by the system"⟩

/-- `body.open`, with the place of the file that was opened. -/
def openFile (fs : WindowsFiles) (path : Bytes) : Except ErrorCode (Location Bytes × Bytes) :=
  match canonical fs path with
  | .error .notFound => .error noSuchFile
  | .error .tooManyLinks => .error cantResolve
  | .ok loc =>
      match fs.node loc with
      | some (.file content) => content.map fun data => (loc, data)
      | some .directory => .error accessDenied
      | some (.link _) => .error cantResolve
      | none => .error noSuchFile

/-! ## The checks -/

/-- The target is absolute and does not contain `..`. -/
def legalTarget (target : Bytes) : Bool :=
  !(target.isEmpty || target.head? != some (ch '/') || contains (text "..") target)

/-- `substr(0, find("?"))`. -/
def stripQuery (target : Bytes) : Bytes := target.takeWhile (· != ch '?')

/-- The path to the requested file. -/
def requestedPath (server : FileServer) (target : Bytes) : Bytes :=
  let reqString := stripQuery target
  let path := pathCat server.docRoot reqString
  if reqString.getLast? = some (ch '/') then path ++ server.indexFileOfRoot else path

/-- The extension without its dot. -/
def fileExt (file : Location Bytes) : Bytes :=
  let ext := extension (file.names.getLast?.getD [])
  if ext.head? = some (ch '.') then ext.tail else ext

def isAllow (server : FileServer) (file : Location Bytes) : Bool :=
  server.allowFileExtList.any (fileExt file == ·)

/-- The path check, with the reason it gives when it refuses. -/
def checkPath (fs : WindowsFiles) (server : FileServer) (path : Bytes) : Except Bytes Unit :=
  match canonical fs server.docRoot with
  | .error _ => .error (text "Illegal request-target 2.1")
  | .ok rootPath =>
      match canonical fs path with
      | .error _ => .error (text "Illegal request-target 2.2")
      | .ok filePath =>
          match fs.relative filePath rootPath with
          -- `relative` throws
          | .error _ => .error (text "Illegal request-target 4")
          | .ok rel =>
              if contains (text "..") (genericString rel) then
                .error (text "Illegal request-target 2")
              else
                match fs.node filePath with
                | some (.link _) => .error (text "Illegal request-target 3")
                | none => .error (text "Illegal request-target 2.3")
                | some _ =>
                    if isAllow server filePath then .ok ()
                    else .error (text "Illegal request-target 2.4")

/-! ## The responses -/

/-- `prepare_payload` of a response with a string body. -/
def textResponse (server : FileServer) (req : Request) (result : Status) (body : Bytes) :
    Response :=
  ((({ version := req.version, result := result, keepAlive := req.keepAlive, body := body } :
    Response).set .server server.beastVersion).set .contentType (text "text/html")).set
      .contentLength (decimal body.length)

def badRequest (server : FileServer) (req : Request) (why : Bytes) : Response :=
  textResponse server req .badRequest why

def notFound (server : FileServer) (req : Request) (target : Bytes) : Response :=
  textResponse server req .notFound
    (text "The resource '" ++ target ++ text "' was not found.")

def serverError (server : FileServer) (req : Request) (what : Bytes) : Response :=
  textResponse server req .internalServerError
    (text "An error occurred: '" ++ what ++ text "'")

/-- A file is sent with its body, or described without it. -/
def fileResponse (server : FileServer) (req : Request) (path content : Bytes) : Response :=
  ((({ version := req.version, result := .ok, keepAlive := req.keepAlive
       body := if req.method = .head then [] else content } :
    Response).set .server server.beastVersion).set .contentType (mimeType path)).set
      .contentLength (decimal content.length)

/-- A response, and the file it was made from if one was opened. -/
structure Handled where
  response : Response
  opened : Option (Location Bytes)
  deriving DecidableEq, Repr

def handleRequest (fs : WindowsFiles) (server : FileServer) (req : Request) : Handled :=
  if req.method ≠ .get ∧ req.method ≠ .head then
    ⟨badRequest server req (text "Unknown HTTP-method"), none⟩
  else if !legalTarget req.target then
    ⟨badRequest server req (text "Illegal request-target"), none⟩
  else
    let path := requestedPath server req.target
    match checkPath fs server path with
    | .error why => ⟨badRequest server req why, none⟩
    | .ok () =>
        match openFile fs path with
        | .ok (file, content) => ⟨fileResponse server req path content, some file⟩
        | .error ec =>
            if server.isNoSuchFile ec then ⟨notFound server req req.target, none⟩
            else ⟨serverError server req ec.message, none⟩

/-! ## What an answer of 200 means -/

theorem canonical_eq_ok {fs : WindowsFiles} {path : Bytes} {loc : Location Bytes}
    (h : canonical fs path = .ok loc) : fs.canonical (parsePath path) = .ok loc := by
  unfold canonical at h
  split at h
  next => cases h
  next =>
    cases hcanonical : fs.canonical (parsePath path) with
    | error e => simp [hcanonical, Except.bind] at h
    | ok found =>
        simp only [hcanonical, Except.bind] at h
        split at h
        next =>
          split at h
          next => cases h
          next => exact h
        next => exact h

/-- The relative path of the check is the lexical one. -/
theorem relative_of_canonical {fs : WindowsFiles} {path rootPath : Bytes}
    {loc root : Location Bytes} (hloc : canonical fs path = .ok loc)
    (hroot : canonical fs rootPath = .ok root) :
    fs.relative loc root = .ok (FileSystem.lexicallyRelative loc root) :=
  FileSystem.relative_canonical (canonical_eq_ok hloc) (canonical_eq_ok hroot)

/-- Everything but the relative path speaks for serving the file. -/
structure Servable (fs : WindowsFiles) (server : FileServer) (req : Request)
    (file : Location Bytes) : Prop where
  method : req.method = .get ∨ req.method = .head
  target : legalTarget req.target = true
  resolved : canonical fs (requestedPath server req.target) = .ok file
  allowed : isAllow server file = true
  readable : ∃ content, fs.node file = some (.file (.ok content))

theorem openFile_eq_ok_iff {fs : WindowsFiles} {path : Bytes} {loc : Location Bytes}
    {content : Bytes} :
    openFile fs path = .ok (loc, content) ↔
      canonical fs path = .ok loc ∧ fs.node loc = some (.file (.ok content)) := by
  unfold openFile
  cases hpath : canonical fs path with
  | error e => cases e <;> simp
  | ok place =>
      simp only [Except.ok.injEq]
      cases hnode : fs.node place with
      | none =>
          refine iff_of_false (by simp) ?_
          rintro ⟨rfl, hfile⟩
          rw [hnode] at hfile
          cases hfile
      | some node =>
          cases node with
          | directory | link target =>
              refine iff_of_false (by simp) ?_
              rintro ⟨rfl, hfile⟩
              rw [hnode] at hfile
              cases hfile
          | file data =>
              cases data with
              | error ec =>
                  refine iff_of_false (by simp [Except.map]) ?_
                  rintro ⟨rfl, hfile⟩
                  rw [hnode] at hfile
                  cases hfile
              | ok data =>
                  simp only [Except.map, Except.ok.injEq, Prod.mk.injEq]
                  constructor
                  · rintro ⟨rfl, rfl⟩
                    exact ⟨rfl, hnode⟩
                  · rintro ⟨rfl, hfile⟩
                    rw [hnode] at hfile
                    exact ⟨rfl, by simpa using hfile⟩

/-- The path check passes exactly when both paths resolve, the relative path
shows no `..` and the extension is allowed; a resolved path is never a link. -/
theorem checkPath_eq_ok_iff {fs : WindowsFiles} {server : FileServer} {path : Bytes} :
    checkPath fs server path = .ok () ↔
      ∃ root file, canonical fs server.docRoot = .ok root ∧ canonical fs path = .ok file ∧
        contains (text "..") (genericString (FileSystem.lexicallyRelative file root)) = false ∧
        isAllow server file = true := by
  unfold checkPath
  cases hroot : canonical fs server.docRoot with
  | error e => simp
  | ok root =>
      cases hfile : canonical fs path with
      | error e => simp
      | ok file =>
          -- a resolved path has a node, so two of the refusals cannot happen
          obtain ⟨node, hnode, hlink⟩ :=
            (FileSystem.resolve_real (canonical_eq_ok hfile)).node
          simp only [relative_of_canonical hfile hroot, hnode, Except.ok.injEq,
            exists_and_left, exists_eq_left']
          by_cases hdots :
              contains (text "..") (genericString (FileSystem.lexicallyRelative file root)) = true
          · simp [hdots]
          · rw [if_neg hdots]
            have hno : contains (text "..")
                (genericString (FileSystem.lexicallyRelative file root)) = false := by
              simpa using hdots
            cases node with
            | link target => exact absurd rfl (hlink target)
            | directory | file data => by_cases hallow : isAllow server file = true <;> simp [hno, hallow]

/-- A servable file whose relative path passes is opened and sent. -/
theorem handleRequest_of_servable {fs : WindowsFiles} {server : FileServer} {req : Request}
    {root file : Location Bytes} (hroot : canonical fs server.docRoot = .ok root)
    (h : Servable fs server req file)
    (hdots : contains (text "..")
      (genericString (FileSystem.lexicallyRelative file root)) = false) :
    ∃ content, fs.node file = some (.file (.ok content)) ∧
      handleRequest fs server req =
        ⟨fileResponse server req (requestedPath server req.target) content, some file⟩ := by
  obtain ⟨content, hcontent⟩ := h.readable
  have hmethod : ¬(req.method ≠ .get ∧ req.method ≠ .head) := by
    intro ⟨hget, hhead⟩
    exact h.method.elim hget hhead
  have hcheck : checkPath fs server (requestedPath server req.target) = .ok () :=
    checkPath_eq_ok_iff.mpr ⟨root, file, hroot, h.resolved, hdots, h.allowed⟩
  have hopen : openFile fs (requestedPath server req.target) = .ok (file, content) :=
    openFile_eq_ok_iff.mpr ⟨h.resolved, hcontent⟩
  refine ⟨content, hcontent, ?_⟩
  rw [handleRequest, if_neg hmethod, h.target]
  simp [hcheck, hopen]

/-- An answer of 200 is made from a servable file whose relative path passed. -/
theorem servable_of_ok {fs : WindowsFiles} {server : FileServer} {req : Request}
    (hok : (handleRequest fs server req).response.result = .ok) :
    ∃ root file, canonical fs server.docRoot = .ok root ∧ Servable fs server req file ∧
      contains (text "..") (genericString (FileSystem.lexicallyRelative file root)) = false ∧
      (handleRequest fs server req).opened = some file := by
  unfold handleRequest at hok ⊢
  by_cases hmethod : req.method ≠ .get ∧ req.method ≠ .head
  · rw [if_pos hmethod] at hok
    cases hok
  rw [if_neg hmethod] at hok ⊢
  cases htarget : legalTarget req.target with
  | false =>
      rw [htarget] at hok
      cases hok
  | true =>
      rw [htarget] at hok
      simp only [Bool.not_true, Bool.false_eq_true, ↓reduceIte] at hok ⊢
      cases hcheck : checkPath fs server (requestedPath server req.target) with
      | error why =>
          rw [hcheck] at hok
          cases hok
      | ok =>
          rw [hcheck] at hok
          obtain ⟨root, file, hroot, hresolved, hdots, hallowed⟩ := checkPath_eq_ok_iff.mp hcheck
          cases hopen : openFile fs (requestedPath server req.target) with
          | error ec =>
              simp only [hopen] at hok
              split at hok <;> cases hok
          | ok opened =>
              obtain ⟨loc, content⟩ := opened
              obtain ⟨hloc, hcontent⟩ := openFile_eq_ok_iff.mp hopen
              obtain rfl := Except.ok.inj (hresolved.symm.trans hloc)
              have hknown : req.method = .get ∨ req.method = .head := by
                by_contra hother
                exact hmethod (not_or.mp hother)
              exact ⟨root, file, hroot, ⟨hknown, htarget, hresolved, hallowed, content, hcontent⟩,
                hdots, rfl⟩

end Vorze.EmbedWeb
