import Vorze.EmbedWeb.Session

/-! # `HEAD` and `GET`

The answer to a `HEAD` request ought to be the answer to the same `GET` request
without its body. Files that are served are described so. An error is sent with
its text all the same, and the backend description is for `GET` only.
-/

namespace Vorze.EmbedWeb

open Files

/-- The response to a request on a file system that does not change. -/
def respond (fs : WindowsFiles) (config : SessionConfig) (req : Request) : Response :=
  if req.method = .get ∧ req.target = text "/backend" then backendResponse config req
  else (handleRequest fs config.toFileServer req).response

/-- It is the response that `on_read` starts to write. -/
theorem answer_answersOf {State : Type} (send : Response → State → State) (fs : WindowsFiles)
    (config : SessionConfig) (req : Request) (s : State) :
    answer send (fun _ s => s) config req (answersOf fs config.toFileServer req) s =
      send (respond fs config req) s := by
  unfold answer respond
  by_cases hbackend : req.method = .get ∧ req.target = text "/backend"
  · rw [if_pos hbackend, if_pos hbackend]
  · rw [if_neg hbackend, if_neg hbackend]
    rw [handleWith_eq, touchAll_ignore, responseTo_answersOf]

def asGet (req : Request) : Request := { req with method := .get }

def asHead (req : Request) : Request := { req with method := .head }

/-- The response to the `HEAD` request has the status, the type and the length of
the one to the `GET` request, and no body. -/
structure HeadAgrees (fs : WindowsFiles) (config : SessionConfig) (req : Request) : Prop where
  result : (respond fs config (asHead req)).result =
    (respond fs config (asGet req)).result
  contentType : (respond fs config (asHead req)).value .contentType =
    (respond fs config (asGet req)).value .contentType
  contentLength : (respond fs config (asHead req)).value .contentLength =
    (respond fs config (asGet req)).value .contentLength
  body : (respond fs config (asHead req)).body = []

/-- The target names a file that is served. -/
def NamesServedFile (fs : WindowsFiles) (config : SessionConfig) (req : Request) : Prop :=
  ∃ root file, canonical fs config.docRoot = .ok root ∧
    Servable fs config.toFileServer (asGet req) file ∧
    contains (text "..") (genericString (FileSystem.lexicallyRelative file root)) = false

/-! ## Errors have a body -/

theorem checkPath_error_ne_nil {fs : WindowsFiles} {server : FileServer} {path why : Bytes}
    (h : checkPath fs server path = .error why) : why ≠ [] := by
  unfold checkPath at h
  repeat' split at h
  all_goals cases h
  all_goals decide

/-- A response that reports an error has a text. -/
theorem body_ne_nil_of_not_ok {fs : WindowsFiles} {server : FileServer} {req : Request}
    (h : (handleRequest fs server req).response.result ≠ .ok) :
    (handleRequest fs server req).response.body ≠ [] := by
  unfold handleRequest at h ⊢
  by_cases hmethod : req.method ≠ .get ∧ req.method ≠ .head
  · rw [if_pos hmethod]
    simp [badRequest, textResponse, text]
  rw [if_neg hmethod] at h ⊢
  by_cases htarget : (!legalTarget req.target) = true
  · rw [if_pos htarget]
    simp [badRequest, textResponse, text]
  simp only [if_neg htarget] at h ⊢
  cases hcheck : checkPath fs server (requestedPath server req.target) with
  | error why => simpa [badRequest, textResponse] using checkPath_error_ne_nil hcheck
  | ok =>
      rw [hcheck] at h
      cases hopen : openFile fs (requestedPath server req.target) with
      | ok opened =>
          rw [hopen] at h
          exact absurd rfl h
      | error ec =>
          by_cases hmissing : server.isNoSuchFile ec = true
          · simp [hmissing, notFound, textResponse, text]
          · simp [hmissing, serverError, textResponse, text]

/-! ## The type of a file -/

/-- No file is of the type of the backend description. -/
theorem mimeType_ne (path : Bytes) : mimeType path ≠ text "text/json" := by
  have hrows : ∀ row ∈ mimeTypes, text row.2 ≠ text "text/json" := by decide
  simp only [mimeType]
  split
  next row hrow => exact hrows row (List.mem_of_find?_eq_some hrow)
  next => decide

theorem value_contentType_fileResponse (server : FileServer) (req : Request)
    (path content : Bytes) :
    (fileResponse server req path content).value .contentType = some (mimeType path) := by
  rw [fileResponse, Response.value_set_of_ne _ _ (by decide), Response.value_set_self]

theorem value_contentType_backendResponse (config : SessionConfig) (req : Request) :
    (backendResponse config req).value .contentType = some (text "text/json") := by
  rw [backendResponse, Response.value_set_of_ne _ _ (by decide), Response.value_set_self]

/-! ## Agreement -/

theorem respond_asHead (fs : WindowsFiles) (config : SessionConfig) (req : Request) :
    respond fs config (asHead req) =
      (handleRequest fs config.toFileServer (asHead req)).response := by
  rw [respond, if_neg]
  intro hbackend
  cases hbackend.1

/-- Without a body the answer to a `HEAD` request is that of a file that is served. -/
theorem namesServedFile_of_body {fs : WindowsFiles} {config : SessionConfig} {req : Request}
    (hbody : (respond fs config (asHead req)).body = []) : NamesServedFile fs config req := by
  rw [respond_asHead] at hbody
  have hok : (handleRequest fs config.toFileServer (asHead req)).response.result = .ok := by
    by_contra herror
    exact body_ne_nil_of_not_ok herror hbody
  obtain ⟨root, file, hroot, hservable, hdots, -⟩ := servable_of_ok hok
  exact ⟨root, file, hroot, ⟨Or.inl rfl, hservable.target, hservable.resolved,
    hservable.allowed, hservable.readable⟩, hdots⟩

/-- A file that is served is described or sent. -/
theorem NamesServedFile.handled {fs : WindowsFiles} {config : SessionConfig} {req : Request}
    (h : NamesServedFile fs config req) :
    ∃ content,
      (handleRequest fs config.toFileServer (asHead req)).response =
        fileResponse config.toFileServer (asHead req)
          (requestedPath config.toFileServer req.target) content ∧
      (handleRequest fs config.toFileServer (asGet req)).response =
        fileResponse config.toFileServer (asGet req)
          (requestedPath config.toFileServer req.target) content := by
  obtain ⟨root, file, hroot, hservable, hdots⟩ := h
  have hhead : Servable fs config.toFileServer (asHead req) file :=
    ⟨Or.inr rfl, hservable.target, hservable.resolved, hservable.allowed, hservable.readable⟩
  obtain ⟨content, hcontent, hgetHandled⟩ := handleRequest_of_servable hroot hservable hdots
  obtain ⟨same, hsame, hheadHandled⟩ := handleRequest_of_servable hroot hhead hdots
  obtain rfl : content = same := by simpa using hcontent.symm.trans hsame
  refine ⟨content, ?_, ?_⟩
  · rw [hheadHandled]
    rfl
  · rw [hgetHandled]
    rfl

/-- A `HEAD` request is answered as the `GET` request exactly when the target is not
the one of the backend description and names a file that is served. -/
theorem headAgrees_iff (fs : WindowsFiles) (config : SessionConfig) (req : Request) :
    HeadAgrees fs config req ↔
      req.target ≠ text "/backend" ∧ NamesServedFile fs config req := by
  constructor
  · intro h
    have hnames := namesServedFile_of_body h.body
    refine ⟨?_, hnames⟩
    -- the two types would differ
    intro hbackend
    have htype := h.contentType
    obtain ⟨content, hhead, -⟩ := hnames.handled
    rw [respond_asHead, hhead, value_contentType_fileResponse, respond, if_pos ⟨rfl, hbackend⟩,
      value_contentType_backendResponse] at htype
    exact mimeType_ne _ (Option.some.inj htype)
  · intro h
    obtain ⟨hbackend, hnames⟩ := h
    obtain ⟨content, hhead, hget⟩ := hnames.handled
    rw [← respond_asHead] at hhead
    have hgetIs : respond fs config (asGet req) =
        (handleRequest fs config.toFileServer (asGet req)).response := by
      rw [respond, if_neg]
      intro hpair
      exact hbackend hpair.2
    rw [← hgetIs] at hget
    exact ⟨by rw [hhead, hget]; rfl, by rw [hhead, hget]; rfl, by rw [hhead, hget]; rfl,
      by rw [hhead]; rfl⟩

/-- `C:\html` is there and has no files. -/
def noFiles : WindowsFiles :=
  .ofTable [text "C:"] [(⟨text "C:", [text "html"]⟩, .directory)] ⟨text "C:", []⟩ 63

/-- The error for a file that is not there has a body, and the backend description
is not found. -/
theorem not_headAgrees_missing :
    ¬HeadAgrees noFiles backendConfig { target := text "/missing.html" } ∧
      ¬HeadAgrees noFiles backendConfig { target := text "/backend" } := by
  constructor
  · intro h
    exact absurd h.body (by decide)
  · intro h
    exact absurd h.result (by decide)

end Vorze.EmbedWeb
