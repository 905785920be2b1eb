import Vorze.EmbedWeb.HandleRequest

/-! # The exits of `handle_request`

`handle_request` with the answers of the file system left open, exceptions
included, and with what the caller does on `send` as a parameter. `touch` is told
each string whose first or last character is read.
-/

namespace Vorze.EmbedWeb

open Files

/-- What a call of `std::filesystem` comes to: a value, an error code that is set,
or an exception. -/
inductive Answer (Value : Type)
  | ok (value : Value)
  | failed
  | threw
  deriving DecidableEq, Repr

def Answer.ofExcept {ε Value : Type} : Except ε Value → Answer Value
  | .ok value => .ok value
  | .error _ => .failed

/-- The answers to one request, in the order of the calls. `relCheckString` is
missing when `relative` or the conversion of its result throws. -/
structure FileAnswers where
  rootPath : Answer (Location Bytes)
  filePath : Answer (Location Bytes)
  relCheckString : Option Bytes
  isSymlink : Answer Bool
  extensionThrows : Bool
  opened : Except ErrorCode Bytes

/-- How a block with a `catch` clause ends: by a `return` in it, at its end, or
with an exception. -/
inductive BlockEnd (State : Type)
  | returned (s : State)
  | left (s : State)
  | threw (s : State)

section Handler

variable {State : Type} (send : Response → State → State) (touch : Bytes → State → State)

/-- The `try` block of the path check. -/
def checkBlock (server : FileServer) (req : Request) (answers : FileAnswers) (s : State) :
    BlockEnd State :=
  match answers.rootPath with
  | .threw => .threw s
  | .failed => .returned (send (badRequest server req (text "Illegal request-target 2.1")) s)
  | .ok _ =>
      match answers.filePath with
      | .threw => .threw s
      | .failed => .returned (send (badRequest server req (text "Illegal request-target 2.2")) s)
      | .ok filePath =>
          match answers.relCheckString with
          | none => .threw s
          | some relCheckString =>
              if contains (text "..") relCheckString then
                .returned (send (badRequest server req (text "Illegal request-target 2")) s)
              else
                match answers.isSymlink with
                | .threw => .threw s
                | .ok true =>
                    .returned (send (badRequest server req (text "Illegal request-target 3")) s)
                | .failed =>
                    .returned (send (badRequest server req (text "Illegal request-target 2.3")) s)
                | .ok false =>
                    if answers.extensionThrows then .threw s
                    else
                      -- `ext.front()`, before anything is known of `ext`
                      let s := touch (extension (filePath.names.getLast?.getD [])) s
                      if isAllow server filePath then .left s
                      else
                        .returned
                          (send (badRequest server req (text "Illegal request-target 2.4")) s)

def handleWith (server : FileServer) (req : Request) (answers : FileAnswers) (s : State) :
    State :=
  if req.method ≠ .get ∧ req.method ≠ .head then
    send (badRequest server req (text "Unknown HTTP-method")) s
  else if req.target.isEmpty then
    send (badRequest server req (text "Illegal request-target")) s
  else
    let s := touch req.target s
    if req.target.head? != some (ch '/') || contains (text "..") req.target then
      send (badRequest server req (text "Illegal request-target")) s
    else
      let s := if server.docRoot.isEmpty then s else touch server.docRoot s
      let s := touch (stripQuery req.target) s
      match checkBlock send touch server req answers s with
      | .returned s => s
      | .threw s => send (badRequest server req (text "Illegal request-target 4")) s
      | .left s =>
          match answers.opened with
          | .ok content =>
              send (fileResponse server req (requestedPath server req.target) content) s
          | .error ec =>
              if server.isNoSuchFile ec then send (notFound server req req.target) s
              else send (serverError server req ec.message) s

end Handler

/-! ## What a request comes to -/

/-- How the path check ends. -/
inductive Verdict
  | passed
  | refused (why : Bytes)
  | threw
  deriving DecidableEq, Repr

def verdict (server : FileServer) (answers : FileAnswers) : Verdict :=
  match answers.rootPath with
  | .threw => .threw
  | .failed => .refused (text "Illegal request-target 2.1")
  | .ok _ =>
      match answers.filePath with
      | .threw => .threw
      | .failed => .refused (text "Illegal request-target 2.2")
      | .ok filePath =>
          match answers.relCheckString with
          | none => .threw
          | some relCheckString =>
              if contains (text "..") relCheckString then
                .refused (text "Illegal request-target 2")
              else
                match answers.isSymlink with
                | .threw => .threw
                | .ok true => .refused (text "Illegal request-target 3")
                | .failed => .refused (text "Illegal request-target 2.3")
                | .ok false =>
                    if answers.extensionThrows then .threw
                    else if isAllow server filePath then .passed
                    else .refused (text "Illegal request-target 2.4")

/-- The extension, when the path check comes as far as that. -/
def extensionRead (answers : FileAnswers) : List Bytes :=
  match answers.rootPath, answers.filePath, answers.relCheckString, answers.isSymlink with
  | .ok _, .ok filePath, some relCheckString, .ok false =>
      if contains (text "..") relCheckString || answers.extensionThrows then []
      else [extension (filePath.names.getLast?.getD [])]
  | _, _, _, _ => []

/-- The response to a request. -/
def responseTo (server : FileServer) (req : Request) (answers : FileAnswers) : Response :=
  if req.method ≠ .get ∧ req.method ≠ .head then
    badRequest server req (text "Unknown HTTP-method")
  else if !legalTarget req.target then badRequest server req (text "Illegal request-target")
  else
    match verdict server answers with
    | .refused why => badRequest server req why
    | .threw => badRequest server req (text "Illegal request-target 4")
    | .passed =>
        match answers.opened with
        | .ok content => fileResponse server req (requestedPath server req.target) content
        | .error ec =>
            if server.isNoSuchFile ec then notFound server req req.target
            else serverError server req ec.message

/-- The strings that are read before the file is looked for. -/
def earlyReads (server : FileServer) (target : Bytes) : List Bytes :=
  (if server.docRoot.isEmpty then [target] else [target, server.docRoot]) ++ [stripQuery target]

/-- The strings whose first or last character is read, in order. -/
def readsOf (server : FileServer) (req : Request) (answers : FileAnswers) : List Bytes :=
  if req.method ≠ .get ∧ req.method ≠ .head then []
  else if !legalTarget req.target then if req.target.isEmpty then [] else [req.target]
  else earlyReads server req.target ++ extensionRead answers

section Handler

variable {State : Type} (send : Response → State → State) (touch : Bytes → State → State)
variable (server : FileServer) (req : Request) (answers : FileAnswers) (s : State)

/-- The strings of a list are touched in order. -/
def touchAll (strings : List Bytes) (s : State) : State :=
  strings.foldl (fun s string => touch string s) s

/-- The block sends at most once, and only to return. -/
theorem checkBlock_eq :
    checkBlock send touch server req answers s =
      match verdict server answers with
      | .passed => .left (touchAll touch (extensionRead answers) s)
      | .refused why =>
          .returned (send (badRequest server req why) (touchAll touch (extensionRead answers) s))
      | .threw => .threw (touchAll touch (extensionRead answers) s) := by
  unfold checkBlock verdict extensionRead
  cases answers.rootPath with
  | threw | failed => rfl
  | ok rootPath =>
  cases answers.filePath with
  | threw | failed => rfl
  | ok filePath =>
  cases answers.relCheckString with
  | none => rfl
  | some relCheckString =>
  by_cases hdots : contains (text "..") relCheckString = true
  · cases answers.isSymlink with
    | threw | failed => simp only [if_pos hdots]; rfl
    | ok link => cases link <;> simp only [hdots, if_true, Bool.true_or] <;> rfl
  cases answers.isSymlink with
  | threw | failed => simp only [if_neg hdots]; rfl
  | ok link =>
  cases link with
  | true => simp only [if_neg hdots]; rfl
  | false =>
  by_cases hthrows : answers.extensionThrows = true
  · simp only [if_neg hdots, hthrows, if_true, Bool.or_true]
    rfl
  · simp only [Bool.not_eq_true _ |>.mp hdots, Bool.not_eq_true _ |>.mp hthrows, Bool.or_self,
      Bool.false_eq_true, if_false]
    by_cases hallow : isAllow server filePath = true
    · simp only [if_pos hallow]
      rfl
    · simp only [if_neg hallow]
      rfl

theorem touchAll_append (first rest : List Bytes) :
    touchAll touch (first ++ rest) s = touchAll touch rest (touchAll touch first s) :=
  List.foldl_append

/-- The two tests of the target. -/
theorem not_legalTarget (target : Bytes) :
    (!legalTarget target) =
      (target.isEmpty || (target.head? != some (ch '/') || contains (text "..") target)) := by
  rw [legalTarget, Bool.not_not, Bool.or_assoc]

theorem touchAll_earlyReads (target : Bytes) :
    touchAll touch (earlyReads server target) s =
      touch (stripQuery target)
        (if server.docRoot.isEmpty then touch target s
          else touch server.docRoot (touch target s)) := by
  unfold earlyReads
  by_cases hdoc : server.docRoot.isEmpty = true
  · rw [if_pos hdoc, if_pos hdoc]
    rfl
  · rw [if_neg hdoc, if_neg hdoc]
    rfl

/-- Whatever the file system answers, one response is sent, and nothing is done
afterwards. -/
theorem handleWith_eq :
    handleWith send touch server req answers s =
      send (responseTo server req answers) (touchAll touch (readsOf server req answers) s) := by
  unfold handleWith responseTo readsOf
  by_cases hmethod : req.method ≠ .get ∧ req.method ≠ .head
  · rw [if_pos hmethod, if_pos hmethod, if_pos hmethod]
    rfl
  rw [if_neg hmethod, if_neg hmethod, if_neg hmethod, not_legalTarget]
  by_cases hempty : req.target.isEmpty = true
  · simp only [hempty, Bool.true_or, if_true]
    rfl
  rw [if_neg hempty]
  by_cases hillegal : (req.target.head? != some (ch '/') || contains (text "..") req.target) = true
  · simp only [hempty, hillegal, Bool.or_true, if_true, Bool.false_eq_true, if_false]
    rfl
  simp only [hempty, hillegal, Bool.or_false, Bool.false_eq_true, if_false, checkBlock_eq,
    ← touchAll_earlyReads]
  rw [touchAll_append]
  cases verdict server answers with
  | refused why | threw => rfl
  | passed =>
      cases answers.opened with
      | ok content => rfl
      | error ec =>
          by_cases hmissing : server.isNoSuchFile ec = true
          · simp only [if_pos hmissing]
          · simp only [if_neg hmissing]

theorem touchAll_ignore (strings : List Bytes) : touchAll (fun _ s => s) strings s = s := by
  induction strings with
  | nil => rfl
  | cons string rest ih => exact ih

end Handler

/-! ## The answers of a file system that does not change -/

/-- Nothing throws. -/
def answersOf (fs : WindowsFiles) (server : FileServer) (req : Request) : FileAnswers :=
  let path := requestedPath server req.target
  let rootPath := canonical fs server.docRoot
  let filePath := canonical fs path
  { rootPath := .ofExcept rootPath
    filePath := .ofExcept filePath
    relCheckString :=
      match rootPath, filePath with
      | .ok rootPath, .ok filePath => (fs.relative filePath rootPath).toOption.map genericString
      | _, _ => none
    isSymlink :=
      match filePath.toOption.bind fs.node with
      | none => .failed
      | some (.link _) => .ok true
      | some _ => .ok false
    extensionThrows := false
    opened := (openFile fs path).map Prod.snd }

section Agreement

variable (fs : WindowsFiles) (server : FileServer) (req : Request)

/-- The `try` block and the path check come to the same. -/
theorem verdict_answersOf :
    verdict server (answersOf fs server req) =
      match checkPath fs server (requestedPath server req.target) with
      | .ok () => .passed
      | .error why => .refused why := by
  unfold verdict checkPath
  cases hroot : canonical fs server.docRoot with
  | error e => simp only [answersOf, hroot, Answer.ofExcept]
  | ok root =>
  cases hfile : canonical fs (requestedPath server req.target) with
  | error e => simp only [answersOf, hroot, hfile, Answer.ofExcept]
  | ok file =>
  obtain ⟨node, hnode, hlink⟩ := (FileSystem.resolve_real (canonical_eq_ok hfile)).node
  simp only [answersOf, hroot, hfile, relative_of_canonical hfile hroot, hnode, Answer.ofExcept,
    Except.toOption, Option.map_some, Option.bind_some]
  by_cases hdots :
      contains (text "..") (genericString (FileSystem.lexicallyRelative file root)) = true
  · simp only [if_pos hdots]
  · cases node with
    | link target => exact absurd rfl (hlink target)
    | directory | file data =>
        simp only [if_neg hdots, Bool.false_eq_true, if_false]
        by_cases hallow : isAllow server file = true
        · simp only [if_pos hallow]
        · simp only [if_neg hallow]

/-- On a file system that does not change, the response is the one of
`handleRequest`. -/
theorem responseTo_answersOf :
    responseTo server req (answersOf fs server req) = (handleRequest fs server req).response := by
  unfold responseTo handleRequest
  by_cases hmethod : req.method ≠ .get ∧ req.method ≠ .head
  · rw [if_pos hmethod, if_pos hmethod]
  rw [if_neg hmethod, if_neg hmethod]
  by_cases hillegal : (!legalTarget req.target) = true
  · rw [if_pos hillegal, if_pos hillegal]
  rw [if_neg hillegal, if_neg hillegal, verdict_answersOf]
  cases hcheck : checkPath fs server (requestedPath server req.target) with
  | error why => simp only [hcheck]
  | ok =>
      simp only [answersOf, hcheck]
      cases openFile fs (requestedPath server req.target) with
      | ok opened => rfl
      | error ec =>
          simp only [Except.map]
          split <;> rfl

end Agreement

end Vorze.EmbedWeb
