import Mathlib.Data.List.Forall2
import Vorze.EmbedWeb.Head
import Vorze.EmbedWeb.Server

/-! # What the embedded server serves

The checks on the way to a file hold for the whole server: however its connections
take turns and the files change between requests, what is sent without an error is
the description of the backend, or the content that a file had when it was asked for
and had passed every check.
-/

namespace Vorze.EmbedWeb

open Files Transition

/-! ## The responses of a connection -/

namespace Session

variable {config : SessionConfig} {s next : Session}

/-- The responses that were sent, in order. -/
def responses (s : Session) : List Response :=
  s.log.filterMap fun
    | .responseStarted response => some response
    | _ => none

/-- The request that an action brings, with what the file system answers to it. -/
def asked : Action → Option (Request × FileAnswers)
  | .readDone (.request req answers) => some (req, answers)
  | .readDone .endOfStream | .readDone .failed | .writeDone .. => none

theorem responses_record (s : Session) (event : Event) :
    (s.record event).responses =
      s.responses ++ match event with
        | .responseStarted response => [response]
        | _ => [] := by
  unfold responses
  rw [record, List.filterMap_append]
  cases event <;> rfl

/-- A step sends the response to the request that it brings, if any. -/
theorem responses_step {action : Action} (hstep : step config s action = some next) :
    next.responses =
      s.responses ++ ((asked action).map fun req => responseOf config req.1 req.2).toList := by
  cases action with
  | readDone result =>
      obtain ⟨-, hnext⟩ := Option.ite_none_left_eq_some.mp hstep
      obtain rfl := Option.some.inj hnext
      cases result with
      | endOfStream | failed => exact responses_record _ _
      | request req answers =>
          rw [onRead, answer_eq]
          refine (responses_record _ _).trans ?_
          rw [responses_record, List.append_nil]
          rfl
  | writeDone index failed =>
      obtain ⟨close, -, rfl⟩ := Option.map_eq_some_iff.mp hstep
      have hsame : ∀ s : Session, (onWrite close failed s).responses = s.responses := by
        intro s
        cases failed with
        | true => exact (responses_record s _).trans (List.append_nil _)
        | false =>
            cases close <;>
            · refine (responses_record _ _).trans ((List.append_nil _).trans ?_)
              exact (responses_record s _).trans (List.append_nil _)
      rw [hsame]
      exact (List.append_nil _).symm

theorem responses_of_exec {actions : List Action}
    (hexec : exec (step config) s actions = some next) :
    next.responses =
      s.responses ++ (actions.filterMap asked).map fun req => responseOf config req.1 req.2 := by
  induction actions generalizing s with
  | nil =>
      obtain rfl := Option.some.inj hexec
      exact (List.append_nil _).symm
  | cons action rest ih =>
      obtain ⟨middle, hstep, hrest⟩ := Option.bind_eq_some_iff.mp hexec
      rw [ih hrest, responses_step hstep, List.append_assoc, List.filterMap_cons]
      cases asked action <;> rfl

end Session

/-! ## What may be served -/

/-- What a response without an error is made of. -/
inductive Serves (fs : WindowsFiles) (config : SessionConfig) (req : Request) : Response → Prop
  | backend (hget : req.method = .get) (htarget : req.target = text "/backend") :
      Serves fs config req (backendResponse config req)
  | file {root file : Location Bytes} {content : Bytes}
      (hroot : canonical fs config.docRoot = .ok root)
      (hservable : Servable fs config.toFileServer req file)
      (hcontent : fs.node file = some (.file (.ok content)))
      (hrelative : contains (text "..")
        (genericString (FileSystem.lexicallyRelative file root)) = false) :
      Serves fs config req (fileResponse config.toFileServer req
        (requestedPath config.toFileServer req.target) content)

/-- The response suits the request, and it only serves what it may. -/
def ServesAllowed (fs : WindowsFiles) (config : SessionConfig) (req : Request)
    (response : Response) : Prop :=
  Suits req response ∧ (response.result = .ok → Serves fs config req response)

/-- With the answers of one file system, a session responds as `respond` says. -/
theorem responseOf_answersOf (fs : WindowsFiles) (config : SessionConfig) (req : Request) :
    responseOf config req (answersOf fs config.toFileServer req) = respond fs config req := by
  have hsend := answer_answersOf (fun response _ => response) fs config req {}
  rwa [answer_eq] at hsend

theorem respond_servesAllowed (fs : WindowsFiles) (config : SessionConfig) (req : Request) :
    ServesAllowed fs config req (respond fs config req) := by
  refine ⟨responseOf_answersOf fs config req ▸ responseOf_suits config req _, fun hok => ?_⟩
  unfold respond at hok ⊢
  by_cases hbackend : req.method = .get ∧ req.target = text "/backend"
  · rw [if_pos hbackend]
    exact .backend hbackend.1 hbackend.2
  · rw [if_neg hbackend] at hok ⊢
    obtain ⟨root, file, hroot, hservable, hrelative, -⟩ := servable_of_ok hok
    obtain ⟨content, hcontent, heq⟩ := handleRequest_of_servable hroot hservable hrelative
    rw [heq]
    exact .file hroot hservable hcontent hrelative

namespace EmbedWebServer

variable {config : SessionConfig} {setup : Setup} {server : EmbedWebServer}
variable {steps : List (WindowsFiles × Action)}

/-- What a request is answered with comes from these files. -/
def FromFiles (config : SessionConfig) (fs : WindowsFiles) : Action → Prop
  | .session _ (.readDone (.request req answers)) => answers = answersOf fs config.toFileServer req
  | _ => True

/-- The request to one connection that a step brings, with the files as they are then. -/
def requestTo (id : Nat) : WindowsFiles × Action → Option (WindowsFiles × Request)
  | (fs, .session other (.readDone (.request req _))) =>
      if other = id then some (fs, req) else none
  | _ => none

theorem asked_ownAction {fs : WindowsFiles} {action : Action} (hfiles : FromFiles config fs action)
    (id : Nat) :
    (((ownAction id action).bind Session.asked).map fun req => responseOf config req.1 req.2) =
      (requestTo id (fs, action)).map fun req => respond req.1 config req.2 := by
  cases action with
  | acceptDone failed | acceptHandler index => rfl
  | session other action =>
      by_cases hid : other = id
      · cases action with
        | writeDone index failed => simp [ownAction, requestTo, Session.asked]
        | readDone result =>
            cases result with
            | endOfStream | failed => simp [ownAction, requestTo, Session.asked]
            | request req answers =>
                obtain rfl : answers = answersOf fs config.toFileServer req := hfiles
                simp [ownAction, requestTo, Session.asked, hid, responseOf_answersOf]
      · cases action with
        | writeDone index failed => simp [ownAction, requestTo, hid]
        | readDone result => cases result <;> simp [ownAction, requestTo, hid]

/-- Every connection is sent the responses to its requests, each made of the files as
they were when it was read. -/
theorem responses_of_exec
    (hexec : exec (step config) (start setup) (steps.map Prod.snd) = some server)
    (hfiles : ∀ taken ∈ steps, FromFiles config taken.1 taken.2) {id : Nat} {s : Session}
    (hs : server.sessions[id]? = some s) :
    s.responses = (steps.filterMap (requestTo id)).map fun req => respond req.1 config req.2 := by
  rw [Session.responses_of_exec (exec_session hexec hs), List.filterMap_map,
    List.filterMap_filterMap, List.map_filterMap, List.map_filterMap]
  exact List.filterMap_congr fun taken htaken => asked_ownAction (hfiles taken htaken) id

/-- In every run of the server, with the files of every moment beside its steps, each
connection is sent one response for each of its requests, in order, and a response
without an error serves what may be served of the files at that moment. -/
theorem serves_allowed
    (hexec : exec (step config) (start setup) (steps.map Prod.snd) = some server)
    (hfiles : ∀ taken ∈ steps, FromFiles config taken.1 taken.2) {id : Nat} {s : Session}
    (hs : server.sessions[id]? = some s) :
    List.Forall₂ (fun req response => ServesAllowed req.1 config req.2 response)
      (steps.filterMap (requestTo id)) s.responses := by
  rw [responses_of_exec hexec hfiles hs, List.forall₂_map_right_iff, List.forall₂_same]
  exact fun req _ => respond_servesAllowed req.1 config req.2

/-- `C:\html` has a page. -/
def onePage : WindowsFiles :=
  .ofTable [text "C:"]
    [(⟨text "C:", [text "html"]⟩, .directory),
      (⟨text "C:", [text "html", text "index.html"]⟩, .file (.ok (text "hello")))]
    ⟨text "C:", []⟩ 63

/-- The page is asked for while it is there, and again when it is gone. -/
def askForPage : List (WindowsFiles × Action) :=
  let request : Request := { target := text "/" }
  [(onePage, .acceptDone false), (onePage, .acceptHandler 0),
    (onePage, .session 0 (.readDone (.request request (answersOf onePage htmlServer request)))),
    (noFiles, .session 0 (.writeDone 0 false)),
    (noFiles, .session 0 (.readDone (.request request (answersOf noFiles htmlServer request))))]

theorem serves_allowed_askForPage :
    ∃ server, exec (step backendConfig) (start {}) (askForPage.map Prod.snd) = some server ∧
      ∃ s, server.sessions[0]? = some s ∧ s.responses.map (·.result) = [.ok, .badRequest] ∧
        List.Forall₂ (fun req response => ServesAllowed req.1 backendConfig req.2 response)
          (askForPage.filterMap (requestTo 0)) s.responses := by
  obtain ⟨server, hexec, hresults⟩ :
      ∃ server, exec (step backendConfig) (start {}) (askForPage.map Prod.snd) = some server ∧
        server.sessions.map (fun s => s.responses.map (·.result)) = [[.ok, .badRequest]] :=
    exists_exec (by decide +kernel)
  obtain ⟨s, hsessions, hone⟩ := List.map_eq_singleton_iff.mp hresults
  have hs : server.sessions[0]? = some s := by rw [hsessions]; rfl
  have hfiles : ∀ taken ∈ askForPage, FromFiles backendConfig taken.1 taken.2 := by
    simp only [askForPage, List.forall_mem_cons, FromFiles, List.not_mem_nil, false_imp_iff,
      implies_true, and_true, true_and]
    exact ⟨rfl, rfl⟩
  exact ⟨server, hexec, s, hs, hone, serves_allowed hexec hfiles hs⟩

end EmbedWebServer

end Vorze.EmbedWeb
