import Vorze.Process.End

/-! # The backend that browsers are told of

The embedded server tells every browser that asks where the control server is. What it
says is what the configuration file had when the process was started.
-/

namespace Vorze

open Transition EmbedWeb

namespace Process

variable {startup : Startup} {config : Config} {start process : Process} {actions : List Action}

/-- The embedded server is there, and where a run of its own leads. -/
def Embeds (config : Config) (setup : Setup) (process : Process) : Prop :=
  process.config = config ∧ ∃ server own, process.embedWebServer = some server ∧
    exec (EmbedWebServer.step (sessionConfigOf config.embedWebServerConfig)) (.start setup) own =
      some server

theorem Embeds.step {setup : Setup} {action : Action} {next : Process}
    (h : Embeds config setup process) (hchange : process.Change action next) :
    Embeds config setup next := by
  obtain ⟨rfl, server, own, hserver, hown⟩ := h
  cases hchange with
  | tick | web | signalDone | signalFailed | stops | delayExpires | delayHandler =>
      exact ⟨rfl, server, own, hserver, hown⟩
  | @embed taken _ after hold hstep =>
      obtain rfl := Option.some.inj (hserver.symm.trans hold)
      exact ⟨rfl, after, own ++ [taken], rfl, exec_concat hown hstep⟩

theorem embeds_of_exec (henable : config.embedWebServerConfig.enable = true)
    (hmain : main startup config = some start) (hexec : exec step start actions = some process) :
    Embeds config startup.setup process := by
  refine exec_invariant (Embeds config startup.setup)
    (fun _ _ _ (_ : True) h hstep => h.step (step_change hstep).2) ?_ (meets_true start actions)
    hexec
  rw [main_eq_some hmain, if_pos henable]
  exact ⟨rfl, _, [], rfl, rfl⟩

/-- A response that suits its request, and tells of the backend when that is asked for. -/
def TellsBackend (description : Bytes) (req : Request) (response : Response) :
    Prop :=
  Suits req response ∧ (req.method = .get → req.target = text "/backend" →
    response.result = .ok ∧ response.body = description)

theorem responseOf_tellsBackend (config : SessionConfig) (req : Request)
    (answers : FileAnswers) :
    TellsBackend config.backendJsonString req (responseOf config req answers) := by
  refine ⟨responseOf_suits config req answers, fun hget htarget => ?_⟩
  rw [responseOf, if_pos ⟨hget, htarget⟩]
  exact ⟨rfl, rfl⟩

/-- Every connection of the embedded server is told of the backend host that the
configuration file names, and of its port or else the one of the control server. -/
theorem tells_configured_backend {read : Translators} {tree pts : PropertyTree}
    (henables : ConfigLoader.Enables read tree pts)
    (hmain : main startup (ConfigLoader.parseJson read tree) = some start)
    (hexec : exec step start actions = some process) :
    ∃ server, process.embedWebServer = some server ∧ ∀ s ∈ server.sessions,
      AnsweredAsAsked (TellsBackend (ConfigLoader.backendJsonString (ConfigLoader.hostOf pts)
        (ConfigLoader.portOf read tree pts))) s.log := by
  have henable := (ConfigLoader.enable_parseJson_iff read tree).mpr ⟨pts, henables⟩
  obtain ⟨-, server, own, hserver, hown⟩ := embeds_of_exec henable hmain hexec
  refine ⟨server, hserver, fun s hs => ?_⟩
  obtain ⟨id, hget⟩ := List.getElem?_of_mem hs
  rw [← ConfigLoader.backendJsonString_parseJson henables]
  obtain ⟨exchanges, stage, hfollows, hasked⟩ := Session.followsAsked_of_exec
    (fun _ _ htells => htells.1)
    (fun _ _ req answers _ => responseOf_tellsBackend
      (sessionConfigOf (ConfigLoader.parseJson read tree).embedWebServerConfig) req answers)
    (EmbedWebServer.exec_session hown hget)
  rw [hfollows.log]
  exact answeredAsAsked_conversation hasked

/-- A browser asks where the control server is. -/
def askBackend : List Action :=
  [.embed (.acceptDone false), .embed (.acceptHandler 0),
    .embed (.session 0 (.readDone (.request { target := text "/backend" }
      { rootPath := .failed, filePath := .failed, relCheckString := none, isSymlink := .failed
        extensionThrows := false, opened := .error noSuchFile })))]

theorem tells_configured_backend_askBackend :
    ∃ start process, main plainStartup
        (ConfigLoader.parseJson plainTranslators (enabledTree (text "localhost"))) = some start ∧
      exec step start askBackend = some process ∧
      ∃ server, process.embedWebServer = some server ∧ ∃ s ∈ server.sessions,
        AnsweredAsAsked
          (TellsBackend (ConfigLoader.backendJsonString (text "localhost") 5010)) s.log := by
  obtain ⟨start, process, hmain, hexec, hsessions⟩ :
      ∃ start process, main plainStartup
          (ConfigLoader.parseJson plainTranslators (enabledTree (text "localhost"))) = some start ∧
        exec step start askBackend = some process ∧
        process.embedWebServer.any (fun server => decide (server.sessions ≠ [])) = true :=
    exists_run (by decide +kernel)
  have henables : ConfigLoader.Enables plainTranslators (enabledTree (text "localhost"))
      (enabledSection (text "localhost")) := ⟨rfl, rfl⟩
  obtain ⟨server, hserver, htells⟩ := tells_configured_backend henables hmain hexec
  rw [hserver, Option.any_some, decide_eq_true_eq] at hsessions
  obtain ⟨s, hs⟩ := List.exists_mem_of_ne_nil _ hsessions
  exact ⟨start, process, hmain, hexec, server, hserver, s, hs, htells s hs⟩

end Process

end Vorze
