import Vorze.ConfigLoader
import Vorze.Foundation.JsonTree
import Vorze.System.Step
import Vorze.Web.Status

/-! # The configuration in the status document

The document has the configuration of the process. A configuration file with that part
of it is loaded as the same configuration, but for the extensions that are allowed and
the number of threads, which the document does not have.
-/

namespace Vorze

open PropertyTree

namespace ConfigLoader

variable {read : Translators}

/-- What `parse_json` sees to: the text for the backend is made from the other values,
and these have their defaults unless the embedded server is enabled. -/
structure Loaded (c : Config) : Prop where
  backend : c.embedWebServerConfig.backendJsonString =
    backendJsonString c.embedWebServerConfig.backendHost (backendPortOf c)
  disabled : c.embedWebServerConfig.enable = false → c.embedWebServerConfig =
    { defaultEmbedWebServerConfig with
      backendJsonString := c.embedWebServerConfig.backendJsonString }

theorem loaded_parseJson (read : Translators) (tree : PropertyTree) :
    Loaded (parseJson read tree) where
  backend := rfl
  disabled := by
    intro hdisabled
    unfold parseJson at hdisabled ⊢
    cases hchild : tree.child? (text "EmbedWebServerConfig") with
    | none => rfl
    | some pts =>
        simp only [hchild, parseEmbedWebServer] at hdisabled ⊢
        cases hflag : pts.get read.flag (text "enable") false with
        | true => simp [hflag] at hdisabled
        | false => rfl

/-- The configuration with the defaults for what the document does not have. -/
def reloaded (c : Config) : Config :=
  { c with
    threadNum := 0
    embedWebServerConfig :=
      { c.embedWebServerConfig with
        allowFileExtList := defaultEmbedWebServerConfig.allowFileExtList } }

end ConfigLoader

namespace HttpConnectSession

open ConfigLoader

/-! ## The document as a tree -/

/-- Children with data only. -/
def leaves (fields : List (Bytes × Bytes)) : List (Bytes × PropertyTree) :=
  fields.map fun field => (field.1, node field.2 [])

theorem representable_leaves (fields : List (Bytes × Bytes)) :
    ∀ child ∈ leaves fields, child.2.Representable :=
  List.forall_mem_map.mpr fun field _ => .leaf field.2

theorem embedWebServerTree_eq (ews : EmbedWebServerConfig) :
    embedWebServerTree ews = node [] (leaves
      [(text "enable", boolText ews.enable), (text "host", ews.host),
        (text "port", decimal ews.port.toNat), (text "backendHost", ews.backendHost),
        (text "backendPort", decimal ews.backendPort.toNat), (text "root_path", ews.rootPath),
        (text "index_file_of_root", ews.indexFileOfRoot),
        (text "backend_json_string", ews.backendJsonString)]) := rfl

theorem configTree_eq (c : Config) :
    configTree c = node [] (leaves
      [(text "listenHost", c.listenHost), (text "listenPort", decimal c.listenPort.toNat),
        (text "controlServerHost", c.controlServerHost),
        (text "controlServerPort", decimal c.controlServerPort.toNat)] ++
      [(text "EmbedWebServerConfig", embedWebServerTree c.embedWebServerConfig)]) := rfl

theorem representable_configTree (c : Config) : (configTree c).Representable := by
  rw [configTree_eq]
  refine .branch (List.forall_mem_append.mpr ⟨representable_leaves _, ?_⟩)
  rw [List.forall_mem_singleton, embedWebServerTree_eq]
  exact .branch (representable_leaves _)

theorem representable_pushBacks {α : Type} (f : α → PropertyTree)
    (hf : ∀ a, (f a).Representable) (xs : List α) :
    (xs.foldl (fun tree a => tree.pushBack [] (f a)) empty).Representable := by
  rw [foldl_pushBack]
  exact .branch (List.forall_mem_map.mpr fun a _ => hf a)

theorem representable_portsInfoTree (ports : List SerialPortNameInfo) :
    (portsInfoTree ports).Representable := by
  unfold portsInfoTree
  refine representable_pushBacks _ (fun a => ?_) ports
  exact .branch (representable_leaves
    [(text "comName", a.comName), (text "userFriendlyName", a.userFriendlyName)])

theorem representable_openPortsTree (names : List Bytes) :
    (openPortsTree names).Representable := by
  unfold openPortsTree
  exact representable_pushBacks _ (fun a => .leaf a) names

/-- The tree that `createJsonString` writes. -/
def statusTree (server : SerialPortControlServer) : PropertyTree :=
  node [] [(text "config", configTree server.config),
    (text "portsInfo", portsInfoTree server.portsInfo),
    (text "OpenPorts", openPortsTree server.listOpenPortsName)]

/-- The document is read back as the tree that it was written from. -/
theorem readJson_createJsonString (server : SerialPortControlServer) :
    readJson (createJsonString server) = some (statusTree server) := by
  have hwritten : createJsonString server = (statusTree server).writeJson := rfl
  rw [hwritten, readJson_writeJson_iff]
  refine ⟨rfl, ?_⟩
  simp only [statusTree, children, List.forall_mem_cons, List.not_mem_nil, false_imp_iff,
    implies_true, and_true]
  exact ⟨representable_configTree _, representable_portsInfoTree _, representable_openPortsTree _⟩

/-! ## Loading it again -/

variable {read : Translators}

theorem get_leaf {tree : PropertyTree} {α : Type} {read : Bytes → Option α} {key data : Bytes}
    {value default : α} (hchild : tree.child? key = some (node data []))
    (hread : read data = some value) : tree.get read key default = value := by
  rw [PropertyTree.get, hchild]
  simp [PropertyTree.data, hread]

theorem parseEmbedWebServer_embedWebServerTree
    (hport : ∀ port : UInt16, read.port (decimal port.toNat) = some port)
    (hflag : ∀ b, read.flag (boolText b) = some b) (c ews : EmbedWebServerConfig) :
    parseEmbedWebServer read c (embedWebServerTree ews) =
      if ews.enable then
        { ews with
          allowFileExtList := c.allowFileExtList
          backendJsonString := c.backendJsonString }
      else { c with enable := false } := by
  have henable : (embedWebServerTree ews).get read.flag (text "enable") false = ews.enable :=
    get_leaf rfl (hflag ews.enable)
  rw [parseEmbedWebServer, henable]
  cases hews : ews.enable with
  | false => rfl
  | true =>
      have hown : (embedWebServerTree ews).get read.port (text "port") c.port = ews.port :=
        get_leaf rfl (hport ews.port)
      have hbackend : (embedWebServerTree ews).get read.port (text "backendPort") c.backendPort =
          ews.backendPort := get_leaf rfl (hport ews.backendPort)
      simp only [if_true, hown, hbackend]
      rw [← hews]
      rfl

/-- The part of a loaded configuration that the embedded server has. -/
theorem parseEmbedWebServer_of_loaded
    (hport : ∀ port : UInt16, read.port (decimal port.toNat) = some port)
    (hflag : ∀ b, read.flag (boolText b) = some b) {c : Config} (h : Loaded c) :
    parseEmbedWebServer read defaultEmbedWebServerConfig
        (embedWebServerTree c.embedWebServerConfig) =
      { c.embedWebServerConfig with
        allowFileExtList := defaultEmbedWebServerConfig.allowFileExtList
        backendJsonString := defaultEmbedWebServerConfig.backendJsonString } := by
  rw [parseEmbedWebServer_embedWebServerTree hport hflag]
  split
  next => rfl
  next hdisabled =>
    rw [h.disabled (Bool.eq_false_iff.mpr hdisabled)]
    rfl

/-- A loaded configuration is loaded again, but for what the document does not have. -/
theorem parseJson_configTree
    (hport : ∀ port : UInt16, read.port (decimal port.toNat) = some port)
    (hflag : ∀ b, read.flag (boolText b) = some b) {c : Config} (h : Loaded c) :
    parseJson read (configTree c) = reloaded c := by
  have hlistenPort : (configTree c).get read.port (text "listenPort") 5000 = c.listenPort :=
    get_leaf rfl (hport c.listenPort)
  have hcontrolPort :
      (configTree c).get read.port (text "controlServerPort") 5010 = c.controlServerPort :=
    get_leaf rfl (hport c.controlServerPort)
  have hthreads : (configTree c).get read.size (text "threadNum") 0 = 0 := rfl
  have hchild : (configTree c).child? (text "EmbedWebServerConfig") =
      some (embedWebServerTree c.embedWebServerConfig) := rfl
  rw [parseJson, hlistenPort, hcontrolPort, hthreads, hchild]
  simp only [parseEmbedWebServer_of_loaded hport hflag h]
  have hreloaded : reloaded c =
      { c with
        threadNum := 0
        embedWebServerConfig :=
          { c.embedWebServerConfig with
            allowFileExtList := defaultEmbedWebServerConfig.allowFileExtList
            backendJsonString :=
              backendJsonString c.embedWebServerConfig.backendHost (backendPortOf c) } } := by
    rw [← h.backend]
    rfl
  rw [hreloaded]
  rfl

/-! ## The document of a running server -/

/-- At any time in any run, the status document can be read, and a file with its part
for the configuration is loaded as the configuration of the process, but for the
allowed extensions and the number of threads. -/
theorem status_reloads (hport : ∀ port : UInt16, read.port (decimal port.toNat) = some port)
    (hflag : ∀ b, read.flag (boolText b) = some b) {file : PropertyTree}
    {actions : List SerialPortControlServer.Action} {server : SerialPortControlServer}
    (hexec : Transition.exec SerialPortControlServer.step (.init (parseJson read file)) actions =
      some server) :
    ∃ document config, readJson (createJsonString server) = some document ∧
      document.child? (text "config") = some config ∧
      parseJson read config = reloaded (parseJson read file) := by
  have hconfig : server.config = parseJson read file :=
    Transition.exec_invariant (fun server => server.config = parseJson read file)
      (fun _ _ _ (_ : True) h hstep =>
        (congrArg SerialPortControlServer.config (SerialPortControlServer.step_eq hstep)).trans h)
      rfl (Transition.meets_true _ actions) hexec
  refine ⟨statusTree server, configTree server.config, readJson_createJsonString server, rfl, ?_⟩
  rw [hconfig]
  exact parseJson_configTree hport hflag (loaded_parseJson read file)

/-! ## Reading numbers and flags -/

/-- The number that digits stand for. -/
def readDecimal (data : Bytes) : Option Nat :=
  if data ≠ [] ∧ data.all Json.isDigit then
    some (data.foldl (fun n b => 10 * n + (b.toNat - 48)) 0)
  else none

theorem foldl_decimal (n : Nat) :
    (decimal n).foldl (fun n b => 10 * n + (b.toNat - 48)) 0 = n := by
  have hdigit : ∀ digit < 10, (ch (Nat.digitChar digit)).toNat - 48 = digit := by decide
  induction n using Nat.strongRecOn with
  | ind n ih =>
      by_cases hsmall : n < 10
      · rw [decimal, Nat.toDigits_of_lt_base hsmall]
        simpa using hdigit n hsmall
      · have hsplit : decimal n = decimal (n / 10) ++ [ch (n % 10).digitChar] := by
          simp [decimal, Nat.toDigits_of_base_le (by decide) (Nat.le_of_not_lt hsmall)]
        rw [hsplit, List.foldl_append, ih (n / 10) (by omega), List.foldl_cons, List.foldl_nil,
          hdigit (n % 10) (Nat.mod_lt n (by decide))]
        omega

theorem readDecimal_decimal (n : Nat) : readDecimal (decimal n) = some n := by
  have hdigits : (decimal n).all Json.isDigit = true :=
    List.all_eq_true.mpr fun b hb => Json.isDigit_of_mem_decimal hb
  have hne : decimal n ≠ [] := by simp [decimal]
  rw [readDecimal, if_pos ⟨hne, hdigits⟩, foldl_decimal]

/-- What streams read: a number that fits, and one of the two words. -/
def streamTranslators : Translators where
  port data := (readDecimal data).bind fun n => if n < 65536 then some n.toUInt16 else none
  size data := (readDecimal data).bind fun n => if n < 18446744073709551616 then some n else none
  flag data := if data = text "true" then some true else if data = text "false" then some false
    else none

theorem streamTranslators_port (port : UInt16) :
    streamTranslators.port (decimal port.toNat) = some port := by
  simp only [streamTranslators, readDecimal_decimal, Option.bind_some]
  rw [if_pos port.toNat_lt, Nat.toUInt16_eq, UInt16.ofNat_toNat]

/-- A file that enables the embedded server and allows one extension, with eight threads. -/
def oneExtensionFile : PropertyTree :=
  node [] [(text "controlServerPort", node (text "8080") []),
    (text "threadNum", node (text "8") []),
    (text "EmbedWebServerConfig", node [] [(text "enable", node (text "true") []),
      (text "allowFileExtList", node (text "html") [])])]

theorem status_reloads_oneExtensionFile :
    ∃ server, Transition.exec SerialPortControlServer.step
        (.init (parseJson streamTranslators oneExtensionFile)) [.start, .found (some [])] =
          some server ∧
      ∃ document config, readJson (createJsonString server) = some document ∧
        document.child? (text "config") = some config ∧
        parseJson streamTranslators config =
          reloaded (parseJson streamTranslators oneExtensionFile) := by
  obtain ⟨server, hexec, -⟩ :
      ∃ server, Transition.exec SerialPortControlServer.step
          (.init (parseJson streamTranslators oneExtensionFile)) [.start, .found (some [])] =
            some server ∧ server.portsInfo = [] := Transition.exists_exec (by decide +kernel)
  exact ⟨server, hexec, status_reloads streamTranslators_port (by decide) hexec⟩

end HttpConnectSession

end Vorze
