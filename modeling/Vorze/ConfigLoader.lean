import Vorze.Config
import Vorze.Foundation.PropertyTree

/-! # Loading the configuration

`ConfigLoader::parse_json` on the property tree that the file was read into.
-/

namespace Vorze

/-- What the translators of `ptree::get` read from the data of a node. -/
structure Translators where
  port : Bytes → Option UInt16
  size : Bytes → Option Nat
  flag : Bytes → Option Bool

namespace PropertyTree

/-- `get_child_optional` with a path of one key. -/
def child? (tree : PropertyTree) (key : Bytes) : Option PropertyTree := tree.children.lookup key

/-- `get` with a default, which also stands in for data that cannot be read. -/
def get {α : Type} (tree : PropertyTree) (read : Bytes → Option α) (key : Bytes) (default : α) :
    α :=
  ((tree.child? key).bind fun child => read child.data).getD default

end PropertyTree

namespace ConfigLoader

/-- The values that are set before the tree is asked. -/
def defaultEmbedWebServerConfig : EmbedWebServerConfig where
  enable := false
  host := text "127.0.0.1"
  port := 5002
  backendHost := []
  backendPort := 0
  rootPath := text "./html/"
  indexFileOfRoot := text "state.html"
  allowFileExtList := text "htm html js json jpg jpeg png bmp gif ico svg"

/-- The child `EmbedWebServerConfig`; the rest of it only counts when it is enabled. -/
def parseEmbedWebServer (read : Translators) (c : EmbedWebServerConfig) (pts : PropertyTree) :
    EmbedWebServerConfig :=
  let c := { c with enable := pts.get read.flag (text "enable") false }
  if c.enable then
    { c with
      host := pts.get some (text "host") c.host
      port := pts.get read.port (text "port") c.port
      backendHost := pts.get some (text "backendHost") c.backendHost
      backendPort := pts.get read.port (text "backendPort") c.backendPort
      rootPath := pts.get some (text "root_path") c.rootPath
      indexFileOfRoot := pts.get some (text "index_file_of_root") c.indexFileOfRoot
      allowFileExtList := pts.get some (text "allowFileExtList") c.allowFileExtList }
  else c

/-- The port of the backend: the control server's unless another one is set. -/
def backendPortOf (c : Config) : UInt16 :=
  if c.embedWebServerConfig.backendPort ≠ 0 then c.embedWebServerConfig.backendPort
  else c.controlServerPort

/-- The format string with its two arguments put in. -/
def backendJsonString (host : Bytes) (port : UInt16) : Bytes :=
  text "\x7b\"host\":\"" ++ host ++ text "\",\"port\":" ++ decimal port.toNat ++ text "\x7d"

def parseJson (read : Translators) (tree : PropertyTree) : Config :=
  let c : Config :=
    { listenHost := tree.get some (text "listenHost") (text "127.0.0.1")
      listenPort := tree.get read.port (text "listenPort") 5000
      controlServerHost := tree.get some (text "controlServerHost") (text "127.0.0.1")
      controlServerPort := tree.get read.port (text "controlServerPort") 5010
      threadNum := tree.get read.size (text "threadNum") 0
      embedWebServerConfig :=
        match tree.child? (text "EmbedWebServerConfig") with
        | some pts => parseEmbedWebServer read defaultEmbedWebServerConfig pts
        | none => defaultEmbedWebServerConfig }
  { c with
    embedWebServerConfig :=
      { c.embedWebServerConfig with
        backendJsonString := backendJsonString c.embedWebServerConfig.backendHost (backendPortOf c) } }

/-! ## What is loaded for an enabled server -/

/-- The tree enables the embedded server, with this child for its values. -/
def Enables (read : Translators) (tree pts : PropertyTree) : Prop :=
  tree.child? (text "EmbedWebServerConfig") = some pts ∧
    pts.get read.flag (text "enable") false = true

/-- The backend host in the child. -/
def hostOf (pts : PropertyTree) : Bytes := pts.get some (text "backendHost") []

/-- The backend port in the child, or else the port of the control server. -/
def portOf (read : Translators) (tree pts : PropertyTree) : UInt16 :=
  let backendPort := pts.get read.port (text "backendPort") 0
  if backendPort ≠ 0 then backendPort else tree.get read.port (text "controlServerPort") 5010

/-- The flag of the loaded configuration is the one in the tree. -/
theorem enable_parseJson_iff (read : Translators) (tree : PropertyTree) :
    (parseJson read tree).embedWebServerConfig.enable = true ↔ ∃ pts, Enables read tree pts := by
  unfold parseJson Enables
  cases hchild : tree.child? (text "EmbedWebServerConfig") with
  | none => simp [defaultEmbedWebServerConfig]
  | some pts =>
      simp only [parseEmbedWebServer, Option.some.injEq, exists_eq_left']
      split
      next henable => simp [henable]
      next henable => simp [henable]

/-- The text is made from the values in the tree. -/
theorem backendJsonString_parseJson {read : Translators} {tree pts : PropertyTree}
    (h : Enables read tree pts) :
    (parseJson read tree).embedWebServerConfig.backendJsonString =
      backendJsonString (hostOf pts) (portOf read tree pts) := by
  obtain ⟨hchild, henable⟩ := h
  simp only [parseJson, hchild, parseEmbedWebServer, henable, ↓reduceIte, backendPortOf]
  rfl

end ConfigLoader

end Vorze
