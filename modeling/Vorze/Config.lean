import Vorze.Text

/-! # The configuration record

Ports are `uint16_t`; `threadNum` is a `size_t`, and nothing depends on its width.
-/

namespace Vorze

structure EmbedWebServerConfig where
  enable : Bool := false
  host : Bytes := []
  port : UInt16 := 0
  rootPath : Bytes := []
  indexFileOfRoot : Bytes := []
  backendHost : Bytes := []
  backendPort : UInt16 := 0
  allowFileExtList : Bytes := []
  backendJsonString : Bytes := []
  deriving DecidableEq, Repr

structure Config where
  listenHost : Bytes := []
  listenPort : UInt16 := 0
  controlServerHost : Bytes := []
  controlServerPort : UInt16 := 0
  embedWebServerConfig : EmbedWebServerConfig := {}
  threadNum : Nat := 0
  deriving DecidableEq, Repr

end Vorze
