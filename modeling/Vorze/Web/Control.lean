import Vorze.Foundation.PropertyTree
import Vorze.Serial.ControlServer
import Vorze.Web.Message
import Vorze.Web.Query

/-! # Handling a control request

`HttpConnectSession` from the parsed request to the response, with what the
request does to the `SerialPortControlServer`.
-/

namespace Vorze.HttpConnectSession

/-! ## The status document -/

def boolText (b : Bool) : Bytes := if b then text "true" else text "false"

def embedWebServerTree (ews : EmbedWebServerConfig) : PropertyTree :=
  PropertyTree.empty
    |>.put (text "enable") (boolText ews.enable)
    |>.put (text "host") ews.host
    |>.put (text "port") (decimal ews.port.toNat)
    |>.put (text "backendHost") ews.backendHost
    |>.put (text "backendPort") (decimal ews.backendPort.toNat)
    |>.put (text "root_path") ews.rootPath
    |>.put (text "index_file_of_root") ews.indexFileOfRoot
    |>.put (text "backend_json_string") ews.backendJsonString

def configTree (c : Config) : PropertyTree :=
  PropertyTree.empty
    |>.put (text "listenHost") c.listenHost
    |>.put (text "listenPort") (decimal c.listenPort.toNat)
    |>.put (text "controlServerHost") c.controlServerHost
    |>.put (text "controlServerPort") (decimal c.controlServerPort.toNat)
    |>.pushBack (text "EmbedWebServerConfig") (embedWebServerTree c.embedWebServerConfig)

def portsInfoTree (ports : List SerialPortNameInfo) : PropertyTree :=
  ports.foldl (fun tree a => tree.pushBack [] (PropertyTree.empty
    |>.put (text "comName") a.comName
    |>.put (text "userFriendlyName") a.userFriendlyName)) .empty

def openPortsTree (names : List Bytes) : PropertyTree :=
  names.foldl (fun tree a => tree.pushBack [] (PropertyTree.empty.put [] a)) .empty

def createJsonString (server : SerialPortControlServer) : Bytes :=
  PropertyTree.writeJson <| PropertyTree.empty
    |>.pushBack (text "config") (configTree server.config)
    |>.pushBack (text "portsInfo") (portsInfoTree server.portsInfo)
    |>.pushBack (text "OpenPorts") (openPortsTree server.listOpenPortsName)

/-! ## The command -/

/-- `boost::lexical_cast<uint8_t>`: the target is a character type, so the cast
reads one character and yields its code. -/
def lexicalCast : Bytes → Option UInt8
  | [c] => some c
  | _ => none

/-- What `path_op` reads from the query, once all four parameters are there. -/
structure Command where
  mode : Bytes
  comName : Bytes
  direct : UInt8
  speed : UInt8
  deriving DecidableEq, Repr

namespace Command

def directIsValid (command : Command) : Bool := command.direct == 1 || command.direct == 0

def speedIsValid (command : Command) : Bool := 0 ≤ command.speed && command.speed ≤ 100

def valid (command : Command) : Bool := command.directIsValid && command.speedIsValid

/-- What a valid command does to the session of its port. -/
def send (command : Command) (session : SerialPortSession) : SerialPortSession :=
  if session.isOpen then
    session.setStateMode command.mode (command.direct == 1) command.speed .noop
      (SerialPortSession.invoke .noop)
  else session

end Command

/-- The four lookups of `path_op`. -/
def findTargets (queryPairs : QueryPairs) : Option (Bytes × Bytes × Bytes × Bytes) := do
  let targetMode ← queryPairs.find (text "_targetMode")
  let targetCOM ← queryPairs.find (text "_targetCOM")
  let targetDirect ← queryPairs.find (text "_targetDirect")
  let targetSpeed ← queryPairs.find (text "_targetSpeed")
  return (targetMode, targetCOM, targetDirect, targetSpeed)

/-- The command in a query, if it is complete and both casts succeed. -/
def readCommand (queryPairs : QueryPairs) : Option Command := do
  let (mode, comName, targetDirect, targetSpeed) ← findTargets queryPairs
  let direct ← lexicalCast targetDirect
  let speed ← lexicalCast targetSpeed
  return { mode, comName, direct, speed }

/-- A command with valid values is sent to the session of its port, or makes the
server create one. -/
def execute (server : SerialPortControlServer) (command : Command) : SerialPortControlServer :=
  if command.valid then
    match server.get command.comName with
    | some port => server.onSession port command.send
    | none => (server.create command.comName).2
  else server

/-- `what()` of the exception that a failed cast throws. -/
def badLexicalCast : Bytes :=
  text "bad lexical cast: source type value could not be interpreted as target"

def pathOp (server : SerialPortControlServer) (response : Response) (queryPairs : QueryPairs) :
    Response × SerialPortControlServer :=
  let response := { response with result := .ok }
  if queryPairs.isEmpty then (response, server)
  else
    match findTargets queryPairs with
    | none => (response, server)
    | some _ =>
        match readCommand queryPairs with
        | some command => (response, execute server command)
        | none =>
            (({ response with result := .badRequest }.set .contentType (text "text/plain")).write
              (text "boost::bad_lexical_cast:" ++ badLexicalCast ++ text "\r\n"), server)

/-! ## The response -/

def createResponse (server : SerialPortControlServer) (response : Response) (target : Bytes) :
    Response × SerialPortControlServer :=
  match route target with
  | .status =>
      ((response.set .contentType (text "text/json")).write (createJsonString server ++ text "\n"),
        server)
  | .op query => pathOp server response (splitQuery query)
  | .notFound =>
      (({ response with result := .notFound }.set .contentType (text "text/plain")).write
        (text "File not found\r\n"), server)

/-- `write_response` sets the length of what was written. -/
def writeResponse (response : Response) : Response :=
  response.set .contentLength (decimal response.body.length)

@[simp] theorem writeResponse_result (response : Response) :
    (writeResponse response).result = response.result := rfl

def processRequest (server : SerialPortControlServer) (request : Request) :
    Response × SerialPortControlServer :=
  let response : Response := { version := request.version, keepAlive := false }
  let response :=
    match request.origin with
    | some origin => if origin.isEmpty then response else
        response.set .accessControlAllowOrigin origin
    | none => response
  match request.method with
  | .get =>
      let (response, server) := createResponse server
        ({ response with result := .ok }.set .server (text "Beast")) request.target
      (writeResponse response, server)
  | _ =>
      (writeResponse (({ response with result := .badRequest }.set .contentType
        (text "text/plain")).write
          (text "Invalid request-method '" ++ request.method.name ++ text "'")), server)

end Vorze.HttpConnectSession
