import Vorze.Config
import Vorze.Serial.Lifecycle
import Vorze.Serial.RefreshTimer

/-! # The registry of serial port sessions

`SerialPortControlServer`. A session stays alive while a handler of it is
queued, so `created` keeps every session ever made and `registered` says which
of them are still in the list `sessions`.
-/

namespace Vorze

structure SerialPortNameInfo where
  userFriendlyName : Bytes
  comName : Bytes
  deriving DecidableEq, Repr

/-- A session with the name it was created for. -/
structure CreatedSession where
  comName : Bytes
  registered : Bool
  session : SerialPortSession
  deriving DecidableEq, Repr

structure SerialPortControlServer where
  config : Config := {}
  created : List CreatedSession := []
  portsInfo : List SerialPortNameInfo := []
  timer : RefreshTimer := {}
  deriving DecidableEq, Repr

namespace SerialPortControlServer

/-- The list `sessions`. -/
def sessions (server : SerialPortControlServer) : List CreatedSession :=
  server.created.filter (·.registered)

def checkNameValid (server : SerialPortControlServer) (serialPortName : Bytes) : Bool :=
  server.portsInfo.any (·.comName == serialPortName)

/-- The session that `create` registers; its `init` runs later. -/
def newSession (serialPortName : Bytes) : CreatedSession where
  comName := serialPortName
  registered := true
  session := SerialPortSession.init {} false serialPortName .noop

/-- `create`, with whether it made a session. -/
def create (server : SerialPortControlServer) (serialPortName : Bytes) :
    Bool × SerialPortControlServer :=
  if server.checkNameValid serialPortName then
    -- the web executor is outside the sessions' one, so `init` is queued
    (true, { server with created := server.created ++ [newSession serialPortName] })
  else (false, server)

/-- `get`: the place of the first listed session whose port name is the given one. -/
def get (server : SerialPortControlServer) (serialPortName : Bytes) : Option Nat :=
  server.created.findIdx? fun c => c.registered && c.session.serialPortName == serialPortName

def listOpenPortsName (server : SerialPortControlServer) : List Bytes :=
  server.sessions.map (·.session.serialPortName)

/-- Run code of one session. -/
def onSession (server : SerialPortControlServer) (id : Nat)
    (f : SerialPortSession → SerialPortSession) : SerialPortControlServer :=
  { server with created := server.created.modify id fun c => { c with session := f c.session } }

/-- What `stopAll` does to a listed session. -/
def stopSession (c : CreatedSession) : CreatedSession :=
  if c.registered then { c with registered := false, session := c.session.close false } else c

@[simp] theorem stopSession_registered (c : CreatedSession) :
    (stopSession c).registered = false := by
  by_cases hregistered : c.registered = true <;> simp [stopSession, hregistered]

@[simp] theorem stopSession_comName (c : CreatedSession) :
    (stopSession c).comName = c.comName := by
  unfold stopSession
  split <;> rfl

def stopAll (server : SerialPortControlServer) : SerialPortControlServer :=
  { server with created := server.created.map stopSession }

def start (server : SerialPortControlServer) : SerialPortControlServer :=
  { server with timer := server.timer.flushPortInfo }

def stop (server : SerialPortControlServer) : SerialPortControlServer :=
  stopAll { server with timer := server.timer.stop }

/-- The answer of one enumeration; a failed one changes nothing. -/
def found (server : SerialPortControlServer) (ports : Option (List SerialPortNameInfo)) :
    SerialPortControlServer :=
  { server with
    portsInfo := ports.getD server.portsInfo
    timer := { server.timer with finds := server.timer.finds - 1 } }

end SerialPortControlServer

end Vorze
