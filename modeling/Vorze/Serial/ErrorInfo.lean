import Vorze.Text

/-! # Error values of the port calls -/

namespace Vorze

/-- `boost::system::error_code`: zero is success. The message is the text the
category of the code gives for it. -/
structure ErrorCode where
  value : Nat
  message : Bytes
  deriving DecidableEq, Repr

namespace ErrorCode

def success : ErrorCode := ⟨0, []⟩

/-- `boost::asio::error::already_open`. -/
def alreadyOpen : ErrorCode := ⟨1, text "Already open"⟩

/-- The conversion of an `error_code` to `bool`. -/
def failed (ec : ErrorCode) : Bool := ec.value != 0

end ErrorCode

/-- `error_info`. -/
structure ErrorInfo where
  info : Bytes := []
  ec : ErrorCode := .success
  deriving DecidableEq, Repr

namespace ErrorInfo

/-- `explicit operator bool`. -/
def isError (e : ErrorInfo) : Bool := !e.info.isEmpty || e.ec.failed

/-- What every operation on a closed port reports. -/
def notOpen : ErrorInfo := { info := text "!serialPort.is_open()" }

/-- `SerialPortSession::open()` and `setBaudRate()` add the text of the failure. -/
def ofText (info : Bytes) : ErrorInfo := { info := info }

def ofCode (ec : ErrorCode) : ErrorInfo := { ec := ec }

end ErrorInfo

end Vorze
