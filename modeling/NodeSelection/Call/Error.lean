import NodeSelection.Text.Quoted

/-!
Why a call failed. Main function: `isNodeFailure`, which says whether a failure
speaks against the node itself; whatever it does not name counts as a success of
the node.
-/

namespace NodeSelection

inductive TransportError where
  | custom (kind message : String)
  | system (code : Nat)
deriving DecidableEq, Repr

namespace TransportError

def systemEntry (code : Nat) : String × String :=
  match code with
  | 2 => ("NotFound", "No such file or directory")
  | 32 => ("BrokenPipe", "Broken pipe")
  | 104 => ("ConnectionReset", "Connection reset by peer")
  | 107 => ("NotConnected", "Transport endpoint is not connected")
  | 110 => ("TimedOut", "Connection timed out")
  | 111 => ("ConnectionRefused", "Connection refused")
  | n => ("Uncategorized", "Unknown error " ++ Numeral.ofNat n)

def kind : TransportError → String
  | custom kind _ => kind
  | system code => (systemEntry code).1

def message : TransportError → String
  | custom _ message => message
  | system code => (systemEntry code).2 ++ " (os error " ++ Numeral.ofNat code ++ ")"

def debug : TransportError → String
  | custom kind message =>
    "Custom \x7b kind: " ++ kind ++ ", error: " ++ Quoted.debug message ++ " \x7d"
  | system code =>
    "Os \x7b code: " ++ Numeral.ofNat code ++ ", kind: " ++ (systemEntry code).1 ++
      ", message: " ++ Quoted.debug (systemEntry code).2 ++ " \x7d"

end TransportError

/-- What lies behind an error that has no kind of its own. -/
inductive Cause where
  | text (message : String)
  | transport (error : TransportError)
deriving DecidableEq, Repr

namespace Cause

def message : Cause → String
  | text message => message
  | transport error => error.message

def debug : Cause → String
  | text message => Quoted.debug message
  | transport error => error.debug

end Cause

/-- The error of a finished call. The library never raises one; it is told. -/
inductive CallError where
  | deadlineExceeded
  | canceled
  | serviceUnavailable (message : String)
  | gatewayTimeout (message : String)
  | status (code : Nat) (message : String)
  | other (cause : Cause)
deriving DecidableEq, Repr

namespace CallError

def ofTransport (e : TransportError) : CallError :=
  if e.kind = "TimedOut" then deadlineExceeded
  else if e.kind = "ConnectionRefused" ∨ e.kind = "ConnectionReset" ∨ e.kind = "NotConnected" then
    serviceUnavailable e.message
  else other (.transport e)

def isNodeFailure : CallError → Bool
  | deadlineExceeded | canceled | serviceUnavailable _ | gatewayTimeout _ => true
  | status code _ => code = 503 ∨ code = 504
  | other _ => false

def kindName : CallError → String
  | deadlineExceeded => "DeadlineExceeded"
  | canceled => "Canceled"
  | serviceUnavailable _ => "ServiceUnavailable"
  | gatewayTimeout _ => "GatewayTimeout"
  | status _ _ => "Status"
  | other _ => "Other"

def message : CallError → String
  | deadlineExceeded => "deadline exceeded"
  | canceled => "canceled"
  | serviceUnavailable text => "service unavailable: " ++ text
  | gatewayTimeout text => "gateway timeout: " ++ text
  | status code text => "status " ++ Numeral.ofNat code ++ ": " ++ text
  | other cause => cause.message

def debug : CallError → String
  | deadlineExceeded => "DeadlineExceeded"
  | canceled => "Canceled"
  | serviceUnavailable text => "ServiceUnavailable(" ++ Quoted.debug text ++ ")"
  | gatewayTimeout text => "GatewayTimeout(" ++ Quoted.debug text ++ ")"
  | status code text =>
    "Status \x7b code: " ++ Numeral.ofNat code ++ ", message: " ++ Quoted.debug text ++ " \x7d"
  | other cause => "Other(" ++ cause.debug ++ ")"

end CallError

end NodeSelection
