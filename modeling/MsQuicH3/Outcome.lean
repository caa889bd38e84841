import MsQuicH3.State

/-! What the adapter's calls return. A frontend result keeps the adapter's own
reason; `toH3` is the conversion at the boundary. -/
namespace MsQuicH3

open Concurrency

inductive SendError where
  | winner (terminal : SendTerminal)
  | operation (error : SendOperationError)
  deriving DecidableEq, Repr

def SendError.toH3 : SendError → StreamErrorIncoming
  | .winner terminal => convertSend terminal
  | .operation error => convertSendOp error

inductive ReceiveOutcome where
  | chunk (bytes : List UInt8)
  | terminal (reason : ReceiveTerminal)
  | closedLocally
  deriving DecidableEq, Repr

def ReceiveOutcome.toH3 : ReceiveOutcome → Except StreamErrorIncoming (Option (List UInt8))
  | .chunk bytes => .ok (some bytes)
  | .terminal reason => convertRecv reason
  | .closedLocally => .ok none

/-- An accept error: the recorded cause, or a closed channel without any. -/
inductive AcceptError where
  | recorded (cause : ConnectionTerminal)
  | unrecorded
  deriving DecidableEq, Repr

def AcceptError.toH3 : AcceptError → ConnectionErrorIncoming
  | .recorded cause => convertConn cause
  | .unrecorded => .internalError "connection closed without a terminal reason"

inductive OpenError where
  | recorded (cause : ConnectionTerminal)
  | cancelled
  | invalidId
  | status (code : Status)
  deriving DecidableEq, Repr

def OpenError.toH3 : OpenError → StreamErrorIncoming
  | .recorded cause => .connectionErrorIncoming (convertConn cause)
  | .cancelled => .connectionErrorIncoming
      (.internalError "stream start cancelled without a terminal reason")
  | .invalidId => .connectionErrorIncoming (.internalError "local stream ID is invalid")
  | .status code => .unknown (.status code)

inductive Result where
  | unit
  | pollSend (poll : Poll (Except SendError Unit))
  | sendData (result : Except SendError Unit)
  | pollData (poll : Poll ReceiveOutcome)
  | pollAccept (poll : Poll (Except AcceptError StreamKey))
  | pollOpen (poll : Poll (Except OpenError (StreamKey × Nat)))
  | callback (result : Except Status Unit)

/-- The state of an executor loop between two inputs of the reducer: the next input
and what is left of the payload. -/
structure SendRound where
  input : SendInput
  remaining : List UInt8 := []

/-- Code of a request: another round of its loop, or its result. -/
abbrev Round := Code (SendRound ⊕ Result)

def Round.again (input : SendInput) (remaining : List UInt8 := []) : Round :=
  return .inl ⟨input, remaining⟩

def Round.exit (result : Result) : Round := return .inr result

end MsQuicH3
