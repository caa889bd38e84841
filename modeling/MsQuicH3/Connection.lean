import MsQuicH3.Callback

/-! The connection: the callback of its native handle and the accept frontends. -/
namespace MsQuicH3

open Concurrency

inductive ConnectionEvent where
  | connected
  | shutdownInitiatedByPeer (errorCode : Nat)
  | shutdownInitiatedByTransport (status : Status) (errorCode : Nat)
  | peerStreamStarted (key : StreamKey) (unidirectional : Bool)
  | shutdownComplete
  | other
  deriving DecidableEq, Repr

/-- Stream IDs are 62-bit. -/
def validateStreamId (raw : Nat) : Option Nat := if raw ≤ maxQuicVarint then some raw else none

def wakeAcceptors : Code Unit := do
  onConn .dropUni
  onConn .dropBidi

/-- Resolve the stream ID on the borrowed handle. A failure ends the connection
state and leaves the handle to native code. -/
def acceptStreamId (key : StreamKey) : Code (Except Status Nat) := do
  match ← onConn (.getStreamId key) with
  | .error status => do
      onConn (.recordConnTerminal (.internal "accepted stream ID query failed"))
      wakeAcceptors
      return .error status
  | .ok raw =>
      match validateStreamId raw with
      | some id => return .ok id
      | none => do
          onConn (.recordConnTerminal (.internal "accepted stream ID is invalid"))
          wakeAcceptors
          return .error .internalError

/-- Whether the stream was handed to the accept queue of its direction. -/
def deliverStream (key : StreamKey) (unidirectional : Bool) : Code Bool :=
  if unidirectional then onConn (.sendUni key) else onConn (.sendBidi key)

def connectionCallback : ConnectionEvent → Code (Except Status Unit)
  | .connected => do
      onConn (.sendConnected (.ok ()))
      return .ok ()
  | .shutdownInitiatedByPeer errorCode => do
      onConn (.recordConnTerminal (.peerApplication errorCode))
      onConn (.sendConnected (.error .aborted))
      return .ok ()
  | .shutdownInitiatedByTransport status errorCode => do
      onConn (.recordConnTerminal (classifyTransport status errorCode))
      onConn (.sendConnected (.error status))
      return .ok ()
  | .peerStreamStarted key unidirectional => do
      match ← acceptStreamId key with
      | .error status => return .error status
      | .ok _ => do
          onConn (.fromRaw key)
          if ← deliverStream key unidirectional then return .ok ()
          else
            onConn (.closeStream key)
            return .ok ()
  | .shutdownComplete => do
      onConn (.recordConnTerminal .localClose)
      onConn (.sendConnected (.error .aborted))
      onConn .dropUni
      onConn .dropBidi
      onConn .sendShutdown
      return .ok ()
  | .other => return .ok ()

def connPoisonDisp : ConnectionEvent → Except Status Unit
  | .shutdownComplete => .ok ()
  | _ => .error internalErrorStatus

/-- Unwinding first drops what the body still owned; the return value leaves a
handle that was owned to that drop. -/
def connectionRecover : Code (Except Status Unit) := do
  match ← onConn .heldStream with
  | some key => onConn (.closeStream key)
  | none => pure ()
  onConn (.forceShutdown h3InternalError)
  onConn (.recordConnTerminal (.internal "connection callback panicked"))
  onConn (.sendConnected (.error internalErrorStatus))
  wakeAcceptors
  onConn .sendShutdown
  onConn .setPoisoned
  if ← onConn .streamOwned then return .ok ()
  else return .error internalErrorStatus

/-- The handler registered with the native connection. The ownership token is new
for every invocation. -/
def connectionHandler (event : ConnectionEvent) : Code (Except Status Unit) := do
  onConn .resetStreamOwned
  guardCallback (onConn .isPoisoned) (fun k => onConn (.panicPoint k)) (connPoisonDisp event)
    (connectionCallback event) connectionRecover

/-- The recorded cause, frozen for its delivery, or the text for having none. -/
def observeTerminal : Code AcceptError := do
  match ← onConn .commitConn with
  | some cause => return .recorded cause
  | none => return .unrecorded

/-- An accept frontend over its channel: an internal failure is reported ahead of
queued streams, any other cause behind them. -/
def pollAccept (next : Code (Poll (Option (Option StreamKey)))) :
    Code (Poll (Except AcceptError StreamKey)) := do
  match ← onConn .failFastTerminal with
  | some cause => return .ready (.error (.recorded cause))
  | none => do
      match ← next with
      | .pending => return .pending
      | .ready (some (some key)) => return .ready (.ok key)
      | .ready _ => do
          let error ← observeTerminal
          return .ready (.error error)

def pollAcceptRecv : Code (Poll (Except AcceptError StreamKey)) :=
  pollAccept (onConn .pollUni)

def pollAcceptBidi : Code (Poll (Except AcceptError StreamKey)) :=
  pollAccept (onConn .pollBidi)

end MsQuicH3
