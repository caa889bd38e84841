import MsQuicH3.Callback

/-! One stream: the callback of its native handle, its send half and its receive
half. -/
namespace MsQuicH3

open Concurrency

inductive StreamEvent where
  | startComplete (status : Status) (id : Nat)
  | sendComplete (cancelled : Bool) (clientContext : Option BufferId)
  | receive (buffers : List (List UInt8)) (fin : Bool)
  | peerSendShutdown
  | peerSendAborted (errorCode : Nat)
  | peerReceiveAborted (errorCode : Nat)
  | sendShutdownComplete (graceful : Bool)
  | shutdownComplete (connectionShutdown byApp closedRemotely : Bool) (errorCode : Nat)
      (closeStatus : Status)
  | other
  deriving DecidableEq, Repr

section Callback

variable (key : StreamKey)

/-- The first receive terminal wins and closes the channel behind what is queued. -/
def publishRecvTerminal (event : ReceiveEvent) : Code Unit := do
  if ← onStream key .receiveTerminalSent then return ()
  else
    onStream key (.sendReceive event)
    onStream key .endReceive

/-- The full indication is copied and accounted unless the half is done; the reply
says whether to pause. -/
def receiveData (bytes : List UInt8) : Code Bool := do
  let terminalSent ← onStream key .receiveTerminalSent
  let isSome ← onStream key .receiveIsSome
  if !terminalSent && isSome then
    match ← onStream key (.admitIndication bytes) with
    | .pend => return true
    | .accepted => return false
    | .publishFailed => do
        onStream key .dropReceive
        return false
  else return false

/-- The shared slot is filled before either half can see the reason. -/
def publishConnTerminal (reason : ConnectionTerminal) : Code Unit := do
  onConn (.recordConnTerminal reason)
  publishRecvTerminal key (.connection reason)
  let _ ← onStream key (.publishSend (.connection reason))
  return ()

/-- The bytes of one indication, empty buffers skipped. -/
def indicationBytes (buffers : List (List UInt8)) : List UInt8 :=
  (buffers.filter (fun buffer => !buffer.isEmpty)).flatten

def streamCallback : StreamEvent → Code (Except Status Unit)
  | .startComplete status id => do
      onStream key (.resolveStart (if status.isOk then .ok id else .error status))
      return .ok ()
  | .sendComplete cancelled (some context) => do
      onStream key (.dropBox context)
      onStream key (.sendEvent (.complete cancelled))
      return .ok ()
  | .sendComplete _ none => do
      let _ ← onStream key (.publishSend (.internal "SendComplete missing client context"))
      onStream key (.sendEvent .terminalWake)
      return .ok ()
  | .receive buffers fin => do
      let pend ← receiveData key (indicationBytes buffers)
      Program.when fin (publishRecvTerminal key .fin)
      return if pend then .error .pending else .ok ()
  | .peerSendShutdown => do
      publishRecvTerminal key .fin
      return .ok ()
  | .peerSendAborted errorCode => do
      publishRecvTerminal key (.reset errorCode)
      return .ok ()
  | .peerReceiveAborted errorCode => do
      let _ ← onStream key (.publishSend (.stopped errorCode))
      onStream key (.sendEvent .terminalWake)
      return .ok ()
  | .sendShutdownComplete graceful => do
      onStream key (.sendEvent (.finishComplete graceful))
      return .ok ()
  | .shutdownComplete connectionShutdown byApp closedRemotely errorCode closeStatus => do
      Program.when connectionShutdown (publishConnTerminal key
        (classifyConnShutdown byApp closedRemotely errorCode closeStatus))
      onStream key .dropReceive
      onStream key .dropSend
      onStream key .dropStart
      return .ok ()
  | .other => return .ok ()

def streamPoisonDisp : StreamEvent → Except Status Unit
  | .shutdownComplete .. => .ok ()
  | _ => .error internalErrorStatus

def streamRecover : Code (Except Status Unit) := do
  onStream key (.forceShutdown h3InternalError)
  let _ ← onStream key (.publishSend (.internal "stream callback panicked"))
  onStream key (.sendEvent .terminalWake)
  onStream key .dropSend
  publishRecvTerminal key (.internal "stream callback panicked")
  onStream key (.resolveStart (.error internalErrorStatus))
  onStream key .setPoisoned
  return .error internalErrorStatus

/-- The handler registered with the native stream. -/
def streamHandler (event : StreamEvent) : Code (Except Status Unit) :=
  guardCallback (onStream key .isPoisoned) (fun k => onStream key (.panicPoint k))
    (streamPoisonDisp event) (streamCallback key event) (streamRecover key)

end Callback

section Send

variable (key : StreamKey)

/-- The current winner without freezing the connection slot. A recorded connection
cause stands in unless the send slot holds an authoritative winner of its own. -/
def resolveTerminal : Code (Option SendTerminal) := do
  match ← onStream key .loadWinner with
  | some (.connection fallback) => do
      let reason ← onConn .peekConnTerminal
      return some (.connection (reason.getD fallback))
  | some .provisionalAbort => do
      match ← onConn .peekConnTerminal with
      | some reason => return some (.connection reason)
      | none => return some .provisionalAbort
  | none => do
      let reason ← onConn .peekConnTerminal
      return reason.map .connection
  | other => return other

/-- Freeze the connection slot if a connection cause is about to be returned. -/
def commitSendWinner : SendTerminal → Code SendTerminal
  | .connection fallback => do
      let reason ← onConn .commitConn
      return .connection (reason.getD fallback)
  | other => return other

/-- Hand the boxed buffer to native code; an immediate failure reclaims it here. -/
def submitOwnedSend (buffer : SendBuffer) : Code (Except Status Unit) := do
  let context ← onStream key (.boxSendBuffer buffer)
  match ← onStream key (.streamSend context buffer) with
  | .error status => do
      onStream key (.dropBox context)
      return .error status
  | .ok () => return .ok ()

def Round.pollSend (poll : Poll (Except SendError Unit)) : Round := Round.exit (.pollSend poll)

def Round.pollError (terminal : SendTerminal) : Round :=
  Round.pollSend (.ready (.error (.winner terminal)))

/-- The first input of a polling loop, and of every later round that polls again. -/
def pollInput (input : SendPoll → Option SendTerminal → SendInput) : Round := do
  let poll ← onStream key .pollSendChannel
  let terminal ← resolveTerminal key
  Round.again (input poll terminal)

/-- Publish a candidate and feed the winner back. -/
def publishInput (candidate : SendTerminal) (continuation : TerminalContinuation)
    (remaining : List UInt8 := []) : Round := do
  let winner ← onStream key (.publishSend candidate)
  Round.again (.terminalPublished winner continuation) remaining

def pollReady : Round := do
  if ← onStream key .finishStarted then
    match ← resolveTerminal key with
    | some winner => do
        let winner ← commitSendWinner winner
        Round.pollError winner
    | none => Round.pollError (.internal "poll_ready after finish")
  else pollInput key .pollReady

def pollReadyRound (round : SendRound) : Round := do
  match ← onStream key (.transition round.input) with
  | .pending => Round.pollSend .pending
  | .returnReady => Round.pollSend (.ready (.ok ()))
  | .returnError winner => do
      let winner ← commitSendWinner winner
      Round.pollError winner
  | .repollReady => pollInput key .pollReady
  | .publishTerminal candidate continuation => publishInput key candidate continuation
  | _ => Round.pollError (.internal "unexpected poll_ready command")

def sendData (config : H3Config) (payload : List UInt8) : Round := do
  let terminal ← resolveTerminal key
  Round.again (.sendRequested (classifyPayload payload.length config.maxSendBytes) terminal) payload

def sendDataRound (round : SendRound) : Round := do
  match ← onStream key (.transition round.input) with
  | .returnSent => Round.exit (.sendData (.ok ()))
  | .returnImmediateError error => Round.exit (.sendData (.error (.operation error)))
  | .returnError winner => do
      let winner ← commitSendWinner winner
      Round.exit (.sendData (.error (.winner winner)))
  | .submitSend => do
      -- The copy consumes what is left of the payload.
      let result ← submitOwnedSend key (copyIntoSendBuffer round.remaining)
      let terminal ← resolveTerminal key
      Round.again (.sendSubmitted result terminal)
  | .publishTerminal candidate continuation =>
      publishInput key candidate continuation round.remaining
  | _ => Round.exit (.sendData (.error (.winner (.internal "unexpected send_data command"))))

def pollFinish : Round := pollInput key .pollFinish

def pollFinishRound (round : SendRound) : Round := do
  match ← onStream key (.transition round.input) with
  | .pending => Round.pollSend .pending
  | .returnFinished => Round.pollSend (.ready (.ok ()))
  | .returnError winner => do
      let winner ← commitSendWinner winner
      Round.pollError winner
  | .submitGraceful => do
      let result ← onStream key .submitGraceful
      let terminal ← resolveTerminal key
      Round.again (.gracefulSubmitted result terminal)
  | .repollFinish => pollInput key .pollFinish
  | .publishTerminal candidate continuation => publishInput key candidate continuation
  | _ => Round.pollError (.internal "unexpected poll_finish command")

def reset (resetCode : Nat) : Round := do
  let terminal ← resolveTerminal key
  Round.again (.reset (clampApplicationCode resetCode) terminal)

def resetRound (round : SendRound) : Round := do
  match ← onStream key (.transition round.input) with
  | .noOp => Round.exit .unit
  | .submitReset code => do
      let result ← onStream key (.submitReset code)
      let terminal ← resolveTerminal key
      Round.again (.resetSubmitted code result terminal)
  | .publishTerminal candidate continuation => publishInput key candidate continuation
  | _ => Round.exit .unit

end Send

section Receive

variable (key : StreamKey)

def storeAndConvert (terminal : ReceiveTerminal) : Code (Poll ReceiveOutcome) := do
  onStream key (.storeRecvTerminal terminal)
  return .ready (.terminal terminal)

def pollEvent : Code (Poll ReceiveOutcome) := do
  if ← onStream key .receiveClosed then return .ready .closedLocally
  else
    match ← onStream key .recvTerminal with
    | some terminal => return .ready (.terminal terminal)
    | none => do
        match ← onStream key .pollReceive with
        | .pending => return .pending
        | .ready (some (.data bytes)) => return .ready (.chunk bytes)
        | .ready (some .fin) => storeAndConvert key .fin
        | .ready (some (.reset code)) => storeAndConvert key (.reset code)
        | .ready (some (.connection fallback)) => do
            let winner ← onConn .observeConnWinner
            storeAndConvert key (.connection (winner.getD fallback))
        | .ready (some (.internal message)) => storeAndConvert key (.internal message)
        | .ready none =>
            storeAndConvert key (.internal "receive channel closed without a terminal reason")

def pollData : Code (Poll ReceiveOutcome) := do
  let polled ← pollEvent key
  match polled with
  | .ready (.chunk bytes) => do
      match ← onStream key (.onDrained bytes.length) with
      | some len => onStream key (.submitReceiveComplete len)
      | none => pure ()
      return polled
  | _ => return polled

def stopSending (errorCode : Nat) : Code Unit := do
  onStream key (.submitStopSending (clampApplicationCode errorCode))
  onStream key .closeReceiveLocally

end Receive

end MsQuicH3
