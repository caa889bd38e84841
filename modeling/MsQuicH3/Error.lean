import Mathlib.Data.UInt

/-! The error vocabulary of the adapter: why a connection or a stream half ended,
the h3 errors these reasons become, and the reducer that drives the send half. -/
namespace MsQuicH3

/-- A native status: one of the codes the adapter names, or another value, of
which it only asks whether it reports success. -/
inductive Status where
  | success
  | pending
  | aborted
  | internalError
  | connectionTimeout
  | connectionIdle
  | other (raw : Nat) (ok : Bool)
  deriving DecidableEq, Repr

def Status.isOk : Status → Bool
  | .success | .pending => true
  | .other _ ok => ok
  | _ => false

/-- The largest QUIC variable-length integer. -/
def maxQuicVarint : Nat := 2 ^ 62 - 1

/-- The default ceiling of one `send_data` payload, 16 MiB. -/
def maxAdapterSend : Nat := 16 * 1024 * 1024

def clampApplicationCode (code : Nat) : Nat := min code maxQuicVarint

/-- The adapter's own errors and the native status, as they are boxed for h3. -/
inductive BoxedError where
  | oversizedSend (len maxBytes : Nat)
  | msQuicTransportError (status : Status) (errorCode : Nat)
  | localConnectionClose
  | localStreamReset (code : Nat)
  | status (status : Status)
  deriving DecidableEq, Repr

inductive ConnectionErrorIncoming where
  | applicationClose (errorCode : Nat)
  | timeout
  | internalError (message : String)
  | undefined (error : BoxedError)
  deriving DecidableEq, Repr

inductive StreamErrorIncoming where
  | connectionErrorIncoming (connectionError : ConnectionErrorIncoming)
  | streamTerminated (errorCode : Nat)
  | unknown (error : BoxedError)
  deriving DecidableEq, Repr

inductive ConnectionTerminal where
  | peerApplication (code : Nat)
  | timeout
  | transport (status : Status) (errorCode : Nat)
  | localClose
  | internal (message : String)
  deriving DecidableEq, Repr

/-- Only a local close may still be refined. -/
def ConnectionTerminal.isProvisional : ConnectionTerminal → Bool
  | .localClose => true
  | _ => false

inductive ReceiveTerminal where
  | fin
  | reset (code : Nat)
  | connection (reason : ConnectionTerminal)
  | internal (message : String)
  deriving DecidableEq, Repr

inductive SendTerminal where
  | stopped (code : Nat)
  | connection (reason : ConnectionTerminal)
  | localReset (code : Nat)
  | failed (status : Status)
  | provisionalAbort
  | internal (message : String)
  deriving DecidableEq, Repr

/-- Only the marker of a cancelled send may still be refined. -/
def SendTerminal.isProvisional : SendTerminal → Bool
  | .provisionalAbort => true
  | _ => false

def abortedStatus : Status := .aborted

def convertConn : ConnectionTerminal → ConnectionErrorIncoming
  | .peerApplication code => .applicationClose code
  | .timeout => .timeout
  | .transport status errorCode => .undefined (.msQuicTransportError status errorCode)
  | .localClose => .undefined .localConnectionClose
  | .internal message => .internalError message

def convertSend : SendTerminal → StreamErrorIncoming
  | .stopped code => .streamTerminated code
  | .connection reason => .connectionErrorIncoming (convertConn reason)
  | .localReset code => .unknown (.localStreamReset code)
  | .failed status => .unknown (.status status)
  | .provisionalAbort => .unknown (.status abortedStatus)
  | .internal message => .connectionErrorIncoming (.internalError message)

/-- A clean end of stream is `ok none`; every other terminal is an error. -/
def convertRecv : ReceiveTerminal → Except StreamErrorIncoming (Option (List UInt8))
  | .fin => .ok none
  | .reset code => .error (.streamTerminated code)
  | .connection reason => .error (.connectionErrorIncoming (convertConn reason))
  | .internal message => .error (.connectionErrorIncoming (.internalError message))

/-- h3 can tell any two connection causes apart. -/
theorem convertConn_injective : Function.Injective convertConn := by
  intro a b h
  cases a <;> cases b <;> simp_all [convertConn]

/-- One event of the single ordered send channel. -/
inductive SendEvent where
  | complete (cancelled : Bool)
  | terminalWake
  | finishComplete (graceful : Bool)
  deriving DecidableEq, Repr

structure SendState where
  sendSubmitting : Bool := false
  sendInprogress : Bool := false
  finishSubmitting : Bool := false
  finishStarted : Bool := false
  finishComplete : Bool := false
  resetSubmitting : Bool := false
  deriving DecidableEq, Repr

def SendState.new : SendState := {}

/-- A native submission is reserved but its result has not arrived. -/
def SendState.submissionReserved (state : SendState) : Bool :=
  state.sendSubmitting || state.finishSubmitting || state.resetSubmitting

/-- The frontend method that asked for a publication. -/
inductive TerminalContinuation where
  | sendData
  | pollReady
  | pollFinish
  | reset
  deriving DecidableEq, Repr

inductive SendPoll where
  | pending
  | event (event : SendEvent)
  | closed
  deriving DecidableEq, Repr

inductive SendPayload where
  | empty
  | nonEmpty (len : UInt32)
  | oversized (len ceiling : Nat)
  deriving DecidableEq, Repr

inductive SendOperationError where
  | oversizedSend (len ceiling : Nat)
  | misuse (message : String)
  deriving DecidableEq, Repr

inductive SendInput where
  | sendRequested (payload : SendPayload) (terminal : Option SendTerminal)
  | sendSubmitted (result : Except Status Unit) (terminal : Option SendTerminal)
  | pollReady (poll : SendPoll) (terminal : Option SendTerminal)
  | pollFinish (poll : SendPoll) (terminal : Option SendTerminal)
  | reset (code : Nat) (terminal : Option SendTerminal)
  | gracefulSubmitted (result : Except Status Unit) (terminal : Option SendTerminal)
  | resetSubmitted (code : Nat) (result : Except Status Unit) (terminal : Option SendTerminal)
  | terminalPublished (winner : SendTerminal) (continuation : TerminalContinuation)

inductive SendCommand where
  | pending
  | noOp
  | returnSent
  | submitSend
  | submitGraceful
  | submitReset (code : Nat)
  | repollFinish
  | repollReady
  | publishTerminal (candidate : SendTerminal) (continuation : TerminalContinuation)
  | returnImmediateError (error : SendOperationError)
  | returnReady
  | returnFinished
  | returnError (winner : SendTerminal)
  deriving DecidableEq, Repr

def convertSendOp : SendOperationError → StreamErrorIncoming
  | .oversizedSend len ceiling => .unknown (.oversizedSend len ceiling)
  | .misuse message => .connectionErrorIncoming (.internalError message)

/-- The winner, unless it is the marker that may still be refined. -/
def definitive (terminal : Option SendTerminal) : Option SendTerminal :=
  terminal.filter (fun winner => !winner.isProvisional)

def provisionalPending (terminal : Option SendTerminal) : Bool :=
  terminal.any SendTerminal.isProvisional

/-- An internal fault of the adapter, to be published and fed back. -/
def publishInternal (message : String) (continuation : TerminalContinuation) : SendCommand :=
  .publishTerminal (.internal message) continuation

/-- The arm of `transition` for `poll_ready`. -/
def transitionPollReady (state : SendState) (poll : SendPoll)
    (terminal : Option SendTerminal) : SendCommand × SendState :=
  if state.submissionReserved then
    (publishInternal "poll_ready during submission reservation" .pollReady, state)
  else match definitive terminal with
  | some winner => (.returnError winner, { state with sendInprogress := false })
  | none =>
    if state.finishStarted then (.returnError (.internal "poll_ready after finish"), state)
    else
      let provisional := provisionalPending terminal
      match poll with
      | .closed =>
          if provisional then (.publishTerminal (.failed abortedStatus) .pollReady, state)
          else (publishInternal "send channel closed without a terminal" .pollReady, state)
      | .event (.complete false) =>
          if !state.sendInprogress then
            (publishInternal "SendComplete without an outstanding send" .pollReady, state)
          else (.returnReady, { state with sendInprogress := false })
      | .event (.complete true) =>
          if !state.sendInprogress then
            (publishInternal "cancelled SendComplete without an outstanding send" .pollReady, state)
          else (.publishTerminal .provisionalAbort .pollReady, { state with sendInprogress := false })
      | .event .terminalWake =>
          if provisional then (.publishTerminal (.failed abortedStatus) .pollReady, state)
          else (publishInternal "terminal wake without a terminal" .pollReady, state)
      | .event (.finishComplete _) =>
          (publishInternal "finish event observed on poll_ready" .pollReady, state)
      | .pending =>
          if state.sendInprogress then (.pending, state)
          else if provisional then (.pending, state)
          else (.returnReady, state)

/-- The arm of `transition` for `poll_finish`. An absorbed finish and a finish that
completed just now come before any recorded terminal. -/
def transitionPollFinish (state : SendState) (poll : SendPoll)
    (terminal : Option SendTerminal) : SendCommand × SendState :=
  if state.finishComplete then (.returnFinished, state)
  else if state.submissionReserved then
    (publishInternal "poll_finish during submission reservation" .pollFinish, state)
  else match poll with
  | .event (.finishComplete graceful) =>
      if !state.finishStarted then
        (publishInternal "finish complete without a started finish" .pollFinish, state)
      else if graceful then (.returnFinished, { state with finishComplete := true })
      else (.publishTerminal ((definitive terminal).getD (.failed abortedStatus)) .pollFinish, state)
  | poll =>
    match definitive terminal with
    | some winner => (.returnError winner, { state with sendInprogress := false })
    | none =>
      let provisional := provisionalPending terminal
      match poll with
      | .closed =>
          if provisional then (.publishTerminal (.failed abortedStatus) .pollFinish, state)
          else (publishInternal "send channel closed without a terminal" .pollFinish, state)
      | .event (.complete false) =>
          if state.finishStarted then
            (publishInternal "impossible poll_finish event/state" .pollFinish, state)
          else if !state.sendInprogress then
            (publishInternal "SendComplete without an outstanding send" .pollFinish, state)
          else (.submitGraceful, { state with sendInprogress := false, finishSubmitting := true })
      | .event (.complete true) =>
          if state.finishStarted then
            (publishInternal "impossible poll_finish event/state" .pollFinish, state)
          else if !state.sendInprogress then
            (publishInternal "cancelled SendComplete without an outstanding send" .pollFinish, state)
          else (.publishTerminal .provisionalAbort .pollFinish, { state with sendInprogress := false })
      | .event .terminalWake =>
          if provisional then (.publishTerminal (.failed abortedStatus) .pollFinish, state)
          else (publishInternal "terminal wake without a terminal" .pollFinish, state)
      | .pending =>
          if state.finishStarted then (.pending, state)
          else if state.sendInprogress then (.pending, state)
          else if provisional then (.pending, state)
          else (.submitGraceful, { state with finishSubmitting := true })
      | .event (.finishComplete _) =>
          (publishInternal "impossible poll_finish event/state" .pollFinish, state)

/-- The send reducer: one command for each input, and the new bookkeeping. -/
def transition (state : SendState) : SendInput → SendCommand × SendState
  | .sendSubmitted result terminal =>
      if !state.sendSubmitting then
        (publishInternal "SendSubmitted without reservation" .sendData, state)
      else
        let state := { state with sendSubmitting := false }
        match result with
        | .ok () =>
            match definitive terminal with
            | some winner => (.returnError winner, { state with sendInprogress := true })
            | none => (.returnSent, { state with sendInprogress := true })
        | .error status =>
            (.publishTerminal ((definitive terminal).getD (.failed status)) .sendData, state)
  | .gracefulSubmitted result terminal =>
      if !state.finishSubmitting then
        (publishInternal "GracefulSubmitted without reservation" .pollFinish, state)
      else
        let state := { state with finishSubmitting := false }
        match result with
        | .ok () => (.repollFinish, { state with finishStarted := true })
        | .error status =>
            (.publishTerminal ((definitive terminal).getD (.failed status)) .pollFinish, state)
  | .resetSubmitted code result terminal =>
      if !state.resetSubmitting then
        (publishInternal "ResetSubmitted without reservation" .reset, state)
      else
        let state := { state with resetSubmitting := false }
        match result with
        | .ok () => (.publishTerminal ((definitive terminal).getD (.localReset code)) .reset, state)
        | .error status =>
            (.publishTerminal ((definitive terminal).getD (.failed status)) .reset, state)
  | .terminalPublished winner continuation =>
      if winner.isProvisional then
        match continuation with
        | .pollReady => (.repollReady, state)
        | .pollFinish => (.repollFinish, state)
        | .sendData | .reset => (.noOp, state)
      else
        match continuation with
        | .sendData | .pollReady | .pollFinish => (.returnError winner, state)
        | .reset => (.noOp, state)
  | .sendRequested payload terminal =>
      match definitive terminal with
      | some winner => (.returnError winner, state)
      | none =>
        if state.sendInprogress || state.sendSubmitting || state.finishSubmitting
            || state.finishStarted || state.finishComplete then
          (.returnImmediateError
            (.misuse "send_data called while a send is already in progress"), state)
        else
          match payload with
          | .empty => (.returnSent, state)
          | .oversized len ceiling =>
              (.returnImmediateError (.oversizedSend len ceiling), state)
          | .nonEmpty _ => (.submitSend, { state with sendSubmitting := true })
  | .reset code terminal =>
      if state.finishComplete || (definitive terminal).isSome then (.noOp, state)
      else if state.submissionReserved then
        (publishInternal "reset during submission reservation" .reset, state)
      else (.submitReset code, { state with resetSubmitting := true })
  | .pollReady poll terminal => transitionPollReady state poll terminal
  | .pollFinish poll terminal => transitionPollFinish state poll terminal

end MsQuicH3
