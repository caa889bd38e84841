import MsQuicH3.Concurrency.Flowchart
import MsQuicH3.Adapter
import MsQuicH3.Reducer

/-! The four send methods as one flowchart. Every method resolves the terminal for
some purpose, feeds the reducer and obeys its command; the points name where in
this cycle a call is and carry what it has read so far. -/
namespace MsQuicH3

open Concurrency

/-- What a resolved terminal is needed for. -/
inductive Purpose where
  | guard
  | request (payload : List UInt8)
  | poll (poll : SendPoll)
  | reset (code : Nat)
  | sendSubmitted (result : Except Status Unit)
  | gracefulSubmitted (result : Except Status Unit)
  | resetSubmitted (code : Nat) (result : Except Status Unit)

/-- Where a call of a send method is. -/
inductive SendPoint where
  | guard
  | poll
  | load (purpose : Purpose)
  | peek (purpose : Purpose) (slot : Option SendTerminal)
  | again (round : SendRound)
  | feed (round : SendRound)
  | publish (candidate : SendTerminal) (continuation : TerminalContinuation)
      (remaining : List UInt8)
  | box (buffer : SendBuffer)
  | submit (context : BufferId) (buffer : SendBuffer)
  | reclaim (context : BufferId) (status : Status)
  | submitGraceful
  | submitReset (code : Nat)
  | commit (fallback : ConnectionTerminal)
  | dropHalf
  | exit (result : Result)

/-- The result of a method that reports a winner. -/
def SendCall.failure (winner : SendTerminal) : SendCall → Result
  | .pollReady | .pollFinish => .pollSend (.ready (.error (.winner winner)))
  | .sendData _ => .sendData (.error (.winner winner))
  | .reset _ | .drop => .unit

/-- A winner is on its way out: a connection cause is frozen first. -/
def SendCall.returning (call : SendCall) : SendTerminal → SendPoint
  | .connection fallback => .commit fallback
  | winner => .exit (call.failure winner)

/-- A slot that settles the terminal without a look at the connection slot. -/
def decides : Option SendTerminal → Bool
  | none | some .provisionalAbort | some (.connection _) => false
  | _ => true

/-- The terminal that follows from the send slot and the connection slot. -/
def resolveWith (slot : Option SendTerminal) (reason : Option ConnectionTerminal) :
    Option SendTerminal :=
  match slot, reason with
  | some (.connection fallback), reason => some (.connection (reason.getD fallback))
  | _, some reason => some (.connection reason)
  | slot, none => slot

def SendCall.pollInput (poll : SendPoll) (terminal : Option SendTerminal) :
    SendCall → SendInput
  | .pollReady => .pollReady poll terminal
  | _ => .pollFinish poll terminal

/-- What a call does with the terminal it resolved. -/
def SendCall.resolved (config : H3Config) (call : SendCall) (terminal : Option SendTerminal) :
    Purpose → SendPoint
  | .guard =>
      match terminal with
      | some winner => call.returning winner
      | none => .exit (call.failure (.internal "poll_ready after finish"))
  | .request payload =>
      .again ⟨.sendRequested (classifyPayload payload.length config.maxSendBytes) terminal, payload⟩
  | .poll poll => .again ⟨call.pollInput poll terminal, []⟩
  | .reset code => .again ⟨.reset code terminal, []⟩
  | .sendSubmitted result => .again ⟨.sendSubmitted result terminal, []⟩
  | .gracefulSubmitted result => .again ⟨.gracefulSubmitted result terminal, []⟩
  | .resetSubmitted code result => .again ⟨.resetSubmitted code result terminal, []⟩

/-- What a call does with the reducer's command. -/
def SendCall.obey (remaining : List UInt8) : SendCall → SendCommand → SendPoint
  | .pollReady, .pending => .exit (.pollSend .pending)
  | .pollReady, .returnReady => .exit (.pollSend (.ready (.ok ())))
  | .pollReady, .returnError winner => SendCall.pollReady.returning winner
  | .pollReady, .repollReady => .poll
  | .pollReady, .publishTerminal candidate continuation => .publish candidate continuation []
  | .pollReady, _ => .exit (SendCall.pollReady.failure (.internal "unexpected poll_ready command"))
  | .sendData _, .returnSent => .exit (.sendData (.ok ()))
  | .sendData _, .returnImmediateError error => .exit (.sendData (.error (.operation error)))
  | .sendData payload, .returnError winner => (SendCall.sendData payload).returning winner
  | .sendData _, .submitSend => .box (copyIntoSendBuffer remaining)
  | .sendData _, .publishTerminal candidate continuation =>
      .publish candidate continuation remaining
  | .sendData payload, _ =>
      .exit ((SendCall.sendData payload).failure (.internal "unexpected send_data command"))
  | .pollFinish, .pending => .exit (.pollSend .pending)
  | .pollFinish, .returnFinished => .exit (.pollSend (.ready (.ok ())))
  | .pollFinish, .returnError winner => SendCall.pollFinish.returning winner
  | .pollFinish, .submitGraceful => .submitGraceful
  | .pollFinish, .repollFinish => .poll
  | .pollFinish, .publishTerminal candidate continuation => .publish candidate continuation []
  | .pollFinish, _ =>
      .exit (SendCall.pollFinish.failure (.internal "unexpected poll_finish command"))
  | .reset _, .submitReset code => .submitReset code
  | .reset _, .publishTerminal candidate continuation => .publish candidate continuation []
  | .reset _, _ | .drop, _ => .exit .unit

def SendCall.node (config : H3Config) (key : StreamKey) (call : SendCall) :
    SendPoint → (Σ op : Op, op.Reply → SendPoint) ⊕ (SendRound ⊕ Result)
  | .guard => .inl ⟨.stream key .finishStarted,
      fun started => if started then .load .guard else .poll⟩
  | .poll => .inl ⟨.stream key .pollSendChannel, fun poll => .load (.poll poll)⟩
  | .load purpose => .inl ⟨.stream key .loadWinner, fun slot =>
      if decides slot then call.resolved config slot purpose else .peek purpose slot⟩
  | .peek purpose slot => .inl ⟨.conn .peekConnTerminal, fun reason =>
      call.resolved config (resolveWith slot reason) purpose⟩
  | .again round => .inr (.inl round)
  | .feed round => .inl ⟨.stream key (.transition round.input), call.obey round.remaining⟩
  | .publish candidate continuation remaining => .inl ⟨.stream key (.publishSend candidate),
      fun winner => .again ⟨.terminalPublished winner continuation, remaining⟩⟩
  | .box buffer => .inl ⟨.stream key (.boxSendBuffer buffer), fun context => .submit context buffer⟩
  | .submit context buffer => .inl ⟨.stream key (.streamSend context buffer), fun result =>
      match result with
      | .ok () => .load (.sendSubmitted (.ok ()))
      | .error status => .reclaim context status⟩
  | .reclaim context status => .inl ⟨.stream key (.dropBox context),
      fun _ => .load (.sendSubmitted (.error status))⟩
  | .submitGraceful => .inl ⟨.stream key .submitGraceful,
      fun result => .load (.gracefulSubmitted result)⟩
  | .submitReset code => .inl ⟨.stream key (.submitReset code),
      fun result => .load (.resetSubmitted code result)⟩
  | .commit fallback => .inl ⟨.conn .commitConn, fun reason =>
      .exit (call.failure (.connection (reason.getD fallback)))⟩
  | .dropHalf => .inl ⟨.stream key .dropSendHalf, fun _ => .exit .unit⟩
  | .exit result => .inr (.inr result)

def SendCall.chart (config : H3Config) (key : StreamKey) (call : SendCall) :
    Flowchart signature SendPoint (SendRound ⊕ Result) where
  node := call.node config key

/-- Where a call starts. -/
def SendCall.start : SendCall → SendPoint
  | .pollReady => .guard
  | .sendData payload => .load (.request payload)
  | .pollFinish => .poll
  | .reset code => .load (.reset (clampApplicationCode code))
  | .drop => .dropHalf

section Describes

variable {config : H3Config} {key : StreamKey} {call : SendCall}

/-- Code after `resolveTerminal` that only depends on its value. -/
theorem describes_resolveTerminal {purpose : Purpose} {next : Option SendTerminal → Round}
    (hNext : ∀ terminal, (call.chart config key).Describes
      (call.resolved config terminal purpose) (next terminal)) :
    (call.chart config key).Describes (.load purpose) (resolveTerminal key >>= next) := by
  refine Flowchart.describes_call rfl fun slot => ?_
  cases slot with
  | none => exact Flowchart.describes_call rfl fun reason => by cases reason <;> exact hNext _
  | some winner =>
      cases winner with
      | connection fallback => exact Flowchart.describes_call rfl fun reason => hNext _
      | provisionalAbort =>
          exact Flowchart.describes_call rfl fun reason => by cases reason <;> exact hNext _
      | stopped code => exact hNext (some (.stopped code))
      | localReset code => exact hNext (some (.localReset code))
      | failed status => exact hNext (some (.failed status))
      | internal message => exact hNext (some (.internal message))

theorem describes_returning {winner : SendTerminal} {next : SendTerminal → Round}
    (hNext : ∀ winner, next winner = Round.exit (call.failure winner)) :
    (call.chart config key).Describes (call.returning winner) (commitSendWinner winner >>= next) := by
  cases winner with
  | connection fallback =>
      refine Flowchart.describes_call rfl fun reason => ?_
      change (call.chart config key).Describes _ (next (.connection (reason.getD fallback)))
      rw [hNext]
      rfl
  | _ =>
      simp only [commitSendWinner, Program.pure_eq, Program.done_bind, hNext]
      rfl

theorem describes_publishInput (candidate : SendTerminal) (continuation : TerminalContinuation)
    (remaining : List UInt8) :
    (call.chart config key).Describes (.publish candidate continuation remaining)
      (publishInput key candidate continuation remaining) :=
  Flowchart.describes_call rfl fun _ => rfl

theorem describes_pollInput {input : SendPoll → Option SendTerminal → SendInput}
    (h : ∀ poll terminal, input poll terminal = call.pollInput poll terminal) :
    (call.chart config key).Describes .poll (pollInput key input) := by
  refine Flowchart.describes_call rfl fun poll => describes_resolveTerminal fun terminal => ?_
  rw [h]
  rfl

theorem describes_pollReady :
    (SendCall.pollReady.chart config key).Describes .guard (pollReady key) := by
  refine Flowchart.describes_call rfl fun started => ?_
  cases started with
  | true =>
      refine describes_resolveTerminal fun terminal => ?_
      cases terminal with
      | none => rfl
      | some winner => exact describes_returning fun _ => rfl
  | false => exact describes_pollInput fun _ _ => rfl

theorem describes_pollReadyRound (round : SendRound) :
    (SendCall.pollReady.chart config key).Describes (.feed round) (pollReadyRound key round) := by
  refine Flowchart.describes_call rfl fun command => ?_
  cases command with
  | returnError winner => exact describes_returning fun _ => rfl
  | repollReady => exact describes_pollInput fun _ _ => rfl
  | publishTerminal candidate continuation => exact describes_publishInput ..
  | _ => rfl

theorem describes_submitOwnedSend {buffer : SendBuffer} {payload : List UInt8}
    {next : Except Status Unit → Round}
    (hNext : ∀ result, ((SendCall.sendData payload).chart config key).Describes
      (.load (.sendSubmitted result)) (next result)) :
    ((SendCall.sendData payload).chart config key).Describes (.box buffer)
      (submitOwnedSend key buffer >>= next) := by
  refine Flowchart.describes_call rfl fun context =>
    Flowchart.describes_call rfl fun result => ?_
  cases result with
  | ok value => exact hNext (.ok ())
  | error status => exact Flowchart.describes_call rfl fun _ => hNext (.error status)

theorem describes_sendDataRound (payload : List UInt8) (round : SendRound) :
    ((SendCall.sendData payload).chart config key).Describes (.feed round)
      (sendDataRound key round) := by
  refine Flowchart.describes_call rfl fun command => ?_
  cases command with
  | returnError winner => exact describes_returning fun _ => rfl
  | submitSend =>
      exact describes_submitOwnedSend fun result => describes_resolveTerminal fun _ => rfl
  | publishTerminal candidate continuation => exact describes_publishInput ..
  | _ => rfl

theorem describes_pollFinishRound (round : SendRound) :
    (SendCall.pollFinish.chart config key).Describes (.feed round)
      (pollFinishRound key round) := by
  refine Flowchart.describes_call rfl fun command => ?_
  cases command with
  | returnError winner => exact describes_returning fun _ => rfl
  | submitGraceful =>
      exact Flowchart.describes_call rfl fun result => describes_resolveTerminal fun _ => rfl
  | repollFinish => exact describes_pollInput fun _ _ => rfl
  | publishTerminal candidate continuation => exact describes_publishInput ..
  | _ => rfl

theorem describes_resetRound (code : Nat) (round : SendRound) :
    ((SendCall.reset code).chart config key).Describes (.feed round) (resetRound key round) := by
  refine Flowchart.describes_call rfl fun command => ?_
  cases command with
  | submitReset code =>
      exact Flowchart.describes_call rfl fun result => describes_resolveTerminal fun _ => rfl
  | publishTerminal candidate continuation => exact describes_publishInput ..
  | _ => rfl

/-- A send method starts where its flowchart does. -/
theorem describes_entry (config : H3Config) (key : StreamKey) (call : SendCall) :
    (call.chart config key).Describes call.start (call.entry config key) := by
  cases call with
  | pollReady => exact describes_pollReady
  | sendData payload => exact describes_resolveTerminal fun _ => rfl
  | pollFinish => exact describes_pollInput fun _ _ => rfl
  | reset code => exact describes_resolveTerminal fun _ => rfl
  | drop => exact Flowchart.describes_call rfl fun _ => rfl

/-- Every later round of it feeds the reducer first. -/
theorem describes_body (config : H3Config) (key : StreamKey) (call : SendCall) (hCall : call ≠ .drop) (round : SendRound) :
    (call.chart config key).Describes (.feed round) ((Request.send key call).body round) := by
  cases call with
  | pollReady => exact describes_pollReadyRound round
  | sendData payload => exact describes_sendDataRound payload round
  | pollFinish => exact describes_pollFinishRound round
  | reset code => exact describes_resetRound code round
  | drop => exact absurd rfl hCall

end Describes

end MsQuicH3
