import MsQuicH3.Reducer
import MsQuicH3.SendOutline

/-! The executor loops of the four send methods. A round feeds the reducer once and
obeys its command; what the reducer may still ask for is bounded by its flags. -/
namespace MsQuicH3

open Concurrency

/-- The commands a method has an arm for. -/
def SendCall.handles : SendCall → SendCommand → Bool
  | .pollReady, .pending | .pollReady, .returnReady | .pollReady, .returnError _
  | .pollReady, .repollReady | .pollReady, .publishTerminal .. => true
  | .sendData _, .returnSent | .sendData _, .returnImmediateError _ | .sendData _, .returnError _
  | .sendData _, .submitSend | .sendData _, .publishTerminal .. => true
  | .pollFinish, .pending | .pollFinish, .returnFinished | .pollFinish, .returnError _
  | .pollFinish, .submitGraceful | .pollFinish, .repollFinish | .pollFinish, .publishTerminal .. => true
  | .reset _, .noOp | .reset _, .submitReset _ | .reset _, .publishTerminal .. => true
  | _, _ => false

/-- The rounds of one call. -/
def SendCall.bound : SendCall → Nat
  | .pollReady => 4
  | .sendData _ | .reset _ => 3
  | .pollFinish => 6
  | .drop => 0

/-- The rounds a poll of the channel may lead to. A cancelled completion and the
submission of a finish each ask for one more poll, and each clears its flag for it. -/
def SendCall.pollRounds (state : SendState) : SendCall → Nat
  | .pollReady => if state.sendInprogress then 4 else 2
  | .pollFinish => if state.finishStarted then 2 else if state.sendInprogress then 6 else 4
  | _ => 0

/-- The rounds from an input on. -/
def SendCall.rounds (call : SendCall) (state : SendState) : SendInput → Nat
  | .sendRequested .. | .reset .. | .gracefulSubmitted .. => 3
  | .sendSubmitted .. | .resetSubmitted .. => 2
  | .pollReady .. | .pollFinish .. => call.pollRounds state
  | .terminalPublished winner _ => 1 + if winner.isProvisional then call.pollRounds state else 0

/-- The rounds that follow a command. -/
def SendCall.roundsAfter (call : SendCall) (state : SendState) : SendCommand → Nat
  | .repollReady | .repollFinish => call.pollRounds state
  | .submitSend | .submitReset _ => 2
  | .submitGraceful => 3
  | .publishTerminal candidate _ =>
      1 + if candidate.isProvisional then call.pollRounds state else 0
  | _ => 0

/-- The native submissions from an input on. -/
def SendState.submissions (state : SendState) : SendInput → Nat
  | .sendRequested .. | .reset .. => 1
  | .pollFinish .. => if state.finishStarted then 0 else 1
  | .terminalPublished winner .pollFinish =>
      if winner.isProvisional && !state.finishStarted then 1 else 0
  | _ => 0

/-- The native submissions that follow a command. -/
def SendState.submissionsAfter (state : SendState) : SendCommand → Nat
  | .submitSend | .submitReset _ | .submitGraceful => 1
  | .repollFinish => if state.finishStarted then 0 else 1
  | .publishTerminal candidate .pollFinish =>
      if candidate.isProvisional && !state.finishStarted then 1 else 0
  | _ => 0

/-- The input of a round, with the reservation it finds. -/
def SendCall.Awaits (call : SendCall) (state : SendState) : SendInput → Prop
  | .sendRequested .. => (∃ payload, call = .sendData payload) ∧ state.submissionReserved = false
  | .sendSubmitted .. => (∃ payload, call = .sendData payload) ∧
      state.sendSubmitting = true ∧ state.finishSubmitting = false ∧ state.resetSubmitting = false
  | .pollReady .. => call = .pollReady ∧ state.submissionReserved = false
  | .pollFinish .. => call = .pollFinish ∧ state.submissionReserved = false
  | .gracefulSubmitted .. => call = .pollFinish ∧
      state.sendSubmitting = false ∧ state.finishSubmitting = true ∧ state.resetSubmitting = false
  | .reset .. => (∃ code, call = .reset code) ∧ state.submissionReserved = false
  | .resetSubmitted .. => (∃ code, call = .reset code) ∧
      state.sendSubmitting = false ∧ state.finishSubmitting = false ∧ state.resetSubmitting = true
  | .terminalPublished winner continuation => call.continuation = some continuation ∧
      state.submissionReserved = false ∧
      (winner.isProvisional = true → ∀ payload, call ≠ .sendData payload)

/-- The reservation a command leaves to the code that obeys it. -/
def SendCall.Reserves (call : SendCall) (state : SendState) : SendCommand → Prop
  | .submitSend => state.sendSubmitting = true ∧ state.finishSubmitting = false ∧
      state.resetSubmitting = false
  | .submitGraceful => state.sendSubmitting = false ∧ state.finishSubmitting = true ∧
      state.resetSubmitting = false
  | .submitReset _ => state.sendSubmitting = false ∧ state.finishSubmitting = false ∧
      state.resetSubmitting = true
  | .publishTerminal candidate continuation => call.continuation = some continuation ∧
      state.submissionReserved = false ∧
      (candidate.isProvisional = true → ∀ payload, call ≠ .sendData payload)
  | _ => state.submissionReserved = false

/-- One round of the reducer: a command the method has an arm for, with fewer rounds and
no more submissions left than before. -/
structure SendCall.Obeyed (call : SendCall) (state : SendState) (input : SendInput)
    (command : SendCommand) (next : SendState) : Prop where
  handled : call.handles command = true
  reserves : call.Reserves next command
  rounds : 1 + call.roundsAfter next command ≤ call.rounds state input
  submissions : next.submissionsAfter command ≤ state.submissions input

section Reducer

variable {call : SendCall} {state : SendState} {terminal : Option SendTerminal}

theorem reserved_eq_false : state.submissionReserved = false ↔
    state.sendSubmitting = false ∧ state.finishSubmitting = false ∧ state.resetSubmitting = false := by
  simp [SendState.submissionReserved, and_assoc]

/-- What a method does with a candidate of its own. -/
theorem obeyed_publish {input : SendInput} {next : SendState} {candidate : SendTerminal}
    {continuation : TerminalContinuation} (hCall : call.continuation = some continuation)
    (hFree : next.submissionReserved = false) (hOwn : candidate.isProvisional = false)
    (hRounds : 2 ≤ call.rounds state input) :
    call.Obeyed state input (.publishTerminal candidate continuation) next where
  handled := by
    cases call with
    | drop => cases hCall
    | _ => rfl
  reserves := ⟨hCall, hFree, fun h => by simp [hOwn] at h⟩
  rounds := by
    simp only [SendCall.roundsAfter, hOwn]
    exact hRounds
  submissions := by
    cases continuation <;> simp [SendState.submissionsAfter, hOwn]

theorem obeyed_terminalPublished {winner : SendTerminal} {continuation : TerminalContinuation}
    (h : call.Awaits state (.terminalPublished winner continuation)) :
    call.Obeyed state (.terminalPublished winner continuation)
      (transition state (.terminalPublished winner continuation)).1
      (transition state (.terminalPublished winner continuation)).2 := by
  obtain ⟨hCall, hFree, hSend⟩ := h
  cases hProvisional : winner.isProvisional with
  | true =>
      cases call with
      | sendData payload => exact absurd rfl (hSend hProvisional payload)
      | drop => cases hCall
      | pollReady | pollFinish | reset code =>
          cases hCall
          simp only [transition, hProvisional, ↓reduceIte]
          cases hStarted : state.finishStarted <;> constructor <;>
            simp [SendCall.handles, SendCall.Reserves, SendCall.roundsAfter, SendCall.rounds,
              SendState.submissionsAfter, SendState.submissions, hProvisional, hFree, hStarted]
  | false =>
      cases call with
      | drop => cases hCall
      | pollReady | pollFinish | sendData payload | reset code =>
          cases hCall
          simp only [transition, hProvisional, Bool.false_eq_true, ↓reduceIte]
          constructor <;>
            simp [SendCall.handles, SendCall.Reserves, SendCall.roundsAfter, SendCall.rounds,
              SendState.submissionsAfter, SendState.submissions, hProvisional, hFree]

theorem obeyed_sendRequested {payload : List UInt8} {classified : SendPayload}
    (hFree : state.submissionReserved = false) :
    (SendCall.sendData payload).Obeyed state (.sendRequested classified terminal)
      (transition state (.sendRequested classified terminal)).1
      (transition state (.sendRequested classified terminal)).2 := by
  have hFlags := reserved_eq_false.1 hFree
  simp only [transition]
  repeat' split
  all_goals constructor
  all_goals simp_all [SendCall.handles, SendCall.Reserves, SendCall.roundsAfter, SendCall.rounds,
    SendState.submissionsAfter, SendState.submissions, reserved_eq_false]

theorem obeyed_sendSubmitted {payload : List UInt8} {result : Except Status Unit}
    (hSend : state.sendSubmitting = true) (hFinish : state.finishSubmitting = false)
    (hReset : state.resetSubmitting = false) :
    (SendCall.sendData payload).Obeyed state (.sendSubmitted result terminal)
      (transition state (.sendSubmitted result terminal)).1
      (transition state (.sendSubmitted result terminal)).2 := by
  have hFree : ({ state with sendSubmitting := false } : SendState).submissionReserved = false :=
    reserved_eq_false.2 ⟨rfl, hFinish, hReset⟩
  cases result with
  | error status =>
      simp only [transition, hSend]
      exact obeyed_publish rfl hFree (getD_isProvisional rfl) (Nat.le_refl 2)
  | ok _ =>
      simp only [transition, hSend, Bool.not_true, Bool.false_eq_true, ↓reduceIte]
      split <;> constructor
      all_goals simp [SendCall.handles, SendCall.Reserves, SendCall.roundsAfter, SendCall.rounds,
        SendState.submissionsAfter, SendState.submissions, reserved_eq_false, hFinish, hReset]

theorem obeyed_reset {code target : Nat} (hFree : state.submissionReserved = false) :
    (SendCall.reset code).Obeyed state (.reset target terminal)
      (transition state (.reset target terminal)).1
      (transition state (.reset target terminal)).2 := by
  have hFlags := reserved_eq_false.1 hFree
  simp only [transition]
  repeat' split
  all_goals constructor
  all_goals simp_all [SendCall.handles, SendCall.Reserves, SendCall.roundsAfter, SendCall.rounds,
    SendState.submissionsAfter, SendState.submissions]

theorem obeyed_resetSubmitted {code target : Nat} {result : Except Status Unit}
    (hSend : state.sendSubmitting = false) (hFinish : state.finishSubmitting = false)
    (hReset : state.resetSubmitting = true) :
    (SendCall.reset code).Obeyed state (.resetSubmitted target result terminal)
      (transition state (.resetSubmitted target result terminal)).1
      (transition state (.resetSubmitted target result terminal)).2 := by
  have hFree : ({ state with resetSubmitting := false } : SendState).submissionReserved = false :=
    reserved_eq_false.2 ⟨hSend, hFinish, rfl⟩
  simp only [transition, hReset]
  cases result with
  | error status =>
      exact obeyed_publish rfl hFree (getD_isProvisional rfl) (Nat.le_refl 2)
  | ok _ =>
      exact obeyed_publish rfl hFree (getD_isProvisional rfl) (Nat.le_refl 2)

theorem obeyed_gracefulSubmitted {result : Except Status Unit}
    (hSend : state.sendSubmitting = false) (hFinish : state.finishSubmitting = true)
    (hReset : state.resetSubmitting = false) :
    SendCall.pollFinish.Obeyed state (.gracefulSubmitted result terminal)
      (transition state (.gracefulSubmitted result terminal)).1
      (transition state (.gracefulSubmitted result terminal)).2 := by
  have hFree : ({ state with finishSubmitting := false } : SendState).submissionReserved = false :=
    reserved_eq_false.2 ⟨hSend, rfl, hReset⟩
  cases result with
  | error status =>
      simp only [transition, hFinish]
      exact obeyed_publish rfl hFree (getD_isProvisional rfl) (Nat.le_succ 2)
  | ok _ =>
      simp only [transition, hFinish, Bool.not_true, Bool.false_eq_true, ↓reduceIte]
      constructor
      all_goals simp [SendCall.handles, SendCall.Reserves, SendCall.roundsAfter, SendCall.rounds,
        SendCall.pollRounds, SendState.submissionsAfter, SendState.submissions, reserved_eq_false,
        hSend, hReset]

theorem obeyed_pollReady {poll : SendPoll} (hFree : state.submissionReserved = false) :
    SendCall.pollReady.Obeyed state (.pollReady poll terminal)
      (transition state (.pollReady poll terminal)).1
      (transition state (.pollReady poll terminal)).2 := by
  have hFlags := reserved_eq_false.1 hFree
  have hTwo : 2 ≤ SendCall.pollReady.rounds state (.pollReady poll terminal) := by
    simp only [SendCall.rounds, SendCall.pollRounds]
    split <;> omega
  have hOne := Nat.le_of_succ_le hTwo
  simp only [transition, transitionPollReady, hFree]
  repeat' split
  all_goals first
    | exact obeyed_publish rfl hFree rfl hTwo
    | constructor <;> simp_all [SendCall.handles, SendCall.Reserves, SendCall.roundsAfter,
        SendCall.rounds, SendCall.pollRounds, SendCall.continuation, SendState.submissionsAfter,
        SendState.submissions, reserved_eq_false, SendTerminal.isProvisional]

theorem obeyed_pollFinish {poll : SendPoll} (hFree : state.submissionReserved = false) :
    SendCall.pollFinish.Obeyed state (.pollFinish poll terminal)
      (transition state (.pollFinish poll terminal)).1
      (transition state (.pollFinish poll terminal)).2 := by
  have hFlags := reserved_eq_false.1 hFree
  have hTwo : 2 ≤ SendCall.pollFinish.rounds state (.pollFinish poll terminal) := by
    simp only [SendCall.rounds, SendCall.pollRounds]
    split
    · exact Nat.le_refl 2
    · split <;> omega
  have hOne := Nat.le_of_succ_le hTwo
  simp only [transition, transitionPollFinish, hFree]
  repeat' split
  all_goals first
    | exact obeyed_publish rfl hFree rfl hTwo
    | exact obeyed_publish rfl hFree (getD_isProvisional rfl) hTwo
    | constructor <;> simp_all [SendCall.handles, SendCall.Reserves, SendCall.roundsAfter,
        SendCall.rounds, SendCall.pollRounds, SendCall.continuation, SendState.submissionsAfter,
        SendState.submissions, reserved_eq_false, SendTerminal.isProvisional]

/-- Every command is one its method has an arm for, and every round leaves fewer. -/
theorem obeyed {input : SendInput} (h : call.Awaits state input) :
    call.Obeyed state input (transition state input).1 (transition state input).2 := by
  cases input with
  | sendRequested payload terminal =>
      obtain ⟨⟨bytes, rfl⟩, hFree⟩ := h
      exact obeyed_sendRequested hFree
  | sendSubmitted result terminal =>
      obtain ⟨⟨bytes, rfl⟩, hSend, hFinish, hReset⟩ := h
      exact obeyed_sendSubmitted hSend hFinish hReset
  | pollReady poll terminal =>
      obtain ⟨rfl, hFree⟩ := h
      exact obeyed_pollReady hFree
  | pollFinish poll terminal =>
      obtain ⟨rfl, hFree⟩ := h
      exact obeyed_pollFinish hFree
  | gracefulSubmitted result terminal =>
      obtain ⟨rfl, hSend, hFinish, hReset⟩ := h
      exact obeyed_gracefulSubmitted hSend hFinish hReset
  | reset target terminal =>
      obtain ⟨⟨code, rfl⟩, hFree⟩ := h
      exact obeyed_reset hFree
  | resetSubmitted target result terminal =>
      obtain ⟨⟨code, rfl⟩, hSend, hFinish, hReset⟩ := h
      exact obeyed_resetSubmitted hSend hFinish hReset
  | terminalPublished winner continuation => exact obeyed_terminalPublished h

end Reducer

end MsQuicH3
