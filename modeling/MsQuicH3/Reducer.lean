import MsQuicH3.Error

/-! What the send reducer can answer: where a winner or a candidate comes from and
what happens to its bookkeeping. -/
namespace MsQuicH3

/-- The terminal an input carries. -/
def SendInput.terminal : SendInput → Option SendTerminal
  | .sendRequested _ terminal | .sendSubmitted _ terminal | .pollReady _ terminal
  | .pollFinish _ terminal | .reset _ terminal | .gracefulSubmitted _ terminal
  | .resetSubmitted _ _ terminal => terminal
  | .terminalPublished winner _ => some winner

/-- A reason the send half finds by itself. -/
def SendTerminal.isOwn : SendTerminal → Bool
  | .stopped _ | .connection _ => false
  | _ => true

@[simp] theorem definitive_none : definitive none = none := rfl

theorem definitive_eq_some {terminal : Option SendTerminal} {winner : SendTerminal} :
    definitive terminal = some winner ↔ terminal = some winner ∧ winner.isProvisional = false := by
  cases terminal with
  | none => simp
  | some other =>
      cases hOther : other.isProvisional <;> simp [definitive, Option.filter, hOther] <;> grind

/-- A returned winner is the input's, unless `poll_ready` is misused. -/
theorem transition_returnError {state : SendState} {input : SendInput} {winner : SendTerminal}
    (h : (transition state input).1 = .returnError winner) :
    winner = .internal "poll_ready after finish" ∨ definitive input.terminal = some winner := by
  unfold transition transitionPollReady transitionPollFinish publishInternal at h
  dsimp only at h
  repeat' split at h
  all_goals simp_all [SendInput.terminal, definitive]

theorem getD_own {terminal : Option SendTerminal} {own candidate : SendTerminal}
    (hOwn : own.isOwn = true) (h : terminal.getD own = candidate) :
    candidate.isOwn = true ∨ terminal = some candidate := by
  cases terminal with
  | none => exact .inl (h ▸ hOwn)
  | some winner => exact .inr (congrArg some h)

/-- A published candidate is the input's winner or a reason of the half itself. -/
theorem transition_publishTerminal {state : SendState} {input : SendInput}
    {candidate : SendTerminal} {continuation : TerminalContinuation}
    (h : (transition state input).1 = .publishTerminal candidate continuation) :
    candidate.isOwn = true ∨ definitive input.terminal = some candidate := by
  unfold transition transitionPollReady transitionPollFinish publishInternal at h
  dsimp only at h
  repeat' split at h
  all_goals (try simp only [reduceCtorEq, SendCommand.publishTerminal.injEq] at h)
  all_goals first
    | exact getD_own rfl h.1
    | exact .inl (h.1 ▸ rfl)

/-- Only a graceful completion of a started finish completes it. -/
theorem transition_finishComplete (state : SendState) (input : SendInput) :
    (transition state input).2.finishComplete = true ↔ state.finishComplete = true ∨
      ∃ terminal, input = .pollFinish (.event (.finishComplete true)) terminal ∧
        state.submissionReserved = false ∧ state.finishStarted = true := by
  unfold transition transitionPollReady transitionPollFinish publishInternal
  dsimp only
  repeat' split
  all_goals simp_all

/-- A poll of the finish reports it exactly when it has completed. -/
theorem transition_pollFinish_returnFinished (state : SendState) (poll : SendPoll)
    (terminal : Option SendTerminal) :
    (transition state (.pollFinish poll terminal)).1 = .returnFinished ↔
      (transition state (.pollFinish poll terminal)).2.finishComplete = true := by
  simp only [transition]
  unfold transitionPollFinish publishInternal
  dsimp only
  repeat' split
  all_goals simp_all

/-- Nothing else reports a finish. -/
theorem transition_returnFinished {state : SendState} {input : SendInput}
    (h : (transition state input).1 = .returnFinished) :
    ∃ poll terminal, input = .pollFinish poll terminal := by
  revert h
  unfold transition transitionPollReady publishInternal
  dsimp only
  repeat' split
  all_goals simp_all

end MsQuicH3
