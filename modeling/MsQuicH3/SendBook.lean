import MsQuicH3.Concurrency.Focus
import MsQuicH3.SendChart
import MsQuicH3.Effect

/-! The bookkeeping of a send half, point by point: which reservation the reducer
holds and which inputs a method can feed it. On top of it a send half is verified
by assertions of one's own. -/
namespace MsQuicH3

open Concurrency

/-- No native submission is in progress, and a finish completes only after its start. -/
def SendState.settled (state : SendState) : Bool :=
  !state.submissionReserved && (!state.finishComplete || state.finishStarted)

/-- Nothing but the submission of a data send is going on. -/
def SendState.submittingSend (state : SendState) : Bool :=
  state.sendSubmitting && !state.finishSubmitting && !state.resetSubmitting &&
    !state.sendInprogress && !state.finishStarted && !state.finishComplete

/-- Nothing but the submission of the graceful finish is going on. -/
def SendState.submittingFinish (state : SendState) : Bool :=
  state.finishSubmitting && !state.sendSubmitting && !state.resetSubmitting &&
    !state.sendInprogress && !state.finishStarted && !state.finishComplete

/-- The submission of a reset is going on. -/
def SendState.submittingReset (state : SendState) : Bool :=
  state.resetSubmitting && !state.sendSubmitting && !state.finishSubmitting &&
    !state.finishComplete

/-- The continuation a method publishes with. -/
def SendCall.continuation : SendCall → Option TerminalContinuation
  | .pollReady => some .pollReady
  | .sendData _ => some .sendData
  | .pollFinish => some .pollFinish
  | .reset _ => some .reset
  | .drop => none

/-- The loop of `poll_ready` runs only before a finish has started. -/
def SendCall.loops (call : SendCall) (state : SendState) : Prop :=
  (call = .pollReady ∧ state.finishStarted = false) ∨ call = .pollFinish

/-- What may be published by a method, in which state. -/
structure SendCall.Publishes (call : SendCall) (state : SendState) (candidate : SendTerminal)
    (continuation : TerminalContinuation) : Prop where
  continuation : call.continuation = some continuation
  settled : state.settled = true
  beforeFinish : call = .pollReady → state.finishStarted = false
  marker : candidate.isProvisional = true → call.loops state

def Purpose.book (call : SendCall) (state : SendState) : Purpose → Prop
  | .guard => call = .pollReady ∧ state.settled = true ∧ state.finishStarted = true
  | .request payload => call = .sendData payload ∧ state.settled = true
  | .poll _ => call.loops state ∧ state.settled = true
  | .reset _ => (∃ code, call = .reset code) ∧ state.settled = true
  | .sendSubmitted _ => (∃ payload, call = .sendData payload) ∧ state.submittingSend = true
  | .gracefulSubmitted _ => call = .pollFinish ∧ state.submittingFinish = true
  | .resetSubmitted _ _ => (∃ code, call = .reset code) ∧ state.submittingReset = true

def SendInput.book (call : SendCall) (state : SendState) : SendInput → Prop
  | .sendRequested _ _ => (∃ payload, call = .sendData payload) ∧ state.settled = true
  | .sendSubmitted _ _ => (∃ payload, call = .sendData payload) ∧ state.submittingSend = true
  | .pollReady _ _ => call = .pollReady ∧ state.finishStarted = false ∧ state.settled = true
  | .pollFinish _ _ => call = .pollFinish ∧ state.settled = true
  | .reset _ _ => (∃ code, call = .reset code) ∧ state.settled = true
  | .gracefulSubmitted _ _ => call = .pollFinish ∧ state.submittingFinish = true
  | .resetSubmitted _ _ _ => (∃ code, call = .reset code) ∧ state.submittingReset = true
  | .terminalPublished winner continuation => call.Publishes state winner continuation

/-- The state of the reducer at each point of a method. -/
def SendPoint.book (call : SendCall) (state : SendState) : SendPoint → Prop
  | .guard => call = .pollReady ∧ state.settled = true
  | .poll => call.loops state ∧ state.settled = true
  | .load purpose | .peek purpose _ => purpose.book call state
  | .again round | .feed round => round.input.book call state
  | .publish candidate continuation _ => call.Publishes state candidate continuation
  | .box _ | .submit _ _ | .reclaim _ _ =>
      (∃ payload, call = .sendData payload) ∧ state.submittingSend = true
  | .submitGraceful => call = .pollFinish ∧ state.submittingFinish = true
  | .submitReset _ => (∃ code, call = .reset code) ∧ state.submittingReset = true
  | .commit _ | .exit _ => state.settled = true
  | .dropHalf => call = .drop ∧ state.settled = true

section Resolution

variable {slot : Option SendTerminal}

/-- A slot that settles the terminal holds an authoritative winner. -/
theorem definitive_of_decides (h : decides slot = true) : ∃ winner, definitive slot = some winner := by
  cases slot with
  | none => cases h
  | some winner => cases winner <;> first | exact ⟨_, rfl⟩ | cases h

theorem definitive_of_open (h : decides slot = false)
    (hSlot : ∀ fallback, slot ≠ some (.connection fallback)) : definitive slot = none := by
  cases slot with
  | none => rfl
  | some winner => cases winner <;> first | exact absurd rfl (hSlot _) | rfl | cases h

/-- With no cause recorded the terminal is what the slot held. -/
theorem resolveWith_none : resolveWith slot none = slot := by
  cases slot with
  | none => rfl
  | some winner => cases winner <;> rfl

theorem definitive_resolveWith_some (slot : Option SendTerminal) (reason : ConnectionTerminal) :
    definitive (resolveWith slot (some reason)) = some (.connection reason) := by
  cases slot with
  | none => rfl
  | some winner => cases winner <;> rfl

end Resolution

section Book

variable {config : H3Config} {call : SendCall} {state : SendState}

theorem book_start (h : state.settled = true) : call.start.book call state := by
  cases call <;> simp [SendCall.start, SendPoint.book, Purpose.book, SendCall.loops, h]

theorem book_returning {winner : SendTerminal} (h : state.settled = true) :
    (call.returning winner).book call state := by
  cases winner <;> exact h

theorem book_resolved {terminal : Option SendTerminal} {purpose : Purpose}
    (h : purpose.book call state) : (call.resolved config terminal purpose).book call state := by
  cases purpose with
  | guard =>
      obtain ⟨rfl, hSettled, -⟩ := h
      cases terminal with
      | none => exact hSettled
      | some winner => exact book_returning hSettled
  | request payload =>
      obtain ⟨rfl, hSettled⟩ := h
      exact ⟨⟨payload, rfl⟩, hSettled⟩
  | poll poll =>
      obtain ⟨⟨rfl, hStarted⟩ | rfl, hSettled⟩ := h
      · exact ⟨rfl, hStarted, hSettled⟩
      · exact ⟨rfl, hSettled⟩
  | reset code => exact h
  | sendSubmitted result => exact h
  | gracefulSubmitted result => exact h
  | resetSubmitted code result => exact h

theorem getD_isProvisional {terminal : Option SendTerminal} {own : SendTerminal}
    (h : own.isProvisional = false) : ((definitive terminal).getD own).isProvisional = false := by
  cases hTerminal : definitive terminal with
  | none => exact h
  | some winner => exact (definitive_eq_some.1 hTerminal).2

/-- The reducer's command leads to a point whose bookkeeping matches its new state. -/
theorem book_obey_pollReady {poll : SendPoll} {terminal : Option SendTerminal}
    {remaining : List UInt8} (hSettled : state.settled = true)
    (hStarted : state.finishStarted = false) :
    (SendCall.pollReady.obey remaining (transitionPollReady state poll terminal).1).book .pollReady
      (transitionPollReady state poll terminal).2 := by
  have hReserved : state.submissionReserved = false := by
    simp_all [SendState.settled]
  unfold transitionPollReady
  rw [if_neg (by simp [hReserved])]
  split
  · exact book_returning hSettled
  · rw [if_neg (by simp [hStarted])]
    dsimp only
    repeat' split
    all_goals first
      | exact hSettled
      | exact ⟨rfl, hSettled, fun _ => hStarted, fun _ => .inl ⟨rfl, hStarted⟩⟩

theorem book_obey_pollFinish {poll : SendPoll} {terminal : Option SendTerminal}
    {remaining : List UInt8} (hSettled : state.settled = true) :
    (SendCall.pollFinish.obey remaining (transitionPollFinish state poll terminal).1).book
      .pollFinish (transitionPollFinish state poll terminal).2 := by
  have hReserved : state.submissionReserved = false := by
    simp_all [SendState.settled]
  unfold transitionPollFinish
  by_cases hComplete : state.finishComplete = true
  · rw [if_pos hComplete]
    exact hSettled
  rw [if_neg hComplete, if_neg (by simp [hReserved])]
  split
  next graceful =>
    split
    · exact ⟨rfl, hSettled, (fun h => by cases h), fun h => by cases h⟩
    next hStarted =>
      split
      · have hFinished : ({ state with finishComplete := true } : SendState).settled = true := by
          simp_all [SendState.settled, SendState.submissionReserved]
        exact hFinished
      · refine ⟨rfl, hSettled, (fun h => by cases h), fun h => ?_⟩
        rw [getD_isProvisional rfl] at h
        cases h
  next poll hPoll =>
    split
    · exact book_returning hSettled
    · dsimp only
      repeat' split
      all_goals first
        | exact hSettled
        | exact ⟨rfl, hSettled, (fun h => by cases h), fun _ => .inr rfl⟩
        | exact ⟨rfl, by
            simp_all [SendState.submittingFinish, SendState.settled, SendState.submissionReserved]⟩

theorem book_obey {round : SendRound} (h : round.input.book call state) :
    (call.obey round.remaining (transition state round.input).1).book call
      (transition state round.input).2 := by
  obtain ⟨input, remaining⟩ := round
  cases input with
  | pollReady poll terminal =>
      obtain ⟨rfl, hStarted, hSettled⟩ := h
      exact book_obey_pollReady hSettled hStarted
  | pollFinish poll terminal =>
      obtain ⟨rfl, hSettled⟩ := h
      exact book_obey_pollFinish hSettled
  | sendRequested payload terminal =>
      obtain ⟨⟨bytes, rfl⟩, hSettled⟩ := h
      simp only [transition]
      repeat' split
      all_goals first
        | exact hSettled
        | exact book_returning hSettled
        | exact ⟨⟨_, rfl⟩, by
            simp_all [SendState.submittingSend, SendState.settled, SendState.submissionReserved]⟩
  | sendSubmitted result terminal =>
      obtain ⟨⟨bytes, rfl⟩, hSubmitting⟩ := h
      have hEnd : ∀ inprogress, ({ state with
          sendSubmitting := false, sendInprogress := inprogress } : SendState).settled = true := by
        intro inprogress
        simp_all [SendState.submittingSend, SendState.settled, SendState.submissionReserved]
      simp only [transition]
      repeat' split
      · simp_all [SendState.submittingSend]
      · exact book_returning (hEnd true)
      · exact hEnd true
      · refine ⟨rfl, hEnd state.sendInprogress, (fun h => by cases h), fun h => ?_⟩
        rw [getD_isProvisional rfl] at h
        cases h
  | gracefulSubmitted result terminal =>
      obtain ⟨rfl, hSubmitting⟩ := h
      have hEnd : ∀ started, ({ state with
          finishSubmitting := false, finishStarted := started } : SendState).settled = true := by
        intro started
        simp_all [SendState.submittingFinish, SendState.settled, SendState.submissionReserved]
      simp only [transition]
      repeat' split
      · simp_all [SendState.submittingFinish]
      · exact ⟨.inr rfl, hEnd true⟩
      · refine ⟨rfl, hEnd state.finishStarted, (fun h => by cases h), fun h => ?_⟩
        rw [getD_isProvisional rfl] at h
        cases h
  | resetSubmitted code result terminal =>
      obtain ⟨⟨resetCode, rfl⟩, hSubmitting⟩ := h
      have hEnd : ({ state with resetSubmitting := false } : SendState).settled = true := by
        simp_all [SendState.submittingReset, SendState.settled, SendState.submissionReserved]
      simp only [transition]
      repeat' split
      · simp_all [SendState.submittingReset]
      all_goals
        refine ⟨rfl, hEnd, (fun h => by cases h), fun h => ?_⟩
        rw [getD_isProvisional rfl] at h
        cases h
  | reset code terminal =>
      obtain ⟨⟨resetCode, rfl⟩, hSettled⟩ := h
      simp only [transition]
      repeat' split
      · exact hSettled
      · simp_all [SendState.settled]
      · exact ⟨⟨_, rfl⟩, by
          simp_all [SendState.submittingReset, SendState.settled, SendState.submissionReserved]⟩
  | terminalPublished winner continuation =>
      obtain ⟨hContinuation, hSettled, hStarted, hMarker⟩ := h
      simp only [transition]
      split
      next hProvisional =>
        have hLoops := hMarker hProvisional
        cases call <;> cases hContinuation <;> first
          | exact ⟨hLoops, hSettled⟩
          | exact hSettled
      · cases call <;> cases hContinuation <;> first
          | exact book_returning hSettled
          | exact hSettled

/-- The commands a method knows what to do with. -/
def SendCall.expects : SendCall → SendCommand → Bool
  | .pollReady, .pending | .pollReady, .returnReady | .pollReady, .repollReady
  | .pollFinish, .pending | .pollFinish, .returnFinished | .pollFinish, .submitGraceful
  | .pollFinish, .repollFinish | .sendData _, .returnSent | .sendData _, .returnImmediateError _
  | .sendData _, .submitSend | .reset _, .noOp | .reset _, .submitReset _ => true
  | .pollReady, .returnError _ | .pollFinish, .returnError _ | .sendData _, .returnError _ => true
  | call, .publishTerminal _ _ => !(call matches .drop)
  | _, _ => false

/-- No method is ever given a command of another one. -/
theorem expects_transition {input : SendInput} (h : input.book call state) :
    call.expects (transition state input).1 = true := by
  cases input with
  | pollReady poll terminal =>
      obtain ⟨rfl, -⟩ := h
      simp only [transition]
      unfold transitionPollReady publishInternal
      dsimp only
      repeat' split
      all_goals rfl
  | pollFinish poll terminal =>
      obtain ⟨rfl, -⟩ := h
      simp only [transition]
      unfold transitionPollFinish publishInternal
      dsimp only
      repeat' split
      all_goals rfl
  | sendRequested payload terminal =>
      obtain ⟨⟨bytes, rfl⟩, -⟩ := h
      simp only [transition]
      repeat' split
      all_goals rfl
  | sendSubmitted result terminal =>
      obtain ⟨⟨bytes, rfl⟩, -⟩ := h
      simp only [transition]
      repeat' split
      all_goals rfl
  | gracefulSubmitted result terminal =>
      obtain ⟨rfl, -⟩ := h
      simp only [transition]
      repeat' split
      all_goals rfl
  | resetSubmitted code result terminal =>
      obtain ⟨⟨resetCode, rfl⟩, -⟩ := h
      simp only [transition]
      repeat' split
      all_goals rfl
  | reset code terminal =>
      obtain ⟨⟨resetCode, rfl⟩, -⟩ := h
      simp only [transition]
      repeat' split
      all_goals rfl
  | terminalPublished winner continuation =>
      obtain ⟨hContinuation, hSettled, hStarted, hMarker⟩ := h
      simp only [transition]
      split
      next hProvisional =>
        rcases hMarker hProvisional with ⟨rfl, -⟩ | rfl <;> cases hContinuation <;> rfl
      · cases call <;> cases hContinuation <;> rfl

end Book

end MsQuicH3
