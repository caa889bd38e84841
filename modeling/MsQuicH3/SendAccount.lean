import MsQuicH3.SendBook

/-! The account of a send half: what it submitted to native code and which
completions it took. While nothing has ended the half, the account follows the
flags of the reducer. -/
namespace MsQuicH3

/-- Accepted data sends, completions taken, and the finishes and resets submitted. -/
structure Account where
  accepted : Nat
  taken : Nat
  finishes : Nat
  resets : Nat
  deriving DecidableEq, Repr

/-- The account of a half that nothing has ended: `due` completions are in hand and
`placed` sends are accepted but not booked yet. -/
structure Account.Free (a : Account) (state : SendState) (due placed : Nat) : Prop where
  balance : a.accepted + due ≤ a.taken + state.sendInprogress.toNat + placed
  finish : 0 < a.finishes → state.finishStarted = true ∨ state.finishSubmitting = true
  reset : 0 < a.resets → state.resetSubmitting = true

/-- A finish was submitted with every accepted send taken back. -/
def Account.Drained (a : Account) (state : SendState) : Prop :=
  state.finishStarted = true ∨ state.finishSubmitting = true →
    state.sendInprogress = false ∧ a.accepted ≤ a.taken

/-- Nothing was submitted that a new submission would conflict with. -/
structure Account.Clear (a : Account) : Prop where
  balance : a.accepted ≤ a.taken
  finish : a.finishes = 0
  reset : a.resets = 0

/-- The completions a polled message carries. -/
def SendPoll.due : SendPoll → Nat
  | .event (.complete _) => 1
  | _ => 0

/-- The sends a native result placed. -/
def placed : Except Status Unit → Nat
  | .ok () => 1
  | .error _ => 0

def Purpose.due : Purpose → Nat
  | .poll polled => polled.due
  | _ => 0

def Purpose.placed : Purpose → Nat
  | .sendSubmitted result => MsQuicH3.placed result
  | _ => 0

def SendInput.due : SendInput → Nat
  | .pollReady poll _ | .pollFinish poll _ => poll.due
  | _ => 0

def SendInput.placed : SendInput → Nat
  | .sendSubmitted result _ => MsQuicH3.placed result
  | _ => 0

/-- The account when an input is fed. `ended` says that a terminal is recorded. -/
def Account.Fed (a : Account) (ended : Prop) (state : SendState) (input : SendInput) : Prop :=
  match input with
  | .terminalPublished _ _ => ended ∨ a.Free state 0 0
  | input =>
      match definitive input.terminal with
      | none => a.Free state input.due input.placed
      | some _ => ended

/-- The account when a command is obeyed. -/
def Account.Commands (a : Account) (ended : Prop) (state : SendState) : SendCommand → Prop
  | .publishTerminal candidate _ => candidate.isProvisional = true → ended ∨ a.Free state 0 0
  | .submitSend | .submitGraceful => a.Clear
  | .submitReset _ => a.resets = 0 ∧ (ended ∨ a.Free state 0 0)
  | .returnReady | .returnFinished => a.accepted ≤ a.taken ∧ (ended ∨ a.Free state 0 0)
  | _ => ended ∨ a.Free state 0 0

namespace Account

variable {a : Account} {ended : Prop} {state : SendState} {call : SendCall}

theorem Free.weaken {due more : Nat} (h : a.Free state due more) :
    a.Free state 0 more where
  balance := Nat.le_trans (Nat.add_le_add_left (Nat.zero_le due) _) h.balance
  finish := h.finish
  reset := h.reset

/-- Taking messages from the channel brings their completions in hand. -/
theorem Free.take (h : a.Free state 0 0) (due : Nat) :
    ({ a with taken := a.taken + due } : Account).Free state due 0 where
  balance := by
    have hBalance := h.balance
    dsimp only
    omega
  finish := h.finish
  reset := h.reset

theorem Clear.free (h : a.Clear) (state : SendState) : a.Free state 0 0 where
  balance := Nat.le_trans h.balance (Nat.le_add_right _ _)
  finish hPos := absurd hPos (by rw [h.finish]; exact Nat.lt_irrefl 0)
  reset hPos := absurd hPos (by rw [h.reset]; exact Nat.lt_irrefl 0)

/-- A data send is submitted on a clear account. -/
theorem Clear.place (h : a.Clear) (state : SendState) (more : Nat) :
    ({ a with accepted := a.accepted + more } : Account).Free state 0 more where
  balance := by
    have hBalance := h.balance
    dsimp only
    omega
  finish := (h.free state).finish
  reset := (h.free state).reset

/-- A half that is not ended and holds no reservation has submitted no reset. -/
theorem Free.resets_eq_zero {due more : Nat} (h : a.Free state due more)
    (hSettled : state.submissionReserved = false) : a.resets = 0 := by
  rcases Nat.eq_zero_or_pos a.resets with hNone | hPos
  · exact hNone
  · have hReset := h.reset hPos
    simp [SendState.submissionReserved, hReset] at hSettled

theorem Free.finishes_eq_zero {due more : Nat} (h : a.Free state due more)
    (hSettled : state.submissionReserved = false) (hStarted : state.finishStarted = false) :
    a.finishes = 0 := by
  rcases Nat.eq_zero_or_pos a.finishes with hNone | hPos
  · exact hNone
  · rcases h.finish hPos with hFinish | hFinish
    · rw [hStarted] at hFinish
      cases hFinish
    · simp [SendState.submissionReserved, hFinish] at hSettled

/-- A completion in hand pays for the last send. -/
theorem Free.taken_of_due (h : a.Free state 1 0) : a.accepted ≤ a.taken := by
  have hBalance := h.balance
  have hFlag := state.sendInprogress.toNat_le
  omega

/-- Without a send in progress every accepted send is taken back. -/
theorem Free.taken_of_idle {due : Nat} (h : a.Free state due 0)
    (hIdle : state.sendInprogress = false) : a.accepted ≤ a.taken := by
  have hBalance := h.balance
  rw [hIdle, Bool.toNat_false] at hBalance
  omega

theorem Free.idle {due more : Nat} (h : a.Free state due more) (hTaken : a.accepted ≤ a.taken) :
    a.Free { state with sendInprogress := false } 0 0 where
  balance := hTaken
  finish := h.finish
  reset := h.reset

theorem Drained.idle (h : a.Drained state) :
    a.Drained { state with sendInprogress := false } :=
  fun hFinish => ⟨rfl, (h hFinish).2⟩

theorem commands_authoritative {candidate : SendTerminal} {continuation : TerminalContinuation}
    (h : candidate.isProvisional = false) :
    a.Commands ended state (.publishTerminal candidate continuation) :=
  fun hMarker => absurd (h.symm.trans hMarker) Bool.false_ne_true

theorem commands_internal {message : String} {continuation : TerminalContinuation} :
    a.Commands ended state (publishInternal message continuation) := commands_authoritative rfl

theorem commands_pollReady {poll : SendPoll} {terminal : Option SendTerminal}
    (hSettled : state.settled = true) (hFed : a.Fed ended state (.pollReady poll terminal))
    (hDrained : a.Drained state) :
    a.Commands ended (transitionPollReady state poll terminal).2
        (transitionPollReady state poll terminal).1 ∧
      a.Drained (transitionPollReady state poll terminal).2 := by
  have hReserved : state.submissionReserved = false := by
    simp_all [SendState.settled]
  unfold transitionPollReady
  rw [if_neg (by simp [hReserved])]
  cases hTerminal : definitive terminal with
  | some winner =>
      simp only [Fed, SendInput.terminal, hTerminal] at hFed
      exact ⟨.inl hFed, hDrained.idle⟩
  | none =>
      simp only [Fed, SendInput.terminal, hTerminal, SendInput.due, SendInput.placed] at hFed
      dsimp only
      by_cases hStarted : state.finishStarted = true
      · rw [if_pos hStarted]
        exact ⟨.inr hFed.weaken, hDrained⟩
      rw [if_neg hStarted]
      cases poll with
      | closed =>
          dsimp only
          split
          · exact ⟨commands_authoritative rfl, hDrained⟩
          · exact ⟨commands_internal, hDrained⟩
      | pending =>
          dsimp only
          split
          · exact ⟨.inr hFed.weaken, hDrained⟩
          next hIdle =>
            split
            · exact ⟨.inr hFed.weaken, hDrained⟩
            · exact ⟨⟨hFed.taken_of_idle (by simpa using hIdle), .inr hFed⟩, hDrained⟩
      | event event =>
          cases event with
          | complete cancelled =>
              have hTaken := Free.taken_of_due hFed
              cases cancelled with
              | false =>
                  dsimp only
                  split
                  · exact ⟨commands_internal, hDrained⟩
                  · exact ⟨⟨hTaken, .inr (hFed.idle hTaken)⟩, hDrained.idle⟩
              | true =>
                  dsimp only
                  split
                  · exact ⟨commands_internal, hDrained⟩
                  · exact ⟨fun _ => .inr (hFed.idle hTaken), hDrained.idle⟩
          | terminalWake =>
              dsimp only
              split
              · exact ⟨commands_authoritative rfl, hDrained⟩
              · exact ⟨commands_internal, hDrained⟩
          | finishComplete graceful => exact ⟨commands_internal, hDrained⟩

theorem commands_pollFinish {poll : SendPoll} {terminal : Option SendTerminal}
    (hSettled : state.settled = true) (hFed : a.Fed ended state (.pollFinish poll terminal))
    (hDrained : a.Drained state) :
    a.Commands ended (transitionPollFinish state poll terminal).2
        (transitionPollFinish state poll terminal).1 ∧
      a.Drained (transitionPollFinish state poll terminal).2 := by
  have hReserved : state.submissionReserved = false := by
    simp_all [SendState.settled]
  have hWeak : ended ∨ a.Free state 0 0 := by
    cases hTerminal : definitive terminal with
    | some winner =>
        simp only [Fed, SendInput.terminal, hTerminal] at hFed
        exact .inl hFed
    | none =>
        simp only [Fed, SendInput.terminal, hTerminal, SendInput.due, SendInput.placed] at hFed
        exact .inr hFed.weaken
  have hFinished : state.finishStarted = true → a.accepted ≤ a.taken :=
    fun hStarted => (hDrained (.inl hStarted)).2
  unfold transitionPollFinish
  by_cases hComplete : state.finishComplete = true
  · rw [if_pos hComplete]
    have hStarted : state.finishStarted = true := by simp_all [SendState.settled]
    exact ⟨⟨hFinished hStarted, hWeak⟩, hDrained⟩
  rw [if_neg hComplete, if_neg (by simp [hReserved])]
  split
  next graceful =>
    split
    · exact ⟨commands_internal, hDrained⟩
    next hStarted =>
      have hStarted' : state.finishStarted = true := by simpa using hStarted
      split
      · refine ⟨⟨hFinished hStarted', ?_⟩, hDrained⟩
        rcases hWeak with hOver | hFree
        · exact .inl hOver
        · exact .inr ⟨hFree.balance, hFree.finish, hFree.reset⟩
      · exact ⟨commands_authoritative (getD_isProvisional rfl), hDrained⟩
  next _ hPoll =>
    cases hTerminal : definitive terminal with
    | some winner =>
        simp only [Fed, SendInput.terminal, hTerminal] at hFed
        exact ⟨.inl hFed, hDrained.idle⟩
    | none =>
        simp only [Fed, SendInput.terminal, hTerminal, SendInput.due, SendInput.placed] at hFed
        have hClear : state.finishStarted ≠ true → a.accepted ≤ a.taken → a.Clear :=
          fun hStarted hTaken => ⟨hTaken,
            hFed.finishes_eq_zero hReserved (by simpa using hStarted), hFed.resets_eq_zero hReserved⟩
        cases poll with
        | closed =>
            dsimp only
            split
            · exact ⟨commands_authoritative rfl, hDrained⟩
            · exact ⟨commands_internal, hDrained⟩
        | pending =>
            dsimp only
            split
            · exact ⟨hWeak, hDrained⟩
            next hStarted =>
              split
              · exact ⟨hWeak, hDrained⟩
              next hIdle =>
                split
                · exact ⟨hWeak, hDrained⟩
                · have hTaken := hFed.taken_of_idle (by simpa using hIdle)
                  exact ⟨hClear hStarted hTaken, fun _ => ⟨by simpa using hIdle, hTaken⟩⟩
        | event event =>
            cases event with
            | complete cancelled =>
                have hTaken := Free.taken_of_due hFed
                cases cancelled with
                | false =>
                    dsimp only
                    split
                    · exact ⟨commands_internal, hDrained⟩
                    next hStarted =>
                      split
                      · exact ⟨commands_internal, hDrained⟩
                      · exact ⟨hClear hStarted hTaken, fun _ => ⟨rfl, hTaken⟩⟩
                | true =>
                    dsimp only
                    split
                    · exact ⟨commands_internal, hDrained⟩
                    · split
                      · exact ⟨commands_internal, hDrained⟩
                      · exact ⟨fun _ => .inr (hFed.idle hTaken), hDrained.idle⟩
            | terminalWake =>
                dsimp only
                split
                · exact ⟨commands_authoritative rfl, hDrained⟩
                · exact ⟨commands_internal, hDrained⟩
            | finishComplete graceful => exact absurd rfl (hPoll graceful)

theorem Fed.over_or_free {input : SendInput} (h : a.Fed ended state input) :
    ended ∨ ∃ more, a.Free state 0 more := by
  cases input with
  | terminalPublished winner continuation => exact h.imp_right fun hFree => ⟨0, hFree⟩
  | _ =>
      simp only [Fed] at h
      split at h
      · exact .inr ⟨_, h.weaken⟩
      · exact .inl h

/-- A call that obeys the command keeps the account. -/
theorem commands_transition {input : SendInput} (hBook : input.book call state)
    (hFed : a.Fed ended state input) (hDrained : a.Drained state) :
    a.Commands ended (transition state input).2 (transition state input).1 ∧
      a.Drained (transition state input).2 := by
  cases input with
  | pollReady poll terminal =>
      obtain ⟨-, -, hSettled⟩ := hBook
      exact commands_pollReady hSettled hFed hDrained
  | pollFinish poll terminal =>
      obtain ⟨-, hSettled⟩ := hBook
      exact commands_pollFinish hSettled hFed hDrained
  | sendRequested payload terminal =>
      obtain ⟨-, hSettled⟩ := hBook
      have hReserved : state.submissionReserved = false := by
        simp_all [SendState.settled]
      simp only [transition]
      cases hTerminal : definitive terminal with
      | some winner =>
          simp only [Fed, SendInput.terminal, hTerminal] at hFed
          exact ⟨.inl hFed, hDrained⟩
      | none =>
          simp only [Fed, SendInput.terminal, hTerminal, SendInput.due, SendInput.placed] at hFed
          dsimp only
          split
          · exact ⟨.inr hFed, hDrained⟩
          next hFlags =>
            simp only [Bool.or_eq_true, not_or, Bool.not_eq_true] at hFlags
            obtain ⟨⟨⟨⟨hIdle, -⟩, hFinish⟩, hStarted⟩, -⟩ := hFlags
            cases payload with
            | empty => exact ⟨.inr hFed, hDrained⟩
            | oversized len ceiling => exact ⟨.inr hFed, hDrained⟩
            | nonEmpty len =>
                refine ⟨⟨hFed.taken_of_idle hIdle, hFed.finishes_eq_zero hReserved hStarted,
                  hFed.resets_eq_zero hReserved⟩, fun h => ?_⟩
                simp [hStarted, hFinish] at h
  | sendSubmitted result terminal =>
      obtain ⟨-, hSubmitting⟩ := hBook
      have hFlags : state.finishStarted = false ∧ state.finishSubmitting = false ∧
          state.sendInprogress = false := by
        simp_all [SendState.submittingSend]
      obtain ⟨hStarted, hFinish, hIdle⟩ := hFlags
      have hNever : ∀ inprogress, a.Drained { state with
          sendSubmitting := false, sendInprogress := inprogress } := by
        intro inprogress h
        simp [hStarted, hFinish] at h
      simp only [transition]
      rw [if_neg (by simp_all [SendState.submittingSend])]
      cases result with
      | ok value =>
          cases hTerminal : definitive terminal with
          | some winner =>
              simp only [Fed, SendInput.terminal, hTerminal] at hFed
              exact ⟨.inl hFed, hNever true⟩
          | none =>
              simp only [Fed, SendInput.terminal, hTerminal, SendInput.due, SendInput.placed,
                MsQuicH3.placed] at hFed
              refine ⟨.inr ⟨?_, hFed.finish, hFed.reset⟩, hNever true⟩
              have hBalance := hFed.balance
              rw [hIdle] at hBalance
              exact hBalance
      | error status =>
          exact ⟨commands_authoritative (getD_isProvisional rfl), hNever _⟩
  | gracefulSubmitted result terminal =>
      obtain ⟨-, hSubmitting⟩ := hBook
      have hFinish : state.finishSubmitting = true := by
        simp_all [SendState.submittingFinish]
      obtain ⟨hIdle, hTaken⟩ := hDrained (.inr hFinish)
      simp only [transition]
      rw [if_neg (by simp [hFinish])]
      cases result with
      | ok value =>
          refine ⟨?_, fun _ => ⟨hIdle, hTaken⟩⟩
          rcases hFed.over_or_free with hOver | ⟨more, hFree⟩
          · exact .inl hOver
          · exact .inr ⟨Nat.le_trans hTaken (Nat.le_add_right _ _), fun _ => .inl rfl, hFree.reset⟩
      | error status =>
          exact ⟨commands_authoritative (getD_isProvisional rfl), fun _ => ⟨hIdle, hTaken⟩⟩
  | resetSubmitted code result terminal =>
      obtain ⟨-, hSubmitting⟩ := hBook
      have hReset : state.resetSubmitting = true := by
        simp_all [SendState.submittingReset]
      simp only [transition]
      rw [if_neg (by simp [hReset])]
      cases result with
      | ok value => exact ⟨commands_authoritative (getD_isProvisional rfl), hDrained⟩
      | error status => exact ⟨commands_authoritative (getD_isProvisional rfl), hDrained⟩
  | reset code terminal =>
      obtain ⟨-, hSettled⟩ := hBook
      have hReserved : state.submissionReserved = false := by
        simp_all [SendState.settled]
      simp only [transition]
      cases hTerminal : definitive terminal with
      | some winner =>
          simp only [Fed, SendInput.terminal, hTerminal] at hFed
          rw [if_pos (by simp)]
          exact ⟨.inl hFed, hDrained⟩
      | none =>
          simp only [Fed, SendInput.terminal, hTerminal, SendInput.due, SendInput.placed] at hFed
          split
          · exact ⟨.inr hFed, hDrained⟩
          · rw [if_neg (by simp [hReserved])]
            exact ⟨⟨hFed.resets_eq_zero hReserved, .inr ⟨hFed.balance, hFed.finish, fun _ => rfl⟩⟩,
              hDrained⟩
  | terminalPublished winner continuation =>
      simp only [transition]
      split <;> cases continuation <;> exact ⟨hFed, hDrained⟩

end Account

end MsQuicH3
