import MsQuicH3.FirstTerminal
import MsQuicH3.NativeExclusion

/-! A cancelled data send. Its marker is not authoritative, so every method has to
remember it. The polls do; `send_data` takes the bare marker for an open slot and
submits again. In a run in which it never reads one, the cancellation is final. -/
namespace MsQuicH3

open Concurrency

/-- Neither a send nor a finish is submitted or in progress. -/
def SendState.quiet (state : SendState) : Bool :=
  !state.sendInprogress && !state.sendSubmitting && !state.finishSubmitting && !state.finishStarted

/-- The input carries a cancelled completion. -/
def SendInput.cancels : SendInput → Bool
  | .pollReady (.event (.complete true)) _ | .pollFinish (.event (.complete true)) _ => true
  | _ => false

/-- The reducer consumes a cancelled completion. -/
def consumesCancel (key : StreamKey) : AdapterEvent → Bool
  | ⟨.send other _, .stream target (.transition input), _, _, _⟩ =>
      other = key && target = key && input.cancels
  | _ => false

/-- The half submits a data send or a finish, or a poll of it succeeds. -/
def breaksCancel (key : StreamKey) : AdapterLabel → Bool
  | .event e => submitsSend key e || submitsGraceful key e
  | .finished ⟨.send other _, _, .pollSend (.ready (.ok ()))⟩ => other = key
  | _ => false

/-- Nothing is sent and no poll succeeds after a cancellation was consumed, and the
marker is never reported. -/
structure CancelFinal (key : StreamKey) (trace : List AdapterLabel) : Prop where
  afterwards : trace.Pairwise fun first second =>
    Machine.counts (consumesCancel key) first = true → breaksCancel key second = false
  marker : .provisionalAbort ∉ sendWinners key trace

/-- A call loads the marker of a lost send. -/
def loadsLost (key : StreamKey) : AdapterLabel → Bool
  | .event ⟨.send other _, .stream target .loadWinner, _, before, _⟩ =>
      other = key && target = key && before.slot key = some .provisionalAbort
  | _ => false

/-- No `send_data` with a payload to send finds nothing but the marker. -/
def NoLostRead (config : H3Config) (key : StreamKey) (trace : List AdapterLabel) : Prop :=
  ∀ payload load peek,
    [.begun (.send key (.sendData payload)), load, peek] <:+: ownTrace key trace →
    classifySendLen payload.length config.maxSendBytes = .nonEmpty →
    loadsLost key load = true → findsNoCause key peek = false

def cancels (key : StreamKey) (trace : List AdapterLabel) : Nat :=
  trace.countP (Machine.counts (consumesCancel key))

/-- A cancellation has been consumed. -/
def Cancelled (key : StreamKey) (w : AdapterWorld) : Prop := 0 < cancels key w.trace

/-- Something is recorded that a resolution can find. -/
def Recorded (key : StreamKey) (w : AdapterWorld) : Prop :=
  (w.state.slot key).isSome ∨ w.state.conn.terminal.isSome

def Kept (key : StreamKey) (w : AdapterWorld) : Prop := Cancelled key w → Recorded key w

/-- After a cancellation nothing is in progress, and the marker tells of one. -/
structure CancelInv (key : StreamKey) (w : AdapterWorld) : Prop where
  lost : Cancelled key w → (w.state.reducer key).quiet = true
  marker : w.state.slot key = some .provisionalAbort → Cancelled key w
  final : CancelFinal key w.trace

/-- What a call knows about a cancellation at each point. -/
def cancelAt (key : StreamKey) : SendPoint → AdapterWorld → Prop
  | .load purpose, w => Kept key w ∧
      (purpose.due = 1 → (w.state.reducer key).finishStarted = false) ∧
      ∀ payload, purpose = .request payload →
        ∃ earlier, ownTrace key w.trace = earlier ++ [.begun (.send key (.sendData payload))]
  | .peek purpose slot, w => Kept key w ∧ decides slot = false ∧
      (Cancelled key w → slot.isSome ∨ w.state.conn.terminal.isSome) ∧
      (slot.isSome → (w.state.slot key).isSome) ∧
      (purpose = .guard → slot ≠ some .provisionalAbort) ∧
      (purpose.due = 1 → (w.state.reducer key).finishStarted = false) ∧
      ∀ payload, purpose = .request payload → slot = some .provisionalAbort →
        ∃ earlier load, ownTrace key w.trace =
          earlier ++ [.begun (.send key (.sendData payload)), load] ∧ loadsLost key load = true
  | .again round, w | .feed round, w => Kept key w ∧
      (Cancelled key w → round.input.terminal.isSome) ∧
      (round.input.terminal.isSome → Recorded key w) ∧
      (round.input.due = 1 → (w.state.reducer key).finishStarted = false) ∧
      ∀ len terminal, round.input = .sendRequested (.nonEmpty len) terminal →
        Cancelled key w → (definitive terminal).isSome
  | .publish candidate _ _, w => candidate.isProvisional = true → Cancelled key w
  | .exit result, w => Kept key w ∧
      (Cancelled key w → result ≠ .pollSend (.ready (.ok ()))) ∧
      result.sendWinner ≠ some .provisionalAbort
  | _, w => Kept key w

section Reducer

variable {call : SendCall} {state : SendState} {input : SendInput}

/-- Only a cancelled completion makes the half publish the marker. -/
theorem cancels_of_marker {candidate : SendTerminal} {continuation : TerminalContinuation}
    (h : (transition state input).1 = .publishTerminal candidate continuation)
    (hMarker : candidate.isProvisional = true) : input.cancels = true := by
  have hOwn : ∀ {terminal : Option SendTerminal} {own : SendTerminal}, own.isProvisional = false →
      (definitive terminal).getD own = candidate → False := by
    rintro terminal own hOwn rfl
    rw [getD_isProvisional hOwn] at hMarker
    cases hMarker
  unfold transition transitionPollReady transitionPollFinish publishInternal at h
  dsimp only at h
  repeat' split at h
  all_goals (try simp only [reduceCtorEq, SendCommand.publishTerminal.injEq] at h)
  all_goals first
    | rfl
    | exact (hOwn rfl h.1).elim
    | (rw [← h.1] at hMarker; cases hMarker)

/-- Consuming a cancelled completion leaves nothing in progress. -/
theorem quiet_of_cancels (hBook : input.book call state) (hCancels : input.cancels = true)
    (hStarted : state.finishStarted = false) : (transition state input).2.quiet = true := by
  unfold SendInput.cancels at hCancels
  split at hCancels
  next terminal =>
    obtain ⟨-, -, hSettled⟩ := hBook
    have hReserved : state.submissionReserved = false := by
      simp_all [SendState.settled]
    simp only [transition, transitionPollReady, hReserved, hStarted, Bool.false_eq_true, if_false]
    cases definitive terminal with
    | some winner => simp_all [SendState.quiet, SendState.submissionReserved]
    | none =>
        dsimp only
        split <;> simp_all [SendState.quiet, SendState.submissionReserved]
  next terminal =>
    obtain ⟨-, hSettled⟩ := hBook
    have hReserved : state.submissionReserved = false ∧ state.finishComplete = false := by
      simp_all [SendState.settled]
    simp only [transition, transitionPollFinish, hReserved, hStarted, Bool.false_eq_true, if_false]
    cases definitive terminal with
    | some winner => simp_all [SendState.quiet, SendState.submissionReserved]
    | none =>
        dsimp only
        split <;> simp_all [SendState.quiet, SendState.submissionReserved]
  · cases hCancels

/-- A terminal that is recorded but not authoritative is the marker. -/
theorem provisionalPending_of_open {terminal : Option SendTerminal} (h : terminal.isSome)
    (hOpen : definitive terminal = none) : provisionalPending terminal = true := by
  cases terminal with
  | none => cases h
  | some winner => cases winner <;> first | rfl | cases hOpen

theorem quiet_pollReady {poll : SendPoll} {terminal : Option SendTerminal}
    (hSettled : state.settled = true) (hQuiet : state.quiet = true) (hTerminal : terminal.isSome) :
    (transitionPollReady state poll terminal).2.quiet = true ∧
      (transitionPollReady state poll terminal).1 ≠ .returnReady ∧
      (transitionPollReady state poll terminal).1 ≠ .returnFinished := by
  have hReserved : state.submissionReserved = false := by
    simp_all [SendState.settled]
  have hFlags : state.sendInprogress = false ∧ state.finishStarted = false := by
    simp_all [SendState.quiet]
  obtain ⟨hIdle, hStarted⟩ := hFlags
  unfold transitionPollReady publishInternal
  simp only [hReserved, hStarted, hIdle, Bool.false_eq_true, if_false, Bool.not_false, if_true]
  cases hOpen : definitive terminal with
  | some winner =>
      refine ⟨?_, (fun h => by cases h), (fun h => by cases h)⟩
      simp_all [SendState.quiet]
  | none =>
      have hMarker := provisionalPending_of_open hTerminal hOpen
      simp only [hMarker, if_true]
      cases poll with
      | event event =>
          cases event with
          | complete cancelled =>
              cases cancelled <;> exact ⟨hQuiet, (fun h => by cases h), (fun h => by cases h)⟩
          | _ => exact ⟨hQuiet, (fun h => by cases h), (fun h => by cases h)⟩
      | _ => exact ⟨hQuiet, (fun h => by cases h), (fun h => by cases h)⟩

theorem quiet_pollFinish {poll : SendPoll} {terminal : Option SendTerminal}
    (hSettled : state.settled = true) (hQuiet : state.quiet = true) (hTerminal : terminal.isSome) :
    (transitionPollFinish state poll terminal).2.quiet = true ∧
      (transitionPollFinish state poll terminal).1 ≠ .returnReady ∧
      (transitionPollFinish state poll terminal).1 ≠ .returnFinished := by
  have hFlags : state.sendInprogress = false ∧ state.finishStarted = false := by
    simp_all [SendState.quiet]
  obtain ⟨hIdle, hStarted⟩ := hFlags
  have hReserved : state.submissionReserved = false ∧ state.finishComplete = false := by
    simp_all [SendState.settled]
  unfold transitionPollFinish publishInternal
  simp only [hReserved, hStarted, hIdle, Bool.false_eq_true, if_false, Bool.not_false, if_true]
  split
  · exact ⟨hQuiet, (fun h => by cases h), (fun h => by cases h)⟩
  next _ hPoll =>
    cases hOpen : definitive terminal with
    | some winner =>
        refine ⟨?_, (fun h => by cases h), (fun h => by cases h)⟩
        simp_all [SendState.quiet]
    | none =>
        have hMarker := provisionalPending_of_open hTerminal hOpen
        simp only [hMarker, if_true]
        cases poll with
        | event event =>
            cases event with
            | complete cancelled =>
                cases cancelled <;> exact ⟨hQuiet, (fun h => by cases h), (fun h => by cases h)⟩
            | _ => exact ⟨hQuiet, (fun h => by cases h), (fun h => by cases h)⟩
        | _ => exact ⟨hQuiet, (fun h => by cases h), (fun h => by cases h)⟩

/-- After a cancellation nothing is submitted and no poll succeeds. -/
theorem quiet_transition (hBook : input.book call state) (hQuiet : state.quiet = true)
    (hTerminal : input.terminal.isSome)
    (hRequest : ∀ len terminal, input = .sendRequested (.nonEmpty len) terminal →
      (definitive terminal).isSome) :
    (transition state input).2.quiet = true ∧ (transition state input).1 ≠ .returnReady ∧
      (transition state input).1 ≠ .returnFinished := by
  cases input with
  | pollReady poll terminal => exact quiet_pollReady hBook.2.2 hQuiet hTerminal
  | pollFinish poll terminal => exact quiet_pollFinish hBook.2 hQuiet hTerminal
  | sendRequested payload terminal =>
      simp only [transition]
      cases hOpen : definitive terminal with
      | some winner => exact ⟨hQuiet, (fun h => by cases h), (fun h => by cases h)⟩
      | none =>
          cases payload with
          | nonEmpty len =>
              have hSome := hRequest len terminal rfl
              rw [hOpen] at hSome
              cases hSome
          | _ =>
              dsimp only
              split <;> exact ⟨hQuiet, (fun h => by cases h), (fun h => by cases h)⟩
  | sendSubmitted result terminal =>
      have hSubmitting := hBook.2
      simp_all [SendState.submittingSend, SendState.quiet]
  | gracefulSubmitted result terminal =>
      have hSubmitting := hBook.2
      simp_all [SendState.submittingFinish, SendState.quiet]
  | resetSubmitted code result terminal =>
      simp only [transition]
      repeat' split
      all_goals exact ⟨hQuiet, (fun h => by cases h), (fun h => by cases h)⟩
  | reset code terminal =>
      simp only [transition]
      repeat' split
      all_goals exact ⟨hQuiet, (fun h => by cases h), (fun h => by cases h)⟩
  | terminalPublished winner continuation =>
      simp only [transition]
      split <;> cases continuation <;>
        exact ⟨hQuiet, (fun h => by cases h), (fun h => by cases h)⟩

end Reducer

section Points

variable {config : H3Config} {key : StreamKey} {call : SendCall} {w w' : AdapterWorld}

theorem consumesCancel_owner {e : AdapterEvent} (h : consumesCancel key e = true) :
    e.request.owner = .sendHalf key := by
  unfold consumesCancel at h
  split at h
  · simp only [Bool.and_eq_true, decide_eq_true_eq] at h
    rw [← h.1.1]
    rfl
  · cases h

theorem cancels_ownTrace (trace : List AdapterLabel) :
    cancels key (ownTrace key trace) = cancels key trace := by
  apply countP_ownTrace
  intro label h
  cases label with
  | event e => exact consumesCancel_owner h
  | _ => cases h

theorem SendRely.cancels (h : SendRely key w w') : cancels key w'.trace = cancels key w.trace := by
  rw [← cancels_ownTrace, h.own, cancels_ownTrace]

theorem SendRely.cancelled (h : SendRely key w w') : Cancelled key w' ↔ Cancelled key w := by
  unfold Cancelled
  rw [h.cancels]

theorem Recorded.mono (h : Recorded key w) (hSlot : SlotLe (w.state.slot key) (w'.state.slot key))
    (hConn : w.state.conn.Le w'.state.conn) : Recorded key w' :=
  h.imp hSlot.occupied hConn.occupied

/-- Points that do not mention the trace bear every step that consumes nothing. -/
theorem cancelAt_mono {point : SendPoint} (h : cancelAt key point w)
    (hPoint : ∀ purpose, point ≠ .load purpose ∧ ∀ slot, point ≠ .peek purpose slot)
    (hCancelled : Cancelled key w' ↔ Cancelled key w)
    (hReducer : w'.state.reducer key = w.state.reducer key)
    (hSlot : SlotLe (w.state.slot key) (w'.state.slot key))
    (hConn : w.state.conn.Le w'.state.conn) : cancelAt key point w' := by
  have hRecorded : Recorded key w → Recorded key w' := fun hSome => hSome.mono hSlot hConn
  have hKept : Kept key w → Kept key w' :=
    fun hSome hLost => hRecorded (hSome (hCancelled.1 hLost))
  cases point with
  | load purpose => exact absurd rfl (hPoint purpose).1
  | peek purpose slot => exact absurd rfl ((hPoint purpose).2 slot)
  | again round =>
      simp only [cancelAt, hReducer, hCancelled]
      exact ⟨hKept h.1, h.2.1, fun hSome => hRecorded (h.2.2.1 hSome), h.2.2.2⟩
  | feed round =>
      simp only [cancelAt, hReducer, hCancelled]
      exact ⟨hKept h.1, h.2.1, fun hSome => hRecorded (h.2.2.1 hSome), h.2.2.2⟩
  | publish candidate continuation remaining =>
      simp only [cancelAt, hCancelled]
      exact h
  | exit result =>
      simp only [cancelAt, hCancelled]
      exact ⟨hKept h.1, h.2⟩
  | _ => exact hKept h

theorem cancelAt_rely {point : SendPoint} (h : cancelAt key point w)
    (hRely : SendRely key w w') : cancelAt key point w' := by
  have hRecorded : Recorded key w → Recorded key w' := fun hSome => hSome.mono hRely.slot hRely.conn
  have hKept : Kept key w → Kept key w' :=
    fun hSome hLost => hRecorded (hSome (hRely.cancelled.1 hLost))
  cases point with
  | load purpose =>
      simp only [cancelAt, hRely.own, hRely.reducer]
      exact ⟨hKept h.1, h.2⟩
  | peek purpose slot =>
      obtain ⟨hSome, hOpen, hSlot, hLoaded, hRest⟩ := h
      simp only [cancelAt, hRely.own, hRely.reducer, hRely.cancelled]
      exact ⟨hKept hSome, hOpen, fun hLost => (hSlot hLost).imp_right hRely.conn.occupied,
        fun h => hRely.slot.occupied (hLoaded h), hRest⟩
  | _ =>
      refine cancelAt_mono h ?_ hRely.cancelled hRely.reducer hRely.slot hRely.conn
      exact fun _ => ⟨(fun h => by cases h), fun _ h => by cases h⟩

theorem exit_sendWinner {winner : SendTerminal} (h : winner ≠ .provisionalAbort) :
    (call.failure winner).sendWinner ≠ some .provisionalAbort := by
  intro hReported
  exact h (failure_sendWinner hReported).symm

theorem cancelAt_returning {winner : SendTerminal} (hKept : Kept key w)
    (hWinner : winner ≠ .provisionalAbort) : cancelAt key (call.returning winner) w := by
  cases winner with
  | connection fallback => exact hKept
  | _ => exact ⟨hKept, fun _ => exit_failure_ne_ok _, exit_sendWinner hWinner⟩

theorem cancelAt_resolved {terminal : Option SendTerminal} {purpose : Purpose}
    (hKept : Kept key w) (hTerminal : Cancelled key w → terminal.isSome)
    (hRecorded : terminal.isSome → Recorded key w)
    (hGuard : purpose = .guard → terminal ≠ some .provisionalAbort)
    (hDue : purpose.due = 1 → (w.state.reducer key).finishStarted = false)
    (hRequest : ∀ payload, purpose = .request payload →
      classifySendLen payload.length config.maxSendBytes = .nonEmpty →
      Cancelled key w → (definitive terminal).isSome) :
    cancelAt key (call.resolved config terminal purpose) w := by
  have hOther : ∀ {input : SendInput}, input.terminal = terminal → input.due = purpose.due →
      (∀ payload other, input ≠ .sendRequested payload other) →
      ∀ remaining, cancelAt key (.again ⟨input, remaining⟩) w := by
    rintro input rfl hInput hKind remaining
    refine ⟨hKept, hTerminal, hRecorded, ?_, ?_⟩
    · rw [hInput]
      exact hDue
    · intro len other hEq
      exact absurd hEq (hKind _ _)
  cases purpose with
  | guard =>
      cases terminal with
      | none => exact ⟨hKept, fun _ => exit_failure_ne_ok _, exit_sendWinner (by simp)⟩
      | some winner =>
          apply cancelAt_returning hKept
          rintro rfl
          exact hGuard rfl rfl
  | request payload =>
      refine ⟨hKept, hTerminal, hRecorded, (fun h => by cases h), ?_⟩
      intro len other hInput hLost
      simp only [SendInput.sendRequested.injEq] at hInput
      obtain ⟨hClass, rfl⟩ := hInput
      apply hRequest payload rfl _ hLost
      unfold classifyPayload at hClass
      split at hClass <;> first | assumption | cases hClass
  | poll poll =>
      cases call <;> exact hOther rfl rfl (fun _ _ h => by cases h) _
  | _ => exact hOther rfl rfl (fun _ _ h => by cases h) _

/-- The command that answers a cancelled completion. -/
theorem command_of_cancels {state : SendState} {input : SendInput} (hBook : input.book call state)
    (hCancels : input.cancels = true) (hStarted : state.finishStarted = false) :
    (∃ candidate continuation,
      (transition state input).1 = .publishTerminal candidate continuation) ∨
    ∃ winner, (transition state input).1 = .returnError winner ∧
      definitive input.terminal = some winner := by
  unfold SendInput.cancels at hCancels
  split at hCancels
  next terminal =>
    obtain ⟨-, -, hSettled⟩ := hBook
    have hReserved : state.submissionReserved = false := by
      simp_all [SendState.settled]
    simp only [transition, transitionPollReady, hReserved, hStarted, Bool.false_eq_true, if_false,
      SendInput.terminal]
    cases definitive terminal with
    | some winner => exact .inr ⟨winner, rfl, rfl⟩
    | none =>
        dsimp only
        split <;> exact .inl ⟨_, _, rfl⟩
  next terminal =>
    obtain ⟨-, hSettled⟩ := hBook
    have hReserved : state.submissionReserved = false ∧ state.finishComplete = false := by
      simp_all [SendState.settled]
    simp only [transition, transitionPollFinish, hReserved, hStarted, Bool.false_eq_true, if_false,
      SendInput.terminal]
    cases definitive terminal with
    | some winner => exact .inr ⟨winner, rfl, rfl⟩
    | none =>
        dsimp only
        split <;> exact .inl ⟨_, _, rfl⟩
  · cases hCancels

theorem due_of_cancels {input : SendInput} (h : input.cancels = true) : input.due = 1 := by
  unfold SendInput.cancels at h
  split at h
  · rfl
  · rfl
  · cases h

theorem consumesCancel_transition (choice : Choice) (input : SendInput) (s : State) :
    consumesCancel key ((adapter config).event choice (.send key call)
      (.stream key (.transition input)) s) = input.cancels := by
  simp [consumesCancel, Machine.event]

theorem cancelled_snoc (choice : Choice) (request : Request) (op : Op) :
    Cancelled key ((adapter config).advance choice request op w) ↔ Cancelled key w ∨
      consumesCancel key ((adapter config).event choice request op w.state) = true := by
  unfold Cancelled cancels
  rw [Machine.advance_trace, Machine.countP_snoc]
  simp only [Machine.counts]
  cases consumesCancel key ((adapter config).event choice request op w.state) <;> simp

/-- The reducer's command leads to a point that knows of the cancellation. -/
theorem cancelAt_obey {round : SendRound} {choice : Choice} (hBook : round.input.book call (w.state.reducer key))
    (hInv : CancelInv key w) (hAt : cancelAt key (.feed round) w) :
    cancelAt key (call.obey round.remaining (transition (w.state.reducer key) round.input).1)
      ((adapter config).advance choice (.send key call) (.stream key (.transition round.input)) w) := by
  obtain ⟨hKept, hTerminal, hRecorded, hDue, hRequest⟩ := hAt
  have hExpected := expects_transition hBook
  have hSlot := @advance_slot_le key config (.stream key (.transition round.input)) w choice
    (.send key call)
  have hCancelled := @cancelled_snoc config key w choice (.send key call)
    (.stream key (.transition round.input))
  rw [consumesCancel_transition] at hCancelled
  have hMono : Recorded key w → Recorded key ((adapter config).advance choice (.send key call)
      (.stream key (.transition round.input)) w) := fun h => h.mono hSlot (.refl _)
  cases hCancels : round.input.cancels with
  | true =>
      have hStarted := hDue (due_of_cancels hCancels)
      rcases command_of_cancels hBook hCancels hStarted with ⟨candidate, continuation, hCommand⟩ |
        ⟨winner, hCommand, hWinner⟩
      · rw [hCommand] at hExpected ⊢
        have hPublish : cancelAt key (.publish candidate continuation round.remaining)
            ((adapter config).advance choice (.send key call)
              (.stream key (.transition round.input)) w) := fun _ => hCancelled.2 (.inr hCancels)
        cases call <;> first | exact hPublish | cases hExpected
      · obtain ⟨hInput, hDefinitive⟩ := definitive_eq_some.1 hWinner
        rw [hCommand] at hExpected ⊢
        have hReturning : cancelAt key (call.returning winner) ((adapter config).advance choice
            (.send key call) (.stream key (.transition round.input)) w) := by
          apply cancelAt_returning
          · exact fun _ => hMono (hRecorded (by rw [hInput]; rfl))
          · rintro rfl
            cases hDefinitive
        cases call <;> first | exact hReturning | cases hExpected
  | false =>
      rw [hCancels, or_iff_left Bool.false_ne_true] at hCancelled
      have hKept' : Kept key ((adapter config).advance choice (.send key call)
          (.stream key (.transition round.input)) w) :=
        fun hLost => hMono (hKept (hCancelled.1 hLost))
      have hQuiet : Cancelled key w → (transition (w.state.reducer key) round.input).1 ≠ .returnReady ∧
          (transition (w.state.reducer key) round.input).1 ≠ .returnFinished := by
        intro hLost
        exact (quiet_transition hBook (hInv.lost hLost) (hTerminal hLost)
          fun len terminal hInput => hRequest len terminal hInput hLost).2
      cases hCommand : (transition (w.state.reducer key) round.input).1 with
      | publishTerminal candidate continuation =>
          rw [hCommand] at hExpected
          have hPublish : cancelAt key (.publish candidate continuation round.remaining)
              ((adapter config).advance choice (.send key call)
                (.stream key (.transition round.input)) w) := by
            intro hMarker
            rw [cancels_of_marker hCommand hMarker] at hCancels
            cases hCancels
          cases call <;> first | exact hPublish | cases hExpected
      | returnError winner =>
          rw [hCommand] at hExpected
          have hReturning : cancelAt key (call.returning winner) ((adapter config).advance choice
              (.send key call) (.stream key (.transition round.input)) w) := by
            apply cancelAt_returning hKept'
            rintro rfl
            rcases transition_returnError hCommand with hMisuse | hWinner
            · cases hMisuse
            · cases (definitive_eq_some.1 hWinner).2
          cases call <;> first | exact hReturning | cases hExpected
      | returnReady =>
          rw [hCommand] at hExpected
          have hExit : cancelAt key (.exit (.pollSend (.ready (.ok ())))) ((adapter config).advance
              choice (.send key call) (.stream key (.transition round.input)) w) :=
            ⟨hKept', fun hLost => absurd hCommand (hQuiet (hCancelled.1 hLost)).1, fun h => by cases h⟩
          cases call <;> first | exact hExit | cases hExpected
      | returnFinished =>
          rw [hCommand] at hExpected
          have hExit : cancelAt key (.exit (.pollSend (.ready (.ok ())))) ((adapter config).advance
              choice (.send key call) (.stream key (.transition round.input)) w) :=
            ⟨hKept', fun hLost => absurd hCommand (hQuiet (hCancelled.1 hLost)).2, fun h => by cases h⟩
          cases call <;> first | exact hExit | cases hExpected
      | _ =>
          rw [hCommand] at hExpected
          cases call <;> first
            | exact absurd hExpected Bool.false_ne_true
            | exact hKept'
            | exact ⟨hKept', (fun _ h => by cases h), fun h => by cases h⟩

/-- What a look at the send slot leads to. -/
theorem cancelAt_loaded {purpose : Purpose} (choice : Choice) (hAt : cancelAt key (.load purpose) w)
    (hInv : CancelInv key w) (hBook : purpose.book call (w.state.reducer key)) :
    cancelAt key (if decides (w.state.slot key) then
        call.resolved config (w.state.slot key) purpose else .peek purpose (w.state.slot key))
      ((adapter config).advance choice (.send key call) (.stream key .loadWinner) w) := by
  obtain ⟨hKept, hDue, hStart⟩ := hAt
  have hSlot : ((adapter config).advance choice (.send key call) (.stream key .loadWinner) w).state.slot
      key = w.state.slot key := by
    simp only [Machine.advance_state, adapter_perform, State.slot, Op.perform_stream_self,
      StreamOp.perform_sendTerminal]
  have hReducer := @advance_reducer_self config key choice (.send key call)
    .loadWinner w
  have hCancelled : Cancelled key ((adapter config).advance choice (.send key call)
      (.stream key .loadWinner) w) ↔ Cancelled key w := by
    rw [cancelled_snoc]
    exact or_iff_left Bool.false_ne_true
  have hKept' : Kept key ((adapter config).advance choice (.send key call)
      (.stream key .loadWinner) w) := by
    intro hLost
    unfold Recorded
    rw [hSlot]
    exact hKept (hCancelled.1 hLost)
  have hGuard : purpose = .guard → w.state.slot key ≠ some .provisionalAbort := by
    rintro rfl hMarker
    obtain ⟨-, -, hStarted⟩ := hBook
    have hQuiet := hInv.lost (hInv.marker hMarker)
    simp [SendState.quiet, hStarted] at hQuiet
  split
  next hDecides =>
    obtain ⟨winner, hWinner⟩ := definitive_of_decides hDecides
    have hSome : (w.state.slot key).isSome := by
      rw [(definitive_eq_some.1 hWinner).1]
      rfl
    apply cancelAt_resolved hKept' (fun _ => hSome) _ hGuard
    · rw [hReducer]
      exact hDue
    · intro _ _ _ _
      rw [hWinner]
      rfl
    · intro _
      unfold Recorded
      rw [hSlot]
      exact .inl hSome
  next hOpen =>
    refine ⟨hKept', by simpa using hOpen, fun hLost => hKept (hCancelled.1 hLost), ?_, hGuard, ?_, ?_⟩
    · rw [hSlot]
      exact id
    · rw [hReducer]
      exact hDue
    · intro payload hPurpose hMarker
      obtain ⟨earlier, hTrace⟩ := hStart payload hPurpose
      refine ⟨earlier, .event ((adapter config).event choice (.send key call)
        (.stream key .loadWinner) w.state), ?_, ?_⟩
      · rw [Machine.advance_trace, ownTrace_snoc rfl, hTrace, List.append_assoc]
        rfl
      · simp [loadsLost, Machine.event, hMarker]

/-- What a look at the connection slot leads to. -/
theorem cancelAt_peeked {purpose : Purpose} {slot : Option SendTerminal} (choice : Choice)
    (hAt : cancelAt key (.peek purpose slot) w)
    (hCond : NoLostRead config key ((adapter config).advance choice (.send key call)
      (.conn .peekConnTerminal) w).trace) :
    cancelAt key (call.resolved config (resolveWith slot w.state.conn.terminal) purpose)
      ((adapter config).advance choice (.send key call) (.conn .peekConnTerminal) w) := by
  obtain ⟨hKept, hOpen, hSlot, hLoaded, hGuard, hDue, hStart⟩ := hAt
  have hCancelled : Cancelled key ((adapter config).advance choice (.send key call)
      (.conn .peekConnTerminal) w) ↔ Cancelled key w := by
    rw [cancelled_snoc]
    exact or_iff_left Bool.false_ne_true
  have hKept' : Kept key ((adapter config).advance choice (.send key call)
      (.conn .peekConnTerminal) w) := fun hLost => hKept (hCancelled.1 hLost)
  have hSome : (resolveWith slot w.state.conn.terminal).isSome ↔
      slot.isSome ∨ w.state.conn.terminal.isSome := by
    cases slot with
    | none => cases w.state.conn.terminal <;> simp [resolveWith]
    | some winner => cases winner <;> cases w.state.conn.terminal <;> simp [resolveWith]
  apply cancelAt_resolved hKept'
  · exact fun hLost => hSome.2 (hSlot (hCancelled.1 hLost))
  · intro hTerminal
    exact (hSome.1 hTerminal).imp_left hLoaded
  · intro hPurpose hMarker
    exact hGuard hPurpose (resolveWith_marker hMarker).1
  · exact hDue
  · intro payload hPurpose hLen hLost
    cases hReason : w.state.conn.terminal with
    | some reason =>
        rw [definitive_resolveWith_some]
        rfl
    | none =>
        have hRecorded := hSlot (hCancelled.1 hLost)
        rw [hReason] at hRecorded
        have hSlotSome := hRecorded.resolve_right Bool.false_ne_true
        rw [resolveWith_none]
        by_cases hMarker : slot = some .provisionalAbort
        · obtain ⟨earlier, load, hTrace, hLoads⟩ := hStart payload hPurpose hMarker
          have hInfix : [.begun (.send key (.sendData payload)), load,
              .event ((adapter config).event choice (.send key call) (.conn .peekConnTerminal)
                w.state)] <:+: ownTrace key ((adapter config).advance choice (.send key call)
                  (.conn .peekConnTerminal) w).trace := by
            rw [Machine.advance_trace, ownTrace_snoc rfl, hTrace]
            exact ⟨earlier, [], by simp⟩
          have hFinds := hCond payload load _ hInfix hLen hLoads
          simp [findsNoCause, Machine.event, hReason] at hFinds
        · cases slot with
          | none => cases hSlotSome
          | some winner => cases winner <;> first | rfl | exact absurd rfl hMarker

/-- A step of the half's own code. -/
theorem cancel_step {point : SendPoint} {op : Op} {target : op.Reply → SendPoint}
    (hAt : cancelAt key point w) (hInv : CancelInv key w)
    (hNode : call.node config key point = .inl ⟨op, target⟩)
    (hBook : point.book call (w.state.reducer key)) (choice : Choice)
    (hFinish : (w.state.reducer key).finishStarted = true →
      accepted key w.trace ≤ taken key w.trace)
    (hLedger : taken key ((adapter config).advance choice (.send key call) op w).trace ≤
      accepted key ((adapter config).advance choice (.send key call) op w).trace)
    (hCond : NoLostRead config key ((adapter config).advance choice (.send key call) op w).trace) :
    cancelAt key (target (op.perform config choice w.state).1)
      ((adapter config).advance choice (.send key call) op w) := by
  have hSlot : ∀ op, SlotLe (w.state.slot key)
      (((adapter config).advance choice (.send key call) op w).state.slot key) :=
    fun op => advance_slot_le op w choice _
  have hConn : ∀ op, w.state.conn.Le
      ((adapter config).advance choice (.send key call) op w).state.conn := by
    intro op
    rw [Machine.advance_state, adapter_perform, Op.perform_conn]
    exact op.slot_le _
  have hKept : ∀ op, consumesCancel key ((adapter config).event choice (.send key call) op w.state) =
      false → Kept key w → Kept key ((adapter config).advance choice (.send key call) op w) := by
    intro op hSilent h hLost
    rw [cancelled_snoc, hSilent, or_iff_left Bool.false_ne_true] at hLost
    exact (h hLost).mono (hSlot op) (hConn op)
  cases point with
  | guard =>
      cases hNode
      dsimp only
      split
      · exact ⟨hKept _ rfl hAt, (fun h => by cases h), fun _ h => by cases h⟩
      · exact hKept _ rfl hAt
  | poll =>
      cases hNode
      refine ⟨hKept _ rfl hAt, ?_, fun _ h => by cases h⟩
      rw [advance_reducer_self]
      intro hDue
      rw [← Bool.not_eq_true]
      intro hStarted
      have hTaken := congrArg Account.taken (@account_event key w.trace
        ((adapter config).event choice (.send key call) (.stream key .pollSendChannel) w.state))
      have hAccepted := congrArg Account.accepted (@account_event key w.trace
        ((adapter config).event choice (.send key call) (.stream key .pollSendChannel) w.state))
      dsimp only [account] at hTaken hAccepted
      have hDue' : SendPoll.due (sendPoll (w.state.stream key).send.pollNext.1) = 1 := hDue
      rw [takesComplete_due, hDue'] at hTaken
      have hSilent : acceptsSend key ((adapter config).event choice (.send key call)
          (.stream key .pollSendChannel) w.state) = false := rfl
      rw [hSilent, Bool.toNat_false] at hAccepted
      have hBalance := hFinish hStarted
      rw [Machine.advance_trace, hTaken, hAccepted] at hLedger
      omega
  | load purpose =>
      cases hNode
      exact cancelAt_loaded choice hAt hInv hBook
  | peek purpose slot =>
      cases hNode
      exact cancelAt_peeked choice hAt hCond
  | again round => cases hNode
  | feed round =>
      cases hNode
      exact cancelAt_obey hBook hInv hAt
  | publish candidate continuation remaining =>
      cases hNode
      have hRecorded : Recorded key ((adapter config).advance choice (.send key call)
          (.stream key (.publishSend candidate)) w) := by
        left
        rw [advance_publish_slot, publishSend_slot]
        rfl
      exact ⟨fun _ => hRecorded, fun _ => rfl, fun _ => hRecorded, (fun h => by cases h),
        fun _ _ h => by cases h⟩
  | submit context buffer =>
      cases hNode
      dsimp only
      split
      · exact ⟨hKept _ rfl hAt, (fun h => by cases h), fun _ h => by cases h⟩
      · exact hKept _ rfl hAt
  | commit fallback =>
      cases hNode
      exact ⟨hKept _ rfl hAt, fun _ => exit_failure_ne_ok _, exit_sendWinner (by simp)⟩
  | dropHalf =>
      cases hNode
      exact ⟨hKept _ rfl hAt, (fun _ h => by cases h), fun h => by cases h⟩
  | exit result => cases hNode
  | box buffer =>
      cases hNode
      exact hKept _ rfl hAt
  | _ =>
      cases hNode
      exact ⟨hKept _ rfl hAt, (fun h => by cases h), fun _ h => by cases h⟩

end Points

section Invariant

variable {config : H3Config} {key : StreamKey} {w w' : AdapterWorld} {trace : List AdapterLabel}

theorem NoLostRead.earlier {earlier : List AdapterLabel} (h : NoLostRead config key trace)
    (hPrefix : earlier <+: trace) : NoLostRead config key earlier := by
  intro payload load peek hInfix
  exact h payload load peek (hInfix.trans (hPrefix.filter _).isInfix)

/-- A label that breaks no cancellation and reports no marker. -/
theorem CancelFinal.snoc (h : CancelFinal key trace) {label : AdapterLabel}
    (hBreaks : 0 < cancels key trace → breaksCancel key label = false)
    (hMarker : returnedWinner key label ≠ some .provisionalAbort) :
    CancelFinal key (trace ++ [label]) := by
  constructor
  · rw [List.pairwise_append]
    refine ⟨h.afterwards, List.pairwise_singleton _ _, fun first hFirst second hSecond hCounts => ?_⟩
    rw [List.mem_singleton] at hSecond
    subst hSecond
    exact hBreaks (List.countP_pos_iff.2 ⟨first, hFirst, hCounts⟩)
  · rw [sendWinners_snoc, List.mem_append, Option.mem_toList]
    rintro (hEarlier | hReturned)
    · exact h.marker hEarlier
    · exact hMarker hReturned

theorem breaksCancel_owner {label : AdapterLabel} (h : breaksCancel key label = true) :
    label.request.owner = .sendHalf key := by
  unfold breaksCancel at h
  split at h
  next e =>
    rw [Bool.or_eq_true] at h
    exact h.elim ExclusionInv.submitsSend_owner submitsGraceful_owner
  next other call events =>
    rw [decide_eq_true_eq] at h
    rw [← h]
    rfl
  · cases h

namespace CancelInv

/-- A label that consumes nothing, with a reducer that did not change. -/
theorem snoc (h : CancelInv key w) (label : AdapterLabel) {s : State}
    (hCancels : cancels key (w.trace ++ [label]) = cancels key w.trace)
    (hReducer : s.reducer key = w.state.reducer key)
    (hSlot : s.slot key = some .provisionalAbort → w.state.slot key = some .provisionalAbort)
    (hFinal : CancelFinal key (w.trace ++ [label])) : CancelInv key (w.after label s) := by
  have hCancelled : Cancelled key (w.after label s) ↔ Cancelled key w := by
    unfold Cancelled
    rw [World.after_trace, hCancels]
  constructor
  · rw [hCancelled, World.after_state, hReducer]
    exact h.lost
  · intro hMarker
    exact hCancelled.2 (h.marker (hSlot hMarker))
  · exact hFinal

theorem stable (h : CancelInv key w)
    (hStep : (adapter config).Interference permits (.sendHalf key) w w') : CancelInv key w' := by
  have hRely := sendRely_of_interference hStep
  obtain ⟨label, hTrace, hOwner⟩ := interference_trace hStep
  obtain ⟨state, trace⟩ := w'
  subst hTrace
  refine h.snoc label hRely.cancels hRely.reducer hRely.marker ?_
  apply h.final.snoc
  · intro _
    rw [← Bool.not_eq_true]
    intro hBreaks
    exact hOwner (breaksCancel_owner hBreaks)
  · intro hReturned
    exact hOwner (returnedWinner_owner hReturned)

/-- The half itself never breaks a cancellation. -/
theorem step (h : CancelInv key w) {call : SendCall} {point : SendPoint} {op : Op}
    {target : op.Reply → SendPoint} (hAt : cancelAt key point w)
    (hNode : call.node config key point = .inl ⟨op, target⟩)
    (hBook : point.book call (w.state.reducer key)) (choice : Choice) :
    CancelInv key ((adapter config).advance choice (.send key call) op w) := by
  have hFinal : ∀ op : Op, (Cancelled key w → breaksCancel key
      (.event ((adapter config).event choice (.send key call) op w.state)) = false) →
      CancelFinal key ((adapter config).advance choice (.send key call) op w).trace :=
    fun op hBreaks => h.final.snoc hBreaks (by simp [returnedWinner])
  have hCancels : ∀ op : Op, consumesCancel key ((adapter config).event choice (.send key call) op
      w.state) = false → cancels key (w.trace ++ [.event ((adapter config).event choice
        (.send key call) op w.state)]) = cancels key w.trace := by
    intro op hSilent
    unfold cancels
    rw [Machine.countP_snoc]
    simp only [Machine.counts, hSilent, Bool.toNat_false, Nat.add_zero]
  have hSlot : ∀ op : StreamOp, (∀ candidate, op ≠ .publishSend candidate) →
      ((adapter config).perform choice (.stream key op) w.state).2.slot key = some .provisionalAbort →
        w.state.slot key = some .provisionalAbort := by
    intro op hOp hMarker
    simp only [adapter_perform, State.slot, Op.perform_stream_self,
      StreamOp.perform_sendTerminal] at hMarker
    exact hMarker
  cases point with
  | feed round =>
      cases hNode
      have hCancelled := @cancelled_snoc config key w choice (.send key call)
        (.stream key (.transition round.input))
      rw [consumesCancel_transition] at hCancelled
      obtain ⟨-, hTerminal, -, hDue, hRequest⟩ := hAt
      constructor
      · intro hLost
        rw [advance_reducer_self]
        rcases hCancelled.1 hLost with hBefore | hNow
        · exact (quiet_transition hBook (h.lost hBefore) (hTerminal hBefore)
            fun len terminal hInput => hRequest len terminal hInput hBefore).1
        · exact quiet_of_cancels hBook hNow (hDue (due_of_cancels hNow))
      · intro hMarker
        exact hCancelled.2 (.inl (h.marker (hSlot _ (fun _ h => by cases h) hMarker)))
      · exact hFinal _ fun _ => rfl
  | publish candidate continuation remaining =>
      cases hNode
      have hCancelled := @cancelled_snoc config key w choice (.send key call)
        (.stream key (.publishSend candidate))
      constructor
      · intro hLost
        rw [advance_reducer_self]
        exact h.lost ((hCancelled.1 hLost).resolve_right Bool.false_ne_true)
      · intro hMarker
        rw [advance_publish_slot, publishSend_slot] at hMarker
        apply hCancelled.2
        left
        rcases publishSend_cases (w.state.slot key) candidate with ⟨hCandidate, -⟩ | hEarlier
        · have hEq : candidate = .provisionalAbort := hCandidate.symm.trans (Option.some.inj hMarker)
          exact hAt (by rw [hEq]; rfl)
        · exact h.marker (hEarlier.trans hMarker)
      · exact hFinal _ fun _ => rfl
  | submit context buffer =>
      cases hNode
      refine h.snoc _ (hCancels _ rfl) (advance_reducer_self choice (.send key call) _ w)
        (hSlot _ (fun _ h => by cases h))
        (hFinal _ fun hLost => ?_)
      have hQuiet := h.lost hLost
      have hSubmitting := hBook.2
      simp_all [SendState.quiet, SendState.submittingSend]
  | submitGraceful =>
      cases hNode
      refine h.snoc _ (hCancels _ rfl) (advance_reducer_self choice (.send key call) _ w)
        (hSlot _ (fun _ h => by cases h))
        (hFinal _ fun hLost => ?_)
      have hQuiet := h.lost hLost
      have hSubmitting := hBook.2
      simp_all [SendState.quiet, SendState.submittingFinish]
  | again round => cases hNode
  | exit result => cases hNode
  | peek purpose slot =>
      cases hNode
      exact h.snoc _ (hCancels _ rfl) rfl id (hFinal _ fun _ => rfl)
  | commit fallback =>
      cases hNode
      exact h.snoc _ (hCancels _ rfl) rfl id (hFinal _ fun _ => rfl)
  | _ =>
      cases hNode
      exact h.snoc _ (hCancels _ rfl) (advance_reducer_self choice (.send key call) _ w)
        (hSlot _ (fun _ h => by cases h)) (hFinal _ fun _ => rfl)

end CancelInv

/-- A cancelled send, followed through the methods of its half. -/
def cancelOutline (config : H3Config) (key : StreamKey) : SendOutline config key where
  known w := taken key w.trace ≤ accepted key w.trace ∧
    ((w.state.reducer key).finishStarted = true → accepted key w.trace ≤ taken key w.trace) ∧
    NoLostRead config key w.trace
  inv := CancelInv key
  idle := Kept key
  assertion _ point _ w := cancelAt key point w
  init := ⟨(fun h => by cases h), (fun h => by cases h), .nil, by simp [sendWinners]⟩
  idle_init := fun h => by cases h
  stable w w' hStep _ _ _ hInv := hInv.stable hStep
  idle_stable w w' h hRely hLost := (h (hRely.cancelled.1 hLost)).mono hRely.slot hRely.conn
  begin call w _ hInv hIdle _ _ := by
    have hCancels : cancels key (w.trace ++ [.begun (.send key call)]) = cancels key w.trace := by
      simp [cancels, Machine.counts]
    have hKept : Kept key (w.after (.begun (.send key call)) w.state) := by
      intro hLost
      unfold Cancelled at hLost
      rw [World.after_trace, hCancels] at hLost
      exact hIdle hLost
    constructor
    · exact hInv.snoc _ hCancels rfl id (hInv.final.snoc (fun _ => rfl) (by simp [returnedWinner]))
    · cases call with
      | sendData payload =>
          refine ⟨hKept, (fun h => by cases h), fun other hOther => ?_⟩
          cases hOther
          exact ⟨_, ownTrace_snoc rfl⟩
      | reset code => exact ⟨hKept, (fun h => by cases h), fun _ h => by cases h⟩
      | _ => exact hKept
  step call point events w op target hAt hNode w' hRely hBook hKnown hInv choice hNext := by
    obtain ⟨-, hFinish, -⟩ := hKnown
    obtain ⟨hLedger, -, hCond⟩ := hNext
    have hAt' := cancelAt_rely hAt hRely
    exact ⟨hInv.step hAt' hNode hBook choice,
      cancel_step hAt' hInv hNode hBook choice hFinish hLedger hCond⟩
  again call round events w hAt := hAt
  finish call events w result hAt w' hRely _ _ hInv _ := by
    obtain ⟨hKept, hOk, hWinner⟩ := cancelAt_rely hAt hRely
    have hCancels : cancels key (w'.trace ++ [.finished ⟨.send key call, events, result⟩]) =
        cancels key w'.trace := by
      simp [cancels, Machine.counts]
    constructor
    · apply hInv.snoc _ hCancels rfl id
      apply hInv.final.snoc
      · intro hLost
        rw [← Bool.not_eq_true]
        intro hBreaks
        unfold breaksCancel at hBreaks
        split at hBreaks
        next hLabel => cases hLabel
        next hLabel =>
          cases hLabel
          exact hOk hLost rfl
        · cases hBreaks
      · simpa [returnedWinner] using hWinner
    · intro hLost
      unfold Cancelled at hLost
      rw [World.after_trace, hCancels] at hLost
      exact hKept hLost

/-- If no `send_data` with a payload to send finds nothing but the marker of a lost
send, a cancelled send is final. -/
theorem cancel_final {reached : AdapterConfig} (run : Runs config trace reached)
    (hCond : NoLostRead config key trace) : CancelFinal key trace := by
  refine ((cancelOutline config key).holds run fun earlier config' hRun hPrefix => ?_).final
  have hExclusion := (exclusionOutline config key).holds hRun
    fun shorter state hShorter _ => outstanding_taken_le hShorter key
  refine ⟨?_, fun hStarted => (hExclusion.drained (.inl hStarted)).2, hCond.earlier hPrefix⟩
  have hLedger := outstanding_taken_le hRun key
  dsimp only
  omega

theorem noLostRead_of_none (h : trace.any (loadsLost key) = false) : NoLostRead config key trace := by
  intro payload load peek hInfix _ hLoads
  have hMem : load ∈ ownTrace key trace := hInfix.subset (by simp)
  exact absurd hLoads (List.any_eq_false.1 h load (List.mem_filter.1 hMem).1)

/-- A cancelled send, polled for readiness, and then the peer's stop. -/
theorem cancel_final_stopped :
    ∃ trace reached, Runs .default trace reached ∧ cancels (.accepted 0) trace = 1 ∧
      sendWinners (.accepted 0) trace = [.stopped 7] ∧ CancelFinal (.accepted 0) trace := by
  have hRun : ((adapter .default).run (Machine.initial {}) (serveAll
      [(.send (.accepted 0) (.sendData [1]), 9),
        (.stream (.accepted 0) (.sendComplete true (some 0)), 7),
        (.stream (.accepted 0) (.peerReceiveAborted 7), 7),
        (.send (.accepted 0) .pollReady, 5)])).isSome := by
    decide
  exact ⟨_, _, Machine.runs_get hRun, rfl, rfl,
    cancel_final (Machine.runs_get hRun) (noLostRead_of_none rfl)⟩

/-- A send is cancelled, `poll_ready` consumes that and waits, and the next `send_data`
is submitted. -/
theorem cancel_not_final :
    ∃ trace reached, Runs .default trace reached ∧ accepted (.accepted 0) trace = 2 ∧
      ¬CancelFinal (.accepted 0) trace := by
  have hRun : ((adapter .default).run (Machine.initial {}) (serveAll
      [(.send (.accepted 0) (.sendData [1]), 9),
        (.stream (.accepted 0) (.sendComplete true (some 0)), 7),
        (.send (.accepted 0) .pollReady, 12),
        (.send (.accepted 0) (.sendData [2]), 9)])).isSome := by
    decide
  have hMarks : ((((adapter .default).run _ _).get hRun).1.map fun label =>
      (Machine.counts (consumesCancel (.accepted 0)) label, breaksCancel (.accepted 0) label)).filter
        (fun mark => mark.1 || mark.2) = [(false, true), (true, false), (false, true)] := rfl
  refine ⟨_, _, Machine.runs_get hRun, rfl, fun h => ?_⟩
  have hPairs : ((((adapter .default).run _ _).get hRun).1.map fun label =>
      (Machine.counts (consumesCancel (.accepted 0)) label, breaksCancel (.accepted 0) label)).Pairwise
        fun first second => first.1 = true → second.2 = false := List.pairwise_map.2 h.afterwards
  have hMarked := hPairs.filter fun mark => mark.1 || mark.2
  rw [hMarks] at hMarked
  simp at hMarked

end Invariant

end MsQuicH3
