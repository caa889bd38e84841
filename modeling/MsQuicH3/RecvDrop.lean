import MsQuicH3.RecvRearm

/-! A receive half that is dropped. Nothing pauses its stream afterwards, but a pause
that waits for its completion at that moment waits for ever. -/
namespace MsQuicH3

open Concurrency

namespace RecvLedger

variable {budget : RecvBudget} {s : StreamState} {log : List StreamStep}

/-- A receiver does not come back. -/
theorem receiver_gone (choice : Choice) (op : StreamOp) (hGone : s.receive.receiver = false) :
    (op.perform budget choice s).2.receive.receiver = false := by
  rw [StreamOp.perform_receive]
  cases op with
  | admitIndication bytes =>
      dsimp only [publishData]
      split
      · exact hGone
      · rw [Channel.unboundedSend_receiver]
        exact hGone
  | sendReceive event =>
      dsimp only
      rw [Channel.unboundedSend_receiver]
      exact hGone
  | pollReceive =>
      dsimp only
      rw [Channel.pollNext_receiver]
      exact hGone
  | dropRecvHalf => rfl
  | _ => exact hGone

/-- Without a receiver an indication is rejected or empty, and changes no pause. -/
theorem admit_gone (h : RecvLedger budget s log) (choice : Choice) (bytes : List UInt8)
    (hGone : s.receive.receiver = false) :
    ((StreamOp.admitIndication bytes).perform budget choice s).2.recvState.pendOutstanding =
        s.recvState.pendOutstanding ∧
      (s.recvState.pendOutstanding = false →
        StreamStep.pauses ⟨.admitIndication bytes,
          ((StreamOp.admitIndication bytes).perform budget choice s).1⟩ = none) := by
  rcases admit_cases budget choice bytes s with ⟨-, -, hPerform⟩ | ⟨hOpen, hPerform⟩
  · rw [hPerform]
    exact ⟨rfl, fun _ => rfl⟩
  have hEmpty : bytes.isEmpty = true := by
    rw [← Bool.not_eq_false]
    intro hBytes
    have hBoth := hOpen hBytes
    rw [hGone, Bool.and_false] at hBoth
    cases hBoth
  rw [hPerform, hEmpty]
  have hNoBytes : bytes = [] := List.isEmpty_iff.1 hEmpty
  have hAgain : budget.Exhausted (budget.charge s.recvState bytes.length (!true)).2 ↔
      s.recvState.pendOutstanding = true := by
    have hGated : s.recvState.pendOutstanding = true ↔ budget.Exhausted s.recvState := h.gated
    rw [hGated, RecvBudget.Exhausted, RecvBudget.Exhausted, RecvBudget.charge_buffered,
      RecvBudget.charge_units, hNoBytes]
    simp
  have hPend := @RecvBudget.charge_fst budget s.recvState bytes.length (!true)
  rw [hAgain] at hPend
  have hFlag : (budget.charge s.recvState bytes.length (!true)).2.pendOutstanding =
      ((budget.charge s.recvState bytes.length (!true)).1 || s.recvState.pendOutstanding) := rfl
  cases hBefore : s.recvState.pendOutstanding with
  | true =>
      refine ⟨?_, fun hFree => absurd hFree.symm Bool.false_ne_true⟩
      dsimp only
      rw [hFlag, hBefore, Bool.or_true]
  | false =>
      have hFree : (budget.charge s.recvState bytes.length (!true)).1 = false := by
        rw [← Bool.not_eq_true, hPend, hBefore]
        exact Bool.false_ne_true
      rw [hFree]
      refine ⟨?_, fun _ => rfl⟩
      dsimp only
      rw [hFlag, hFree, hBefore, Bool.or_false]

/-- After the drop nothing is drained or completed, and nothing pauses the stream. -/
theorem perform_gone (h : RecvLedger budget s log) (choice : Choice) (op : StreamOp)
    (h' : RecvLedger budget (op.perform budget choice s).2
      (log ++ [⟨op, (op.perform budget choice s).1⟩]))
    (hGone : s.receive.receiver = false) :
    (op.perform budget choice s).2.recvState.pendOutstanding = s.recvState.pendOutstanding ∧
      completed (log ++ [⟨op, (op.perform budget choice s).1⟩]) = completed log ∧
      (s.recvState.pendOutstanding = false →
        paused (log ++ [⟨op, (op.perform budget choice s).1⟩]) = paused log) := by
  have hBefore := (h.abandoned hGone).2
  have hAfter := (h'.abandoned (receiver_gone choice op hGone)).2
  have hState := StreamOp.perform_recvState budget choice op s
  cases op with
  | onDrained len =>
      have hLength := congrArg List.length hAfter.accounted
      rw [drained, dequeued, filterMap_snoc, filterMap_snoc, ← drained, ← dequeued,
        hBefore.accounted] at hLength
      simp [StreamStep.drains, StreamStep.takes] at hLength
  | submitReceiveComplete len =>
      have hLength := congrArg List.length hAfter.answered
      rw [completed, rearmed, filterMap_snoc, filterMap_snoc, ← completed, ← rearmed,
        hBefore.answered] at hLength
      simp [StreamStep.completes, StreamStep.rearms] at hLength
  | admitIndication bytes =>
      obtain ⟨hPend, hPauses⟩ := h.admit_gone choice bytes hGone
      refine ⟨hPend, ?_, fun hFree => ?_⟩
      · rw [completed, filterMap_snoc]
        exact List.append_nil _
      · rw [paused, filterMap_snoc, hPauses hFree]
        exact List.append_nil _
  | _ =>
      refine ⟨congrArg RecvState.pendOutstanding hState, ?_, fun _ => ?_⟩
      · rw [completed, filterMap_snoc]
        exact List.append_nil _
      · rw [paused, filterMap_snoc]
        exact List.append_nil _

end RecvLedger

/-- No pause is left behind by a receive half that was dropped after `earlier`: every
PENDING return, one under way included, was decided by then and is completed. -/
structure NotStranded (key : StreamKey) (earlier trace : List AdapterLabel)
    (reached : AdapterConfig) : Prop where
  completed : completed (streamLog key trace) = pendReturns key trace ++ deciding key reached
  quiet : pendReturns key trace ++ deciding key reached = paused (streamLog key earlier)

section Runs

variable {config : H3Config} {key : StreamKey} {earlier later : List AdapterLabel}
  {middle reached : AdapterConfig}

/-- What a run without a receiver leaves as it is. -/
theorem gone_run (run : Runs config earlier middle)
    (rest : (adapter config).Runs middle later reached)
    (hGone : (middle.state.stream key).receive.receiver = false) :
    (reached.state.stream key).receive.receiver = false ∧
      reached.state.paused key = middle.state.paused key ∧
      completed (streamLog key (earlier ++ later)) = completed (streamLog key earlier) ∧
      (middle.state.paused key = false →
        paused (streamLog key (earlier ++ later)) = paused (streamLog key earlier)) := by
  induction rest with
  | start => simp [hGone]
  | @step later label config' next move prior last ih =>
      obtain ⟨hDead, hPause, hCompleted, hPaused⟩ := ih
      have hRun : Runs config (earlier ++ later) config' := run.trans prior
      have hLedger := recvLedger_holds hRun key
      have hLedger' := recvLedger_holds (.step hRun last) key
      rw [← List.append_assoc]
      rcases Machine.step_cases last with ⟨request, state, -, hDeliver, rfl, rfl⟩ |
        ⟨thread, choice, request, events, op, following, -, rfl, rfl⟩ |
        ⟨thread, request, events, result, -, rfl, rfl⟩
      · have hReceive := deliver_stream StreamState.receive (fun _ _ => rfl) hDeliver key
        have hState := deliver_stream StreamState.recvState (fun _ _ => rfl) hDeliver key
        rw [streamLog_begun]
        refine ⟨?_, ?_, hCompleted, hPaused⟩
        · dsimp only
          rw [hReceive]
          exact hDead
        · dsimp only [State.paused]
          rw [hState]
          exact hPause
      · rcases @advance_stream_cases config choice request ⟨config'.state, earlier ++ later⟩ key op with
          ⟨own, rfl, hStream, hLog⟩ | ⟨-, hStream, hLog⟩
        · simp only [Machine.advance_state, Machine.advance_trace] at hStream hLog
          rw [hStream, hLog] at hLedger'
          obtain ⟨hPend, hComplete, hQuiet⟩ := hLedger.perform_gone choice own hLedger' hDead
          dsimp only [State.paused] at hPause hPaused ⊢
          rw [hStream, hLog]
          exact ⟨RecvLedger.receiver_gone choice own hDead, hPend.trans hPause,
            hComplete.trans hCompleted,
            fun hFree => (hQuiet (hPause.trans hFree)).trans (hPaused hFree)⟩
        · simp only [Machine.advance_state, Machine.advance_trace] at hStream hLog
          dsimp only [State.paused] at hPause hPaused ⊢
          rw [hStream, hLog]
          exact ⟨hDead, hPause, hCompleted, hPaused⟩
      · rw [streamLog_finished]
        exact ⟨hDead, hPause, hCompleted, hPaused⟩

/-- What the drop itself does. -/
theorem drop_effect {e : AdapterEvent} (run : Runs config (earlier ++ [.event e]) reached)
    (hDrop : e.op = .stream key .dropRecvHalf) :
    (reached.state.stream key).receive.receiver = false ∧
      reached.state.paused key = e.before.paused key ∧
      paused (streamLog key (earlier ++ [.event e])) = paused (streamLog key earlier) := by
  obtain ⟨before, move, -, hLast⟩ := Machine.Runs.last run
  rcases Machine.step_cases hLast with ⟨_, _, _, _, hKind, _⟩ |
    ⟨thread, choice, request, events, op, following, -, hKind, rfl⟩ | ⟨_, _, _, _, _, hKind, _⟩
  · cases hKind
  · cases hKind
    obtain rfl : op = .stream key .dropRecvHalf := hDrop
    refine ⟨?_, ?_, ?_⟩
    · simp [adapter_perform, StreamOp.perform]
    · simp [adapter_perform, StreamOp.perform, State.paused]
    · have hLog := @streamLog_event key config choice request ⟨before.state, earlier⟩ .dropRecvHalf
      simp only [Machine.advance_trace] at hLog
      rw [hLog, paused, filterMap_snoc]
      exact List.append_nil _
  · cases hKind

/-- A dropped receive half strands its stream exactly when the stream was paused at
the drop. -/
theorem not_stranded_iff {trace : List AdapterLabel} {e : AdapterEvent}
    (run : Runs config trace reached) (hHolds : HoldsPaused key trace)
    (hCalm : Uninterrupted key trace) (hTrace : trace = earlier ++ .event e :: later)
    (hDrop : e.op = .stream key .dropRecvHalf) :
    NotStranded key earlier trace reached ↔ e.before.paused key = false := by
  have hSplit : earlier ++ .event e :: later = (earlier ++ [.event e]) ++ later := by simp
  rw [hSplit] at hTrace
  subst hTrace
  obtain ⟨after, hAfter, hRest⟩ := Machine.Runs.split run
  obtain ⟨hGone, hPause, hEarlier⟩ := drop_effect hAfter hDrop
  have hPaced : PacedReceives config key (earlier ++ [.event e] ++ later) := hHolds.paced hCalm
  have hUnpaused := hPaced.admitsUnpaused run
  have hBooks := pauseBooks_holds hAfter (hUnpaused.of_prefix (List.prefix_append _ _))
  have hRested := ((recvLedger_holds hAfter key).abandoned hGone).2
  obtain ⟨-, -, hCompleted, hQuiet⟩ := gone_run hAfter hRest hGone
  have hDecided := paused_eq run hCalm
  have hPauses := hBooks.pauses
  rw [← hRested.answered, hEarlier] at hPauses
  constructor
  · intro hNot
    rw [← Bool.not_eq_true, ← hPause]
    intro hPend
    have hLength := congrArg List.length hPauses
    rw [RecvState.pending, if_pos hPend, List.length_append, List.length_singleton,
      ← hNot.quiet, ← hNot.completed, hCompleted] at hLength
    omega
  · intro hFree
    rw [← hPause] at hFree
    have hPaused := hQuiet hFree
    have hPending : (after.state.stream key).recvState.pending = [] := by
      have hFlag : (after.state.stream key).recvState.pendOutstanding = false := hFree
      rw [RecvState.pending, hFlag]
      rfl
    rw [hPending, List.append_nil] at hPauses
    constructor
    · rw [hCompleted, hPauses, ← hDecided, hPaused, hEarlier]
    · rw [← hDecided, hPaused, hEarlier]

/-- The half is dropped while the second of two pauses is outstanding. -/
theorem dropped_stranded :
    ∃ (trace : List AdapterLabel) (reached : AdapterConfig), Runs narrowConfig trace reached ∧
      HoldsPaused (.accepted 0) trace ∧ Uninterrupted (.accepted 0) trace ∧
      pendReturns (.accepted 0) trace = [2, 3] ∧
      completed (streamLog (.accepted 0) trace) = [2] ∧
      ∃ earlier e later, trace = earlier ++ .event e :: later ∧
        e.op = .stream (.accepted 0) .dropRecvHalf ∧
        ¬NotStranded (.accepted 0) earlier trace reached := by
  have hRun : ((adapter narrowConfig).run (Machine.initial {}) (serveAll
      [(.stream (.accepted 0) (.receive [[7], [], [8]] false), 9),
        (.recv (.accepted 0) .pollData, 6),
        (.stream (.accepted 0) (.receive [[1, 2, 3]] false), 9),
        (.recv (.accepted 0) .drop, 2)])).isSome := by
    decide
  refine ⟨_, _, Machine.runs_get hRun, of_decide_eq_true rfl, of_decide_eq_true rfl, rfl, rfl,
    (((adapter narrowConfig).run _ _).get hRun).1.take 28, _, _, rfl, rfl, fun hNot => ?_⟩
  have hLength := congrArg List.length hNot.completed
  cases hLength

/-- The reader answers the pause, then the half is dropped. -/
theorem not_stranded_answered :
    ∃ (trace : List AdapterLabel) (reached : AdapterConfig), Runs narrowConfig trace reached ∧
      pendReturns (.accepted 0) trace = [2] ∧
      ∃ earlier, NotStranded (.accepted 0) earlier trace reached := by
  have hRun : ((adapter narrowConfig).run (Machine.initial {}) (serveAll
      [(.stream (.accepted 0) (.receive [[7], [], [8]] false), 9),
        (.recv (.accepted 0) .pollData, 6), (.recv (.accepted 0) .drop, 2),
        (.stream (.accepted 0) (.receive [[1, 2, 3]] false), 11)])).isSome := by
    decide
  have hSplit : ∃ earlier e later, (((adapter narrowConfig).run _ _).get hRun).1 =
      earlier ++ .event e :: later ∧ e.op = .stream (.accepted 0) .dropRecvHalf ∧
      e.before.paused (.accepted 0) = false :=
    ⟨(((adapter narrowConfig).run _ _).get hRun).1.take 18, _, _, rfl, rfl, rfl⟩
  obtain ⟨earlier, e, later, hTrace, hDrop, hFree⟩ := hSplit
  have hRuns := Machine.runs_get hRun
  exact ⟨_, _, hRuns, rfl, earlier, (not_stranded_iff hRuns (of_decide_eq_true rfl)
    (of_decide_eq_true rfl) hTrace hDrop).2 hFree⟩

end Runs

end MsQuicH3
