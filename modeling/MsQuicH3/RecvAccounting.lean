import MsQuicH3.RecvPacing

/-! The receive budget is exact, and on a paced stream bounded: what it holds is what
was published to the reader and not drained, and it exceeds the byte cap by less than
one indication. -/
namespace MsQuicH3

open Concurrency

/-- An admission whose publication failed. -/
def rejects (key : StreamKey) : AdapterEvent → Bool
  | ⟨_, .stream target (.admitIndication _), .publishFailed, _, _⟩ => target = key
  | _ => false

/-- The budget of a receive path is what the reader has not accounted yet. -/
structure ExactAccounting (key : StreamKey) (s : State) (trace : List AdapterLabel) : Prop where
  buffered : (s.stream key).recvState.buffered =
    ((undrained (streamLog key trace)).map List.length).sum
  units : (s.stream key).recvState.units = (undrained (streamLog key trace)).length
  inOrder : drained (streamLog key trace) <+: (admitted (streamLog key trace)).map List.length
  fits : ∀ e, .event e ∈ trace → ∀ len, e.op = .stream key (.onDrained len) →
    len ≤ (e.before.stream key).recvState.buffered ∧ 1 ≤ (e.before.stream key).recvState.units
  undone : ∀ e, .event e ∈ trace → rejects key e = true → e.after = e.before

/-- How much a receive path holds at most. -/
structure BoundedAccounting (config : H3Config) (key : StreamKey) (s : State)
    (trace : List AdapterLabel) : Prop where
  open_or_paused : (s.stream key).recvState.pendOutstanding = true ∨
    ((s.stream key).recvState.buffered < config.maxRecvBytes ∧
      (s.stream key).recvState.units < config.maxRecvUnits)
  buffered : (s.stream key).recvState.buffered ≤
    config.maxRecvBytes - 1 + lastIndication (streamLog key trace)
  units : (s.stream key).recvState.units ≤ config.maxRecvUnits

section Exact

variable {budget : RecvBudget} {s : StreamState} {log : List StreamStep}

namespace RecvBooks

theorem inOrder (h : RecvBooks budget s log) : drained log <+: (admitted log).map List.length :=
  h.order.trans (((List.prefix_append _ _).trans h.taken).map _)

theorem buffered_eq (h : RecvBooks budget s log) :
    s.recvState.buffered = ((undrained log).map List.length).sum := by
  obtain ⟨rest, hRest⟩ := h.inOrder
  have hUndrained : (undrained log).map List.length = rest := by
    rw [undrained, List.map_drop, ← hRest, List.drop_left]
  have hSum := congrArg List.sum hRest
  rw [List.sum_append] at hSum
  have hBytes := h.bytes
  rw [hUndrained]
  omega

theorem units_eq (h : RecvBooks budget s log) : s.recvState.units = (undrained log).length := by
  have hUnits := h.units
  rw [undrained, List.length_drop]
  omega

/-- A stream that is not paused has room under both caps. -/
theorem room (h : RecvBooks budget s log) (hOpen : s.recvState.pendOutstanding = false) :
    s.recvState.buffered < budget.maxBytes ∧ s.recvState.units < budget.maxUnits := by
  have hFree : ¬budget.Exhausted s.recvState := by
    intro hExhausted
    rw [h.gated.2 hExhausted] at hOpen
    cases hOpen
  rw [RecvBudget.Exhausted, not_or] at hFree
  omega

end RecvBooks
end Exact

section Runs

variable {config : H3Config} {key : StreamKey} {trace : List AdapterLabel} {reached : AdapterConfig}

/-- Every drain of a run accounts a chunk that is still charged. -/
theorem drain_fits (run : Runs config trace reached) {e : AdapterEvent} (h : .event e ∈ trace)
    {len : Nat} (hOp : e.op = .stream key (.onDrained len)) :
    len ≤ (e.before.stream key).recvState.buffered ∧ 1 ≤ (e.before.stream key).recvState.units := by
  obtain ⟨earlier, before, after, -, hBefore, hAfter, hState, -, choice, hEvent⟩ := run.around h
  have hBooks := (recvLedger_holds hBefore key).toRecvBooks
  have hOrder := (recvLedger_holds hAfter key).order
  rw [hState] at hBooks
  obtain ⟨request, op, reply, eBefore, eAfter⟩ := e
  cases hOp
  have hStep : streamLog key (earlier ++ [.event ⟨request, .stream key (.onDrained len), reply,
      eBefore, eAfter⟩]) = streamLog key earlier ++ [⟨.onDrained len, reply⟩] := by
    rw [streamLog_snoc]
    simp [streamStep]
  rw [hStep, drained, dequeued, filterMap_snoc, filterMap_snoc] at hOrder
  have hNext : drained (streamLog key earlier) ++ [len] <+:
      (dequeued (streamLog key earlier)).map List.length := by
    simpa [StreamStep.drains, StreamStep.takes, drained, dequeued] using hOrder
  exact hBooks.fits hNext

/-- A failed publication undoes the whole admission. -/
theorem rejected_undone (run : Runs config trace reached) {e : AdapterEvent}
    (h : .event e ∈ trace) (hRejects : rejects key e = true) : e.after = e.before := by
  obtain ⟨-, -, -, -, -, -, -, -, choice, hEvent⟩ := run.around h
  unfold rejects at hRejects
  split at hRejects
  next request target bytes before after =>
    have hReply : Admit.publishFailed = ((StreamOp.admitIndication bytes).perform config.recvBudget
        choice (before.stream target)).1 := by
      injection hEvent
    have hAfter : after = before.setStream target ((StreamOp.admitIndication bytes).perform
        config.recvBudget choice (before.stream target)).2 := by
      injection hEvent
    rcases admit_cases config.recvBudget choice bytes (before.stream target) with
      ⟨-, -, hPerform⟩ | ⟨-, hPerform⟩
    · rw [hAfter, hPerform]
      simp [State.setStream]
    · rw [hPerform] at hReply
      split at hReply <;> cases hReply
  · cases hRejects

/-- In every run the receive accounting is exact; on a paced stream it is bounded. -/
theorem receive_accounting (run : Runs config trace reached) (key : StreamKey) :
    ExactAccounting key reached.state trace ∧
      (PacedReceives config key trace → BoundedAccounting config key reached.state trace) := by
  have hBooks := (recvLedger_holds run key).toRecvBooks
  refine ⟨⟨hBooks.buffered_eq, hBooks.units_eq, hBooks.inOrder,
    fun e he len hOp => drain_fits run he hOp, fun e he hRejects => rejected_undone run he hRejects⟩,
    fun hPaced => ?_⟩
  have hPauses := pauseBooks_holds run (hPaced.admitsUnpaused run)
  refine ⟨?_, hPauses.bytes, hPauses.units⟩
  cases hPend : (reached.state.stream key).recvState.pendOutstanding with
  | true => exact .inl rfl
  | false => exact .inr (hBooks.room hPend)

/-- A configuration whose receive budget one indication of two bytes exhausts. -/
def narrowConfig : H3Config where
  maxSendBytes := 1
  maxRecvBytes := 2
  maxRecvUnits := 2
  send_pos := by decide
  send_lt := by decide
  recvBytes_pos := by decide
  recvUnits_pos := by decide

/-- A chunk that paused its stream was dequeued and is not accounted yet. -/
theorem receive_accounting_dequeued :
    ∃ trace reached, Runs narrowConfig trace reached ∧
      dequeued (streamLog (.accepted 0) trace) = [[7, 8]] ∧
      undrained (streamLog (.accepted 0) trace) = [[7, 8]] ∧
      reached.state.paused (.accepted 0) = true ∧
      ExactAccounting (.accepted 0) reached.state trace ∧
      (PacedReceives narrowConfig (.accepted 0) trace →
        BoundedAccounting narrowConfig (.accepted 0) reached.state trace) := by
  have hRun : ((adapter narrowConfig).run (Machine.initial {}) (serveAll
      [(.stream (.accepted 0) (.receive [[7], [], [8]] false), 9),
        (.recv (.accepted 0) .pollData, 3)])).isSome := by
    decide
  obtain ⟨hExact, hBounded⟩ := receive_accounting (Machine.runs_get hRun) (.accepted 0)
  exact ⟨_, _, Machine.runs_get hRun, rfl, rfl, rfl, hExact, hBounded⟩

end Runs

end MsQuicH3
