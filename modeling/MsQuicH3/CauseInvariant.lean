import Mathlib.Data.List.TakeWhile
import MsQuicH3.Effect

/-! The shared connection slot over whole runs: what it holds is what was recorded
before the first delivery, and a delivery freezes it. -/
namespace MsQuicH3

open Concurrency

/-- The connection cause a call returns to h3, if its reason is one. -/
def Result.connCause : Result → Option ConnectionTerminal
  | .pollSend (.ready (.error (.winner (.connection cause)))) => some cause
  | .sendData (.error (.winner (.connection cause))) => some cause
  | .pollData (.ready (.terminal (.connection cause))) => some cause
  | .pollAccept (.ready (.error (.recorded cause))) => some cause
  | .pollOpen (.ready (.error (.recorded cause))) => some cause
  | _ => none

/-- The cause an operation takes from the slot for a delivery. -/
def Op.reports : (op : Op) → op.Reply → Option ConnectionTerminal
  | .conn .observeConnWinner, cause => cause
  | .conn .commitConn, cause => cause
  | .conn .failFastTerminal, cause => cause
  | _, _ => none

/-- The instant of a delivery: a call takes the cause from the slot for its return. -/
def delivery : AdapterLabel → Option ConnectionTerminal
  | .event e => e.op.reports e.reply
  | _ => none

/-- The cause a step offers to the slot. -/
def recorded : AdapterLabel → Option ConnectionTerminal
  | .event ⟨_, .conn (.recordConnTerminal candidate), _, _, _⟩ => some candidate
  | _ => none

/-- The causes recorded before the first delivery, in order. -/
def recordedBeforeDelivery (trace : List AdapterLabel) : List ConnectionTerminal :=
  (trace.takeWhile fun label => (delivery label).isNone).filterMap recorded

def hasDelivery (trace : List AdapterLabel) : Bool := trace.any fun label => (delivery label).isSome

theorem hasDelivery_snoc (trace : List AdapterLabel) (label : AdapterLabel) :
    hasDelivery (trace ++ [label]) = (hasDelivery trace || (delivery label).isSome) := by
  simp [hasDelivery]

theorem recordedBeforeDelivery_snoc (trace : List AdapterLabel) (label : AdapterLabel) :
    recordedBeforeDelivery (trace ++ [label]) =
      if hasDelivery trace then recordedBeforeDelivery trace
      else recordedBeforeDelivery trace ++ (recorded label).toList := by
  unfold recordedBeforeDelivery
  split
  next h =>
    congr 1
    rw [List.takeWhile_append, if_neg]
    intro hLength
    have hAll := List.takeWhile_eq_self_iff.1 ((List.takeWhile_prefix _).eq_of_length hLength)
    obtain ⟨earlier, hMem, hSome⟩ := List.any_eq_true.1 h
    have hNone := hAll earlier hMem
    rw [Option.isNone_iff_eq_none] at hNone
    simp [hNone] at hSome
  next h =>
    have hAll : ∀ earlier ∈ trace, (delivery earlier).isNone = true := by
      intro earlier hMem
      rw [Option.isNone_iff_eq_none, ← Option.not_isSome_iff_eq_none]
      exact fun hSome => h (List.any_eq_true.2 ⟨earlier, hMem, hSome⟩)
    rw [List.takeWhile_append_of_pos hAll, List.takeWhile_eq_self_iff.2 hAll, List.filterMap_append]
    congr 1
    by_cases hLabel : (delivery label).isNone
    · cases h : recorded label <;> simp [List.takeWhile, hLabel, h]
    · have hRecorded : recorded label = none := by
        cases hRecorded : recorded label with
        | none => rfl
        | some candidate =>
            unfold recorded at hRecorded
            split at hRecorded
            · simp [delivery, Op.reports] at hLabel
            · cases hRecorded
      simp [List.takeWhile, hLabel, hRecorded]

/-- The slot is frozen at this cause. -/
def FrozenAt (slot : ConnTerminalState) (cause : ConnectionTerminal) : Prop :=
  slot.observed = true ∧ slot.terminal = some cause

theorem FrozenAt.le {slot later : ConnTerminalState} {cause : ConnectionTerminal}
    (h : FrozenAt slot cause) (hLe : slot.Le later) : FrozenAt later cause := by
  rw [hLe.frozen h.1]
  exact h

/-- What must hold before an operation that spreads a connection cause. -/
def Op.Justified (s : State) : Op → Prop
  | .conn .observeConnWinner => s.conn.terminal.isSome
  | .stream _ (.sendReceive (.connection _)) => s.conn.terminal.isSome
  | .stream _ (.publishSend (.connection _)) => s.conn.terminal.isSome
  | .stream _ (.storeRecvTerminal (.connection cause)) => FrozenAt s.conn cause
  | _ => True

/-- Where a connection cause can be found, and what that says of the slot. -/
structure CauseInv (w : AdapterWorld) : Prop where
  slot : w.state.conn.terminal = settled (recordedBeforeDelivery w.trace)
  frozen : w.state.conn.observed = hasDelivery w.trace
  occupied : w.state.conn.observed = true → w.state.conn.terminal.isSome
  queued : ∀ key fallback, .connection fallback ∈ (w.state.stream key).receive.queue →
    w.state.conn.terminal.isSome
  published : ∀ key fallback, (w.state.stream key).sendTerminal = some (.connection fallback) →
    w.state.conn.terminal.isSome
  cached : ∀ key cause, (w.state.stream key).recvTerminal = some (.connection cause) →
    FrozenAt w.state.conn cause
  delivered : ∀ call cause, .finished call ∈ w.trace → call.result.connCause = some cause →
    FrozenAt w.state.conn cause

section Step

variable (config : H3Config) (choice : Choice) (request : Request)

theorem recorded_event {op : Op} {s : State} (candidate : ConnectionTerminal)
    (h : recorded (.event ((adapter config).event choice request op s)) = some candidate) :
    op = .conn (.recordConnTerminal candidate) := by
  unfold recorded at h
  split at h
  · simp_all [Machine.event]
  · cases h

/-- An operation that offers no cause leaves the slot's value alone. -/
theorem Op.slot_terminal {op : Op} (s : State) (slot : ConnTerminalState)
    (h : recorded (.event ((adapter config).event choice request op s)) = none) :
    (op.slot slot).terminal = slot.terminal := by
  cases op with
  | stream key op => rfl
  | conn op =>
      cases op with
      | recordConnTerminal candidate => simp [recorded, Machine.event] at h
      | commitConn => simp only [Op.slot, ConnOp.slot, commitConn]; split <;> rfl
      | failFastTerminal => simp only [Op.slot, ConnOp.slot, failFastTerminal]; split <;> rfl
      | _ => rfl

/-- A slot is frozen by deliveries alone. -/
theorem Op.slot_observed {op : Op} {s : State} (h : op.Justified s) :
    (op.slot s.conn).observed =
      (s.conn.observed || (delivery (.event ((adapter config).event choice request op s))).isSome) := by
  cases op with
  | stream key op => simp [Op.slot, delivery, Op.reports, Machine.event]
  | conn op =>
      cases op with
      | recordConnTerminal candidate =>
          have hEq : (s.conn.record candidate).observed = s.conn.observed := by
            unfold ConnTerminalState.record
            repeat' split
            all_goals rfl
          simpa [Op.slot, ConnOp.slot, delivery, Op.reports, Machine.event] using hEq
      | observeConnWinner =>
          simp only [Op.Justified] at h
          simp [Op.slot, ConnOp.slot, ConnTerminalState.observe, delivery, Op.reports, Machine.event, Op.perform,
            ConnOp.perform, h]
      | commitConn =>
          by_cases hSome : s.conn.terminal.isSome <;>
          simp [Op.slot, ConnOp.slot, commitConn, ConnTerminalState.observe, delivery, Op.reports, Machine.event,
            Op.perform, ConnOp.perform, ConnTerminalState.terminalIsSome, hSome]
      | failFastTerminal =>
          by_cases hInternal : s.conn.hasInternal
          · have hSome : s.conn.terminal.isSome := by
              unfold ConnTerminalState.hasInternal at hInternal
              split at hInternal <;> simp_all
            simp [Op.slot, ConnOp.slot, failFastTerminal, ConnTerminalState.observe, delivery, Op.reports,
              Machine.event, Op.perform, ConnOp.perform, hInternal, hSome]
          · simp [Op.slot, ConnOp.slot, failFastTerminal, delivery, Op.reports, Machine.event, Op.perform,
              ConnOp.perform, hInternal]
      | _ => simp [Op.slot, ConnOp.slot, delivery, Op.reports, Machine.event]

/-- A delivery takes the cause the slot holds and freezes the slot. -/
theorem delivery_event (op : Op) {s : State} {cause : ConnectionTerminal}
    (h : delivery (.event ((adapter config).event choice request op s)) = some cause) :
    s.conn.terminal = some cause ∧ FrozenAt (op.slot s.conn) cause := by
  cases op with
  | stream key op => cases h
  | conn op =>
      cases op with
      | observeConnWinner => exact ⟨h, rfl, h⟩
      | commitConn =>
          change (commitConn s.conn).1 = some cause at h
          change _ ∧ FrozenAt (commitConn s.conn).2 cause
          unfold commitConn at h ⊢
          split at h
          next hHolds => exact ⟨h, by simpa [hHolds, FrozenAt, ConnTerminalState.observe] using h⟩
          next => cases h
      | failFastTerminal =>
          change (failFastTerminal s.conn).1 = some cause at h
          change _ ∧ FrozenAt (failFastTerminal s.conn).2 cause
          unfold failFastTerminal at h ⊢
          split at h
          next hHolds => exact ⟨h, by simpa [hHolds, FrozenAt, ConnTerminalState.observe] using h⟩
          next => cases h
      | _ => cases h

end Step

/-- A connection cause enters the receive queue by its publication only. -/
theorem StreamOp.queued_connection (budget : RecvBudget) (choice : Choice) (op : StreamOp)
    (s : StreamState) (fallback : ConnectionTerminal)
    (h : .connection fallback ∈ (op.perform budget choice s).2.receive.queue) :
    .connection fallback ∈ s.receive.queue ∨ op = .sendReceive (.connection fallback) := by
  rw [StreamOp.perform_receive] at h
  cases op with
  | admitIndication bytes =>
      simp only [publishData] at h
      split at h
      · exact .inl h
      · rw [Channel.unboundedSend_queue] at h
        split at h <;> simp_all
  | sendReceive event =>
      rw [Channel.unboundedSend_queue] at h
      split at h <;> simp_all
      exact h.imp_right Eq.symm
  | pollReceive =>
      rw [Channel.pollNext_queue] at h
      exact .inl (List.mem_of_mem_tail h)
  | dropReceive => exact .inl h
  | endReceive => exact .inl h
  | dropRecvHalf => simp at h
  | _ => exact .inl h

/-- A connection cause enters the send slot by its publication only. -/
theorem publishSend_connection {slot : Option SendTerminal} {candidate : SendTerminal}
    {fallback : ConnectionTerminal}
    (h : (publishSend slot candidate).2 = some (.connection fallback)) :
    slot = some (.connection fallback) ∨ candidate = .connection fallback := by
  unfold publishSend at h
  repeat' split at h
  all_goals simp_all

namespace CauseInv

variable {config : H3Config} {w : AdapterWorld}

theorem conn_le (config : H3Config) (w : AdapterWorld) (choice : Choice) (request : Request) (op : Op) :
    w.state.conn.Le ((adapter config).advance choice request op w).state.conn := by
  rw [Machine.advance_state, adapter_perform, Op.perform_conn]
  exact op.slot_le _

/-- A justified operation keeps the invariant. -/
theorem advance (h : CauseInv w) (choice : Choice) (request : Request) {op : Op}
    (hOp : op.Justified w.state) :
    CauseInv ((adapter config).advance choice request op w) := by
  have hLe := conn_le config w choice request op
  have hConn : ((adapter config).advance choice request op w).state.conn = op.slot w.state.conn :=
    op.perform_conn config choice w.state
  have hObserved := Op.slot_observed config choice request hOp
  refine ⟨?_, ?_, ?_, ?_, ?_, ?_, ?_⟩
  · rw [hConn, Machine.advance_trace, recordedBeforeDelivery_snoc, ← h.frozen]
    split
    next hFrozen =>
      rw [← hConn, hLe.frozen hFrozen]
      exact h.slot
    next hFree =>
      cases hRecorded : recorded (.event ((adapter config).event choice request op w.state)) with
      | none => simpa [Op.slot_terminal config choice request w.state _ hRecorded] using h.slot
      | some candidate =>
          cases recorded_event config choice request candidate hRecorded
          rw [Option.toList_some, settled_append, ← h.slot]
          cases hSlot : w.state.conn with
          | mk terminal observed =>
              simp only [hSlot, Bool.not_eq_true] at hFree
              subst observed
              rfl
  · rw [hConn, hObserved, h.frozen, Machine.advance_trace, hasDelivery_snoc]
  · intro hFrozen
    rw [hConn, hObserved, Bool.or_eq_true] at hFrozen
    rcases hFrozen with hFrozen | hDelivery
    · exact hLe.occupied (h.occupied hFrozen)
    · obtain ⟨cause, hCause⟩ := Option.isSome_iff_exists.1 hDelivery
      refine hLe.occupied ?_
      rw [(delivery_event config choice request op hCause).1]
      rfl
  · intro key fallback hMem
    rw [Machine.advance_state, adapter_perform] at hMem
    cases op with
    | conn op => exact hLe.occupied (h.queued key fallback (by simpa using hMem))
    | stream other op =>
        by_cases hKey : key = other
        · subst key
          rw [Op.perform_stream_self] at hMem
          rcases op.queued_connection _ _ _ _ hMem with hOld | rfl
          · exact hLe.occupied (h.queued _ _ hOld)
          · exact hLe.occupied hOp
        · rw [Op.perform_stream_of_ne _ _ _ _ hKey] at hMem
          exact hLe.occupied (h.queued _ _ hMem)
  · intro key fallback hSlot
    rw [Machine.advance_state, adapter_perform] at hSlot
    cases op with
    | conn op => exact hLe.occupied (h.published key fallback (by simpa using hSlot))
    | stream other op =>
        by_cases hKey : key = other
        · subst key
          rw [Op.perform_stream_self, StreamOp.perform_sendTerminal] at hSlot
          split at hSlot
          · rcases publishSend_connection hSlot with hOld | rfl
            · exact hLe.occupied (h.published _ _ hOld)
            · exact hLe.occupied hOp
          · exact hLe.occupied (h.published _ _ hSlot)
        · rw [Op.perform_stream_of_ne _ _ _ _ hKey] at hSlot
          exact hLe.occupied (h.published _ _ hSlot)
  · intro key cause hCached
    rw [Machine.advance_state, adapter_perform] at hCached
    cases op with
    | conn op => exact (h.cached key cause (by simpa using hCached)).le hLe
    | stream other op =>
        by_cases hKey : key = other
        · subst key
          rw [Op.perform_stream_self, StreamOp.perform_recvTerminal] at hCached
          split at hCached
          · cases hCached
            exact FrozenAt.le hOp hLe
          · exact (h.cached _ _ hCached).le hLe
        · rw [Op.perform_stream_of_ne _ _ _ _ hKey] at hCached
          exact (h.cached _ _ hCached).le hLe
  · intro call cause hMem hCause
    have hOld : .finished call ∈ w.trace := by simpa using hMem
    exact (h.delivered call cause hOld hCause).le hLe

/-- So does the start of a request. -/
theorem begun (h : CauseInv w) {request : Request} {s : State}
    (hDeliver : deliver request w.state = some s) :
    CauseInv (w.after (.begun request) s) := by
  have hConn : s.conn = w.state.conn := deliver_conn hDeliver
  have hBefore : recordedBeforeDelivery (w.trace ++ [.begun request]) =
      recordedBeforeDelivery w.trace := by
    rw [recordedBeforeDelivery_snoc]
    split
    · rfl
    · simp [recorded]
  have hDelivered : hasDelivery (w.trace ++ [.begun request]) =
      hasDelivery w.trace := by
    simp [hasDelivery_snoc, delivery]
  constructor
  · simpa [hConn, hBefore] using h.slot
  · simpa [hConn, hDelivered] using h.frozen
  · simpa [hConn] using h.occupied
  · intro key fallback hMem
    rw [World.after_state] at hMem ⊢
    rw [deliver_stream StreamState.receive (fun _ _ => rfl) hDeliver] at hMem
    rw [hConn]
    exact h.queued key fallback hMem
  · intro key fallback hSlot
    rw [World.after_state] at hSlot ⊢
    rw [deliver_stream StreamState.sendTerminal (fun _ _ => rfl) hDeliver] at hSlot
    rw [hConn]
    exact h.published key fallback hSlot
  · intro key cause hCached
    rw [World.after_state] at hCached ⊢
    rw [deliver_stream StreamState.recvTerminal (fun _ _ => rfl) hDeliver] at hCached
    rw [hConn]
    exact h.cached key cause hCached
  · intro call cause hMem hCause
    rw [World.after_state, hConn]
    exact h.delivered call cause (by simpa using hMem) hCause

/-- So does a return, if the cause it delivers is the frozen one. -/
theorem finished (h : CauseInv w) {call : AdapterCall}
    (hCall : ∀ cause, call.result.connCause = some cause → FrozenAt w.state.conn cause) :
    CauseInv (w.after (.finished call) w.state) := by
  have hBefore : recordedBeforeDelivery (w.trace ++ [.finished call]) =
      recordedBeforeDelivery w.trace := by
    rw [recordedBeforeDelivery_snoc]
    split
    · rfl
    · simp [recorded]
  have hDelivered : hasDelivery (w.trace ++ [.finished call]) =
      hasDelivery w.trace := by
    simp [hasDelivery_snoc, delivery]
  refine ⟨?_, ?_, h.occupied, h.queued, h.published, h.cached, ?_⟩
  · simpa [hBefore] using h.slot
  · simpa [hDelivered] using h.frozen
  · intro other cause hMem hCause
    rw [World.after_trace, List.mem_append, List.mem_singleton] at hMem
    rcases hMem with hMem | hEq
    · exact h.delivered other cause hMem hCause
    · cases hEq
      exact hCall cause hCause

end CauseInv

end MsQuicH3
