import MsQuicH3.StreamLog

/-! The books of the receive path of one stream. A chunk is admitted by the
callback, taken from the channel by the reader, and accounted as drained; an
indication that exhausts the budget pauses the stream until a drain re-arms it. -/
namespace MsQuicH3

open Concurrency

/-- A data event that was published. -/
def StreamStep.admits : StreamStep → Option (List UInt8)
  | ⟨.admitIndication _, .publishFailed⟩ => none
  | ⟨.admitIndication bytes, _⟩ => if bytes.isEmpty then none else some bytes
  | _ => none

/-- The full length of an indication that exhausted the budget. -/
def StreamStep.pauses : StreamStep → Option Nat
  | ⟨.admitIndication bytes, .pend⟩ => some bytes.length
  | _ => none

def StreamStep.takes : StreamStep → Option (List UInt8)
  | ⟨.pollReceive, .ready (some (.data bytes))⟩ => some bytes
  | _ => none

def StreamStep.drains : StreamStep → Option Nat
  | ⟨.onDrained len, _⟩ => some len
  | _ => none

def StreamStep.rearms : StreamStep → Option Nat
  | ⟨.onDrained _, some len⟩ => some len
  | _ => none

def StreamStep.completes : StreamStep → Option Nat
  | ⟨.submitReceiveComplete len, _⟩ => some len
  | _ => none

section Books

variable (log : List StreamStep)

def admitted : List (List UInt8) := log.filterMap StreamStep.admits

def paused : List Nat := log.filterMap StreamStep.pauses

def dequeued : List (List UInt8) := log.filterMap StreamStep.takes

def drained : List Nat := log.filterMap StreamStep.drains

def rearmed : List Nat := log.filterMap StreamStep.rearms

def completed : List Nat := log.filterMap StreamStep.completes

/-- The admitted data events that were not yet accounted as drained. -/
def undrained : List (List UInt8) := (admitted log).drop (drained log).length

end Books

def ReceiveEvent.chunk : ReceiveEvent → Option (List UInt8)
  | .data bytes => some bytes
  | _ => none

/-- The data still in a channel. -/
def queued (channel : Channel ReceiveEvent) : List (List UInt8) :=
  channel.queue.filterMap ReceiveEvent.chunk

/-- The pause that waits for its completion. -/
def RecvState.pending (st : RecvState) : List Nat :=
  if st.pendOutstanding then [st.pendingIndicationLen] else []

/-- One more step of a log, as far as a ledger counts it. -/
theorem filterMap_snoc {α β : Type} (f : α → Option β) (log : List α) (step : α) :
    (log ++ [step]).filterMap f = log.filterMap f ++ (f step).toList := by
  rw [List.filterMap_append, List.filterMap_cons]
  cases f step <;> rfl

/-- An admission either changes nothing, or charges the budget and publishes. -/
theorem admit_cases (budget : RecvBudget) (choice : Choice) (bytes : List UInt8)
    (s : StreamState) :
    (bytes.isEmpty = false ∧ (s.receive.sender && s.receive.receiver) = false ∧
      (StreamOp.admitIndication bytes).perform budget choice s = (Admit.publishFailed, s)) ∨
    ((bytes.isEmpty = false → (s.receive.sender && s.receive.receiver) = true) ∧
      (StreamOp.admitIndication bytes).perform budget choice s =
        (if (budget.charge s.recvState bytes.length (!bytes.isEmpty)).1 then Admit.pend
          else Admit.accepted,
        { s with
          receive := { s.receive with
            queue := s.receive.queue ++ if bytes.isEmpty then [] else [.data bytes] }
          recvState := (budget.charge s.recvState bytes.length (!bytes.isEmpty)).2 })) := by
  cases hEmpty : bytes.isEmpty with
  | true =>
      refine .inr ⟨nofun, ?_⟩
      simp [StreamOp.perform, publishData, RecvBudget.admitIndication, hEmpty]
  | false =>
      cases hOpen : s.receive.sender && s.receive.receiver with
      | false =>
          refine .inl ⟨rfl, rfl, ?_⟩
          simp [StreamOp.perform, publishData, RecvBudget.admitIndication, hEmpty,
            Channel.unboundedSend, hOpen]
      | true =>
          refine .inr ⟨fun _ => rfl, ?_⟩
          simp [StreamOp.perform, publishData, RecvBudget.admitIndication, hEmpty,
            Channel.unboundedSend, hOpen]

/-- A published admission is one of its bytes, if it has any. -/
theorem admits_published (bytes : List UInt8) (pend : Bool) :
    StreamStep.admits ⟨.admitIndication bytes, if pend then Admit.pend else Admit.accepted⟩ =
      if bytes.isEmpty then none else some bytes := by
  cases pend <;> rfl

/-- What the reader was given and what it accounted, and where the rest is: with the
callback's accounting, in the channel, or in the reader's hand. -/
structure RecvBooks (budget : RecvBudget) (s : StreamState) (log : List StreamStep) : Prop where
  delivered : s.receive.receiver = true → dequeued log ++ queued s.receive = admitted log
  taken : dequeued log ++ queued s.receive <+: admitted log
  bytes : s.recvState.buffered + (drained log).sum = ((admitted log).map List.length).sum
  units : s.recvState.units + (drained log).length = (admitted log).length
  gated : budget.Gated s.recvState
  order : drained log <+: (dequeued log).map List.length

namespace RecvBooks

variable {budget : RecvBudget} {s s' : StreamState} {log : List StreamStep} {step : StreamStep}

theorem initial (config : H3Config) : RecvBooks config.recvBudget {} [] where
  delivered _ := rfl
  taken := List.prefix_rfl
  bytes := rfl
  units := rfl
  gated := gated_initial config
  order := List.prefix_rfl

/-- A step that moves no data and leaves the accounting alone. -/
theorem silent (h : RecvBooks budget s log) (hAdmits : StreamStep.admits step = none)
    (hTakes : StreamStep.takes step = none) (hDrains : StreamStep.drains step = none)
    (hReceiver : s'.receive.receiver = true → s.receive.receiver = true)
    (hQueue : queued s'.receive = queued s.receive)
    (hState : s'.recvState = s.recvState) : RecvBooks budget s' (log ++ [step]) := by
  have hAdmitted : admitted (log ++ [step]) = admitted log := by
    rw [admitted, filterMap_snoc, hAdmits]
    exact List.append_nil _
  have hDequeued : dequeued (log ++ [step]) = dequeued log := by
    rw [dequeued, filterMap_snoc, hTakes]
    exact List.append_nil _
  have hDrained : drained (log ++ [step]) = drained log := by
    rw [drained, filterMap_snoc, hDrains]
    exact List.append_nil _
  constructor
  · intro hAlive
    rw [hAdmitted, hDequeued, hQueue]
    exact h.delivered (hReceiver hAlive)
  · rw [hAdmitted, hDequeued, hQueue]
    exact h.taken
  · rw [hAdmitted, hDrained, hState]
    exact h.bytes
  · rw [hAdmitted, hDrained, hState]
    exact h.units
  · rw [hState]
    exact h.gated
  · rw [hDequeued, hDrained]
    exact h.order

theorem admission (h : RecvBooks budget s log) (choice : Choice) (bytes : List UInt8) :
    RecvBooks budget ((StreamOp.admitIndication bytes).perform budget choice s).2
      (log ++ [⟨.admitIndication bytes,
        ((StreamOp.admitIndication bytes).perform budget choice s).1⟩]) := by
  rcases admit_cases budget choice bytes s with ⟨-, -, hPerform⟩ | ⟨hOpen, hPerform⟩
  · rw [hPerform]
    exact h.silent rfl rfl rfl id rfl rfl
  rw [hPerform]
  generalize hReply : (if (budget.charge s.recvState bytes.length (!bytes.isEmpty)).1 then
    Admit.pend else Admit.accepted) = reply
  have hAdmits : StreamStep.admits ⟨.admitIndication bytes, reply⟩ =
      if bytes.isEmpty then none else some bytes := by
    split at hReply <;> subst hReply <;> rfl
  have hAdmitted : admitted (log ++ [⟨.admitIndication bytes, reply⟩]) =
      admitted log ++ if bytes.isEmpty then [] else [bytes] := by
    rw [admitted, filterMap_snoc, hAdmits]
    split <;> rfl
  have hDequeued : dequeued (log ++ [⟨.admitIndication bytes, reply⟩]) = dequeued log := by
    rw [dequeued, filterMap_snoc]
    exact List.append_nil _
  have hDrained : drained (log ++ [⟨.admitIndication bytes, reply⟩]) = drained log := by
    rw [drained, filterMap_snoc]
    exact List.append_nil _
  have hQueue : queued { s.receive with
      queue := s.receive.queue ++ if bytes.isEmpty then [] else [.data bytes] } =
      queued s.receive ++ if bytes.isEmpty then [] else [bytes] := by
    rw [queued, List.filterMap_append]
    split <;> rfl
  have hBytes := h.bytes
  have hUnits := h.units
  constructor
  · intro hAlive
    rw [hAdmitted, hDequeued, hQueue, ← List.append_assoc, h.delivered hAlive]
  · rw [hAdmitted, hDequeued, hQueue, ← List.append_assoc]
    cases hEmpty : bytes.isEmpty with
    | true =>
        simp only [if_true, List.append_nil]
        exact h.taken
    | false =>
        have hAlive : s.receive.receiver = true := (Bool.and_eq_true_iff.1 (hOpen hEmpty)).2
        rw [h.delivered hAlive]
  · rw [hAdmitted, hDrained, RecvBudget.charge_buffered]
    cases hEmpty : bytes.isEmpty with
    | true =>
        rw [List.isEmpty_iff] at hEmpty
        simp only [hEmpty, if_true, List.append_nil, List.length_nil, Nat.add_zero]
        exact hBytes
    | false =>
        simp only [Bool.false_eq_true, if_false, List.map_append, List.sum_append,
          List.map_cons, List.map_nil, List.sum_cons, List.sum_nil]
        omega
  · rw [hAdmitted, hDrained, RecvBudget.charge_units]
    cases hEmpty : bytes.isEmpty with
    | true =>
        simp only [if_true, List.append_nil, Bool.not_true, Bool.toNat_false, Nat.add_zero]
        exact hUnits
    | false =>
        simp only [Bool.false_eq_true, if_false, List.length_append, List.length_cons,
          List.length_nil, Bool.not_false, Bool.toNat_true]
        omega
  · exact h.gated.charge _ _
  · rw [hDequeued, hDrained]
    exact h.order

/-- A poll takes the head of the channel. -/
theorem poll (h : RecvBooks budget s log) (choice : Choice) :
    RecvBooks budget (StreamOp.pollReceive.perform budget choice s).2
      (log ++ [⟨.pollReceive, (StreamOp.pollReceive.perform budget choice s).1⟩]) := by
  have hQueue : queued s.receive.pollNext.2 = s.receive.queue.tail.filterMap ReceiveEvent.chunk := by
    rw [queued, Channel.pollNext_queue]
  cases hTakes : StreamStep.takes ⟨.pollReceive, s.receive.pollNext.1⟩ with
  | none =>
      refine h.silent rfl hTakes rfl ?_ ?_ rfl
      · intro hAlive
        rw [← Channel.pollNext_receiver]
        exact hAlive
      · change queued s.receive.pollNext.2 = _
        rw [hQueue, queued]
        cases hHead : s.receive.queue with
        | nil => rfl
        | cons event rest =>
            cases event with
            | data bytes => simp [Channel.pollNext, hHead, StreamStep.takes] at hTakes
            | _ => rfl
  | some bytes =>
      have hHead : s.receive.queue.head? = some (.data bytes) := by
        unfold StreamStep.takes at hTakes
        split at hTakes
        next taken hEq =>
          cases hTakes
          simp only [Sigma.mk.injEq, heq_eq_eq, true_and] at hEq
          exact Channel.pollNext_eq_some.1 hEq
        · cases hTakes
      have hMoved : queued s.receive = bytes :: queued s.receive.pollNext.2 := by
        rw [hQueue, queued]
        cases hList : s.receive.queue with
        | nil => simp [hList] at hHead
        | cons event rest =>
            simp only [hList, List.head?_cons, Option.some.injEq] at hHead
            rw [hHead]
            rfl
      have hDequeued : dequeued (log ++ [⟨.pollReceive, s.receive.pollNext.1⟩]) =
          dequeued log ++ [bytes] := by
        rw [dequeued, filterMap_snoc, hTakes]
        rfl
      have hAdmitted : admitted (log ++ [⟨.pollReceive, s.receive.pollNext.1⟩]) = admitted log := by
        rw [admitted, filterMap_snoc]
        exact List.append_nil _
      have hDrained : drained (log ++ [⟨.pollReceive, s.receive.pollNext.1⟩]) = drained log := by
        rw [drained, filterMap_snoc]
        exact List.append_nil _
      have hShift : (dequeued log ++ [bytes]) ++ queued s.receive.pollNext.2 =
          dequeued log ++ queued s.receive := by
        rw [hMoved, List.append_assoc]
        rfl
      constructor
      · intro hAlive
        have hAlive' : s.receive.receiver = true := by
          rw [← Channel.pollNext_receiver]
          exact hAlive
        exact (hDequeued ▸ hAdmitted ▸ hShift.trans (h.delivered hAlive'))
      · exact hDequeued ▸ hAdmitted ▸ hShift ▸ h.taken
      · exact hAdmitted ▸ hDrained ▸ h.bytes
      · exact hAdmitted ▸ hDrained ▸ h.units
      · exact h.gated
      · have hOrder := h.order.trans (List.prefix_append _ [bytes.length])
        exact hDequeued ▸ hDrained ▸ (by simpa using hOrder)

/-- The length of the next chunk to account fits what is buffered. -/
theorem fits (h : RecvBooks budget s log) {len : Nat}
    (hNext : drained log ++ [len] <+: (dequeued log).map List.length) :
    len ≤ s.recvState.buffered ∧ 1 ≤ s.recvState.units := by
  have hTaken : (dequeued log).map List.length <+: (admitted log).map List.length :=
    ((List.prefix_append _ _).trans h.taken).map _
  obtain ⟨rest, hRest⟩ := hNext.trans hTaken
  have hSum := congrArg List.sum hRest
  have hLength := congrArg List.length hRest
  simp only [List.sum_append, List.sum_cons, List.sum_nil] at hSum
  simp only [List.length_append, List.length_cons, List.length_nil, List.length_map] at hLength
  have hBytes := h.bytes
  have hUnits := h.units
  omega

theorem drain (h : RecvBooks budget s log) (choice : Choice) {len : Nat}
    (hNext : drained log ++ [len] <+: (dequeued log).map List.length) :
    RecvBooks budget ((StreamOp.onDrained len).perform budget choice s).2
      (log ++ [⟨.onDrained len, ((StreamOp.onDrained len).perform budget choice s).1⟩]) := by
  obtain ⟨hLen, hUnit⟩ := h.fits hNext
  generalize hReply : ((StreamOp.onDrained len).perform budget choice s).1 = reply
  have hDrained : drained (log ++ [⟨.onDrained len, reply⟩]) = drained log ++ [len] := by
    rw [drained, filterMap_snoc]
    rfl
  have hAdmitted : admitted (log ++ [⟨.onDrained len, reply⟩]) = admitted log := by
    rw [admitted, filterMap_snoc]
    exact List.append_nil _
  have hDequeued : dequeued (log ++ [⟨.onDrained len, reply⟩]) = dequeued log := by
    rw [dequeued, filterMap_snoc]
    exact List.append_nil _
  have hBytes := h.bytes
  have hUnits := h.units
  constructor
  · rw [hAdmitted, hDequeued]
    exact h.delivered
  · rw [hAdmitted, hDequeued]
    exact h.taken
  · rw [hAdmitted, hDrained, StreamOp.perform_recvState]
    simp only [RecvBudget.onDrained_buffered, List.sum_append, List.sum_cons, List.sum_nil]
    omega
  · rw [hAdmitted, hDrained, StreamOp.perform_recvState]
    simp only [RecvBudget.onDrained_units, List.length_append, List.length_cons, List.length_nil]
    omega
  · rw [StreamOp.perform_recvState]
    exact h.gated.onDrained len
  · rw [hDequeued, hDrained]
    exact hNext

/-- The books after any operation, when a drain accounts the next chunk taken. -/
theorem perform (h : RecvBooks budget s log) (choice : Choice) (op : StreamOp)
    (hPlain : ∀ bytes, op ≠ .sendReceive (.data bytes))
    (hDrain : ∀ len, op = .onDrained len →
      drained log ++ [len] <+: (dequeued log).map List.length) :
    RecvBooks budget (op.perform budget choice s).2
      (log ++ [⟨op, (op.perform budget choice s).1⟩]) := by
  have hReceive := StreamOp.perform_receive budget choice op s
  have hState := StreamOp.perform_recvState budget choice op s
  cases op with
  | admitIndication bytes => exact h.admission choice bytes
  | pollReceive => exact h.poll choice
  | onDrained len => exact h.drain choice (hDrain len rfl)
  | sendReceive event =>
      refine h.silent rfl rfl rfl ?_ ?_ hState
      · rw [hReceive, Channel.unboundedSend_receiver]
        exact id
      · rw [hReceive, queued, Channel.unboundedSend_queue, List.filterMap_append]
        have hChunk : event.chunk = none := by
          cases event with
          | data bytes => exact (hPlain bytes rfl).elim
          | _ => rfl
        split
        · rw [List.filterMap_cons, hChunk]
          exact List.append_nil _
        · exact List.append_nil _
  | dropReceive | endReceive =>
      refine h.silent rfl rfl rfl ?_ ?_ hState
      · rw [hReceive]
        exact id
      · rw [hReceive]
        rfl
  | dropRecvHalf =>
      have hTaken : dequeued (log ++ [⟨.dropRecvHalf, ()⟩]) <+: admitted log := by
        rw [dequeued, filterMap_snoc]
        exact (List.append_nil _).symm ▸ (List.prefix_append _ _).trans h.taken
      have hAdmitted : admitted (log ++ [⟨.dropRecvHalf, ()⟩]) = admitted log := by
        rw [admitted, filterMap_snoc]
        exact List.append_nil _
      have hDrained : drained (log ++ [⟨.dropRecvHalf, ()⟩]) = drained log := by
        rw [drained, filterMap_snoc]
        exact List.append_nil _
      have hDequeued : dequeued (log ++ [⟨.dropRecvHalf, ()⟩]) = dequeued log := by
        rw [dequeued, filterMap_snoc]
        exact List.append_nil _
      constructor
      · exact nofun
      · have hEmpty : queued s.receive.dropReceiver = [] := rfl
        exact hAdmitted ▸ hEmpty ▸ (List.append_nil _).symm ▸ hTaken
      · exact hAdmitted ▸ hDrained ▸ h.bytes
      · exact hAdmitted ▸ hDrained ▸ h.units
      · exact h.gated
      · exact hDequeued ▸ hDrained ▸ h.order
  | _ =>
      refine h.silent rfl rfl rfl ?_ ?_ hState
      · rw [hReceive]
        exact id
      · rw [hReceive]

end RecvBooks

end MsQuicH3
