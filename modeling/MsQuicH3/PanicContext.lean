import MsQuicH3.ConnCause
import MsQuicH3.RecvLedger

/-! The two kinds of callback context, what waits on each of them, and what a handler
notes of its own operations. A waiter that was resolved once stays resolved. -/
namespace MsQuicH3

open Concurrency

/-- The context of a callback: of the connection, or of one stream. -/
inductive CallbackContext where
  | connection
  | stream (key : StreamKey)
  deriving DecidableEq, Repr

/-- What recovery from a panic has to settle: the waiters of a context, and its poison
flag. -/
inductive Part where
  | winner
  | send
  | receive
  | start
  | cause
  | connected
  | uni
  | bidi
  | shutdown
  | poisoned
  deriving DecidableEq, Repr

def StreamState.Settled (s : StreamState) : Part → Prop
  | .winner => (definitive s.sendTerminal).isSome
  | .send => s.send.sender = false
  | .receive => s.receive.sender = false
  | .start => s.start ≠ .waiting
  | .poisoned => s.poisoned = true
  | _ => True

def State.Settled (s : State) : Part → Prop
  | .cause => s.conn.terminal.isSome
  | .connected => s.connected ≠ .waiting
  | .uni => s.uni.sender = false
  | .bidi => s.bidi.sender = false
  | .shutdown => s.shutdown ≠ .waiting
  | .poisoned => s.connPoisoned = true
  | _ => True

namespace CallbackContext

def thread : CallbackContext → Thread
  | .connection => .connCallback
  | .stream key => .streamCallback key

def poisoned : CallbackContext → State → Bool
  | .connection, s => s.connPoisoned
  | .stream key, s => (s.stream key).poisoned

/-- Whether the context still holds the sender of a receive channel. -/
def feeds : CallbackContext → State → Bool
  | .connection, _ => false
  | .stream key, s => (s.stream key).receive.sender

def Settled : CallbackContext → Part → State → Prop
  | .connection, part, s => s.Settled part
  | .stream key, part, s => (s.stream key).Settled part

theorem settled_poisoned (context : CallbackContext) (s : State) :
    context.Settled .poisoned s ↔ context.poisoned s = true := by
  cases context <;> rfl

end CallbackContext

theorem definitive_le {slot later : Option SendTerminal} (h : SlotLe slot later)
    (hSlot : (definitive slot).isSome) : (definitive later).isSome := by
  obtain ⟨terminal, hTerminal⟩ := Option.isSome_iff_exists.1 hSlot
  rw [h.winner terminal hTerminal]
  exact hSlot

section Frame

variable (budget : RecvBudget) (choice : Choice) (s : State)

theorem StreamOp.perform_start (op : StreamOp) (s : StreamState) :
    (op.perform budget choice s).2.start =
      match op with
      | .resolveStart result => s.start.send result
      | .dropStart => s.start.drop
      | .pollStart => s.start.poll.2
      | _ => s.start := by
  cases op with
  | streamSend context buffer =>
      obtain ⟨outstanding, h⟩ := perform_streamSend budget choice s context buffer
      rw [h]
  | _ => rfl

end Frame

section Settled

variable {config : H3Config} {choice : Choice}

/-- No operation unsettles a part of a stream. -/
theorem StreamOp.settled_perform (budget : RecvBudget) (op : StreamOp) {s : StreamState} {part : Part}
    (h : s.Settled part) : (op.perform budget choice s).2.Settled part := by
  cases part with
  | winner =>
      simp only [StreamState.Settled, StreamOp.perform_sendTerminal] at h ⊢
      cases op with
      | publishSend candidate => exact definitive_le (publishSend_le _ _) h
      | _ => exact h
  | send =>
      simp only [StreamState.Settled, StreamOp.perform_send] at h ⊢
      cases op <;> simp [h]
  | receive =>
      simp only [StreamState.Settled, StreamOp.perform_receive] at h ⊢
      cases op with
      | admitIndication bytes =>
          dsimp only [publishData]
          split <;> simp [h]
      | _ => simp [h]
  | start =>
      simp only [StreamState.Settled, StreamOp.perform_start] at h ⊢
      cases op with
      | resolveStart result => exact OneShot.send_ne_waiting _ _
      | dropStart => exact OneShot.drop_ne_waiting _
      | pollStart => exact OneShot.poll_ne_waiting h
      | _ => exact h
  | poisoned =>
      simp only [StreamState.Settled, StreamOp.perform_poisoned] at h ⊢
      cases op <;> first | exact h | rfl
  | _ => trivial

/-- No operation unsettles a part of the connection. -/
theorem ConnOp.settled_perform (op : ConnOp) {s : State} {part : Part} (h : s.Settled part) :
    (op.perform choice s).2.Settled part := by
  cases part with
  | cause =>
      simp only [State.Settled, ConnOp.perform_conn] at h ⊢
      exact ((Op.conn op).slot_le s.conn).occupied h
  | connected =>
      simp only [State.Settled, ConnOp.perform_connected] at h ⊢
      cases op <;> first | exact h | exact OneShot.send_ne_waiting _ _
  | shutdown =>
      simp only [State.Settled, ConnOp.perform_shutdown] at h ⊢
      cases op <;> first | exact h | exact OneShot.send_ne_waiting _ _
  | uni =>
      simp only [State.Settled, ConnOp.perform_uni] at h ⊢
      cases op <;> simp [h]
  | bidi =>
      simp only [State.Settled, ConnOp.perform_bidi] at h ⊢
      cases op <;> simp [h]
  | poisoned =>
      simp only [State.Settled, ConnOp.perform_connPoisoned] at h ⊢
      cases op <;> first | exact h | rfl
  | _ => trivial

variable {context : CallbackContext} {part : Part}

theorem settled_perform (op : Op) {s : State} (h : context.Settled part s) :
    context.Settled part (op.perform config choice s).2 := by
  cases context with
  | connection =>
      cases op with
      | conn op => exact op.settled_perform h
      | stream key op => cases part <;> exact h
  | stream key =>
      change (((op.perform config choice s).2).stream key).Settled part
      cases op with
      | conn op =>
          rw [Op.perform_conn_stream]
          exact h
      | stream target op =>
          by_cases hKey : key = target
          · subst hKey
            rw [Op.perform_stream_self]
            exact op.settled_perform _ h
          · rw [Op.perform_stream_of_ne _ _ _ _ hKey]
            exact h

theorem settled_deliver {request : Request} {s s' : State} (hDeliver : deliver request s = some s')
    (h : context.Settled part s) : context.Settled part s' := by
  rcases deliver_cases hDeliver with rfl | ⟨target, cancelled, returned, rfl, -, rfl⟩
  · exact h
  cases context with
  | connection => cases part <;> exact h
  | stream key =>
      change ((s.setStream target _).stream key).Settled part
      by_cases hKey : key = target
      · subst hKey
        rw [State.setStream_self]
        cases part <;> exact h
      · rw [State.setStream_of_ne _ _ hKey]
        exact h

end Settled

/-- What a handler does that matters for the containment of panics. `live` tells
whether the receive channel still had its sender when the panic struck. -/
inductive GuardNote where
  | struck (live : Bool)
  | forced
  | sent (event : ReceiveEvent)
  | settled (part : Part)
  deriving DecidableEq, Repr

/-- What the body of a handler may note. -/
def GuardNote.ofBody : GuardNote → Bool
  | .sent _ | .settled _ => true
  | _ => false

def GuardNote.event : GuardNote → Option ReceiveEvent
  | .sent event => some event
  | _ => none

/-- A receive terminal that was sent before has closed the channel. -/
def StreamOp.guardNote : (op : StreamOp) → op.Reply → StreamState → Option GuardNote
  | .panicPoint _, true, s => some (.struck s.receive.sender)
  | .forceShutdown _, _, _ => some .forced
  | .sendReceive event, _, s => if s.receive.sender then some (.sent event) else none
  | .admitIndication bytes, _, s =>
      if s.receive.sender && !bytes.isEmpty then some (.sent (.data bytes)) else none
  | .publishSend candidate, _, _ =>
      if candidate.isProvisional then none else some (.settled .winner)
  | .dropSend, _, _ => some (.settled .send)
  | .receiveTerminalSent, true, _ => some (.settled .receive)
  | .endReceive, _, _ => some (.settled .receive)
  | .dropReceive, _, _ => some (.settled .receive)
  | .resolveStart _, _, _ => some (.settled .start)
  | .setPoisoned, _, _ => some (.settled .poisoned)
  | _, _, _ => none

def ConnOp.guardNote : (op : ConnOp) → op.Reply → Option GuardNote
  | .panicPoint _, true => some (.struck false)
  | .forceShutdown _, _ => some .forced
  | .recordConnTerminal _, _ => some (.settled .cause)
  | .sendConnected _, _ => some (.settled .connected)
  | .dropUni, _ => some (.settled .uni)
  | .dropBidi, _ => some (.settled .bidi)
  | .sendShutdown, _ => some (.settled .shutdown)
  | .setPoisoned, _ => some (.settled .poisoned)
  | _, _ => none

namespace CallbackContext

def opNote : CallbackContext → (op : Op) → op.Reply → State → Option GuardNote
  | .connection, .conn op, reply, _ => op.guardNote reply
  | .stream key, .stream target op, reply, s =>
      if target = key then op.guardNote reply (s.stream key) else none
  | _, _, _, _ => none

def guardNote (context : CallbackContext) : AdapterLabel → Option GuardNote
  | .event ⟨request, op, reply, before, _⟩ =>
      if request.owner = context.thread then context.opNote op reply before else none
  | _ => none

/-- What the handler of a context noted, in order. -/
def notes (context : CallbackContext) (trace : List AdapterLabel) : List GuardNote :=
  trace.filterMap context.guardNote

end CallbackContext

section Notes

variable {config : H3Config} {context : CallbackContext} {w : AdapterWorld}

theorem notes_snoc (trace : List AdapterLabel) (label : AdapterLabel) :
    context.notes (trace ++ [label]) = context.notes trace ++ (context.guardNote label).toList :=
  filterMap_snoc ..

theorem notes_begun (request : Request) (s : State) :
    context.notes (w.after (.begun request) s).trace = context.notes w.trace := by
  rw [World.after_trace, notes_snoc]
  exact List.append_nil _

theorem notes_finished (call : AdapterCall) (s : State) :
    context.notes (w.after (.finished call) s).trace = context.notes w.trace := by
  rw [World.after_trace, notes_snoc]
  exact List.append_nil _

variable {request : Request} {choice : Choice}

theorem guardNote_own (hOwner : request.owner = context.thread) (op : Op) (s : State) :
    context.guardNote (.event ((adapter config).event choice request op s)) =
      context.opNote op (op.perform config choice s).1 s := by
  simp only [CallbackContext.guardNote, Machine.event, hOwner, if_true, adapter_perform]

theorem guardNote_foreign (hOwner : request.owner ≠ context.thread) (op : Op) (s : State) :
    context.guardNote (.event ((adapter config).event choice request op s)) = none := by
  simp only [CallbackContext.guardNote, Machine.event, hOwner, if_false]

theorem notes_own (hOwner : request.owner = context.thread) (op : Op) :
    context.notes ((adapter config).advance choice request op w).trace = context.notes w.trace ++
      (context.opNote op (op.perform config choice w.state).1 w.state).toList := by
  rw [Machine.advance_trace, notes_snoc, guardNote_own hOwner]

theorem notes_foreign (hOwner : request.owner ≠ context.thread) (op : Op) :
    context.notes ((adapter config).advance choice request op w).trace = context.notes w.trace := by
  rw [Machine.advance_trace, notes_snoc, guardNote_foreign hOwner]
  exact List.append_nil _

end Notes

/-- What recovery relies on: an ended receive channel is closed, a frozen connection
slot is not empty. -/
structure ContextSound (s : State) : Prop where
  ended : ∀ key, (s.stream key).receiveTerminalSent = true → (s.stream key).receive.sender = false
  occupied : s.conn.observed = true → s.conn.terminal.isSome

section Sound

variable {config : H3Config} {trace : List AdapterLabel} {reached : AdapterConfig}

theorem ended_perform (budget : RecvBudget) (choice : Choice) (op : StreamOp) {s : StreamState}
    (h : s.receiveTerminalSent = true → s.receive.sender = false)
    (hSent : (op.perform budget choice s).2.receiveTerminalSent = true) :
    (op.perform budget choice s).2.receive.sender = false := by
  rw [StreamOp.perform_receiveTerminalSent] at hSent
  cases op with
  | endReceive => rfl
  | _ =>
      have hClosed : s.Settled .receive := h hSent
      exact StreamOp.settled_perform budget _ hClosed

theorem contextSound (run : Runs config trace reached) : ContextSound reached.state := by
  refine ⟨?_, (cause_invariant config run).occupied⟩
  refine (run.keeps (P := fun s => ∀ key, (s.stream key).receiveTerminalSent = true →
    (s.stream key).receive.sender = false) ?_ ?_ nofun).1
  · intro request s s' hDeliver h key
    rw [deliver_stream StreamState.receive (fun _ _ => rfl) hDeliver key,
      deliver_stream StreamState.receiveTerminalSent (fun _ _ => rfl) hDeliver key]
    exact h key
  · intro choice op s h key
    rw [adapter_perform]
    cases op with
    | conn op =>
        rw [Op.perform_conn_stream]
        exact h key
    | stream target op =>
        by_cases hKey : key = target
        · subst hKey
          rw [Op.perform_stream_self]
          exact ended_perform _ choice op (h key)
        · rw [Op.perform_stream_of_ne _ _ _ _ hKey]
          exact h key

/-- What is noted as settled is settled. -/
theorem StreamOp.settled_of_note (budget : RecvBudget) (choice : Choice) (op : StreamOp)
    {s : StreamState} {part : Part}
    (hEnded : s.receiveTerminalSent = true → s.receive.sender = false)
    (h : op.guardNote (op.perform budget choice s).1 s = some (.settled part)) :
    (op.perform budget choice s).2.Settled part := by
  cases op with
  | publishSend candidate =>
      have hCandidate : candidate.isProvisional = false := by
        cases hProvisional : candidate.isProvisional with
        | true => simp [guardNote, hProvisional] at h
        | false => rfl
      obtain rfl : part = .winner := by simpa [guardNote, hCandidate, eq_comm] using h
      change ((definitive (MsQuicH3.publishSend s.sendTerminal candidate).2).isSome : Prop)
      rw [publishSend_slot, definitive, Option.filter_some,
        if_pos (by simp [publishSend_isProvisional hCandidate])]
      rfl
  | receiveTerminalSent =>
      cases hSent : s.receiveTerminalSent with
      | false => simp [guardNote, perform, hSent] at h
      | true =>
          obtain rfl : part = .receive := by simpa [guardNote, perform, hSent, eq_comm] using h
          exact hEnded hSent
  | resolveStart result =>
      obtain rfl : part = .start := by simpa [guardNote, eq_comm] using h
      exact OneShot.send_ne_waiting _ _
  | panicPoint k => cases hPanics : choice.panics <;> simp [guardNote, perform, hPanics] at h
  | admitIndication bytes =>
      simp only [guardNote] at h
      split at h <;> cases h
  | sendReceive event =>
      simp only [guardNote] at h
      split at h <;> cases h
  | dropSend | endReceive | dropReceive | setPoisoned =>
      simp only [guardNote, Option.some.injEq, GuardNote.settled.injEq] at h
      subst h
      rfl
  | _ => simp [guardNote] at h

theorem ConnOp.settled_of_note (choice : Choice) (op : ConnOp) {s : State} {part : Part}
    (hOccupied : s.conn.observed = true → s.conn.terminal.isSome)
    (h : op.guardNote (op.perform choice s).1 = some (.settled part)) :
    (op.perform choice s).2.Settled part := by
  cases op with
  | recordConnTerminal candidate =>
      obtain rfl : part = .cause := by simpa [guardNote, eq_comm] using h
      change ((s.conn.record candidate).terminal.isSome : Prop)
      unfold ConnTerminalState.record
      split
      next hFrozen => exact hOccupied hFrozen
      split
      · rfl
      next hTerminal =>
        split
        · rfl
        · simp [hTerminal]
  | panicPoint k => cases hPanics : choice.panics <;> simp [guardNote, perform, hPanics] at h
  | sendConnected result =>
      obtain rfl : part = .connected := by simpa [guardNote, eq_comm] using h
      exact OneShot.send_ne_waiting _ _
  | sendShutdown =>
      obtain rfl : part = .shutdown := by simpa [guardNote, eq_comm] using h
      exact OneShot.send_ne_waiting _ _
  | dropUni | dropBidi | setPoisoned =>
      simp only [guardNote, Option.some.injEq, GuardNote.settled.injEq] at h
      subst h
      rfl
  | _ => simp [guardNote] at h

theorem CallbackContext.settled_of_note {context : CallbackContext} {choice : Choice} {op : Op}
    {s : State} {part : Part} (hSound : ContextSound s)
    (h : context.opNote op (op.perform config choice s).1 s = some (.settled part)) :
    context.Settled part (op.perform config choice s).2 := by
  cases context with
  | connection =>
      cases op with
      | conn op => exact op.settled_of_note choice hSound.occupied h
      | stream key op => cases h
  | stream key =>
      cases op with
      | conn op => cases h
      | stream target op =>
          simp only [opNote, Option.ite_none_right_eq_some] at h
          obtain ⟨rfl, hNote⟩ := h
          change (((Op.stream target op).perform config choice s).2.stream target).Settled part
          rw [Op.perform_stream_self]
          exact op.settled_of_note _ choice (hSound.ended target) hNote

theorem settled_of_notes (run : Runs config trace reached) {context : CallbackContext} {part : Part}
    (h : .settled part ∈ context.notes trace) : context.Settled part reached.state := by
  induction run with
  | start => cases h
  | @step trace label config' next move prior last ih =>
      rw [notes_snoc, List.mem_append] at h
      rcases Machine.step_cases last with ⟨request, state, -, hDeliver, rfl, rfl⟩ |
        ⟨thread, choice, request, events, op, following, -, rfl, rfl⟩ |
        ⟨thread, request, events, result, -, rfl, rfl⟩
      · exact settled_deliver hDeliver (ih (h.resolve_right nofun))
      · rcases h with h | h
        · exact settled_perform op (ih h)
        · rw [Option.mem_toList] at h
          by_cases hOwner : request.owner = context.thread
          · rw [guardNote_own hOwner] at h
            exact CallbackContext.settled_of_note (contextSound prior) h
          · rw [guardNote_foreign hOwner] at h
            cases h
      · exact ih (h.resolve_right nofun)

end Sound

end MsQuicH3
