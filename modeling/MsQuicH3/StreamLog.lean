import MsQuicH3.Concurrency.Watch
import MsQuicH3.Effect

/-! What a run did to one stream: the operations on it, in order, with their
replies. An operation on anything else leaves the stream and its log alone. -/
namespace MsQuicH3

open Concurrency

/-- One performed operation on a stream. -/
abbrev StreamStep := Σ op : StreamOp, op.Reply

def streamStep (key : StreamKey) : AdapterLabel → Option StreamStep
  | .event ⟨_, .stream target op, reply, _, _⟩ => if target = key then some ⟨op, reply⟩ else none
  | _ => none

def streamLog (key : StreamKey) (trace : List AdapterLabel) : List StreamStep :=
  trace.filterMap (streamStep key)

section Log

variable {key : StreamKey}

theorem streamLog_snoc (trace : List AdapterLabel) (label : AdapterLabel) :
    streamLog key (trace ++ [label]) = streamLog key trace ++ (streamStep key label).toList := by
  rw [streamLog, List.filterMap_append, List.filterMap_cons]
  cases streamStep key label <;> rfl

theorem streamLog_append (first second : List AdapterLabel) :
    streamLog key (first ++ second) = streamLog key first ++ streamLog key second :=
  List.filterMap_append ..

@[simp] theorem streamLog_nil : streamLog key [] = [] := rfl

@[simp] theorem streamLog_begun (trace : List AdapterLabel) (request : Request) :
    streamLog key (trace ++ [.begun request]) = streamLog key trace := by
  rw [streamLog_snoc]
  exact List.append_nil _

@[simp] theorem streamLog_finished (trace : List AdapterLabel) (call : AdapterCall) :
    streamLog key (trace ++ [.finished call]) = streamLog key trace := by
  rw [streamLog_snoc]
  exact List.append_nil _

variable {config : H3Config} {choice : Choice} {request : Request} {w : AdapterWorld}

theorem streamLog_event (op : StreamOp) :
    streamLog key ((adapter config).advance choice request (.stream key op) w).trace =
      streamLog key w.trace ++ [⟨op, (op.perform config.recvBudget choice (w.state.stream key)).1⟩] := by
  rw [Machine.advance_trace, streamLog_snoc]
  simp only [streamStep, Machine.event, adapter_perform, Op.perform, if_pos, Option.toList_some]

/-- An operation on a stream is what its log says; any other leaves both alone. -/
theorem advance_stream_cases (key : StreamKey) (op : Op) :
    (∃ own, op = .stream key own ∧
      ((adapter config).advance choice request op w).state.stream key =
        (own.perform config.recvBudget choice (w.state.stream key)).2 ∧
      streamLog key ((adapter config).advance choice request op w).trace =
        streamLog key w.trace ++
          [⟨own, (own.perform config.recvBudget choice (w.state.stream key)).1⟩]) ∨
    ((∀ own, op ≠ .stream key own) ∧
      ((adapter config).advance choice request op w).state.stream key = w.state.stream key ∧
      streamLog key ((adapter config).advance choice request op w).trace =
        streamLog key w.trace) := by
  have hSilent : streamStep key (.event ((adapter config).event choice request op w.state)) = none →
      streamLog key ((adapter config).advance choice request op w).trace =
        streamLog key w.trace := by
    intro h
    rw [Machine.advance_trace, streamLog_snoc, h]
    exact List.append_nil _
  cases op with
  | conn op =>
      refine .inr ⟨nofun, ?_, hSilent rfl⟩
      rw [Machine.advance_state, adapter_perform, Op.perform_conn_stream]
  | stream target op =>
      by_cases hKey : target = key
      · subst hKey
        refine .inl ⟨op, rfl, ?_, streamLog_event op⟩
        rw [Machine.advance_state, adapter_perform, Op.perform_stream_self]
      · refine .inr ⟨fun own h => ?_, ?_, hSilent ?_⟩
        · cases h
          exact hKey rfl
        · rw [Machine.advance_state, adapter_perform,
            Op.perform_stream_of_ne _ _ _ _ (Ne.symm hKey)]
        · exact if_neg hKey

end Log

section Effect

variable (budget : RecvBudget) (choice : Choice) (op : StreamOp) (s : StreamState)

theorem StreamOp.perform_recvState : (op.perform budget choice s).2.recvState =
    match op with
    | .admitIndication bytes => (budget.admitIndication s.recvState bytes.length (!bytes.isEmpty)
        (publishData bytes s.receive).1).2
    | .onDrained len => (budget.onDrained s.recvState len).2
    | _ => s.recvState := by
  cases op with
  | streamSend context buffer =>
      obtain ⟨outstanding, h⟩ := perform_streamSend budget choice s context buffer
      rw [h]
  | _ => rfl

theorem StreamOp.perform_poisoned : (op.perform budget choice s).2.poisoned =
    match op with
    | .setPoisoned => true
    | _ => s.poisoned := by
  cases op with
  | streamSend context buffer =>
      obtain ⟨outstanding, h⟩ := perform_streamSend budget choice s context buffer
      rw [h]
  | _ => rfl

theorem StreamOp.perform_receiveTerminalSent :
    (op.perform budget choice s).2.receiveTerminalSent =
      match op with
      | .endReceive => true
      | _ => s.receiveTerminalSent := by
  cases op with
  | streamSend context buffer =>
      obtain ⟨outstanding, h⟩ := perform_streamSend budget choice s context buffer
      rw [h]
  | _ => rfl

theorem StreamOp.perform_receiveClosed : (op.perform budget choice s).2.receiveClosed =
    match op with
    | .closeReceiveLocally => true
    | _ => s.receiveClosed := by
  cases op with
  | streamSend context buffer =>
      obtain ⟨outstanding, h⟩ := perform_streamSend budget choice s context buffer
      rw [h]
  | _ => rfl

end Effect

/-- What ending a receive channel takes. -/
theorem uses_publishRecvTerminal_of {P : Op → Prop} {key : StreamKey} {event : ReceiveEvent}
    (hSent : P (.stream key .receiveTerminalSent)) (hSend : P (.stream key (.sendReceive event)))
    (hEnd : P (.stream key .endReceive)) :
    (publishRecvTerminal key event).Uses (S := signature) P := by
  refine (uses_onStream hSent).bind fun sent => ?_
  split
  · trivial
  · exact (uses_onStream hSend).bind fun _ => uses_onStream hEnd

/-- Data reaches a receive channel only through its budget. -/
def Op.plain : Op → Bool
  | .stream _ (.sendReceive event) => !(event matches .data _)
  | _ => true

section Plain

variable {key : StreamKey}

theorem plain_onStream {op : StreamOp} (h : (Op.stream key op).plain) :
    (onStream key op).Uses (S := signature) fun op => op.plain := uses_onStream h

theorem plain_publishRecvTerminal {event : ReceiveEvent}
    (h : (Op.stream key (.sendReceive event)).plain) :
    (publishRecvTerminal key event).Uses (S := signature) fun op => op.plain :=
  uses_publishRecvTerminal_of rfl h rfl

theorem plain_receiveData (bytes : List UInt8) :
    (receiveData key bytes).Uses (S := signature) fun op => op.plain := by
  refine (plain_onStream rfl).bind fun sent => (plain_onStream rfl).bind fun isSome => ?_
  split
  · refine (plain_onStream rfl).bind fun admitted => ?_
    split
    · trivial
    · trivial
    · exact (plain_onStream rfl).bind fun _ => trivial
  · trivial

theorem plain_publishConnTerminal (reason : ConnectionTerminal) :
    (publishConnTerminal key reason).Uses (S := signature) fun op => op.plain := by
  have hRecord : (onConn (.recordConnTerminal reason)).Uses (S := signature)
      fun op => op.plain := uses_onConn rfl
  refine hRecord.bind fun _ => Program.Uses.bind (plain_publishRecvTerminal rfl) fun _ =>
    Program.Uses.bind ?_ fun _ => trivial
  exact plain_onStream rfl

theorem plain_streamCallback (event : StreamEvent) :
    (streamCallback key event).Uses (S := signature) fun op => op.plain := by
  cases event with
  | startComplete status id => exact (plain_onStream rfl).bind fun _ => trivial
  | sendComplete cancelled context =>
      cases context <;>
        exact (plain_onStream rfl).bind fun _ => (plain_onStream rfl).bind fun _ => trivial
  | receive buffers fin =>
      exact (plain_receiveData _).bind fun _ =>
        ((plain_publishRecvTerminal rfl).when fin).bind fun _ => trivial
  | peerSendShutdown => exact (plain_publishRecvTerminal rfl).bind fun _ => trivial
  | peerSendAborted code => exact (plain_publishRecvTerminal rfl).bind fun _ => trivial
  | peerReceiveAborted code =>
      exact (plain_onStream rfl).bind fun _ => (plain_onStream rfl).bind fun _ => trivial
  | sendShutdownComplete graceful => exact (plain_onStream rfl).bind fun _ => trivial
  | shutdownComplete connectionShutdown byApp closedRemotely code status =>
      refine Program.Uses.bind ?_ fun _ => (plain_onStream rfl).bind fun _ =>
        (plain_onStream rfl).bind fun _ => (plain_onStream rfl).bind fun _ => trivial
      cases connectionShutdown with
      | true => exact plain_publishConnTerminal _
      | false => trivial
  | other => trivial

theorem plain_streamRecover :
    (streamRecover key).Uses (S := signature) fun op => op.plain := by
  refine (plain_onStream rfl).bind fun _ => (plain_onStream rfl).bind fun _ =>
    (plain_onStream rfl).bind fun _ => (plain_onStream rfl).bind fun _ =>
    Program.Uses.bind ?_ fun _ => (plain_onStream rfl).bind fun _ =>
    (plain_onStream rfl).bind fun _ => trivial
  exact plain_publishRecvTerminal rfl

theorem plain_streamHandler (event : StreamEvent) :
    (streamHandler key event).Uses (S := signature) fun op => op.plain :=
  uses_guardCallback (plain_onStream rfl) (fun _ => plain_onStream rfl)
    (plain_streamCallback event) plain_streamRecover

/-- Only stream callbacks send on a receive channel. -/
theorem plain_of_permits {request : Request} {op : Op} (h : permits request op)
    (hRequest : ∀ key event, request ≠ .stream key event) : op.plain = true := by
  cases op with
  | conn op => rfl
  | stream target op =>
      cases op with
      | sendReceive event =>
          cases request with
          | stream key event => exact (hRequest key event rfl).elim
          | send other call => exact absurd h.2 Bool.false_ne_true
          | recv other call => exact absurd h.2 Bool.false_ne_true
          | opener n call => exact absurd h Bool.false_ne_true
          | _ => exact h.elim
      | _ => rfl

end Plain

/-- What each request may issue, data included. -/
def permitsPlain (request : Request) (op : Op) : Prop := permits request op ∧ op.plain = true

theorem plain_entry (config : H3Config) (request : Request) :
    (request.entry config).Uses (permitsPlain request) := by
  apply (uses_entry config request).and
  cases request with
  | stream key event => exact uses_straight (plain_streamHandler event)
  | _ => exact (uses_entry config _).mono fun op h => plain_of_permits h nofun

theorem plain_body (request : Request) (round : SendRound) :
    (request.body round).Uses (permitsPlain request) := by
  apply (uses_body request round).and
  cases request with
  | stream key event => trivial
  | _ => exact (uses_body _ round).mono fun op h => plain_of_permits h nofun

end MsQuicH3
