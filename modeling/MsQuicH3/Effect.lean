import MsQuicH3.Footprint

/-! What one operation can change: for every part of the shared state, the
operations that write it and what they write. -/
namespace MsQuicH3

open Concurrency

@[simp] theorem adapter_perform (config : H3Config) (choice : Choice) (op : Op) (s : State) :
    (adapter config).perform choice op s = op.perform config choice s := rfl

@[simp] theorem adapter_deliver (config : H3Config) (request : Request) (s : State) :
    (adapter config).deliver request s = deliver request s := rfl

@[simp] theorem adapter_owner (config : H3Config) (request : Request) :
    (adapter config).owner request = request.owner := rfl

section Connection

/-- The write of an operation to the connection slot. -/
def ConnOp.slot : ConnOp → ConnTerminalState → ConnTerminalState
  | .recordConnTerminal candidate, slot => slot.record candidate
  | .observeConnWinner, slot => slot.observe.2
  | .commitConn, slot => (MsQuicH3.commitConn slot).2
  | .failFastTerminal, slot => (MsQuicH3.failFastTerminal slot).2
  | _, slot => slot

def Op.slot : Op → ConnTerminalState → ConnTerminalState
  | .conn op, slot => op.slot slot
  | .stream _ _, slot => slot

/-- The start of a stream moves the count of the opened streams at most. -/
theorem ConnOp.perform_submitOpenStart (choice : Choice) (uni : Bool) (s : State) :
    ∃ count, ((ConnOp.submitOpenStart uni).perform choice s).2 = { s with openedCount := count } := by
  unfold ConnOp.perform
  cases choice.result with
  | ok _ => exact ⟨s.openedCount + 1, rfl⟩
  | error _ => exact ⟨s.openedCount, rfl⟩

theorem ConnOp.perform_conn (choice : Choice) (op : ConnOp) (s : State) :
    (op.perform choice s).2.conn = op.slot s.conn := by
  cases op with
  | submitOpenStart uni =>
      obtain ⟨count, h⟩ := perform_submitOpenStart choice uni s
      rw [h]
      rfl
  | _ => rfl

theorem ConnOp.perform_stream (choice : Choice) (op : ConnOp) (s : State) :
    (op.perform choice s).2.stream = s.stream := by
  cases op with
  | submitOpenStart uni =>
      obtain ⟨count, h⟩ := perform_submitOpenStart choice uni s
      rw [h]
  | _ => rfl

theorem ConnOp.perform_connected (choice : Choice) (op : ConnOp) (s : State) :
    (op.perform choice s).2.connected =
    match op with
    | .sendConnected result => s.connected.send result
    | _ => s.connected := by
  cases op with
  | submitOpenStart uni =>
      obtain ⟨count, h⟩ := perform_submitOpenStart choice uni s
      rw [h]
  | _ => rfl

theorem ConnOp.perform_shutdown (choice : Choice) (op : ConnOp) (s : State) :
    (op.perform choice s).2.shutdown =
    match op with
    | .sendShutdown => s.shutdown.send ()
    | _ => s.shutdown := by
  cases op with
  | submitOpenStart uni =>
      obtain ⟨count, h⟩ := perform_submitOpenStart choice uni s
      rw [h]
  | _ => rfl

theorem ConnOp.perform_uni (choice : Choice) (op : ConnOp) (s : State) :
    (op.perform choice s).2.uni =
    match op with
    | .dropUni => s.uni.dropSender
    | .sendUni key => (s.uni.unboundedSend (some key)).2
    | .pollUni => s.uni.pollNext.2
    | _ => s.uni := by
  cases op with
  | submitOpenStart uni =>
      obtain ⟨count, h⟩ := perform_submitOpenStart choice uni s
      rw [h]
  | _ => rfl

theorem ConnOp.perform_bidi (choice : Choice) (op : ConnOp) (s : State) :
    (op.perform choice s).2.bidi =
    match op with
    | .dropBidi => s.bidi.dropSender
    | .sendBidi key => (s.bidi.unboundedSend (some key)).2
    | .pollBidi => s.bidi.pollNext.2
    | _ => s.bidi := by
  cases op with
  | submitOpenStart uni =>
      obtain ⟨count, h⟩ := perform_submitOpenStart choice uni s
      rw [h]
  | _ => rfl

theorem ConnOp.perform_connPoisoned (choice : Choice) (op : ConnOp) (s : State) :
    (op.perform choice s).2.connPoisoned =
    match op with
    | .setPoisoned => true
    | _ => s.connPoisoned := by
  cases op with
  | submitOpenStart uni =>
      obtain ⟨count, h⟩ := perform_submitOpenStart choice uni s
      rw [h]
  | _ => rfl

theorem Op.perform_conn (config : H3Config) (choice : Choice) (op : Op) (s : State) :
    (op.perform config choice s).2.conn = op.slot s.conn := by
  cases op with
  | conn op => exact op.perform_conn choice s
  | stream key op => rfl

theorem Op.slot_le (op : Op) (slot : ConnTerminalState) : slot.Le (op.slot slot) := by
  cases op with
  | stream key op => exact .refl slot
  | conn op =>
      cases op with
      | recordConnTerminal candidate => exact slot.record_le candidate
      | observeConnWinner => exact slot.observe_le
      | commitConn => exact commitConn_le slot
      | failFastTerminal => exact failFastTerminal_le slot
      | _ => exact .refl slot

@[simp] theorem Op.perform_conn_stream (config : H3Config) (choice : Choice) (op : ConnOp)
    (s : State) : ((Op.conn op).perform config choice s).2.stream = s.stream :=
  op.perform_stream choice s

@[simp] theorem Op.perform_stream_self (config : H3Config) (choice : Choice) (key : StreamKey)
    (op : StreamOp) (s : State) :
    ((Op.stream key op).perform config choice s).2.stream key =
      (op.perform config.recvBudget choice (s.stream key)).2 := by
  simp [Op.perform]

theorem Op.perform_stream_of_ne (config : H3Config) (choice : Choice) {key other : StreamKey}
    (op : StreamOp) (s : State) (h : other ≠ key) :
    ((Op.stream key op).perform config choice s).2.stream other = s.stream other := by
  simp [Op.perform, State.setStream_of_ne, h]

end Connection

section Stream

variable (budget : RecvBudget) (choice : Choice) (op : StreamOp) (s : StreamState)

/-- A submission moves the contexts native code holds at most. -/
theorem StreamOp.perform_streamSend (context : BufferId) (buffer : SendBuffer) :
    ∃ outstanding, ((StreamOp.streamSend context buffer).perform budget choice s).2 =
      { s with outstanding } := by
  unfold StreamOp.perform
  cases choice.result with
  | ok _ => exact ⟨s.outstanding ++ [context], rfl⟩
  | error _ => exact ⟨s.outstanding, rfl⟩

theorem StreamOp.perform_reducer : (op.perform budget choice s).2.reducer =
    match op with
    | .transition input => (MsQuicH3.transition s.reducer input).2
    | _ => s.reducer := by
  cases op with
  | streamSend context buffer =>
      obtain ⟨outstanding, h⟩ := perform_streamSend budget choice s context buffer
      rw [h]
  | _ => rfl

theorem StreamOp.perform_sendTerminal : (op.perform budget choice s).2.sendTerminal =
    match op with
    | .publishSend candidate => (MsQuicH3.publishSend s.sendTerminal candidate).2
    | _ => s.sendTerminal := by
  cases op with
  | streamSend context buffer =>
      obtain ⟨outstanding, h⟩ := perform_streamSend budget choice s context buffer
      rw [h]
  | _ => rfl

theorem StreamOp.perform_send : (op.perform budget choice s).2.send =
    match op with
    | .sendEvent event => (s.send.unboundedSend event).2
    | .dropSend => s.send.dropSender
    | .pollSendChannel => s.send.pollNext.2
    | .dropSendHalf => s.send.dropReceiver
    | _ => s.send := by
  cases op with
  | streamSend context buffer =>
      obtain ⟨outstanding, h⟩ := perform_streamSend budget choice s context buffer
      rw [h]
  | _ => rfl

theorem StreamOp.perform_receive : (op.perform budget choice s).2.receive =
    match op with
    | .admitIndication bytes => (publishData bytes s.receive).2
    | .sendReceive event => (s.receive.unboundedSend event).2
    | .dropReceive | .endReceive => s.receive.dropSender
    | .pollReceive => s.receive.pollNext.2
    | .dropRecvHalf => s.receive.dropReceiver
    | _ => s.receive := by
  cases op with
  | streamSend context buffer =>
      obtain ⟨outstanding, h⟩ := perform_streamSend budget choice s context buffer
      rw [h]
  | _ => rfl

theorem StreamOp.perform_recvTerminal : (op.perform budget choice s).2.recvTerminal =
    match op with
    | .storeRecvTerminal terminal => some terminal
    | _ => s.recvTerminal := by
  cases op with
  | streamSend context buffer =>
      obtain ⟨outstanding, h⟩ := perform_streamSend budget choice s context buffer
      rw [h]
  | _ => rfl

theorem StreamOp.perform_boxes : (op.perform budget choice s).2.boxes =
    match op with
    | .boxSendBuffer buffer => s.boxes ++ [(s.nextBuffer, buffer)]
    | .dropBox context => s.boxes.filter (fun box => box.1 != context)
    | _ => s.boxes := by
  cases op with
  | streamSend context buffer =>
      obtain ⟨outstanding, h⟩ := perform_streamSend budget choice s context buffer
      rw [h]
  | _ => rfl

theorem StreamOp.perform_nextBuffer : (op.perform budget choice s).2.nextBuffer =
    match op with
    | .boxSendBuffer _ => s.nextBuffer + 1
    | _ => s.nextBuffer := by
  cases op with
  | streamSend context buffer =>
      obtain ⟨outstanding, h⟩ := perform_streamSend budget choice s context buffer
      rw [h]
  | _ => rfl

theorem StreamOp.perform_outstanding : (op.perform budget choice s).2.outstanding =
    match op with
    | .streamSend context _ =>
        if choice.result = .ok () then s.outstanding ++ [context] else s.outstanding
    | _ => s.outstanding := by
  cases op with
  | streamSend context buffer => cases h : choice.result <;> simp [StreamOp.perform, h]
  | _ => rfl

end Stream

/-- A delivery books the returned context and changes nothing else. -/
theorem deliver_cases {request : Request} {s s' : State} (h : deliver request s = some s') :
    s' = s ∨ ∃ key cancelled context, request = .stream key (.sendComplete cancelled (some context)) ∧
      context ∈ (s.stream key).outstanding ∧ s' = s.setStream key
        { s.stream key with outstanding := (s.stream key).outstanding.erase context } := by
  unfold deliver at h
  split at h
  · dsimp only at h
    split at h
    · cases h
      exact .inr ⟨_, _, _, rfl, ‹_›, rfl⟩
    · cases h
  · split at h <;> cases h
    exact .inl rfl
  · split at h <;> cases h
    exact .inl rfl
  · cases h
    exact .inl rfl

theorem deliver_returned {key : StreamKey} {cancelled : Bool} {context : BufferId} {s s' : State} :
    deliver (.stream key (.sendComplete cancelled (some context))) s = some s' ↔
      context ∈ (s.stream key).outstanding ∧ s' = s.setStream key
        { s.stream key with outstanding := (s.stream key).outstanding.erase context } := by
  simp only [deliver, Option.ite_none_right_eq_some, Option.some.injEq, @eq_comm _ s']

/-- A part of a stream that no delivery touches. -/
theorem deliver_stream {α : Type} (part : StreamState → α)
    (hPart : ∀ stream outstanding, part { stream with outstanding } = part stream)
    {request : Request} {s s' : State} (h : deliver request s = some s') (key : StreamKey) :
    part (s'.stream key) = part (s.stream key) := by
  rcases deliver_cases h with rfl | ⟨other, cancelled, context, rfl, hMem, rfl⟩
  · rfl
  · by_cases hKey : key = other
    · subst key
      rw [State.setStream_self, hPart]
    · rw [State.setStream_of_ne _ _ hKey]

theorem deliver_conn {request : Request} {s s' : State} (h : deliver request s = some s') :
    s'.conn = s.conn := by
  rcases deliver_cases h with rfl | ⟨other, cancelled, context, rfl, hMem, rfl⟩ <;> rfl

end MsQuicH3
