import MsQuicH3.Concurrency.Channel
import MsQuicH3.Concurrency.Program
import MsQuicH3.Terminal
import MsQuicH3.Buffer
import MsQuicH3.RecvBudget

/-! The shared state of one connection with all of its streams, and the atomic
operations its threads perform on it: critical sections of a lock, channel
operations, accesses to memory only one thread uses, and native calls. -/
namespace MsQuicH3

open Concurrency

/-- A stream by the side that opened it. -/
inductive StreamKey where
  | opened (n : Nat)
  | accepted (n : Nat)
  deriving DecidableEq, Repr

abbrev BufferId := Nat

inductive ReceiveEvent where
  | data (bytes : List UInt8)
  | fin
  | reset (code : Nat)
  | connection (reason : ConnectionTerminal)
  | internal (message : String)
  deriving DecidableEq, Repr

/-- One stream: what its callback context, its send half and its receive half hold
or share, the send buffers owned through raw pointers, and the contexts native
code has accepted and not returned yet. A sender that the context holds as an
option is the sender of the channel. -/
structure StreamState where
  start : OneShot (Except Status Nat) := .waiting
  send : Channel SendEvent := .unbounded
  sendTerminal : Option SendTerminal := none
  receive : Channel ReceiveEvent := .unbounded
  recvState : RecvState := {}
  receiveTerminalSent : Bool := false
  poisoned : Bool := false
  reducer : SendState := .new
  recvTerminal : Option ReceiveTerminal := none
  receiveClosed : Bool := false
  nextBuffer : BufferId := 0
  boxes : List (BufferId × SendBuffer) := []
  outstanding : List BufferId := []

/-- The holders of the opening streams of one stream opener. -/
structure OpenerState where
  bidiTemp : Option StreamKey := none
  uniTemp : Option StreamKey := none
  deriving DecidableEq, Repr

def OpenerState.holder (opener : OpenerState) (uni : Bool) : Option StreamKey :=
  if uni then opener.uniTemp else opener.bidiTemp

def OpenerState.setHolder (opener : OpenerState) (uni : Bool) (holder : Option StreamKey) :
    OpenerState :=
  if uni then { opener with uniTemp := holder } else { opener with bidiTemp := holder }

/-- One connection. `heldStream` is the owned peer stream a callback invocation
still has in a local variable, which an unwinding panic drops. -/
structure State where
  conn : ConnTerminalState := {}
  connected : OneShot (Except Status Unit) := .waiting
  shutdown : OneShot Unit := .waiting
  uni : Channel (Option StreamKey) := .unbounded
  bidi : Channel (Option StreamKey) := .unbounded
  connPoisoned : Bool := false
  streamOwned : Bool := false
  heldStream : Option StreamKey := none
  opener : Nat → OpenerState := fun _ => {}
  openedCount : Nat := 0
  stream : StreamKey → StreamState := fun _ => {}

namespace State

def setStream (state : State) (key : StreamKey) (stream : StreamState) : State :=
  { state with stream := Function.update state.stream key stream }

@[simp] theorem setStream_self (state : State) (key : StreamKey) (stream : StreamState) :
    (state.setStream key stream).stream key = stream := by simp [setStream]

theorem setStream_of_ne (state : State) {key other : StreamKey} (stream : StreamState)
    (h : other ≠ key) : (state.setStream key stream).stream other = state.stream other := by
  simp [setStream, h]

@[simp] theorem setStream_conn (state : State) (key : StreamKey) (stream : StreamState) :
    (state.setStream key stream).conn = state.conn := rfl

end State

/-- What the outside decides when an operation is performed: the immediate result
of a native call, the raw stream ID of a query, and whether a callback panics. -/
structure Choice where
  result : Except Status Unit := .ok ()
  rawId : Except Status Nat := .ok 0
  panics : Bool := false
  deriving DecidableEq

/-- Operations on what belongs to the connection. `fromRaw` takes ownership of a
native stream and sets the ownership token: nothing in between can panic. The drop of
a peer stream in the callback is `closeStream`, of an opening stream `closeOpening`. -/
inductive ConnOp where
  | recordConnTerminal (candidate : ConnectionTerminal)
  | observeConnWinner
  | commitConn
  | peekConnTerminal
  | failFastTerminal
  | isPoisoned
  | panicPoint (k : Nat)
  | setPoisoned
  | forceShutdown (code : Nat)
  | resetStreamOwned
  | streamOwned
  | heldStream
  | sendConnected (result : Except Status Unit)
  | sendShutdown
  | dropUni
  | dropBidi
  | getStreamId (key : StreamKey)
  | fromRaw (key : StreamKey)
  | closeStream (key : StreamKey)
  | closeOpening (key : StreamKey)
  | sendUni (key : StreamKey)
  | sendBidi (key : StreamKey)
  | pollUni
  | pollBidi
  | submitOpenStart (uni : Bool)
  | holder (opener : Nat) (uni : Bool)
  | setHolder (opener : Nat) (uni : Bool) (key : Option StreamKey)
  | submitConnShutdown (code : Nat)

@[reducible] def ConnOp.Reply : ConnOp → Type
  | .observeConnWinner | .commitConn | .peekConnTerminal | .failFastTerminal =>
      Option ConnectionTerminal
  | .isPoisoned | .panicPoint _ | .streamOwned | .sendUni _ | .sendBidi _ => Bool
  | .getStreamId _ => Except Status Nat
  | .pollUni | .pollBidi => Poll (Option (Option StreamKey))
  | .submitOpenStart _ => Except Status StreamKey
  | .holder _ _ | .heldStream => Option StreamKey
  | _ => Unit

def ConnOp.perform (choice : Choice) : (op : ConnOp) → State → op.Reply × State
  | .recordConnTerminal candidate, s => ((), { s with conn := s.conn.record candidate })
  | .observeConnWinner, s => (s.conn.observe.1, { s with conn := s.conn.observe.2 })
  | .commitConn, s => ((MsQuicH3.commitConn s.conn).1, { s with conn := (MsQuicH3.commitConn s.conn).2 })
  | .peekConnTerminal, s => (s.conn.terminal, s)
  | .failFastTerminal, s =>
      ((MsQuicH3.failFastTerminal s.conn).1, { s with conn := (MsQuicH3.failFastTerminal s.conn).2 })
  | .isPoisoned, s => (s.connPoisoned, s)
  | .panicPoint _, s => (choice.panics, s)
  | .setPoisoned, s => ((), { s with connPoisoned := true })
  | .forceShutdown _, s => ((), s)
  | .resetStreamOwned, s => ((), { s with streamOwned := false })
  | .streamOwned, s => (s.streamOwned, s)
  | .sendConnected result, s => ((), { s with connected := s.connected.send result })
  | .sendShutdown, s => ((), { s with shutdown := s.shutdown.send () })
  | .dropUni, s => ((), { s with uni := s.uni.dropSender })
  | .dropBidi, s => ((), { s with bidi := s.bidi.dropSender })
  | .getStreamId _, s => (choice.rawId, s)
  | .heldStream, s => (s.heldStream, s)
  | .fromRaw key, s => ((), { s with heldStream := some key, streamOwned := true })
  | .closeStream key, s =>
      ((), { s with heldStream := s.heldStream.filter (fun held => held != key) })
  | .closeOpening _, s => ((), s)
  | .sendUni key, s =>
      let sent := s.uni.unboundedSend (some key)
      (sent.1, { s with
        uni := sent.2
        heldStream := if sent.1 then none else s.heldStream })
  | .sendBidi key, s =>
      let sent := s.bidi.unboundedSend (some key)
      (sent.1, { s with
        bidi := sent.2
        heldStream := if sent.1 then none else s.heldStream })
  | .pollUni, s => (s.uni.pollNext.1, { s with uni := s.uni.pollNext.2 })
  | .pollBidi, s => (s.bidi.pollNext.1, { s with bidi := s.bidi.pollNext.2 })
  | .submitOpenStart _, s =>
      match choice.result with
      | .ok () => (.ok (.opened s.openedCount), { s with openedCount := s.openedCount + 1 })
      | .error status => (.error status, s)
  | .holder opener uni, s => ((s.opener opener).holder uni, s)
  | .setHolder opener uni key, s =>
      ((), { s with
        opener := Function.update s.opener opener ((s.opener opener).setHolder uni key) })
  | .submitConnShutdown _, s => ((), s)

/-- Operations on what belongs to one stream. `endReceive` marks the receive terminal as
sent and takes the sender: nothing in between can panic. -/
inductive StreamOp where
  -- the callback context
  | isPoisoned
  | panicPoint (k : Nat)
  | setPoisoned
  | forceShutdown (code : Nat)
  | resolveStart (result : Except Status Nat)
  | dropStart
  | sendEvent (event : SendEvent)
  | dropSend
  | receiveTerminalSent
  | receiveIsSome
  | admitIndication (bytes : List UInt8)
  | sendReceive (event : ReceiveEvent)
  | endReceive
  | dropReceive
  -- the send slot and the buffers
  | loadWinner
  | publishSend (candidate : SendTerminal)
  | boxSendBuffer (buffer : SendBuffer)
  | dropBox (context : BufferId)
  -- the send half
  | finishStarted
  | transition (input : SendInput)
  | pollSendChannel
  | streamSend (context : BufferId) (buffer : SendBuffer)
  | submitGraceful
  | submitReset (code : Nat)
  | dropSendHalf
  -- the receive half
  | receiveClosed
  | recvTerminal
  | pollReceive
  | storeRecvTerminal (terminal : ReceiveTerminal)
  | onDrained (len : Nat)
  | submitReceiveComplete (len : Nat)
  | submitStopSending (code : Nat)
  | closeReceiveLocally
  | dropRecvHalf
  -- the opening stream
  | pollStart

@[reducible] def StreamOp.Reply : StreamOp → Type
  | .isPoisoned | .panicPoint _ | .receiveTerminalSent | .receiveIsSome | .finishStarted
  | .receiveClosed => Bool
  | .admitIndication _ => Admit
  | .loadWinner => Option SendTerminal
  | .publishSend _ => SendTerminal
  | .boxSendBuffer _ => BufferId
  | .transition _ => SendCommand
  | .pollSendChannel => SendPoll
  | .streamSend _ _ | .submitGraceful | .submitReset _ => Except Status Unit
  | .recvTerminal => Option ReceiveTerminal
  | .pollReceive => Poll (Option ReceiveEvent)
  | .onDrained _ => Option Nat
  | .pollStart => Poll (Option (Except Status Nat))
  | _ => Unit

/-- The send channel as the reducer sees it. -/
def sendPoll : Poll (Option SendEvent) → SendPoll
  | .pending => .pending
  | .ready (some event) => .event event
  | .ready none => .closed

/-- The publication inside `admitIndication`: an empty indication has nothing to publish. -/
def publishData (bytes : List UInt8) (channel : Channel ReceiveEvent) :
    Bool × Channel ReceiveEvent :=
  if bytes.isEmpty then (true, channel) else channel.unboundedSend (.data bytes)

def StreamOp.perform (budget : RecvBudget) (choice : Choice) :
    (op : StreamOp) → StreamState → op.Reply × StreamState
  | .isPoisoned, s => (s.poisoned, s)
  | .panicPoint _, s => (choice.panics, s)
  | .setPoisoned, s => ((), { s with poisoned := true })
  | .forceShutdown _, s => ((), s)
  | .resolveStart result, s => ((), { s with start := s.start.send result })
  | .dropStart, s => ((), { s with start := s.start.drop })
  | .sendEvent event, s => ((), { s with send := (s.send.unboundedSend event).2 })
  | .dropSend, s => ((), { s with send := s.send.dropSender })
  | .receiveTerminalSent, s => (s.receiveTerminalSent, s)
  | .receiveIsSome, s => (s.receive.sender, s)
  | .admitIndication bytes, s =>
      let published := publishData bytes s.receive
      let admitted := budget.admitIndication s.recvState bytes.length (!bytes.isEmpty) published.1
      (admitted.1, { s with receive := published.2, recvState := admitted.2 })
  | .sendReceive event, s => ((), { s with receive := (s.receive.unboundedSend event).2 })
  | .endReceive, s =>
      ((), { s with receiveTerminalSent := true, receive := s.receive.dropSender })
  | .dropReceive, s => ((), { s with receive := s.receive.dropSender })
  | .loadWinner, s => (s.sendTerminal, s)
  | .publishSend candidate, s =>
      ((MsQuicH3.publishSend s.sendTerminal candidate).1,
        { s with sendTerminal := (MsQuicH3.publishSend s.sendTerminal candidate).2 })
  | .boxSendBuffer buffer, s =>
      (s.nextBuffer,
        { s with nextBuffer := s.nextBuffer + 1, boxes := s.boxes ++ [(s.nextBuffer, buffer)] })
  | .dropBox context, s =>
      ((), { s with boxes := s.boxes.filter (fun box => box.1 != context) })
  | .finishStarted, s => (s.reducer.finishStarted, s)
  | .transition input, s =>
      ((MsQuicH3.transition s.reducer input).1,
        { s with reducer := (MsQuicH3.transition s.reducer input).2 })
  | .pollSendChannel, s => (sendPoll s.send.pollNext.1, { s with send := s.send.pollNext.2 })
  | .streamSend context _, s =>
      match choice.result with
      | .ok () => (.ok (), { s with outstanding := s.outstanding ++ [context] })
      | .error status => (.error status, s)
  | .submitGraceful, s => (choice.result, s)
  | .submitReset _, s => (choice.result, s)
  | .dropSendHalf, s => ((), { s with send := s.send.dropReceiver })
  | .receiveClosed, s => (s.receiveClosed, s)
  | .recvTerminal, s => (s.recvTerminal, s)
  | .pollReceive, s => (s.receive.pollNext.1, { s with receive := s.receive.pollNext.2 })
  | .storeRecvTerminal terminal, s => ((), { s with recvTerminal := some terminal })
  | .onDrained len, s =>
      ((budget.onDrained s.recvState len).1,
        { s with recvState := (budget.onDrained s.recvState len).2 })
  | .submitReceiveComplete _, s => ((), s)
  | .submitStopSending _, s => ((), s)
  | .closeReceiveLocally, s => ((), { s with receiveClosed := true })
  | .dropRecvHalf, s => ((), { s with receive := s.receive.dropReceiver })
  | .pollStart, s => (s.start.poll.1, { s with start := s.start.poll.2 })

inductive Op where
  | conn (op : ConnOp)
  | stream (key : StreamKey) (op : StreamOp)

@[reducible] def Op.Reply : Op → Type
  | .conn op => op.Reply
  | .stream _ op => op.Reply

def Op.perform (config : H3Config) (choice : Choice) : (op : Op) → State → op.Reply × State
  | .conn op, s => op.perform choice s
  | .stream key op, s =>
      ((op.perform config.recvBudget choice (s.stream key)).1,
        s.setStream key (op.perform config.recvBudget choice (s.stream key)).2)

@[reducible] def signature : Signature where
  Op := Op
  Reply := Op.Reply

/-- Code of one of the adapter's threads. -/
abbrev Code (α : Type) := Program signature α

def onConn (op : ConnOp) : Code op.Reply := Program.perform (S := signature) (.conn op)

def onStream (key : StreamKey) (op : StreamOp) : Code op.Reply :=
  Program.perform (S := signature) (.stream key op)

theorem onConn_eq (op : ConnOp) :
    onConn op = .call (S := signature) (.conn op) .done := rfl

theorem onStream_eq (key : StreamKey) (op : StreamOp) :
    onStream key op = .call (S := signature) (.stream key op) .done := rfl

end MsQuicH3
