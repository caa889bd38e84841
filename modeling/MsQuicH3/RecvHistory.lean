import MsQuicH3.RecvReader

/-! What native code told a receive path, event by event: the bytes indicated before
the first terminal, and that terminal. The callback carries it to the channel. -/
namespace MsQuicH3

open Concurrency

/-- How a receive path ends. A stream shutdown that the connection did not cause
closes the channel without a word. -/
inductive Ending where
  | fin
  | reset (code : Nat)
  | connection (reason : ConnectionTerminal)
  | closed
  | panicked
  deriving DecidableEq, Repr

/-- The terminal event behind the data, if there is one. -/
def Ending.event : Ending → Option ReceiveEvent
  | .fin => some .fin
  | .reset code => some (.reset code)
  | .connection reason => some (.connection reason)
  | .closed => none
  | .panicked => some (.internal "stream callback panicked")

/-- The outcome that reports an ending, given what the connection slot holds by then. -/
def Ending.outcome (slot : Option ConnectionTerminal) : Ending → ReceiveTerminal
  | .fin => .fin
  | .reset code => .reset code
  | .connection reason => .connection (slot.getD reason)
  | .closed => .internal "receive channel closed without a terminal reason"
  | .panicked => .internal "stream callback panicked"

def StreamEvent.bytes : StreamEvent → List UInt8
  | .receive buffers _ => buffers.flatten
  | _ => []

def StreamEvent.ending : StreamEvent → Option Ending
  | .receive _ fin => if fin then some .fin else none
  | .peerSendShutdown => some .fin
  | .peerSendAborted code => some (.reset code)
  | .shutdownComplete connectionShutdown byApp closedRemotely code status =>
      some (if connectionShutdown then
        .connection (classifyConnShutdown byApp closedRemotely code status) else .closed)
  | _ => none

/-- The bytes indicated before the first terminal, and that terminal. -/
structure History where
  bytes : List UInt8 := []
  ending : Option Ending := none
  deriving DecidableEq

/-- Only the first terminal counts, and nothing behind it. -/
def History.after (history : History) (event : StreamEvent) : History :=
  if history.ending.isSome then history else ⟨history.bytes ++ event.bytes, event.ending⟩

def History.panicked (history : History) : History :=
  if history.ending.isSome then history else { history with ending := some .panicked }

/-- Operations of a callback that only look. -/
def Op.looks : Op → Bool
  | .stream _ .isPoisoned | .stream _ (.panicPoint _) | .stream _ .receiveTerminalSent
  | .stream _ .receiveIsSome => true
  | _ => false

/-- The history of a receive path, whether the callback in progress has had an effect
yet, and whether a panic ever struck one that had. -/
structure Journal where
  history : History := {}
  acted : Bool := false
  late : Bool := false
  deriving DecidableEq

/-- An event takes effect with the first operation of its callback that does more than
look. -/
def Journal.act (journal : Journal) (event : StreamEvent) : Journal :=
  if journal.acted then journal
  else { journal with history := journal.history.after event, acted := true }

def Journal.strike (journal : Journal) : Journal where
  history := journal.history.panicked
  acted := true
  late := journal.late || journal.acted

def Journal.step (key : StreamKey) (journal : Journal) : AdapterLabel → Journal
  | .begun (.stream other _) => if other = key then { journal with acted := false } else journal
  | .event ⟨.stream other _, .stream _ (.panicPoint _), struck, _, _⟩ =>
      if other = key && struck then journal.strike else journal
  | .event ⟨.stream other event, op, _, _, _⟩ =>
      if other = key && !op.looks then journal.act event else journal
  | _ => journal

def journal (key : StreamKey) (trace : List AdapterLabel) : Journal :=
  trace.foldl (Journal.step key) {}

def history (key : StreamKey) (trace : List AdapterLabel) : History := (journal key trace).history

theorem journal_snoc (key : StreamKey) (trace : List AdapterLabel) (label : AdapterLabel) :
    journal key (trace ++ [label]) = (journal key trace).step key label := by
  rw [journal, List.foldl_append]
  rfl

theorem History.after_ended {h : History} (hEnded : h.ending.isSome) (event : StreamEvent) :
    h.after event = h := if_pos hEnded

theorem History.panicked_ended {h : History} (hEnded : h.ending.isSome) : h.panicked = h :=
  if_pos hEnded

theorem History.after_prefix (h : History) (event : StreamEvent) : h.bytes <+: (h.after event).bytes := by
  unfold after
  split
  · exact List.prefix_rfl
  · exact List.prefix_append _ _

theorem Journal.act_ended {j : Journal} (hEnded : j.history.ending.isSome) (event : StreamEvent) :
    (j.act event).history = j.history := by
  unfold Journal.act
  split
  · rfl
  · exact History.after_ended hEnded event

/-- A history that has ended stays. -/
theorem Journal.step_ended {j : Journal} (hEnded : j.history.ending.isSome) (key : StreamKey)
    (label : AdapterLabel) : (j.step key label).history = j.history := by
  unfold Journal.step
  split
  · split <;> rfl
  · split
    · exact History.panicked_ended hEnded
    · rfl
  · split
    · exact Journal.act_ended hEnded _
    · rfl
  · rfl

/-- A panic that struck late stays in the books. -/
theorem Journal.step_late {j : Journal} (hLate : j.late = true) (key : StreamKey)
    (label : AdapterLabel) : (j.step key label).late = true := by
  unfold Journal.step
  split
  · split <;> exact hLate
  · split
    · simp [Journal.strike, hLate]
    · exact hLate
  · split
    · unfold Journal.act
      split <;> exact hLate
    · exact hLate
  · exact hLate

theorem history_settled {key : StreamKey} {trace : List AdapterLabel} (label : AdapterLabel)
    (h : (history key trace).ending.isSome) :
    history key (trace ++ [label]) = history key trace := by
  rw [history, journal_snoc, Journal.step_ended h]
  rfl

/-- The labels of other requests say nothing about a stream's callback. -/
theorem Journal.step_foreign {key : StreamKey} {label : AdapterLabel}
    (h : ∀ event, label.request ≠ .stream key event) (j : Journal) : j.step key label = j := by
  unfold Journal.step
  split
  next other event =>
    rw [if_neg]
    rintro rfl
    exact h event rfl
  next other event target k struck before after =>
    have hOther : other ≠ key := by
      rintro rfl
      exact h event rfl
    simp [hOther]
  next other event op reply before after hPoint =>
    have hOther : other ≠ key := by
      rintro rfl
      exact h event rfl
    simp [hOther]
  · rfl

theorem Journal.step_returned (key : StreamKey) (j : Journal) (call : AdapterCall) :
    j.step key (.finished call) = j := rfl

/-- One operation of a callback of the stream that is no panic point. -/
theorem Journal.step_op {key : StreamKey} {event : StreamEvent} {op : Op} {reply : op.Reply}
    {before after : State} (hQuiet : ∀ target k, op ≠ .stream target (.panicPoint k)) (j : Journal) :
    j.step key (.event ⟨.stream key event, op, reply, before, after⟩) =
      if op.looks then j else j.act event := by
  cases op with
  | conn op => simp [Journal.step, Op.looks]
  | stream target op =>
      cases op with
      | panicPoint k => exact (hQuiet target k rfl).elim
      | _ => simp [Journal.step, Op.looks]

/-- The terminal events of a channel. -/
def endings (channel : Channel ReceiveEvent) : List ReceiveEvent :=
  channel.queue.filter fun event => event.chunk.isNone

def StreamStep.ends : StreamStep → Option ReceiveEvent
  | ⟨.pollReceive, .ready (some event)⟩ => if event.chunk.isNone then some event else none
  | _ => none

/-- The terminal events the reader took. -/
def ended (log : List StreamStep) : List ReceiveEvent := log.filterMap StreamStep.ends

/-- What the callback of a stream and its history say of the receive path. -/
structure RecvView where
  sender : Bool
  sent : Bool
  admitted : List (List UInt8)
  tail : List ReceiveEvent
  journal : Journal

def recvView (key : StreamKey) (w : AdapterWorld) : RecvView where
  sender := (w.state.stream key).receive.sender
  sent := (w.state.stream key).receiveTerminalSent
  admitted := admitted (streamLog key w.trace)
  tail := ended (streamLog key w.trace) ++ endings (w.state.stream key).receive
  journal := journal key w.trace

/-- The view once an event of the callback has taken effect. -/
def RecvView.start (event : StreamEvent) (view : RecvView) : RecvView :=
  { view with journal := view.journal.act event }

/-- What one operation does to the receive path while its reader is there. -/
def RecvView.perform (view : RecvView) : (op : StreamOp) → op.Reply → RecvView
  | .admitIndication bytes, _ =>
      if view.sender && !bytes.isEmpty then { view with admitted := view.admitted ++ [bytes] } else view
  | .sendReceive event, _ =>
      if view.sender then { view with tail := view.tail ++ [event] } else view
  | .endReceive, _ => { view with sent := true, sender := false }
  | .dropReceive, _ => { view with sender := false }
  | _, _ => view

section View

variable {config : H3Config} {key : StreamKey} {w : AdapterWorld} {choice : Choice}
  {request : Request}

/-- The view of a stream after an operation, part by part. -/
theorem recvView_stream (op : StreamOp) :
    recvView key ((adapter config).advance choice request (.stream key op) w) =
      ⟨(op.perform config.recvBudget choice (w.state.stream key)).2.receive.sender,
        (op.perform config.recvBudget choice (w.state.stream key)).2.receiveTerminalSent,
        admitted (streamLog key w.trace) ++ (StreamStep.admits
          ⟨op, (op.perform config.recvBudget choice (w.state.stream key)).1⟩).toList,
        ended (streamLog key w.trace) ++ (StreamStep.ends
          ⟨op, (op.perform config.recvBudget choice (w.state.stream key)).1⟩).toList ++
          endings (op.perform config.recvBudget choice (w.state.stream key)).2.receive,
        (journal key w.trace).step key
          (.event ((adapter config).event choice request (.stream key op) w.state))⟩ := by
  rw [recvView, Machine.advance_state, adapter_perform, Op.perform_stream_self, streamLog_event,
    admitted, ended, filterMap_snoc, filterMap_snoc, Machine.advance_trace, journal_snoc]
  rfl

/-- A poll only moves a terminal event from the channel to the reader. -/
theorem endings_poll (channel : Channel ReceiveEvent) :
    (StreamStep.ends ⟨.pollReceive, channel.pollNext.1⟩).toList ++ endings channel.pollNext.2 =
      endings channel := by
  rw [endings, Channel.pollNext_queue, endings]
  cases hQueue : channel.queue with
  | nil =>
      have hReply : StreamStep.ends ⟨.pollReceive, channel.pollNext.1⟩ = none := by
        rw [Channel.pollNext, hQueue]
        cases channel.sender <;> rfl
      rw [hReply]
      rfl
  | cons event queue =>
      have hReply : StreamStep.ends ⟨.pollReceive, channel.pollNext.1⟩ =
          if event.chunk.isNone then some event else none := by
        rw [Channel.pollNext, hQueue]
        rfl
      rw [hReply, List.tail_cons, List.filter_cons]
      split <;> rfl

theorem endings_send (event : ReceiveEvent) (channel : Channel ReceiveEvent)
    (hAlive : channel.receiver = true) (hEnd : event.chunk.isNone = true) :
    endings (channel.unboundedSend event).2 =
      endings channel ++ if channel.sender then [event] else [] := by
  rw [endings, Channel.unboundedSend_queue, hAlive, Bool.and_true, List.filter_append]
  congr 1
  split
  · simp [hEnd]
  · rfl

/-- While the reader is there, an operation on the stream does what it does to the
view, and the journal takes note of it. -/
theorem recvView_event {op : StreamOp}
    (hAlive : (w.state.stream key).receive.receiver = true)
    (hPlain : (Op.stream key op).plain = true) (hKeep : op ≠ .dropRecvHalf) :
    recvView key ((adapter config).advance choice request (.stream key op) w) =
      { (recvView key w).perform op
          (op.perform config.recvBudget choice (w.state.stream key)).1 with
        journal := (journal key w.trace).step key
          (.event ((adapter config).event choice request (.stream key op) w.state)) } := by
  rw [recvView_stream]
  cases op with
  | admitIndication bytes =>
      rcases admit_cases config.recvBudget choice bytes (w.state.stream key) with
        ⟨hBytes, hClosed, hPerform⟩ | ⟨hOpen, hPerform⟩
      · have hSender : (w.state.stream key).receive.sender = false := by
          rw [hAlive, Bool.and_true] at hClosed
          exact hClosed
        rw [hPerform]
        simp [recvView, RecvView.perform, StreamStep.admits, StreamStep.ends, hSender]
      · rw [hPerform]
        dsimp only
        rw [admits_published]
        cases hBytes : bytes.isEmpty with
        | true => simp [recvView, RecvView.perform, StreamStep.ends, hBytes, endings]
        | false =>
            have hSender : (w.state.stream key).receive.sender = true :=
              (Bool.and_eq_true_iff.1 (hOpen hBytes)).1
            simp [recvView, RecvView.perform, StreamStep.ends, hBytes, endings, hSender,
              ReceiveEvent.chunk]
  | sendReceive event =>
      have hEnd : event.chunk.isNone = true := by
        cases event with
        | data bytes => cases hPlain
        | _ => rfl
      rw [StreamOp.perform_receive, StreamOp.perform_receiveTerminalSent]
      dsimp only
      rw [endings_send event _ hAlive hEnd, Channel.unboundedSend_sender]
      cases hSender : (w.state.stream key).receive.sender <;>
        simp [recvView, RecvView.perform, StreamStep.admits, StreamStep.ends, hSender]
  | pollReceive =>
      have hTail := endings_poll (w.state.stream key).receive
      simp only [StreamOp.perform, Channel.pollNext_sender, List.append_assoc, hTail]
      simp [recvView, RecvView.perform, StreamStep.admits]
  | dropRecvHalf => exact (hKeep rfl).elim
  | _ =>
      rw [StreamOp.perform_receive, StreamOp.perform_receiveTerminalSent]
      simp [recvView, RecvView.perform, StreamStep.admits, StreamStep.ends, endings]

end View

/-- Everything indicated before the first terminal was admitted, and the channel
carries that terminal, if it carries any. -/
def RecvView.Settled (view : RecvView) : Prop :=
  ∃ ending : Ending, view.journal.history.ending = some ending ∧ view.tail = ending.event.toList ∧
    view.admitted.flatten = view.journal.history.bytes

structure RecvView.Sound (view : RecvView) : Prop where
  delivered : view.admitted.flatten <+: view.journal.history.bytes
  announced : view.tail ≠ [] → view.Settled
  closed : view.sender = false → view.Settled

/-- The callback has closed the channel, or it has still to admit `data` and then to
announce `goal`. -/
def RecvView.Phase (data : List UInt8) (goal : Option Ending) (view : RecvView) : Prop :=
  view.sender = false ∨
    (view.sender = true ∧ view.sent = false ∧ view.tail = [] ∧
      view.journal.history = ⟨view.admitted.flatten ++ data, goal⟩)

/-- In a receive channel the data stands before the terminal events. -/
def Ordered (channel : Channel ReceiveEvent) : Prop :=
  channel.queue.Pairwise fun first second => second.chunk.isSome = true → first.chunk.isSome = true

section Ordered

variable {channel : Channel ReceiveEvent}

theorem Ordered.poll (h : Ordered channel) : Ordered channel.pollNext.2 := by
  rw [Ordered, Channel.pollNext_queue]
  exact h.tail

theorem Ordered.send (h : Ordered channel) {event : ReceiveEvent}
    (hLast : event.chunk.isSome = true → endings channel = []) :
    Ordered (channel.unboundedSend event).2 := by
  rw [Ordered, Channel.unboundedSend_queue]
  split
  · rw [List.pairwise_append]
    refine ⟨h, List.pairwise_singleton _ _, fun first hFirst second hSecond hData => ?_⟩
    obtain rfl := List.mem_singleton.1 hSecond
    have hNone := List.filter_eq_nil_iff.1 (hLast hData) first hFirst
    cases hChunk : first.chunk with
    | some bytes => rfl
    | none => exact (hNone (by rw [hChunk]; rfl)).elim
  · rw [List.append_nil]
    exact h

/-- Behind a terminal event there is no data. -/
theorem Ordered.queued_nil (h : Ordered channel) {event : ReceiveEvent}
    (hHead : channel.queue.head? = some event) (hEnd : event.chunk = none) :
    queued channel = [] := by
  rw [queued, List.filterMap_eq_nil_iff]
  intro later hLater
  cases hQueue : channel.queue with
  | nil => simp [hQueue] at hHead
  | cons head rest =>
      rw [Ordered, hQueue, List.pairwise_cons] at h
      rw [hQueue, List.head?_cons, Option.some.injEq] at hHead
      subst hHead
      rw [hQueue] at hLater
      rcases List.mem_cons.1 hLater with rfl | hLater
      · exact hEnd
      · rw [← Option.not_isSome_iff_eq_none]
        intro hData
        have hHeadData := h.1 later hLater hData
        rw [hEnd] at hHeadData
        cases hHeadData

end Ordered

/-- The order of the channel after any operation, when no data is sent behind a terminal. -/
theorem ordered_perform {s : StreamState} (h : Ordered s.receive) (budget : RecvBudget)
    (choice : Choice) (op : StreamOp)
    (hOpen : ∀ event : ReceiveEvent, event.chunk.isSome = true → s.receive.sender = true →
      (op = .sendReceive event ∨ ∃ bytes, op = .admitIndication bytes) →
      endings s.receive = []) :
    Ordered (op.perform budget choice s).2.receive := by
  have hSent : ∀ event : ReceiveEvent, (op = .sendReceive event ∨ ∃ bytes, op = .admitIndication bytes) →
      Ordered (s.receive.unboundedSend event).2 := by
    intro event hOp
    cases hSender : s.receive.sender with
    | true => exact h.send fun hData => hOpen event hData hSender hOp
    | false =>
        have hSame : (s.receive.unboundedSend event).2 = s.receive := by
          rw [Channel.unboundedSend, hSender]
          rfl
        rw [hSame]
        exact h
  rw [StreamOp.perform_receive]
  cases op with
  | admitIndication bytes =>
      dsimp only [publishData]
      split
      · exact h
      · exact hSent _ (.inr ⟨bytes, rfl⟩)
  | sendReceive event => exact hSent event (.inl rfl)
  | pollReceive => exact h.poll
  | dropRecvHalf => exact List.Pairwise.nil
  | _ => exact h

end MsQuicH3
