import MsQuicH3.RecvCallback
import MsQuicH3.CauseOutline

/-! The bytes a live reader is handed. They are what was indicated before the first
terminal, from the beginning and without a gap; the terminal comes behind all of them
and stays. -/
namespace MsQuicH3

open Concurrency

/-- What a poll of a receive half answers. -/
def Result.answer : Result → Option (Poll ReceiveOutcome)
  | .pollData polled => some polled
  | _ => none

def answer (key : StreamKey) : AdapterLabel → Option (Poll ReceiveOutcome)
  | .finished ⟨.recv other .pollData, _, result⟩ => if other = key then result.answer else none
  | _ => none

/-- The answers of a receive half, in order. -/
def answers (key : StreamKey) (trace : List AdapterLabel) : List (Poll ReceiveOutcome) :=
  trace.filterMap (answer key)

def readyOutcome : Poll ReceiveOutcome → Option ReceiveOutcome
  | .ready outcome => some outcome
  | .pending => none

/-- The outcomes among some answers. -/
def outcomes (polls : List (Poll ReceiveOutcome)) : List ReceiveOutcome := polls.filterMap readyOutcome

theorem outcomes_append (first second : List (Poll ReceiveOutcome)) :
    outcomes (first ++ second) = outcomes first ++ outcomes second := List.filterMap_append

/-- Everything indicated before the first terminal was taken, and `terminal` reports it. -/
def Exhausted (key : StreamKey) (terminal : ReceiveTerminal) (w : AdapterWorld) : Prop :=
  ∃ ending slot, (history key w.trace).ending = some ending ∧ ending.outcome slot = terminal ∧
    (dequeued (streamLog key w.trace)).flatten = (history key w.trace).bytes

/-- The chunks answered are the first ones taken; behind them stands one terminal, repeated. -/
def Integral (key : StreamKey) (w : AdapterWorld) : Prop :=
  ∃ polls chunks n terminal, answers key w.trace =
      polls ++ List.replicate n (.ready (.terminal terminal)) ∧
    outcomes polls = chunks.map .chunk ∧ chunks <+: dequeued (streamLog key w.trace) ∧
    (0 < n → chunks = dequeued (streamLog key w.trace) ∧ Exhausted key terminal w)

/-- A reader that holds no chunk: with `latest` it has been told everything it took. -/
def Told (key : StreamKey) (latest : Option (Poll ReceiveOutcome)) (w : AdapterWorld) : Prop :=
  match (w.state.stream key).recvTerminal with
  | none => ended (streamLog key w.trace) = [] ∧
      outcomes (answers key w.trace ++ latest.toList) =
        (dequeued (streamLog key w.trace)).map .chunk
  | some terminal => Exhausted key terminal w ∧ ∃ polls n,
      answers key w.trace ++ latest.toList =
        polls ++ List.replicate n (.ready (.terminal terminal)) ∧
      outcomes polls = (dequeued (streamLog key w.trace)).map .chunk

/-- Nothing that was answered, taken or settled has changed. -/
structure Alike (key : StreamKey) (w w' : AdapterWorld) : Prop where
  answered : answers key w'.trace = answers key w.trace
  taken : dequeued (streamLog key w'.trace) = dequeued (streamLog key w.trace)
  settled : (history key w.trace).ending.isSome → history key w'.trace = history key w.trace

/-- What the other threads leave alone. -/
structure IntegralRely (key : StreamKey) (w w' : AdapterWorld) : Prop extends Alike key w w' where
  ended : ended (streamLog key w'.trace) = ended (streamLog key w.trace)
  terminal : (w'.state.stream key).recvTerminal = (w.state.stream key).recvTerminal

theorem Alike.trans {key : StreamKey} {w w' w'' : AdapterWorld} (left : Alike key w w')
    (right : Alike key w' w'') : Alike key w w'' where
  answered := right.answered.trans left.answered
  taken := right.taken.trans left.taken
  settled h := by
    have hFirst := left.settled h
    rw [← hFirst] at h
    exact (right.settled h).trans hFirst

theorem IntegralRely.trans {key : StreamKey} {w w' w'' : AdapterWorld} (left : IntegralRely key w w')
    (right : IntegralRely key w' w'') : IntegralRely key w w'' where
  toAlike := left.toAlike.trans right.toAlike
  ended := right.ended.trans left.ended
  terminal := right.terminal.trans left.terminal

/-- What is known of the stream at every moment. -/
structure Watched (config : H3Config) (key : StreamKey) (w : AdapterWorld) : Prop where
  attended : Attended key w
  carried : Carried key w
  ledger : RecvLedgered config key w

section Reader

variable {config : H3Config} {key : StreamKey} {w w' : AdapterWorld} {latest : Option (Poll ReceiveOutcome)}

theorem Exhausted.congr {terminal : ReceiveTerminal} (h : Exhausted key terminal w)
    (hTaken : dequeued (streamLog key w'.trace) = dequeued (streamLog key w.trace))
    (hSettled : (history key w.trace).ending.isSome → history key w'.trace = history key w.trace) :
    Exhausted key terminal w' := by
  obtain ⟨ending, slot, hEnding, hOutcome, hBytes⟩ := h
  have hHistory := hSettled (by rw [hEnding]; rfl)
  refine ⟨ending, slot, ?_, hOutcome, ?_⟩
  · rw [hHistory, hEnding]
  · rw [hHistory, hTaken, hBytes]

theorem Integral.congr (h : Integral key w) (hAlike : Alike key w w') : Integral key w' := by
  obtain ⟨polls, chunks, n, terminal, hAnswers, hPolls, hPrefix, hEnd⟩ := h
  refine ⟨polls, chunks, n, terminal, ?_, hPolls, ?_, fun hPos => ?_⟩
  · rw [hAlike.answered, hAnswers]
  · rw [hAlike.taken]
    exact hPrefix
  · obtain ⟨hChunks, hExhausted⟩ := hEnd hPos
    exact ⟨by rw [hAlike.taken, hChunks], hExhausted.congr hAlike.taken hAlike.settled⟩

theorem Told.congr (h : Told key latest w) (hRely : IntegralRely key w w') : Told key latest w' := by
  unfold Told at h ⊢
  rw [hRely.terminal, hRely.taken, hRely.ended, hRely.answered]
  cases hTerminal : (w.state.stream key).recvTerminal with
  | none =>
      rw [hTerminal] at h
      exact h
  | some terminal =>
      rw [hTerminal] at h
      exact ⟨h.1.congr hRely.taken hRely.settled, h.2⟩

/-- A reader that was told everything is in order. -/
theorem Told.integral (h : Told key none w) : Integral key w := by
  unfold Told at h
  rw [Option.toList_none, List.append_nil] at h
  split at h
  · refine ⟨_, _, 0, .fin, ?_, h.2, List.prefix_rfl, fun h => absurd h (lt_irrefl 0)⟩
    rw [List.replicate_zero, List.append_nil]
  next terminal _ =>
    obtain ⟨hExhausted, polls, n, hAnswers, hPolls⟩ := h
    exact ⟨polls, _, n, terminal, hAnswers, hPolls, List.prefix_rfl, fun _ => ⟨rfl, hExhausted⟩⟩

theorem ends_ofRecvHalf {step : StreamStep} {event : ReceiveEvent}
    (h : StreamStep.ends step = some event) : step.1.ofRecvHalf = true := by
  unfold StreamStep.ends at h
  split at h
  · rfl
  · cases h

theorem ended_congr {log log' : List StreamStep} (h : readerLog log' = readerLog log) :
    ended log' = ended log := by
  have hEnds := filterMap_readerLog (fun _ _ => ends_ofRecvHalf)
  rw [ended, ← hEnds, h, hEnds, ended]

theorem answers_snoc (trace : List AdapterLabel) (label : AdapterLabel) :
    answers key (trace ++ [label]) = answers key trace ++ (answer key label).toList :=
  filterMap_snoc _ _ _

theorem alike_begun (request : Request) (state : State) :
    Alike key w (w.after (.begun request) state) where
  answered := by
    rw [World.after_trace, answers_snoc]
    exact List.append_nil _
  taken := by rw [World.after_trace, streamLog_begun]
  settled := by
    rw [World.after_trace]
    exact history_settled _

theorem rely_begun {request : Request} {state : State}
    (hDeliver : deliver request w.state = some state) :
    IntegralRely key w (w.after (.begun request) state) where
  toAlike := alike_begun request state
  ended := by rw [World.after_trace, streamLog_begun]
  terminal := deliver_stream StreamState.recvTerminal (fun _ _ => rfl) hDeliver key

theorem answer_foreign {label : AdapterLabel} (h : label.request.owner ≠ .recvHalf key) :
    answer key label = none := by
  unfold answer
  split
  next other events result =>
    rw [if_neg]
    rintro rfl
    exact h rfl
  · rfl

theorem rely_finished {call : AdapterCall} (hOwner : call.request.owner ≠ .recvHalf key) :
    IntegralRely key w (w.after (.finished call) w.state) where
  answered := by
    have hOther : answer key (.finished call) = none := answer_foreign hOwner
    rw [World.after_trace, answers_snoc, hOther]
    exact List.append_nil _
  taken := by rw [World.after_trace, streamLog_finished]
  settled := by
    rw [World.after_trace]
    exact history_settled _
  ended := by rw [World.after_trace, streamLog_finished]
  terminal := rfl

/-- An operation of another thread. -/
theorem rely_event {request : Request} {op : Op} (choice : Choice) (hPermits : permits request op)
    (hOwner : request.owner ≠ .recvHalf key) :
    IntegralRely key w ((adapter config).advance choice request op w) := by
  have hLog : RecvRely key w ((adapter config).advance choice request op w) :=
    readerLog_event choice hPermits hOwner
  refine ⟨⟨?_, (books_congr hLog).1, history_settled _⟩, ended_congr hLog, ?_⟩
  · rw [Machine.advance_trace, answers_snoc]
    exact List.append_nil _
  · rcases @advance_stream_cases config choice request w key op with
      ⟨own, rfl, hStream, -⟩ | ⟨-, hStream, -⟩
    · have hForeign := foreign_of_permits hPermits hOwner
      rw [hStream, StreamOp.perform_recvTerminal]
      cases own with
      | storeRecvTerminal terminal => cases hForeign
      | _ => rfl
    · rw [hStream]

theorem integral_stable (w w' : AdapterWorld)
    (h : (adapter config).Interference permits (.recvHalf key) w w')
    (hInv : Integral key w) : Integral key w' ∧ IntegralRely key w w' := by
  suffices hRely : IntegralRely key w w' from ⟨hInv.congr hRely.toAlike, hRely⟩
  cases h with
  | begun hOwner hDeliver => exact rely_begun hDeliver
  | event hOwner hPermits => exact rely_event _ hPermits hOwner
  | finished hOwner => exact rely_finished hOwner

theorem rely_conn {op : ConnOp} (choice : Choice) (request : Request) :
    IntegralRely key w ((adapter config).advance choice request (.conn op) w) := by
  rcases @advance_stream_cases config choice request w key (.conn op) with
    ⟨own, hOp, -⟩ | ⟨-, hStream, hLog⟩
  · cases hOp
  · refine ⟨⟨?_, by rw [hLog], history_settled _⟩, by rw [hLog], by rw [hStream]⟩
    rw [Machine.advance_trace, answers_snoc]
    exact List.append_nil _

/-- A returned call adds what it answered. -/
theorem Told.finish {call : RecvCall} {events : List AdapterEvent} {result : Result}
    (h : Told key (answer key (.finished ⟨.recv key call, [], result⟩)) w) :
    Told key none (w.after (.finished ⟨.recv key call, events, result⟩) w.state) := by
  have hAnswer : answer key (.finished ⟨.recv key call, events, result⟩) =
      answer key (.finished ⟨.recv key call, [], result⟩) := by cases call <;> rfl
  have hLog := @streamLog_finished key w.trace ⟨.recv key call, events, result⟩
  unfold Told at h ⊢
  rw [World.after_state, World.after_trace, hLog, answers_snoc, hAnswer, Option.toList_none,
    List.append_nil]
  cases hTerminal : (w.state.stream key).recvTerminal with
  | none =>
      rw [hTerminal] at h
      exact h
  | some terminal =>
      rw [hTerminal] at h
      refine ⟨h.1.congr (by rw [World.after_trace, hLog]) ?_, h.2⟩
      rw [World.after_trace]
      exact history_settled _

/-- An operation of the reader that takes nothing from the channel. -/
theorem alike_op {op : StreamOp} (hOp : op ≠ .pollReceive) (choice : Choice) (request : Request) :
    Alike key w ((adapter config).advance choice request (.stream key op) w) where
  answered := by
    rw [Machine.advance_trace, answers_snoc]
    exact List.append_nil _
  taken := by
    rw [streamLog_event, dequeued, filterMap_snoc]
    cases op with
    | pollReceive => exact (hOp rfl).elim
    | _ => exact List.append_nil _
  settled := history_settled _

theorem rely_op {op : StreamOp} (hOp : op ≠ .pollReceive)
    (hStore : ∀ terminal, op ≠ .storeRecvTerminal terminal) (choice : Choice) (request : Request) :
    IntegralRely key w ((adapter config).advance choice request (.stream key op) w) where
  toAlike := alike_op hOp choice request
  ended := by
    rw [streamLog_event, ended, filterMap_snoc]
    cases op with
    | pollReceive => exact (hOp rfl).elim
    | _ => exact List.append_nil _
  terminal := by
    rw [Machine.advance_state, adapter_perform, Op.perform_stream_self, StreamOp.perform_recvTerminal]
    cases op with
    | storeRecvTerminal terminal => exact (hStore terminal rfl).elim
    | _ => rfl

end Reader

section Reader

variable {config : H3Config} {key : StreamKey} {call : RecvCall} {α : Type}
  {post : α → AdapterWorld → Prop} {w : AdapterWorld}

/-- Code of the reader, with what is known in between. -/
abbrev IntegralSafe {α : Type} (config : H3Config) (key : StreamKey) (call : RecvCall)
    (post : α → AdapterWorld → Prop) (code : Code α) (w : AdapterWorld) : Prop :=
  ∀ events, (adapter config).Safe (Watched config key) (Integral key) (IntegralRely key)
    (.recv key call) (fun result _ w => post result w) events code w

theorem integralSafe_done {result : α} (h : post result w) :
    IntegralSafe config key call post (.done result) w := fun _ => h

theorem IntegralSafe.bind {β : Type} {code : Code β} {f : β → Code α}
    {reached : β → AdapterWorld → Prop} (h : IntegralSafe config key call reached code w)
    (hNext : ∀ result w, reached result w → IntegralSafe config key call post (f result) w) :
    IntegralSafe config key call post (code >>= f) w := by
  intro events
  apply Machine.Safe.bind
  exact (h events).mono fun result events w hResult => hNext result w hResult events

/-- An operation that takes nothing from the channel. -/
theorem IntegralSafe.step {op : StreamOp} {next : op.Reply → Code α} (hOp : op ≠ .pollReceive)
    (hNext : ∀ choice w', IntegralRely key w w' → Watched config key w' →
      Watched config key ((adapter config).advance choice (.recv key call) (.stream key op) w') →
      IntegralSafe config key call post
        (next (op.perform config.recvBudget choice (w'.state.stream key)).1)
        ((adapter config).advance choice (.recv key call) (.stream key op) w')) :
    IntegralSafe config key call post (onStream key op >>= next) w := by
  intro events w' hRely hKnown hInv choice hAfter
  exact ⟨hInv.congr (alike_op hOp choice _), hNext choice w' hRely hKnown hAfter _⟩

/-- An operation of a reader that holds no chunk. -/
theorem IntegralSafe.look {op : StreamOp} {next : op.Reply → Code α} {latest : Option (Poll ReceiveOutcome)}
    (h : Told key latest w) (hOp : op ≠ .pollReceive)
    (hStore : ∀ terminal, op ≠ .storeRecvTerminal terminal)
    (hNext : ∀ choice (s : StreamState) w', Told key latest w' → s.receiveClosed = false →
      s.recvTerminal = (w'.state.stream key).recvTerminal →
      IntegralSafe config key call post (next (op.perform config.recvBudget choice s).1) w') :
    IntegralSafe config key call post (onStream key op >>= next) w := by
  apply IntegralSafe.step hOp
  intro choice w' hRely hKnown _
  have hOwn := @rely_op config key w' op hOp hStore choice (.recv key call)
  exact hNext choice (w'.state.stream key) _ ((h.congr hRely).congr hOwn) hKnown.attended.running
    hOwn.terminal.symm

theorem IntegralSafe.conn {op : ConnOp} {next : op.Reply → Code α}
    (hNext : ∀ reply w', IntegralRely key w w' → IntegralSafe config key call post (next reply) w') :
    IntegralSafe config key call post (onConn op >>= next) w := by
  intro events w' hRely _ hInv choice _
  have hOwn := @rely_conn config key w' op choice (.recv key call)
  exact ⟨hInv.congr hOwn.toAlike, hNext _ _ (hRely.trans hOwn) _⟩

/-- The half is not dropped and not told to stop. -/
theorem IntegralSafe.leave {op : StreamOp} {next : op.Reply → Code α}
    (hOp : op = .dropRecvHalf ∨ op = .closeReceiveLocally) :
    IntegralSafe config key call post (onStream key op >>= next) w := by
  apply IntegralSafe.step
  · rintro rfl
    rcases hOp with h | h <;> cases h
  · intro choice w' _ _ hAfter
    rcases hOp with rfl | rfl
    · have hReceiver := hAfter.attended.receiver
      rw [Machine.advance_state, adapter_perform, Op.perform_stream_self] at hReceiver
      cases hReceiver
    · have hRunning := hAfter.attended.running
      rw [Machine.advance_state, adapter_perform, Op.perform_stream_self] at hRunning
      cases hRunning

/-- The terminal of an exhausted channel is about to be stored. -/
structure Closing (key : StreamKey) (terminal : ReceiveTerminal) (w : AdapterWorld) : Prop where
  exhausted : Exhausted key terminal w
  answered : outcomes (answers key w.trace) = (dequeued (streamLog key w.trace)).map .chunk

theorem Closing.congr {terminal : ReceiveTerminal} {w' : AdapterWorld} (h : Closing key terminal w)
    (hAlike : Alike key w w') : Closing key terminal w' where
  exhausted := h.exhausted.congr hAlike.taken hAlike.settled
  answered := by rw [hAlike.answered, hAlike.taken, h.answered]

theorem integralSafe_storeAndConvert {terminal : ReceiveTerminal} (h : Closing key terminal w) :
    IntegralSafe config key .pollData
      (fun polled w => Told key (some polled) w)
      (storeAndConvert key terminal) w := by
  refine IntegralSafe.step nofun fun choice w' hRely _ _ => ?_
  have hStored := (h.congr hRely.toAlike).congr
    (@alike_op config key w' (.storeRecvTerminal terminal) nofun choice (.recv key .pollData))
  apply integralSafe_done
  have hTerminal : (((adapter config).advance choice (.recv key .pollData)
      (.stream key (.storeRecvTerminal terminal)) w').state.stream key).recvTerminal =
      some terminal := by
    rw [Machine.advance_state, adapter_perform, Op.perform_stream_self]
    rfl
  unfold Told
  rw [hTerminal]
  exact ⟨hStored.exhausted, _, 1, rfl, hStored.answered⟩

/-- The channel hands out no data any more: the reader took everything, and what ends
the channel is what ended the history. -/
theorem settled_poll {head : Option ReceiveEvent} (hKnown : Watched config key w)
    (hEnded : ended (streamLog key w.trace) = [])
    (hReply : (w.state.stream key).receive.pollNext.1 = .ready head)
    (hHead : ∀ event, head = some event → event.chunk = none) :
    ∃ ending : Ending, ending.event = head ∧ (history key w.trace).ending = some ending ∧
      (dequeued (streamLog key w.trace)).flatten = (history key w.trace).bytes := by
  have hTail : (recvView key w).tail = endings (w.state.stream key).receive := by
    change ended (streamLog key w.trace) ++ _ = _
    rw [hEnded, List.nil_append]
  have hTaken := hKnown.ledger.delivered hKnown.attended.receiver
  have hDone : queued (w.state.stream key).receive = [] ∧ (recvView key w).Settled ∧
      (endings (w.state.stream key).receive).head? = head := by
    cases head with
    | none =>
        obtain ⟨hQueue, hSender⟩ := Channel.pollNext_eq_none.1 hReply
        exact ⟨by rw [queued, hQueue]; rfl, hKnown.carried.steady.sound.closed hSender,
          by rw [endings, hQueue]; rfl⟩
    | some event =>
        have hFirst := Channel.pollNext_eq_some.1 hReply
        have hEnd := hHead event rfl
        have hEndings : (endings (w.state.stream key).receive).head? = some event := by
          cases hQueue : (w.state.stream key).receive.queue with
          | nil => simp [hQueue] at hFirst
          | cons first rest =>
              rw [hQueue, List.head?_cons, Option.some.injEq] at hFirst
              subst hFirst
              simp [endings, hQueue, hEnd]
        refine ⟨hKnown.carried.ordered.queued_nil hFirst hEnd,
          hKnown.carried.steady.sound.announced fun hNil => ?_, hEndings⟩
        rw [hTail] at hNil
        rw [hNil] at hEndings
        cases hEndings
  obtain ⟨hQueued, ⟨ending, hEnding, hLast, hBytes⟩, hEndings⟩ := hDone
  rw [hQueued, List.append_nil] at hTaken
  refine ⟨ending, ?_, hEnding, ?_⟩
  · rw [hTail] at hLast
    rw [hLast] at hEndings
    cases hEvent : ending.event with
    | none =>
        rw [hEvent] at hEndings
        exact hEndings
    | some event =>
        rw [hEvent] at hEndings
        exact hEndings
  · rw [hTaken]
    exact hBytes

/-- The outcome of a poll of the channel, before the terminal is stored. -/
def Polled (key : StreamKey) : Poll (Option ReceiveEvent) → AdapterWorld → Prop
  | .pending, w => Told key (some .pending) w
  | .ready (some (.data bytes)), w => Told key (some (.ready (.chunk bytes))) w
  | .ready head, w => ∃ ending : Ending, ending.event = head ∧
      ∀ slot, Closing key (ending.outcome slot) w

theorem polled_pollReceive {choice : Choice} (hKnown : Watched config key w) (hTold : Told key none w)
    (hNone : (w.state.stream key).recvTerminal = none) :
    Integral key ((adapter config).advance choice (.recv key .pollData) (.stream key .pollReceive) w) ∧
      Polled key (w.state.stream key).receive.pollNext.1
        ((adapter config).advance choice (.recv key .pollData) (.stream key .pollReceive) w) := by
  unfold Told at hTold
  rw [hNone, Option.toList_none, List.append_nil] at hTold
  obtain ⟨hEnded, hAnswers⟩ := hTold
  generalize hAfter : (adapter config).advance choice (.recv key .pollData)
    (.stream key .pollReceive) w = w'
  have hLog : streamLog key w'.trace = streamLog key w.trace ++
      [⟨.pollReceive, (w.state.stream key).receive.pollNext.1⟩] := by
    rw [← hAfter, streamLog_event]
    rfl
  have hSame : answers key w'.trace = answers key w.trace := by
    rw [← hAfter, Machine.advance_trace, answers_snoc]
    exact List.append_nil _
  have hTerminal : (w'.state.stream key).recvTerminal = none := by
    rw [← hAfter, Machine.advance_state, adapter_perform, Op.perform_stream_self,
      StreamOp.perform_recvTerminal]
    exact hNone
  have hSettled : (history key w.trace).ending.isSome → history key w'.trace = history key w.trace := by
    rw [← hAfter]
    exact history_settled _
  have hDequeued : dequeued (streamLog key w'.trace) = dequeued (streamLog key w.trace) ++
      (StreamStep.takes ⟨.pollReceive, (w.state.stream key).receive.pollNext.1⟩).toList := by
    rw [hLog, dequeued, filterMap_snoc]
    rfl
  have hEnds : ended (streamLog key w'.trace) =
      (StreamStep.ends ⟨.pollReceive, (w.state.stream key).receive.pollNext.1⟩).toList := by
    rw [hLog, ended, filterMap_snoc]
    change ended (streamLog key w.trace) ++ _ = _
    rw [hEnded, List.nil_append]
  refine ⟨⟨answers key w.trace, dequeued (streamLog key w.trace), 0, .fin, ?_, hAnswers, ?_,
    fun h => absurd h (lt_irrefl 0)⟩, ?_⟩
  · rw [hSame, List.replicate_zero, List.append_nil]
  · rw [hDequeued]
    exact List.prefix_append _ _
  have hClosing : ∀ head, (w.state.stream key).receive.pollNext.1 = .ready head →
      (∀ event, head = some event → event.chunk = none) →
      ∃ ending : Ending, ending.event = head ∧ ∀ slot, Closing key (ending.outcome slot) w' := by
    intro head hReply hHead
    obtain ⟨ending, hEvent, hEnding, hBytes⟩ := settled_poll hKnown hEnded hReply hHead
    have hHistory := hSettled (by rw [hEnding]; rfl)
    have hKept : dequeued (streamLog key w'.trace) = dequeued (streamLog key w.trace) := by
      rw [hDequeued, hReply]
      cases head with
      | none => exact List.append_nil _
      | some event =>
          cases event with
          | data bytes => cases hHead _ rfl
          | _ => exact List.append_nil _
    refine ⟨ending, hEvent, fun slot => ⟨⟨ending, slot, ?_, rfl, ?_⟩, ?_⟩⟩
    · rw [hHistory, hEnding]
    · rw [hHistory, hKept, hBytes]
    · rw [hSame, hKept, hAnswers]
  generalize hReply : (w.state.stream key).receive.pollNext.1 = reply at *
  cases reply with
  | pending =>
      change Told key (some .pending) w'
      unfold Told
      rw [hTerminal, hEnds, hDequeued, hSame, outcomes_append, hAnswers]
      exact ⟨rfl, by simp [StreamStep.takes, outcomes, readyOutcome]⟩
  | ready head =>
      cases head with
      | none => exact hClosing none rfl fun _ h => by cases h
      | some event =>
          cases event with
          | data bytes =>
              change Told key (some (.ready (.chunk bytes))) w'
              unfold Told
              rw [hTerminal, hEnds, hDequeued, hSame, outcomes_append, hAnswers]
              exact ⟨rfl, by simp [StreamStep.takes, outcomes, readyOutcome]⟩
          | _ =>
              apply hClosing _ rfl
              rintro _ ⟨⟩
              rfl

theorem integralSafe_pollEvent (hTold : Told key none w) :
    IntegralSafe config key .pollData (fun polled w => Told key (some polled) w)
      (pollEvent key) w := by
  have hDone : ∀ (polled : Poll ReceiveOutcome) (w : AdapterWorld),
      Told key (some polled) w →
      IntegralSafe config key .pollData
        (fun polled w => Told key (some polled) w) (.done polled) w :=
    fun _ _ h => integralSafe_done h
  refine IntegralSafe.look hTold nofun nofun fun choice s w hTold hRunning _ => ?_
  change IntegralSafe config key .pollData _ (if s.receiveClosed then _ else _) w
  rw [hRunning]
  refine IntegralSafe.look hTold nofun nofun fun choice s w hTold _ hSame => ?_
  change IntegralSafe config key .pollData _ (match s.recvTerminal with | some _ => _ | none => _) w
  rw [hSame]
  cases hTerminal : (w.state.stream key).recvTerminal with
  | some terminal =>
      apply integralSafe_done
      unfold Told at hTold ⊢
      rw [hTerminal] at hTold ⊢
      obtain ⟨hExhausted, polls, n, hAnswers, hPolls⟩ := hTold
      rw [Option.toList_none, List.append_nil] at hAnswers
      refine ⟨hExhausted, polls, n + 1, ?_, hPolls⟩
      rw [hAnswers, List.append_assoc, List.replicate_succ']
      rfl
  | none =>
      intro events w' hRely hKnown hInv choice _
      have hNone : (w'.state.stream key).recvTerminal = none := hRely.terminal.trans hTerminal
      obtain ⟨hInv', hPolled⟩ := @polled_pollReceive config key w' choice hKnown
        (hTold.congr hRely) hNone
      refine ⟨hInv', ?_⟩
      have hReply : ((adapter config).perform choice (.stream key .pollReceive) w'.state).1 =
          (w'.state.stream key).receive.pollNext.1 := rfl
      rw [hReply]
      generalize (w'.state.stream key).receive.pollNext.1 = reply at hPolled ⊢
      cases reply with
      | pending => exact hDone .pending _ hPolled _
      | ready head =>
          cases head with
          | none =>
              obtain ⟨ending, hEvent, hClosing⟩ := hPolled
              cases ending with
              | closed => exact integralSafe_storeAndConvert (hClosing none) _
              | _ => cases hEvent
          | some event =>
              cases event with
              | data bytes => exact hDone (.ready (.chunk bytes)) _ hPolled _
              | fin =>
                  obtain ⟨ending, hEvent, hClosing⟩ := hPolled
                  cases ending <;> cases hEvent
                  exact integralSafe_storeAndConvert (hClosing none) _
              | reset code =>
                  obtain ⟨ending, hEvent, hClosing⟩ := hPolled
                  cases ending <;> cases hEvent
                  exact integralSafe_storeAndConvert (hClosing none) _
              | internal message =>
                  obtain ⟨ending, hEvent, hClosing⟩ := hPolled
                  cases ending <;> cases hEvent
                  exact integralSafe_storeAndConvert (hClosing none) _
              | connection fallback =>
                  obtain ⟨ending, hEvent, hClosing⟩ := hPolled
                  cases ending <;> cases hEvent
                  refine IntegralSafe.conn (fun winner w hRely => ?_) _
                  exact integralSafe_storeAndConvert ((hClosing winner).congr hRely.toAlike)

theorem integralSafe_pollData (hTold : Told key none w) :
    IntegralSafe config key .pollData (fun polled w => Told key (some polled) w)
      (pollData key) w := by
  apply IntegralSafe.bind (integralSafe_pollEvent hTold)
  intro polled w hTold
  cases polled with
  | pending => exact integralSafe_done hTold
  | ready outcome =>
      cases outcome with
      | chunk bytes =>
          refine IntegralSafe.look hTold nofun nofun fun choice s w hTold _ _ => ?_
          generalize ((StreamOp.onDrained bytes.length).perform config.recvBudget choice s).1 = rearm
          cases rearm with
          | none => exact integralSafe_done hTold
          | some len =>
              refine IntegralSafe.look hTold nofun nofun fun choice s w hTold _ _ => ?_
              exact integralSafe_done hTold
      | _ => exact integralSafe_done hTold

theorem integralSafe_entry (call : RecvCall) (hTold : Told key none w) :
    IntegralSafe config key call (fun outcome w => ∃ result, outcome = .inr result ∧
        Told key ((answer key) (.finished ⟨.recv key call, [], result⟩)) w)
      (call.entry key) w := by
  cases call with
  | pollData =>
      apply IntegralSafe.bind (integralSafe_pollData hTold)
      intro polled w hTold
      apply integralSafe_done
      refine ⟨_, rfl, ?_⟩
      rw [answer, if_pos rfl]
      exact hTold
  | stopSending code =>
      refine IntegralSafe.look hTold nofun nofun fun choice s w hTold _ _ => ?_
      exact IntegralSafe.leave (.inr rfl)
  | drop => exact IntegralSafe.leave (.inl rfl)

/-- The reader answers from the channel, one event after the other. -/
def integralWatch (config : H3Config) (key : StreamKey) :
    (adapter config).Watch {} (.recvHalf key) where
  permits := permits
  known := Watched config key
  inv := Integral key
  rely := IntegralRely key
  idle := Told key none
  post request result _ w := Told key (answer key (.finished ⟨request, [], result⟩)) w
  uses_entry := uses_entry config
  uses_body := uses_body
  rely_refl _ := ⟨⟨rfl, rfl, fun _ => rfl⟩, rfl, rfl⟩
  rely_trans left right := left.trans right
  stable w w' h _ _ hInv := integral_stable w w' h hInv
  init := ⟨[], [], 0, .fin, rfl, rfl, List.nil_prefix, fun h => absurd h (lt_irrefl 0)⟩
  idle_init := ⟨rfl, rfl⟩
  idle_stable _ _ h hRely := h.congr hRely
  begin request w state hOwner _ hInv hIdle hDeliver _ := by
    obtain ⟨call, rfl⟩ := owner_eq_recvHalf hOwner
    have hRely := @rely_begun key w (.recv key call) state hDeliver
    refine ⟨hInv.congr hRely.toAlike, ?_⟩
    apply (integralSafe_entry call (hIdle.congr hRely) []).mono
    rintro _ events w ⟨result, rfl, hTold⟩
    exact hTold
  finish request result events w w' hOwner hPost hRely _ hInv _ := by
    obtain ⟨call, rfl⟩ := owner_eq_recvHalf hOwner
    have hTold : Told key none (w'.after (.finished ⟨.recv key call, events, result⟩) w'.state) :=
      (hPost.congr hRely).finish
    exact ⟨hTold.integral, hTold⟩

end Reader

section Run

variable {config : H3Config} {key : StreamKey} {trace : List AdapterLabel} {reached : AdapterConfig}

theorem watched_holds (run : Runs config trace reached) (hLive : Live key trace)
    (hEarly : EarlyPanics key trace) : Watched config key ⟨reached.state, trace⟩ where
  attended := attended_holds run hLive hEarly
  carried := carried_holds run hLive hEarly
  ledger := recvLedger_holds run key

theorem integral_holds (run : Runs config trace reached) (hLive : Live key trace)
    (hEarly : EarlyPanics key trace) : Integral key ⟨reached.state, trace⟩ := by
  refine ((integralWatch config key).sound run fun earlier config hRun hPrefix => ?_).1
  exact watched_holds hRun (fun label h => hLive label (hPrefix.subset h))
    (hEarly.of_prefix hPrefix)

/-- A connection cause that was answered is the one in the slot. -/
theorem answered_cause (run : Runs config trace reached) {cause : ConnectionTerminal}
    (hAnswer : .ready (.terminal (.connection cause)) ∈ answers key trace) :
    reached.state.conn.terminal = some cause := by
  obtain ⟨label, hMem, hLabel⟩ := List.mem_filterMap.1 hAnswer
  unfold answer at hLabel
  split at hLabel
  next other events result =>
    split at hLabel
    · unfold Result.answer at hLabel
      split at hLabel
      · cases hLabel
        exact ((cause_invariant config run).delivered _ cause hMem rfl).2
      · cases hLabel
    · cases hLabel
  · cases hLabel

/-- The chunks handed to the reader begin what was indicated before the first terminal;
once anything else is answered they are all of it, and that terminal is the answer from
then on. -/
def ReceivedIntact (key : StreamKey) (trace : List AdapterLabel)
    (slot : Option ConnectionTerminal) : Prop :=
  ∃ (polls : List (Poll ReceiveOutcome)) (chunks : List (List UInt8)) (n : Nat)
    (terminal : ReceiveTerminal),
    answers key trace = polls ++ List.replicate n (.ready (.terminal terminal)) ∧
    outcomes polls = chunks.map .chunk ∧ chunks.flatten <+: (history key trace).bytes ∧
    (0 < n → chunks.flatten = (history key trace).bytes ∧
      ∃ ending, (history key trace).ending = some ending ∧ terminal = ending.outcome slot)

theorem receive_integrity (run : Runs config trace reached) (hLive : Live key trace)
    (hEarly : EarlyPanics key trace) :
    ReceivedIntact key trace reached.state.conn.terminal := by
  obtain ⟨polls, chunks, n, terminal, hAnswers, hPolls, hTaken, hEnd⟩ :=
    integral_holds run hLive hEarly
  have hWatched := watched_holds run hLive hEarly
  have hAdmitted : chunks <+: admitted (streamLog key trace) :=
    hTaken.trans ((List.prefix_append _ _).trans hWatched.ledger.taken)
  refine ⟨polls, chunks, n, terminal, hAnswers, hPolls, ?_, fun hPos => ?_⟩
  · exact hAdmitted.flatten.trans hWatched.carried.steady.sound.delivered
  · obtain ⟨hChunks, ending, slot, hEnding, hOutcome, hBytes⟩ := hEnd hPos
    refine ⟨by rw [hChunks, hBytes], ending, hEnding, ?_⟩
    have hMem : .ready (.terminal terminal) ∈ answers key trace := by
      rw [hAnswers]
      exact List.mem_append_right _ (List.mem_replicate.2 ⟨by omega, rfl⟩)
    cases ending with
    | connection reason =>
        subst hOutcome
        rw [answered_cause run hMem]
        rfl
    | _ => exact hOutcome.symm

/-- A chunk that came with the end of the stream, and then that end, twice. -/
theorem receive_integrity_fin :
    ∃ trace reached, Runs .default trace reached ∧
      answers (.accepted 0) trace = [.ready (.chunk [1, 2, 3]), .ready (.terminal .fin),
        .ready (.terminal .fin)] ∧
      ReceivedIntact (.accepted 0) trace reached.state.conn.terminal := by
  have hRun : ((adapter .default).run (Machine.initial {}) (serveAll
      [(.stream (.accepted 0) (.receive [[1, 2], [], [3]] true), 15),
        (.recv (.accepted 0) .pollData, 5), (.recv (.accepted 0) .pollData, 5),
        (.recv (.accepted 0) .pollData, 3)])).isSome := by
    decide
  exact ⟨_, _, Machine.runs_get hRun, rfl,
    receive_integrity (Machine.runs_get hRun) (of_decide_eq_true rfl) (of_decide_eq_true rfl)⟩

end Run

end MsQuicH3
