import MsQuicH3.RecvLedger

/-! One receive half among all other threads. It accounts every chunk before it
takes the next, and completes every pause that its accounting ended. -/
namespace MsQuicH3

open Concurrency

/-- Operations that only a receive half issues. -/
def StreamOp.ofRecvHalf : StreamOp → Bool
  | .receiveClosed | .recvTerminal | .pollReceive | .storeRecvTerminal _ | .onDrained _
  | .submitReceiveComplete _ | .submitStopSending _ | .closeReceiveLocally | .dropRecvHalf => true
  | _ => false

theorem recvHalf_of_permits {key : StreamKey} {request : Request} {op : StreamOp}
    (h : permits request (.stream key op)) (hOp : op.ofRecvHalf = true) :
    ∃ call, request = .recv key call := by
  cases request with
  | recv other call =>
      obtain ⟨rfl, -⟩ := h
      exact ⟨call, rfl⟩
  | stream other event =>
      have hIssues := h.2
      unfold StreamEvent.issues StreamEvent.bodyIssues StreamOp.recovers at hIssues
      cases op <;> first
        | exact absurd hOp Bool.false_ne_true
        | exact absurd hIssues Bool.false_ne_true
  | send other call =>
      have hIssues := h.2
      cases op <;> first | exact absurd hOp Bool.false_ne_true | exact absurd hIssues Bool.false_ne_true
  | opener n call =>
      cases op <;> first | exact absurd hOp Bool.false_ne_true | exact absurd h Bool.false_ne_true
  | _ => exact h.elim

/-- The part of a stream's log that its receive half wrote. -/
def readerLog (log : List StreamStep) : List StreamStep :=
  log.filter fun step => step.1.ofRecvHalf

theorem filterMap_readerLog {α : Type} {f : StreamStep → Option α}
    (h : ∀ step value, f step = some value → step.1.ofRecvHalf = true) (log : List StreamStep) :
    (readerLog log).filterMap f = log.filterMap f := by
  rw [readerLog, List.filterMap_filter]
  apply List.filterMap_congr
  intro step _
  cases hStep : f step with
  | none => exact ite_self _
  | some value => rw [if_pos (h step value hStep)]

section Reader

variable {log log' : List StreamStep}

theorem takes_ofRecvHalf {step : StreamStep} {bytes : List UInt8}
    (h : StreamStep.takes step = some bytes) : step.1.ofRecvHalf = true := by
  unfold StreamStep.takes at h
  split at h
  · rfl
  · cases h

theorem drains_ofRecvHalf {step : StreamStep} {len : Nat}
    (h : StreamStep.drains step = some len) : step.1.ofRecvHalf = true := by
  unfold StreamStep.drains at h
  split at h
  · rfl
  · cases h

theorem rearms_ofRecvHalf {step : StreamStep} {len : Nat}
    (h : StreamStep.rearms step = some len) : step.1.ofRecvHalf = true := by
  unfold StreamStep.rearms at h
  split at h
  · rfl
  · cases h

theorem completes_ofRecvHalf {step : StreamStep} {len : Nat}
    (h : StreamStep.completes step = some len) : step.1.ofRecvHalf = true := by
  unfold StreamStep.completes at h
  split at h
  · rfl
  · cases h

/-- Every chunk taken is accounted, and every pause that ended is completed. -/
structure Rested (log : List StreamStep) : Prop where
  accounted : drained log = (dequeued log).map List.length
  answered : completed log = rearmed log

/-- A chunk was taken and not accounted yet. -/
structure Holding (len : Nat) (log : List StreamStep) : Prop where
  accounted : (dequeued log).map List.length = drained log ++ [len]
  answered : completed log = rearmed log

/-- A pause ended and its completion was not submitted yet. -/
structure Owing (len : Nat) (log : List StreamStep) : Prop where
  accounted : drained log = (dequeued log).map List.length
  answered : rearmed log = completed log ++ [len]

/-- What a reader still has to do after it polled its channel. -/
def InHand : Poll ReceiveOutcome → List StreamStep → Prop
  | .ready (.chunk bytes), log => Holding bytes.length log
  | _, log => Rested log

/-- The reader's ledgers depend on its own log only. -/
theorem books_congr (h : readerLog log' = readerLog log) :
    dequeued log' = dequeued log ∧ drained log' = drained log ∧ rearmed log' = rearmed log ∧
      completed log' = completed log := by
  have hTakes := filterMap_readerLog (fun _ _ => takes_ofRecvHalf)
  have hDrains := filterMap_readerLog (fun _ _ => drains_ofRecvHalf)
  have hRearms := filterMap_readerLog (fun _ _ => rearms_ofRecvHalf)
  have hCompletes := filterMap_readerLog (fun _ _ => completes_ofRecvHalf)
  refine ⟨?_, ?_, ?_, ?_⟩
  · rw [dequeued, ← hTakes, h, hTakes, dequeued]
  · rw [drained, ← hDrains, h, hDrains, drained]
  · rw [rearmed, ← hRearms, h, hRearms, rearmed]
  · rw [completed, ← hCompletes, h, hCompletes, completed]

theorem Rested.congr (h : Rested log) (hLog : readerLog log' = readerLog log) : Rested log' := by
  obtain ⟨hTakes, hDrains, hRearms, hCompletes⟩ := books_congr hLog
  exact ⟨by rw [hDrains, hTakes, h.accounted], by rw [hCompletes, hRearms, h.answered]⟩

theorem Holding.congr {len : Nat} (h : Holding len log) (hLog : readerLog log' = readerLog log) :
    Holding len log' := by
  obtain ⟨hTakes, hDrains, hRearms, hCompletes⟩ := books_congr hLog
  exact ⟨by rw [hDrains, hTakes, h.accounted], by rw [hCompletes, hRearms, h.answered]⟩

theorem Owing.congr {len : Nat} (h : Owing len log) (hLog : readerLog log' = readerLog log) :
    Owing len log' := by
  obtain ⟨hTakes, hDrains, hRearms, hCompletes⟩ := books_congr hLog
  exact ⟨by rw [hDrains, hTakes, h.accounted], by rw [hCompletes, hRearms, h.answered]⟩

/-- After taking a chunk, exactly that one is in hand. -/
theorem Rested.hold (h : Rested log) (bytes : List UInt8) :
    Holding bytes.length
      (log ++ [⟨.pollReceive, (.ready (some (.data bytes)) : Poll (Option ReceiveEvent))⟩]) := by
  constructor
  · rw [dequeued, drained, filterMap_snoc, filterMap_snoc]
    have hAccounted := h.accounted
    simp only [drained, dequeued] at hAccounted
    simp [StreamStep.takes, StreamStep.drains, hAccounted]
  · rw [completed, rearmed, filterMap_snoc, filterMap_snoc]
    simpa [StreamStep.rearms, StreamStep.completes, completed, rearmed] using h.answered

/-- Accounting it either ends a pause or leaves nothing to do. -/
theorem Holding.account {len : Nat} (h : Holding len log) (rearm : Option Nat) :
    match rearm with
    | some paused => Owing paused (log ++ [⟨.onDrained len, (rearm : Option Nat)⟩])
    | none => Rested (log ++ [⟨.onDrained len, (rearm : Option Nat)⟩]) := by
  have hAccounted : drained (log ++ [⟨.onDrained len, (rearm : Option Nat)⟩]) =
      (dequeued (log ++ [⟨.onDrained len, (rearm : Option Nat)⟩])).map List.length := by
    rw [drained, dequeued, filterMap_snoc, filterMap_snoc]
    have hBefore := h.accounted
    simp only [drained, dequeued] at hBefore
    simp [StreamStep.takes, StreamStep.drains, hBefore]
  have hAnswered := h.answered
  simp only [completed, rearmed] at hAnswered
  cases rearm with
  | none =>
      refine ⟨hAccounted, ?_⟩
      rw [completed, rearmed, filterMap_snoc, filterMap_snoc, hAnswered]
      rfl
  | some paused =>
      refine ⟨hAccounted, ?_⟩
      rw [completed, rearmed, filterMap_snoc, filterMap_snoc, hAnswered]
      simp [StreamStep.rearms, StreamStep.completes]

theorem Owing.complete {len : Nat} (h : Owing len log) :
    Rested (log ++ [⟨.submitReceiveComplete len, ()⟩]) := by
  constructor
  · rw [drained, dequeued, filterMap_snoc, filterMap_snoc]
    simpa [StreamStep.takes, StreamStep.drains, drained, dequeued] using h.accounted
  · rw [completed, rearmed, filterMap_snoc, filterMap_snoc]
    have hAnswered := h.answered
    simp only [completed, rearmed] at hAnswered
    simp [StreamStep.rearms, StreamStep.completes, hAnswered]

theorem Rested.silent (h : Rested log) {step : StreamStep} (hTakes : StreamStep.takes step = none)
    (hDrains : StreamStep.drains step = none) (hRearms : StreamStep.rearms step = none)
    (hCompletes : StreamStep.completes step = none) : Rested (log ++ [step]) := by
  constructor
  · rw [drained, dequeued, filterMap_snoc, filterMap_snoc, hTakes, hDrains]
    simpa [drained, dequeued] using h.accounted
  · rw [completed, rearmed, filterMap_snoc, filterMap_snoc, hRearms, hCompletes]
    simpa [completed, rearmed] using h.answered

end Reader

/-- The reader accounts the chunk it took last, completes the pause that ended last,
and is only dropped when it has done both. -/
def InTurn (log : List StreamStep) : StreamOp → Prop
  | .onDrained len => drained log ++ [len] <+: (dequeued log).map List.length
  | .submitReceiveComplete len => completed log ++ [len] <+: rearmed log
  | .dropRecvHalf => Rested log
  | _ => True

theorem inTurn_of_foreign {op : StreamOp} (h : op.ofRecvHalf = false) (log : List StreamStep) :
    InTurn log op := by
  cases op <;> trivial

/-- The books of a receive path together with the completions submitted so far. -/
structure RecvLedger (budget : RecvBudget) (s : StreamState) (log : List StreamStep) : Prop
    extends RecvBooks budget s log where
  answered : completed log <+: rearmed log
  abandoned : s.receive.receiver = false → s.receive.queue = [] ∧ Rested log

theorem Rested.not_drain {log : List StreamStep} (h : Rested log) (len : Nat) :
    ¬InTurn log (.onDrained len) := by
  intro hTurn
  have hLength := (show drained log ++ [len] <+: _ from hTurn).length_le
  rw [h.accounted, List.length_append, List.length_singleton] at hLength
  omega

theorem Rested.not_complete {log : List StreamStep} (h : Rested log) (len : Nat) :
    ¬InTurn log (.submitReceiveComplete len) := by
  intro hTurn
  have hLength := (show completed log ++ [len] <+: _ from hTurn).length_le
  rw [h.answered, List.length_append, List.length_singleton] at hLength
  omega

namespace RecvLedger

variable {budget : RecvBudget} {s : StreamState} {log : List StreamStep}

theorem answered_perform (h : RecvLedger budget s log) (op : StreamOp) (reply : op.Reply)
    (hTurn : InTurn log op) : completed (log ++ [⟨op, reply⟩]) <+: rearmed (log ++ [⟨op, reply⟩]) := by
  rw [completed, rearmed, filterMap_snoc, filterMap_snoc]
  have hGrow := h.answered.trans (List.prefix_append _ (StreamStep.rearms ⟨op, reply⟩).toList)
  cases op with
  | submitReceiveComplete len =>
      have hNext : completed log ++ [len] <+: rearmed log := hTurn
      simpa [completed, rearmed, StreamStep.completes, StreamStep.rearms] using hNext
  | _ => simpa [completed, rearmed, StreamStep.completes] using hGrow

theorem abandoned_perform (h : RecvLedger budget s log) (choice : Choice) (op : StreamOp)
    (hTurn : InTurn log op) (hDead : (op.perform budget choice s).2.receive.receiver = false) :
    (op.perform budget choice s).2.receive.queue = [] ∧
      Rested (log ++ [⟨op, (op.perform budget choice s).1⟩]) := by
  have hReceive := StreamOp.perform_receive budget choice op s
  rw [hReceive] at hDead ⊢
  cases op with
  | dropRecvHalf => exact ⟨rfl, Rested.silent hTurn rfl rfl rfl rfl⟩
  | onDrained len => exact ((h.abandoned hDead).2.not_drain len hTurn).elim
  | submitReceiveComplete len => exact ((h.abandoned hDead).2.not_complete len hTurn).elim
  | pollReceive =>
      rw [Channel.pollNext_receiver] at hDead
      obtain ⟨hEmpty, hRested⟩ := h.abandoned hDead
      refine ⟨by rw [Channel.pollNext_queue, hEmpty]; rfl, hRested.silent ?_ rfl rfl rfl⟩
      change StreamStep.takes ⟨.pollReceive, s.receive.pollNext.1⟩ = none
      rw [Channel.pollNext, hEmpty]
      cases s.receive.sender <;> rfl
  | admitIndication bytes =>
      have hSame : (publishData bytes s.receive).2.receiver = s.receive.receiver := by
        unfold publishData
        split
        · rfl
        · exact Channel.unboundedSend_receiver _ _
      have hReceiver : s.receive.receiver = false := hSame.symm.trans hDead
      obtain ⟨hEmpty, hRested⟩ := h.abandoned hReceiver
      refine ⟨?_, hRested.silent rfl rfl rfl rfl⟩
      change (publishData bytes s.receive).2.queue = []
      unfold publishData
      split
      · exact hEmpty
      · rw [Channel.unboundedSend_queue, hEmpty, hReceiver, Bool.and_false]
        rfl
  | sendReceive event =>
      have hReceiver : s.receive.receiver = false :=
        (Channel.unboundedSend_receiver event s.receive).symm.trans hDead
      obtain ⟨hEmpty, hRested⟩ := h.abandoned hReceiver
      refine ⟨?_, hRested.silent rfl rfl rfl rfl⟩
      rw [Channel.unboundedSend_queue, hEmpty, hReceiver, Bool.and_false]
      rfl
  | dropReceive | endReceive =>
      obtain ⟨hEmpty, hRested⟩ := h.abandoned hDead
      exact ⟨hEmpty, hRested.silent rfl rfl rfl rfl⟩
  | _ =>
      obtain ⟨hEmpty, hRested⟩ := h.abandoned hDead
      exact ⟨hEmpty, hRested.silent rfl rfl rfl rfl⟩

theorem perform (h : RecvLedger budget s log) (choice : Choice) (op : StreamOp)
    (hPlain : ∀ bytes, op ≠ .sendReceive (.data bytes)) (hTurn : InTurn log op) :
    RecvLedger budget (op.perform budget choice s).2
      (log ++ [⟨op, (op.perform budget choice s).1⟩]) := by
  refine ⟨h.toRecvBooks.perform choice op hPlain ?_, h.answered_perform op _ hTurn,
    h.abandoned_perform choice op hTurn⟩
  rintro len rfl
  exact hTurn

theorem congr {s' : StreamState} (h : RecvLedger budget s log) (hReceive : s'.receive = s.receive)
    (hState : s'.recvState = s.recvState) : RecvLedger budget s' log where
  delivered := hReceive ▸ h.delivered
  taken := hReceive ▸ h.taken
  bytes := hState ▸ h.bytes
  units := hState ▸ h.units
  gated := hState ▸ h.gated
  order := h.order
  answered := h.answered
  abandoned := hReceive ▸ h.abandoned

end RecvLedger

/-- The ledger of one stream in a world. -/
def RecvLedgered (config : H3Config) (key : StreamKey) (w : AdapterWorld) : Prop :=
  RecvLedger config.recvBudget (w.state.stream key) (streamLog key w.trace)

namespace RecvLedgered

variable {config : H3Config} {key : StreamKey} {w : AdapterWorld} {request : Request}

theorem begun (h : RecvLedgered config key w) {state : State}
    (hDeliver : deliver request w.state = some state) :
    RecvLedgered config key (w.after (.begun request) state) := by
  have hReceive := deliver_stream StreamState.receive (fun _ _ => rfl) hDeliver key
  have hState := deliver_stream StreamState.recvState (fun _ _ => rfl) hDeliver key
  rw [RecvLedgered, World.after_trace, streamLog_begun]
  exact h.congr hReceive hState

theorem finished (h : RecvLedgered config key w) (call : AdapterCall) :
    RecvLedgered config key (w.after (.finished call) w.state) := by
  rw [RecvLedgered, World.after_trace, streamLog_finished]
  exact h

theorem event (h : RecvLedgered config key w) {op : Op} (choice : Choice)
    (hPermits : permitsPlain request op)
    (hTurn : ∀ own, op = .stream key own → InTurn (streamLog key w.trace) own) :
    RecvLedgered config key ((adapter config).advance choice request op w) := by
  rcases @advance_stream_cases config choice request w key op with
    ⟨own, rfl, hStream, hLog⟩ | ⟨-, hStream, hLog⟩
  · rw [RecvLedgered, hStream, hLog]
    refine h.perform choice own ?_ (hTurn own rfl)
    rintro bytes rfl
    exact absurd hPermits.2 Bool.false_ne_true
  · rw [RecvLedgered, hStream, hLog]
    exact h

end RecvLedgered

section Watch

variable {config : H3Config} {key : StreamKey}

/-- What the other threads leave alone. -/
def RecvRely (key : StreamKey) (w w' : AdapterWorld) : Prop :=
  readerLog (streamLog key w'.trace) = readerLog (streamLog key w.trace)

theorem foreign_of_permits {request : Request} {op : StreamOp}
    (hPermits : permits request (.stream key op)) (hOwner : request.owner ≠ .recvHalf key) :
    op.ofRecvHalf = false := by
  rw [← Bool.not_eq_true]
  intro hOwn
  obtain ⟨call, rfl⟩ := recvHalf_of_permits hPermits hOwn
  exact hOwner rfl

theorem readerLog_event {w : AdapterWorld} {request : Request} {op : Op} (choice : Choice)
    (hPermits : permits request op) (hOwner : request.owner ≠ .recvHalf key) :
    RecvRely key w ((adapter config).advance choice request op w) := by
  rcases @advance_stream_cases config choice request w key op with
    ⟨own, rfl, -, hLog⟩ | ⟨-, -, hLog⟩
  · have hForeign := foreign_of_permits hPermits hOwner
    rw [RecvRely, hLog, readerLog, List.filter_append, List.filter_cons_of_neg (by simp [hForeign])]
    exact List.append_nil _
  · rw [RecvRely, hLog]

theorem recv_stable (w w' : AdapterWorld)
    (h : (adapter config).Interference permitsPlain (.recvHalf key) w w')
    (hInv : RecvLedgered config key w) : RecvLedgered config key w' ∧ RecvRely key w w' := by
  cases h with
  | begun hOwner hDeliver =>
      refine ⟨hInv.begun hDeliver, ?_⟩
      rw [RecvRely, World.after_trace, streamLog_begun]
  | @event request op choice hOwner hPermits =>
      refine ⟨hInv.event choice hPermits ?_, readerLog_event choice hPermits.1 hOwner⟩
      rintro own rfl
      exact inTurn_of_foreign (foreign_of_permits hPermits.1 hOwner) _
  | finished hOwner =>
      refine ⟨hInv.finished _, ?_⟩
      rw [RecvRely, World.after_trace, streamLog_finished]

/-- Code of the reader, with what is known about its log in between. -/
abbrev ReaderSafe {α : Type} (config : H3Config) (key : StreamKey) (call : RecvCall)
    (post : α → List StreamStep → Prop) (code : Code α) (w : AdapterWorld) : Prop :=
  ∀ events, (adapter config).Safe (fun _ => True) (RecvLedgered config key) (RecvRely key)
    (.recv key call) (fun result _ w => post result (streamLog key w.trace)) events code w

variable {α : Type} {call : RecvCall} {post : α → List StreamStep → Prop}

/-- One operation of the reader. -/
theorem ReaderSafe.step {op : StreamOp} {next : op.Reply → Code α} {w : AdapterWorld}
    (hIssues : call.issues op = true) (hPlain : (Op.stream key op).plain = true)
    (hTurn : ∀ w', RecvRely key w w' → InTurn (streamLog key w'.trace) op)
    (hNext : ∀ w' choice, RecvRely key w w' → RecvLedgered config key w' →
      ReaderSafe config key call post
        (next (op.perform config.recvBudget choice (w'.state.stream key)).1)
        ((adapter config).advance choice (.recv key call) (.stream key op) w')) :
    ReaderSafe config key call post (onStream key op >>= next) w := by
  intro events w' hRely _ hInv choice _
  refine ⟨hInv.event choice ⟨⟨rfl, hIssues⟩, hPlain⟩ ?_, hNext w' choice hRely hInv _⟩
  intro own hOp
  cases hOp
  exact hTurn w' hRely

theorem ReaderSafe.bind {β : Type} {code : Code β} {f : β → Code α}
    {reached : β → List StreamStep → Prop} {w : AdapterWorld}
    (h : ReaderSafe config key call reached code w)
    (hNext : ∀ result w, reached result (streamLog key w.trace) →
      ReaderSafe config key call post (f result) w) :
    ReaderSafe config key call post (code >>= f) w := by
  intro events
  apply Machine.Safe.bind
  exact (h events).mono fun result events w hResult => hNext result w hResult events

/-- An operation that leaves a rested reader rested. -/
theorem ReaderSafe.look {op : StreamOp} {next : op.Reply → Code α} {w : AdapterWorld}
    (h : Rested (streamLog key w.trace)) (hIssues : call.issues op = true)
    (hPlain : (Op.stream key op).plain = true) (hTurn : ∀ log, Rested log → InTurn log op)
    (hTakes : ∀ reply, StreamStep.takes ⟨op, reply⟩ = none)
    (hDrains : ∀ reply, StreamStep.drains ⟨op, reply⟩ = none)
    (hRearms : ∀ reply, StreamStep.rearms ⟨op, reply⟩ = none)
    (hCompletes : ∀ reply, StreamStep.completes ⟨op, reply⟩ = none)
    (hNext : ∀ reply w', Rested (streamLog key w'.trace) →
      ReaderSafe config key call post (next reply) w') :
    ReaderSafe config key call post (onStream key op >>= next) w := by
  refine ReaderSafe.step hIssues hPlain (fun w' hRely => hTurn _ (h.congr hRely)) ?_
  intro w' choice hRely hLedger
  apply hNext
  rw [streamLog_event]
  exact (h.congr hRely).silent (hTakes _) (hDrains _) (hRearms _) (hCompletes _)

theorem ReaderSafe.conn {op : ConnOp} {next : op.Reply → Code α} {w : AdapterWorld}
    (h : Rested (streamLog key w.trace)) (hIssues : call.issuesConn op = true)
    (hNext : ∀ reply w', Rested (streamLog key w'.trace) →
      ReaderSafe config key call post (next reply) w') :
    ReaderSafe config key call post (onConn op >>= next) w := by
  intro events w' hRely _ hInv choice _
  have hPermits : permitsPlain (.recv key call) (.conn op) := ⟨hIssues, rfl⟩
  refine ⟨hInv.event choice hPermits nofun, hNext _ _ ?_ _⟩
  rcases @advance_stream_cases config choice (.recv key call) w' key (.conn op) with
    ⟨own, hOp, -⟩ | ⟨-, -, hLog⟩
  · cases hOp
  · rw [hLog]
    exact h.congr hRely

theorem readerSafe_done {result : α} {w : AdapterWorld} (h : post result (streamLog key w.trace)) :
    ReaderSafe config key call post (.done result) w := fun _ => h

theorem readerSafe_storeAndConvert (terminal : ReceiveTerminal) {w : AdapterWorld}
    (h : Rested (streamLog key w.trace)) :
    ReaderSafe config key .pollData InHand (storeAndConvert key terminal) w := by
  refine ReaderSafe.look h rfl rfl (fun _ _ => trivial) (fun _ => rfl) (fun _ => rfl) (fun _ => rfl) (fun _ => rfl) ?_
  exact fun _ w' hRested => readerSafe_done hRested

theorem readerSafe_pollEvent {w : AdapterWorld} (h : Rested (streamLog key w.trace)) :
    ReaderSafe config key .pollData InHand (pollEvent key) w := by
  refine ReaderSafe.look h rfl rfl (fun _ _ => trivial) (fun _ => rfl) (fun _ => rfl) (fun _ => rfl) (fun _ => rfl) ?_
  intro closed w h
  split
  · exact readerSafe_done h
  refine ReaderSafe.look h rfl rfl (fun _ _ => trivial) (fun _ => rfl) (fun _ => rfl) (fun _ => rfl) (fun _ => rfl) ?_
  intro terminal w h
  split
  · exact readerSafe_done h
  refine ReaderSafe.step rfl rfl (fun _ _ => trivial) ?_
  intro w choice hRely hLedger
  have hRested := h.congr hRely
  generalize hReply : (StreamOp.pollReceive.perform config.recvBudget choice
    (w.state.stream key)).1 = reply
  have hLog := @streamLog_event key config choice (.recv key .pollData) w .pollReceive
  rw [hReply] at hLog
  have hSilent : StreamStep.takes ⟨.pollReceive, reply⟩ = none → Rested (streamLog key
      ((adapter config).advance choice (.recv key .pollData) (.stream key .pollReceive) w).trace) := by
    intro hTakes
    rw [hLog]
    exact hRested.silent hTakes rfl rfl rfl
  cases reply with
  | pending => exact readerSafe_done (hSilent rfl)
  | ready value =>
      cases value with
      | none => exact readerSafe_storeAndConvert _ (hSilent rfl)
      | some event =>
          cases event with
          | data bytes =>
              apply readerSafe_done
              rw [hLog]
              exact hRested.hold bytes
          | connection fallback =>
              apply ReaderSafe.conn (hSilent rfl) rfl
              exact fun _ w' h => readerSafe_storeAndConvert _ h
          | _ => exact readerSafe_storeAndConvert _ (hSilent rfl)

theorem readerSafe_pollData {w : AdapterWorld} (h : Rested (streamLog key w.trace)) :
    ReaderSafe config key .pollData (fun _ log => Rested log) (pollData key) w := by
  apply ReaderSafe.bind (readerSafe_pollEvent h)
  intro polled w hPolled
  cases polled with
  | pending => exact readerSafe_done hPolled
  | ready outcome =>
      cases outcome with
      | chunk bytes =>
          have hHolding : Holding bytes.length (streamLog key w.trace) := hPolled
          refine ReaderSafe.step rfl rfl (fun w' hRely => ?_) ?_
          · change _ <+: _
            rw [(hHolding.congr hRely).accounted]
          intro w choice hRely hLedger
          have hAccount := (hHolding.congr hRely).account
            ((StreamOp.onDrained bytes.length).perform config.recvBudget choice
              (w.state.stream key)).1
          have hLog := @streamLog_event key config choice (.recv key .pollData) w
            (.onDrained bytes.length)
          rw [← hLog] at hAccount
          cases hReply : ((StreamOp.onDrained bytes.length).perform config.recvBudget choice
            (w.state.stream key)).1 with
          | none =>
              rw [hReply] at hAccount
              exact readerSafe_done hAccount
          | some len =>
              rw [hReply] at hAccount
              have hOwing : Owing len _ := hAccount
              refine ReaderSafe.step rfl rfl (fun w' hRely => ?_) ?_
              · change _ <+: _
                rw [(hOwing.congr hRely).answered]
              · intro w choice hRely hLedger
                apply readerSafe_done
                rw [streamLog_event]
                exact (hOwing.congr hRely).complete
      | _ => exact readerSafe_done hPolled

theorem readerSafe_entry (call : RecvCall) {w : AdapterWorld}
    (h : Rested (streamLog key w.trace)) :
    ReaderSafe config key call (fun outcome log => outcome.isRight ∧ Rested log)
      (call.entry key) w := by
  have hExit : ∀ {α : Type} (result : α → Result) (value : α) (w : AdapterWorld),
      Rested (streamLog key w.trace) →
      ReaderSafe config key call (fun outcome log => outcome.isRight ∧ Rested log)
        (Round.exit (result value)) w := fun _ _ _ h _ => ⟨rfl, h⟩
  cases call with
  | pollData =>
      apply ReaderSafe.bind (readerSafe_pollData h)
      exact fun result w h => hExit .pollData result w h
  | stopSending code =>
      refine ReaderSafe.look h rfl rfl (fun _ _ => trivial) (fun _ => rfl) (fun _ => rfl) (fun _ => rfl)
        (fun _ => rfl) fun _ w h => ?_
      refine ReaderSafe.look h rfl rfl (fun _ _ => trivial) (fun _ => rfl) (fun _ => rfl) (fun _ => rfl)
        (fun _ => rfl) fun _ w h => ?_
      exact hExit (fun _ : Unit => .unit) () w h
  | drop =>
      refine ReaderSafe.look h rfl rfl (fun _ hRested => hRested) (fun _ => rfl) (fun _ => rfl) (fun _ => rfl)
        (fun _ => rfl) fun _ w h => ?_
      exact hExit (fun _ : Unit => .unit) () w h

/-- The reader keeps the ledger and rests between two calls. -/
def readerWatch (config : H3Config) (key : StreamKey) :
    (adapter config).Watch {} (.recvHalf key) where
  permits := permitsPlain
  known _ := True
  inv := RecvLedgered config key
  rely := RecvRely key
  idle w := Rested (streamLog key w.trace)
  post _ _ _ w := Rested (streamLog key w.trace)
  uses_entry := plain_entry config
  uses_body := plain_body
  rely_refl _ := rfl
  rely_trans left right := right.trans left
  stable w w' h _ _ hInv := recv_stable w w' h hInv
  init := ⟨.initial config, List.prefix_rfl, nofun⟩
  idle_init := ⟨rfl, rfl⟩
  idle_stable _ _ h hRely := h.congr hRely
  begin request w state hOwner _ hInv hIdle hDeliver _ := by
    obtain ⟨call, rfl⟩ := owner_eq_recvHalf hOwner
    refine ⟨hInv.begun hDeliver, ?_⟩
    have hRested : Rested (streamLog key (w.after (.begun (.recv key call)) state).trace) := by
      rw [World.after_trace, streamLog_begun]
      exact hIdle
    apply (readerSafe_entry call hRested []).mono
    rintro (round | result) events w ⟨hRight, hRested⟩
    · cases hRight
    · exact hRested
  finish request result events w w' _ hPost hRely _ hInv _ := by
    refine ⟨hInv.finished _, ?_⟩
    rw [World.after_trace, streamLog_finished]
    exact hPost.congr hRely

variable {trace : List AdapterLabel} {reached : AdapterConfig}

/-- The ledger of every stream in every run. -/
theorem recvLedger_holds (run : Runs config trace reached) (key : StreamKey) :
    RecvLedger config.recvBudget (reached.state.stream key) (streamLog key trace) :=
  ((readerWatch config key).sound run fun _ _ _ _ => trivial).1

end Watch

end MsQuicH3
