import MsQuicH3.Concurrency.Calls
import MsQuicH3.SendOutline

/-! The books of the data sends of one stream. Native code returns what it accepted,
once; a return hands over at most one completion, and the send half takes only what
was handed over. -/
namespace MsQuicH3

open Concurrency

/-- Native code accepts a data send of the half. -/
def acceptsSend (key : StreamKey) : AdapterEvent → Bool
  | ⟨.send other _, .stream target (.streamSend _ _), .ok (), _, _⟩ => other = key && target = key
  | _ => false

/-- The half takes a completion from its channel. -/
def takesComplete (key : StreamKey) : AdapterEvent → Bool
  | ⟨.send other _, .stream target .pollSendChannel, .event (.complete _), _, _⟩ =>
      other = key && target = key
  | _ => false

def Op.sendsComplete (key : StreamKey) : Op → Bool
  | .stream target (.sendEvent (.complete _)) => target = key
  | _ => false

/-- The callback hands a completion over. -/
def sendsComplete (key : StreamKey) (e : AdapterEvent) : Bool :=
  e.request.owner = .streamCallback key && Op.sendsComplete key e.op

def SendEvent.isComplete : SendEvent → Bool
  | .complete _ => true
  | _ => false

/-- Native code returns the context of a send. -/
def returnsContext (key : StreamKey) : Request → Bool
  | .stream other (.sendComplete _ (some _)) => other = key
  | _ => false

def accepted (key : StreamKey) (trace : List AdapterLabel) : Nat :=
  trace.countP (Machine.counts (acceptsSend key))

def taken (key : StreamKey) (trace : List AdapterLabel) : Nat :=
  trace.countP (Machine.counts (takesComplete key))

def handed (key : StreamKey) (trace : List AdapterLabel) : Nat :=
  trace.countP (Machine.counts (sendsComplete key))

def returned (key : StreamKey) (trace : List AdapterLabel) : Nat :=
  trace.countP (Machine.begins (returnsContext key))

theorem returnsContext_eq {key : StreamKey} {request : Request}
    (h : returnsContext key request = true) :
    ∃ cancelled context, request = .stream key (.sendComplete cancelled (some context)) := by
  unfold returnsContext at h
  split at h
  next other cancelled context =>
    obtain rfl : other = key := by simpa using h
    exact ⟨cancelled, context, rfl⟩
  · cases h

/-- A completion is handed over by the return of a context. -/
theorem returnsContext_of_permits {key : StreamKey} {request : Request} {op : Op}
    (h : permits request op) (hOp : op.sendsComplete key = true) :
    returnsContext key request = true := by
  unfold Op.sendsComplete at hOp
  split at hOp
  next target cancelled =>
    obtain rfl : target = key := by simpa using hOp
    cases request with
    | stream other event =>
        obtain ⟨rfl, hIssues⟩ := h
        unfold StreamEvent.issues StreamEvent.bodyIssues StreamOp.recovers at hIssues
        cases event with
        | sendComplete cancelled context =>
            cases context with
            | none => exact absurd hIssues Bool.false_ne_true
            | some context => simp [returnsContext]
        | _ => exact absurd hIssues Bool.false_ne_true
    | send other call => exact absurd h.2 Bool.false_ne_true
    | recv other call => exact absurd h.2 Bool.false_ne_true
    | opener n call => exact absurd h Bool.false_ne_true
    | _ => exact h.elim
  · cases hOp

section Own

variable {key : StreamKey} {e : AdapterEvent}

theorem acceptsSend_owner (h : acceptsSend key e = true) : e.request.owner = .sendHalf key := by
  unfold acceptsSend at h
  split at h
  · simp only [Bool.and_eq_true, decide_eq_true_eq] at h
    rw [← h.1]
    rfl
  · cases h

theorem takesComplete_owner (h : takesComplete key e = true) :
    e.request.owner = .sendHalf key := by
  unfold takesComplete at h
  split at h
  · simp only [Bool.and_eq_true, decide_eq_true_eq] at h
    rw [← h.1]
    rfl
  · cases h

theorem acceptsSend_op (h : acceptsSend key e = true) : ∃ op, e.op = .stream key op := by
  unfold acceptsSend at h
  split at h
  · simp only [Bool.and_eq_true, decide_eq_true_eq] at h
    rw [← h.2]
    exact ⟨_, rfl⟩
  · cases h

theorem takesComplete_op (h : takesComplete key e = true) :
    e.op = .stream key .pollSendChannel := by
  unfold takesComplete at h
  split at h
  · simp only [Bool.and_eq_true, decide_eq_true_eq] at h
    rw [← h.2]
  · cases h

/-- What a half counts of its own does not change while the others act. -/
theorem countP_ownTrace {counted : AdapterLabel → Bool}
    (h : ∀ label, counted label = true → label.request.owner = .sendHalf key)
    (trace : List AdapterLabel) : (ownTrace key trace).countP counted = trace.countP counted := by
  unfold ownTrace
  rw [List.countP_filter]
  apply List.countP_congr
  intro label _
  simp only [Bool.and_eq_true, decide_eq_true_eq, and_iff_left_iff_imp]
  exact h label

theorem accepted_ownTrace (trace : List AdapterLabel) :
    accepted key (ownTrace key trace) = accepted key trace := by
  apply countP_ownTrace
  intro label h
  cases label with
  | event e => exact acceptsSend_owner h
  | _ => cases h

theorem taken_ownTrace (trace : List AdapterLabel) :
    taken key (ownTrace key trace) = taken key trace := by
  apply countP_ownTrace
  intro label h
  cases label with
  | event e => exact takesComplete_owner h
  | _ => cases h

variable {w w' : AdapterWorld}

theorem SendRely.accepted (h : SendRely key w w') : accepted key w'.trace = accepted key w.trace := by
  rw [← accepted_ownTrace, h.own, accepted_ownTrace]

theorem SendRely.taken (h : SendRely key w w') : taken key w'.trace = taken key w.trace := by
  rw [← taken_ownTrace, h.own, taken_ownTrace]

end Own

/-- A context is with native code or was returned, and a completion is queued, taken
or lost with the half. -/
structure SendLedger (key : StreamKey) (w : AdapterWorld) : Prop where
  contexts : returned key w.trace + (w.state.stream key).outstanding.length = accepted key w.trace
  completions : taken key w.trace + (w.state.stream key).send.queue.countP SendEvent.isComplete ≤
    handed key w.trace

section Operation

variable {config : H3Config} {key : StreamKey} {s : State} {choice : Choice} {request : Request}
  {op : Op}

/-- An accepted send is outstanding from then on. -/
theorem outstanding_length (h : permits request op) :
    (((adapter config).perform choice op s).2.stream key).outstanding.length =
      (s.stream key).outstanding.length +
        (acceptsSend key ((adapter config).event choice request op s)).toNat := by
  cases op with
  | conn op =>
      rw [adapter_perform, Op.perform_conn_stream]
      cases request <;> rfl
  | stream target op =>
      by_cases hKey : key = target
      · subst hKey
        rw [adapter_perform, Op.perform_stream_self, StreamOp.perform_outstanding]
        cases op with
        | streamSend context buffer =>
            obtain ⟨call, rfl⟩ := owner_eq_sendHalf (sendHalf_of_permits h rfl)
            cases hResult : choice.result <;>
              simp [acceptsSend, Machine.event, Op.perform, StreamOp.perform, hResult]
        | _ => cases request <;> rfl
      · have hSilent : acceptsSend key
            ((adapter config).event choice request (.stream target op) s) = false := by
          rw [← Bool.not_eq_true]
          intro hCounted
          obtain ⟨op', hOp⟩ := acceptsSend_op hCounted
          cases hOp
          exact hKey rfl
        rw [adapter_perform, Op.perform_stream_of_ne _ _ _ _ hKey, hSilent]
        rfl

/-- A taken completion was in the queue, and one that comes in is handed over. -/
theorem queue_complete (h : permits request op) :
    (takesComplete key ((adapter config).event choice request op s)).toNat +
        (((adapter config).perform choice op s).2.stream key).send.queue.countP
          SendEvent.isComplete ≤
      (s.stream key).send.queue.countP SendEvent.isComplete +
        (sendsComplete key ((adapter config).event choice request op s)).toNat := by
  by_cases hPoll : op = .stream key .pollSendChannel
  · subst hPoll
    obtain ⟨call, rfl⟩ := owner_eq_sendHalf (sendHalf_of_permits h rfl)
    rw [adapter_perform, Op.perform_stream_self, StreamOp.perform_send]
    cases hQueue : (s.stream key).send.queue with
    | nil =>
        have hReply : takesComplete key ((adapter config).event choice (.send key call)
            (.stream key .pollSendChannel) s) = false := by
          cases hSender : (s.stream key).send.sender <;>
            simp [takesComplete, Machine.event, Op.perform, StreamOp.perform, Channel.pollNext,
              hQueue, hSender, sendPoll]
        rw [hReply, Channel.pollNext_queue, hQueue]
        exact Nat.le_of_eq (Nat.zero_add _)
    | cons event queue =>
        have hReply : takesComplete key ((adapter config).event choice (.send key call)
            (.stream key .pollSendChannel) s) = event.isComplete := by
          cases event <;> simp [takesComplete, Machine.event, Op.perform, StreamOp.perform,
            Channel.pollNext, hQueue, sendPoll, SendEvent.isComplete]
        rw [hReply, Channel.pollNext_queue, hQueue, List.tail_cons, List.countP_cons]
        cases event.isComplete <;> simp [Nat.add_comm]
  have hSilent : takesComplete key ((adapter config).event choice request op s) = false := by
    rw [← Bool.not_eq_true]
    intro hCounted
    exact hPoll (takesComplete_op hCounted)
  rw [hSilent, Bool.toNat_false, Nat.zero_add]
  cases op with
  | conn op =>
      rw [adapter_perform, Op.perform_conn_stream]
      exact Nat.le_add_right _ _
  | stream target op =>
      by_cases hKey : key = target
      · subst hKey
        rw [adapter_perform, Op.perform_stream_self, StreamOp.perform_send]
        cases op with
        | sendEvent event =>
            rw [Channel.unboundedSend_queue, List.countP_append]
            apply Nat.add_le_add_left
            cases event with
            | complete cancelled =>
                have hReturns : returnsContext key request = true :=
                  returnsContext_of_permits h (by simp [Op.sendsComplete])
                obtain ⟨_, _, rfl⟩ := returnsContext_eq hReturns
                simp only [sendsComplete, Machine.event, Request.owner, Op.sendsComplete, decide_true,
                  Bool.and_self, Bool.toNat_true]
                split <;> simp [SendEvent.isComplete]
            | _ => split <;> exact Nat.zero_le _
        | pollSendChannel => exact absurd rfl hPoll
        | dropSendHalf => exact Nat.zero_le _
        | _ => exact Nat.le_add_right _ _
      · rw [adapter_perform, Op.perform_stream_of_ne _ _ _ _ hKey]
        exact Nat.le_add_right _ _

end Operation

namespace SendLedger

variable {config : H3Config} {key : StreamKey} {w : AdapterWorld}

/-- A label that is not counted, with a state that keeps what the books are about. -/
theorem silent (h : SendLedger key w) (label : AdapterLabel) {s : State}
    (hReturned : Machine.begins (returnsContext key) label = false)
    (hAccepted : Machine.counts (acceptsSend key) label = false)
    (hTaken : Machine.counts (takesComplete key) label = false)
    (hOutstanding : (s.stream key).outstanding = (w.state.stream key).outstanding)
    (hQueue : (s.stream key).send.queue.countP SendEvent.isComplete ≤
      (w.state.stream key).send.queue.countP SendEvent.isComplete) :
    SendLedger key (w.after label s) := by
  obtain ⟨hContexts, hCompletions⟩ := h
  unfold returned accepted at hContexts
  unfold taken handed at hCompletions
  constructor
  · simp only [World.after_trace, World.after_state, returned, accepted, Machine.countP_snoc,
      hReturned, hAccepted, hOutstanding, Bool.toNat_false, Nat.add_zero]
    exact hContexts
  · simp only [World.after_trace, World.after_state, taken, handed, Machine.countP_snoc, hTaken,
      Bool.toNat_false, Nat.add_zero]
    omega

theorem begun (h : SendLedger key w) {request : Request} {state : State}
    (hDeliver : deliver request w.state = some state) :
    SendLedger key (w.after (.begun request) state) := by
  have hSend : (state.stream key).send = (w.state.stream key).send :=
    deliver_stream StreamState.send (fun _ _ => rfl) hDeliver key
  have hQueue : (state.stream key).send.queue.countP SendEvent.isComplete ≤
      (w.state.stream key).send.queue.countP SendEvent.isComplete := by rw [hSend]
  cases hReturns : returnsContext key request with
  | false =>
      have hOutstanding : (state.stream key).outstanding = (w.state.stream key).outstanding := by
        rcases deliver_cases hDeliver with rfl | ⟨other, cancelled, context, rfl, hMem, rfl⟩
        · rfl
        · have hKey : key ≠ other := by
            rintro rfl
            simp [returnsContext] at hReturns
          rw [State.setStream_of_ne _ _ hKey]
      exact h.silent _ hReturns rfl rfl hOutstanding hQueue
  | true =>
      obtain ⟨cancelled, context, rfl⟩ := returnsContext_eq hReturns
      obtain ⟨hMem, rfl⟩ := deliver_returned.1 hDeliver
      obtain ⟨hContexts, hCompletions⟩ := h
      have hLength := List.length_erase_of_mem hMem
      have hPos := List.length_pos_of_mem hMem
      constructor
      · unfold returned accepted at hContexts ⊢
        simp only [World.after_trace, World.after_state, Machine.countP_snoc, Machine.begins,
          Machine.counts, hReturns, State.setStream_self, Bool.toNat_true, Bool.toNat_false]
        omega
      · unfold taken handed at hCompletions ⊢
        simp only [World.after_trace, World.after_state, Machine.countP_snoc, Machine.counts,
          State.setStream_self, Bool.toNat_false]
        exact hCompletions

theorem event (h : SendLedger key w) (request : Request) (op : Op) (choice : Choice)
    (hPermits : permits request op) :
    SendLedger key ((adapter config).advance choice request op w) := by
  obtain ⟨hContexts, hCompletions⟩ := h
  have hOutstanding := @outstanding_length config key w.state choice _ _ hPermits
  have hQueue := @queue_complete config key w.state choice _ _ hPermits
  constructor
  · unfold returned accepted at hContexts ⊢
    simp only [Machine.advance_trace, Machine.advance_state, Machine.countP_snoc, Machine.begins,
      Machine.counts, Bool.toNat_false, hOutstanding]
    omega
  · unfold taken handed at hCompletions ⊢
    simp only [Machine.advance_trace, Machine.advance_state, Machine.countP_snoc, Machine.counts]
    omega

theorem finished (h : SendLedger key w) (call : AdapterCall) :
    SendLedger key (w.after (.finished call) w.state) :=
  h.silent _ rfl rfl rfl rfl (Nat.le_refl _)

end SendLedger

section Callback

variable {config : H3Config} {key : StreamKey}

theorem uses_hushed {other : StreamKey} {op : StreamOp}
    (h : (op matches .sendEvent (.complete _)) = false) :
    (onStream other op).Uses (S := signature) fun op => Op.sendsComplete key op = false := by
  apply uses_onStream
  cases op with
  | sendEvent event => cases event <;> first | rfl | cases h
  | _ => rfl

/-- The callback hands over at most one completion for a returned context. -/
theorem atMost_sendComplete (other : StreamKey) (cancelled : Bool) (context : BufferId) :
    (streamHandler other (.sendComplete cancelled (some context))).AtMost (Op.sendsComplete key)
      (returnsContext key (.stream other (.sendComplete cancelled (some context)))).toNat := by
  have hRecover : (streamRecover other).Uses fun op => Op.sendsComplete key op = false := by
    refine (uses_streamRecover other).mono fun op hOp => ?_
    cases op with
    | conn op => exact hOp.elim
    | stream target op =>
        obtain ⟨-, hRecovers⟩ := hOp
        cases op with
        | sendEvent event => cases event <;> first | rfl | exact absurd hRecovers Bool.false_ne_true
        | _ => rfl
  have hBody : (streamCallback other (.sendComplete cancelled (some context))).AtMost
      (Op.sendsComplete key) (decide (other = key)).toNat := by
    apply Program.AtMost.of_uses_bind (uses_hushed rfl)
    intro _
    refine ⟨fun hCounted => ?_, fun _ => trivial⟩
    simp only [Op.sendsComplete] at hCounted
    rw [hCounted]
    exact Nat.one_pos
  apply Program.AtMost.of_uses_bind (uses_hushed rfl)
  intro poisoned
  cases poisoned with
  | true => trivial
  | false =>
      have hPanic : ∀ k, (onStream other (.panicPoint k)).Uses (S := signature)
          fun op => Op.sendsComplete key op = false := fun k => uses_hushed rfl
      exact Program.AtMost.guarded hPanic hRecover hBody 0

/-- A request that returns no context hands over no completion. -/
theorem uses_hushed_of_permits {request : Request} {α : Type} {code : Code α}
    (h : returnsContext key request = false) (hUses : code.Uses (permits request)) :
    code.Uses fun op => Op.sendsComplete key op = false := by
  refine hUses.mono fun op hPermits => ?_
  rw [← Bool.not_eq_true]
  intro hCounted
  rw [returnsContext_of_permits hPermits hCounted] at h
  cases h

theorem atMost_entry (request : Request) :
    (request.entry config).AtMost (Op.sendsComplete key) (returnsContext key request).toNat := by
  cases hReturns : returnsContext key request with
  | false => exact Program.atMost_of_uses (uses_hushed_of_permits hReturns (uses_entry config request)) _
  | true =>
      obtain ⟨cancelled, context, rfl⟩ := returnsContext_eq hReturns
      rw [← hReturns]
      exact (atMost_sendComplete key cancelled context).bind fun _ => trivial

theorem atMost_body (request : Request) (round : SendRound) :
    (request.body round).AtMost (Op.sendsComplete key) 0 := by
  cases hReturns : returnsContext key request with
  | false => exact Program.atMost_of_uses (uses_hushed_of_permits hReturns (uses_body request round)) _
  | true =>
      obtain ⟨cancelled, context, rfl⟩ := returnsContext_eq hReturns
      trivial

/-- The completions handed over so far, and how many more the rest may hand over. -/
def handover (config : H3Config) (key : StreamKey) : (adapter config).Transcript :=
  Machine.atMostTranscript (Op.sendsComplete key) (returnsContext key) atMost_entry atMost_body

end Callback

/-- A taken completion is of an accepted send that is no longer outstanding. -/
theorem outstanding_taken_le {config : H3Config} {trace : List AdapterLabel}
    {reached : AdapterConfig} (run : Runs config trace reached) (key : StreamKey) :
    (reached.state.stream key).outstanding.length + taken key trace ≤ accepted key trace := by
  have hKept : (adapter config).Kept permits (SendLedger key) :=
    ⟨fun _ _ _ hDeliver h => h.begun hDeliver, fun _ _ _ _ hPermits h => h.event _ _ _ hPermits,
      fun _ _ h => h.finished _⟩
  have hLedger := hKept.holds (uses_entry config) uses_body run ⟨rfl, Nat.le_refl 0⟩
  obtain ⟨hContexts, hCompletions⟩ := hLedger
  dsimp only at hContexts hCompletions
  have hHanded : handed key trace ≤ returned key trace := by
    apply run.countP_le (handover config key) (.streamCallback key)
    · rintro request events rest ⟨n, -, hCount⟩
      have hLess : events.countP (sendsComplete key) ≤
          events.countP fun e => Op.sendsComplete key e.op := by
        apply List.countP_mono_left
        intro e _ hCounted
        exact (Bool.and_eq_true_iff.1 hCounted).2
      omega
    · intro e hCounted
      exact of_decide_eq_true (Bool.and_eq_true_iff.1 hCounted).1
  omega

end MsQuicH3
