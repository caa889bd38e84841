import MsQuicH3.Concurrency.Ownership
import MsQuicH3.Concurrency.Calls
import MsQuicH3.Effect

/-! The owned send buffers. A buffer belongs to the call that boxed it, from an accepted
submission on to native code, and from its completion on to the callback. Whoever has it is
the only one, and what is lost is what a callback that was poisoned or panicked had. -/
namespace MsQuicH3

open Concurrency

section Account

variable (key : StreamKey) (context : BufferId)

/-- The allocation of the buffer. -/
def Op.boxes : (op : Op) → op.Reply → Bool
  | .stream other (.boxSendBuffer _), boxed => other == key && boxed == context
  | _, _ => false

def Op.frees : Op → Bool
  | .stream other (.dropBox freed) => other == key && freed == context
  | _ => false

def Op.offers : Op → Bool
  | .stream other (.streamSend lent _) => other == key && lent == context
  | _ => false

/-- A submission of the buffer that native code accepts. -/
def Op.lends : (op : Op) → op.Reply → Bool
  | .stream other (.streamSend lent _), result => other == key && lent == context && result.isOk
  | _, _ => false

/-- Whoever frees or submits a buffer has it. -/
def bufferOwner : Discipline signature Nat where
  takes op held := Op.frees key context op = true ∨ Op.offers key context op = true → 0 < held
  possible _ _ _ := True
  keeps held op reply := held + (Op.boxes key context op reply).toNat -
    ((Op.frees key context op).toNat + (Op.lends key context op reply).toNat)

/-- A completion gives the buffer back. -/
def Request.returns : Request → Nat
  | .stream other (.sendComplete _ (some returned)) =>
      if other = key ∧ returned = context then 1 else 0
  | _ => 0

def boxed (s : State) : Nat := (s.stream key).boxes.countP fun box => box.1 == context

def allocated (trace : List AdapterLabel) : Nat :=
  trace.countP (Machine.counts fun e => Op.boxes key context e.op e.reply)

def reclaimed (trace : List AdapterLabel) : Nat :=
  trace.countP (Machine.counts fun e => Op.frees key context e.op)

/-- What a call had in hand of the buffer when it returned. -/
def lostBy (call : AdapterCall) : Nat :=
  (bufferOwner key context).hold (call.request.returns key context) call.events

def lost (trace : List AdapterLabel) : Nat :=
  (trace.map fun
    | .finished call => lostBy key context call
    | _ => 0).sum

/-- The buffer is allocated at most once, and as often as it is somewhere or reclaimed. -/
structure Allocated (w : AdapterWorld) (x : Nat) : Prop where
  boxed : boxed key context w.state = x
  fresh : (w.state.stream key).nextBuffer ≤ context → allocated key context w.trace = 0
  once : allocated key context w.trace ≤ 1
  account : allocated key context w.trace = x + reclaimed key context w.trace

variable {key context} in
/-- What there is of a buffer it is one. -/
theorem Allocated.le_one {w : AdapterWorld} {x : Nat} (h : Allocated key context w x) : x ≤ 1 := by
  have hOnce := h.once
  rw [h.account] at hOnce
  exact Nat.le_of_add_right_le hOnce

variable {key context} in
theorem Allocated.unspent {w : AdapterWorld} {x : Nat} (h : Allocated key context w x)
    (hSome : 0 < x) : reclaimed key context w.trace = 0 := by
  have hOnce := h.once
  rw [h.account] at hOnce
  omega

end Account

section Perform

variable {key : StreamKey} {context : BufferId} {config : H3Config} (choice : Choice) (s : State)
  {op : Op}

/-- What an operation does to a buffer and to the contexts native code holds. -/
structure Moved (key : StreamKey) (context : BufferId) (op : Op) (reply : op.Reply)
    (s s' : State) : Prop where
  boxed : boxed key context s' =
    if Op.frees key context op then 0
    else boxed key context s + (Op.boxes key context op reply).toNat
  fresh : Op.boxes key context op reply = true → (s.stream key).nextBuffer ≤ context
  next : (s'.stream key).nextBuffer ≤ context →
    (s.stream key).nextBuffer ≤ context ∧ Op.boxes key context op reply = false
  outstanding : (s'.stream key).outstanding.count context =
    (s.stream key).outstanding.count context + (Op.lends key context op reply).toNat

/-- A buffer that is not the one a filter takes out stays. -/
theorem countP_filter_ne {boxes : List (BufferId × SendBuffer)} {freed context : BufferId}
    (h : freed ≠ context) :
    (boxes.filter fun box => box.1 != freed).countP (fun box => box.1 == context) =
      boxes.countP fun box => box.1 == context := by
  rw [List.countP_filter]
  apply List.countP_congr
  intro box _
  simp only [Bool.and_eq_true, bne_iff_ne, beq_iff_eq, and_iff_left_iff_imp]
  rintro rfl
  exact Ne.symm h

theorem countP_filter_self (boxes : List (BufferId × SendBuffer)) (context : BufferId) :
    (boxes.filter fun box => box.1 != context).countP (fun box => box.1 == context) = 0 := by
  rw [List.countP_filter, List.countP_eq_zero]
  intro box _
  simp

theorem moved : Moved key context op (op.perform config choice s).1 s
    (op.perform config choice s).2 := by
  cases op with
  | conn op =>
      have hStream : ((Op.conn op).perform config choice s).2.stream = s.stream :=
        op.perform_stream choice s
      constructor
      · simp [boxed, hStream, Op.frees, Op.boxes]
      · simp [Op.boxes]
      · simp [hStream, Op.boxes]
      · simp [hStream, Op.lends]
  | stream other op =>
      by_cases hKey : other = key
      · subst hKey
        constructor
        · simp only [boxed, Op.perform_stream_self, StreamOp.perform_boxes]
          cases op with
          | boxSendBuffer buffer =>
              rw [List.countP_append, List.countP_singleton]
              by_cases hContext : (s.stream other).nextBuffer = context <;>
                simp [Op.frees, Op.boxes, Op.perform, StreamOp.perform, hContext]
          | dropBox freed =>
              by_cases hContext : freed = context
              · subst hContext
                simp [Op.frees, countP_filter_self]
              · simp [Op.frees, Op.boxes, hContext, countP_filter_ne hContext]
          | _ => simp [Op.frees, Op.boxes]
        · cases op with
          | boxSendBuffer buffer =>
              simpa [Op.boxes, Op.perform, StreamOp.perform] using Nat.le_of_eq
          | _ => simp [Op.boxes]
        · simp only [Op.perform_stream_self, StreamOp.perform_nextBuffer]
          cases op with
          | boxSendBuffer buffer =>
              intro hNext
              refine ⟨Nat.le_of_succ_le hNext, ?_⟩
              simpa [Op.boxes, Op.perform, StreamOp.perform] using Nat.ne_of_lt hNext
          | _ => simp [Op.boxes]
        · simp only [Op.perform_stream_self, StreamOp.perform_outstanding]
          cases op with
          | streamSend lent buffer =>
              by_cases hContext : lent = context <;> cases hResult : choice.result <;>
                simp [Op.lends, Op.perform, StreamOp.perform, hResult, hContext, Except.isOk,
                  Except.toBool]
          | _ => simp [Op.lends]
      · have hOther : ((Op.stream other op).perform config choice s).2.stream key = s.stream key :=
          Op.perform_stream_of_ne config choice op s (Ne.symm hKey)
        constructor
        · rw [boxed, hOther]
          cases op <;> simp [Op.frees, Op.boxes, hKey, boxed]
        · cases op <;> simp [Op.boxes, hKey]
        · cases op <;> simp [Op.boxes, hKey, hOther]
        · rw [hOther]
          cases op <;> simp [Op.lends, hKey]

end Perform

section Code

variable {key other : StreamKey} {context : BufferId}

/-- Operations that create, free or submit a buffer. -/
def Op.onBuffers : Op → Bool
  | .stream _ (.boxSendBuffer _) | .stream _ (.dropBox _) | .stream _ (.streamSend _ _) => true
  | _ => false

theorem keeps_of_quiet {op : Op} (h : op.onBuffers = false) (start : Nat) :
    (bufferOwner key context).Keeps (· = start) op := by
  rintro held rfl
  have hSame : Op.frees key context op = false ∧ Op.offers key context op = false ∧
      ∀ reply, (bufferOwner key context).keeps held op reply = held := by
    cases op with
    | conn op => exact ⟨rfl, rfl, fun _ => rfl⟩
    | stream other op =>
        cases op with
        | boxSendBuffer _ | dropBox _ | streamSend _ _ => cases h
        | _ => exact ⟨rfl, rfl, fun _ => rfl⟩
  obtain ⟨hFrees, hOffers, hKeeps⟩ := hSame
  refine ⟨?_, hKeeps⟩
  simp [bufferOwner, hFrees, hOffers]

/-- Requests whose code touches no buffer. -/
def Request.quiet : Request → Bool
  | .send _ (.sendData _) | .stream _ (.sendComplete _ (some _)) => false
  | _ => true

theorem quiet_of_permits {request : Request} {op : Op} (hRequest : request.quiet = true)
    (h : permits request op) : op.onBuffers = false := by
  cases op with
  | conn op => rfl
  | stream other op =>
      cases request with
      | send key call =>
          have hIssues := h.2
          cases call with
          | sendData payload => cases hRequest
          | _ => cases op <;> first | rfl | cases hIssues
      | stream key event =>
          have hIssues := h.2
          cases event with
          | sendComplete cancelled returned =>
              cases returned with
              | some returned => cases hRequest
              | none => cases op <;> first | rfl | cases hIssues
          | _ => cases op <;> first | rfl | cases hIssues
      | recv key call =>
          have hIssues := h.2
          cases call <;> cases op <;> first | rfl | cases hIssues
      | opener n call => cases op <;> first | rfl | cases h
      | _ => cases h

variable {α : Type} {held : Nat} {P : Nat → α → Prop}

/-- Code of such a request keeps what it has. -/
theorem affords_of_quiet {code : Code α} (request : Request) (hRequest : request.quiet = true)
    (h : code.Uses (permits request)) (hResult : ∀ result, P held result) :
    code.Affords (bufferOwner key context) P held := by
  apply Program.affords_of_uses (I := (· = held))
    (h.mono fun op hOp => keeps_of_quiet (quiet_of_permits hRequest hOp) held) rfl
  apply (Program.yields_true code).mono
  rintro result - _ rfl
  exact hResult result

theorem affords_quietOp {op : StreamOp} {next : op.Reply → Code α}
    (hQuiet : (Op.stream other op).onBuffers = false)
    (h : ∀ reply, (next reply).Affords (bufferOwner key context) P held) :
    (onStream other op >>= next).Affords (bufferOwner key context) P held := by
  obtain ⟨hTakes, hKeeps⟩ : (bufferOwner key context).takes _ held ∧ ∀ reply, _ = held :=
    keeps_of_quiet hQuiet held held rfl
  refine ⟨hTakes, fun reply _ => ?_⟩
  rw [hKeeps reply]
  exact h reply

/-- The operations of a buffer, by whether it is this one. -/
theorem affords_box {buffer : SendBuffer} {next : BufferId → Code α}
    (h : ∀ boxed, (next boxed).Affords (bufferOwner key context) P
      (held + (other == key && boxed == context).toNat)) :
    (onStream other (.boxSendBuffer buffer) >>= next).Affords (bufferOwner key context) P held := by
  refine ⟨?_, fun boxed _ => h boxed⟩
  rintro (hFrees | hOffers)
  · cases hFrees
  · cases hOffers

theorem affords_free {freed : BufferId} {next : Unit → Code α}
    (hHeld : other = key ∧ freed = context → 0 < held)
    (h : (next ()).Affords (bufferOwner key context) P
      (held - (other == key && freed == context).toNat)) :
    (onStream other (.dropBox freed) >>= next).Affords (bufferOwner key context) P held := by
  refine ⟨?_, fun _ _ => h⟩
  rintro (hFrees | hOffers)
  · exact hHeld (by simpa [Op.frees] using hFrees)
  · cases hOffers

theorem affords_submit {lent : BufferId} {buffer : SendBuffer} {next : Except Status Unit → Code α}
    (hHeld : other = key ∧ lent = context → 0 < held)
    (hOk : (next (.ok ())).Affords (bufferOwner key context) P
      (held - (other == key && lent == context).toNat))
    (hError : ∀ status, (next (.error status)).Affords (bufferOwner key context) P held) :
    (onStream other (.streamSend lent buffer) >>= next).Affords (bufferOwner key context) P
      held := by
  refine ⟨?_, fun result _ => ?_⟩
  · rintro (hFrees | hOffers)
    · cases hFrees
    · exact hHeld (by simpa [Op.offers] using hOffers)
  · cases result with
    | ok _ =>
        have hKeeps : (bufferOwner key context).keeps held (.stream other (.streamSend lent buffer))
            (.ok ()) = held - (other == key && lent == context).toNat := by
          simp [bufferOwner, Op.boxes, Op.frees, Op.lends, Except.isOk, Except.toBool]
        rw [← hKeeps] at hOk
        exact hOk
    | error status =>
        have hKeeps : (bufferOwner key context).keeps held (.stream other (.streamSend lent buffer))
            (.error status) = held := by
          simp [bufferOwner, Op.boxes, Op.frees, Op.lends, Except.isOk, Except.toBool]
        have hNext := hError status
        rw [← hKeeps] at hNext
        exact hNext

/-- A submission leaves the buffer with native code, or it is freed on the spot. -/
theorem affords_submitOwnedSend (buffer : SendBuffer) : (submitOwnedSend other buffer).Affords
    (bufferOwner key context) (fun held _ => held = 0) 0 := by
  apply affords_box
  intro boxed
  have hHeld : other = key ∧ boxed = context →
      0 < 0 + (other == key && boxed == context).toNat := by
    rintro ⟨rfl, rfl⟩
    simp
  apply affords_submit hHeld
  · exact Nat.sub_eq_zero_of_le (Nat.zero_add _).le
  · intro status
    apply affords_free hHeld
    exact Nat.sub_eq_zero_of_le (Nat.zero_add _).le

theorem affords_sendDataRound (round : SendRound) : (sendDataRound other round).Affords
    (bufferOwner key context) (fun held _ => held = 0) 0 := by
  apply affords_quietOp rfl
  intro command
  have hQuiet : ∀ {code : Round}, code.Uses (permits (.send other .pollReady)) →
      code.Affords (bufferOwner key context) (fun held _ => held = 0) 0 :=
    fun h => affords_of_quiet _ rfl h fun _ => rfl
  split
  · rfl
  · rfl
  · exact hQuiet (uses_commitSendWinner other _ rfl fun _ => trivial)
  · apply Program.Affords.bind
    apply (affords_submitOwnedSend _).mono
    rintro held result rfl
    exact hQuiet ((uses_resolveTerminal other rfl rfl).bind fun _ => trivial)
  · exact hQuiet (uses_publishInput other _ _ _ rfl)
  · rfl

theorem affords_streamHandler (event : StreamEvent) : (streamHandler other event).Affords
    (bufferOwner key context)
    (fun held _ => held ≤ (Request.stream other event).returns key context) ((Request.stream other event).returns key context) := by
  by_cases hQuiet : (Request.stream other event).quiet = true
  · exact affords_of_quiet _ hQuiet (uses_streamHandler other event) fun _ => le_rfl
  obtain ⟨cancelled, returned, rfl⟩ :
      ∃ cancelled returned, event = .sendComplete cancelled (some returned) := by
    cases event with
    | sendComplete cancelled returned =>
        cases returned with
        | some returned => exact ⟨cancelled, returned, rfl⟩
        | none => exact absurd rfl hQuiet
    | _ => exact absurd rfl hQuiet
  generalize hReturns : (Request.stream other (.sendComplete cancelled (some returned))).returns key
    context = count
  have hOwn : other = key ∧ returned = context → 0 < count := by
    rintro ⟨rfl, rfl⟩
    simp [← hReturns, Request.returns]
  have hAsk : ∀ k held (next : Bool → Code (Except Status Unit)),
      (next false).Affords (bufferOwner key context) (fun held _ => held ≤ count) held →
      (next true).Affords (bufferOwner key context) (fun held _ => held ≤ count) (id held) →
      (onStream other (.panicPoint k) >>= next).Affords (bufferOwner key context)
        (fun held _ => held ≤ count) held := by
    intro k held next hFalse hTrue
    apply affords_quietOp rfl
    intro struck
    cases struck with
    | true => exact hTrue
    | false => exact hFalse
  have hRecover : ∀ held, held ≤ count → (streamRecover other).Affords (bufferOwner key context)
      (fun held _ => held ≤ count) (id held) := fun held hHeld =>
    affords_of_quiet (.stream other .other) rfl
      ((uses_streamRecover other).mono fun _ => recoverPermits_permits) fun _ => hHeld
  have hCarries : (streamCallback other (.sendComplete cancelled (some returned))).Carries
      (bufferOwner key context) (fun _ _ _ => ()) (fun _ held => held ≤ count)
      (fun held _ => held ≤ count) () count := by
    have hSend : ∀ held, (bufferOwner key context).takes (.stream other (.sendEvent
        (.complete cancelled))) held ∧ ∀ reply, (bufferOwner key context).keeps held
          (.stream other (.sendEvent (.complete cancelled))) reply = held :=
      fun held => keeps_of_quiet rfl held held rfl
    refine ⟨?_, fun _ _ => ⟨Nat.sub_le _ _, (hSend _).1, fun reply _ => ?_⟩⟩
    · rintro (hFrees | hOffers)
      · exact hOwn (by simpa [Op.frees] using hFrees)
      · cases hOffers
    · rw [(hSend _).2 reply]
      exact ⟨Nat.sub_le _ _, Nat.sub_le _ _⟩
  apply affords_quietOp rfl
  intro poisoned
  split
  · exact le_rfl
  · rw [Program.guarded_eq_guardedWith (fun _ _ _ => ()) _ _ _ _ ()]
    exact Program.Affords.guardedWith hAsk (fun _ => hRecover) hCarries 0 le_rfl

/-- Code of any request ends with no more than the request brought along. -/
def Leaves (key : StreamKey) (context : BufferId) (request : Request) (held : Nat) :
    SendRound ⊕ Result → Prop :=
  Sum.elim (fun _ => held = 0) (fun _ => held ≤ request.returns key context)

theorem returns_eq_zero {request : Request} (h : ∀ other cancelled returned,
    request ≠ .stream other (.sendComplete cancelled (some returned))) :
    request.returns key context = 0 := by
  unfold Request.returns
  split
  · exact absurd rfl (h _ _ _)
  · rfl

theorem returns_of_quiet {request : Request} (h : request.quiet = true) :
    request.returns key context = 0 := by
  apply returns_eq_zero
  rintro other cancelled returned rfl
  cases h

theorem leaves_zero (request : Request) (outcome : SendRound ⊕ Result) :
    Leaves key context request 0 outcome := by
  cases outcome with
  | inl round => rfl
  | inr result => exact Nat.zero_le _

theorem affords_entry (config : H3Config) (request : Request) : (request.entry config).Affords
    (bufferOwner key context) (Leaves key context request) (request.returns key context) := by
  by_cases hQuiet : request.quiet = true
  · rw [returns_of_quiet hQuiet]
    exact affords_of_quiet request hQuiet (uses_entry config request) (leaves_zero request)
  cases request with
  | stream other event =>
      apply Program.Affords.bind
      exact (affords_streamHandler event).mono fun held result hHeld => hHeld
  | send other call =>
      cases call with
      | sendData payload =>
          have hQuiet : (sendData other config payload).Uses (permits (.send other .pollReady)) :=
            (uses_resolveTerminal other rfl rfl).bind fun _ => trivial
          exact affords_of_quiet _ rfl hQuiet (leaves_zero _)
      | _ => exact absurd rfl hQuiet
  | _ => exact absurd rfl hQuiet

theorem affords_body (request : Request) (round : SendRound) : (request.body round).Affords
    (bufferOwner key context) (Leaves key context request) 0 := by
  by_cases hQuiet : request.quiet = true
  · exact affords_of_quiet request hQuiet (uses_body request round) (leaves_zero request)
  cases request with
  | stream other event => exact Nat.zero_le _
  | send other call =>
      cases call with
      | sendData payload =>
          apply (affords_sendDataRound round).mono
          rintro held outcome rfl
          exact leaves_zero _ outcome
      | _ => exact absurd rfl hQuiet
  | _ => exact absurd rfl hQuiet

end Code

section Ledger

variable {key : StreamKey} {context : BufferId} {request : Request}

/-- A request that is made takes the buffer it brings along from native code. -/
theorem delivered_buffers {s s' : State} (h : deliver request s = some s') :
    boxed key context s' = boxed key context s ∧
    (s'.stream key).nextBuffer = (s.stream key).nextBuffer ∧
    (s'.stream key).outstanding.count context + request.returns key context =
      (s.stream key).outstanding.count context := by
  by_cases hReturns : ∃ other cancelled returned,
      request = .stream other (.sendComplete cancelled (some returned))
  · obtain ⟨other, cancelled, returned, rfl⟩ := hReturns
    obtain ⟨hMem, rfl⟩ := deliver_returned.1 h
    by_cases hKey : key = other
    · subst hKey
      refine ⟨by simp [boxed], by simp, ?_⟩
      by_cases hContext : returned = context
      · subst hContext
        have hSome := List.count_pos_iff.2 hMem
        simp [Request.returns]
        omega
      · simp [Request.returns, hContext, List.count_erase_of_ne (Ne.symm hContext)]
    · simp [boxed, Request.returns, State.setStream_of_ne _ _ hKey, Ne.symm hKey]
  · simp only [not_exists] at hReturns
    rcases deliver_cases h with rfl | ⟨other, cancelled, returned, hRequest, -⟩
    · rw [returns_eq_zero hReturns]
      exact ⟨rfl, rfl, rfl⟩
    · exact absurd hRequest (hReturns _ _ _)

theorem lost_snoc (trace : List AdapterLabel) (label : AdapterLabel) :
    lost key context (trace ++ [label]) = lost key context trace + lost key context [label] := by
  simp [lost]

theorem allocated_begun {w : AdapterWorld} {s : State} {x : Nat}
    (hDeliver : deliver request w.state = some s) (h : Allocated key context w x) :
    Allocated key context (w.after (.begun request) s) x := by
  obtain ⟨hBoxed, hNext, -⟩ := @delivered_buffers key context _ _ _ hDeliver
  have hAllocated : allocated key context (w.after (.begun request) s).trace =
      allocated key context w.trace := by simp [allocated, Machine.counts]
  have hReclaimed : reclaimed key context (w.after (.begun request) s).trace =
      reclaimed key context w.trace := by simp [reclaimed, Machine.counts]
  constructor
  · rw [← h.boxed]
    exact hBoxed
  · rw [hAllocated, World.after_state, hNext]
    exact h.fresh
  · rw [hAllocated]
    exact h.once
  · rw [hAllocated, hReclaimed]
    exact h.account

theorem allocated_finished {w : AdapterWorld} {call : AdapterCall} {x : Nat}
    (h : Allocated key context w x) :
    Allocated key context (w.after (.finished call) w.state) x := by
  have hAllocated : allocated key context (w.after (.finished call) w.state).trace =
      allocated key context w.trace := by simp [allocated, Machine.counts]
  have hReclaimed : reclaimed key context (w.after (.finished call) w.state).trace =
      reclaimed key context w.trace := by simp [reclaimed, Machine.counts]
  constructor
  · exact h.boxed
  · rw [hAllocated]
    exact h.fresh
  · rw [hAllocated]
    exact h.once
  · rw [hAllocated, hReclaimed]
    exact h.account

/-- An operation does one thing with the buffer at most. -/
theorem one_trade {op : Op} (reply : op.Reply) : (Op.boxes key context op reply).toNat +
    (Op.frees key context op).toNat + (Op.lends key context op reply).toNat ≤ 1 := by
  cases op with
  | conn op => exact Nat.zero_le 1
  | stream other op =>
      cases op with
      | boxSendBuffer buffer => exact Bool.toNat_le _
      | dropBox freed =>
          change 0 + _ + 0 ≤ 1
          rw [zero_add, add_zero]
          exact Bool.toNat_le _
      | streamSend lent buffer =>
          change 0 + _ ≤ 1
          rw [zero_add]
          exact Bool.toNat_le _
      | _ => exact Nat.zero_le 1

theorem offers_of_lends {op : Op} {reply : op.Reply} (h : Op.lends key context op reply = true) :
    Op.offers key context op = true := by
  cases op with
  | conn op => cases h
  | stream other op =>
      cases op with
      | streamSend lent buffer => exact (Bool.and_eq_true_iff.1 h).1
      | _ => cases h

theorem allocated_event {config : H3Config} {w : AdapterWorld} {choice : Choice} {op : Op}
    {held rest : Nat} (hTakes : (bufferOwner key context).takes op held)
    (h : Allocated key context w ((w.state.stream key).outstanding.count context + (held + rest))) :
    Allocated key context ((adapter config).advance choice request op w)
      (((op.perform config choice w.state).2.stream key).outstanding.count context +
        ((bufferOwner key context).keeps held op (op.perform config choice w.state).1 + rest)) := by
  have hMoved : Moved key context op (op.perform config choice w.state).1 w.state
      (op.perform config choice w.state).2 := moved choice w.state
  have hAllocated : allocated key context ((adapter config).advance choice request op w).trace =
      allocated key context w.trace +
        (Op.boxes key context op (op.perform config choice w.state).1).toNat := by
    rw [allocated, Machine.advance_trace, List.countP_append, List.countP_singleton]
    cases hBoxes : Op.boxes key context op (op.perform config choice w.state).1 <;>
      simp [allocated, Machine.counts, Machine.event, hBoxes]
  have hReclaimed : reclaimed key context ((adapter config).advance choice request op w).trace =
      reclaimed key context w.trace + (Op.frees key context op).toNat := by
    rw [reclaimed, Machine.advance_trace, List.countP_append, List.countP_singleton]
    cases hFrees : Op.frees key context op <;>
      simp [reclaimed, Machine.counts, Machine.event, hFrees]
  obtain ⟨hBoxed, hFresh, hOnce, hAccount⟩ := h
  have hOne := @one_trade key context op (op.perform config choice w.state).1
  have hSome : (Op.frees key context op).toNat + (Op.lends key context op
      (op.perform config choice w.state).1).toNat ≤ held := by
    rcases Nat.eq_zero_or_pos held with rfl | hHeld
    · have hNone : ¬(Op.frees key context op = true ∨ Op.offers key context op = true) :=
        fun hTouch => absurd (hTakes hTouch) (Nat.lt_irrefl 0)
      rw [not_or] at hNone
      have hKept : Op.lends key context op (op.perform config choice w.state).1 = false :=
        Bool.eq_false_iff.2 fun hLends => hNone.2 (offers_of_lends hLends)
      rw [Bool.eq_false_iff.2 hNone.1, hKept]
      rfl
    · omega
  have hFirst : (Op.boxes key context op (op.perform config choice w.state).1).toNat = 0 ∨
      allocated key context w.trace = 0 := by
    cases hBoxes : Op.boxes key context op (op.perform config choice w.state).1 with
    | false => exact .inl rfl
    | true => exact .inr (hFresh (hMoved.fresh hBoxes))
  constructor
  · change boxed key context (op.perform config choice w.state).2 = _
    rw [hMoved.boxed, hMoved.outstanding, hBoxed]
    change _ = _ + (held + _ - _ + rest)
    split
    next hFrees =>
      simp only [hFrees, Bool.toNat_true] at *
      omega
    next hFrees =>
      simp only [hFrees, Bool.toNat_false] at *
      omega
  · intro hNext
    obtain ⟨hBefore, hNone⟩ := hMoved.next hNext
    rw [hAllocated, hFresh hBefore, hNone]
    rfl
  · rw [hAllocated]
    omega
  · rw [hAllocated, hReclaimed, hMoved.outstanding]
    change _ = _ + (held + _ - _ + rest) + _
    omega

/-- The books of one buffer. -/
def bufferLedger (key : StreamKey) (context : BufferId) (config : H3Config) :
    (adapter config).Ledger Nat where
  discipline := bufferOwner key context
  shares := ⊤
  start := Request.returns key context
  stored w := (w.state.stream key).outstanding.count context + lost key context w.trace
  valid := Allocated key context
  looped _ _ held := held = 0
  post request held _ := held ≤ request.returns key context
  start_mem _ := AddSubmonoid.mem_top _
  stored_mem _ := AddSubmonoid.mem_top _
  keeps_mem _ _ _ _ _ _ := AddSubmonoid.mem_top _
  entry request _ _ _ := affords_entry config request
  body request round held hHeld := by
    subst hHeld
    exact affords_body request round
  begun w request s frame hDeliver _ hValid := by
    obtain ⟨-, -, hCount⟩ := @delivered_buffers key context _ _ _ hDeliver
    have hLost : lost key context (w.after (.begun request) s).trace =
        lost key context w.trace := by
      rw [World.after_trace, lost_snoc]
      rfl
    have hTotal : ((w.after (.begun request) s).state.stream key).outstanding.count context +
        lost key context (w.after (.begun request) s).trace +
          (request.returns key context + frame) = (w.state.stream key).outstanding.count context + lost key context w.trace + frame := by
      rw [hLost, World.after_state, ← hCount]
      omega
    rw [hTotal]
    exact allocated_begun hDeliver hValid
  event w request op choice held frame _ _ hTakes hValid := by
    have hLost : lost key context ((adapter config).advance choice request op w).trace =
        lost key context w.trace := by
      rw [Machine.advance_trace, lost_snoc]
      rfl
    refine ⟨trivial, ?_⟩
    rw [hLost, add_assoc, add_left_comm (lost key context w.trace)]
    rw [add_assoc, add_left_comm (lost key context w.trace)] at hValid
    exact allocated_event hTakes hValid
  finished w call frame _ _ hValid := by
    have hLost : lost key context (w.after (.finished call) w.state).trace =
        lost key context w.trace + lostBy key context call := by
      rw [World.after_trace, lost_snoc]
      rfl
    rw [← add_assoc] at hValid
    rw [hLost, World.after_state, ← add_assoc]
    exact allocated_finished hValid

end Ledger

section Completion

variable {key : StreamKey} {context : BufferId}

/-- A callback that is poisoned, or that a panic strikes. -/
def Op.interrupts : (op : Op) → op.Reply → Bool
  | .stream _ .isPoisoned, poisoned => poisoned
  | .stream _ (.panicPoint _), struck => struck
  | _, _ => false

def freeNote (key : StreamKey) (context : BufferId) (op : Op) (_ : op.Reply) : List Unit :=
  if Op.frees key context op then [()] else []

theorem ends_sendComplete (cancelled : Bool) :
    (streamHandler key (.sendComplete cancelled (some context))).Ends
      (fun op reply => Op.interrupts op reply = false) (freeNote key context)
      (fun notes _ => notes = [()]) [] := by
  have hAsk : ∀ k notes (next : Bool → Code (Except Status Unit)),
      (next false).Ends (fun op reply => Op.interrupts op reply = false) (freeNote key context)
        (fun notes _ => notes = [()]) notes →
      (onStream key (.panicPoint k) >>= next).Ends
        (fun op reply => Op.interrupts op reply = false) (freeNote key context)
        (fun notes _ => notes = [()]) notes := by
    intro k notes next hNext struck hStruck
    obtain rfl : struck = false := hStruck
    have hNone : notes ++ freeNote key context (.stream key (.panicPoint k)) false = notes := by
      simp [freeNote, Op.frees]
    rw [hNone]
    exact hNext
  have hBody : (streamCallback key (.sendComplete cancelled (some context))).Ends
      (fun op reply => Op.interrupts op reply = false) (freeNote key context)
      (fun notes _ => notes = [()]) [] := by
    intro dropped _ sent _
    change [] ++ freeNote key context (.stream key (.dropBox context)) dropped ++
      freeNote key context (.stream key (.sendEvent (.complete cancelled))) sent = [()]
    simp [freeNote, Op.frees]
  intro poisoned hPoisoned
  obtain rfl : poisoned = false := hPoisoned
  exact hBody.guarded hAsk 0

theorem length_freeNotes (events : List AdapterEvent) :
    (events.flatMap fun e => freeNote key context e.op e.reply).length =
      events.countP fun e => Op.frees key context e.op := by
  induction events with
  | nil => rfl
  | cons e events ih =>
      rw [List.flatMap_cons, List.length_append, ih, List.countP_cons, freeNote, Nat.add_comm]
      split <;> rfl

/-- A completion that is not interrupted frees its buffer, and once. -/
theorem freed_of_calm {config : H3Config} {trace : List AdapterLabel} {reached : AdapterConfig}
    (run : Runs config trace reached) {call : AdapterCall} (hCall : .finished call ∈ trace)
    {cancelled : Bool}
    (hRequest : call.request = .stream key (.sendComplete cancelled (some context)))
    (hCalm : ∀ e ∈ call.events, Op.interrupts e.op e.reply = false) :
    call.events.countP (fun e => Op.frees key context e.op) = 1 := by
  have hTranscript := (Machine.endsTranscript
    (fun request => request = .stream key (.sendComplete cancelled (some context)))
    (fun op reply => Op.interrupts op reply = false) (freeNote key context)
    (fun _ notes _ => notes = [()]) (m := adapter config) (by
      rintro _ rfl
      apply Program.Ends.bind
      apply (ends_sendComplete cancelled).mono
      rintro notes result rfl
      exact ⟨_, rfl, rfl⟩)).sound run
  obtain ⟨result, hOutcome, hNotes⟩ := hTranscript.2 call hCall hRequest hCalm
  rw [← length_freeNotes, hNotes]
  rfl

end Completion

section Runs

variable {config : H3Config} {key : StreamKey} {context : BufferId} {trace : List AdapterLabel}
  {reached : AdapterConfig}

/-- A completion that returns without having freed its buffer. -/
def leaks (key : StreamKey) (context : BufferId) : AdapterLabel → Bool
  | .finished call => call.request.returns key context == 1 &&
      call.events.all fun e => !Op.frees key context e.op
  | _ => false

theorem leaks_iff {call : AdapterCall} : leaks key context (.finished call) = true ↔
    call.request.returns key context = 1 ∧
      call.events.countP (fun e => Op.frees key context e.op) = 0 := by
  simp [leaks, List.countP_eq_zero]

theorem hold_of_frees {events : List AdapterEvent} (start : Nat)
    (h : ∀ e ∈ events, Op.boxes key context e.op e.reply = false ∧
      Op.lends key context e.op e.reply = false) :
    (bufferOwner key context).hold start events =
      start - events.countP fun e => Op.frees key context e.op := by
  induction events generalizing start with
  | nil => rfl
  | cons e events ih =>
      obtain ⟨hBoxes, hLends⟩ := h e List.mem_cons_self
      have hKeeps : (bufferOwner key context).keeps start e.op e.reply =
          start - (Op.frees key context e.op).toNat := by
        simp [bufferOwner, hBoxes, hLends]
      have hRest := ih ((bufferOwner key context).keeps start e.op e.reply)
        fun other hMem => h other (List.mem_cons_of_mem e hMem)
      rw [hKeeps] at hRest
      change (bufferOwner key context).hold ((bufferOwner key context).keeps start e.op e.reply)
        events = _
      rw [hKeeps, hRest, List.countP_cons]
      cases Op.frees key context e.op with
      | true =>
          simp only [Bool.toNat_true, ↓reduceIte]
          omega
      | false => rfl

/-- A callback neither allocates nor submits. -/
theorem spent_of_permits {other : StreamKey} {event : StreamEvent} {op : Op}
    (h : permits (.stream other event) op) (reply : op.Reply) :
    Op.boxes key context op reply = false ∧ Op.lends key context op reply = false := by
  cases op with
  | conn op => exact ⟨rfl, rfl⟩
  | stream target op =>
      have hIssues := h.2
      cases op with
      | boxSendBuffer _ | streamSend _ _ => cases hIssues
      | _ => exact ⟨rfl, rfl⟩

/-- A request that brings the buffer along is its completion. -/
theorem eq_of_returns {request : Request} (h : request.returns key context ≠ 0) :
    ∃ cancelled, request = .stream key (.sendComplete cancelled (some context)) := by
  unfold Request.returns at h
  split at h
  next other cancelled returned =>
      split at h
      next hSame =>
          obtain ⟨rfl, rfl⟩ := hSame
          exact ⟨cancelled, rfl⟩
      · exact absurd rfl h
  · exact absurd rfl h

theorem balanced_initial (config : H3Config) : (bufferLedger key context config).valid ⟨{}, []⟩
    ((bufferLedger key context config).stored ⟨{}, []⟩) := by
  constructor <;> intros <;> first | rfl | exact Nat.zero_le 1

theorem lostBy_eq (run : Runs config trace reached) {call : AdapterCall}
    (hCall : .finished call ∈ trace) :
    lostBy key context call = (leaks key context (.finished call)).toNat := by
  have hPost : lostBy key context call ≤ call.request.returns key context :=
    ((bufferLedger key context config).returned (balanced_initial config) run hCall).2
  by_cases hReturns : call.request.returns key context = 0
  · have hNone : leaks key context (.finished call) = false :=
      Bool.eq_false_iff.2 fun hLeaks => by rw [(leaks_iff.1 hLeaks).1] at hReturns; cases hReturns
    rw [hNone]
    exact Nat.le_zero.1 (hReturns ▸ hPost)
  obtain ⟨cancelled, hRequest⟩ := eq_of_returns hReturns
  have hOne : call.request.returns key context = 1 := by simp [hRequest, Request.returns]
  have hHold : lostBy key context call =
      1 - call.events.countP fun e => Op.frees key context e.op := by
    rw [lostBy, hOne]
    apply hold_of_frees
    intro e he
    obtain ⟨hOwn, hMem⟩ := (Machine.Runs.call_events run).2 call hCall e he
    have hPermits := Machine.Runs.permitted (uses_entry config) uses_body run hMem
    rw [hOwn, hRequest] at hPermits
    exact spent_of_permits hPermits _
  rw [hHold]
  cases hLeaks : leaks key context (.finished call) with
  | true => rw [(leaks_iff.1 hLeaks).2]; rfl
  | false =>
      have hSome : call.events.countP (fun e => Op.frees key context e.op) ≠ 0 := fun hNone =>
        Bool.eq_false_iff.1 hLeaks (leaks_iff.2 ⟨hOne, hNone⟩)
      rw [Bool.toNat_false]
      omega

theorem lost_eq (run : Runs config trace reached) :
    lost key context trace = trace.countP (leaks key context) := by
  have hCalls : ∀ call, .finished call ∈ trace →
      lostBy key context call = (leaks key context (.finished call)).toNat := fun _ => lostBy_eq run
  clear run
  induction trace with
  | nil => rfl
  | cons label trace ih =>
      have hRest := ih fun call hCall => hCalls call (List.mem_cons_of_mem label hCall)
      have hCons : lost key context (label :: trace) =
          lost key context [label] + lost key context trace := by simp [lost]
      rw [hCons, hRest, List.countP_cons, Nat.add_comm]
      congr 1
      cases label with
      | finished call =>
          have hCall : lost key context [.finished call] = lostBy key context call := by simp [lost]
          rw [hCall, hCalls call List.mem_cons_self]
          cases leaks key context (.finished call) <;> rfl
      | _ => rfl

/-- The life of a send buffer. -/
structure BufferOwned (key : StreamKey) (context : BufferId) (trace : List AdapterLabel)
    (reached : AdapterConfig) : Prop where
  once : allocated key context trace ≤ 1
  /-- Native code holds a buffer once, and only one that is still allocated. -/
  lent : (reached.state.stream key).outstanding.count context ≤ boxed key context reached.state ∧
    boxed key context reached.state ≤ 1
  /-- Whoever frees or submits a buffer finds it allocated, and native code has it not. -/
  touched : ∀ earlier e later, trace = earlier ++ .event e :: later →
    Op.frees key context e.op = true ∨ Op.offers key context e.op = true →
    boxed key context e.before = 1 ∧ context ∉ (e.before.stream key).outstanding ∧
      reclaimed key context earlier = 0
  /-- Between the calls it is with native code, or freed, or leaked. -/
  account : (∀ thread, reached.active thread = none) → allocated key context trace =
    reclaimed key context trace + (reached.state.stream key).outstanding.count context +
      trace.countP (leaks key context)
  /-- Only a callback that is poisoned or panics leaks. -/
  spared : ∀ call, .finished call ∈ trace → leaks key context (.finished call) = true →
    ∃ e ∈ call.events, Op.interrupts e.op e.reply = true

theorem send_buffer_owned (run : Runs config trace reached) (key : StreamKey) (context : BufferId) :
    BufferOwned key context trace reached := by
  have hBalanced := (bufferLedger key context config).sound (balanced_initial config) run
  obtain ⟨held, hTotal⟩ : ∃ held, Allocated key context ⟨reached.state, trace⟩
      ((reached.state.stream key).outstanding.count context + lost key context trace + held) :=
    ⟨_, hBalanced.total⟩
  refine ⟨hTotal.once, ?_, ?_, ?_, ?_⟩
  · have hBoxed : boxed key context reached.state = _ := hTotal.boxed
    rw [hBoxed]
    exact ⟨by omega, hTotal.le_one⟩
  · rintro earlier e later rfl hTouch
    obtain ⟨events, frame, -, hIssued⟩ :=
      (bufferLedger key context config).issued (balanced_initial config) run
    have hHeld : 0 < (bufferLedger key context config).hold e.request events := hIssued.takes hTouch
    have hValid : Allocated key context ⟨e.before, earlier⟩
      ((e.before.stream key).outstanding.count context + lost key context earlier +
        ((bufferLedger key context config).hold e.request events + frame)) := hIssued.valid
    have hBoxed : boxed key context e.before = _ := hValid.boxed
    have hOne := hValid.le_one
    refine ⟨by omega, List.count_eq_zero.1 (by omega), hValid.unspent (by omega)⟩
  · intro hIdle
    have hStored : Allocated key context ⟨reached.state, trace⟩
      ((reached.state.stream key).outstanding.count context + lost key context trace) :=
      hBalanced.idle hIdle
    have hSum : allocated key context trace = _ + reclaimed key context trace := hStored.account
    rw [hSum, lost_eq run]
    omega
  · intro call hCall hLeaks
    by_contra hCalm
    obtain ⟨hReturns, hNone⟩ := leaks_iff.1 hLeaks
    obtain ⟨cancelled, hRequest⟩ := eq_of_returns (by rw [hReturns]; exact Nat.one_ne_zero)
    have hOne := freed_of_calm run hCall hRequest fun e he =>
      Bool.eq_false_iff.2 fun hSome => hCalm ⟨e, he, hSome⟩
    rw [hNone] at hOne
    cases hOne

/-- A panic poisons the callback between a submission and its completion. -/
def leakedSend : List AdapterMove :=
  serveAll [(.send (.accepted 0) (.sendData [1]), 9)] ++
    (Request.stream (.accepted 0) .peerSendShutdown).serve
      ({} :: { panics := true } :: List.replicate 10 {}) ++
    serveAll [(.stream (.accepted 0) (.sendComplete false (some 0)), 2)]

theorem send_buffer_owned_leaked : ∃ trace reached, Runs .default trace reached ∧
    (allocated (.accepted 0) 0 trace, reclaimed (.accepted 0) 0 trace,
      trace.countP (leaks (.accepted 0) 0)) = (1, 0, 1) ∧
    BufferOwned (.accepted 0) 0 trace reached := by
  have hRun : ((adapter .default).run (Machine.initial {}) leakedSend).isSome := by decide
  exact ⟨_, _, Machine.runs_get hRun, rfl, send_buffer_owned (Machine.runs_get hRun) _ 0⟩

end Runs

end MsQuicH3
