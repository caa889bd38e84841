import MsQuicH3.SendAccount
import MsQuicH3.SendLedger

/-! The native operations of a send half exclude each other. The account of the
half is followed through its methods; it may only fall behind once a terminal is
recorded, and then nothing is submitted any more. -/
namespace MsQuicH3

open Concurrency

/-- The half submits a data send. -/
def submitsSend (key : StreamKey) : AdapterEvent → Bool
  | ⟨.send other _, .stream target (.streamSend _ _), _, _, _⟩ => other = key && target = key
  | _ => false

def submitsGraceful (key : StreamKey) : AdapterEvent → Bool
  | ⟨.send other _, .stream target .submitGraceful, _, _, _⟩ => other = key && target = key
  | _ => false

def submitsReset (key : StreamKey) : AdapterEvent → Bool
  | ⟨.send other _, .stream target (.submitReset _), _, _, _⟩ => other = key && target = key
  | _ => false

def finishes (key : StreamKey) (trace : List AdapterLabel) : Nat :=
  trace.countP (Machine.counts (submitsGraceful key))

def resets (key : StreamKey) (trace : List AdapterLabel) : Nat :=
  trace.countP (Machine.counts (submitsReset key))

def account (key : StreamKey) (trace : List AdapterLabel) : Account where
  accepted := accepted key trace
  taken := taken key trace
  finishes := finishes key trace
  resets := resets key trace

/-- A terminal is recorded that a resolution reports from now on. -/
def Over (key : StreamKey) (w : AdapterWorld) : Prop :=
  (definitive (w.state.slot key)).isSome ∨ w.state.conn.terminal.isSome

/-- The half submits at most one finish and one reset, nothing after them, and the
finish only when no accepted send is outstanding. -/
structure NativeExclusive (key : StreamKey) (trace : List AdapterLabel) : Prop where
  finish : finishes key trace ≤ 1
  reset : resets key trace ≤ 1
  afterwards : trace.Pairwise fun first second =>
    Machine.counts (submitsGraceful key) first = true ∨
      Machine.counts (submitsReset key) first = true →
    Machine.counts (submitsSend key) second = false
  drained : ∀ e, .event e ∈ trace → submitsGraceful key e = true →
    (e.before.stream key).outstanding = []

section Account

variable {key : StreamKey} {trace : List AdapterLabel} {e : AdapterEvent} {w w' : AdapterWorld}

theorem submitsGraceful_owner (h : submitsGraceful key e = true) :
    e.request.owner = .sendHalf key := by
  unfold submitsGraceful at h
  split at h
  · simp only [Bool.and_eq_true, decide_eq_true_eq] at h
    rw [← h.1]
    rfl
  · cases h

theorem submitsReset_owner (h : submitsReset key e = true) :
    e.request.owner = .sendHalf key := by
  unfold submitsReset at h
  split at h
  · simp only [Bool.and_eq_true, decide_eq_true_eq] at h
    rw [← h.1]
    rfl
  · cases h

theorem account_ownTrace (trace : List AdapterLabel) :
    account key (ownTrace key trace) = account key trace := by
  have hFinishes : finishes key (ownTrace key trace) = finishes key trace := by
    apply countP_ownTrace
    intro label h
    cases label with
    | event e => exact submitsGraceful_owner h
    | _ => cases h
  have hResets : resets key (ownTrace key trace) = resets key trace := by
    apply countP_ownTrace
    intro label h
    cases label with
    | event e => exact submitsReset_owner h
    | _ => cases h
  unfold account
  rw [accepted_ownTrace, taken_ownTrace, hFinishes, hResets]

theorem SendRely.account (h : SendRely key w w') : account key w'.trace = account key w.trace := by
  rw [← account_ownTrace, h.own, account_ownTrace]

theorem account_event (trace : List AdapterLabel) (e : AdapterEvent) :
    account key (trace ++ [.event e]) =
      { accepted := accepted key trace + (acceptsSend key e).toNat
        taken := taken key trace + (takesComplete key e).toNat
        finishes := finishes key trace + (submitsGraceful key e).toNat
        resets := resets key trace + (submitsReset key e).toNat } := by
  simp only [account, accepted, taken, finishes, resets, Machine.countP_snoc, Machine.counts]

theorem account_silent (hAccepts : acceptsSend key e = false) (hTakes : takesComplete key e = false)
    (hGraceful : submitsGraceful key e = false) (hReset : submitsReset key e = false) :
    account key (trace ++ [.event e]) = account key trace := by
  rw [account_event, hAccepts, hTakes, hGraceful, hReset]
  rfl

theorem account_begun (request : Request) :
    account key (trace ++ [.begun request]) = account key trace := by
  simp [account, accepted, taken, finishes, resets, Machine.counts]

theorem account_finished (call : AdapterCall) :
    account key (trace ++ [.finished call]) = account key trace := by
  simp [account, accepted, taken, finishes, resets, Machine.counts]

theorem Over.mono {s s' : AdapterWorld} (h : Over key s)
    (hSlot : SlotLe (s.state.slot key) (s'.state.slot key))
    (hConn : s.state.conn.Le s'.state.conn) : Over key s' := by
  rcases h with hSome | hSome
  · left
    obtain ⟨winner, hWinner⟩ := Option.isSome_iff_exists.1 hSome
    rw [hSlot.winner winner hWinner]
    exact hSome
  · exact .inr (hConn.occupied hSome)

end Account

/-- The account at each point of a method. -/
def accountAt (key : StreamKey) : SendPoint → AdapterWorld → Prop
  | .load purpose, w =>
      Over key w ∨ (account key w.trace).Free (w.state.reducer key) purpose.due purpose.placed
  | .peek purpose slot, w => decides slot = false ∧
      match slot with
      | some (.connection _) => Over key w
      | _ => w.state.conn.terminal.isSome ∨
          (account key w.trace).Free (w.state.reducer key) purpose.due purpose.placed
  | .again round, w | .feed round, w =>
      (account key w.trace).Fed (Over key w) (w.state.reducer key) round.input
  | .publish candidate _ _, w => candidate.isProvisional = true →
      Over key w ∨ (account key w.trace).Free (w.state.reducer key) 0 0
  | .box _, w | .submit _ _, w | .submitGraceful, w => (account key w.trace).Clear
  | .submitReset _, w => (account key w.trace).resets = 0 ∧
      (Over key w ∨ (account key w.trace).Free (w.state.reducer key) 0 0)
  | .exit result, w =>
      (Over key w ∨ (account key w.trace).Free (w.state.reducer key) 0 0) ∧
        (result = .pollSend (.ready (.ok ())) →
          (account key w.trace).accepted ≤ (account key w.trace).taken)
  | _, w => Over key w ∨ (account key w.trace).Free (w.state.reducer key) 0 0

section Points

variable {config : H3Config} {key : StreamKey} {call : SendCall} {w w' : AdapterWorld}

theorem Account.Fed.mono {a : Account} {ended ended' : Prop} {state : SendState} {input : SendInput}
    (h : a.Fed ended state input) (hOver : ended → ended') : a.Fed ended' state input := by
  cases input with
  | terminalPublished winner continuation => exact h.imp_left hOver
  | _ =>
      simp only [Fed] at h ⊢
      split <;> simp_all

/-- What the others do leaves the account behind by no more than a terminal. -/
theorem accountAt_mono {point : SendPoint} (h : accountAt key point w)
    (hAccount : account key w'.trace = account key w.trace)
    (hReducer : w'.state.reducer key = w.state.reducer key)
    (hSlot : SlotLe (w.state.slot key) (w'.state.slot key))
    (hConn : w.state.conn.Le w'.state.conn) : accountAt key point w' := by
  have hOver : Over key w → Over key w' := fun hOver => hOver.mono hSlot hConn
  cases point with
  | peek purpose slot =>
      obtain ⟨hOpen, hCause⟩ := h
      refine ⟨hOpen, ?_⟩
      rw [hAccount, hReducer]
      split
      · exact hOver hCause
      next hSlot =>
        split at hCause
        · exact absurd rfl (hSlot _)
        · exact hCause.imp_left hConn.occupied
  | again round =>
      simp only [accountAt, hAccount, hReducer]
      exact Account.Fed.mono h hOver
  | feed round =>
      simp only [accountAt, hAccount, hReducer]
      exact Account.Fed.mono h hOver
  | publish candidate continuation remaining =>
      simp only [accountAt, hAccount, hReducer]
      exact fun hMarker => (h hMarker).imp_left hOver
  | box buffer =>
      simp only [accountAt, hAccount]
      exact h
  | submit context buffer =>
      simp only [accountAt, hAccount]
      exact h
  | submitGraceful =>
      simp only [accountAt, hAccount]
      exact h
  | submitReset code =>
      simp only [accountAt, hAccount, hReducer]
      exact ⟨h.1, h.2.imp_left hOver⟩
  | exit result =>
      simp only [accountAt, hAccount, hReducer]
      exact ⟨h.1.imp_left hOver, h.2⟩
  | _ =>
      simp only [accountAt, hAccount, hReducer]
      exact Or.imp_left hOver h

theorem exit_failure_ne_ok (winner : SendTerminal) :
    call.failure winner ≠ .pollSend (.ready (.ok ())) := by
  cases call <;> intro h <;> cases h

theorem accountAt_returning {winner : SendTerminal}
    (h : Over key w ∨ (account key w.trace).Free (w.state.reducer key) 0 0) :
    accountAt key (call.returning winner) w := by
  cases winner with
  | connection fallback => exact h
  | _ => exact ⟨h, fun hOk => absurd hOk (exit_failure_ne_ok _)⟩

/-- A resolved terminal is recorded, or the half is not ended. -/
theorem accountAt_resolved {terminal : Option SendTerminal} {purpose : Purpose}
    (hOver : ∀ winner, definitive terminal = some winner → Over key w)
    (hFree : definitive terminal = none →
      (account key w.trace).Free (w.state.reducer key) purpose.due purpose.placed) :
    accountAt key (call.resolved config terminal purpose) w := by
  have hFed : ∀ input : SendInput, input.terminal = terminal → input.due = purpose.due →
      input.placed = purpose.placed →
      (account key w.trace).Fed (Over key w) (w.state.reducer key) input := by
    intro input hInput hDue hPlaced
    rw [← hDue, ← hPlaced] at hFree
    rw [← hInput] at hOver hFree
    cases hTerminal : definitive input.terminal with
    | none =>
        have hNow := hFree hTerminal
        cases input with
        | terminalPublished winner continuation => exact .inr hNow
        | _ => simpa only [Account.Fed, hTerminal] using hNow
    | some winner =>
        have hNow := hOver winner hTerminal
        cases input with
        | terminalPublished winner continuation => exact .inl hNow
        | _ => simpa only [Account.Fed, hTerminal] using hNow
  cases purpose with
  | guard =>
      have hEither : Over key w ∨ (account key w.trace).Free (w.state.reducer key) 0 0 := by
        cases hTerminal : definitive terminal with
        | none => exact .inr (hFree hTerminal)
        | some winner => exact .inl (hOver winner hTerminal)
      cases terminal with
      | none => exact ⟨hEither, fun hOk => absurd hOk (exit_failure_ne_ok _)⟩
      | some winner => exact accountAt_returning hEither
  | request payload => exact hFed (.sendRequested _ terminal) rfl rfl rfl
  | poll poll =>
      cases call with
      | pollReady => exact hFed (.pollReady poll terminal) rfl rfl rfl
      | _ => exact hFed (.pollFinish poll terminal) rfl rfl rfl
  | reset code => exact hFed (.reset code terminal) rfl rfl rfl
  | sendSubmitted result => exact hFed (.sendSubmitted result terminal) rfl rfl rfl
  | gracefulSubmitted result => exact hFed (.gracefulSubmitted result terminal) rfl rfl rfl
  | resetSubmitted code result => exact hFed (.resetSubmitted code result terminal) rfl rfl rfl

theorem accountAt_obey {round : SendRound} {a : Account} {state : SendState}
    (hBook : round.input.book call state) (hAccount : account key w.trace = a)
    (hReducer : w.state.reducer key = (transition state round.input).2)
    (h : a.Commands (Over key w) (transition state round.input).2 (transition state round.input).1) :
    accountAt key (call.obey round.remaining (transition state round.input).1) w := by
  have hExpected := expects_transition hBook
  subst hAccount
  rw [← hReducer] at h
  cases hCommand : (transition state round.input).1 with
  | returnError winner =>
      rw [hCommand] at hExpected h
      cases call <;> first | exact accountAt_returning h | cases hExpected
  | _ =>
      rw [hCommand] at hExpected h
      cases call <;> first
        | exact absurd hExpected Bool.false_ne_true
        | exact h
        | exact ⟨h, fun hOk => by cases hOk⟩
        | exact ⟨h.2, fun _ => h.1⟩

theorem advance_publish_slot (choice : Choice) (request : Request) (candidate : SendTerminal)
    (w : AdapterWorld) :
    ((adapter config).advance choice request (.stream key (.publishSend candidate)) w).state.slot
      key = (publishSend (w.state.slot key) candidate).2 := by
  simp only [Machine.advance_state, adapter_perform, State.slot, Op.perform_stream_self,
    StreamOp.perform_sendTerminal]

theorem takesComplete_due (choice : Choice) (call : SendCall) (s : State) :
    (takesComplete key ((adapter config).event choice (.send key call)
      (.stream key .pollSendChannel) s)).toNat = (sendPoll (s.stream key).send.pollNext.1).due := by
  have hReply : ((adapter config).perform choice (.stream key .pollSendChannel) s).1 =
      sendPoll (s.stream key).send.pollNext.1 := rfl
  unfold takesComplete Machine.event
  rw [hReply]
  cases sendPoll (s.stream key).send.pollNext.1 with
  | event event => cases event <;> simp [SendPoll.due]
  | _ => rfl

theorem streamSend_reply (choice : Choice) (context : BufferId) (buffer : SendBuffer) (s : State) :
    ((Op.stream key (.streamSend context buffer)).perform config choice s).1 = choice.result := by
  cases h : choice.result <;> simp [Op.perform, StreamOp.perform, h]

theorem acceptsSend_placed (choice : Choice) (call : SendCall) (context : BufferId)
    (buffer : SendBuffer) (s : State) :
    (acceptsSend key ((adapter config).event choice (.send key call)
      (.stream key (.streamSend context buffer)) s)).toNat = placed choice.result := by
  have hReply := @streamSend_reply config key choice context buffer s
  cases h : choice.result <;>
    simp [acceptsSend, Machine.event, Op.perform, StreamOp.perform, h, placed]

/-- What the slot alone settles is recorded. -/
theorem accountAt_loaded {purpose : Purpose} (h : accountAt key (.load purpose) w) :
    accountAt key (if decides (w.state.slot key) then
      call.resolved config (w.state.slot key) purpose else .peek purpose (w.state.slot key)) w := by
  have hOpen : definitive (w.state.slot key) = none → w.state.conn.terminal.isSome ∨
      (account key w.trace).Free (w.state.reducer key) purpose.due purpose.placed := by
    intro hNone
    rcases h with (hSome | hSome) | hFree
    · rw [hNone] at hSome
      cases hSome
    · exact .inl hSome
    · exact .inr hFree
  split
  next hDecides =>
    apply accountAt_resolved
    · intro winner hWinner
      left
      rw [hWinner]
      rfl
    · intro hNone
      obtain ⟨winner, hWinner⟩ := definitive_of_decides hDecides
      rw [hNone] at hWinner
      cases hWinner
  next hUndecided =>
    have hUndecided' : decides (w.state.slot key) = false := by simpa using hUndecided
    refine ⟨hUndecided', ?_⟩
    split
    next fallback hSlot =>
      left
      rw [hSlot]
      rfl
    next hSlot => exact hOpen (definitive_of_open hUndecided' hSlot)

theorem accountAt_peeked {purpose : Purpose} {slot : Option SendTerminal}
    (h : accountAt key (.peek purpose slot) w) :
    accountAt key (call.resolved config (resolveWith slot w.state.conn.terminal) purpose) w := by
  obtain ⟨hOpen, hCause⟩ := h
  cases hReason : w.state.conn.terminal with
  | some reason =>
      have hOver : Over key w := .inr (by rw [hReason]; rfl)
      apply accountAt_resolved
      · exact fun _ _ => hOver
      · intro hNone
        rw [definitive_resolveWith_some] at hNone
        cases hNone
  | none =>
      rw [resolveWith_none]
      split at hCause
      · apply accountAt_resolved
        · exact fun _ _ => hCause
        · intro hNone
          cases hNone
      next hSlot =>
        have hNone := definitive_of_open hOpen hSlot
        apply accountAt_resolved
        · intro winner hWinner
          rw [hNone] at hWinner
          cases hWinner
        · intro _
          rw [hReason] at hCause
          exact hCause.resolve_left Bool.false_ne_true

/-- A step of the half's own code. -/
theorem account_step {point : SendPoint} {op : Op} {target : op.Reply → SendPoint}
    (hAt : accountAt key point w) (hNode : call.node config key point = .inl ⟨op, target⟩)
    (hDrained : (account key w.trace).Drained (w.state.reducer key))
    (hBook : point.book call (w.state.reducer key)) (choice : Choice) :
    accountAt key (target (op.perform config choice w.state).1)
      ((adapter config).advance choice (.send key call) op w) := by
  have hSlot : ∀ op, SlotLe (w.state.slot key)
      (((adapter config).advance choice (.send key call) op w).state.slot key) :=
    fun op => advance_slot_le op w choice _
  have hConn : ∀ op, w.state.conn.Le
      ((adapter config).advance choice (.send key call) op w).state.conn := by
    intro op
    rw [Machine.advance_state, adapter_perform, Op.perform_conn]
    exact op.slot_le _
  cases point with
  | guard =>
      cases hNode
      refine accountAt_mono (w := w) ?_ (account_silent rfl rfl rfl rfl)
        (advance_reducer_self choice _ _ w) (hSlot _) (hConn _)
      dsimp only
      split <;> exact hAt
  | poll =>
      cases hNode
      have hOver : Over key w → Over key ((adapter config).advance choice (.send key call)
          (.stream key .pollSendChannel) w) := fun h => h.mono (hSlot _) (hConn _)
      rcases hAt with hEnded | hFree
      · exact .inl (hOver hEnded)
      · right
        rw [advance_reducer_self]
        have hTrace : account key ((adapter config).advance choice (.send key call)
            (.stream key .pollSendChannel) w).trace = { account key w.trace with
              taken := taken key w.trace + SendPoll.due (sendPoll (w.state.stream key).send.pollNext.1) } := by
          rw [Machine.advance_trace, account_event, takesComplete_due]
          rfl
        rw [hTrace]
        exact hFree.take _
  | load purpose =>
      cases hNode
      refine accountAt_mono (w := w) ?_ (account_silent rfl rfl rfl rfl)
        (advance_reducer_self choice _ _ w) (hSlot _) (hConn _)
      exact accountAt_loaded hAt
  | peek purpose slot =>
      cases hNode
      refine accountAt_mono (w := w) ?_ (account_silent rfl rfl rfl rfl)
        (advance_reducer_conn choice _ _ w) (hSlot _) (hConn _)
      exact accountAt_peeked hAt
  | again round => cases hNode
  | feed round =>
      cases hNode
      have hOver : Over key w → Over key ((adapter config).advance choice (.send key call)
          (.stream key (.transition round.input)) w) := fun h => h.mono (hSlot _) (hConn _)
      have hCommands := Account.commands_transition hBook (Account.Fed.mono hAt hOver) hDrained
      exact accountAt_obey hBook (account_silent rfl rfl rfl rfl)
        (advance_reducer_self choice _ _ w) hCommands.1
  | publish candidate continuation remaining =>
      cases hNode
      cases hMarker : candidate.isProvisional with
      | true =>
          refine accountAt_mono (w := w) ?_ (account_silent rfl rfl rfl rfl)
            (advance_reducer_self choice _ _ w) (hSlot _) (hConn _)
          exact hAt hMarker
      | false =>
          left
          left
          rw [advance_publish_slot, publishSend_slot]
          have hWinner := @publishSend_isProvisional (w.state.slot key) _ hMarker
          rw [definitive_eq_some.2 ⟨rfl, hWinner⟩]
          rfl
  | box buffer =>
      cases hNode
      exact accountAt_mono (w := w) hAt (account_silent rfl rfl rfl rfl)
        (advance_reducer_self choice _ _ w) (hSlot _) (hConn _)
  | submit context buffer =>
      cases hNode
      have hClear : (account key w.trace).Clear := hAt
      have hPlaced := @acceptsSend_placed config key choice call context buffer w.state
      have hReducer := @advance_reducer_self config key choice (.send key call)
        (.streamSend context buffer) w
      have hFree : (account key ((adapter config).advance choice (.send key call)
          (.stream key (.streamSend context buffer)) w).trace).Free (w.state.reducer key) 0
            (placed choice.result) := by
        rw [Machine.advance_trace, account_event, hPlaced]
        exact hClear.place _ _
      have hReply := @streamSend_reply config key choice context buffer w.state
      dsimp only
      rw [hReply]
      cases hResult : choice.result with
      | ok value =>
          rw [hResult] at hFree
          right
          rw [hReducer]
          exact hFree
      | error status =>
          rw [hResult] at hFree
          right
          rw [hReducer]
          exact hFree
  | reclaim context status =>
      cases hNode
      exact accountAt_mono (w := w) hAt (account_silent rfl rfl rfl rfl)
        (advance_reducer_self choice _ _ w) (hSlot _) (hConn _)
  | submitGraceful =>
      cases hNode
      have hClear : (account key w.trace).Clear := hAt
      have hFinish : (w.state.reducer key).finishSubmitting = true := by
        have hSubmitting := hBook.2
        simp_all [SendState.submittingFinish]
      right
      rw [advance_reducer_self, Machine.advance_trace, account_event]
      exact ⟨(hClear.free _).balance, fun _ => .inr hFinish, (hClear.free _).reset⟩
  | submitReset code =>
      cases hNode
      obtain ⟨-, hEither⟩ := hAt
      have hReset : (w.state.reducer key).resetSubmitting = true := by
        have hSubmitting := hBook.2
        simp_all [SendState.submittingReset]
      rcases hEither with hOver | hFree
      · exact .inl (hOver.mono (hSlot _) (hConn _))
      · right
        rw [advance_reducer_self, Machine.advance_trace, account_event]
        exact ⟨hFree.balance, hFree.finish, fun _ => hReset⟩
  | commit fallback =>
      cases hNode
      refine accountAt_mono (w := w) ⟨hAt, fun hOk => absurd hOk (exit_failure_ne_ok _)⟩ (account_silent rfl rfl rfl rfl)
        (advance_reducer_conn choice _ _ w) (hSlot _) (hConn _)
  | dropHalf =>
      cases hNode
      exact accountAt_mono (w := w) ⟨hAt, fun hOk => by cases hOk⟩
        (account_silent rfl rfl rfl rfl) (advance_reducer_self choice _ _ w) (hSlot _) (hConn _)
  | exit result => cases hNode

/-- A submission finds an account it does not conflict with. -/
theorem submits_clear {point : SendPoint} {op : Op} {target : op.Reply → SendPoint}
    (hAt : accountAt key point w) (hNode : call.node config key point = .inl ⟨op, target⟩)
    (choice : Choice) :
    (submitsSend key ((adapter config).event choice (.send key call) op w.state) = true ∨
      submitsGraceful key ((adapter config).event choice (.send key call) op w.state) = true →
        (account key w.trace).Clear) ∧
    (submitsReset key ((adapter config).event choice (.send key call) op w.state) = true →
      (account key w.trace).resets = 0) := by
  cases point with
  | submit context buffer =>
      cases hNode
      constructor
      · exact fun _ => hAt
      · intro h
        cases h
  | submitGraceful =>
      cases hNode
      constructor
      · exact fun _ => hAt
      · intro h
        cases h
  | submitReset code =>
      cases hNode
      constructor
      · rintro (h | h) <;> cases h
      · exact fun _ => hAt.1
  | again round => cases hNode
  | exit result => cases hNode
  | _ =>
      cases hNode
      constructor
      · rintro (h | h) <;> cases h
      · intro h
        cases h

end Points

section Exclusion

variable {config : H3Config} {key : StreamKey} {w w' : AdapterWorld} {trace : List AdapterLabel}

theorem submitsSend_of_accepts {e : AdapterEvent} (h : acceptsSend key e = true) :
    submitsSend key e = true := by
  unfold acceptsSend at h
  split at h
  · exact h
  · cases h

theorem counts_eq_false {counted : AdapterEvent → Bool} (h : trace.countP (Machine.counts counted) = 0)
    {label : AdapterLabel} (hMem : label ∈ trace) : Machine.counts counted label = false := by
  rw [List.countP_eq_zero] at h
  simpa using h label hMem

theorem NativeExclusive.snoc (h : NativeExclusive key trace) {label : AdapterLabel}
    (hFinish : Machine.counts (submitsGraceful key) label = true → finishes key trace = 0)
    (hReset : Machine.counts (submitsReset key) label = true → resets key trace = 0)
    (hSend : Machine.counts (submitsSend key) label = true →
      finishes key trace = 0 ∧ resets key trace = 0)
    (hDrained : ∀ e, label = .event e → submitsGraceful key e = true →
      (e.before.stream key).outstanding = []) :
    NativeExclusive key (trace ++ [label]) := by
  constructor
  · unfold finishes
    rw [Machine.countP_snoc]
    cases hLabel : Machine.counts (submitsGraceful key) label with
    | false => exact h.finish
    | true =>
        have hNone := hFinish hLabel
        unfold finishes at hNone
        rw [hNone]
        exact Nat.le_refl 1
  · unfold resets
    rw [Machine.countP_snoc]
    cases hLabel : Machine.counts (submitsReset key) label with
    | false => exact h.reset
    | true =>
        have hNone := hReset hLabel
        unfold resets at hNone
        rw [hNone]
        exact Nat.le_refl 1
  · rw [List.pairwise_append]
    refine ⟨h.afterwards, List.pairwise_singleton _ _, fun first hFirst second hSecond hEarlier => ?_⟩
    rw [List.mem_singleton] at hSecond
    subst hSecond
    rw [← Bool.not_eq_true]
    intro hLabel
    obtain ⟨hNoFinish, hNoReset⟩ := hSend hLabel
    rcases hEarlier with hGraceful | hResets
    · rw [counts_eq_false hNoFinish hFirst] at hGraceful
      cases hGraceful
    · rw [counts_eq_false hNoReset hFirst] at hResets
      cases hResets
  · intro e hMem hGraceful
    rw [List.mem_append, List.mem_singleton] at hMem
    rcases hMem with hMem | hMem
    · exact h.drained e hMem hGraceful
    · exact hDrained e hMem.symm hGraceful

/-- A label that submits nothing. -/
theorem NativeExclusive.silent (h : NativeExclusive key trace) {label : AdapterLabel}
    (hSend : Machine.counts (submitsSend key) label = false)
    (hFinish : Machine.counts (submitsGraceful key) label = false)
    (hReset : Machine.counts (submitsReset key) label = false) :
    NativeExclusive key (trace ++ [label]) := by
  apply h.snoc
  · rw [hFinish]
    intro hTrue
    cases hTrue
  · rw [hReset]
    intro hTrue
    cases hTrue
  · rw [hSend]
    intro hTrue
    cases hTrue
  · rintro e rfl hTrue
    rw [show submitsGraceful key e = false from hFinish] at hTrue
    cases hTrue

/-- What the native operations of a half leave behind, in every world. -/
structure ExclusionInv (key : StreamKey) (w : AdapterWorld) : Prop where
  drained : (account key w.trace).Drained (w.state.reducer key)
  bounded : accepted key w.trace ≤ taken key w.trace + 1
  exclusive : NativeExclusive key w.trace
  ready : ∀ events, w.trace.getLast? =
      some (.finished ⟨.send key .pollReady, events, .pollSend (.ready (.ok ()))⟩) →
    accepted key w.trace ≤ taken key w.trace

namespace ExclusionInv

/-- Labels that the account does not mention. -/
theorem silent (h : ExclusionInv key w) (label : AdapterLabel) {s : State}
    (hAccount : account key (w.trace ++ [label]) = account key w.trace)
    (hReducer : s.reducer key = w.state.reducer key)
    (hExclusive : NativeExclusive key (w.trace ++ [label]))
    (hReady : ∀ events, label =
        .finished ⟨.send key .pollReady, events, .pollSend (.ready (.ok ()))⟩ →
      accepted key w.trace ≤ taken key w.trace) :
    ExclusionInv key (w.after label s) := by
  have hAccepted : accepted key (w.trace ++ [label]) = accepted key w.trace :=
    congrArg Account.accepted hAccount
  have hTaken : taken key (w.trace ++ [label]) = taken key w.trace :=
    congrArg Account.taken hAccount
  constructor
  · rw [World.after_trace, hAccount, World.after_state, hReducer]
    exact h.drained
  · rw [World.after_trace, hAccepted, hTaken]
    exact h.bounded
  · exact hExclusive
  · intro events hLast
    rw [World.after_trace, List.getLast?_concat, Option.some.injEq] at hLast
    rw [World.after_trace, hAccepted, hTaken]
    exact hReady events hLast

theorem counts_of_owner {counted : AdapterEvent → Bool}
    (hOwn : ∀ e, counted e = true → e.request.owner = .sendHalf key) {label : AdapterLabel}
    (hOwner : label.request.owner ≠ .sendHalf key) : Machine.counts counted label = false := by
  rw [← Bool.not_eq_true]
  intro hCounted
  cases label with
  | event e => exact hOwner (hOwn e hCounted)
  | _ => cases hCounted

theorem submitsSend_owner {e : AdapterEvent} (h : submitsSend key e = true) :
    e.request.owner = .sendHalf key := by
  unfold submitsSend at h
  split at h
  · simp only [Bool.and_eq_true, decide_eq_true_eq] at h
    rw [← h.1]
    rfl
  · cases h

/-- The other threads submit nothing of the half. -/
theorem stable (h : ExclusionInv key w)
    (hStep : (adapter config).Interference permits (.sendHalf key) w w') :
    ExclusionInv key w' := by
  have hRely := sendRely_of_interference hStep
  obtain ⟨label, hTrace, hOwner⟩ := interference_trace hStep
  obtain ⟨state, trace⟩ := w'
  subst hTrace
  refine h.silent label hRely.account hRely.reducer ?_ ?_
  · apply h.exclusive.silent
    · exact counts_of_owner (fun e => submitsSend_owner) hOwner
    · exact counts_of_owner (fun e => submitsGraceful_owner) hOwner
    · exact counts_of_owner (fun e => submitsReset_owner) hOwner
  · rintro events rfl
    exact absurd rfl hOwner

theorem drained_mono {state : SendState} {a a' : Account} (h : a.Drained state)
    (hAccepted : a'.accepted = a.accepted) (hTaken : a.taken ≤ a'.taken) : a'.Drained state := by
  intro hFinish
  obtain ⟨hIdle, hBalance⟩ := h hFinish
  exact ⟨hIdle, hAccepted ▸ Nat.le_trans hBalance hTaken⟩

/-- A data send is submitted only before a finish. -/
theorem drained_step {call : SendCall} {point : SendPoint} {op : Op} {target : op.Reply → SendPoint}
    (h : (account key w.trace).Drained (w.state.reducer key))
    (hNode : call.node config key point = .inl ⟨op, target⟩)
    (hBook : point.book call (w.state.reducer key)) (hAt : accountAt key point w)
    (choice : Choice) :
    (account key ((adapter config).advance choice (.send key call) op w).trace).Drained
      (((adapter config).advance choice (.send key call) op w).state.reducer key) := by
  cases point with
  | feed round =>
      cases hNode
      rw [advance_reducer_self, Machine.advance_trace, account_silent rfl rfl rfl rfl]
      exact (Account.commands_transition hBook hAt h).2
  | submit context buffer =>
      cases hNode
      rw [advance_reducer_self]
      intro hFinish
      have hSubmitting := hBook.2
      simp_all [SendState.submittingSend]
  | again round => cases hNode
  | exit result => cases hNode
  | peek purpose slot =>
      cases hNode
      rw [advance_reducer_conn, Machine.advance_trace, account_silent rfl rfl rfl rfl]
      exact h
  | commit fallback =>
      cases hNode
      rw [advance_reducer_conn, Machine.advance_trace, account_silent rfl rfl rfl rfl]
      exact h
  | _ =>
      cases hNode
      rw [advance_reducer_self, Machine.advance_trace, account_event]
      exact drained_mono h rfl (Nat.le_add_right _ _)

/-- The half itself keeps the account. -/
theorem step (h : ExclusionInv key w) {call : SendCall} {point : SendPoint} {op : Op}
    {target : op.Reply → SendPoint} (hAt : accountAt key point w)
    (hNode : call.node config key point = .inl ⟨op, target⟩)
    (hBook : point.book call (w.state.reducer key)) (choice : Choice)
    (hLedger : (w.state.stream key).outstanding.length + taken key w.trace ≤ accepted key w.trace) :
    ExclusionInv key ((adapter config).advance choice (.send key call) op w) := by
  obtain ⟨hClear, hReset⟩ := submits_clear hAt hNode choice
  constructor
  · exact drained_step h.drained hNode hBook hAt choice
  · have hAccepted := congrArg Account.accepted (@account_event key w.trace
      ((adapter config).event choice (.send key call) op w.state))
    have hTaken := congrArg Account.taken (@account_event key w.trace
      ((adapter config).event choice (.send key call) op w.state))
    dsimp only [account] at hAccepted hTaken
    rw [Machine.advance_trace, hAccepted, hTaken]
    have hBounded := h.bounded
    cases hAccepts : acceptsSend key ((adapter config).event choice (.send key call) op w.state) with
    | false =>
        rw [Bool.toNat_false]
        omega
    | true =>
        have hBalance := (hClear (.inl (submitsSend_of_accepts hAccepts))).balance
        dsimp only [account] at hBalance
        rw [Bool.toNat_true]
        omega
  · apply h.exclusive.snoc
    · intro hGraceful
      exact (hClear (.inr hGraceful)).finish
    · exact hReset
    · intro hSend
      have hNothing := hClear (.inl hSend)
      exact ⟨hNothing.finish, hNothing.reset⟩
    · intro e hEvent hGraceful
      cases hEvent
      have hBalance := (hClear (.inr hGraceful)).balance
      dsimp only [account] at hBalance
      apply List.eq_nil_of_length_eq_zero
      have hState : ((adapter config).event choice (.send key call) op w.state).before = w.state := rfl
      rw [hState]
      omega
  · intro events hLast
    rw [Machine.advance_trace, List.getLast?_concat] at hLast
    cases hLast

end ExclusionInv

/-- The native operations of one send half. -/
def exclusionOutline (config : H3Config) (key : StreamKey) : SendOutline config key where
  known w := (w.state.stream key).outstanding.length + taken key w.trace ≤ accepted key w.trace
  inv := ExclusionInv key
  idle w := Over key w ∨ (account key w.trace).Free (w.state.reducer key) 0 0
  assertion _ point _ w := accountAt key point w
  init := by
    refine ⟨fun h => ⟨rfl, Nat.le_refl 0⟩, Nat.zero_le _, ⟨Nat.zero_le _, Nat.zero_le _, .nil, ?_⟩, ?_⟩
    · intro e hMem
      cases hMem
    · intro events hLast
      cases hLast
  idle_init := .inr ⟨Nat.zero_le _, (fun h => by cases h), (fun h => by cases h)⟩
  stable w w' hStep _ _ _ hInv := hInv.stable hStep
  idle_stable w w' h hRely := by
    rw [hRely.account, hRely.reducer]
    exact h.imp_left fun hOver => hOver.mono hRely.slot hRely.conn
  begin call w _ hInv hIdle _ _ := by
    constructor
    · apply hInv.silent _ (account_begun _) rfl
      · exact hInv.exclusive.silent rfl rfl rfl
      · intro events hLabel
        cases hLabel
    · have hStart : accountAt key call.start w := by
        cases call <;> exact hIdle
      exact accountAt_mono hStart (account_begun _) rfl (.refl _) (.refl _)
  step call point events w op target hAt hNode w' hRely hBook hKnown hInv choice _ := by
    have hAt' := accountAt_mono hAt hRely.account hRely.reducer hRely.slot hRely.conn
    exact ⟨hInv.step hAt' hNode hBook choice hKnown, account_step hAt' hNode hInv.drained hBook choice⟩
  again call round events w hAt := hAt
  finish call events w result hAt w' hRely _ _ hInv _ := by
    obtain ⟨hEither, hOk⟩ := accountAt_mono hAt hRely.account hRely.reducer hRely.slot hRely.conn
    constructor
    · apply hInv.silent _ (account_finished _) rfl
      · exact hInv.exclusive.silent rfl rfl rfl
      · intro events' hLabel
        cases hLabel
        exact hOk rfl
    · rw [World.after_trace, account_finished]
      exact hEither

/-- The native operations of a send half are exclusive in every run: one data send
at a time, one finish and one reset at most, nothing after these, a finish and a
successful `poll_ready` only when no send is outstanding; and between calls no
submission is reserved. -/
theorem native_exclusive {reached : AdapterConfig} (run : Runs config trace reached)
    (key : StreamKey) :
    (reached.state.stream key).outstanding.length ≤ 1 ∧
    NativeExclusive key trace ∧
    (reached.active (.sendHalf key) = none →
      (reached.state.reducer key).submissionReserved = false ∧
      ((reached.state.reducer key).finishComplete = true →
        (reached.state.reducer key).finishStarted = true) ∧
      ((reached.state.reducer key).finishStarted = true →
        (reached.state.reducer key).sendInprogress = false)) ∧
    ∀ events, trace.getLast? =
        some (.finished ⟨.send key .pollReady, events, .pollSend (.ready (.ok ()))⟩) →
      (reached.state.stream key).outstanding = [] := by
  have hKnown : ∀ earlier config', Runs config earlier config' → earlier <+: trace →
      (exclusionOutline config key).known ⟨config'.state, earlier⟩ :=
    fun earlier config' hRun _ => outstanding_taken_le hRun key
  have hLedger := outstanding_taken_le run key
  obtain ⟨hDrained, hBounded, hExclusive, hReady⟩ := (exclusionOutline config key).holds run hKnown
  dsimp only at hBounded
  refine ⟨by omega, hExclusive, fun hIdle => ?_, fun events hLast => ?_⟩
  · obtain ⟨hSettled, -⟩ := (exclusionOutline config key).rests run hKnown hIdle
    refine ⟨by simp_all [SendState.settled], fun hComplete => by simp_all [SendState.settled], ?_⟩
    exact fun hStarted => (hDrained (.inl hStarted)).1
  · have hBalance := hReady events hLast
    apply List.eq_nil_of_length_eq_zero
    dsimp only at hBalance
    omega

/-- A payload is sent and completed, and `poll_ready` and then the finish follow. -/
theorem native_exclusive_finish :
    ∃ trace reached, Runs .default trace reached ∧
      (accepted (.accepted 0) trace, finishes (.accepted 0) trace) = (1, 1) ∧
      NativeExclusive (.accepted 0) trace := by
  have hRun : ((adapter .default).run (Machine.initial {}) (serveAll
      [(.send (.accepted 0) (.sendData [1]), 9),
        (.stream (.accepted 0) (.sendComplete false (some 0)), 7),
        (.send (.accepted 0) .pollReady, 6),
        (.send (.accepted 0) .pollFinish, 12)])).isSome := by
    decide
  exact ⟨_, _, Machine.runs_get hRun, rfl,
    (native_exclusive (Machine.runs_get hRun) (.accepted 0)).2.1⟩

end Exclusion

end MsQuicH3
