import MsQuicH3.SendOutline

/-! The outcome of a finish. Success is a flag of the reducer that nothing clears;
an error lives in the shared slots, and a completion that is polled after it turns
the outcome around. Without such a poll the first outcome stays. -/
namespace MsQuicH3

open Concurrency

/-- What a returned `poll_finish` of one send half said. -/
def finishPoll (key : StreamKey) : AdapterLabel → Option (Poll (Except SendError Unit))
  | .finished ⟨.send other .pollFinish, _, .pollSend poll⟩ =>
      if other = key then some poll else none
  | _ => none

def finishPolls (key : StreamKey) (trace : List AdapterLabel) :
    List (Poll (Except SendError Unit)) :=
  trace.filterMap (finishPoll key)

/-- A call of the send half submits a native operation. -/
def SubmitsNative (key : StreamKey) (label : AdapterLabel) : Prop :=
  ∃ e op, label = .event e ∧ e.request.owner = .sendHalf key ∧ e.op = .stream key op ∧
    op.submits = true

/-- After the first success every later poll succeeds and nothing native follows;
after the first error no later poll succeeds. -/
def FinishDecided (key : StreamKey) (trace : List AdapterLabel) : Prop :=
  trace.Pairwise fun first second =>
    (finishPoll key first = some (.ready (.ok ())) →
      (∀ poll, finishPoll key second = some poll → poll = .ready (.ok ())) ∧
        ¬SubmitsNative key second) ∧
    ∀ error, finishPoll key first = some (.ready (.error error)) →
      finishPoll key second ≠ some (.ready (.ok ()))

/-- A `poll_finish` polls the channel while a graceful completion of the started
finish is at its head. -/
def takesFinish (key : StreamKey) : AdapterLabel → Bool
  | .event ⟨.send other .pollFinish, .stream target .pollSendChannel, _, before, _⟩ =>
      other = key && target = key && (before.reducer key).finishStarted &&
        (before.stream key).send.queue.head? = some (.finishComplete true)
  | _ => false

/-- No completion is taken after an error was returned. -/
def NoFinishAfterError (key : StreamKey) (trace : List AdapterLabel) : Prop :=
  trace.Pairwise fun first second =>
    ∀ error, finishPoll key first = some (.ready (.error error)) → takesFinish key second = false

section Labels

variable {key : StreamKey} {trace : List AdapterLabel} {label : AdapterLabel}

theorem finishPoll_owner {poll : Poll (Except SendError Unit)}
    (h : finishPoll key label = some poll) : label.request.owner = .sendHalf key := by
  unfold finishPoll at h
  split at h
  · split at h
    next hKey =>
      subst hKey
      rfl
    · cases h
  · cases h

theorem finishPolls_ownTrace (key : StreamKey) (trace : List AdapterLabel) :
    finishPolls key (ownTrace key trace) = finishPolls key trace := by
  unfold finishPolls ownTrace
  rw [List.filterMap_filter]
  congr 1
  funext label
  split
  · rfl
  next hOther =>
    cases hPoll : finishPoll key label with
    | none => rfl
    | some poll => exact absurd (finishPoll_owner hPoll) (by simpa using hOther)

theorem finishPolls_snoc (trace : List AdapterLabel) (label : AdapterLabel) :
    finishPolls key (trace ++ [label]) = finishPolls key trace ++ (finishPoll key label).toList := by
  unfold finishPolls
  rw [List.filterMap_append]
  cases h : finishPoll key label <;> simp [h]

theorem mem_finishPolls {poll : Poll (Except SendError Unit)} (hMem : label ∈ trace)
    (h : finishPoll key label = some poll) : poll ∈ finishPolls key trace :=
  List.mem_filterMap.2 ⟨label, hMem, h⟩

end Labels

/-- The flag of the reducer and the outcomes so far. -/
structure FinishBook (key : StreamKey) (w : AdapterWorld) : Prop where
  ok : .ready (.ok ()) ∈ finishPolls key w.trace → (w.state.reducer key).finishComplete = true
  error : ∀ error, .ready (.error error) ∈ finishPolls key w.trace →
    (w.state.reducer key).finishComplete = false

/-- A graceful completion in hand after an error belongs to no started finish. -/
def FinishInHand (key : StreamKey) (poll : SendPoll) (w : AdapterWorld) : Prop :=
  poll = .event (.finishComplete true) → ∀ error, .ready (.error error) ∈ finishPolls key w.trace →
    (w.state.reducer key).finishStarted = false

/-- Where a `poll_finish` is. -/
def finishAt (key : StreamKey) : SendPoint → AdapterWorld → Prop
  | .poll, _ => True
  | .load (.poll poll), w | .peek (.poll poll) _, w => FinishInHand key poll w
  | .again ⟨.pollFinish poll _, _⟩, w | .feed ⟨.pollFinish poll _, _⟩, w => FinishInHand key poll w
  | .exit (.pollSend (.ready (.ok ()))), w => (w.state.reducer key).finishComplete = true
  | _, w => (w.state.reducer key).finishComplete = false

section Book

variable {config : H3Config} {key : StreamKey} {w w' : AdapterWorld}

theorem SendRely.finishPolls (h : SendRely key w w') :
    finishPolls key w'.trace = finishPolls key w.trace := by
  rw [← finishPolls_ownTrace, h.own, finishPolls_ownTrace]

theorem FinishBook.rely (h : FinishBook key w) (hRely : SendRely key w w') : FinishBook key w' := by
  constructor
  · rw [hRely.finishPolls, hRely.reducer]
    exact h.ok
  · rw [hRely.finishPolls, hRely.reducer]
    exact h.error

theorem FinishInHand.rely {poll : SendPoll} (h : FinishInHand key poll w)
    (hRely : SendRely key w w') : FinishInHand key poll w' := by
  unfold FinishInHand
  rw [hRely.finishPolls, hRely.reducer]
  exact h

/-- A native operation is submitted only before the finish has completed. -/
theorem submits_book {call : SendCall} {point : SendPoint} {op : StreamOp} {state : SendState}
    {target : op.Reply → SendPoint}
    (hNode : call.node config key point = .inl ⟨.stream key op, target⟩)
    (hOp : op.submits = true) (h : point.book call state) : state.finishComplete = false := by
  cases point <;> cases hNode <;> first
    | exact absurd hOp Bool.false_ne_true
    | (have hState := h.2
       simp only [SendState.submittingSend, SendState.submittingFinish, SendState.submittingReset,
         Bool.and_eq_true, Bool.not_eq_true'] at hState
       exact hState.2)

theorem finishAt_rely {point : SendPoint} (h : finishAt key point w) (hRely : SendRely key w w') :
    finishAt key point w' := by
  unfold finishAt at h ⊢
  split at h
  · trivial
  · exact FinishInHand.rely h hRely
  · exact FinishInHand.rely h hRely
  · exact FinishInHand.rely h hRely
  · exact FinishInHand.rely h hRely
  · rw [hRely.reducer]
    exact h
  · rw [hRely.reducer]
    exact h

/-- An operation that leaves the reducer alone. -/
theorem FinishBook.advance (h : FinishBook key w) {choice : Choice} {call : SendCall} {op : Op}
    (hSame : ((adapter config).advance choice (.send key call) op w).state.reducer key =
      w.state.reducer key) :
    FinishBook key ((adapter config).advance choice (.send key call) op w) := by
  constructor
  · rw [Machine.advance_trace, finishPolls_snoc, hSame]
    simpa [finishPoll] using h.ok
  · rw [Machine.advance_trace, finishPolls_snoc, hSame]
    simpa [finishPoll] using h.error

theorem FinishInHand.advance {poll : SendPoll} (h : FinishInHand key poll w) {choice : Choice}
    {call : SendCall} {op : Op}
    (hSame : ((adapter config).advance choice (.send key call) op w).state.reducer key =
      w.state.reducer key) :
    FinishInHand key poll ((adapter config).advance choice (.send key call) op w) := by
  unfold FinishInHand
  rw [Machine.advance_trace, finishPolls_snoc, hSame]
  simpa [finishPoll, FinishInHand] using h

theorem finishAt_resolved {terminal : Option SendTerminal} {purpose : Purpose}
    {state : SendState} (hBook : purpose.book .pollFinish state)
    (h : ∀ poll, purpose = .poll poll → FinishInHand key poll w)
    (hOther : (∀ poll, purpose ≠ .poll poll) → (w.state.reducer key).finishComplete = false) :
    finishAt key (SendCall.pollFinish.resolved config terminal purpose) w := by
  cases purpose with
  | poll poll => exact h poll rfl
  | gracefulSubmitted result => exact hOther (by simp)
  | guard => simp [Purpose.book] at hBook
  | request payload => simp [Purpose.book] at hBook
  | reset code => simp [Purpose.book] at hBook
  | sendSubmitted result => simp [Purpose.book] at hBook
  | resetSubmitted code result => simp [Purpose.book] at hBook

/-- Where the reducer's command leads a `poll_finish`. -/
theorem finishAt_obey {command : SendCommand} {remaining : List UInt8}
    (h : command = .returnFinished ↔ (w.state.reducer key).finishComplete = true) :
    finishAt key (SendCall.pollFinish.obey remaining command) w := by
  have hOther : command ≠ .returnFinished → (w.state.reducer key).finishComplete = false := by
    intro hCommand
    simpa [hCommand] using h
  cases command with
  | returnFinished => exact h.1 rfl
  | repollFinish => trivial
  | returnError winner => cases winner <;> exact hOther (by simp)
  | _ => exact hOther (by simp)

/-- The reducer completes a finish only when no error has been returned. -/
theorem finish_feed {call : SendCall} {round : SendRound} (h : FinishBook key w)
    (hAt : call = .pollFinish → finishAt key (.feed round) w)
    (hBook : (SendPoint.feed round).book call (w.state.reducer key)) (choice : Choice) :
    FinishBook key ((adapter config).advance choice (.send key call)
        (.stream key (.transition round.input)) w) ∧
      (call = .pollFinish → finishAt key
        (call.obey round.remaining (transition (w.state.reducer key) round.input).1)
        ((adapter config).advance choice (.send key call)
          (.stream key (.transition round.input)) w)) := by
  have hReducer : ((adapter config).advance choice (.send key call)
      (.stream key (.transition round.input)) w).state.reducer key =
        (transition (w.state.reducer key) round.input).2 := advance_reducer_self ..
  have hMono := transition_finishComplete (w.state.reducer key) round.input
  constructor
  · constructor
    · intro hOk
      rw [Machine.advance_trace, finishPolls_snoc] at hOk
      rw [hReducer]
      exact hMono.2 (.inl (h.ok (by simpa [finishPoll] using hOk)))
    · intro error hError
      rw [Machine.advance_trace, finishPolls_snoc] at hError
      have hEarlier : .ready (.error error) ∈ finishPolls key w.trace := by
        simpa [finishPoll] using hError
      have hFalse := h.error error hEarlier
      rw [hReducer, ← Bool.not_eq_true, hMono]
      rintro (hTrue | ⟨terminal, hInput, -, hStarted⟩)
      · rw [hFalse] at hTrue
        cases hTrue
      · obtain ⟨input, remaining⟩ := round
        cases hInput
        have hInHand := hAt hBook.1
        have hNotStarted := hInHand rfl error hEarlier
        rw [hStarted] at hNotStarted
        cases hNotStarted
  · rintro rfl
    apply finishAt_obey
    rw [hReducer]
    obtain ⟨input, remaining⟩ := round
    by_cases hPoll : ∃ poll terminal, input = .pollFinish poll terminal
    · obtain ⟨poll, terminal, rfl⟩ := hPoll
      exact transition_pollFinish_returnFinished ..
    · have hFalse : (w.state.reducer key).finishComplete = false := by
        cases input with
        | pollFinish poll terminal => exact absurd ⟨poll, terminal, rfl⟩ hPoll
        | _ => exact hAt rfl
      constructor
      · intro hCommand
        exact absurd (transition_returnFinished hCommand) hPoll
      · intro hTrue
        rcases hMono.1 hTrue with hComplete | ⟨terminal, hInput, -⟩
        · rw [hFalse] at hComplete
          cases hComplete
        · exact absurd ⟨_, terminal, hInput⟩ hPoll

/-- A completion is in hand only when none was taken after an error. -/
theorem finishInHand_poll {choice : Choice}
    (hCond : NoFinishAfterError key ((adapter config).advance choice (.send key .pollFinish)
      (.stream key .pollSendChannel) w).trace) :
    FinishInHand key (sendPoll (w.state.stream key).send.pollNext.1)
      ((adapter config).advance choice (.send key .pollFinish) (.stream key .pollSendChannel) w) := by
  intro hPoll error hError
  have hReducer : ((adapter config).advance choice (.send key .pollFinish)
      (.stream key .pollSendChannel) w).state.reducer key = w.state.reducer key :=
    advance_reducer_self ..
  have hHead : (w.state.stream key).send.queue.head? = some (.finishComplete true) := by
    apply Channel.pollNext_eq_some.1
    cases hNext : (w.state.stream key).send.pollNext.1 with
    | pending =>
        rw [hNext] at hPoll
        cases hPoll
    | ready event =>
        rw [hNext] at hPoll
        cases event <;> cases hPoll
        rfl
  rw [Machine.advance_trace, finishPolls_snoc] at hError
  have hEarlier : .ready (.error error) ∈ finishPolls key w.trace := by
    simpa [finishPoll] using hError
  obtain ⟨first, hMem, hFirst⟩ := List.mem_filterMap.1 hEarlier
  have hPair := (List.pairwise_append.1 hCond).2.2 first hMem _ (List.mem_singleton_self _)
  rw [hReducer, ← Bool.not_eq_true]
  intro hStarted
  have hTakes : takesFinish key (.event ((adapter config).event choice (.send key .pollFinish)
      (.stream key .pollSendChannel) w.state)) = true := by
    simp [takesFinish, Machine.event, hStarted, hHead]
  rw [hPair error hFirst] at hTakes
  cases hTakes

end Book

section Outline

variable {config : H3Config} {key : StreamKey} {w : AdapterWorld}

/-- One more label keeps what is decided if it agrees with the flag. -/
theorem FinishDecided.snoc {trace : List AdapterLabel} (h : FinishDecided key trace)
    {label : AdapterLabel}
    (hOk : .ready (.ok ()) ∈ finishPolls key trace →
      (∀ poll, finishPoll key label = some poll → poll = .ready (.ok ())) ∧
        ¬SubmitsNative key label)
    (hError : ∀ error, .ready (.error error) ∈ finishPolls key trace →
      finishPoll key label ≠ some (.ready (.ok ()))) :
    FinishDecided key (trace ++ [label]) := by
  apply List.pairwise_append.2
  refine ⟨h, List.pairwise_singleton .., fun first hFirst second hSecond => ?_⟩
  rw [List.mem_singleton.1 hSecond]
  exact ⟨fun hPoll => hOk (mem_finishPolls hFirst hPoll),
    fun error hPoll => hError error (mem_finishPolls hFirst hPoll)⟩

theorem FinishDecided.silent {trace : List AdapterLabel} (h : FinishDecided key trace)
    {label : AdapterLabel} (hPoll : finishPoll key label = none)
    (hSubmits : ¬SubmitsNative key label) : FinishDecided key (trace ++ [label]) := by
  apply h.snoc
  · intro _
    rw [hPoll]
    exact ⟨by simp, hSubmits⟩
  · intro error _
    rw [hPoll]
    simp

/-- A step of another thread decides nothing. -/
theorem FinishDecided.stable {w' : AdapterWorld} (h : FinishDecided key w.trace)
    (hStep : (adapter config).Interference permits (.sendHalf key) w w') :
    FinishDecided key w'.trace := by
  obtain ⟨label, hTrace, hOwner⟩ := interference_trace hStep
  rw [hTrace]
  apply h.silent
  · cases hPoll : finishPoll key label with
    | none => rfl
    | some poll => exact absurd (finishPoll_owner hPoll) hOwner
  · rintro ⟨e, op, rfl, hOwn, -⟩
    exact hOwner hOwn

theorem FinishDecided.own {call : SendCall} {point : SendPoint} {op : Op}
    {target : op.Reply → SendPoint} (h : FinishDecided key w.trace) (hFlag : FinishBook key w)
    (hNode : call.node config key point = .inl ⟨op, target⟩)
    (hBook : point.book call (w.state.reducer key)) (choice : Choice) :
    FinishDecided key ((adapter config).advance choice (.send key call) op w).trace := by
  apply h.snoc
  · intro hOk
    refine ⟨(fun poll hPoll => by cases hPoll), ?_⟩
    rintro ⟨e, op', hEvent, -, hOp, hSubmits⟩
    cases hEvent
    change op = .stream key op' at hOp
    subst hOp
    have hFalse := submits_book hNode hSubmits hBook
    rw [hFlag.ok hOk] at hFalse
    cases hFalse
  · intro error _ hPoll
    cases hPoll

/-- A step of the half's own code. -/
theorem finish_step {call : SendCall} {point : SendPoint} {op : Op}
    {target : op.Reply → SendPoint} (hFlag : FinishBook key w)
    (hAt : call = .pollFinish → finishAt key point w)
    (hNode : call.node config key point = .inl ⟨op, target⟩)
    (hBook : point.book call (w.state.reducer key)) (choice : Choice)
    (hCond : NoFinishAfterError key ((adapter config).advance choice (.send key call) op w).trace) :
    FinishBook key ((adapter config).advance choice (.send key call) op w) ∧
      (call = .pollFinish → finishAt key (target (op.perform config choice w.state).1)
        ((adapter config).advance choice (.send key call) op w)) := by
  -- Everywhere but at a feed point the reducer keeps its state.
  have hKeep : ∀ {op : Op}, ((adapter config).advance choice (.send key call) op w).state.reducer key =
      w.state.reducer key → FinishBook key ((adapter config).advance choice (.send key call) op w) :=
    fun hSame => hFlag.advance hSame
  have hFalse : ∀ {op : Op}, ((adapter config).advance choice (.send key call) op w).state.reducer key =
      w.state.reducer key → (w.state.reducer key).finishComplete = false →
      (((adapter config).advance choice (.send key call) op w).state.reducer key).finishComplete =
        false := by
    intro op hSame hComplete
    rw [hSame]
    exact hComplete
  cases point with
  | feed round =>
      cases hNode
      exact finish_feed hFlag hAt hBook choice
  | guard =>
      cases hNode
      refine ⟨hKeep (advance_reducer_self ..), ?_⟩
      rintro rfl
      cases hBook.1
  | poll =>
      cases hNode
      refine ⟨hKeep (advance_reducer_self ..), ?_⟩
      rintro rfl
      exact finishInHand_poll hCond
  | load purpose =>
      cases hNode
      have hSame := @advance_reducer_self config key choice (.send key call)
        .loadWinner w
      refine ⟨hKeep hSame, ?_⟩
      rintro rfl
      dsimp only
      have hPurpose : finishAt key (.load purpose) w := hAt rfl
      split
      · apply finishAt_resolved hBook
        · rintro poll rfl
          exact FinishInHand.advance hPurpose hSame
        · intro hOther
          apply hFalse hSame
          cases purpose <;> first | exact hPurpose | exact absurd rfl (hOther _)
      · cases purpose <;> first | exact hFalse hSame hPurpose | exact FinishInHand.advance hPurpose hSame
  | peek purpose slot =>
      cases hNode
      have hSame := @advance_reducer_conn config key choice (.send key call)
        .peekConnTerminal w
      refine ⟨hKeep hSame, ?_⟩
      rintro rfl
      have hPurpose : finishAt key (.peek purpose slot) w := hAt rfl
      apply finishAt_resolved hBook
      · rintro poll rfl
        exact FinishInHand.advance hPurpose hSame
      · intro hOther
        apply hFalse hSame
        cases purpose <;> first | exact hPurpose | exact absurd rfl (hOther _)
  | again round => cases hNode
  | publish candidate continuation remaining =>
      cases hNode
      exact ⟨hKeep (advance_reducer_self ..), fun hCall => hFalse (advance_reducer_self ..) (hAt hCall)⟩
  | box buffer =>
      cases hNode
      refine ⟨hKeep (advance_reducer_self ..), ?_⟩
      rintro rfl
      obtain ⟨⟨payload, hCall⟩, -⟩ := hBook
      cases hCall
  | submit context buffer =>
      cases hNode
      refine ⟨hKeep (advance_reducer_self ..), ?_⟩
      rintro rfl
      obtain ⟨⟨payload, hCall⟩, -⟩ := hBook
      cases hCall
  | reclaim context status =>
      cases hNode
      refine ⟨hKeep (advance_reducer_self ..), ?_⟩
      rintro rfl
      obtain ⟨⟨payload, hCall⟩, -⟩ := hBook
      cases hCall
  | submitGraceful =>
      cases hNode
      exact ⟨hKeep (advance_reducer_self ..), fun hCall => hFalse (advance_reducer_self ..) (hAt hCall)⟩
  | submitReset code =>
      cases hNode
      exact ⟨hKeep (advance_reducer_self ..), fun hCall => hFalse (advance_reducer_self ..) (hAt hCall)⟩
  | commit fallback =>
      cases hNode
      refine ⟨hKeep (advance_reducer_conn ..), ?_⟩
      rintro rfl
      exact hFalse (advance_reducer_conn ..) (hAt rfl)
  | dropHalf =>
      cases hNode
      refine ⟨hKeep (advance_reducer_self ..), ?_⟩
      rintro rfl
      cases hBook.1
  | exit result => cases hNode

/-- What a returned `poll_finish` says of the flag. -/
theorem finishAt_exit {call : SendCall} {events : List AdapterEvent} {result : Result}
    {poll : Poll (Except SendError Unit)} (h : call = .pollFinish → finishAt key (.exit result) w)
    (hPoll : finishPoll key (.finished ⟨.send key call, events, result⟩) = some poll) :
    poll = .ready (.ok ()) ↔ (w.state.reducer key).finishComplete = true := by
  unfold finishPoll at hPoll
  split at hPoll
  next hLabel =>
    cases hLabel
    rw [if_pos rfl] at hPoll
    cases hPoll
    have hAt := h rfl
    unfold finishAt at hAt
    split at hAt <;> simp_all
  · cases hPoll

/-- The outcomes of one send half are decided once. -/
def finishOutline (config : H3Config) (key : StreamKey) : SendOutline config key where
  known w := NoFinishAfterError key w.trace
  inv w := FinishDecided key w.trace
  idle := FinishBook key
  assertion call point _ w := FinishBook key w ∧ (call = .pollFinish → finishAt key point w)
  init := .nil
  idle_init := ⟨by simp [finishPolls], by simp [finishPolls]⟩
  stable w w' hStep _ _ _ hInv := hInv.stable hStep
  idle_stable w w' h hRely := h.rely hRely
  begin call w _ hInv hIdle _ _ := by
    have hFlag : FinishBook key (w.after (.begun (.send key call)) w.state) := by
      constructor
      · rw [World.after_trace, finishPolls_snoc]
        simpa [finishPoll] using hIdle.ok
      · rw [World.after_trace, finishPolls_snoc]
        simpa [finishPoll] using hIdle.error
    refine ⟨hInv.silent rfl (by rintro ⟨e, op, hLabel, -⟩; cases hLabel), hFlag, ?_⟩
    rintro rfl
    trivial
  step call point events w op target hAt hNode w' hRely hBook _ hInv choice hCond := by
    have hFlag := hAt.1.rely hRely
    exact ⟨hInv.own hFlag hNode hBook choice,
      finish_step hFlag (fun hCall => finishAt_rely (hAt.2 hCall) hRely) hNode hBook choice hCond⟩
  again call round events w hAt := by
    obtain ⟨input, remaining⟩ := round
    cases input <;> exact hAt
  finish call events w result hAt w' hRely _ _ hInv _ := by
    have hFlag := hAt.1.rely hRely
    have hExit : ∀ {poll}, finishPoll key (.finished ⟨.send key call, events, result⟩) = some poll →
        (poll = .ready (.ok ()) ↔ (w'.state.reducer key).finishComplete = true) :=
      finishAt_exit fun hCall => finishAt_rely (hAt.2 hCall) hRely
    constructor
    · apply hInv.snoc
      · intro hOk
        refine ⟨fun poll hPoll => (hExit hPoll).2 (hFlag.ok hOk), ?_⟩
        rintro ⟨e, op, hLabel, -⟩
        cases hLabel
      · intro error hError hPoll
        have hTrue := (hExit hPoll).1 rfl
        rw [hFlag.error error hError] at hTrue
        cases hTrue
    · constructor
      · intro hOk
        rw [World.after_trace, finishPolls_snoc, List.mem_append, Option.mem_toList] at hOk
        rcases hOk with hOk | hPoll
        · exact hFlag.ok hOk
        · exact (hExit hPoll).1 rfl
      · intro error hError
        rw [World.after_trace, finishPolls_snoc, List.mem_append, Option.mem_toList] at hError
        rcases hError with hError | hPoll
        · exact hFlag.error error hError
        · rw [← Bool.not_eq_true]
          intro hTrue
          cases (hExit hPoll).2 hTrue

end Outline

section Claim

variable {config : H3Config} {key : StreamKey} {trace : List AdapterLabel}
  {reached : AdapterConfig}

/-- In a run that takes no completion after an error, the first outcome of a finish
is its outcome for good. -/
theorem finish_decided_once (run : Runs config trace reached)
    (hCond : NoFinishAfterError key trace) : FinishDecided key trace :=
  (finishOutline config key).holds run fun _ _ _ hPrefix => hCond.sublist hPrefix.sublist

theorem noFinishAfterError_of_none (h : trace.any (takesFinish key) = false) :
    NoFinishAfterError key trace := by
  apply List.pairwise_of_forall_mem_list
  intro first _ second hSecond error _
  have hNone := List.any_eq_false.1 h second hSecond
  simpa using hNone

/-- A stopped finish fails once and again. -/
theorem finish_decided_once_stopped :
    ∃ trace reached, Runs .default trace reached ∧
      finishPolls (.accepted 0) trace = [.pending,
        .ready (.error (.winner (.stopped 7))), .ready (.error (.winner (.stopped 7)))] ∧
      FinishDecided (.accepted 0) trace := by
  have hRun : ((adapter .default).run (Machine.initial {}) (serveAll
      [(.send (.accepted 0) .pollFinish, 13),
        (.stream (.accepted 0) (.peerReceiveAborted 7), 7),
        (.send (.accepted 0) .pollFinish, 4), (.send (.accepted 0) .pollFinish, 4)])).isSome := by
    decide
  exact ⟨_, _, Machine.runs_get hRun, rfl,
    finish_decided_once (Machine.runs_get hRun) (noFinishAfterError_of_none rfl)⟩

/-- The peer stops the stream after the finish was submitted, `poll_finish` reports it,
and the completion of the finish then turns the outcome into success. -/
theorem finish_not_decided_once :
    ∃ trace reached, Runs .default trace reached ∧
      finishPolls (.accepted 0) trace =
        [.pending, .ready (.error (.winner (.stopped 7))), .ready (.ok ())] ∧
      ¬FinishDecided (.accepted 0) trace := by
  have hRun : ((adapter .default).run (Machine.initial {}) (serveAll
      [(.send (.accepted 0) .pollFinish, 13),
        (.stream (.accepted 0) (.peerReceiveAborted 7), 7),
        (.send (.accepted 0) .pollFinish, 4),
        (.stream (.accepted 0) (.sendShutdownComplete true), 5),
        (.send (.accepted 0) .pollFinish, 4)])).isSome := by
    decide
  have hPolls : finishPolls (.accepted 0) (((adapter .default).run _ _).get hRun).1 =
      [.pending, .ready (.error (.winner (.stopped 7))), .ready (.ok ())] := rfl
  refine ⟨_, _, Machine.runs_get hRun, hPolls, fun hDecided => ?_⟩
  have hPairs : (finishPolls (.accepted 0) (((adapter .default).run _ _).get hRun).1).Pairwise
      fun first second => ∀ error, first = .ready (.error error) → second ≠ .ready (.ok ()) := by
    apply List.pairwise_filterMap.2
    apply hDecided.imp
    intro first second hPair poll hPoll poll' hPoll' error hError hOk
    exact hPair.2 error (hError ▸ hPoll) (hOk ▸ hPoll')
  rw [hPolls] at hPairs
  simp at hPairs

end Claim

end MsQuicH3
