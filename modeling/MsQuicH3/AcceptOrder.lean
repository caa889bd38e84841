import MsQuicH3.AcceptQueue

/-! What the accept methods deliver. A method hands out the streams of its queue in order
and behind them the recorded cause, which it repeats from then on; an internal failure
comes ahead of the streams that are left. -/
namespace MsQuicH3

open Concurrency

/-- The stream a call of the accept method of a direction returned. -/
def acceptedBy (uni : Bool) : AdapterCall → Option StreamKey
  | ⟨.pollAcceptRecv, _, .pollAccept (.ready (.ok key))⟩ => if uni then some key else none
  | ⟨.pollAcceptBidi, _, .pollAccept (.ready (.ok key))⟩ => if uni then none else some key
  | _ => none

/-- The streams the accept method of a direction returned, in order. -/
def acceptedStreams (uni : Bool) (trace : List AdapterLabel) : List StreamKey :=
  trace.filterMap fun
    | .finished call => acceptedBy uni call
    | _ => none

/-- An accept method failed with a cause. -/
def acceptFailed (cause : ConnectionTerminal) : Result :=
  .pollAccept (.ready (.error (.recorded cause)))

/-- What an accept method learns from one operation. -/
inductive AcceptNote where
  | checked (cause : Option ConnectionTerminal)
  | polled (uni : Bool) (reply : Poll (Option (Option StreamKey)))
  | observed (cause : Option ConnectionTerminal)
  | other

def acceptNote : (op : Op) → op.Reply → AcceptNote
  | .conn .failFastTerminal, cause => .checked cause
  | .conn .pollUni, reply => .polled true reply
  | .conn .pollBidi, reply => .polled false reply
  | .conn .commitConn, cause => .observed cause
  | _, _ => .other

/-- The ways through an accept method. Its queue carries streams only. -/
inductive AcceptSteps (uni : Bool) : List AcceptNote → Result → Prop where
  | failed (cause : ConnectionTerminal) : AcceptSteps uni [.checked (some cause)] (acceptFailed cause)
  | pending : AcceptSteps uni [.checked none, .polled uni .pending] (.pollAccept .pending)
  | stream (key : StreamKey) :
      AcceptSteps uni [.checked none, .polled uni (.ready (some (some key)))]
        (.pollAccept (.ready (.ok key)))
  | ended (cause : ConnectionTerminal) :
      AcceptSteps uni [.checked none, .polled uni (.ready none), .observed (some cause)]
        (acceptFailed cause)
  | unrecorded :
      AcceptSteps uni [.checked none, .polled uni (.ready none), .observed none]
        (.pollAccept (.ready (.error .unrecorded)))

section Calls

variable {config : H3Config} {uni : Bool} {trace : List AdapterLabel} {reached : AdapterConfig}

/-- The queue does not answer with an empty message. -/
def carriesStreams (uni : Bool) (op : Op) (reply : op.Reply) : Prop :=
  acceptNote op reply ≠ .polled uni (.ready (some none))

/-- A method that polls the queue of a direction. -/
def Polls (uni : Bool) (next : Code (Poll (Option (Option StreamKey)))) : Prop :=
  ∀ (P : List AcceptNote → Poll (Except AcceptError StreamKey) → Prop)
    (rest : Poll (Option (Option StreamKey)) → Code (Poll (Except AcceptError StreamKey))),
    (∀ reply, reply ≠ .ready (some none) → (rest reply).Ends (carriesStreams uni)
      (fun op reply => [acceptNote op reply]) P [.checked none, .polled uni reply]) →
    (next >>= rest).Ends (carriesStreams uni) (fun op reply => [acceptNote op reply]) P
      [.checked none]

theorem ends_pollAccept {next : Code (Poll (Option (Option StreamKey)))} (hNext : Polls uni next) :
    (pollAccept next).Ends (carriesStreams uni) (fun op reply => [acceptNote op reply])
      (fun notes result => AcceptSteps uni notes (.pollAccept result)) [] := by
  intro cause _
  cases cause with
  | some cause => exact .failed cause
  | none =>
      apply hNext
      intro reply hReply
      cases reply with
      | pending => exact .pending
      | ready message =>
          cases message with
          | none =>
              intro cause _
              cases cause with
              | some cause => exact .ended cause
              | none => exact .unrecorded
          | some stream =>
              cases stream with
              | none => exact absurd rfl hReply
              | some key => exact .stream key

theorem polls_pollUni : Polls true (onConn .pollUni) := by
  intro P rest h reply hReply
  apply h
  rintro rfl
  exact hReply rfl

theorem polls_pollBidi : Polls false (onConn .pollBidi) := by
  intro P rest h reply hReply
  apply h
  rintro rfl
  exact hReply rfl

theorem ends_accept (config : H3Config) (uni : Bool) :
    ((acceptRequest uni).entry config).Ends (carriesStreams uni)
      (fun op reply => [acceptNote op reply])
      (fun notes outcome => ∃ result, outcome = .inr result ∧ AcceptSteps uni notes result) [] := by
  have hStraight : ∀ {code : Code (Poll (Except AcceptError StreamKey))},
      code.Ends (carriesStreams uni) (fun op reply => [acceptNote op reply])
        (fun notes result => AcceptSteps uni notes (.pollAccept result)) [] →
      (straight code .pollAccept).Ends (carriesStreams uni) (fun op reply => [acceptNote op reply])
        (fun notes outcome => ∃ result, outcome = .inr result ∧ AcceptSteps uni notes result) [] :=
    fun h => Program.Ends.bind (h.mono fun notes result hSteps => ⟨_, rfl, hSteps⟩)
  cases uni with
  | true => exact hStraight (ends_pollAccept polls_pollUni)
  | false => exact hStraight (ends_pollAccept polls_pollBidi)

/-- A poll of the queue is noted with its answer. -/
theorem acceptUse_poll {op : Op} {reply : op.Reply} {answer : Poll (Option (Option StreamKey))} :
    acceptUse uni op reply = some (.poll answer) ↔ acceptNote op reply = .polled uni answer := by
  cases op with
  | stream key op => simp [acceptUse, acceptNote]
  | conn op => cases op <;> cases uni <;> simp [acceptUse, acceptNote]

/-- What was handed over are streams. -/
theorem sent_usesOf (uni : Bool) (trace : List AdapterLabel) :
    Channel.sent (Machine.usesOf (acceptUse uni) trace) = (arrivedStreams uni trace).map some := by
  rw [Channel.sent, Machine.usesOf, arrivedStreams, List.filterMap_filterMap, List.map_filterMap]
  congr 1
  funext label
  cases label with
  | event e =>
      obtain ⟨request, op, reply, before, after⟩ := e
      cases op with
      | stream key op => rfl
      | conn op =>
          cases op with
          | sendUni key => cases reply <;> cases uni <;> rfl
          | sendBidi key => cases reply <;> cases uni <;> rfl
          | _ => cases uni <;> rfl
  | _ => rfl

/-- The history of a queue: the streams taken out and those left are the arrived ones. -/
theorem taken_arrived (run : Runs config trace reached) :
    Channel.taken (Machine.usesOf (acceptUse uni) trace) ++ (acceptQueue uni reached.state).queue =
      (arrivedStreams uni trace).map some := by
  have hFifo := (acceptLog run).fifo (@acceptQueue_receiver config uni _ _ run)
  rw [← hFifo, sent_usesOf]
  cases uni <;> rfl

theorem carries_streams (run : Runs config trace reached) {e : AdapterEvent}
    (he : .event e ∈ trace) : carriesStreams uni e.op e.reply := by
  intro hNote
  have hUse : .poll (.ready (some none)) ∈ Machine.usesOf (acceptUse uni) trace :=
    Machine.mem_usesOf.2 ⟨e, he, acceptUse_poll.2 hNote⟩
  have hTaken : none ∈ Channel.taken (Machine.usesOf (acceptUse uni) trace) :=
    List.mem_filterMap.2 ⟨_, hUse, rfl⟩
  have hArrived := List.mem_append_left (acceptQueue uni reached.state).queue hTaken
  rw [taken_arrived run] at hArrived
  simp at hArrived

/-- Every call of an accept method goes one of its ways. -/
theorem accept_steps (run : Runs config trace reached) {call : AdapterCall}
    (hCall : .finished call ∈ trace) (hRequest : call.request = acceptRequest uni) :
    AcceptSteps uni (call.events.map fun e => acceptNote e.op e.reply) call.result := by
  have hTranscript := (Machine.endsTranscript (fun request => request = acceptRequest uni)
    (carriesStreams uni) (fun op reply => [acceptNote op reply])
    (fun _ notes result => AcceptSteps uni notes result)
    (by rintro request rfl; exact ends_accept config uni)).sound run
  obtain ⟨result, hResult, hSteps⟩ := hTranscript.2 call hCall hRequest fun e he =>
    carries_streams run ((Machine.Runs.call_events run).2 call hCall e he).2
  cases hResult
  rw [List.map_eq_flatMap]
  exact hSteps

/-- The message a poll of the queue of a direction takes out. -/
def AcceptNote.taken (uni : Bool) : AcceptNote → List (Option StreamKey)
  | .polled direction (.ready (some message)) => if direction = uni then [message] else []
  | _ => []

theorem taken_acceptUse (uni : Bool) (e : AdapterEvent) :
    ((acceptUse uni e.op e.reply).bind Channel.Use.taken).toList =
      (acceptNote e.op e.reply).taken uni := by
  obtain ⟨request, op, reply, before, after⟩ := e
  cases op with
  | stream key op => rfl
  | conn op =>
      cases op with
      | pollUni => cases uni <;> rcases reply with _ | _ | _ <;> rfl
      | pollBidi => cases uni <;> rcases reply with _ | _ | _ <;> rfl
      | _ => cases uni <;> rfl

/-- What a call takes out it returns. -/
theorem AcceptSteps.taken {notes : List AcceptNote} {result : Result} (other : Bool)
    (h : AcceptSteps other notes result) (events : List AdapterEvent) :
    notes.flatMap (AcceptNote.taken uni) =
      (acceptedBy uni ⟨acceptRequest other, events, result⟩).toList.map some := by
  cases h <;> cases other <;> cases uni <;> rfl

theorem owner_accept {request : Request} (h : request.owner = .accept) :
    ∃ uni, request = acceptRequest uni := by
  cases request with
  | pollAcceptRecv => exact ⟨true, rfl⟩
  | pollAcceptBidi => exact ⟨false, rfl⟩
  | _ => cases h

/-- Only the accept methods poll the queues. -/
theorem accept_of_polls {request : Request} {op : ConnOp} (h : permits request (.conn op))
    (hOp : op = .pollUni ∨ op = .pollBidi) : request.owner = .accept := by
  cases request with
  | pollAcceptRecv => rfl
  | pollAcceptBidi => rfl
  | _ => rcases hOp with rfl | rfl <;> exact absurd h Bool.false_ne_true

theorem acceptedBy_owner {call : AdapterCall} {key : StreamKey} (h : acceptedBy uni call = some key) :
    call.request = acceptRequest uni := by
  unfold acceptedBy at h
  split at h
  · cases uni
    · cases h
    · rfl
  · cases uni
    · rfl
    · cases h
  · cases h

theorem acceptedStreams_eq (config : H3Config) (uni : Bool) (trace : List AdapterLabel) :
    acceptedStreams uni trace =
      ((adapter config).callsOf .accept trace).flatMap fun call => (acceptedBy uni call).toList := by
  rw [acceptedStreams, List.filterMap_eq_flatMap_toList, Machine.callsOf,
    List.filterMap_eq_flatMap_toList, List.flatMap_assoc]
  congr 1
  funext label
  cases label with
  | finished call =>
      by_cases hOwner : call.request.owner = .accept
      · change _ = (if call.request.owner = .accept then some call else none).toList.flatMap _
        rw [if_pos hOwner]
        simp
      · change _ = (if call.request.owner = .accept then some call else none).toList.flatMap _
        rw [if_neg hOwner]
        cases hAccepted : acceptedBy uni call with
        | none => simp [hAccepted]
        | some key =>
            rw [acceptedBy_owner hAccepted] at hOwner
            cases uni <;> exact absurd rfl hOwner
  | _ => rfl

/-- The streams taken out were returned, but for one a call has in hand. -/
theorem taken_accepted (run : Runs config trace reached) :
    Channel.taken (Machine.usesOf (acceptUse uni) trace) = (acceptedStreams uni trace).map some ++
      (Machine.inProgress .accept reached).flatMap fun e => (acceptNote e.op e.reply).taken uni := by
  have hForeign : ∀ e, .event e ∈ trace → e.request.owner ≠ .accept →
      (acceptNote e.op e.reply).taken uni = [] := by
    intro e he hOwner
    obtain ⟨request, op, reply, before, after⟩ := e
    have hPermits : permits request op :=
      Machine.Runs.permitted (uses_entry config) uses_body run he
    cases op with
    | stream key op => rfl
    | conn op =>
        cases op with
        | pollUni => exact absurd (accept_of_polls hPermits (.inl rfl)) hOwner
        | pollBidi => exact absurd (accept_of_polls hPermits (.inr rfl)) hOwner
        | _ => rfl
  have hNoted : Channel.taken (Machine.usesOf (acceptUse uni) trace) =
      trace.flatMap (Machine.noted fun e => (acceptNote e.op e.reply).taken uni) := by
    rw [Channel.taken, Machine.usesOf, List.filterMap_filterMap, List.filterMap_eq_flatMap_toList]
    congr 1
    funext label
    cases label with
    | event e => exact taken_acceptUse uni e
    | _ => rfl
  have hCalls := Machine.Runs.notes_by_call run hForeign
  rw [hNoted, hCalls, acceptedStreams_eq config, List.map_flatMap]
  congr 1
  apply List.flatMap_congr
  intro call hMem
  obtain ⟨hCall, hOwner⟩ := Machine.mem_callsOf.1 hMem
  obtain ⟨direction, hRequest⟩ := owner_accept hOwner
  have hSteps := accept_steps run hCall hRequest
  have hTaken := @AcceptSteps.taken uni _ _ direction hSteps call.events
  rw [List.flatMap_map] at hTaken
  rw [hTaken, ← hRequest]

end Calls

section Sticky

variable {config : H3Config} {uni : Bool} {cause : ConnectionTerminal} {s : State}

/-- The accept method of a direction has nothing but a cause left to deliver. -/
def Concluded (uni : Bool) (cause : ConnectionTerminal) (s : State) : Prop :=
  s.conn.terminal = some cause ∧ ((∃ message, cause = .internal message) ∨
    s.conn.observed = true ∧ (acceptQueue uni s).sender = false ∧ (acceptQueue uni s).queue = [])

/-- An internal failure is never replaced. -/
theorem Op.slot_internal (op : Op) {slot : ConnTerminalState} {message : String}
    (h : slot.terminal = some (.internal message)) :
    (op.slot slot).terminal = some (.internal message) := by
  cases op with
  | stream key op => exact h
  | conn op =>
      cases op with
      | recordConnTerminal candidate =>
          simp only [Op.slot, ConnOp.slot, ConnTerminalState.record, h]
          split <;> simp [ConnectionTerminal.isProvisional, h]
      | commitConn => simp [Op.slot, ConnOp.slot, commitConn, ConnTerminalState.observe,
          ConnTerminalState.terminalIsSome, h]
      | failFastTerminal => simp [Op.slot, ConnOp.slot, failFastTerminal, ConnTerminalState.observe,
          ConnTerminalState.hasInternal, h]
      | _ => exact h

theorem Concluded.deliver (config : H3Config) {request : Request} {s' : State} (hDeliver : deliver request s = some s')
    (h : Concluded uni cause s) : Concluded uni cause s' := by
  have hQueue : acceptQueue uni s' = acceptQueue uni s :=
    (acceptWired config uni).delivered request s s' hDeliver
  rw [Concluded, deliver_conn hDeliver, hQueue]
  exact h

theorem Concluded.perform (choice : Choice) (op : Op) (h : Concluded uni cause s) :
    Concluded uni cause ((adapter config).perform choice op s).2 := by
  obtain ⟨hTerminal, hRest⟩ := h
  have hConn : ((adapter config).perform choice op s).2.conn = op.slot s.conn := by
    rw [adapter_perform, Op.perform_conn]
  rcases hRest with ⟨message, rfl⟩ | ⟨hFrozen, hSender, hQueue⟩
  · refine ⟨?_, .inl ⟨message, rfl⟩⟩
    rw [hConn]
    exact op.slot_internal hTerminal
  · have hSame : op.slot s.conn = s.conn := (op.slot_le s.conn).frozen hFrozen
    refine ⟨by rw [hConn, hSame, hTerminal], .inr ⟨by rw [hConn, hSame, hFrozen], ?_⟩⟩
    have hOp := (acceptWired config uni).performed choice op s
    cases hUse : acceptUse uni op ((adapter config).perform choice op s).1 with
    | none =>
        have hKept : acceptQueue uni ((adapter config).perform choice op s).2 = acceptQueue uni s := by
          simpa only [hUse] using hOp
        rw [hKept]
        exact ⟨hSender, hQueue⟩
    | some use =>
        have hOn : use.On (acceptQueue uni s)
            (acceptQueue uni ((adapter config).perform choice op s).2) := by
          simpa only [hUse] using hOp
        obtain ⟨hNext, hEmpty, -⟩ := hOn.silent hSender hQueue
        exact ⟨hNext, hEmpty⟩

/-- What the check of a concluded method answers. -/
theorem Concluded.check (h : Concluded uni cause s) :
    (failFastTerminal s.conn).1 = some cause ∨
      (failFastTerminal s.conn).1 = none ∧ ∀ message, cause ≠ .internal message := by
  unfold failFastTerminal
  by_cases hInternal : s.conn.hasInternal
  · rw [if_pos hInternal]
    exact .inl h.1
  · rw [if_neg hInternal]
    refine .inr ⟨rfl, ?_⟩
    rintro message rfl
    apply hInternal
    rw [ConnTerminalState.hasInternal, h.1]

theorem Concluded.poll (h : Concluded uni cause s) (hCause : ∀ message, cause ≠ .internal message) :
    (acceptQueue uni s).pollNext.1 = .ready none := by
  obtain ⟨-, ⟨message, hInternal⟩ | ⟨-, hSender, hQueue⟩⟩ := h
  · exact absurd hInternal (hCause message)
  · exact Channel.pollNext_eq_none.2 ⟨hQueue, hSender⟩

theorem Concluded.commit (h : Concluded uni cause s) : (commitConn s.conn).1 = some cause := by
  rw [commitConn, ConnTerminalState.terminalIsSome, h.1]
  exact h.1

/-- Code that ends with the cause of a concluded method. -/
abbrev Concludes (config : H3Config) (uni : Bool) (cause : ConnectionTerminal) (request : Request) :
    Round → Prop :=
  (adapter config).Steady (Concluded uni cause) (fun _ => True)
    (fun outcome => ∃ result, outcome = .inr result ∧ result = acceptFailed cause) request

/-- A concluded method delivers its cause. -/
theorem concludes_accept (config : H3Config) (request : Request) :
    Concludes config uni cause request ((acceptRequest uni).entry config) := by
  have hMethod : ∀ next : Code (Poll (Option (Option StreamKey))),
      (∀ rest : Poll (Option (Option StreamKey)) → Round,
        (∀ s, Concluded uni cause s →
          Concludes config uni cause request (rest (acceptQueue uni s).pollNext.1)) →
        Concludes config uni cause request (next >>= rest)) →
      Concludes config uni cause request (straight (pollAccept next) .pollAccept) := by
    intro next hNext choice s h
    refine ⟨trivial, ?_⟩
    generalize hReply : ((adapter config).perform choice (.conn .failFastTerminal) s).1 = reply
    rcases h.check with hCheck | ⟨hCheck, hCause⟩
    · obtain rfl : reply = some cause := hReply.symm.trans hCheck
      exact ⟨_, rfl, rfl⟩
    · obtain rfl : reply = none := hReply.symm.trans hCheck
      change Concludes config uni cause request ((next >>= _) >>= _)
      rw [Program.bind_assoc]
      apply hNext
      intro s h
      rw [h.poll hCause]
      intro choice s h
      refine ⟨trivial, ?_⟩
      generalize hCommit : ((adapter config).perform choice (.conn .commitConn) s).1 = reply
      obtain rfl : reply = some cause := hCommit.symm.trans h.commit
      exact ⟨_, rfl, rfl⟩
  cases uni with
  | true => exact hMethod _ fun rest hRest choice s h => ⟨trivial, hRest s h⟩
  | false => exact hMethod _ fun rest hRest choice s h => ⟨trivial, hRest s h⟩

theorem yields_accept (config : H3Config) (uni : Bool) :
    ((acceptRequest uni).entry config).Yields fun outcome => ∃ result, outcome = .inr result := by
  have hStraight : ∀ code : Code (Poll (Except AcceptError StreamKey)),
      (straight code .pollAccept).Yields fun outcome => ∃ result, outcome = .inr result :=
    fun code => (Program.yields_true code).bind fun result _ => ⟨_, rfl⟩
  cases uni with
  | true => exact hStraight pollAcceptRecv
  | false => exact hStraight pollAcceptBidi

/-- From a concluded method on every call of it returns the cause. -/
theorem concluded_sticky {start reached : AdapterConfig} {trace : List AdapterLabel}
    (run : (adapter config).Runs start trace reached) (h : Concluded uni cause start.state)
    (hOwner : ∀ thread a, start.active thread = some a → a.request.owner = thread)
    (hIdle : start.active .accept = none) {call : AdapterCall} (hCall : .finished call ∈ trace)
    (hRequest : call.request = acceptRequest uni) : call.result = acceptFailed cause := by
  have hEntry : ∀ request : Request, request.owner = .accept →
      (adapter config).Steady (Concluded uni cause) (fun _ => True)
        (fun outcome => ∃ result, outcome = .inr result ∧
          (request = acceptRequest uni → result = acceptFailed cause)) request
        (request.entry config) := by
    intro request hAccept
    obtain ⟨direction, rfl⟩ := owner_accept hAccept
    by_cases hDirection : direction = uni
    · subst hDirection
      apply (concludes_accept config _).mono
      rintro outcome ⟨result, hOutcome, hResult⟩
      exact ⟨result, hOutcome, fun _ => hResult⟩
    · apply (Machine.steady_of_yields (yields_accept config direction)).mono
      rintro outcome ⟨result, hOutcome⟩
      refine ⟨result, hOutcome, fun hSame => absurd hSame ?_⟩
      cases direction <;> cases uni <;> simp_all [acceptRequest]
  have hSteady := run.steady (fun request s s' => Concluded.deliver config)
    (fun choice op s => Concluded.perform choice op) h (fun request _ _ hAccept _ _ => hEntry request hAccept)
    hOwner hIdle
  exact hSteady.2.1 call hCall (by rw [hRequest]; cases uni <;> rfl) hRequest

end Sticky

section Delivery

variable {config : H3Config} {uni : Bool} {trace : List AdapterLabel} {reached : AdapterConfig}

/-- What the accept method of a direction delivers. -/
structure AcceptDelivery (config : H3Config) (uni : Bool) (trace : List AdapterLabel)
    (reached : AdapterConfig) : Prop where
  /-- Streams arrive in the order of their announcements, each at most once. -/
  announced : (arrivedStreams uni trace).Sublist (announcedStreams uni trace)
  /-- They come out in the order of their arrival, each at most once. -/
  inOrder : acceptedStreams uni trace <+: arrivedStreams uni trace
  /-- A cause that is no internal failure comes behind all of them. -/
  drained : ∀ earlier call later cause, trace = earlier ++ .finished call :: later →
    call.request = acceptRequest uni → call.result = acceptFailed cause →
    (∀ message, cause ≠ .internal message) → acceptedStreams uni earlier = arrivedStreams uni trace
  /-- A recorded internal failure comes at once, and with every later call. -/
  immediate : ∀ earlier middle later message, trace = earlier ++ later →
    Runs config earlier middle → (adapter config).Runs middle later reached →
    middle.active .accept = none → middle.state.conn.terminal = some (.internal message) →
    ∀ call, .finished call ∈ later → call.request = acceptRequest uni →
      call.result = acceptFailed (.internal message)
  /-- The first error is repeated by every later call. -/
  sticky : ∀ earlier call later error, trace = earlier ++ .finished call :: later →
    call.request = acceptRequest uni → call.result = .pollAccept (.ready (.error error)) →
    ∀ again, .finished again ∈ later → again.request = acceptRequest uni →
      again.result = call.result
  /-- Both methods report the same cause. -/
  agree : ∀ call other cause found, .finished call ∈ trace → .finished other ∈ trace →
    call.request = acceptRequest uni → call.result = acceptFailed cause →
    other.result = acceptFailed found → found = cause
  /-- There is a recorded cause behind every error. -/
  recorded : ∀ call, .finished call ∈ trace → call.request = acceptRequest uni →
    call.result ≠ .pollAccept (.ready (.error .unrecorded))

/-- After a return the accept methods are idle. -/
theorem accept_idle {earlier later : List AdapterLabel} {call : AdapterCall}
    (run : Runs config (earlier ++ .finished call :: later) reached)
    (hRequest : call.request = acceptRequest uni) :
    ∃ after, Runs config (earlier ++ [.finished call]) after ∧
      (adapter config).Runs after later reached ∧ after.active .accept = none := by
  obtain ⟨before, move, after, hBefore, hLast, hLater⟩ := Machine.Runs.pass run
  refine ⟨after, .step hBefore hLast, hLater, ?_⟩
  rcases Machine.step_cases hLast with ⟨_, _, _, _, hKind, _⟩ | ⟨_, _, _, _, _, _, _, hKind, _⟩ |
    ⟨thread, request, events, result, hBusy, hKind, rfl⟩
  · cases hKind
  · cases hKind
  · cases hKind
    have hOwner := ((Machine.Runs.call_events hBefore).1 thread _ hBusy).1
    have hThread : thread = .accept := by
      rw [← hOwner]
      change request.owner = .accept
      rw [show request = acceptRequest uni from hRequest]
      cases uni <;> rfl
    subst hThread
    simp

/-- An early failure is an internal one. -/
theorem internal_of_checked (run : Runs config trace reached) {e : AdapterEvent}
    (he : .event e ∈ trace) {cause : ConnectionTerminal}
    (hNote : acceptNote e.op e.reply = .checked (some cause)) :
    ∃ message, cause = .internal message := by
  obtain ⟨_, _, _, _, _, _, _, _, choice, hEvent⟩ := Machine.Runs.around run he
  obtain ⟨request, op, reply, before, after⟩ := e
  cases op with
  | stream key op => cases hNote
  | conn op =>
      cases op with
      | failFastTerminal =>
          obtain rfl : reply = some cause := AcceptNote.checked.inj hNote
          have hReply : (failFastTerminal before.conn).1 = some cause :=
            (eq_of_heq (Event.mk.inj hEvent).2.2.1).symm
          unfold failFastTerminal at hReply
          split at hReply
          next hInternal =>
            unfold ConnTerminalState.hasInternal at hInternal
            split at hInternal
            next message hTerminal =>
              refine ⟨message, ?_⟩
              rw [ConnTerminalState.observe, hTerminal] at hReply
              exact (Option.some.inj hReply).symm
            · cases hInternal
          · cases hReply
      | _ => cases hNote

/-- An error that was not reported early found the queue closed and drained. -/
theorem over_of_polled (run : Runs config trace reached) {e : AdapterEvent}
    (he : .event e ∈ trace) (hNote : acceptNote e.op e.reply = .polled uni (.ready none)) :
    (acceptQueue uni reached.state).sender = false ∧ (acceptQueue uni reached.state).queue = [] :=
  (acceptLog run).ended (Machine.mem_usesOf.2 ⟨e, he, acceptUse_poll.2 hNote⟩)

/-- An error leaves nothing to deliver but its cause. -/
theorem concluded_of_failed (run : Runs config trace reached) {call : AdapterCall}
    (hCall : .finished call ∈ trace) (hRequest : call.request = acceptRequest uni)
    {cause : ConnectionTerminal} (hResult : call.result = acceptFailed cause) :
    Concluded uni cause reached.state := by
  obtain ⟨hFrozen, hTerminal⟩ :=
    (cause_invariant config run).delivered call cause hCall (by rw [hResult]; rfl)
  have hSteps := accept_steps run hCall hRequest
  have hEvents := (Machine.Runs.call_events run).2 call hCall
  refine ⟨hTerminal, ?_⟩
  rw [hResult] at hSteps
  generalize hNotes : call.events.map (fun e => acceptNote e.op e.reply) = notes at hSteps
  cases hSteps with
  | failed =>
      obtain ⟨e, he, hNote⟩ : ∃ e ∈ call.events, acceptNote e.op e.reply = .checked (some cause) := by
        rw [← List.mem_map, hNotes]
        exact List.mem_singleton_self _
      exact .inl (internal_of_checked run (hEvents e he).2 hNote)
  | ended =>
      obtain ⟨e, he, hNote⟩ :
          ∃ e ∈ call.events, acceptNote e.op e.reply = .polled uni (.ready none) := by
        rw [← List.mem_map, hNotes]
        exact List.mem_cons_of_mem _ List.mem_cons_self
      exact .inr ⟨hFrozen, over_of_polled run (hEvents e he).2 hNote⟩

/-- Where a cause is recorded, the commit finds one. -/
theorem commit_finds {before after : AdapterConfig} {move : AdapterMove} {e : AdapterEvent}
    (hStep : (adapter config).step before move = some (.event e, after))
    (hNote : acceptNote e.op e.reply = .observed none) :
    ¬before.state.conn.terminal.isSome := by
  intro hSome
  rcases Machine.step_cases hStep with ⟨_, _, _, _, hKind, _⟩ |
    ⟨thread, choice, request, events, op, following, hEntry, hKind, -⟩ | ⟨_, _, _, _, _, hKind, _⟩
  · cases hKind
  · cases hKind
    cases op with
    | stream key op => cases hNote
    | conn op =>
        cases op with
        | commitConn =>
            have hReply : (commitConn before.state.conn).1 = none := AcceptNote.observed.inj hNote
            rw [commitConn, ConnTerminalState.terminalIsSome, if_pos hSome] at hReply
            rw [show before.state.conn.terminal = none from hReply] at hSome
            cases hSome
        | _ => cases hNote
  · cases hKind

/-- A queue is never found closed before a cause is recorded. -/
theorem not_unrecorded (run : Runs config trace reached) {call : AdapterCall}
    (hCall : .finished call ∈ trace) (hRequest : call.request = acceptRequest uni) :
    call.result ≠ .pollAccept (.ready (.error .unrecorded)) := by
  intro hResult
  have hSteps := accept_steps run hCall hRequest
  rw [hResult] at hSteps
  generalize hNotes : call.events.map (fun e => acceptNote e.op e.reply) = notes at hSteps
  cases hSteps with
  | unrecorded =>
      obtain ⟨check, rest, hEvents, -, hRest⟩ := List.map_eq_cons_iff.1 hNotes
      obtain ⟨poll, rest, rfl, hPoll, hRest⟩ := List.map_eq_cons_iff.1 hRest
      obtain ⟨commit, rest, rfl, hCommit, hRest⟩ := List.map_eq_cons_iff.1 hRest
      obtain rfl := List.map_eq_nil_iff.1 hRest
      have hSublist := (Machine.Runs.events_sublist run).2 call hCall
      rw [hEvents] at hSublist
      obtain ⟨first, second, rfl, -, hSublist⟩ := List.cons_sublist_iff.1 hSublist
      obtain ⟨third, fourth, rfl, hThird, hSublist⟩ := List.cons_sublist_iff.1 hSublist
      obtain ⟨fifth, sixth, rfl⟩ := List.append_of_mem (List.singleton_sublist.1 hSublist)
      rw [← List.append_assoc, ← List.append_assoc] at run
      -- The poll found the queue closed, so the commit behind it finds a cause.
      obtain ⟨before, move, after, hBefore, hLast, -⟩ := Machine.Runs.pass run
      have hOver := over_of_polled hBefore (List.mem_append_left _ (List.mem_append_right _ hThird))
        hPoll
      exact commit_finds hLast hCommit (recorded_of_closed hBefore hOver.1)

theorem accept_delivery (run : Runs config trace reached) (uni : Bool) :
    AcceptDelivery config uni trace reached where
  announced := arrived_announced run
  inOrder := by
    have hTaken := @taken_arrived config uni _ _ run
    rw [taken_accepted run, List.append_assoc] at hTaken
    have hPrefix := (List.IsPrefix.filterMap (f := id) ⟨_, hTaken⟩)
    simpa [List.filterMap_map] using hPrefix
  drained := by
    rintro earlier call later cause rfl hRequest hResult hCause
    obtain ⟨after, hAfter, hLater, hIdle⟩ := accept_idle run hRequest
    have hConcluded := concluded_of_failed hAfter (by simp) hRequest hResult
    obtain ⟨-, ⟨message, hInternal⟩ | ⟨-, hSender, hQueue⟩⟩ := hConcluded
    · exact absurd hInternal (hCause message)
    · have hTaken := @taken_arrived config uni _ _ hAfter
      rw [taken_accepted hAfter, hQueue, List.append_nil, Machine.inProgress, hIdle,
        List.flatMap_nil, List.append_nil] at hTaken
      have hSame := List.map_injective_iff.2 (Option.some_injective StreamKey) hTaken
      have hLate : arrivedStreams uni later = [] := by
        have hLog := hLater.log (acceptWired config uni)
        have hNone := (hLog.silent hSender hQueue).1
        rw [sent_usesOf, List.map_eq_nil_iff] at hNone
        exact hNone
      have hFailed : acceptedBy uni call = none := by
        cases hAccepted : acceptedBy uni call with
        | none => rfl
        | some key =>
            unfold acceptedBy at hAccepted
            split at hAccepted
            · cases hResult
            · cases hResult
            · cases hAccepted
      calc acceptedStreams uni earlier
          = acceptedStreams uni (earlier ++ [.finished call]) := by
            simp [acceptedStreams, hFailed]
        _ = arrivedStreams uni (earlier ++ [.finished call]) := hSame
        _ = arrivedStreams uni (earlier ++ .finished call :: later) := by
            rw [List.append_cons earlier _ later, arrivedStreams_append _ later, hLate,
              List.append_nil]
  immediate := by
    rintro earlier middle later message rfl hMiddle hLater hIdle hTerminal call hCall hRequest
    exact concluded_sticky hLater ⟨hTerminal, .inl ⟨message, rfl⟩⟩
      (fun thread a h => ((Machine.Runs.call_events hMiddle).1 thread a h).1) hIdle hCall hRequest
  sticky := by
    rintro earlier call later error rfl hRequest hResult again hAgain hAgainRequest
    obtain ⟨after, hAfter, hLater, hIdle⟩ := accept_idle run hRequest
    cases error with
    | unrecorded => exact absurd hResult (not_unrecorded run (by simp) hRequest)
    | recorded cause =>
        have hConcluded := concluded_of_failed hAfter (by simp) hRequest hResult
        rw [hResult]
        exact concluded_sticky hLater hConcluded
          (fun thread a h => ((Machine.Runs.call_events hAfter).1 thread a h).1) hIdle hAgain
          hAgainRequest
  agree := by
    intro call other cause found hCall hOther hRequest hResult hFound
    have hDelivered := (cause_invariant config run).delivered
    have hCause := (hDelivered call cause hCall (by rw [hResult]; rfl)).2
    rw [(hDelivered other found hOther (by rw [hFound]; rfl)).2] at hCause
    exact Option.some.inj hCause
  recorded := fun call hCall hRequest => not_unrecorded run hCall hRequest

/-- One stream in each direction, a peer shutdown and the end of the connection. -/
def twoStreams : List AdapterMove :=
  serveAll [(.connection (.peerStreamStarted (.accepted 0) true), 10),
    (.connection (.peerStreamStarted (.accepted 1) false), 10),
    (.connection (.shutdownInitiatedByPeer 7), 8), (.connection .shutdownComplete, 14),
    (.pollAcceptRecv, 3), (.pollAcceptRecv, 4), (.pollAcceptRecv, 4), (.pollAcceptBidi, 3),
    (.pollAcceptBidi, 4)]

set_option maxRecDepth 2000 in
theorem accept_delivery_twoStreams :
    ∃ trace reached, (adapter .default).run (Machine.initial {}) twoStreams = some (trace, reached) ∧
      (∀ uni, AcceptDelivery .default uni trace reached) ∧
      acceptedStreams true trace = [.accepted 0] ∧ acceptedStreams false trace = [.accepted 1] := by
  have hRun : ((adapter .default).run (Machine.initial {}) twoStreams).any fun out =>
      acceptedStreams true out.1 = [.accepted 0] ∧ acceptedStreams false out.1 = [.accepted 1] := by
    decide
  obtain ⟨⟨trace, reached⟩, hOut, hStreams⟩ := (Option.any_eq_true _ _).1 hRun
  exact ⟨trace, reached, hOut, fun uni => accept_delivery (Machine.runs_of_run hOut) uni,
    of_decide_eq_true hStreams⟩

end Delivery

end MsQuicH3
