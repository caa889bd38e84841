import MsQuicH3.Concurrency.Erase
import MsQuicH3.SendBounded

/-! What one `send_data` hands to native code: its whole payload in one submission, or
nothing at all. A call that was refused or had nothing to send changes no state, so the
rest of a run cannot tell whether it took place. -/
namespace MsQuicH3

open Concurrency

/-- The buffer of an accepted submission on a stream. -/
def placedOn (key : StreamKey) : AdapterEvent → List SendBuffer
  | ⟨_, .stream other (.streamSend _ buffer), .ok (), _, _⟩ => if other = key then [buffer] else []
  | _ => []

/-- The call was accepted as empty, or rejected as oversized or as misuse. -/
def idleSend : AdapterCall → Bool
  | ⟨.send _ (.sendData payload), _, .sendData (.ok ())⟩ => payload.isEmpty
  | ⟨.send _ (.sendData _), _, .sendData (.error (.operation _))⟩ => true
  | _ => false

/-- No native submission, and no change of the shared state. -/
def Inert (events : List AdapterEvent) : Prop :=
  ∀ e ∈ events, e.op.submits = false ∧ e.after = e.before

/-- A payload that one submission can carry. -/
def H3Config.Carries (config : H3Config) (payload : List UInt8) : Prop :=
  payload ≠ [] ∧ payload.length ≤ config.maxSendBytes

/-- The submissions of one `send_data` so far. -/
structure WholePayload (config : H3Config) (key : StreamKey) (payload : List UInt8)
    (events : List AdapterEvent) : Prop where
  whole : ∀ e ∈ events, ∀ other context buffer, e.op = .stream other (.streamSend context buffer) →
    buffer = copyIntoSendBuffer payload ∧ config.Carries payload
  placed : events.flatMap (placedOn key) = [] ∨
    events.flatMap (placedOn key) = [copyIntoSendBuffer payload]

/-- What a `send_data` says by its result. -/
structure SendOutcome (key : StreamKey) (payload : List UInt8) (result : Result)
    (events : List AdapterEvent) : Prop where
  sent : result = .sendData (.ok ()) → payload ≠ [] →
    events.flatMap (placedOn key) = [copyIntoSendBuffer payload]
  idle : idleSend ⟨.send key (.sendData payload), events, result⟩ = true → Inert events

section Reducer

variable {state : SendState} {input : SendInput}

theorem transition_submitSend (h : (transition state input).1 = .submitSend) :
    ∃ len terminal, input = .sendRequested (.nonEmpty len) terminal := by
  revert h
  unfold transition transitionPollReady transitionPollFinish publishInternal
  dsimp only
  repeat' split
  all_goals simp_all

theorem transition_returnSent (h : (transition state input).1 = .returnSent) :
    (∃ terminal, input = .sendRequested .empty terminal ∧ (transition state input).2 = state) ∨
      ∃ terminal, input = .sendSubmitted (.ok ()) terminal := by
  revert h
  unfold transition transitionPollReady transitionPollFinish publishInternal
  dsimp only
  repeat' split
  all_goals simp_all

theorem transition_returnImmediateError {error : SendOperationError}
    (h : (transition state input).1 = .returnImmediateError error) :
    (∃ payload terminal, input = .sendRequested payload terminal) ∧
      (transition state input).2 = state := by
  revert h
  unfold transition transitionPollReady transitionPollFinish publishInternal
  dsimp only
  repeat' split
  all_goals simp_all

end Reducer

section Classification

variable {config : H3Config} {payload : List UInt8}

theorem classifyPayload_empty (h : classifyPayload payload.length config.maxSendBytes = .empty) :
    payload = [] := by
  unfold classifyPayload at h
  split at h
  next hLen => exact List.length_eq_zero_iff.1 (classifySendLen_eq_empty.1 hLen)
  · cases h
  · cases h

theorem classifyPayload_nonEmpty {len : UInt32}
    (h : classifyPayload payload.length config.maxSendBytes = .nonEmpty len) :
    config.Carries payload := by
  unfold classifyPayload at h
  split at h
  · cases h
  · cases h
  next hLen =>
    obtain ⟨hLength, hCeiling⟩ := classifySendLen_eq_nonEmpty.1 hLen
    exact ⟨fun hEmpty => hLength (List.length_eq_zero_iff.2 hEmpty), hCeiling⟩

/-- Within the ceiling the cast of the length loses nothing. -/
theorem H3Config.Carries.length (h : config.Carries payload) :
    (copyIntoSendBuffer payload).length.toNat = payload.length ∧ 0 < payload.length ∧
      payload.length < 2 ^ 32 - 1 := by
  obtain ⟨hNonempty, hCeiling⟩ := h
  have hSend := config.send_lt
  have hSize : UInt32.size = 2 ^ 32 := rfl
  rw [hSize] at hSend
  refine ⟨?_, List.length_pos_of_ne_nil hNonempty, by omega⟩
  have hCast : (copyIntoSendBuffer payload).length = UInt32.ofNat payload.length := rfl
  rw [hCast, UInt32.toNat_ofNat']
  exact Nat.mod_eq_of_lt (by omega)

end Classification

section Points

variable {config : H3Config} {key : StreamKey} {payload : List UInt8}
  {events : List AdapterEvent}

/-- What a `send_data` has submitted when it is at a point of its method. -/
def SendInput.carried (config : H3Config) (key : StreamKey) (payload remaining : List UInt8)
    (events : List AdapterEvent) : SendInput → Prop
  | .sendRequested classified _ => remaining = payload ∧
      classified = classifyPayload payload.length config.maxSendBytes ∧ Inert events
  | .sendSubmitted result _ => config.Carries payload ∧
      (result = .ok () → events.flatMap (placedOn key) = [copyIntoSendBuffer payload])
  | _ => True

def SendPoint.carried (config : H3Config) (key : StreamKey) (payload : List UInt8)
    (events : List AdapterEvent) : SendPoint → Prop
  | .load (.request requested) | .peek (.request requested) _ => requested = payload ∧ Inert events
  | .load (.sendSubmitted result) | .peek (.sendSubmitted result) _ => config.Carries payload ∧
      (result = .ok () → events.flatMap (placedOn key) = [copyIntoSendBuffer payload])
  | .again round | .feed round => round.input.carried config key payload round.remaining events
  | .box buffer | .submit _ buffer => buffer = copyIntoSendBuffer payload ∧
      config.Carries payload ∧ events.flatMap (placedOn key) = []
  | .reclaim _ _ => config.Carries payload
  | .exit result => SendOutcome key payload result events
  | .submitGraceful | .submitReset _ => False
  | _ => True

theorem Inert.snoc (h : Inert events) {e : AdapterEvent} (hSubmits : e.op.submits = false)
    (hSame : e.after = e.before) : Inert (events ++ [e]) := by
  intro other hOther
  rcases List.mem_append.1 hOther with hOld | hNew
  · exact h other hOld
  · rw [List.mem_singleton.1 hNew]
    exact ⟨hSubmits, hSame⟩

theorem placedOn_of_not_submits {e : AdapterEvent} (h : e.op.submits = false) :
    placedOn key e = [] := by
  unfold placedOn
  split
  · cases h
  · rfl

theorem Inert.placed (h : Inert events) : events.flatMap (placedOn key) = [] :=
  List.flatMap_eq_nil_iff.2 fun e he => placedOn_of_not_submits (h e he).1

theorem placed_snoc (e : AdapterEvent) :
    (events ++ [e]).flatMap (placedOn key) = events.flatMap (placedOn key) ++ placedOn key e := by
  rw [List.flatMap_append, List.flatMap_singleton]

theorem WholePayload.quiet (h : WholePayload config key payload events) {e : AdapterEvent}
    (hSubmits : e.op.submits = false) : WholePayload config key payload (events ++ [e]) := by
  refine ⟨fun other hOther => ?_, ?_⟩
  · rcases List.mem_append.1 hOther with hOld | hNew
    · exact h.whole other hOld
    · intro key context buffer hOp
      rw [List.mem_singleton.1 hNew] at hOp
      rw [hOp] at hSubmits
      cases hSubmits
  · rw [placed_snoc, placedOn_of_not_submits hSubmits, List.append_nil]
    exact h.placed

/-- A method fails with a winner: no result that says what was submitted. -/
theorem outcome_failure (winner : SendTerminal) :
    SendOutcome key payload ((SendCall.sendData payload).failure winner) events := by
  constructor
  · intro h
    cases h
  · intro h
    cases h

theorem carried_returning (winner : SendTerminal) :
    ((SendCall.sendData payload).returning winner).carried config key payload events := by
  cases winner with
  | connection fallback => trivial
  | _ => exact outcome_failure _

theorem carried_resolved {terminal : Option SendTerminal} {purpose : Purpose}
    (h : (SendPoint.load purpose).carried config key payload events) :
    ((SendCall.sendData payload).resolved config terminal purpose).carried config key payload
      events := by
  cases purpose with
  | guard =>
      cases terminal with
      | none => exact outcome_failure _
      | some winner => exact carried_returning winner
  | request requested =>
      obtain ⟨rfl, hInert⟩ := h
      exact ⟨rfl, rfl, hInert⟩
  | sendSubmitted result => exact h
  | _ => trivial

/-- The reducer lets a payload through, reports it or refuses it. -/
theorem carried_feed {state : State} {round : SendRound} {choice : Choice}
    (h : (SendPoint.feed round).carried config key payload events) {e : AdapterEvent}
    (he : e = (adapter config).event choice (.send key (.sendData payload))
      (.stream key (.transition round.input)) state) :
    ((SendCall.sendData payload).obey round.remaining
      (transition (state.reducer key) round.input).1).carried config key payload
        (events ++ [e]) := by
  have hSubmits : e.op.submits = false := by
    rw [he]
    rfl
  have hStill : (transition (state.reducer key) round.input).2 = state.reducer key →
      e.after = e.before := by
    intro hState
    rw [he]
    change state.setStream key { state.stream key with
      reducer := (transition (state.reducer key) round.input).2 } = state
    rw [hState]
    exact congrArg _ (Function.update_eq_self key state.stream)
  have hPlaced : (events ++ [e]).flatMap (placedOn key) = events.flatMap (placedOn key) := by
    rw [placed_snoc, placedOn_of_not_submits hSubmits, List.append_nil]
  obtain ⟨input, remaining⟩ := round
  cases hCommand : (transition (state.reducer key) input).1 with
  | submitSend =>
      obtain ⟨len, terminal, rfl⟩ := transition_submitSend hCommand
      obtain ⟨rfl, hClassified, hInert⟩ := h
      refine ⟨rfl, classifyPayload_nonEmpty hClassified.symm, ?_⟩
      rw [hPlaced]
      exact hInert.placed
  | returnSent =>
      rcases transition_returnSent hCommand with ⟨terminal, rfl, hState⟩ | ⟨terminal, rfl⟩
      · obtain ⟨rfl, hClassified, hInert⟩ := h
        have hEmpty := classifyPayload_empty hClassified.symm
        exact ⟨fun _ hNonempty => absurd hEmpty hNonempty,
          fun _ => hInert.snoc hSubmits (hStill hState)⟩
      · obtain ⟨hCarries, hSent⟩ := h
        constructor
        · intro _ _
          rw [hPlaced]
          exact hSent rfl
        · intro hIdle
          exact absurd (List.isEmpty_iff.1 hIdle) hCarries.1
  | returnImmediateError error =>
      obtain ⟨⟨classified, terminal, rfl⟩, hState⟩ := transition_returnImmediateError hCommand
      obtain ⟨rfl, hClassified, hInert⟩ := h
      constructor
      · intro hOk
        cases hOk
      · intro _
        exact hInert.snoc hSubmits (hStill hState)
  | returnError winner => exact carried_returning winner
  | publishTerminal candidate continuation => trivial
  | _ => exact outcome_failure _

/-- A look at a slot changes nothing. -/
theorem carried_look {purpose : Purpose} {e : AdapterEvent}
    (h : (SendPoint.load purpose).carried config key payload events)
    (hSubmits : e.op.submits = false) (hSame : e.after = e.before) :
    (SendPoint.load purpose).carried config key payload (events ++ [e]) := by
  cases purpose with
  | request requested => exact ⟨h.1, h.2.snoc hSubmits hSame⟩
  | sendSubmitted result =>
      refine ⟨h.1, fun hOk => ?_⟩
      rw [placed_snoc, placedOn_of_not_submits hSubmits, List.append_nil]
      exact h.2 hOk
  | _ => trivial

theorem carried_peek (purpose : Purpose) (slot : Option SendTerminal) :
    (SendPoint.peek purpose slot).carried config key payload events ↔
      (SendPoint.load purpose).carried config key payload events := by
  cases purpose <;> rfl

/-- The one submission of the call, whether it is accepted or not. -/
theorem WholePayload.submit (h : WholePayload config key payload events)
    (hCarries : config.Carries payload) (hPlaced : events.flatMap (placedOn key) = [])
    {e : AdapterEvent} {context : BufferId}
    (hOp : e.op = .stream key (.streamSend context (copyIntoSendBuffer payload))) :
    WholePayload config key payload (events ++ [e]) := by
  refine ⟨fun other hOther => ?_, ?_⟩
  · rcases List.mem_append.1 hOther with hOld | hNew
    · exact h.whole other hOld
    · intro otherKey otherContext buffer hOtherOp
      rw [List.mem_singleton.1 hNew, hOp] at hOtherOp
      cases hOtherOp
      exact ⟨rfl, hCarries⟩
  · rw [placed_snoc, hPlaced, List.nil_append]
    unfold placedOn
    split
    · cases hOp
      exact .inr (if_pos rfl)
    · exact .inl rfl

/-- One operation of the call, from its point to the next. -/
theorem carried_step {point : SendPoint} {op : Op} {target : op.Reply → SendPoint} {state : State}
    (hNode : (SendCall.sendData payload).node config key point = .inl ⟨op, target⟩)
    (h : point.carried config key payload events)
    (hWhole : WholePayload config key payload events) (choice : Choice) :
    (target (op.perform config choice state).1).carried config key payload
      (events ++ [(adapter config).event choice (.send key (.sendData payload)) op state]) ∧
    WholePayload config key payload
      (events ++ [(adapter config).event choice (.send key (.sendData payload)) op state]) := by
  cases point with
  | guard =>
      cases hNode
      refine ⟨?_, hWhole.quiet rfl⟩
      dsimp only
      split <;> trivial
  | poll =>
      cases hNode
      exact ⟨trivial, hWhole.quiet rfl⟩
  | load purpose =>
      cases hNode
      have hStill : state.setStream key (state.stream key) = state :=
        congrArg _ (Function.update_eq_self key state.stream)
      have hLook := carried_look h (e := (adapter config).event choice
        (.send key (.sendData payload)) (.stream key .loadWinner) state) rfl hStill
      refine ⟨?_, hWhole.quiet rfl⟩
      dsimp only
      split
      · exact carried_resolved hLook
      · exact (carried_peek purpose _).2 hLook
  | peek purpose slot =>
      cases hNode
      have hLook := carried_look ((carried_peek purpose slot).1 h) (e := (adapter config).event choice
        (.send key (.sendData payload)) (.conn .peekConnTerminal) state) rfl rfl
      exact ⟨carried_resolved hLook, hWhole.quiet rfl⟩
  | again round => cases hNode
  | feed round =>
      cases hNode
      exact ⟨carried_feed h rfl, hWhole.quiet rfl⟩
  | publish candidate continuation remaining =>
      cases hNode
      exact ⟨trivial, hWhole.quiet rfl⟩
  | box buffer =>
      cases hNode
      obtain ⟨hBuffer, hCarries, hPlaced⟩ := h
      refine ⟨⟨hBuffer, hCarries, ?_⟩, hWhole.quiet rfl⟩
      rw [placed_snoc, hPlaced]
      rfl
  | submit context buffer =>
      cases hNode
      obtain ⟨rfl, hCarries, hPlaced⟩ := h
      refine ⟨?_, hWhole.submit hCarries hPlaced rfl⟩
      cases hResult : choice.result with
      | ok value =>
          simp only [Op.perform, StreamOp.perform, hResult]
          refine ⟨hCarries, fun _ => ?_⟩
          rw [placed_snoc, hPlaced, List.nil_append]
          simp [placedOn, Machine.event, adapter_perform, Op.perform, StreamOp.perform, hResult]
      | error status =>
          simp only [Op.perform, StreamOp.perform, hResult]
          exact hCarries
  | reclaim context status =>
      cases hNode
      refine ⟨⟨h, fun hOk => ?_⟩, hWhole.quiet rfl⟩
      cases hOk
  | submitGraceful => exact h.elim
  | submitReset code => exact h.elim
  | commit fallback =>
      cases hNode
      exact ⟨outcome_failure _, hWhole.quiet rfl⟩
  | dropHalf =>
      cases hNode
      refine ⟨⟨fun hOk => ?_, fun hIdle => ?_⟩, hWhole.quiet rfl⟩
      · cases hOk
      · cases hIdle
  | exit result => cases hNode

end Points

section Runs

variable (config : H3Config) (key : StreamKey)

/-- The calls of `send_data` on one stream, point by point. -/
def payloadTranscript : (adapter config).Transcript :=
  (adapter config).chartTranscript (fun request => ∃ payload, request = .send key (.sendData payload))
    (SendOutline.chartOf config key)
    (fun request point events => ∃ payload, request = .send key (.sendData payload) ∧
      point.carried config key payload events ∧ WholePayload config key payload events)
    (by
      rintro _ ⟨payload, rfl⟩
      refine ⟨_, describes_entry config key (.sendData payload), payload, rfl, ⟨rfl, ?_⟩, ?_, .inl rfl⟩
      · intro e he
        cases he
      · intro e he
        cases he)
    (by
      rintro _ point events op target ⟨payload, rfl⟩ hNode ⟨_, hRequest, hAt, hWhole⟩ choice state
      cases hRequest
      exact ⟨payload, rfl, carried_step hNode hAt hWhole choice⟩)
    (by
      rintro _ point events loop ⟨payload, rfl⟩ hNode ⟨_, hRequest, hAt, hWhole⟩
      cases hRequest
      have hBody := describes_body config key (.sendData payload) (fun h => by cases h) loop
      cases point <;> cases hNode
      exact ⟨_, hBody, payload, rfl, hAt, hWhole⟩)

variable {config key} {trace : List AdapterLabel} {reached : AdapterConfig}

theorem wholePayload_of_finished (run : Runs config trace reached) {payload : List UInt8}
    {events : List AdapterEvent} {result : Result}
    (h : .finished ⟨.send key (.sendData payload), events, result⟩ ∈ trace) :
    SendOutcome key payload result events ∧ WholePayload config key payload events := by
  obtain ⟨point, hNode, _, hRequest, hAt, hWhole⟩ :=
    ((payloadTranscript config key).sound run).2 _ h ⟨payload, rfl⟩
  cases hRequest
  cases point <;> cases hNode
  exact ⟨hAt, hWhole⟩

/-- A payload submission is one of a `send_data` on its stream. -/
theorem sendData_of_permits {request : Request} {context : BufferId} {buffer : SendBuffer}
    (h : permits request (.stream key (.streamSend context buffer))) :
    ∃ payload, request = .send key (.sendData payload) := by
  obtain ⟨call, rfl⟩ := owner_eq_sendHalf (sendHalf_of_permits h rfl)
  have hIssues := h.2
  cases call with
  | sendData payload => exact ⟨payload, rfl⟩
  | _ => cases hIssues

theorem streamSend_carries (run : Runs config trace reached) {e : AdapterEvent}
    (he : .event e ∈ trace) {context : BufferId} {buffer : SendBuffer}
    (hOp : e.op = .stream key (.streamSend context buffer)) :
    ∃ payload, e.request = .send key (.sendData payload) ∧ buffer = copyIntoSendBuffer payload ∧
      config.Carries payload := by
  have hPermits := run.permitted (uses_entry config) uses_body he
  rw [hOp] at hPermits
  obtain ⟨payload, hRequest⟩ := sendData_of_permits hPermits
  refine ⟨payload, hRequest, ?_⟩
  obtain ⟨hActive, hFinished⟩ := run.call_events
  rcases run.event_cases he with ⟨call, hCall, hMem⟩ | ⟨thread, a, hEntry, hMem⟩
  · have hSame := (hFinished call hCall e hMem).1
    obtain ⟨request, events, result⟩ := call
    have hHere : request = .send key (.sendData payload) := hSame.symm.trans hRequest
    subst hHere
    exact (wholePayload_of_finished run hCall).2.whole e hMem key context buffer hOp
  · have hSame := ((hActive thread a hEntry).2 e hMem).1
    obtain ⟨request, events, rest⟩ := a
    have hHere : request = .send key (.sendData payload) := hSame.symm.trans hRequest
    subst hHere
    obtain ⟨point, -, _, hCall, -, hWhole⟩ :=
      (((payloadTranscript config key).sound run).1 thread _ hEntry).2 ⟨payload, rfl⟩
    cases hCall
    exact hWhole.whole e hMem key context buffer hOp

/-- What the send half of a stream hands to native code in a run. -/
structure SubmitsWhole (config : H3Config) (trace : List AdapterLabel) (reached : AdapterConfig) :
    Prop where
  /-- Every submission carries all of its call's payload, with the length it has. -/
  whole : ∀ e key context buffer, .event e ∈ trace →
    e.op = .stream key (.streamSend context buffer) →
    ∃ payload, e.request = .send key (.sendData payload) ∧ buffer.bytes = payload ∧
      buffer.length.toNat = payload.length ∧ 1 ≤ payload.length ∧
      payload.length ≤ config.maxSendBytes ∧ payload.length < 2 ^ 32 - 1
  sent : ∀ key payload events,
    .finished ⟨.send key (.sendData payload), events, .sendData (.ok ())⟩ ∈ trace →
    payload ≠ [] → events.flatMap (placedOn key) = [copyIntoSendBuffer payload]
  atMost : ∀ key payload events result,
    .finished ⟨.send key (.sendData payload), events, result⟩ ∈ trace →
    events.flatMap (placedOn key) = [] ∨ events.flatMap (placedOn key) = [copyIntoSendBuffer payload]
  ordered : ∀ key, trace.flatMap (Machine.noted (placedOn key)) =
    ((adapter config).callsOf (.sendHalf key) trace).flatMap
      (fun call => call.events.flatMap (placedOn key)) ++
      (Machine.inProgress (.sendHalf key) reached).flatMap (placedOn key)
  idle : ∀ call, .finished call ∈ trace → idleSend call = true → Inert call.events

theorem placedOn_foreign {e : AdapterEvent} (hPermits : permits e.request e.op)
    (h : e.request.owner ≠ .sendHalf key) : placedOn key e = [] := by
  unfold placedOn
  split
  next other context buffer _ _ =>
    by_cases hOther : other = key
    · subst hOther
      exact absurd (sendHalf_of_permits hPermits rfl) h
    · exact if_neg hOther
  · rfl

theorem submitsWhole (run : Runs config trace reached) : SubmitsWhole config trace reached where
  whole e key context buffer he hOp := by
    obtain ⟨payload, hRequest, rfl, hCarries⟩ := streamSend_carries run he hOp
    obtain ⟨hLength, hPositive, hBelow⟩ := hCarries.length
    exact ⟨payload, hRequest, rfl, hLength, hPositive, hCarries.2, hBelow⟩
  sent key payload events hCall := (wholePayload_of_finished run hCall).1.sent rfl
  atMost key payload events result hCall := (wholePayload_of_finished run hCall).2.placed
  ordered key := by
    apply run.notes_by_call
    intro e he hOwner
    exact placedOn_foreign (run.permitted (uses_entry config) uses_body he) hOwner
  idle call hCall hIdle := by
    obtain ⟨request, events, result⟩ := call
    unfold idleSend at hIdle
    split at hIdle
    · rename_i hCallEq
      cases hCallEq
      exact (wholePayload_of_finished run hCall).1.idle hIdle
    · rename_i hCallEq
      cases hCallEq
      exact (wholePayload_of_finished run hCall).1.idle rfl
    · cases hIdle

theorem deliver_idle (call : AdapterCall) (s s' : State) (hIdle : idleSend call = true)
    (h : deliver call.request s = some s') : s' = s := by
  obtain ⟨request, events, result⟩ := call
  unfold idleSend at hIdle
  split at hIdle
  · rename_i hCall
    cases hCall
    exact SendOutline.deliver_send _ h
  · rename_i hCall
    cases hCall
    exact SendOutline.deliver_send _ h
  · cases hIdle

end Runs

/-- Every submission carries the whole payload of its call within the ceiling, a call that
returns `Ok` has made the one of its payload, and calls that submit nothing are not to be
told from calls that never took place. -/
theorem whole_payload_sent (config : H3Config) :
    (∀ trace reached, Runs config trace reached → SubmitsWhole config trace reached) ∧
    ∀ first second trace trace' reached reached',
      (adapter config).run (Machine.initial {}) first = some (trace, reached) →
      (adapter config).run (Machine.initial {}) second = some (trace', reached') →
      ((adapter config).audible idleSend (first.zip trace)).map Prod.fst =
        ((adapter config).audible idleSend (second.zip trace')).map Prod.fst →
      ((adapter config).audible idleSend (first.zip trace)).map Prod.snd =
        ((adapter config).audible idleSend (second.zip trace')).map Prod.snd ∧
      reached = reached' := by
  refine ⟨fun trace reached run => submitsWhole run, ?_⟩
  intro first second trace trace' reached reached' hFirst hSecond hSame
  apply Machine.audible_agree hFirst hSecond deliver_idle _ _ hSame
  · intro call hCall hIdle e he
    exact ((submitsWhole (Machine.runs_of_run hFirst)).idle call hCall hIdle e he).2
  · intro call hCall hIdle e he
    exact ((submitsWhole (Machine.runs_of_run hSecond)).idle call hCall hIdle e he).2

/-- A configuration whose submissions carry at most two bytes. -/
def twoBytes : H3Config where
  maxSendBytes := 2
  maxRecvBytes := 1
  maxRecvUnits := 1
  send_pos := Nat.two_pos
  send_lt := by decide
  recvBytes_pos := Nat.one_pos
  recvUnits_pos := Nat.one_pos

/-- One send with its completion, and the same with an empty, a premature and an oversized
call around it. -/
theorem whole_payload_sent_twoBytes :
    ∃ trace trace' reached reached',
      (adapter twoBytes).run (Machine.initial {}) (serveAll
        [(.send (.opened 0) (.sendData [1, 2]), 9),
          (.stream (.opened 0) (.sendComplete false (some 0)), 7),
          (.send (.opened 0) .pollReady, 6)]) = some (trace, reached) ∧
      (adapter twoBytes).run (Machine.initial {}) (serveAll
        [(.send (.opened 0) (.sendData []), 4), (.send (.opened 0) (.sendData [1, 2]), 9),
          (.send (.opened 0) (.sendData [3]), 4),
          (.stream (.opened 0) (.sendComplete false (some 0)), 7),
          (.send (.opened 0) .pollReady, 6),
          (.send (.opened 0) (.sendData [4, 5, 6]), 4)]) = some (trace', reached') ∧
      SubmitsWhole twoBytes trace' reached' ∧ trace'.length = trace.length + 15 ∧
      reached = reached' := by
  have hFirst : ((adapter twoBytes).run (Machine.initial {}) (serveAll
      [(.send (.opened 0) (.sendData [1, 2]), 9),
        (.stream (.opened 0) (.sendComplete false (some 0)), 7),
        (.send (.opened 0) .pollReady, 6)])).isSome := by decide
  have hSecond : ((adapter twoBytes).run (Machine.initial {}) (serveAll
      [(.send (.opened 0) (.sendData []), 4), (.send (.opened 0) (.sendData [1, 2]), 9),
        (.send (.opened 0) (.sendData [3]), 4),
        (.stream (.opened 0) (.sendComplete false (some 0)), 7),
        (.send (.opened 0) .pollReady, 6),
        (.send (.opened 0) (.sendData [4, 5, 6]), 4)])).isSome := by decide
  refine ⟨_, _, _, _, (Option.some_get hFirst).symm, (Option.some_get hSecond).symm,
    (whole_payload_sent twoBytes).1 _ _ (Machine.runs_get hSecond), rfl, ?_⟩
  exact ((whole_payload_sent twoBytes).2 _ _ _ _ _ _ (Option.some_get hFirst).symm
    (Option.some_get hSecond).symm (by decide)).2

end MsQuicH3
