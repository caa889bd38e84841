import MsQuicH3.CauseOutline
import MsQuicH3.SendOutline

/-! The winner a send half reports. A connection cause may be reported while the
send slot is still open; a reason of the stream that takes the slot afterwards is
reported from then on. In every other run the first reported winner stays. -/
namespace MsQuicH3

open Concurrency

/-- The winner of a terminal error. Oversized payloads and misuse are no terminals. -/
def Result.sendWinner : Result → Option SendTerminal
  | .pollSend (.ready (.error (.winner winner))) | .sendData (.error (.winner winner)) =>
      if winner = .internal "poll_ready after finish" then none else some winner
  | _ => none

def returnedWinner (key : StreamKey) : AdapterLabel → Option SendTerminal
  | .finished ⟨.send other _, _, result⟩ => if other = key then result.sendWinner else none
  | _ => none

/-- The winners one send half has reported, in order. -/
def sendWinners (key : StreamKey) (trace : List AdapterLabel) : List SendTerminal :=
  trace.filterMap (returnedWinner key)

/-- An authoritative reason other than the end of the connection. -/
def SendTerminal.ofStream : SendTerminal → Bool
  | .connection _ | .provisionalAbort => false
  | _ => true

/-- A call of the send half takes the connection cause for its return. -/
def takesConnection (key : StreamKey) : AdapterLabel → Bool
  | .event ⟨.send other _, .conn .commitConn, _, _, _⟩ => other = key
  | _ => false

/-- A reason of the stream takes the send slot. -/
def takesSlot (key : StreamKey) : AdapterLabel → Bool
  | .event ⟨_, .stream target (.publishSend candidate), _, before, _⟩ =>
      target = key && candidate.ofStream && (definitive (before.slot key)).isNone
  | _ => false

/-- A `poll_ready` after the start of a finish loads the marker of a lost send. -/
def loadsMarker (key : StreamKey) : AdapterLabel → Bool
  | .event ⟨.send other .pollReady, .stream target .loadWinner, _, before, _⟩ =>
      other = key && target = key && (before.reducer key).finishStarted &&
        before.slot key = some .provisionalAbort
  | _ => false

/-- A call of the send half finds no connection cause. -/
def findsNoCause (key : StreamKey) : AdapterLabel → Bool
  | .event ⟨.send other _, .conn .peekConnTerminal, _, before, _⟩ =>
      other = key && before.conn.terminal.isNone
  | _ => false

/-- No `poll_ready` after the start of a finish finds nothing but the marker. -/
def NoMarkerRead (key : StreamKey) (trace : List AdapterLabel) : Prop :=
  ∀ load peek, [load, peek] <:+: ownTrace key trace → loadsMarker key load = true →
    findsNoCause key peek = false

section Labels

variable {key : StreamKey} {trace : List AdapterLabel} {label : AdapterLabel}

theorem returnedWinner_owner {winner : SendTerminal} (h : returnedWinner key label = some winner) :
    label.request.owner = .sendHalf key := by
  unfold returnedWinner at h
  split at h
  · split at h
    next hKey =>
      subst hKey
      rfl
    · cases h
  · cases h

theorem sendWinners_snoc (trace : List AdapterLabel) (label : AdapterLabel) :
    sendWinners key (trace ++ [label]) =
      sendWinners key trace ++ (returnedWinner key label).toList := by
  unfold sendWinners
  rw [List.filterMap_append]
  cases h : returnedWinner key label <;> simp [h]

theorem sendWinners_snoc_of_ne (h : label.request.owner ≠ .sendHalf key) :
    sendWinners key (trace ++ [label]) = sendWinners key trace := by
  rw [sendWinners_snoc]
  cases hWinner : returnedWinner key label with
  | none => simp
  | some winner => exact absurd (returnedWinner_owner hWinner) h

end Labels

section Slot

theorem SlotLe.ofStream {slot later : Option SendTerminal} {winner : SendTerminal}
    (h : SlotLe slot later) (hSlot : slot = some winner) (hWinner : winner.ofStream = true) :
    later = some winner := by
  have hDefinitive : definitive slot = some winner := by
    rw [hSlot]
    cases winner <;> first | rfl | cases hWinner
  rw [h.winner winner hDefinitive, hSlot]

variable {config : H3Config} {key : StreamKey} {choice : Choice} {request : Request} {op : Op}
  {w : AdapterWorld}

/-- A reason of the stream gets into the slot by taking it. -/
theorem takesSlot_of_ofStream {winner : SendTerminal} (hWinner : winner.ofStream = true)
    (h : ((adapter config).advance choice request op w).state.slot key = some winner) :
    w.state.slot key = some winner ∨
      takesSlot key (.event ((adapter config).event choice request op w.state)) = true := by
  rw [Machine.advance_state, adapter_perform] at h
  cases op with
  | conn op => exact .inl (by simpa [State.slot] using h)
  | stream other op =>
      by_cases hKey : key = other
      · subst hKey
        simp only [State.slot, Op.perform_stream_self, StreamOp.perform_sendTerminal] at h
        split at h
        next candidate =>
          rw [publishSend_slot] at h
          rcases publishSend_cases (w.state.slot key) candidate with ⟨hCandidate, hOpen⟩ | hSlot
          · right
            have hEq : candidate = winner := hCandidate.symm.trans (Option.some.inj h)
            simp [takesSlot, Machine.event, hEq, hWinner, hOpen]
          · exact .inl (hSlot.trans h)
        · exact .inl h
      · exact .inl (by simpa only [State.slot, Op.perform_stream_of_ne _ _ _ _ hKey] using h)

end Slot

/-- A reason of the stream that a call has in hand is the one in the slot. -/
def Sourced (key : StreamKey) (terminal : Option SendTerminal) (w : AdapterWorld) : Prop :=
  ∀ winner, terminal = some winner → winner.ofStream = true → w.state.slot key = some winner

/-- Where a reported winner comes from. -/
def Reported (key : StreamKey) (winner : SendTerminal) (w : AdapterWorld) : Prop :=
  ((∃ cause, winner = .connection cause) ∧ ∃ label ∈ w.trace, takesConnection key label = true) ∨
    (winner.ofStream = true ∧ w.state.slot key = some winner)

/-- The assertion at each point of a send method. -/
def winnerAt (key : StreamKey) : SendPoint → AdapterWorld → Prop
  | .peek purpose slot, w => decides slot = false ∧
      (purpose = .guard → slot = some .provisionalAbort →
        ∃ earlier load, ownTrace key w.trace = earlier ++ [load] ∧ loadsMarker key load = true)
  | .again round, w | .feed round, w => Sourced key round.input.terminal w
  | .exit result, w => ∀ winner, result.sendWinner = some winner →
      ((∃ cause, winner = .connection cause) ∧
        ∃ label ∈ ownTrace key w.trace, takesConnection key label = true) ∨
      (winner.ofStream = true ∧ w.state.slot key = some winner)
  | _, _ => True

section Points

variable {config : H3Config} {key : StreamKey} {call : SendCall} {w w' : AdapterWorld}

theorem Sourced.rely {terminal : Option SendTerminal} (h : Sourced key terminal w)
    (hRely : SendRely key w w') : Sourced key terminal w' :=
  fun winner hTerminal hWinner => hRely.slot.ofStream (h winner hTerminal hWinner) hWinner

theorem winnerAt_rely {point : SendPoint} (h : winnerAt key point w) (hRely : SendRely key w w') :
    winnerAt key point w' := by
  cases point with
  | peek purpose slot =>
      simp only [winnerAt, hRely.own]
      exact h
  | again round => exact Sourced.rely h hRely
  | feed round => exact Sourced.rely h hRely
  | exit result =>
      intro winner hWinner
      rw [hRely.own]
      rcases h winner hWinner with hTaken | ⟨hStream, hSlot⟩
      · exact .inl hTaken
      · exact .inr ⟨hStream, hRely.slot.ofStream hSlot hStream⟩
  | _ => trivial

theorem failure_sendWinner {winner reported : SendTerminal}
    (h : (call.failure winner).sendWinner = some reported) : reported = winner := by
  cases call <;> simp only [SendCall.failure, Result.sendWinner] at h <;> first
    | cases h
    | (split at h
       · cases h
       · exact (Option.some.inj h).symm)

theorem misuse_sendWinner : (call.failure (.internal "poll_ready after finish")).sendWinner = none := by
  cases call <;> rfl

theorem winnerAt_returning {winner : SendTerminal} (h : Sourced key (some winner) w)
    (hMarker : winner.isProvisional = false) : winnerAt key (call.returning winner) w := by
  have hExit : winner.ofStream = true → winnerAt key (.exit (call.failure winner)) w := by
    intro hStream reported hReported
    rw [failure_sendWinner hReported]
    exact .inr ⟨hStream, h winner rfl hStream⟩
  cases winner with
  | connection cause => trivial
  | provisionalAbort => cases hMarker
  | _ => exact hExit rfl

theorem winnerAt_resolved {terminal : Option SendTerminal} {purpose : Purpose}
    (h : Sourced key terminal w)
    (hMarker : purpose = .guard → terminal ≠ some .provisionalAbort) :
    winnerAt key (call.resolved config terminal purpose) w := by
  cases purpose with
  | guard =>
      cases terminal with
      | none =>
          intro winner hWinner
          rw [misuse_sendWinner] at hWinner
          cases hWinner
      | some winner =>
          apply winnerAt_returning h
          cases winner <;> first | rfl | exact absurd rfl (hMarker rfl)
  | poll poll => cases call <;> exact h
  | _ => exact h

theorem winnerAt_obey {round : SendRound} {state : SendState}
    (h : Sourced key round.input.terminal w) (hBook : round.input.book call state) :
    winnerAt key (call.obey round.remaining (transition state round.input).1) w := by
  have hExpected := expects_transition hBook
  cases hCommand : (transition state round.input).1 with
  | returnError winner =>
      rw [hCommand] at hExpected
      have hReturning : winnerAt key (call.returning winner) w := by
        rcases transition_returnError hCommand with rfl | hInput
        · intro reported hReported
          rw [misuse_sendWinner] at hReported
          cases hReported
        · obtain ⟨hTerminal, hWinner⟩ := definitive_eq_some.1 hInput
          rw [hTerminal] at h
          exact winnerAt_returning h hWinner
      cases call <;> first | exact hReturning | cases hExpected
  | _ =>
      rw [hCommand] at hExpected
      cases call <;> first
        | exact absurd hExpected Bool.false_ne_true
        | trivial
        | (intro winner hWinner; cases hWinner)

theorem resolveWith_ofStream {slot : Option SendTerminal} {reason : Option ConnectionTerminal}
    {winner : SendTerminal} (hSlot : decides slot = false)
    (h : resolveWith slot reason = some winner) : winner.ofStream = false := by
  cases slot with
  | none =>
      cases reason <;> cases h
      rfl
  | some existing => cases existing <;> cases hSlot <;> cases reason <;> cases h <;> rfl

theorem resolveWith_marker {slot : Option SendTerminal} {reason : Option ConnectionTerminal}
    (h : resolveWith slot reason = some .provisionalAbort) :
    slot = some .provisionalAbort ∧ reason = none := by
  cases slot with
  | none => cases reason <;> cases h
  | some existing =>
      cases existing <;> cases reason <;> cases h
      exact ⟨rfl, rfl⟩

/-- A step of the half's own code. -/
theorem winner_step {point : SendPoint} {op : Op} {target : op.Reply → SendPoint}
    (hAt : winnerAt key point w) (hNode : call.node config key point = .inl ⟨op, target⟩)
    (hBook : point.book call (w.state.reducer key)) (choice : Choice)
    (hCond : NoMarkerRead key ((adapter config).advance choice (.send key call) op w).trace) :
    winnerAt key (target (op.perform config choice w.state).1)
      ((adapter config).advance choice (.send key call) op w) := by
  have hSlot : ∀ op, SlotLe (w.state.slot key)
      (((adapter config).advance choice (.send key call) op w).state.slot key) :=
    fun op => advance_slot_le op w choice _
  have hKeep : ∀ {terminal : Option SendTerminal} {op : Op}, Sourced key terminal w →
      Sourced key terminal ((adapter config).advance choice (.send key call) op w) :=
    fun h winner hTerminal hWinner => (hSlot _).ofStream (h winner hTerminal hWinner) hWinner
  have hOwn : ∀ op : Op, ownTrace key
      ((adapter config).advance choice (.send key call) op w).trace = ownTrace key w.trace ++
        [.event ((adapter config).event choice (.send key call) op w.state)] :=
    fun op => ownTrace_snoc rfl
  cases point with
  | load purpose =>
      cases hNode
      have hSourced : Sourced key (w.state.slot key)
          ((adapter config).advance choice (.send key call) (.stream key .loadWinner) w) :=
        fun winner hWinner hStream => (hSlot _).ofStream hWinner hStream
      change winnerAt key (if decides (w.state.slot key) then
        call.resolved config (w.state.slot key) purpose else .peek purpose (w.state.slot key)) _
      split
      next hDecides =>
        apply winnerAt_resolved hSourced
        intro _ hMarker
        rw [hMarker] at hDecides
        cases hDecides
      next hOpen =>
        refine ⟨by simpa using hOpen, ?_⟩
        rintro rfl hMarker
        obtain ⟨rfl, -, hStarted⟩ := hBook
        refine ⟨_, _, hOwn _, ?_⟩
        simp [loadsMarker, Machine.event, hStarted, hMarker]
  | peek purpose slot =>
      cases hNode
      obtain ⟨hOpen, hLoaded⟩ := hAt
      apply winnerAt_resolved
      · intro winner hWinner hStream
        rw [resolveWith_ofStream hOpen hWinner] at hStream
        cases hStream
      · intro hGuard hMarker
        obtain ⟨hSlot, hReason⟩ := resolveWith_marker hMarker
        obtain ⟨earlier, load, hTrace, hLoads⟩ := hLoaded hGuard hSlot
        have hInfix : [load, .event ((adapter config).event choice (.send key call)
            (.conn .peekConnTerminal) w.state)] <:+: ownTrace key ((adapter config).advance choice
              (.send key call) (.conn .peekConnTerminal) w).trace := by
          rw [hOwn, hTrace]
          exact ⟨earlier, [], by simp⟩
        have hFinds := hCond _ _ hInfix hLoads
        have hNone : w.state.conn.terminal = none := hReason
        simp [findsNoCause, Machine.event, hNone] at hFinds
  | feed round =>
      cases hNode
      exact winnerAt_obey (hKeep hAt) hBook
  | publish candidate continuation remaining =>
      cases hNode
      intro winner hWinner _
      have hSlot : ((adapter config).advance choice (.send key call)
          (.stream key (.publishSend candidate)) w).state.slot key =
            (publishSend (w.state.slot key) candidate).2 := by
        simp only [Machine.advance_state, adapter_perform, State.slot, Op.perform_stream_self,
          StreamOp.perform_sendTerminal]
      rw [hSlot, publishSend_slot]
      exact hWinner
  | commit fallback =>
      cases hNode
      intro winner hWinner
      refine .inl ⟨⟨_, failure_sendWinner hWinner⟩, ?_⟩
      rw [hOwn]
      exact ⟨_, List.mem_append_right _ (List.mem_singleton_self _), by
        simp [takesConnection, Machine.event]⟩
  | guard =>
      cases hNode
      dsimp only
      split <;> trivial
  | submit context buffer =>
      cases hNode
      dsimp only
      split <;> trivial
  | dropHalf =>
      cases hNode
      intro winner hWinner
      cases hWinner
  | _ => cases hNode <;> trivial

end Points

/-- Every reported winner has its source, and so does what settled the slot. -/
structure WinnerInv (key : StreamKey) (w : AdapterWorld) : Prop where
  reported : ∀ winner ∈ sendWinners key w.trace, Reported key winner w
  taken : ∀ winner, winner.ofStream = true → w.state.slot key = some winner →
    ∃ label ∈ w.trace, takesSlot key label = true

namespace WinnerInv

variable {config : H3Config} {key : StreamKey} {w : AdapterWorld}

theorem reported_mono {winner : SendTerminal} {label : AdapterLabel} {s : State}
    (h : Reported key winner w) (hSlot : SlotLe (w.state.slot key) (s.slot key)) :
    Reported key winner (w.after label s) := by
  rcases h with ⟨hCause, taken, hMem, hTaken⟩ | ⟨hStream, hWinner⟩
  · exact .inl ⟨hCause, taken, List.mem_append_left _ hMem, hTaken⟩
  · exact .inr ⟨hStream, hSlot.ofStream hWinner hStream⟩

/-- A label that reports nothing and leaves the slot alone. -/
theorem silent (h : WinnerInv key w) {label : AdapterLabel} {s : State}
    (hLabel : sendWinners key (w.trace ++ [label]) = sendWinners key w.trace)
    (hSlot : s.slot key = w.state.slot key) : WinnerInv key (w.after label s) := by
  constructor
  · rw [World.after_trace, hLabel]
    exact fun winner hMem => reported_mono (h.reported winner hMem) (hSlot ▸ .refl _)
  · intro winner hStream hWinner
    rw [World.after_state, hSlot] at hWinner
    obtain ⟨taken, hMem, hTaken⟩ := h.taken winner hStream hWinner
    exact ⟨taken, List.mem_append_left _ hMem, hTaken⟩

theorem event (h : WinnerInv key w) (choice : Choice) (request : Request) (op : Op) :
    WinnerInv key ((adapter config).advance choice request op w) := by
  constructor
  · rw [Machine.advance_trace, sendWinners_snoc]
    intro winner hMem
    have hEarlier : winner ∈ sendWinners key w.trace := by simpa [returnedWinner] using hMem
    exact reported_mono (h.reported winner hEarlier) (advance_slot_le op w choice request)
  · intro winner hStream hWinner
    rcases takesSlot_of_ofStream hStream hWinner with hEarlier | hTaken
    · obtain ⟨taken, hMem, hTaken⟩ := h.taken winner hStream hEarlier
      exact ⟨taken, List.mem_append_left _ hMem, hTaken⟩
    · exact ⟨_, List.mem_append_right _ (List.mem_singleton_self _), hTaken⟩

theorem stable {w' : AdapterWorld} (h : WinnerInv key w)
    (hStep : (adapter config).Interference permits (.sendHalf key) w w') : WinnerInv key w' := by
  cases hStep with
  | @begun request state hOwner hDeliver =>
      have hSlot : state.slot key = w.state.slot key :=
        deliver_stream StreamState.sendTerminal (fun _ _ => rfl) hDeliver key
      exact h.silent (sendWinners_snoc_of_ne hOwner) hSlot
  | event hOwner hPermits => exact h.event _ _ _
  | finished hOwner => exact h.silent (sendWinners_snoc_of_ne hOwner) rfl

end WinnerInv

theorem NoMarkerRead.earlier {key : StreamKey} {earlier trace : List AdapterLabel}
    (h : NoMarkerRead key trace) (hPrefix : earlier <+: trace) : NoMarkerRead key earlier := by
  intro load peek hInfix
  exact h load peek (hInfix.trans (hPrefix.filter _).isInfix)

/-- The winners of one send half and where they come from. -/
def winnerOutline (config : H3Config) (key : StreamKey) : SendOutline config key where
  known w := NoMarkerRead key w.trace
  inv := WinnerInv key
  idle _ := True
  assertion _ point _ w := winnerAt key point w
  init := ⟨by simp [sendWinners], by simp [State.slot]⟩
  idle_init := trivial
  stable w w' hStep _ _ _ hInv := hInv.stable hStep
  idle_stable _ _ _ _ := trivial
  begin call w _ hInv _ _ _ := by
    refine ⟨hInv.silent (by simp [sendWinners_snoc, returnedWinner]) rfl, ?_⟩
    cases call <;> trivial
  step call point events w op target hAt hNode w' hRely hBook _ hInv choice hCond :=
    ⟨hInv.event _ _ _, winner_step (winnerAt_rely hAt hRely) hNode hBook choice hCond⟩
  again call round events w hAt := hAt
  finish call events w result hAt w' hRely _ _ hInv _ := by
    refine ⟨⟨?_, fun winner hStream hWinner => ?_⟩, trivial⟩
    · rw [World.after_trace, sendWinners_snoc]
      intro winner hMem
      rw [List.mem_append, Option.mem_toList] at hMem
      rcases hMem with hEarlier | hReturned
      · exact WinnerInv.reported_mono (hInv.reported winner hEarlier) (.refl _)
      · have hResult : result.sendWinner = some winner := by
          simpa [returnedWinner] using hReturned
        rcases winnerAt_rely hAt hRely winner hResult with ⟨hCause, taken, hMem, hTaken⟩ | hSlot
        · have hTrace : taken ∈ w'.trace := (List.mem_filter.1 hMem).1
          exact .inl ⟨hCause, taken, List.mem_append_left _ hTrace, hTaken⟩
        · exact .inr hSlot
    · obtain ⟨taken, hMem, hTaken⟩ := hInv.taken winner hStream hWinner
      exact ⟨taken, List.mem_append_left _ hMem, hTaken⟩

section Claim

variable {config : H3Config} {key : StreamKey} {trace : List AdapterLabel}
  {reached : AdapterConfig}

theorem connCause_of_sendWinner {result : Result} {cause : ConnectionTerminal}
    (h : result.sendWinner = some (.connection cause)) : result.connCause = some cause := by
  unfold Result.sendWinner at h
  split at h
  all_goals first
    | cases h
    | (split at h
       · cases h
       · cases Option.some.inj h
         rfl)

/-- A connection cause that a send half reported is the frozen one. -/
theorem frozen_of_sendWinners (run : Runs config trace reached) {cause : ConnectionTerminal}
    (h : .connection cause ∈ sendWinners key trace) : FrozenAt reached.state.conn cause := by
  obtain ⟨label, hMem, hReturned⟩ := List.mem_filterMap.1 h
  unfold returnedWinner at hReturned
  split at hReturned
  next request call events result =>
    split at hReturned
    · exact (cause_invariant config run).delivered _ cause hMem (connCause_of_sendWinner hReturned)
    · cases hReturned
  · cases hReturned

/-- If a send half never takes a connection cause in a run in which a reason of the
stream also takes its slot, and never reads the bare marker after a finish, all
the winners it reports are the first one. -/
theorem first_terminal_stays (run : Runs config trace reached)
    (hScopes : trace.any (takesConnection key) = false ∨ trace.any (takesSlot key) = false)
    (hMarker : NoMarkerRead key trace) : (sendWinners key trace).Pairwise (· = ·) := by
  have hInv : WinnerInv key ⟨reached.state, trace⟩ :=
    (winnerOutline config key).holds run fun _ _ _ hPrefix => hMarker.earlier hPrefix
  apply List.pairwise_of_forall_mem_list
  intro first hFirst second hSecond
  have hMixed : ∀ {cause winner}, .connection cause ∈ sendWinners key trace →
      (∃ label ∈ trace, takesConnection key label = true) → winner.ofStream = true →
      reached.state.slot key = some winner → False := by
    intro cause winner _ hConnection hStream hWinner
    obtain ⟨taken, hMem, hTaken⟩ := hInv.taken winner hStream hWinner
    rcases hScopes with hNone | hNone
    · obtain ⟨label, hLabel, hTakes⟩ := hConnection
      exact List.any_eq_false.1 hNone label hLabel hTakes
    · exact List.any_eq_false.1 hNone taken hMem hTaken
  rcases hInv.reported first hFirst with ⟨⟨cause, rfl⟩, hTaken⟩ | ⟨hStream, hSlot⟩ <;>
    rcases hInv.reported second hSecond with ⟨⟨other, rfl⟩, hTaken'⟩ | ⟨hStream', hSlot'⟩
  · have hSame := (frozen_of_sendWinners run hFirst).2.symm.trans (frozen_of_sendWinners run hSecond).2
    rw [Option.some.inj hSame]
  · exact (hMixed hFirst hTaken hStream' hSlot').elim
  · exact (hMixed hSecond hTaken' hStream hSlot).elim
  · exact Option.some.inj (hSlot.symm.trans hSlot')

theorem noMarkerRead_of_none (h : trace.any (loadsMarker key) = false) :
    NoMarkerRead key trace := by
  intro load peek hInfix hLoads
  have hMem : load ∈ ownTrace key trace := hInfix.subset (by simp)
  exact absurd hLoads (List.any_eq_false.1 h load (List.mem_filter.1 hMem).1)

/-- A send half reports the connection cause before and after its stream shuts down. -/
theorem first_terminal_stays_connection :
    ∃ trace reached, Runs .default trace reached ∧
      sendWinners (.accepted 0) trace =
        [.connection (.peerApplication 5), .connection (.peerApplication 5)] ∧
      (sendWinners (.accepted 0) trace).Pairwise (· = ·) := by
  have hRun : ((adapter .default).run (Machine.initial {}) (serveAll
      [(.connection (.shutdownInitiatedByPeer 5), 8), (.send (.accepted 0) .pollReady, 7),
        (.stream (.accepted 0) (.shutdownComplete true true true 5 .success), 19),
        (.send (.accepted 0) .pollReady, 7)])).isSome := by
    decide
  exact ⟨_, _, Machine.runs_get hRun, rfl,
    first_terminal_stays (Machine.runs_get hRun) (.inr rfl) (noMarkerRead_of_none rfl)⟩

/-- The connection ends, `poll_ready` reports it, the peer's stop arrives behind it and
takes the open slot, and the next `poll_ready` reports the stop. -/
theorem first_terminal_replaced :
    ∃ trace reached, Runs .default trace reached ∧
      sendWinners (.accepted 0) trace = [.connection (.peerApplication 5), .stopped 7] ∧
      ¬(sendWinners (.accepted 0) trace).Pairwise (· = ·) := by
  have hRun : ((adapter .default).run (Machine.initial {}) (serveAll
      [(.connection (.shutdownInitiatedByPeer 5), 8), (.send (.accepted 0) .pollReady, 7),
        (.stream (.accepted 0) (.peerReceiveAborted 7), 7),
        (.send (.accepted 0) .pollReady, 5)])).isSome := by
    decide
  have hWinners : sendWinners (.accepted 0) (((adapter .default).run _ _).get hRun).1 =
      [.connection (.peerApplication 5), .stopped 7] := rfl
  refine ⟨_, _, Machine.runs_get hRun, hWinners, ?_⟩
  rw [hWinners]
  decide

end Claim

end MsQuicH3
