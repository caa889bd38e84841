import MsQuicH3.SendBook

/-! Verification of one send half among all other threads. The others never touch
its reducer; in the slots they share with it they only settle what was open. -/
namespace MsQuicH3

open Concurrency

/-- The reducer of a send half. -/
abbrev State.reducer (s : State) (key : StreamKey) : SendState := (s.stream key).reducer

abbrev State.slot (s : State) (key : StreamKey) : Option SendTerminal := (s.stream key).sendTerminal

/-- Everything that happened in the calls of one send half. -/
def ownTrace (key : StreamKey) (trace : List AdapterLabel) : List AdapterLabel :=
  trace.filter fun label => label.request.owner = .sendHalf key

theorem ownTrace_snoc {key : StreamKey} {trace : List AdapterLabel} {label : AdapterLabel}
    (h : label.request.owner = .sendHalf key) :
    ownTrace key (trace ++ [label]) = ownTrace key trace ++ [label] := by
  simp [ownTrace, h]

theorem ownTrace_snoc_of_ne {key : StreamKey} {trace : List AdapterLabel} {label : AdapterLabel}
    (h : label.request.owner ≠ .sendHalf key) :
    ownTrace key (trace ++ [label]) = ownTrace key trace := by
  simp [ownTrace, h]

/-- What the other threads may do while a send half takes no step. -/
structure SendRely (key : StreamKey) (w w' : AdapterWorld) : Prop where
  reducer : w'.state.reducer key = w.state.reducer key
  own : ownTrace key w'.trace = ownTrace key w.trace
  slot : SlotLe (w.state.slot key) (w'.state.slot key)
  marker : w'.state.slot key = some .provisionalAbort → w.state.slot key = some .provisionalAbort
  conn : w.state.conn.Le w'.state.conn

namespace SendRely

variable {key : StreamKey} {w w' w'' : AdapterWorld}

theorem refl (key : StreamKey) (w : AdapterWorld) : SendRely key w w :=
  ⟨rfl, rfl, .refl _, id, .refl _⟩

theorem trans (left : SendRely key w w') (right : SendRely key w' w'') : SendRely key w w'' where
  reducer := right.reducer.trans left.reducer
  own := right.own.trans left.own
  slot := left.slot.trans right.slot
  marker h := left.marker (right.marker h)
  conn := left.conn.trans right.conn

end SendRely

section Interference

variable {key : StreamKey}

/-- Operations that only a send half issues. -/
def StreamOp.ofSendHalf : StreamOp → Bool
  | .finishStarted | .transition _ | .pollSendChannel | .streamSend _ _ | .submitGraceful
  | .submitReset _ | .dropSendHalf | .boxSendBuffer _ | .loadWinner => true
  | .publishSend candidate => candidate.isProvisional
  | _ => false

theorem StreamOp.not_recovers {op : StreamOp} (h : op.ofSendHalf = true) : op.recovers = false := by
  cases op with
  | publishSend candidate => cases candidate <;> first | rfl | cases h
  | _ => first | rfl | cases h

theorem sendHalf_of_permits {request : Request} {op : StreamOp}
    (h : permits request (.stream key op)) (hOp : op.ofSendHalf = true) :
    request.owner = .sendHalf key := by
  cases request with
  | send other call =>
      cases h.1
      rfl
  | stream other event =>
      have hIssues := h.2
      simp only [StreamEvent.issues, StreamOp.not_recovers hOp, Bool.or_false] at hIssues
      cases op with
      | publishSend candidate =>
          change candidate.isProvisional = true at hOp
          simp [StreamEvent.bodyIssues, hOp] at hIssues
      | _ => first
        | exact absurd hOp Bool.false_ne_true
        | exact absurd hIssues Bool.false_ne_true
  | recv other call =>
      have hIssues := h.2
      cases op <;> first | exact absurd hOp Bool.false_ne_true | exact absurd hIssues Bool.false_ne_true
  | opener n call =>
      cases op <;> first | exact absurd hOp Bool.false_ne_true | exact absurd h Bool.false_ne_true
  | _ => exact h.elim

variable {config : H3Config}

theorem advance_reducer_of_ne {op : Op} {w : AdapterWorld} {choice : Choice} {request : Request}
    (hOp : ∀ op', op = .stream key op' → op'.ofSendHalf = false) :
    ((adapter config).advance choice request op w).state.reducer key = w.state.reducer key := by
  rw [Machine.advance_state, adapter_perform]
  cases op with
  | conn op => simp [State.reducer]
  | stream other op =>
      by_cases hKey : key = other
      · subst hKey
        have hForeign := hOp op rfl
        simp only [State.reducer, Op.perform_stream_self, StreamOp.perform_reducer]
        cases op <;> first | rfl | cases hForeign
      · simp only [State.reducer, Op.perform_stream_of_ne _ _ _ _ hKey]

theorem advance_slot_le (op : Op) (w : AdapterWorld) (choice : Choice) (request : Request) :
    SlotLe (w.state.slot key) (((adapter config).advance choice request op w).state.slot key) := by
  rw [Machine.advance_state, adapter_perform]
  cases op with
  | conn op => simpa [State.slot] using SlotLe.refl _
  | stream other op =>
      by_cases hKey : key = other
      · subst hKey
        simp only [State.slot, Op.perform_stream_self, StreamOp.perform_sendTerminal]
        split
        · exact publishSend_le _ _
        · exact .refl _
      · simp only [State.slot, Op.perform_stream_of_ne _ _ _ _ hKey]
        exact .refl _

/-- The marker comes from the half itself. -/
theorem advance_marker {op : Op} {w : AdapterWorld} {choice : Choice} {request : Request}
    (hOp : ∀ op', op = .stream key op' → op'.ofSendHalf = false)
    (h : ((adapter config).advance choice request op w).state.slot key = some .provisionalAbort) :
    w.state.slot key = some .provisionalAbort := by
  rw [Machine.advance_state, adapter_perform] at h
  cases op with
  | conn op => simpa [State.slot] using h
  | stream other op =>
      by_cases hKey : key = other
      · subst hKey
        have hForeign := hOp op rfl
        simp only [State.slot, Op.perform_stream_self, StreamOp.perform_sendTerminal] at h
        split at h
        next candidate =>
          rw [publishSend_slot] at h
          have hWinner := @publishSend_isProvisional (w.state.slot key) _ hForeign
          rw [Option.some.inj h] at hWinner
          cases hWinner
        · exact h
      · simpa only [State.slot, Op.perform_stream_of_ne _ _ _ _ hKey] using h

/-- A step of another thread adds a label of its own. -/
theorem interference_trace {w w' : AdapterWorld}
    (h : (adapter config).Interference permits (.sendHalf key) w w') :
    ∃ label : AdapterLabel, w'.trace = w.trace ++ [label] ∧ label.request.owner ≠ .sendHalf key := by
  cases h with
  | begun hOwner hDeliver => exact ⟨_, rfl, hOwner⟩
  | event hOwner hPermits => exact ⟨_, rfl, hOwner⟩
  | finished hOwner => exact ⟨_, rfl, hOwner⟩

/-- The other threads keep to what a send half relies on. -/
theorem sendRely_of_interference {w w' : AdapterWorld}
    (h : (adapter config).Interference permits (.sendHalf key) w w') : SendRely key w w' := by
  cases h with
  | @begun request state hOwner hDeliver =>
      have hReducer : state.reducer key = w.state.reducer key :=
        deliver_stream StreamState.reducer (fun _ _ => rfl) hDeliver key
      have hSlot : state.slot key = w.state.slot key :=
        deliver_stream StreamState.sendTerminal (fun _ _ => rfl) hDeliver key
      have hConn : state.conn = w.state.conn := deliver_conn hDeliver
      constructor
      · exact hReducer
      · exact ownTrace_snoc_of_ne hOwner
      · rw [World.after_state, hSlot]
        exact .refl _
      · rw [World.after_state, hSlot]
        exact id
      · rw [World.after_state, hConn]
        exact .refl _
  | @event request op choice hOwner hPermits =>
      have hForeign : ∀ op', op = .stream key op' → op'.ofSendHalf = false := by
        intro op' hOp
        subst hOp
        cases hHalf : op'.ofSendHalf with
        | false => rfl
        | true => exact absurd (sendHalf_of_permits hPermits hHalf) hOwner
      refine ⟨advance_reducer_of_ne hForeign, ownTrace_snoc_of_ne hOwner, advance_slot_le ..,
        advance_marker hForeign, ?_⟩
      rw [Machine.advance_state, adapter_perform, Op.perform_conn]
      exact op.slot_le _
  | finished hOwner => exact ⟨rfl, ownTrace_snoc_of_ne hOwner, .refl _, id, .refl _⟩

end Interference

section Own

variable {config : H3Config} {key : StreamKey} {call : SendCall}

/-- The reducer changes at a `feed` point and nowhere else. -/
theorem advance_reducer_self (choice : Choice) (request : Request) (op : StreamOp)
    (w : AdapterWorld) :
    ((adapter config).advance choice request (.stream key op) w).state.reducer key =
      match op with
      | .transition input => (transition (w.state.reducer key) input).2
      | _ => w.state.reducer key := by
  simp only [Machine.advance_state, adapter_perform, State.reducer, Op.perform_stream_self]
  exact StreamOp.perform_reducer ..

theorem advance_reducer_conn (choice : Choice) (request : Request) (op : ConnOp)
    (w : AdapterWorld) :
    ((adapter config).advance choice request (.conn op) w).state.reducer key =
      w.state.reducer key := by
  simp [Machine.advance_state, adapter_perform, State.reducer]

/-- An operation leads from a point to one whose bookkeeping holds again. -/
theorem book_step {point : SendPoint} {op : Op} {target : op.Reply → SendPoint}
    {w : AdapterWorld} (hNode : call.node config key point = .inl ⟨op, target⟩)
    (h : point.book call (w.state.reducer key)) (choice : Choice) :
    (target (op.perform config choice w.state).1).book call
      (((adapter config).advance choice (.send key call) op w).state.reducer key) := by
  cases point with
  | guard =>
      cases hNode
      obtain ⟨rfl, hSettled⟩ := h
      have hSame : ((adapter config).advance choice (.send key .pollReady)
          (.stream key .finishStarted) w).state.reducer key = w.state.reducer key :=
        advance_reducer_self ..
      rw [hSame]
      change SendPoint.book _ _ (if (w.state.reducer key).finishStarted then .load .guard else .poll)
      cases hStarted : (w.state.reducer key).finishStarted with
      | true => exact ⟨rfl, hSettled, hStarted⟩
      | false => exact ⟨.inl ⟨rfl, hStarted⟩, hSettled⟩
  | poll =>
      cases hNode
      rw [advance_reducer_self]
      exact h
  | load purpose =>
      cases hNode
      rw [advance_reducer_self]
      dsimp only
      split
      · exact book_resolved h
      · exact h
  | peek purpose slot =>
      cases hNode
      rw [advance_reducer_conn]
      exact book_resolved h
  | again round => cases hNode
  | feed round =>
      cases hNode
      rw [advance_reducer_self]
      exact book_obey h
  | publish candidate continuation remaining =>
      cases hNode
      rw [advance_reducer_self]
      refine ⟨h.continuation, h.settled, h.beforeFinish, fun hWinner => h.marker ?_⟩
      cases hCandidate : candidate.isProvisional with
      | true => rfl
      | false =>
          have hOther := @publishSend_isProvisional (w.state.slot key) _ hCandidate
          exact absurd (hOther.symm.trans hWinner) Bool.false_ne_true
  | box buffer =>
      cases hNode
      rw [advance_reducer_self]
      exact h
  | submit context buffer =>
      cases hNode
      rw [advance_reducer_self]
      dsimp only
      split <;> exact h
  | reclaim context status =>
      cases hNode
      rw [advance_reducer_self]
      exact h
  | submitGraceful =>
      cases hNode
      rw [advance_reducer_self]
      exact h
  | submitReset code =>
      cases hNode
      rw [advance_reducer_self]
      exact h
  | commit fallback =>
      cases hNode
      rw [advance_reducer_conn]
      exact h
  | dropHalf =>
      cases hNode
      rw [advance_reducer_self]
      exact h.2
  | exit result => cases hNode

end Own

/-- Assertions at the points of the methods of one send half. The bookkeeping of the
reducer comes with every point; what the assertions add has to bear the steps of
the other threads. -/
structure SendOutline (config : H3Config) (key : StreamKey) where
  known : AdapterWorld → Prop
  inv : AdapterWorld → Prop
  idle : AdapterWorld → Prop
  assertion : SendCall → Post signature State Request Result SendPoint
  init : inv ⟨{}, []⟩
  idle_init : idle ⟨{}, []⟩
  stable : ∀ w w', (adapter config).Interference permits (.sendHalf key) w w' →
    SendRely key w w' → known w → known w' → inv w → inv w'
  idle_stable : ∀ w w', idle w → SendRely key w w' → idle w'
  begin : ∀ call w, known w → inv w → idle w → (w.state.reducer key).settled = true →
    known (w.after (.begun (.send key call)) w.state) →
      inv (w.after (.begun (.send key call)) w.state) ∧
        assertion call call.start [] (w.after (.begun (.send key call)) w.state)
  step : ∀ call point events w op target, assertion call point events w →
    call.node config key point = .inl ⟨op, target⟩ → ∀ w', SendRely key w w' →
    point.book call (w'.state.reducer key) → known w' → inv w' → ∀ choice,
    known ((adapter config).advance choice (.send key call) op w') →
      inv ((adapter config).advance choice (.send key call) op w') ∧
        assertion call (target (op.perform config choice w'.state).1)
          (events ++ [(adapter config).event choice (.send key call) op w'.state])
          ((adapter config).advance choice (.send key call) op w')
  again : ∀ call round events w, assertion call (.again round) events w →
    assertion call (.feed round) events w
  finish : ∀ call events w result, assertion call (.exit result) events w →
    ∀ w', SendRely key w w' → (w'.state.reducer key).settled = true → known w' → inv w' →
    known (w'.after (.finished ⟨.send key call, events, result⟩) w'.state) →
      inv (w'.after (.finished ⟨.send key call, events, result⟩) w'.state) ∧
        idle (w'.after (.finished ⟨.send key call, events, result⟩) w'.state)

namespace SendOutline

variable {config : H3Config} {key : StreamKey}

theorem deliver_send (call : SendCall) {s s' : State} (h : deliver (.send key call) s = some s') :
    s' = s := by
  rcases deliver_cases h with hSame | ⟨_, _, _, hRequest, _⟩
  · exact hSame
  · cases hRequest

/-- A request of the send half, at one of the points of its method. -/
def AtPoint (o : SendOutline config key) (request : Request) :
    Post signature State Request Result SendPoint :=
  fun point events w => ∃ call, request = .send key call ∧
    point.book call (w.state.reducer key) ∧ o.assertion call point events w

def chartOf (config : H3Config) (key : StreamKey) :
    Request → Flowchart signature SendPoint (SendRound ⊕ Result)
  | .send _ call => call.chart config key
  | _ => SendCall.drop.chart config key

def startOf : Request → SendPoint
  | .send _ call => call.start
  | _ => .dropHalf

theorem describes_owned (config : H3Config) (key : StreamKey) (request : Request)
    (hOwner : request.owner = .sendHalf key) :
    (chartOf config key request).Describes (startOf request) (request.entry config) := by
  obtain ⟨call, rfl⟩ := owner_eq_sendHalf hOwner
  exact describes_entry config key call

def focus (o : SendOutline config key) :
    (adapter config).Focus {} (.sendHalf key) SendPoint where
  permits := permits
  chart := chartOf config key
  start := startOf
  resumed := .feed
  known := o.known
  inv := o.inv
  rely := SendRely key
  idle w := (w.state.reducer key).settled = true ∧ o.idle w
  assertion := o.AtPoint
  uses_entry := uses_entry config
  uses_body := uses_body
  describes_entry := describes_owned config key
  rely_refl := SendRely.refl key
  rely_trans left right := left.trans right
  stable w w' hStep hKnown hKnown' hInv :=
    ⟨o.stable w w' hStep (sendRely_of_interference hStep) hKnown hKnown' hInv,
      sendRely_of_interference hStep⟩
  init := o.init
  idle_init := ⟨rfl, o.idle_init⟩
  idle_stable w w' h hRely := ⟨hRely.reducer ▸ h.1, o.idle_stable w w' h.2 hRely⟩
  begin request w state hOwner hKnown hInv hIdle hDeliver hNext := by
    obtain ⟨call, rfl⟩ := owner_eq_sendHalf hOwner
    have hSame : state = w.state := deliver_send call hDeliver
    subst hSame
    obtain ⟨hInv', hStart⟩ := o.begin call w hKnown hInv hIdle.2 hIdle.1 hNext
    exact ⟨hInv', call, rfl, book_start hIdle.1, hStart⟩
  step request point events w op target hAt hNode w' hRely hKnown hInv choice hNext := by
    obtain ⟨call, rfl, hBook, hAssertion⟩ := hAt
    rw [← hRely.reducer] at hBook
    obtain ⟨hInv', hTarget⟩ :=
      o.step call point events w op target hAssertion hNode w' hRely hBook hKnown hInv choice hNext
    exact ⟨hInv', call, rfl, book_step hNode hBook choice, hTarget⟩
  again request point events w loop hAt hNode := by
    obtain ⟨call, rfl, hBook, hAssertion⟩ := hAt
    cases point <;> cases hNode
    have hCall : call ≠ .drop := by
      rintro rfl
      obtain ⟨input, remaining⟩ := loop
      cases input <;> simp [SendPoint.book, SendInput.book] at hBook
      exact absurd hBook.continuation (by simp [SendCall.continuation])
    exact ⟨describes_body config key call hCall loop, call, rfl, hBook,
      o.again call loop events w hAssertion⟩
  finish request point events w result hAt hNode w' hRely hKnown hInv hNext := by
    obtain ⟨call, rfl, hBook, hAssertion⟩ := hAt
    cases point <;> cases hNode
    have hSettled : (w'.state.reducer key).settled = true := hRely.reducer ▸ hBook
    obtain ⟨hInv', hIdle⟩ :=
      o.finish call events w result hAssertion w' hRely hSettled hKnown hInv hNext
    exact ⟨hInv', hSettled, hIdle⟩

variable {trace : List AdapterLabel} {reached : AdapterConfig}

/-- The invariant holds in every world a run reaches. -/
theorem holds (o : SendOutline config key) (run : Runs config trace reached)
    (hKnown : ∀ earlier config', Runs config earlier config' → earlier <+: trace →
      o.known ⟨config'.state, earlier⟩) : o.inv ⟨reached.state, trace⟩ :=
  (o.focus.sound run hKnown).1

/-- A half that serves no call is as its calls left it. -/
theorem rests (o : SendOutline config key) (run : Runs config trace reached)
    (hKnown : ∀ earlier config', Runs config earlier config' → earlier <+: trace →
      o.known ⟨config'.state, earlier⟩) (hIdle : reached.active (.sendHalf key) = none) :
    (reached.state.reducer key).settled = true ∧ o.idle ⟨reached.state, trace⟩ := by
  have hLocal := (o.focus.sound run hKnown).2
  rw [hIdle] at hLocal
  exact hLocal

/-- A call in progress is at a point whose assertion held when it last acted. -/
theorem stands (o : SendOutline config key) (run : Runs config trace reached)
    (hKnown : ∀ earlier config', Runs config earlier config' → earlier <+: trace →
      o.known ⟨config'.state, earlier⟩) {call : SendCall} {events : List AdapterEvent} {rest : Round}
    (hActive : reached.active (.sendHalf key) = some ⟨.send key call, events, rest⟩) :
    ∃ point before, (call.chart config key).Describes point rest ∧
      SendRely key before ⟨reached.state, trace⟩ ∧
      point.book call (reached.state.reducer key) ∧ o.assertion call point events before := by
  have hLocal := (o.focus.sound run hKnown).2
  rw [hActive] at hLocal
  obtain ⟨point, before, hPoint, hRely, other, hCall, hBook, hAssertion⟩ := hLocal
  cases hCall
  exact ⟨point, before, hPoint, hRely, hRely.reducer ▸ hBook, hAssertion⟩

/-- When a call returned, the assertion of its exit held. -/
theorem returned (o : SendOutline config key) (run : Runs config trace reached)
    (hKnown : ∀ earlier config', Runs config earlier config' → earlier <+: trace →
      o.known ⟨config'.state, earlier⟩) {call : SendCall} {events : List AdapterEvent}
    {result : Result} (hCall : .finished ⟨.send key call, events, result⟩ ∈ trace) :
    ∃ earlier config' before, earlier ++ [.finished ⟨.send key call, events, result⟩] <+: trace ∧
      Runs config earlier config' ∧ o.inv ⟨config'.state, earlier⟩ ∧
      SendRely key before ⟨config'.state, earlier⟩ ∧ o.assertion call (.exit result) events before := by
  obtain ⟨earlier, config', point, before, hPrefix, hRun, hInv, hNode, hRely, hAt⟩ :=
    o.focus.returned run hKnown rfl hCall
  obtain ⟨other, hOther, hBook, hAssertion⟩ := hAt
  cases hOther
  cases point <;> cases hNode
  exact ⟨earlier, config', before, hPrefix, hRun, hInv, hRely, hAssertion⟩

end SendOutline

end MsQuicH3
