import MsQuicH3.RecvHistory

/-! The callback of a stream with a live reader. Whatever the reader takes in the
meantime, it admits what was indicated before the first terminal and announces that
terminal behind it. -/
namespace MsQuicH3

open Concurrency

/-- The receive half is dropped or told to stop. -/
def leaves (key : StreamKey) : AdapterLabel → Bool
  | .event ⟨_, .stream target .dropRecvHalf, _, _, _⟩ => target = key
  | .event ⟨_, .stream target .closeReceiveLocally, _, _, _⟩ => target = key
  | _ => false

/-- The receive half stays. -/
def Live (key : StreamKey) (trace : List AdapterLabel) : Prop :=
  ∀ label ∈ trace, leaves key label = false

/-- A panic strikes a callback of the stream only before its event has any effect. -/
def EarlyPanics (key : StreamKey) (trace : List AdapterLabel) : Prop := (journal key trace).late = false

instance (key : StreamKey) (trace : List AdapterLabel) : Decidable (Live key trace) :=
  inferInstanceAs (Decidable (∀ label ∈ trace, leaves key label = false))

instance (key : StreamKey) (trace : List AdapterLabel) : Decidable (EarlyPanics key trace) :=
  inferInstanceAs (Decidable ((journal key trace).late = false))

theorem EarlyPanics.snoc {key : StreamKey} {trace : List AdapterLabel} {label : AdapterLabel}
    (h : EarlyPanics key (trace ++ [label])) : EarlyPanics key trace := by
  rw [EarlyPanics, ← Bool.not_eq_true]
  intro hLate
  rw [EarlyPanics, journal_snoc, Journal.step_late hLate] at h
  cases h

theorem EarlyPanics.of_prefix {key : StreamKey} {earlier trace : List AdapterLabel}
    (h : EarlyPanics key trace) (hPrefix : earlier <+: trace) : EarlyPanics key earlier := by
  obtain ⟨later, rfl⟩ := hPrefix
  induction later using List.reverseRecOn with
  | nil => exact (List.append_nil earlier) ▸ h
  | append_singleton later label ih =>
      rw [← List.append_assoc] at h
      exact ih h.snoc

/-- The reader is there, and no late panic struck so far. -/
structure Attended (key : StreamKey) (w : AdapterWorld) : Prop where
  receiver : (w.state.stream key).receive.receiver = true
  running : (w.state.stream key).receiveClosed = false
  early : EarlyPanics key w.trace

section Attended

variable {config : H3Config} {key : StreamKey} {trace : List AdapterLabel} {reached : AdapterConfig}

theorem attended_holds (run : Runs config trace reached) (hLive : Live key trace)
    (hEarly : EarlyPanics key trace) : Attended key ⟨reached.state, trace⟩ := by
  induction run with
  | start => exact ⟨rfl, rfl, hEarly⟩
  | @step trace label config' next move prior last ih =>
      obtain ⟨hReceiver, hRunning, -⟩ :=
        ih (fun label h => hLive label (List.mem_append_left _ h)) hEarly.snoc
      have hLast := hLive label (List.mem_append_right _ (List.mem_singleton_self _))
      suffices h : (next.state.stream key).receive.receiver = true ∧
          (next.state.stream key).receiveClosed = false from ⟨h.1, h.2, hEarly⟩
      rcases Machine.step_cases last with ⟨request, state, -, hDeliver, rfl, rfl⟩ |
        ⟨thread, choice, request, events, op, following, -, rfl, rfl⟩ |
        ⟨thread, request, events, result, -, rfl, rfl⟩
      · dsimp only
        rw [deliver_stream StreamState.receive (fun _ _ => rfl) hDeliver key,
          deliver_stream StreamState.receiveClosed (fun _ _ => rfl) hDeliver key]
        exact ⟨hReceiver, hRunning⟩
      · rcases @advance_stream_cases config choice request ⟨config'.state, trace⟩ key op with
          ⟨own, rfl, hStream, -⟩ | ⟨-, hStream, -⟩
        · simp only [Machine.advance_state] at hStream
          rw [hStream, StreamOp.perform_receive, StreamOp.perform_receiveClosed]
          cases own with
          | dropRecvHalf => simp [leaves, Machine.event] at hLast
          | closeReceiveLocally => simp [leaves, Machine.event] at hLast
          | admitIndication bytes =>
              refine ⟨?_, hRunning⟩
              dsimp only [publishData]
              split
              · exact hReceiver
              · rw [Channel.unboundedSend_receiver]
                exact hReceiver
          | sendReceive event =>
              refine ⟨?_, hRunning⟩
              dsimp only
              rw [Channel.unboundedSend_receiver]
              exact hReceiver
          | pollReceive =>
              refine ⟨?_, hRunning⟩
              dsimp only
              rw [Channel.pollNext_receiver]
              exact hReceiver
          | _ => exact ⟨hReceiver, hRunning⟩
        · simp only [Machine.advance_state] at hStream
          rw [hStream]
          exact ⟨hReceiver, hRunning⟩
      · exact ⟨hReceiver, hRunning⟩

end Attended

/-- A callback that had no effect yet has nothing to finish. -/
structure RecvView.Steady (view : RecvView) : Prop where
  sound : view.Sound
  untouched : view.journal.acted = false → view.Phase [] none

/-- What holds of a receive path with a live reader at every moment. -/
structure Carried (key : StreamKey) (w : AdapterWorld) : Prop where
  ordered : Ordered (w.state.stream key).receive
  steady : (recvView key w).Steady

/-- What the other threads leave alone. -/
def ViewRely (key : StreamKey) (w w' : AdapterWorld) : Prop := recvView key w' = recvView key w

/-- Operations that only a callback of the stream issues. -/
def StreamOp.ofCallback : StreamOp → Bool
  | .admitIndication _ | .sendReceive _ | .endReceive | .dropReceive | .panicPoint _ => true
  | _ => false

/-- Operations that leave the receive path in view alone. -/
def Op.sparesView : Op → Bool
  | .stream _ op => !op.ofCallback && !(op matches .dropRecvHalf)
  | .conn _ => true

section Start

variable {view : RecvView} {event : StreamEvent}

theorem Journal.act_acted (journal : Journal) : (journal.act event).acted = true := by
  unfold act
  split
  · assumption
  · rfl

theorem RecvView.start_of_acted (h : view.journal.acted = true) : view.start event = view := by
  rw [start, Journal.act, if_pos h]

theorem RecvView.perform_journal (op : StreamOp) (reply : op.Reply) :
    (view.perform op reply).journal = view.journal := by
  cases op with
  | admitIndication bytes =>
      dsimp only [RecvView.perform]
      split <;> rfl
  | sendReceive event =>
      dsimp only [RecvView.perform]
      split <;> rfl
  | _ => rfl

theorem RecvView.perform_spared {op : StreamOp} (hOp : op.ofCallback = false) (reply : op.Reply) :
    view.perform op reply = view := by
  cases op <;> first | rfl | cases hOp

theorem RecvView.perform_looks {key : StreamKey} {op : StreamOp}
    (hOp : (Op.stream key op).looks = true) (reply : op.Reply) : view.perform op reply = view := by
  cases op <;> first | rfl | cases hOp

/-- What a callback has to do once its event has taken effect. -/
theorem RecvView.Phase.start (h : view.Phase [] none) (hFresh : view.journal.acted = false)
    (event : StreamEvent) : (view.start event).Phase event.bytes event.ending := by
  rcases h with hClosed | ⟨hSender, hSent, hTail, hHistory⟩
  · exact .inl hClosed
  · refine .inr ⟨hSender, hSent, hTail, ?_⟩
    simp [RecvView.start, Journal.act, hFresh, hHistory, History.after]

/-- What a callback has to do once a panic struck it. -/
theorem RecvView.Phase.strike (h : view.Phase [] none) :
    RecvView.Phase [] (some .panicked) { view with journal := view.journal.strike } := by
  rcases h with hClosed | ⟨hSender, hSent, hTail, hHistory⟩
  · exact .inl hClosed
  · refine .inr ⟨hSender, hSent, hTail, ?_⟩
    simp [Journal.strike, hHistory, History.panicked]

/-- A history that grows, or ends, when nothing is left to finish. -/
theorem RecvView.Sound.grow (hSound : view.Sound) (h : view.Phase [] none) {journal : Journal}
    (hGrow : view.journal.history.bytes <+: journal.history.bytes)
    (hEnded : view.journal.history.ending.isSome → journal.history = view.journal.history) :
    RecvView.Sound { view with journal } := by
  rcases h with hClosed | ⟨hSender, -, hTail, -⟩
  · obtain ⟨ending, hEnding, hLast, hBytes⟩ := hSound.closed hClosed
    have hSame := hEnded (by rw [hEnding]; rfl)
    have hSettled : RecvView.Settled { view with journal } :=
      ⟨ending, by rw [hSame, hEnding], hLast, by rw [hSame, hBytes]⟩
    exact ⟨hSound.delivered.trans hGrow, fun _ => hSettled, fun _ => hSettled⟩
  · refine ⟨hSound.delivered.trans hGrow, fun h => (h hTail).elim, fun h => ?_⟩
    have hOpen : view.sender = false := h
    rw [hSender] at hOpen
    cases hOpen

theorem RecvView.Steady.start (h : view.Steady) (event : StreamEvent) :
    (view.start event).Sound := by
  cases hActed : view.journal.acted with
  | true =>
      rw [start_of_acted hActed]
      exact h.sound
  | false =>
      apply h.sound.grow (h.untouched hActed)
      · rw [Journal.act, hActed]
        exact History.after_prefix _ event
      · exact fun hEnded => Journal.act_ended hEnded event

theorem RecvView.Steady.strike (h : view.Steady) (hFresh : view.journal.acted = false) :
    RecvView.Steady { view with journal := view.journal.strike } := by
  refine ⟨h.sound.grow (h.untouched hFresh) ?_ History.panicked_ended, nofun⟩
  dsimp only [Journal.strike, History.panicked]
  split <;> exact List.prefix_rfl

theorem RecvView.Steady.acted (h : view.Sound) (hActed : view.journal.acted = true) : view.Steady :=
  ⟨h, fun hFresh => by simp [hActed] at hFresh⟩

end Start

section Callback

variable {config : H3Config} {key : StreamKey}

theorem callback_of_permits {request : Request} {op : StreamOp}
    (h : permits request (.stream key op)) (hOp : op.ofCallback = true) :
    ∃ event, request = .stream key event :=
  streamHandler_of_permits h (by cases op <;> first | rfl | cases hOp)

/-- An operation that leaves the receive path alone changes its journal at most. -/
theorem recvView_apart {w : AdapterWorld} {choice : Choice} {request : Request} {op : Op}
    (hAttended : Attended key w)
    (hOp : ∀ own, op = .stream key own → own.ofCallback = false ∧ own ≠ .dropRecvHalf) :
    recvView key ((adapter config).advance choice request op w) =
      { recvView key w with
        journal := (journal key w.trace).step key
          (.event ((adapter config).event choice request op w.state)) } := by
  rcases @advance_stream_cases config choice request w key op with
    ⟨own, rfl, -⟩ | ⟨-, hStream, hLog⟩
  · obtain ⟨hForeign, hKeep⟩ := hOp own rfl
    have hPlain : (Op.stream key own).plain = true := by
      cases own <;> first | rfl | cases hForeign
    rw [recvView_event hAttended.receiver hPlain hKeep, RecvView.perform_spared hForeign]
  · rw [recvView, hStream, hLog, Machine.advance_trace, journal_snoc]
    rfl

theorem ordered_apart {w : AdapterWorld} (h : Ordered (w.state.stream key).receive) {choice : Choice}
    {request : Request} {op : Op} (hOp : ∀ own, op = .stream key own → own.ofCallback = false) :
    Ordered (((adapter config).advance choice request op w).state.stream key).receive := by
  rcases @advance_stream_cases config choice request w key op with
    ⟨own, rfl, hStream, -⟩ | ⟨-, hStream, -⟩
  · have hForeign := hOp own rfl
    rw [hStream]
    apply ordered_perform h
    rintro event - - (rfl | ⟨bytes, rfl⟩) <;> cases hForeign
  · rw [hStream]
    exact h

theorem apart_of_spares {op : Op} (h : op.sparesView = true) (own : StreamOp)
    (hOp : op = .stream key own) : own.ofCallback = false ∧ own ≠ .dropRecvHalf := by
  subst hOp
  simp only [Op.sparesView, Bool.and_eq_true, Bool.not_eq_true'] at h
  refine ⟨h.1, ?_⟩
  rintro rfl
  cases h.2

theorem journal_foreign {label : AdapterLabel} (h : label.request.owner ≠ .streamCallback key)
    (j : Journal) : j.step key label = j := by
  apply Journal.step_foreign
  intro event hRequest
  rw [hRequest] at h
  exact h rfl

theorem recvView_begun {w : AdapterWorld} {request : Request} {state : State}
    (hDeliver : deliver request w.state = some state) :
    recvView key (w.after (.begun request) state) =
      { recvView key w with journal := (journal key w.trace).step key (.begun request) } := by
  have hReceive := deliver_stream StreamState.receive (fun _ _ => rfl) hDeliver key
  have hSent := deliver_stream StreamState.receiveTerminalSent (fun _ _ => rfl) hDeliver key
  rw [recvView, World.after_state, World.after_trace, streamLog_begun, journal_snoc,
    hReceive, hSent]
  rfl

theorem recvView_finished {w : AdapterWorld} (call : AdapterCall) :
    recvView key (w.after (.finished call) w.state) = recvView key w := by
  rw [recvView, World.after_state, World.after_trace, streamLog_finished, journal_snoc]
  rfl

/-- What the other threads do leaves the view alone. -/
theorem callback_stable (w w' : AdapterWorld)
    (h : (adapter config).Interference permitsPlain (.streamCallback key) w w')
    (hBefore : Attended key w) (hAfter : Attended key w') (hInv : Carried key w) :
    Carried key w' ∧ ViewRely key w w' := by
  suffices hKept : Ordered (w'.state.stream key).receive ∧ ViewRely key w w' from
    ⟨⟨hKept.1, hKept.2 ▸ hInv.steady⟩, hKept.2⟩
  cases h with
  | begun hOwner hDeliver =>
      refine ⟨?_, ?_⟩
      · rw [World.after_state, deliver_stream StreamState.receive (fun _ _ => rfl) hDeliver key]
        exact hInv.ordered
      · rw [ViewRely, recvView_begun hDeliver, journal_foreign (by exact hOwner)]
        rfl
  | finished hOwner => exact ⟨hInv.ordered, recvView_finished _⟩
  | @event request op choice hOwner hPermits =>
      have hApart : ∀ own, op = .stream key own → own.ofCallback = false ∧ own ≠ .dropRecvHalf := by
        rintro own rfl
        refine ⟨?_, ?_⟩
        · rw [← Bool.not_eq_true]
          intro hOp
          obtain ⟨event, rfl⟩ := callback_of_permits hPermits.1 hOp
          exact hOwner rfl
        · rintro rfl
          have hReceiver := hAfter.receiver
          rw [Machine.advance_state, adapter_perform, Op.perform_stream_self] at hReceiver
          cases hReceiver
      refine ⟨ordered_apart hInv.ordered fun own hOp => (hApart own hOp).1, ?_⟩
      rw [ViewRely, recvView_apart hBefore hApart, journal_foreign (by exact hOwner)]
      rfl

/-- Code of the callback, with what is known about the receive path in between. -/
abbrev CallbackSafe {α : Type} (config : H3Config) (key : StreamKey) (event : StreamEvent)
    (post : α → RecvView → Prop) (code : Code α) (w : AdapterWorld) : Prop :=
  ∀ events, (adapter config).Safe (Attended key) (Carried key) (ViewRely key) (.stream key event)
    (fun result _ w => post result (recvView key w)) events code w

variable {α β : Type} {event : StreamEvent} {post : α → RecvView → Prop} {w : AdapterWorld}

theorem callbackSafe_done {result : α} (h : post result (recvView key w)) :
    CallbackSafe config key event post (.done result) w := fun _ => h

theorem CallbackSafe.bind {code : Code β} {f : β → Code α} {reached : β → RecvView → Prop}
    (h : CallbackSafe config key event reached code w)
    (hNext : ∀ result w, reached result (recvView key w) →
      CallbackSafe config key event post (f result) w) :
    CallbackSafe config key event post (code >>= f) w := by
  intro events
  apply Machine.Safe.bind
  exact (h events).mono fun result events w hResult => hNext result w hResult events

/-- The view after an operation of the callback that is no panic point. -/
theorem recvView_own {op : StreamOp} {choice : Choice} (hAttended : Attended key w)
    (hPlain : (Op.stream key op).plain = true) (hKeep : op ≠ .dropRecvHalf)
    (hQuiet : ∀ k, op ≠ .panicPoint k) :
    recvView key ((adapter config).advance choice (.stream key event) (.stream key op) w) =
      if (Op.stream key op).looks then recvView key w
      else ((recvView key w).start event).perform op
        (op.perform config.recvBudget choice (w.state.stream key)).1 := by
  have hJournal : (journal key w.trace).step key
      (.event ((adapter config).event choice (.stream key event) (.stream key op) w.state)) =
      if (Op.stream key op).looks then journal key w.trace else (journal key w.trace).act event := by
    apply Journal.step_op
    rintro target k hOp
    injection hOp with _ hOp
    exact hQuiet k hOp
  rw [recvView_event hAttended.receiver hPlain hKeep, hJournal]
  cases hLooks : (Op.stream key op).looks with
  | true => rw [if_pos rfl, if_pos rfl, RecvView.perform_looks hLooks]; rfl
  | false =>
      cases op with
      | admitIndication bytes =>
          simp only [Bool.false_eq_true, if_false, RecvView.perform]
          change _ = if (recvView key w).sender && !bytes.isEmpty then _ else _
          split <;> rfl
      | sendReceive message =>
          simp only [Bool.false_eq_true, if_false, RecvView.perform]
          change _ = if (recvView key w).sender then _ else _
          split <;> rfl
      | _ => rfl

/-- The view after an operation of the callback that leaves the receive path alone. -/
theorem recvView_spare {op : Op} {choice : Choice} (hAttended : Attended key w)
    (hSpares : op.sparesView = true) :
    recvView key ((adapter config).advance choice (.stream key event) op w) =
      if op.looks then recvView key w else (recvView key w).start event := by
  have hJournal : (journal key w.trace).step key
      (.event ((adapter config).event choice (.stream key event) op w.state)) =
      if op.looks then journal key w.trace else (journal key w.trace).act event := by
    apply Journal.step_op
    rintro target k rfl
    cases hSpares
  rw [recvView_apart hAttended (apart_of_spares hSpares), hJournal]
  split <;> rfl

/-- An operation of the callback keeps the receive path in order, when it keeps the
view sound in which its event has taken effect. -/
theorem Carried.own {op : Op} {choice : Choice} {view : RecvView} (hInv : Carried key w)
    (hOrdered : Ordered (((adapter config).advance choice (.stream key event) op w).state.stream key).receive)
    (hView : recvView key ((adapter config).advance choice (.stream key event) op w) =
      if op.looks then recvView key w else view)
    (hSound : view.Sound) (hActed : view.journal.acted = true) :
    Carried key ((adapter config).advance choice (.stream key event) op w) := by
  refine ⟨hOrdered, ?_⟩
  rw [hView]
  split
  · exact hInv.steady
  · exact .acted hSound hActed

/-- One operation of the callback that is no panic point. -/
theorem CallbackSafe.step {op : StreamOp} {next : op.Reply → Code α}
    (hPlain : (Op.stream key op).plain = true) (hKeep : op ≠ .dropRecvHalf)
    (hQuiet : ∀ k, op ≠ .panicPoint k)
    (hTail : ∀ bytes, op = .admitIndication bytes → (recvView key w).sender = true →
      (recvView key w).tail = [])
    (hSound : ((recvView key w).start event).Sound →
      ∀ reply, (((recvView key w).start event).perform op reply).Sound)
    (hNext : ∀ choice (s : StreamState) w', s.receive.receiver = true →
      s.receive.sender = (recvView key w).sender → s.receiveTerminalSent = (recvView key w).sent →
      (recvView key w').start event = ((recvView key w).start event).perform op
        (op.perform config.recvBudget choice s).1 →
      CallbackSafe config key event post (next (op.perform config.recvBudget choice s).1) w') :
    CallbackSafe config key event post (onStream key op >>= next) w := by
  intro events w' hRely hKnown hInv choice _
  have hRely : recvView key w' = recvView key w := hRely
  have hView := @recvView_own config key event w' op choice hKnown hPlain hKeep hQuiet
  have hActed : (((recvView key w').start event).perform op
      (op.perform config.recvBudget choice (w'.state.stream key)).1).journal.acted = true := by
    rw [RecvView.perform_journal]
    exact Journal.act_acted _
  refine ⟨hInv.own ?_ hView ?_ hActed, hNext choice (w'.state.stream key) _ hKnown.receiver ?_ ?_ ?_ _⟩
  · rw [Machine.advance_state, adapter_perform, Op.perform_stream_self]
    apply ordered_perform hInv.ordered
    rintro message hData hSender (rfl | hAdmit)
    · cases message with
      | data bytes => cases hPlain
      | _ => cases hData
    · obtain ⟨bytes, rfl⟩ := hAdmit
      have hEmpty := hTail bytes rfl ((congrArg RecvView.sender hRely).symm.trans hSender)
      rw [← hRely] at hEmpty
      exact (List.append_eq_nil_iff.1 hEmpty).2
  · have hSteady : (recvView key w).Steady := hRely ▸ hInv.steady
    rw [hRely]
    exact hSound (hSteady.start event) _
  · exact congrArg RecvView.sender hRely
  · exact congrArg RecvView.sent hRely
  · rw [hView, ← hRely]
    cases hLooks : (Op.stream key op).looks with
    | true => rw [if_pos rfl, RecvView.perform_looks hLooks]
    | false =>
        rw [if_neg Bool.false_ne_true]
        exact RecvView.start_of_acted hActed


/-- An operation of the callback that only looks. -/
theorem CallbackSafe.look {op : StreamOp} {next : op.Reply → Code α}
    (hLooks : (Op.stream key op).looks = true) (hQuiet : ∀ k, op ≠ .panicPoint k)
    (hNext : ∀ choice (s : StreamState) w', s.receive.receiver = true →
      s.receive.sender = (recvView key w).sender → s.receiveTerminalSent = (recvView key w).sent →
      recvView key w' = recvView key w →
      CallbackSafe config key event post (next (op.perform config.recvBudget choice s).1) w') :
    CallbackSafe config key event post (onStream key op >>= next) w := by
  intro events w' hRely hKnown hInv choice _
  have hRely : recvView key w' = recvView key w := hRely
  have hSpares : (Op.stream key op).sparesView = true := by
    cases op with
    | panicPoint k => exact (hQuiet k rfl).elim
    | _ => first | rfl | cases hLooks
  have hView := @recvView_spare config key event w' _ choice hKnown hSpares
  rw [hLooks, if_pos rfl] at hView
  refine ⟨⟨?_, hView ▸ hInv.steady⟩, hNext choice (w'.state.stream key) _ hKnown.receiver
    (congrArg RecvView.sender hRely) (congrArg RecvView.sent hRely) (hView.trans hRely) _⟩
  exact ordered_apart hInv.ordered fun own hOp => (apart_of_spares hSpares own hOp).1

/-- Code of the callback that leaves the receive path alone. -/
theorem callbackSafe_spare {code : Code α}
    (hUses : code.Uses (S := signature) fun op => op.sparesView = true)
    (hPost : ∀ result w', (recvView key w').start event = (recvView key w).start event →
      post result (recvView key w')) :
    CallbackSafe config key event post code w := by
  induction code generalizing w with
  | done result => exact fun _ => hPost result w rfl
  | call op next ih =>
      intro events w' hRely hKnown hInv choice _
      have hRely : recvView key w' = recvView key w := hRely
      have hView := @recvView_spare config key event w' op choice hKnown hUses.1
      refine ⟨hInv.own ?_ hView (hInv.steady.start event) (Journal.act_acted _), ih _ (hUses.2 _) ?_ _⟩
      · exact ordered_apart hInv.ordered fun own hOp => (apart_of_spares hUses.1 own hOp).1
      · intro result w'' hSame
        apply hPost
        rw [hSame, hView, ← hRely]
        split
        · rfl
        · exact RecvView.start_of_acted (Journal.act_acted _)

/-- The channel is closed, or its terminal event is about to be announced. -/
def RecvView.Announcing (message : ReceiveEvent) (view : RecvView) : Prop :=
  view.sender = false ∨
    (view.sender = true ∧ view.sent = false ∧ view.tail = [] ∧
      ∃ ending : Ending, ending.event = some message ∧
        view.journal.history = ⟨view.admitted.flatten, some ending⟩)

/-- The channel is closed or carries its terminal. -/
def RecvView.Announced (view : RecvView) : Prop := view.sender = false ∨ view.Settled

theorem RecvView.Phase.announcing {view : RecvView} {ending : Ending} {message : ReceiveEvent}
    (h : view.Phase [] (some ending)) (hMessage : ending.event = some message) :
    view.Announcing message := by
  rcases h with h | ⟨hSender, hSent, hTail, hHistory⟩
  · exact .inl h
  · rw [List.append_nil] at hHistory
    exact .inr ⟨hSender, hSent, hTail, ending, hMessage, hHistory⟩

theorem RecvView.Announcing.send {view : RecvView} {message : ReceiveEvent}
    (h : view.Announcing message) (reply : Unit) :
    (view.perform (.sendReceive message) reply).Announced := by
  rcases h with hSender | ⟨hSender, -, hTail, ending, hMessage, hHistory⟩
  · refine .inl ?_
    simp [RecvView.perform, hSender]
  · refine .inr ⟨ending, ?_, ?_, ?_⟩ <;> simp [RecvView.perform, hSender, hTail, hMessage, hHistory]

theorem RecvView.Sound.send {view : RecvView} (h : view.Sound) {message : ReceiveEvent}
    (hPhase : view.Announcing message) (reply : Unit) :
    (view.perform (.sendReceive message) reply).Sound := by
  have hAnnounced := hPhase.send reply
  cases hSender : view.sender with
  | false =>
      simp only [RecvView.perform, hSender, Bool.false_eq_true, if_false]
      exact h
  | true =>
      simp only [RecvView.perform, hSender, if_true] at hAnnounced ⊢
      have hSettled := hAnnounced.resolve_left (by simp)
      exact ⟨h.delivered, fun _ => hSettled, fun _ => hSettled⟩

/-- A channel that carries its terminal may be closed. -/
theorem RecvView.Sound.close {view : RecvView} (h : view.Sound) (hReady : view.Announced)
    (reply : Unit) : (view.perform .dropReceive reply).Sound := by
  have hSettled : view.Settled := hReady.elim h.closed id
  exact ⟨h.delivered, fun _ => hSettled, fun _ => hSettled⟩

theorem callbackSafe_publishRecvTerminal {message : ReceiveEvent}
    (hPlain : (Op.stream key (.sendReceive message)).plain = true)
    (hPhase : ((recvView key w).start event).Announcing message) :
    CallbackSafe config key event (fun _ view => view.sender = false)
      (publishRecvTerminal key message) w := by
  refine CallbackSafe.look rfl nofun fun choice s w₁ _ _ hSent hSame => ?_
  rw [← hSame] at hPhase hSent
  have hDone : s.receiveTerminalSent = true → (recvView key w₁).sender = false := by
    intro hTrue
    rcases hPhase with hSender | ⟨-, hFalse, -⟩
    · exact hSender
    · have hUnsent : (recvView key w₁).sent = false := hFalse
      rw [← hSent, hTrue] at hUnsent
      cases hUnsent
  change CallbackSafe config key event _ (if s.receiveTerminalSent then _ else _) w₁
  split
  next hTrue => exact callbackSafe_done (hDone hTrue)
  refine CallbackSafe.step hPlain nofun nofun nofun (fun hSound => hSound.send hPhase) ?_
  intro choice s w₂ _ _ _ hView
  have hReady : ((recvView key w₂).start event).Announced := hView ▸ hPhase.send ()
  have hSettled : ((recvView key w₂).start event).Sound →
      ((recvView key w₂).start event).Settled := fun hSound => hReady.elim hSound.closed id
  refine CallbackSafe.step rfl nofun nofun nofun (fun hSound _ => ⟨hSound.delivered,
    fun _ => hSettled hSound, fun _ => hSettled hSound⟩) ?_
  intro choice s w₃ _ _ _ hView
  apply callbackSafe_done
  exact congrArg RecvView.sender hView

/-- An open channel admits everything it is offered. -/
theorem admit_open {s : StreamState} (budget : RecvBudget) (choice : Choice) (bytes : List UInt8)
    (hReceiver : s.receive.receiver = true) (hSender : s.receive.sender = true) :
    ((StreamOp.admitIndication bytes).perform budget choice s).1 ≠ Admit.publishFailed := by
  rcases admit_cases budget choice bytes s with ⟨-, hClosed, -⟩ | ⟨-, hPerform⟩
  · rw [hReceiver, hSender] at hClosed
    cases hClosed
  · rw [hPerform]
    dsimp only
    split <;> exact nofun

theorem RecvView.Phase.admission {view : RecvView} {bytes : List UInt8} {goal : Option Ending}
    (hSender : view.sender = true) (h : view.Phase bytes goal) (reply : Admit) :
    (view.perform (.admitIndication bytes) reply).Phase [] goal := by
  rcases h with hClosed | ⟨-, hSent, hTail, hHistory⟩
  · rw [hSender] at hClosed
    cases hClosed
  · refine .inr ?_
    cases hBytes : bytes.isEmpty with
    | true =>
        rw [List.isEmpty_iff.1 hBytes] at hHistory ⊢
        simp [RecvView.perform, hSender, hSent, hTail, hHistory]
    | false => simp [RecvView.perform, hSender, hSent, hTail, hHistory, hBytes]

theorem RecvView.Sound.admission {view : RecvView} {bytes : List UInt8} {goal : Option Ending}
    (hSound : view.Sound) (h : view.Phase bytes goal) (reply : Admit) :
    (view.perform (.admitIndication bytes) reply).Sound := by
  cases hOpen : view.sender && !bytes.isEmpty with
  | false =>
      simp only [RecvView.perform, hOpen, Bool.false_eq_true, if_false]
      exact hSound
  | true =>
      simp only [RecvView.perform, hOpen, if_true]
      have hSender : view.sender = true := (Bool.and_eq_true_iff.1 hOpen).1
      rcases h with hClosed | ⟨-, hSent, hTail, hHistory⟩
      · rw [hSender] at hClosed
        cases hClosed
      · refine ⟨?_, fun h => (h hTail).elim, fun h => ?_⟩
        · simp [hHistory]
        · rw [hSender] at h
          cases h

theorem callbackSafe_receiveData {bytes : List UInt8} {goal : Option Ending}
    (hPhase : ((recvView key w).start event).Phase bytes goal) :
    CallbackSafe config key event (fun _ view => (view.start event).Phase [] goal)
      (receiveData key bytes) w := by
  refine CallbackSafe.look rfl nofun fun choice s₁ w₁ _ _ hSent hSame => ?_
  rw [← hSame] at hPhase hSent
  refine CallbackSafe.look rfl nofun fun choice s₂ w₂ _ hSender _ hSame => ?_
  rw [← hSame] at hPhase hSent hSender
  change CallbackSafe config key event _
    (if !s₁.receiveTerminalSent && s₂.receive.sender then _ else _) w₂
  split
  next hOpen =>
    have hAlive : (recvView key w₂).sender = true := hSender ▸ (Bool.and_eq_true_iff.1 hOpen).2
    have hTail : (recvView key w₂).tail = [] := by
      rcases hPhase with hClosed | ⟨-, -, hTail, -⟩
      · have hShut : (recvView key w₂).sender = false := hClosed
        rw [hAlive] at hShut
        cases hShut
      · exact hTail
    refine CallbackSafe.step rfl nofun nofun (fun _ _ _ => hTail) (fun hSound => hSound.admission hPhase) ?_
    intro choice s₃ w₃ hReceiver hSender _ hView
    have hAfter : ((recvView key w₃).start event).Phase [] goal :=
      by
      rw [hView]
      exact RecvView.Phase.admission (by exact hAlive) hPhase _
    have hAdmitted := admit_open config.recvBudget choice bytes hReceiver (hSender.trans hAlive)
    cases hReply : ((StreamOp.admitIndication bytes).perform config.recvBudget choice s₃).1 with
    | pend => exact callbackSafe_done hAfter
    | accepted => exact callbackSafe_done hAfter
    | publishFailed => exact (hAdmitted hReply).elim
  next hShut =>
    apply callbackSafe_done
    rcases hPhase with hClosed | ⟨hOpen, hUnsent, -⟩
    · exact .inl hClosed
    · have hAlive : (recvView key w₂).sender = true := hOpen
      have hSilent : (recvView key w₂).sent = false := hUnsent
      rw [hSent, hSender, hAlive, hSilent] at hShut
      exact (hShut rfl).elim

theorem uses_spare {op : StreamOp} (h : (Op.stream key op).sparesView = true) :
    (onStream key op).Uses (S := signature) fun op => op.sparesView = true := uses_onStream h

theorem callbackSafe_shutdownComplete {goal : Option Ending} (connectionShutdown : Bool)
    (reason : ConnectionTerminal)
    (hGoal : goal = some (if connectionShutdown then .connection reason else .closed))
    (hPhase : ((recvView key w).start event).Phase [] goal) :
    CallbackSafe config key event (fun _ view => view.sender = false) (do
      Program.when connectionShutdown (publishConnTerminal key reason)
      onStream key .dropReceive
      onStream key .dropSend
      onStream key .dropStart
      return (.ok () : Except Status Unit)) w := by
  subst hGoal
  have hEnd : ∀ w, ((recvView key w).start event).Announced → CallbackSafe config key event
      (fun _ view => view.sender = false) (do
        onStream key .dropReceive
        onStream key .dropSend
        onStream key .dropStart
        return (.ok () : Except Status Unit)) w := by
    intro w hReady
    refine CallbackSafe.step rfl nofun nofun nofun (fun hSound => hSound.close hReady) ?_
    intro choice s w₁ _ _ _ hView
    refine callbackSafe_spare ((uses_spare rfl).bind fun _ => (uses_spare rfl).bind fun _ => trivial)
      fun _ w₂ hSame => ?_
    exact congrArg RecvView.sender (hSame.trans hView)
  cases connectionShutdown with
  | false =>
      refine hEnd w ?_
      rcases hPhase with hClosed | ⟨-, -, hTail, hHistory⟩
      · exact .inl hClosed
      · refine .inr ⟨.closed, ?_, hTail, ?_⟩
        · rw [hHistory]
          rfl
        · rw [hHistory, List.append_nil]
  | true =>
      have hRecord : CallbackSafe config key event
          (fun _ view => (view.start event).Phase [] (some (.connection reason)))
          (onConn (.recordConnTerminal reason)) w :=
        callbackSafe_spare (uses_onConn rfl) fun _ _ hSame => hSame ▸ hPhase
      have hPublish : CallbackSafe config key event (fun _ view => view.sender = false)
          (publishConnTerminal key reason) w := by
        apply CallbackSafe.bind hRecord
        intro _ w hPhase
        apply CallbackSafe.bind (callbackSafe_publishRecvTerminal rfl (hPhase.announcing rfl))
        intro _ w hClosed
        refine callbackSafe_spare ((uses_spare rfl).bind fun _ => trivial) fun _ w' hSame => ?_
        exact (congrArg RecvView.sender hSame).trans hClosed
      exact CallbackSafe.bind hPublish fun _ w hClosed => hEnd w (.inl hClosed)

/-- The buffers of an indication, whether or not some are empty. -/
theorem indicationBytes_eq (buffers : List (List UInt8)) :
    indicationBytes buffers = buffers.flatten := by
  induction buffers with
  | nil => rfl
  | cons buffer buffers ih =>
      rw [indicationBytes] at ih ⊢
      cases buffer with
      | nil => simpa using ih
      | cons byte bytes => simp [ih]

theorem callbackSafe_publish {message : ReceiveEvent} {ending : Ending} {result : Except Status Unit}
    (hPlain : (Op.stream key (.sendReceive message)).plain = true)
    (hMessage : ending.event = some message)
    (hPhase : ((recvView key w).start event).Phase [] (some ending)) :
    CallbackSafe config key event (fun _ view => (view.start event).Phase [] none)
      (publishRecvTerminal key message >>= fun _ => .done result) w := by
  apply CallbackSafe.bind (callbackSafe_publishRecvTerminal hPlain (hPhase.announcing hMessage))
  exact fun _ w hClosed => callbackSafe_done (.inl hClosed)

/-- The body of a callback admits the bytes of its event and announces its ending. -/
theorem callbackSafe_streamCallback
    (hPhase : ((recvView key w).start event).Phase event.bytes event.ending) :
    CallbackSafe config key event (fun _ view => (view.start event).Phase [] none)
      (streamCallback key event) w := by
  cases event with
  | receive buffers fin =>
      have hData : CallbackSafe config key (.receive buffers fin)
          (fun _ view => (view.start (.receive buffers fin)).Phase [] (if fin then some .fin else none))
          (receiveData key (indicationBytes buffers)) w := by
        apply callbackSafe_receiveData
        rw [indicationBytes_eq]
        exact hPhase
      apply CallbackSafe.bind hData
      intro pend w hAdmitted
      cases fin with
      | true => exact callbackSafe_publish rfl rfl hAdmitted
      | false => exact callbackSafe_done hAdmitted
  | peerSendShutdown => exact callbackSafe_publish rfl rfl hPhase
  | peerSendAborted code => exact callbackSafe_publish rfl rfl hPhase
  | shutdownComplete connectionShutdown byApp closedRemotely code status =>
      intro events
      apply (callbackSafe_shutdownComplete connectionShutdown _ rfl hPhase events).mono
      exact fun _ _ w hClosed => .inl hClosed
  | startComplete status id =>
      exact callbackSafe_spare ((uses_spare rfl).bind fun _ => trivial) fun _ _ hSame => hSame ▸ hPhase
  | sendComplete cancelled context =>
      cases context with
      | none =>
          exact callbackSafe_spare ((uses_spare rfl).bind fun _ => (uses_spare rfl).bind fun _ => trivial)
            fun _ _ hSame => hSame ▸ hPhase
      | some context =>
          exact callbackSafe_spare ((uses_spare rfl).bind fun _ => (uses_spare rfl).bind fun _ => trivial)
            fun _ _ hSame => hSame ▸ hPhase
  | peerReceiveAborted code =>
      exact callbackSafe_spare ((uses_spare rfl).bind fun _ => (uses_spare rfl).bind fun _ => trivial)
        fun _ _ hSame => hSame ▸ hPhase
  | sendShutdownComplete graceful =>
      exact callbackSafe_spare ((uses_spare rfl).bind fun _ => trivial) fun _ _ hSame => hSame ▸ hPhase
  | other => exact callbackSafe_done hPhase

theorem callbackSafe_streamRecover (hPhase : ((recvView key w).start event).Phase [] (some .panicked)) :
    CallbackSafe config key event (fun _ view => (view.start event).Phase [] none)
      (streamRecover key) w := by
  have hSend : CallbackSafe config key event
      (fun _ view => (view.start event).Phase [] (some .panicked)) (do
      onStream key (.forceShutdown h3InternalError)
      let _ ← onStream key (.publishSend (.internal "stream callback panicked"))
      onStream key (.sendEvent .terminalWake)
      onStream key .dropSend) w :=
    callbackSafe_spare ((uses_spare rfl).bind fun _ => (uses_spare rfl).bind fun _ =>
      (uses_spare rfl).bind fun _ => uses_spare rfl) fun _ _ hSame => hSame ▸ hPhase
  apply CallbackSafe.bind hSend
  intro _ w hPhase
  apply CallbackSafe.bind (callbackSafe_publishRecvTerminal rfl (hPhase.announcing rfl))
  intro _ w hClosed
  exact callbackSafe_spare ((uses_spare rfl).bind fun _ => (uses_spare rfl).bind fun _ => trivial)
    fun _ _ hSame => .inl ((congrArg RecvView.sender hSame).trans hClosed)

/-- A point of the callback where a panic may strike. -/
theorem recvView_panicPoint {choice : Choice} {k : Nat}
    (hReceiver : (w.state.stream key).receive.receiver = true) :
    recvView key ((adapter config).advance choice (.stream key event) (.stream key (.panicPoint k)) w) =
      if choice.panics then { recvView key w with journal := (recvView key w).journal.strike }
      else recvView key w := by
  have hJournal : (journal key w.trace).step key (.event ((adapter config).event choice
      (.stream key event) (.stream key (.panicPoint k)) w.state)) =
      if choice.panics then (journal key w.trace).strike else journal key w.trace := by
    simp [Journal.step, Machine.event, adapter, Op.perform, StreamOp.perform]
  rw [recvView_event hReceiver rfl (fun h => by cases h), hJournal]
  split <;> rfl

/-- A panic strikes a callback that had no effect yet, if it strikes. -/
theorem safe_panicPoint {k : Nat} {next : Bool → Code α} {post : α → AdapterWorld → Prop}
    {events : List AdapterEvent}
    (hCalm : ∀ events w', ViewRely key w w' → Carried key w' →
      (adapter config).Safe (Attended key) (Carried key) (ViewRely key) (.stream key event)
        (fun result _ w => post result w) events (next false) w')
    (hStruck : ∀ events w', ((recvView key w').start event).Phase [] (some .panicked) →
      (adapter config).Safe (Attended key) (Carried key) (ViewRely key) (.stream key event)
        (fun result _ w => post result w) events (next true) w') :
    (adapter config).Safe (Attended key) (Carried key) (ViewRely key) (.stream key event)
      (fun result _ w => post result w) events (onStream key (.panicPoint k) >>= next) w := by
  intro w' hRely hKnown hInv choice hAfter
  have hOrdered : Ordered (((adapter config).advance choice (.stream key event)
      (.stream key (.panicPoint k)) w').state.stream key).receive := by
    rw [Machine.advance_state, adapter_perform, Op.perform_stream_self]
    exact hInv.ordered
  have hView := @recvView_panicPoint config key event w' choice k hKnown.receiver
  have hReply : ((adapter config).perform choice (.stream key (.panicPoint k)) w'.state).1 =
      choice.panics := rfl
  rw [hReply]
  cases hPanics : choice.panics with
  | false =>
      rw [hPanics, if_neg Bool.false_ne_true] at hView
      have hInv' := Carried.mk hOrdered (hView ▸ hInv.steady)
      exact ⟨hInv', hCalm _ _ (hView.trans hRely) hInv'⟩
  | true =>
      rw [hPanics, if_pos rfl] at hView
      have hFresh : (recvView key w').journal.acted = false := by
        have hEarly : (recvView key _).journal.late = false := hAfter.early
        rw [hView] at hEarly
        exact (Bool.or_eq_false_iff.1 hEarly).2
      refine ⟨⟨hOrdered, hView ▸ hInv.steady.strike hFresh⟩, hStruck _ _ ?_⟩
      rw [hView, RecvView.start_of_acted rfl]
      exact (hInv.steady.untouched hFresh).strike

/-- What a callback leaves behind. -/
def RecvView.Left (view : RecvView) : Prop := view.journal.acted = true → view.Phase [] none

theorem RecvView.Phase.left {view : RecvView} (h : (view.start event).Phase [] none) : view.Left := by
  intro hActed
  rw [start_of_acted hActed] at h
  exact h

theorem callbackSafe_streamHandler (hFresh : (recvView key w).journal.acted = false)
    (hPhase : (recvView key w).Phase [] none) :
    CallbackSafe config key event (fun _ view => view.Left) (streamHandler key event) w := by
  refine CallbackSafe.look rfl nofun fun choice s w _ _ _ hSame => ?_
  rw [← hSame] at hPhase hFresh
  change CallbackSafe config key event _ (if s.poisoned then _ else _) w
  split
  · exact callbackSafe_done fun hActed => by simp [hFresh] at hActed
  · intro events
    apply Machine.safe_guarded_ready
      (fun w => ((recvView key w).start event).Phase [] (some .panicked))
    · exact fun left right => right.trans left
    · intro _ w w' hPost hRely
      rw [hRely]
      exact hPost
    · exact fun k events w next hCalm hStruck => safe_panicPoint hCalm hStruck
    · intro events w hReady
      exact (callbackSafe_streamRecover hReady events).mono fun _ _ w h => h.left
    · exact (callbackSafe_streamCallback (hPhase.start hFresh event) events).mono fun _ _ w h => h.left

/-- A callback of the stream leaves nothing unfinished. -/
def callbackWatch (config : H3Config) (key : StreamKey) :
    (adapter config).Watch {} (.streamCallback key) where
  permits := permitsPlain
  known := Attended key
  inv := Carried key
  rely := ViewRely key
  idle w := (recvView key w).Phase [] none
  post _ _ _ w := (recvView key w).Left
  uses_entry := plain_entry config
  uses_body := plain_body
  rely_refl _ := rfl
  rely_trans left right := right.trans left
  stable := callback_stable
  init := ⟨List.Pairwise.nil, ⟨List.nil_prefix, fun h => (h rfl).elim, fun h => by cases h⟩,
    fun _ => .inr ⟨rfl, rfl, rfl, rfl⟩⟩
  idle_init := .inr ⟨rfl, rfl, rfl, rfl⟩
  idle_stable w w' h hRely := by
    rw [hRely]
    exact h
  begin request w state hOwner _ hInv hIdle hDeliver _ := by
    obtain ⟨event, rfl⟩ := owner_eq_streamCallback hOwner
    have hView := @recvView_begun key w _ state hDeliver
    have hJournal : (journal key w.trace).step key (.begun (.stream key event)) =
        { journal key w.trace with acted := false } := if_pos rfl
    rw [hJournal] at hView
    have hPhase : (recvView key (w.after (.begun (.stream key event)) state)).Phase [] none := by
      rw [hView]
      exact hIdle
    refine ⟨⟨?_, ?_, fun _ => hPhase⟩, ?_⟩
    · rw [World.after_state, deliver_stream StreamState.receive (fun _ _ => rfl) hDeliver key]
      exact hInv.ordered
    · rw [hView]
      exact ⟨hInv.steady.sound.delivered, hInv.steady.sound.announced, hInv.steady.sound.closed⟩
    have hFresh : (recvView key (w.after (.begun (.stream key event)) state)).journal.acted = false := by
      rw [hView]
    have hHandler : CallbackSafe config key event (fun outcome view => outcome.isRight ∧ view.Left)
        (straight (streamHandler key event) .callback) (w.after (.begun (.stream key event)) state) :=
      CallbackSafe.bind (callbackSafe_streamHandler hFresh hPhase) fun _ w h =>
        callbackSafe_done ⟨rfl, h⟩
    apply (hHandler []).mono
    rintro (round | result) events w ⟨hRight, hLeft⟩
    · cases hRight
    · exact hLeft
  finish request result events w w' _ hPost hRely _ hInv _ := by
    have hView := @recvView_finished key w' ⟨request, events, result⟩
    have hLeft : (recvView key w').Left := hRely ▸ hPost
    refine ⟨⟨hInv.ordered, hView ▸ hInv.steady⟩, ?_⟩
    rw [hView]
    cases hActed : (recvView key w').journal.acted with
    | true => exact hLeft hActed
    | false => exact hInv.steady.untouched hActed

/-- The receive path of a stream with a live reader, in every run. -/
theorem carried_holds {trace : List AdapterLabel} {reached : AdapterConfig}
    (run : Runs config trace reached) (hLive : Live key trace) (hEarly : EarlyPanics key trace) :
    Carried key ⟨reached.state, trace⟩ := by
  refine ((callbackWatch config key).sound run fun earlier config hRun hPrefix => ?_).1
  exact attended_holds hRun (fun label h => hLive label (hPrefix.subset h)) (hEarly.of_prefix hPrefix)

end Callback

end MsQuicH3
