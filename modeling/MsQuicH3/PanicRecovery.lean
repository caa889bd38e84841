import MsQuicH3.PanicContext

/-! Panic containment over the whole life of a callback context. A panic may strike
between any two operations of a body; recovery settles every waiter once, and the
handlers after it do nothing. -/
namespace MsQuicH3

open Concurrency

namespace CallbackContext

/-- What recovery notes once a panic has struck. -/
def mending : CallbackContext → Bool → List GuardNote
  | .stream _, live =>
      [.forced, .settled .winner, .settled .send] ++
        ((if live then [.sent (.internal "stream callback panicked")] else []) ++
          [.settled .receive, .settled .start, .settled .poisoned])
  | .connection, _ =>
      [.forced, .settled .cause, .settled .connected, .settled .uni, .settled .bidi,
        .settled .shutdown, .settled .poisoned]

def setPoisoned : CallbackContext → Op
  | .connection => .conn .setPoisoned
  | .stream key => .stream key .setPoisoned

/-- Operations of the handler of a context. -/
def touches : CallbackContext → Op → Bool
  | .connection, .conn op => op.ofHandler
  | .stream key, .stream target op => target = key && op.ofHandler
  | _, _ => false

section World

variable (context : CallbackContext)

/-- No panic has struck yet. -/
structure Calm (w : AdapterWorld) : Prop where
  sane : context.poisoned w.state = false
  plain : ∀ note ∈ context.notes w.trace, note.ofBody

/-- One panic struck, and recovery went on from there. -/
def Struck (live : Bool) (tail : List GuardNote) (w : AdapterWorld) : Prop :=
  ∃ body, (∀ note ∈ body, note.ofBody) ∧ context.notes w.trace = body ++ .struck live :: tail

/-- One panic struck, and recovery is complete. -/
structure Recovered (w : AdapterWorld) : Prop where
  poisoned : context.poisoned w.state = true
  struck : ∃ live, context.Struck live (context.mending live) w

/-- At most one panic struck, and recovery goes through its steps in order. -/
def Orderly (w : AdapterWorld) : Prop :=
  (∀ note ∈ context.notes w.trace, note.ofBody) ∨
    ∃ live tail, tail <+: context.mending live ∧ context.Struck live tail w

/-- What the other threads leave alone. -/
structure Rely (w w' : AdapterWorld) : Prop where
  notes : context.notes w'.trace = context.notes w.trace
  poisoned : context.poisoned w'.state = context.poisoned w.state
  feeds : context.feeds w'.state = context.feeds w.state

/-- What a handler leaves behind. -/
def Idle (w : AdapterWorld) : Prop := context.Calm w ∨ context.Recovered w

end World

end CallbackContext

section Containment

variable {config : H3Config} {context : CallbackContext} {w w' w'' : AdapterWorld}

namespace CallbackContext

theorem Rely.refl (w : AdapterWorld) : context.Rely w w := ⟨rfl, rfl, rfl⟩

theorem Rely.trans (left : context.Rely w w') (right : context.Rely w' w'') : context.Rely w w'' :=
  ⟨right.notes.trans left.notes, right.poisoned.trans left.poisoned, right.feeds.trans left.feeds⟩

theorem Calm.stable (h : context.Calm w) (hRely : context.Rely w w') : context.Calm w' := by
  refine ⟨hRely.poisoned.trans h.sane, ?_⟩
  rw [hRely.notes]
  exact h.plain

theorem Struck.stable {live : Bool} {tail : List GuardNote} (h : context.Struck live tail w)
    (hRely : context.Rely w w') : context.Struck live tail w' := by
  obtain ⟨body, hBody, hNotes⟩ := h
  exact ⟨body, hBody, hRely.notes.trans hNotes⟩

theorem Recovered.stable (h : context.Recovered w) (hRely : context.Rely w w') :
    context.Recovered w' := by
  obtain ⟨hPoisoned, live, hStruck⟩ := h
  exact ⟨hRely.poisoned.trans hPoisoned, live, hStruck.stable hRely⟩

theorem Calm.orderly (h : context.Calm w) : context.Orderly w := .inl h.plain

theorem Recovered.orderly (h : context.Recovered w) : context.Orderly w := by
  obtain ⟨live, hStruck⟩ := h.struck
  exact .inr ⟨live, _, List.prefix_rfl, hStruck⟩

theorem Idle.stable (h : context.Idle w) (hRely : context.Rely w w') : context.Idle w' := by
  rcases h with hCalm | hRecovered
  · exact .inl (hCalm.stable hRely)
  · exact .inr (hRecovered.stable hRely)

theorem Idle.orderly (h : context.Idle w) : context.Orderly w :=
  h.elim Calm.orderly Recovered.orderly

theorem Orderly.stable (h : context.Orderly w) (hRely : context.Rely w w') : context.Orderly w' := by
  rcases h with hPlain | ⟨live, tail, hTail, hStruck⟩
  · exact .inl (hRely.notes ▸ hPlain)
  · exact .inr ⟨live, tail, hTail, hStruck.stable hRely⟩

/-- Only the handler of a context touches it. -/
theorem owner_of_touches {request : Request} {op : Op} (h : permits request op)
    (hOp : context.touches op = true) : request.owner = context.thread := by
  cases context with
  | connection =>
      cases op with
      | stream key op => cases hOp
      | conn op =>
          obtain ⟨event, rfl⟩ := connectionHandler_of_permits h hOp
          rfl
  | stream key =>
      cases op with
      | conn op => cases hOp
      | stream target op =>
          obtain ⟨hKey, hHandler⟩ := Bool.and_eq_true_iff.1 hOp
          obtain rfl : target = key := by simpa using hKey
          obtain ⟨event, rfl⟩ := streamHandler_of_permits h hHandler
          rfl

/-- An operation of another thread leaves the context alone. -/
theorem untouched_perform {op : Op} {choice : Choice} {s : State} (h : context.touches op = false) :
    context.poisoned (op.perform config choice s).2 = context.poisoned s ∧
      context.feeds (op.perform config choice s).2 = context.feeds s := by
  cases context with
  | connection =>
      refine ⟨?_, rfl⟩
      cases op with
      | stream key op => rfl
      | conn op =>
          change (op.perform choice s).2.connPoisoned = s.connPoisoned
          rw [ConnOp.perform_connPoisoned]
          cases op <;> first | rfl | cases h
  | stream key =>
      change ((op.perform config choice s).2.stream key).poisoned = (s.stream key).poisoned ∧
        ((op.perform config choice s).2.stream key).receive.sender = (s.stream key).receive.sender
      cases op with
      | conn op =>
          rw [Op.perform_conn_stream]
          exact ⟨rfl, rfl⟩
      | stream target op =>
          by_cases hKey : key = target
          · subst hKey
            have hOp : op.ofHandler = false := by simpa [touches] using h
            rw [Op.perform_stream_self, StreamOp.perform_poisoned, StreamOp.perform_receive]
            cases op with
            | pollReceive => exact ⟨rfl, Channel.pollNext_sender _⟩
            | _ => first | exact ⟨rfl, rfl⟩ | cases hOp
          · rw [Op.perform_stream_of_ne _ _ _ _ hKey]
            exact ⟨rfl, rfl⟩

theorem untouched_deliver {request : Request} {s s' : State} (h : deliver request s = some s') :
    context.poisoned s' = context.poisoned s ∧ context.feeds s' = context.feeds s := by
  cases context with
  | connection =>
      rcases deliver_cases h with rfl | ⟨key, cancelled, returned, rfl, -, rfl⟩ <;> exact ⟨rfl, rfl⟩
  | stream key =>
      exact ⟨deliver_stream StreamState.poisoned (fun _ _ => rfl) h key,
        deliver_stream (fun s => s.receive.sender) (fun _ _ => rfl) h key⟩

theorem rely_begun {request : Request} {s : State} (h : deliver request w.state = some s) :
    context.Rely w (w.after (.begun request) s) :=
  ⟨notes_begun request s, (untouched_deliver h).1, (untouched_deliver h).2⟩

theorem rely_finished (call : AdapterCall) : context.Rely w (w.after (.finished call) w.state) :=
  ⟨notes_finished call w.state, rfl, rfl⟩

theorem stable (w w' : AdapterWorld)
    (h : (adapter config).Interference permits context.thread w w') (hInv : context.Orderly w) :
    context.Orderly w' ∧ context.Rely w w' := by
  have hRely : context.Rely w w' := by
    cases h with
    | begun hOwner hDeliver => exact rely_begun hDeliver
    | finished hOwner => exact rely_finished _
    | @event request op choice hOwner hPermits =>
        have hUntouched : context.touches op = false := by
          rw [← Bool.not_eq_true]
          intro hOp
          exact hOwner (owner_of_touches hPermits hOp)
        exact ⟨notes_foreign hOwner op, (untouched_perform hUntouched).1, (untouched_perform hUntouched).2⟩
  exact ⟨hInv.stable hRely, hRely⟩

end CallbackContext

section Code

/-- Operations that neither a body nor the others issue. -/
def Op.contains : Op → Bool
  | .conn (.panicPoint _) | .conn (.forceShutdown _) | .conn .setPoisoned => true
  | .stream _ (.panicPoint _) | .stream _ (.forceShutdown _) | .stream _ .setPoisoned => true
  | _ => false

namespace CallbackContext

variable {request : Request} {choice : Choice} {s : State} {key : StreamKey}

theorem ofBody_of_guardNote {op : StreamOp} (h : (Op.stream key op).contains = false)
    (reply : op.Reply) (s : StreamState) : (op.guardNote reply s).all GuardNote.ofBody = true := by
  cases op with
  | sendReceive event =>
      rw [StreamOp.guardNote]
      split <;> rfl
  | admitIndication bytes =>
      rw [StreamOp.guardNote]
      split <;> rfl
  | publishSend candidate =>
      rw [StreamOp.guardNote]
      split <;> rfl
  | receiveTerminalSent => cases reply <;> rfl
  | _ => first | rfl | cases h

theorem ofBody_of_opNote {op : Op} (h : op.contains = false) (reply : op.Reply) :
    (context.opNote op reply s).all GuardNote.ofBody = true := by
  cases context with
  | connection =>
      cases op with
      | stream key op => rfl
      | conn op => cases op <;> first | rfl | cases h
  | stream key =>
      cases op with
      | conn op => rfl
      | stream target op =>
          change (if target = key then op.guardNote reply (s.stream key) else none).all _ = true
          split
          · exact ofBody_of_guardNote h reply _
          · rfl

theorem poisoned_perform {op : Op} (h : op ≠ context.setPoisoned) :
    context.poisoned (op.perform config choice s).2 = context.poisoned s := by
  cases context with
  | connection =>
      cases op with
      | stream key op => rfl
      | conn op =>
          change (op.perform choice s).2.connPoisoned = s.connPoisoned
          rw [ConnOp.perform_connPoisoned]
          cases op with
          | setPoisoned => exact (h rfl).elim
          | _ => rfl
  | stream key =>
      change ((op.perform config choice s).2.stream key).poisoned = (s.stream key).poisoned
      cases op with
      | conn op => rw [Op.perform_conn_stream]
      | stream target op =>
          by_cases hKey : key = target
          · subst hKey
            rw [Op.perform_stream_self, StreamOp.perform_poisoned]
            cases op with
            | setPoisoned => exact (h rfl).elim
            | _ => rfl
          · rw [Op.perform_stream_of_ne _ _ _ _ hKey]

theorem setPoisoned_contains (context : CallbackContext) : context.setPoisoned.contains = true := by
  cases context <;> rfl

theorem ne_setPoisoned {op : Op} (h : op.contains = false) : op ≠ context.setPoisoned := by
  rintro rfl
  rw [setPoisoned_contains] at h
  cases h

/-- A body notes effects only. -/
theorem Calm.body (h : context.Calm w) (hOwner : request.owner = context.thread) {op : Op}
    (hOp : op.contains = false) :
    context.Calm ((adapter config).advance choice request op w) := by
  refine ⟨(poisoned_perform (ne_setPoisoned hOp)).trans h.sane, fun note hNote => ?_⟩
  rw [notes_own hOwner, List.mem_append, Option.mem_toList] at hNote
  rcases hNote with hNote | hNote
  · exact h.plain note hNote
  · have hPlain : (context.opNote op (op.perform config choice w.state).1 w.state).all
        GuardNote.ofBody = true := ofBody_of_opNote hOp _
    rw [hNote] at hPlain
    exact hPlain

/-- Operations of the handler that are not worth a note. -/
theorem Recovered.silent (h : context.Recovered w) (hOwner : request.owner = context.thread) {op : Op}
    (hOp : op.contains = false) (hNote : ∀ reply s, context.opNote op reply s = none) :
    context.Recovered ((adapter config).advance choice request op w) := by
  obtain ⟨hPoisoned, live, body, hBody, hNotes⟩ := h
  refine ⟨(poisoned_perform (ne_setPoisoned hOp)).trans hPoisoned, live, body, hBody, ?_⟩
  rw [notes_own hOwner, hNote, hNotes]
  exact List.append_nil _

end CallbackContext

/-- Operations that drop the sender of a receive channel. -/
def Op.closes : Op → Bool
  | .stream _ .endReceive | .stream _ .dropReceive => true
  | _ => false

namespace CallbackContext

theorem feeds_perform {op : Op} {choice : Choice} {s : State} (h : op.closes = false) :
    context.feeds (op.perform config choice s).2 = context.feeds s := by
  cases context with
  | connection => rfl
  | stream key =>
      change ((op.perform config choice s).2.stream key).receive.sender = (s.stream key).receive.sender
      cases op with
      | conn op => rw [Op.perform_conn_stream]
      | stream target op =>
          by_cases hKey : key = target
          · subst hKey
            rw [Op.perform_stream_self, StreamOp.perform_receive]
            cases op with
            | admitIndication bytes =>
                dsimp only [publishData]
                split
                · rfl
                · exact Channel.unboundedSend_sender _ _
            | sendReceive event => exact Channel.unboundedSend_sender _ _
            | pollReceive => exact Channel.pollNext_sender _
            | _ => first | rfl | cases h
          · rw [Op.perform_stream_of_ne _ _ _ _ hKey]

theorem opNote_setPoisoned (context : CallbackContext) (reply : context.setPoisoned.Reply) (s : State) :
    context.opNote context.setPoisoned reply s = some (.settled .poisoned) := by
  cases context with
  | connection => rfl
  | stream key => exact if_pos rfl

theorem poisoned_setPoisoned (context : CallbackContext) (choice : Choice) (s : State) :
    context.poisoned (context.setPoisoned.perform config choice s).2 = true := by
  cases context with
  | connection => rfl
  | stream key =>
      change (((Op.stream key .setPoisoned).perform config choice s).2.stream key).poisoned = true
      rw [Op.perform_stream_self]
      rfl

end CallbackContext

/-- Code of a handler, whatever it did before. -/
abbrev HandlerSafe {α : Type} (config : H3Config) (context : CallbackContext) (request : Request)
    (post : AdapterWorld → Prop) (code : Code α) (w : AdapterWorld) : Prop :=
  ∀ events, (adapter config).Safe (fun w => ContextSound w.state) context.Orderly context.Rely request
    (fun _ _ w => post w) events code w

variable {α β : Type} {request : Request} {post : AdapterWorld → Prop}

theorem HandlerSafe.bind {code : Code β} {f : β → Code α} {middle : AdapterWorld → Prop}
    (h : HandlerSafe config context request middle code w)
    (hNext : ∀ result w, middle w → HandlerSafe config context request post (f result) w) :
    HandlerSafe config context request post (code >>= f) w := by
  intro events
  apply Machine.Safe.bind
  exact (h events).mono fun result events w hMiddle => hNext result w hMiddle events

/-- One operation of recovery. -/
theorem HandlerSafe.mend {op : Op} {next : op.Reply → Code α} {live : Bool} {tail : List GuardNote}
    (hOwner : request.owner = context.thread) (hStruck : context.Struck live tail w)
    (hTail : ∀ choice s, ContextSound s → context.feeds s = context.feeds w.state →
      tail ++ (context.opNote op (op.perform config choice s).1 s).toList <+: context.mending live)
    (hNext : ∀ choice s w', ContextSound s → context.feeds s = context.feeds w.state →
      w'.state = (op.perform config choice s).2 →
      context.Struck live (tail ++ (context.opNote op (op.perform config choice s).1 s).toList) w' →
      HandlerSafe config context request post (next (op.perform config choice s).1) w') :
    HandlerSafe config context request post (.call (S := signature) op next) w := by
  intro events w' hRely hKnown hInv choice _
  have hAfter : context.Struck live
      (tail ++ (context.opNote op (op.perform config choice w'.state).1 w'.state).toList)
      ((adapter config).advance choice request op w') := by
    obtain ⟨body, hBody, hNotes⟩ := hStruck.stable hRely
    refine ⟨body, hBody, ?_⟩
    rw [notes_own hOwner, hNotes, List.append_assoc, List.cons_append]
  refine ⟨.inr ⟨live, _, hTail choice w'.state hKnown hRely.feeds, hAfter⟩, ?_⟩
  exact hNext choice w'.state _ hKnown hRely.feeds rfl hAfter _

/-- One operation of recovery that notes the same whatever its reply. -/
theorem HandlerSafe.mended {op : Op} {next : op.Reply → Code α} {live : Bool}
    {tail : List GuardNote} (noted : List GuardNote) (hOwner : request.owner = context.thread)
    (hStruck : context.Struck live tail w)
    (hNoted : ∀ reply s, (context.opNote op reply s).toList = noted)
    (hTail : tail ++ noted <+: context.mending live)
    (hNext : ∀ reply w', (op.closes = false → context.feeds w'.state = context.feeds w.state) →
      context.Struck live (tail ++ noted) w' →
      HandlerSafe config context request post (next reply) w') :
    HandlerSafe config context request post (.call (S := signature) op next) w := by
  apply HandlerSafe.mend hOwner hStruck
  · intro choice s _ _
    rw [hNoted]
    exact hTail
  · intro choice s w' _ hFeeds hState hAfter
    rw [hNoted] at hAfter
    refine hNext _ w' (fun hCloses => ?_) hAfter
    rw [hState, CallbackContext.feeds_perform hCloses, hFeeds]

/-- The last operation of recovery that matters. -/
theorem HandlerSafe.poison {op : Op} {next : op.Reply → Code α} {live : Bool}
    {tail : List GuardNote} (hOwner : request.owner = context.thread)
    (hStruck : context.Struck live tail w)
    (hOp : op = context.setPoisoned)
    (hTail : context.mending live = tail ++ [.settled .poisoned])
    (hNext : ∀ reply w', context.Recovered w' →
      HandlerSafe config context request post (next reply) w') :
    HandlerSafe config context request post (.call (S := signature) op next) w := by
  subst hOp
  apply HandlerSafe.mend hOwner hStruck
  · intro choice s _ _
    rw [hTail, context.opNote_setPoisoned]
    exact List.prefix_rfl
  · intro choice s w' _ _ hState hAfter
    rw [context.opNote_setPoisoned, Option.toList_some, ← hTail] at hAfter
    refine hNext _ w' ⟨?_, live, hAfter⟩
    rw [hState]
    exact context.poisoned_setPoisoned choice s

variable {key : StreamKey} {event : StreamEvent}

theorem opNote_stream {op : StreamOp} (reply : op.Reply) (s : State) :
    (CallbackContext.stream key).opNote (.stream key op) reply s =
      op.guardNote reply (s.stream key) := if_pos rfl

theorem opNote_receiveTerminalSent {choice : Choice} (s : State) :
    (CallbackContext.stream key).opNote (.stream key .receiveTerminalSent)
      ((Op.stream key .receiveTerminalSent).perform config choice s).1 s =
      if (s.stream key).receiveTerminalSent then some (.settled .receive) else none := by
  rw [opNote_stream]
  change StreamOp.guardNote .receiveTerminalSent (s.stream key).receiveTerminalSent _ = _
  cases (s.stream key).receiveTerminalSent <;> rfl

/-- The end of recovery of a stream. -/
theorem handlerSafe_resolveStart {live : Bool} {tail : List GuardNote}
    (hStruck : (CallbackContext.stream key).Struck live tail w)
    (hTail : (CallbackContext.stream key).mending live = tail ++ [.settled .start, .settled .poisoned]) :
    HandlerSafe config (.stream key) (.stream key event) (CallbackContext.stream key).Recovered (do
      onStream key (.resolveStart (.error internalErrorStatus))
      onStream key .setPoisoned
      return (.error internalErrorStatus : Except Status Unit)) w := by
  refine HandlerSafe.mended [.settled .start] rfl hStruck (fun reply s => ?_) ?_ ?_
  · rw [opNote_stream]
    rfl
  · rw [hTail]
    exact ⟨[.settled .poisoned], by simp⟩
  · intro _ w _ hStruck
    refine HandlerSafe.poison rfl hStruck rfl ?_ fun _ w hRecovered _ => hRecovered
    rw [hTail]
    simp

/-- The receive channel is ended behind a terminal, unless it was ended before. -/
theorem handlerSafe_recoverReceive {live : Bool} (hLive : (w.state.stream key).receive.sender = live)
    (hStruck : (CallbackContext.stream key).Struck live
      [.forced, .settled .winner, .settled .send] w) :
    HandlerSafe config (.stream key) (.stream key event) (CallbackContext.stream key).Recovered (do
      publishRecvTerminal key (.internal "stream callback panicked")
      onStream key (.resolveStart (.error internalErrorStatus))
      onStream key .setPoisoned
      return (.error internalErrorStatus : Except Status Unit)) w := by
  have hShut : ∀ s, ContextSound s →
      (CallbackContext.stream key).feeds s = (CallbackContext.stream key).feeds w.state →
      (s.stream key).receiveTerminalSent = true → live = false := by
    intro s hSound hFeeds hSent
    exact hLive.symm.trans (hFeeds.symm.trans (hSound.ended key hSent))
  refine HandlerSafe.mend rfl hStruck (fun choice s hSound hFeeds => ?_) ?_
  · rw [opNote_receiveTerminalSent]
    split
    next hSent =>
      rw [hShut s hSound hFeeds hSent]
      exact ⟨_, rfl⟩
    · exact ⟨_, rfl⟩
  intro choice s w hSound hFeeds hState hAfter
  rw [opNote_receiveTerminalSent] at hAfter
  change HandlerSafe config _ _ _ ((if (s.stream key).receiveTerminalSent then _ else _) >>= _) w
  cases hSent : (s.stream key).receiveTerminalSent with
  | true =>
      rw [hShut s hSound hFeeds hSent] at hAfter
      rw [hSent, if_pos rfl] at hAfter
      exact handlerSafe_resolveStart hAfter rfl
  | false =>
      rw [hSent, if_neg Bool.false_ne_true] at hAfter
      have hLive : (w.state.stream key).receive.sender = live := by
        have hSame : (CallbackContext.stream key).feeds w.state =
            (CallbackContext.stream key).feeds s := by
          rw [hState]
          exact CallbackContext.feeds_perform rfl
        exact hSame.trans (hFeeds.trans hLive)
      have hNote : ∀ message choice s, (CallbackContext.stream key).feeds s =
          (CallbackContext.stream key).feeds w.state →
          (CallbackContext.stream key).opNote (.stream key (.sendReceive (.internal message)))
            ((Op.stream key (.sendReceive (.internal message))).perform config choice s).1 s =
            if live then some (.sent (.internal message)) else none := by
        intro message choice s hFeeds
        have hSender : (s.stream key).receive.sender = live := hFeeds.trans hLive
        rw [opNote_stream, StreamOp.guardNote, hSender]
      refine HandlerSafe.mend rfl hAfter (fun choice s _ hFeeds => ?_) ?_
      · rw [hNote _ choice s hFeeds]
        cases live <;> exact ⟨_, rfl⟩
      intro choice s w _ hFeeds _ hAfter
      rw [hNote _ choice s hFeeds] at hAfter
      refine HandlerSafe.mended [.settled .receive] rfl hAfter (fun _ _ => ?_) ?_ fun _ w _ hStruck => ?_
      · rw [opNote_stream]
        rfl
      · cases live <;> exact ⟨_, rfl⟩
      · exact handlerSafe_resolveStart hStruck (by cases live <;> rfl)

theorem handlerSafe_streamRecover {live : Bool} (hLive : (w.state.stream key).receive.sender = live)
    (hStruck : (CallbackContext.stream key).Struck live [] w) :
    HandlerSafe config (.stream key) (.stream key event) (CallbackContext.stream key).Recovered
      (streamRecover key) w := by
  refine HandlerSafe.mended [.forced] rfl hStruck (fun _ _ => ?_) ⟨_, rfl⟩ fun _ w hFeeds hStruck => ?_
  · rw [opNote_stream]
    rfl
  have hLive := (hFeeds rfl).trans hLive
  refine HandlerSafe.mended [.settled .winner] rfl hStruck (fun _ _ => ?_) ⟨_, rfl⟩ fun _ w hFeeds hStruck => ?_
  · rw [opNote_stream]
    rfl
  have hLive := (hFeeds rfl).trans hLive
  refine HandlerSafe.mended [] rfl hStruck (fun _ _ => ?_) ⟨_, rfl⟩ fun _ w hFeeds hStruck => ?_
  · rw [opNote_stream]
    rfl
  have hLive := (hFeeds rfl).trans hLive
  refine HandlerSafe.mended [.settled .send] rfl hStruck (fun _ _ => ?_) ⟨_, rfl⟩ fun _ w hFeeds hStruck => ?_
  · rw [opNote_stream]
    rfl
  exact handlerSafe_recoverReceive ((hFeeds rfl).trans hLive) hStruck

theorem handlerSafe_connectionRecover {event : ConnectionEvent}
    (hStruck : CallbackContext.connection.Struck false [] w) :
    HandlerSafe config .connection (.connection event) CallbackContext.connection.Recovered
      connectionRecover w := by
  have hRest : ∀ w, CallbackContext.connection.Struck false [] w →
      HandlerSafe config .connection (.connection event) CallbackContext.connection.Recovered (do
        onConn (.forceShutdown h3InternalError)
        onConn (.recordConnTerminal (.internal "connection callback panicked"))
        onConn (.sendConnected (.error internalErrorStatus))
        wakeAcceptors
        onConn .sendShutdown
        onConn .setPoisoned
        if ← onConn .streamOwned then return .ok ()
        else return (.error internalErrorStatus : Except Status Unit)) w := by
    intro w hStruck
    refine HandlerSafe.mended [.forced] rfl hStruck (fun _ _ => rfl) ⟨_, rfl⟩ fun _ w _ hStruck => ?_
    refine HandlerSafe.mended [.settled .cause] rfl hStruck (fun _ _ => rfl) ⟨_, rfl⟩
      fun _ w _ hStruck => ?_
    refine HandlerSafe.mended [.settled .connected] rfl hStruck (fun _ _ => rfl) ⟨_, rfl⟩
      fun _ w _ hStruck => ?_
    refine HandlerSafe.mended [.settled .uni] rfl hStruck (fun _ _ => rfl) ⟨_, rfl⟩
      fun _ w _ hStruck => ?_
    refine HandlerSafe.mended [.settled .bidi] rfl hStruck (fun _ _ => rfl) ⟨_, rfl⟩
      fun _ w _ hStruck => ?_
    refine HandlerSafe.mended [.settled .shutdown] rfl hStruck (fun _ _ => rfl) ⟨_, rfl⟩
      fun _ w _ hStruck => ?_
    refine HandlerSafe.poison rfl hStruck rfl rfl fun _ w hRecovered events w' hRely _ _ choice _ => ?_
    have hAfter : CallbackContext.connection.Recovered ((adapter config).advance choice
        (.connection event) (.conn .streamOwned) w') :=
      (hRecovered.stable hRely).silent rfl rfl fun _ _ => rfl
    refine ⟨hAfter.orderly, ?_⟩
    cases ((adapter config).perform choice (.conn .streamOwned) w'.state).1 <;> exact hAfter
  intro events
  refine HandlerSafe.mended [] rfl hStruck (fun _ _ => rfl) ⟨_, rfl⟩ (fun held w _ hStruck => ?_) events
  cases held with
  | none => exact hRest w hStruck
  | some key =>
      refine HandlerSafe.mended [] rfl hStruck (fun _ _ => rfl) ⟨_, rfl⟩ fun _ w _ hStruck => ?_
      exact hRest w hStruck

/-- A point of a handler where a panic may strike. -/
theorem handlerSafe_ask {op : Op} {next : op.Reply → Code α} (struck : op.Reply → Bool)
    (hOwner : request.owner = context.thread)
    (hNote : ∀ reply s, context.opNote op reply s =
      if struck reply then some (.struck (context.feeds s)) else none)
    (hPoisoned : ∀ choice s, context.poisoned (op.perform config choice s).2 = context.poisoned s)
    (hCloses : op.closes = false) (hCalm : context.Calm w)
    (hSpared : ∀ reply w', struck reply = false → context.Calm w' →
      HandlerSafe config context request post (next reply) w')
    (hStruck : ∀ reply w', struck reply = true → context.Struck (context.feeds w'.state) [] w' →
      HandlerSafe config context request post (next reply) w') :
    HandlerSafe config context request post (.call (S := signature) op next) w := by
  intro events w' hRely _ _ choice _
  obtain ⟨hSane, hPlain⟩ := hCalm.stable hRely
  have hNotes : context.notes ((adapter config).advance choice request op w').trace = _ :=
    notes_own hOwner op
  rw [hNote] at hNotes
  cases hReply : struck (op.perform config choice w'.state).1 with
  | false =>
      rw [hReply, if_neg Bool.false_ne_true, Option.toList_none, List.append_nil] at hNotes
      have hAfter : context.Calm ((adapter config).advance choice request op w') :=
        ⟨(hPoisoned choice _).trans hSane, hNotes ▸ hPlain⟩
      exact ⟨hAfter.orderly, hSpared _ _ hReply hAfter _⟩
  | true =>
      rw [hReply, if_pos rfl] at hNotes
      have hAfter : context.Struck (context.feeds w'.state) []
          ((adapter config).advance choice request op w') := ⟨_, hPlain, hNotes⟩
      refine ⟨.inr ⟨_, [], List.nil_prefix, hAfter⟩, hStruck _ _ hReply ?_ _⟩
      rw [Machine.advance_state, adapter_perform, CallbackContext.feeds_perform hCloses]
      exact hAfter

/-- A body under containment. -/
theorem handlerSafe_guarded {ask : Nat → Code Bool} {recover body : Code (Except Status Unit)}
    (hAsk : ∀ k (next : Bool → Code (Except Status Unit)) w, context.Calm w →
      (∀ w', context.Calm w' → HandlerSafe config context request context.Idle (next false) w') →
      (∀ w', context.Struck (context.feeds w'.state) [] w' →
        HandlerSafe config context request context.Idle (next true) w') →
      HandlerSafe config context request context.Idle (ask k >>= next) w)
    (hOwner : request.owner = context.thread)
    (hRecover : ∀ w, context.Struck (context.feeds w.state) [] w →
      HandlerSafe config context request context.Recovered recover w)
    (hBody : body.Uses fun op : Op => op.contains = false) (hCalm : context.Calm w) :
    HandlerSafe config context request context.Idle (Program.guarded ask recover 0 body) w := by
  intro events
  apply Machine.safe_guarded_of_uses context.Calm
    (fun w => context.Struck (context.feeds w.state) [] w)
  · exact fun _ _ h hRely => h.stable hRely
  · intro op hOp w choice _ _ hCalm _
    exact ⟨(hCalm.body hOwner hOp).orderly, hCalm.body hOwner hOp⟩
  · intro k events w next hCalm hSpared hStruck
    exact hAsk k next w hCalm (fun w' h events => hSpared events w' h)
      (fun w' h events => hStruck events w' h) events
  · intro events w hStruck
    exact (hRecover w hStruck events).mono fun _ _ _ h => .inr h
  · exact fun _ _ _ h => .inl h
  · exact hBody
  · exact hCalm

theorem handlerSafe_guardCallback {op : Op} {next : op.Reply → Code α} (poisoned : op.Reply → Bool)
    (hOwner : request.owner = context.thread) (hOp : op.contains = false)
    (hNote : ∀ reply s, context.opNote op reply s = none)
    (hReply : ∀ choice s, poisoned (op.perform config choice s).1 = context.poisoned s)
    (hIdle : context.Idle w)
    (hPoisoned : ∀ reply w', poisoned reply = true → context.Idle w' →
      HandlerSafe config context request context.Idle (next reply) w')
    (hSane : ∀ reply w', poisoned reply = false → context.Calm w' →
      HandlerSafe config context request context.Idle (next reply) w') :
    HandlerSafe config context request context.Idle (.call (S := signature) op next) w := by
  intro events w' hRely _ _ choice _
  have hBefore := hIdle.stable hRely
  rcases hBefore with hCalm | hRecovered
  · have hAfter : context.Calm ((adapter config).advance choice request op w') :=
      hCalm.body hOwner hOp
    refine ⟨hAfter.orderly, ?_⟩
    exact hSane _ _ ((hReply choice _).trans hCalm.sane) hAfter _
  · have hAfter : context.Recovered ((adapter config).advance choice request op w') :=
      hRecovered.silent hOwner hOp hNote
    refine ⟨hAfter.orderly, ?_⟩
    exact hPoisoned _ _ ((hReply choice _).trans hRecovered.poisoned) (.inr hAfter) _

theorem contains_of_bodyPermits {op : Op} (h : bodyPermits key event op) : op.contains = false := by
  cases op with
  | conn op => cases op <;> first | rfl | cases h
  | stream target op =>
      have hOp := h.2
      cases op <;> first | rfl | cases hOp

theorem contains_of_connBodyPermits {op : Op} (h : connBodyPermits op) : op.contains = false := by
  cases op with
  | conn op => cases op <;> first | rfl | cases h
  | stream target op => exact h.elim

theorem handlerSafe_streamHandler (hIdle : (CallbackContext.stream key).Idle w) :
    HandlerSafe config (.stream key) (.stream key event) (CallbackContext.stream key).Idle
      (streamHandler key event) w := by
  refine handlerSafe_guardCallback id rfl rfl (fun _ _ => ?_) (fun _ _ => rfl) hIdle ?_ ?_
  · rw [opNote_stream]
    rfl
  · rintro reply w rfl hIdle
    exact fun _ => hIdle
  · rintro reply w rfl hCalm
    refine handlerSafe_guarded (fun k next w hCalm hSpared hStruck => ?_) rfl
      (fun w hStruck => handlerSafe_streamRecover rfl hStruck)
      ((uses_streamCallback key event).mono fun _ => contains_of_bodyPermits) hCalm
    refine handlerSafe_ask id rfl (fun reply s => ?_) (fun choice s => ?_) rfl hCalm ?_ ?_
    · rw [opNote_stream]
      cases reply <;> rfl
    · exact CallbackContext.poisoned_perform nofun
    · rintro _ w rfl hCalm
      exact hSpared w hCalm
    · rintro _ w rfl hAfter
      exact hStruck w hAfter

theorem handlerSafe_connectionHandler {event : ConnectionEvent}
    (hIdle : CallbackContext.connection.Idle w) :
    HandlerSafe config .connection (.connection event) CallbackContext.connection.Idle
      (connectionHandler event) w := by
  have hGuard : ∀ w, CallbackContext.connection.Idle w →
      HandlerSafe config .connection (.connection event) CallbackContext.connection.Idle
        (guardCallback (onConn .isPoisoned) (fun k => onConn (.panicPoint k)) (connPoisonDisp event)
          (connectionCallback event) connectionRecover) w := by
    intro w hIdle
    refine handlerSafe_guardCallback id rfl rfl (fun _ _ => rfl) (fun _ _ => rfl) hIdle ?_ ?_
    · rintro reply w rfl hIdle
      exact fun _ => hIdle
    · rintro reply w rfl hCalm
      refine handlerSafe_guarded (fun k next w hCalm hSpared hStruck => ?_) rfl
        (fun w hStruck => handlerSafe_connectionRecover hStruck)
        ((uses_connectionCallback event).mono fun _ => contains_of_connBodyPermits) hCalm
      refine handlerSafe_ask id rfl (fun reply _ => ?_) (fun choice s => ?_) rfl hCalm ?_ ?_
      · cases reply <;> rfl
      · exact CallbackContext.poisoned_perform nofun
      · rintro _ w rfl hCalm
        exact hSpared w hCalm
      · rintro _ w rfl hAfter
        exact hStruck w hAfter
  intro events w' hRely _ _ choice _
  have hAfter : CallbackContext.connection.Idle ((adapter config).advance choice
      (.connection event) (.conn .resetStreamOwned) w') := by
    rcases hIdle.stable hRely with hCalm | hRecovered
    · exact .inl (hCalm.body rfl rfl)
    · exact .inr (hRecovered.silent rfl rfl fun _ _ => rfl)
  exact ⟨hAfter.orderly, hGuard _ hAfter _⟩

end Code

end Containment

section Final

variable {config : H3Config}

theorem handlerSafe_entry (context : CallbackContext) {request : Request} {w : AdapterWorld}
    (hOwner : request.owner = context.thread) (hIdle : context.Idle w) :
    (adapter config).Safe (fun w => ContextSound w.state) context.Orderly context.Rely request
      (Machine.Straight fun _ _ w => context.Idle w) [] (request.entry config) w := by
  have hHandler : ∀ handler : Code (Except Status Unit),
      HandlerSafe config context request context.Idle handler w →
      (adapter config).Safe (fun w => ContextSound w.state) context.Orderly context.Rely request
        (Machine.Straight fun _ _ w => context.Idle w) [] (straight handler .callback) w := by
    intro handler h
    apply Machine.Safe.bind
    exact (h []).mono fun _ _ _ h => h
  cases context with
  | connection =>
      obtain ⟨event, rfl⟩ := owner_eq_connCallback hOwner
      exact hHandler _ (handlerSafe_connectionHandler hIdle)
  | stream key =>
      obtain ⟨event, rfl⟩ := owner_eq_streamCallback hOwner
      exact hHandler _ (handlerSafe_streamHandler hIdle)

/-- A handler leaves its context as it was, or recovered from the one panic. -/
def panicWatch (config : H3Config) (context : CallbackContext) :
    (adapter config).Watch {} context.thread where
  permits := permits
  known w := ContextSound w.state
  inv := context.Orderly
  rely := context.Rely
  idle := context.Idle
  post _ _ _ w := context.Idle w
  uses_entry := uses_entry config
  uses_body := uses_body
  rely_refl := .refl
  rely_trans := .trans
  stable w w' h _ _ hInv := CallbackContext.stable w w' h hInv
  init := .inl nofun
  idle_init := .inl ⟨by cases context <;> rfl, nofun⟩
  idle_stable _ _ h hRely := h.stable hRely
  begin request w state hOwner _ hInv hIdle hDeliver _ := by
    have hRely : context.Rely w (w.after (.begun request) state) :=
      CallbackContext.rely_begun hDeliver
    exact ⟨hInv.stable hRely, handlerSafe_entry context hOwner (hIdle.stable hRely)⟩
  finish request result events w w' _ hPost hRely _ hInv _ := by
    have hIdle := (hPost.stable hRely).stable (CallbackContext.rely_finished ⟨request, events, result⟩)
    exact ⟨hIdle.orderly, hIdle⟩

end Final

end MsQuicH3
