import Mathlib.Data.List.TakeWhile
import MsQuicH3.Concurrency.ChannelLog
import MsQuicH3.LifecycleFootprint

/-! The end of the connections of a listener. A completed stop and every contained panic
queue one sentinel each behind the delivered connections; the sender outlives them, so a
poll beyond the last sentinel finds an open and empty queue. -/
namespace MsQuicH3.Lifecycle

open Concurrency

/-- The use an operation makes of the accept queue of a listener. -/
def connUse (l : Nat) : (op : Op) → op.Reply → Option (Channel.Use (Option Nat))
  | .sendConn m message, sent => if m = l then some (.send message sent) else none
  | .pollConn m, reply => if m = l then some (.poll reply) else none
  | .closeListener m, _ => if m = l then some .dropSender else none
  | .dropReceiver m, _ => if m = l then some .dropReceiver else none
  | _, _ => none

/-- The uses of the accept queue of a listener, in order. -/
def connUses (l : Nat) (trace : List LifecycleLabel) : List (Channel.Use (Option Nat)) :=
  Machine.usesOf (connUse l) trace

/-- What was handed to the accept queue: connections and, as `none`, sentinels. -/
def queued (l : Nat) (trace : List LifecycleLabel) : List (Option Nat) :=
  Channel.sent (connUses l trace)

/-- What a `poll_accept` that resolved returned. -/
def Result.accepted : Result → Option (Option Nat)
  | .accept (.ready (.ok message)) => some message
  | _ => none

/-- What the `poll_accept` calls of a listener returned when they resolved, in order. -/
def accepted (l : Nat) (trace : List LifecycleLabel) : List (Option Nat) :=
  (lifecycle.callsOf (.frontend l) trace).filterMap fun call =>
    if call.request = .pollAccept l then call.result.accepted else none

/-- The application has not dropped the listener. -/
def Live (l : Nat) (trace : List LifecycleLabel) : Prop :=
  ∀ e, .event e ∈ trace → e.op ≠ .closeListener l

/-- No callback of the listener is left that could queue anything, and its frontend has
returned. -/
structure Over (l : Nat) (config : LifecycleConfig) : Prop where
  last : (config.state.listener l).stopped = true ∨ (config.state.listener l).poisoned = true
  callbacks : ∀ event, config.active (.callback l event) = none
  frontend : config.active (.frontend l) = none

section Queue

variable (l : Nat)

theorem connUse_foreign {op : Op} (reply : op.Reply) (h : op.context ≠ some l) :
    connUse l op reply = none := by
  cases op <;> simp_all [Op.context, connUse]

theorem connWired : lifecycle.Wired (fun s => (s.listener l).conn) (connUse l) := by
  constructor
  · exact fun request s s' h => deliver_context ListenerState.conn (fun _ _ _ _ => rfl) h
  · intro choice op s
    by_cases hOp : op.context = some l
    · cases op with
      | openListener m =>
          cases hOp
          simp only [connUse, lifecycle, Op.perform]
          split <;> simp
      | _ => cases hOp <;> simp [connUse, lifecycle, Op.perform, Channel.Use.On]
    · have hUse := connUse_foreign l ((lifecycle.perform choice op s).1) hOp
      simp only [hUse]
      exact congrArg ListenerState.conn (perform_of_foreign choice s hOp)

variable {l} {trace : List LifecycleLabel} {reached : LifecycleConfig}

/-- The history of an accept queue. -/
theorem connLog (run : Runs trace reached) :
    Channel.Log .unbounded (connUses l trace) (reached.state.listener l).conn :=
  Machine.Runs.log run (connWired l)

/-- A listener is closed before its queue is dropped. -/
theorem dropReceiver_preceded (request : Request) :
    (lifecycle.entry request).Preceded (fun op : Op => op = .closeListener l)
      fun op : Op => op = .dropReceiver l := by
  by_cases hRequest : request = .withConfig l ∨ request = .dropListener l
  · have hDrop : (dropListener l).Preceded (fun op : Op => op = .closeListener l)
        fun op : Op => op = .dropReceiver l := ⟨by simp, .inl rfl⟩
    have hOpen : (withConfig l).Preceded (fun op : Op => op = .closeListener l)
        fun op : Op => op = .dropReceiver l := by
      refine ⟨by simp, .inr fun _ => ⟨by simp, .inr fun opened => ?_⟩⟩
      cases opened with
      | error status => exact ⟨by simp, .inr fun _ => trivial⟩
      | ok _ =>
          refine ⟨by simp, .inr fun started => ?_⟩
          cases started with
          | error status => exact hDrop.bind fun _ => trivial
          | ok _ => exact ⟨by simp, .inr fun _ => trivial⟩
    rcases hRequest with rfl | rfl
    · exact hOpen.bind fun _ => trivial
    · exact hDrop.bind fun _ => trivial
  · apply Program.preceded_of_uses
    apply (uses_entry request).mono
    rintro op hPermits rfl
    exact hRequest hPermits

/-- Both ends of the queue of a live listener are there. -/
theorem conn_open (run : Runs trace reached) (hLive : Live l trace) :
    (reached.state.listener l).conn.sender = true ∧
      (reached.state.listener l).conn.receiver = true := by
  have hUse : ∀ e, .event e ∈ trace → connUse l e.op e.reply ≠ some .dropSender ∧
      connUse l e.op e.reply ≠ some .dropReceiver := by
    intro e he
    obtain ⟨request, op, reply, before, after⟩ := e
    have hOpen := hLive _ he
    have hClosed : op ≠ .dropReceiver l := by
      intro hOp
      obtain ⟨first, hFirst, hClose⟩ :=
        Machine.Runs.preceded dropReceiver_preceded (fun _ loop => loop.elim) run he hOp
      exact hLive first hFirst hClose
    cases op with
    | closeListener m =>
        have hNe : m ≠ l := fun hEq => hOpen (by rw [hEq])
        simp [connUse, hNe]
    | dropReceiver m =>
        have hNe : m ≠ l := fun hEq => hClosed (by rw [hEq])
        simp [connUse, hNe]
    | sendConn m message => simp only [connUse]; split <;> simp
    | pollConn m => simp only [connUse]; split <;> simp
    | _ => simp [connUse]
  have hLog := connLog (l := l) run
  constructor
  · cases hSender : (reached.state.listener l).conn.sender with
    | true => rfl
    | false =>
        obtain ⟨e, he, hDrop⟩ := Machine.mem_usesOf.1 (hLog.dropped rfl hSender)
        exact absurd hDrop (hUse e he).1
  · apply hLog.receiver rfl
    intro hMem
    obtain ⟨e, he, hDrop⟩ := Machine.mem_usesOf.1 hMem
    exact (hUse e he).2 hDrop

/-- Only the callbacks of a listener fill its queue. -/
theorem callback_of_queued (run : Runs trace reached) {e : LifecycleEvent} (he : .event e ∈ trace)
    {message : Option Nat} (hUse : connUse l e.op e.reply = some (.send message true)) :
    ∃ event, e.request = .listener l event := by
  have hPermits := Machine.Runs.permitted uses_entry uses_body run he
  obtain ⟨request, op, reply, before, after⟩ := e
  cases op with
  | sendConn m sent =>
      simp only [connUse] at hUse
      split at hUse
      next hEq =>
        subst hEq
        cases sent with
        | none => exact hPermits
        | some n => exact ⟨_, hPermits⟩
      · cases hUse
  | pollConn m => simp only [connUse] at hUse; split at hUse <;> cases hUse
  | closeListener m => simp only [connUse] at hUse; split at hUse <;> cases hUse
  | dropReceiver m => simp only [connUse] at hUse; split at hUse <;> cases hUse
  | _ => cases hUse

end Queue

section Over

variable {l : Nat} {start reached : LifecycleConfig} {trace : List LifecycleLabel}

theorem perform_poisoned (choice : Choice) (op : Op) (s : State)
    (h : (s.listener l).poisoned = true) :
    ((op.perform choice s).2.listener l).poisoned = true := by
  by_cases hOp : op.context = some l
  · cases op with
    | openListener m =>
        cases hOp
        simp only [Op.perform]
        split <;> simpa using h
    | setPoisoned m =>
        cases hOp
        simp [Op.perform]
    | _ => cases hOp <;> simpa [Op.perform] using h
  · rw [perform_of_foreign choice s hOp]
    exact h

theorem perform_stopped (choice : Choice) (op : Op) (s : State)
    (h : (s.listener l).stopped = true) :
    ((op.perform choice s).2.listener l).stopped = true := by
  by_cases hOp : op.context = some l
  · cases op with
    | openListener m =>
        cases hOp
        simp only [Op.perform]
        split <;> simpa using h
    | _ => cases hOp <;> simpa [Op.perform] using h
  · rw [perform_of_foreign choice s hOp]
    exact h

theorem request_of_callback {request : Request} {event : ListenerEvent}
    (h : request.owner = .callback l event) : request = .listener l event := by
  cases request <;> simp_all [Request.owner]

/-- An operation that hands nothing to the queue of the listener. -/
def Mute (l : Nat) (e : LifecycleEvent) : Prop :=
  ∀ message, connUse l e.op e.reply ≠ some (.send message true)

/-- Code of a request that queues nothing from a state in `P` on. -/
def MuteFrom (l : Nat) (P : State → Prop) (request : Request) : Prop :=
  lifecycle.Steady P (Mute l) (fun outcome => ∃ result, outcome = .inr result ∧ True) request
    (lifecycle.entry request)

/-- On a poisoned listener a callback queues nothing. -/
theorem mute_poisoned (event : ListenerEvent) :
    MuteFrom l (fun s => (s.listener l).poisoned = true) (.listener l event) := by
  intro choice s hPoisoned
  refine ⟨fun message hUse => by simp [connUse] at hUse, ?_⟩
  have hReply : (lifecycle.perform choice (.isPoisoned l) s).1 = true := hPoisoned
  rw [hReply]
  exact ⟨_, rfl, trivial⟩

/-- A thread without anything in progress whose requests queue nothing. -/
theorem mute_of_idle {P : State → Prop} {event : ListenerEvent}
    (run : lifecycle.Runs start trace reached)
    (hDeliver : ∀ request s s', lifecycle.deliver request s = some s' → P s → P s')
    (hPerform : ∀ choice op s, P s → P (lifecycle.perform choice op s).2) (hStart : P start.state)
    (hMute : ∀ s s', P s → deliver (.listener l event) s = some s' → MuteFrom l P (.listener l event))
    (hOwner : ∀ thread a, start.active thread = some a → lifecycle.owner a.request = thread)
    (hIdle : start.active (.callback l event) = none) {e : LifecycleEvent} (he : .event e ∈ trace)
    (hRequest : e.request = .listener l event) : Mute l e := by
  have hEntry : ∀ request s s', lifecycle.owner request = .callback l event → P s →
      lifecycle.deliver request s = some s' → MuteFrom l P request := by
    intro request s s' hThread hBefore hDelivered
    obtain rfl : request = .listener l event := by
      change request.owner = _ at hThread
      cases request <;> simp_all [Request.owner]
    exact hMute s s' hBefore hDelivered
  have hSteady := run.steady hDeliver hPerform hStart hEntry hOwner hIdle
  exact hSteady.1 e he (by rw [hRequest]; rfl)

/-- Nothing is queued any more once the callbacks are over. -/
theorem Over.silent {earlier : List LifecycleLabel} (prior : Runs earlier start) (h : Over l start)
    (run : lifecycle.Runs start trace reached) : queued l trace = [] := by
  have hOwner : ∀ thread a, start.active thread = some a → lifecycle.owner a.request = thread :=
    fun thread a hActive => ((Machine.Runs.call_events prior).1 thread a hActive).1
  have hMute : ∀ event e, .event e ∈ trace → e.request = .listener l event → Mute l e := by
    intro event e he hRequest
    by_cases hPoisoned : (start.state.listener l).poisoned = true
    · refine mute_of_idle run ?_ perform_poisoned hPoisoned (fun _ _ _ _ => mute_poisoned event)
        hOwner (h.callbacks event) he hRequest
      intro request s s' hDeliver hBefore
      rw [deliver_context ListenerState.poisoned (fun _ _ _ _ => rfl) hDeliver]
      exact hBefore
    · refine mute_of_idle run (fun _ _ _ => deliver_stopped)
        perform_stopped (h.last.resolve_right hPoisoned) ?_ hOwner (h.callbacks event) he hRequest
      intro s s' hStopped hDeliver
      cases event with
      | newConnection n => simp [deliver, hStopped] at hDeliver
      | stopComplete => simp [deliver, hStopped] at hDeliver
  rw [queued, Channel.sent, List.filterMap_eq_nil_iff]
  intro use hUse
  obtain ⟨e, he, hEvent⟩ := Machine.mem_usesOf.1 hUse
  cases use with
  | send message sent =>
      cases sent with
      | false => rfl
      | true =>
          obtain ⟨event, hRequest⟩ := callback_of_queued (Machine.Runs.trans prior run)
            (List.mem_append_right _ he) hEvent
          exact absurd hEvent (hMute event e he hRequest message)
  | _ => rfl

end Over

section Calls

variable {l : Nat} {trace : List LifecycleLabel} {reached : LifecycleConfig}

/-- What the frontend makes of an answer of its queue. -/
def answer : Poll (Option (Option Nat)) → Poll (Except Status (Option Nat))
  | .pending => .pending
  | .ready message => .ready (.ok message.join)

theorem ends_pollAccept (l : Nat) :
    (lifecycle.entry (.pollAccept l)).Ends (fun _ _ => True) (fun op reply => (connUse l op reply).toList)
      (fun notes outcome => ∃ result, outcome = .inr result ∧
        ∃ reply, notes = [.poll reply] ∧ result = .accept (answer reply)) [] := by
  intro polled _
  have hNote : [] ++ (connUse l (.pollConn l) polled).toList = [.poll polled] := by simp [connUse]
  cases polled with
  | pending => exact ⟨_, rfl, _, hNote, rfl⟩
  | ready message =>
      cases message with
      | none => exact ⟨_, rfl, _, hNote, rfl⟩
      | some message =>
          cases message with
          | none => exact ⟨_, rfl, _, hNote, rfl⟩
          | some n => exact fun _ _ => ⟨_, rfl, _, (List.append_nil _).trans hNote, rfl⟩

/-- A `poll_accept` polls its queue once and returns the answer. -/
theorem pollAccept_answer (run : Runs trace reached) {call : Completed signature State Request Result}
    (hCall : .finished call ∈ trace) (hRequest : call.request = .pollAccept l) :
    ∃ reply, call.events.flatMap (fun e => (connUse l e.op e.reply).toList) = [.poll reply] ∧
      call.result = .accept (answer reply) := by
  have hTranscript := (Machine.endsTranscript (fun request => request = .pollAccept l)
    (fun (_ : signature.Op) _ => True) (fun op reply => (connUse l op reply).toList)
    (fun _ notes result => ∃ reply, notes = [.poll reply] ∧ result = .accept (answer reply))
    (fun request hScope => by rw [hScope]; exact ends_pollAccept l)).sound run
  obtain ⟨result, hOutcome, hAnswer⟩ := hTranscript.2 call hCall hRequest (fun _ _ => trivial)
  cases hOutcome
  exact hAnswer

/-- What an operation takes from the queue. -/
def takenBy (l : Nat) (e : LifecycleEvent) : List (Option Nat) :=
  ((connUse l e.op e.reply).bind Channel.Use.taken).toList

theorem pollAccept_of_taken (run : Runs trace reached) {e : LifecycleEvent} (he : .event e ∈ trace)
    (hTaken : takenBy l e ≠ []) : e.request = .pollAccept l := by
  have hPermits := Machine.Runs.permitted uses_entry uses_body run he
  obtain ⟨request, op, reply, before, after⟩ := e
  unfold takenBy at hTaken
  cases op with
  | pollConn m =>
      by_cases hEq : m = l
      · subst hEq
        exact hPermits
      · simp [connUse, hEq] at hTaken
  | sendConn m message =>
      simp only [connUse] at hTaken
      split at hTaken <;> cases reply <;> simp [Channel.Use.taken] at hTaken
  | closeListener m =>
      simp only [connUse] at hTaken
      split at hTaken <;> simp [Channel.Use.taken] at hTaken
  | dropReceiver m =>
      simp only [connUse] at hTaken
      split at hTaken <;> simp [Channel.Use.taken] at hTaken
  | _ => simp [connUse] at hTaken

/-- On a live listener no poll finds the queue closed. -/
theorem poll_ne_ended (run : Runs trace reached) (hLive : Live l trace) {e : LifecycleEvent}
    (he : .event e ∈ trace) : connUse l e.op e.reply ≠ some (.poll (.ready none)) := by
  intro hUse
  have hEnded := (connLog run).ended (Machine.mem_usesOf.2 ⟨e, he, hUse⟩)
  rw [(conn_open run hLive).1] at hEnded
  cases hEnded.1

/-- What was taken was returned, but for what a call has in hand. -/
theorem taken_accepted (run : Runs trace reached) (hLive : Live l trace) :
    Channel.taken (connUses l trace) = accepted l trace ++
      (Machine.inProgress (.frontend l) reached).flatMap (takenBy l) := by
  have hForeign : ∀ e, .event e ∈ trace → lifecycle.owner e.request ≠ .frontend l →
      takenBy l e = [] := by
    intro e he hOwner
    by_contra hTaken
    rw [pollAccept_of_taken run he hTaken] at hOwner
    exact hOwner rfl
  have hNoted : Channel.taken (connUses l trace) = trace.flatMap (Machine.noted (takenBy l)) := by
    rw [Channel.taken, connUses, Machine.usesOf, List.filterMap_filterMap,
      List.filterMap_eq_flatMap_toList]
    congr 1
    funext label
    cases label <;> rfl
  rw [hNoted, Machine.Runs.notes_by_call run hForeign, accepted, List.filterMap_eq_flatMap_toList]
  congr 1
  apply List.flatMap_congr
  intro call hMem
  obtain ⟨hCall, -⟩ := Machine.mem_callsOf.1 hMem
  have hEvents := (Machine.Runs.call_events run).2 call hCall
  by_cases hRequest : call.request = .pollAccept l
  · obtain ⟨reply, hUses, hResult⟩ := pollAccept_answer run hCall hRequest
    have hTaken : call.events.flatMap (takenBy l) =
        (call.events.flatMap fun e => (connUse l e.op e.reply).toList).filterMap Channel.Use.taken := by
      rw [List.filterMap_flatMap]
      apply List.flatMap_congr
      intro e _
      unfold takenBy
      cases hUse : connUse l e.op e.reply with
      | none => rfl
      | some use => cases hUsed : use.taken <;> simp [hUsed]
    rw [hTaken, hUses, if_pos hRequest, hResult]
    cases reply with
    | pending => rfl
    | ready message =>
        cases message with
        | some message => rfl
        | none =>
            have hMem : Channel.Use.poll (.ready none) ∈
                call.events.flatMap fun e => (connUse l e.op e.reply).toList := by
              rw [hUses]
              exact List.mem_singleton_self _
            obtain ⟨e, he, hUse⟩ := List.mem_flatMap.1 hMem
            exact absurd (Option.mem_toList.1 hUse) (poll_ne_ended run hLive (hEvents e he).2)
  · rw [if_neg hRequest, Option.toList_none, List.flatMap_eq_nil_iff]
    intro e he
    by_contra hTaken
    obtain ⟨hSame, hTrace⟩ := hEvents e he
    exact hRequest (hSame ▸ pollAccept_of_taken run hTrace hTaken)

end Calls

section Sentinel

variable {l : Nat} {trace : List LifecycleLabel} {reached : LifecycleConfig}

/-- The queue of a live listener takes everything it is handed. -/
theorem queued_of_sent (run : Runs trace reached) (hLive : Live l trace) {e : LifecycleEvent}
    (he : .event e ∈ trace) {message : Option Nat} (hOp : e.op = .sendConn l message) :
    message ∈ queued l trace := by
  obtain ⟨earlier, before, after, hPrefix, hBefore, -, hState, -, choice, hEvent⟩ :=
    Machine.Runs.around run he
  have hEarlier : Live l earlier := fun first hFirst =>
    hLive first (hPrefix.subset (List.mem_append_left _ hFirst))
  obtain ⟨hSender, hReceiver⟩ := conn_open hBefore hEarlier
  rw [hState] at hSender hReceiver
  apply List.mem_filterMap.2
  refine ⟨.send message true, Machine.mem_usesOf.2 ⟨e, he, ?_⟩, rfl⟩
  obtain ⟨request, op, reply, first, last⟩ := e
  cases hOp
  have hReply : reply = true := by
    rw [eq_of_heq (Event.mk.inj hEvent).2.2.1]
    simp only at hSender hReceiver
    simp [lifecycle, Op.perform, Channel.unboundedSend, hSender, hReceiver]
  simp [connUse, hReply]

/-- Panic recovery queues a sentinel before it poisons the context. -/
theorem setPoisoned_preceded (request : Request) :
    (lifecycle.entry request).Preceded (fun op : Op => op = .sendConn l none)
      fun op : Op => op = .setPoisoned l := by
  by_cases hRequest : ∃ event, request = .listener l event
  · obtain ⟨event, rfl⟩ := hRequest
    have hRecover : ∀ locals, (listenerRecover l locals).Preceded
        (fun op : Op => op = .sendConn l none) fun op : Op => op = .setPoisoned l := by
      intro locals
      have hUnwind : (unwind locals.held).Uses fun op : Op => op ≠ .setPoisoned l :=
        uses_unwind (locals.held.all_of fun h => ⟨by simp, by simp, by simp⟩)
      exact (Program.preceded_of_uses hUnwind).bind fun _ => ⟨by simp, .inl rfl⟩
    have hBody : (listenerCallback l event).Preceded (fun op : Op => op = .sendConn l none)
        fun op : Op => op = .setPoisoned l := by
      apply Program.preceded_of_uses
      apply (uses_listenerCallback l event).mono
      rintro op ⟨-, hGuard⟩ rfl
      cases hGuard
    refine ⟨by simp, .inr fun poisoned => ?_⟩
    cases poisoned with
    | true => trivial
    | false =>
        have hAsk : ∀ k, (issue (.panicPoint k)).Preceded (fun op : Op => op = .sendConn l none)
            fun op : Op => op = .setPoisoned l := fun k => ⟨by simp, .inr fun _ => trivial⟩
        exact (Program.Preceded.guardedWith hAsk hRecover hBody 0 {}).bind fun _ => trivial
  · apply Program.preceded_of_uses
    apply (uses_entry request).mono
    rintro op hPermits rfl
    exact hRequest hPermits

/-- A poisoned context queued a sentinel. -/
theorem queued_of_poisoned (run : Runs trace reached) (hLive : Live l trace)
    (h : (reached.state.listener l).poisoned = true) : none ∈ queued l trace := by
  have hKept : lifecycle.Kept permits fun w : LifecycleWorld =>
      (w.state.listener l).poisoned = true → ∃ e, .event e ∈ w.trace ∧ e.op = .setPoisoned l := by
    constructor
    · intro w request s hDeliver hBefore hPoisoned
      rw [World.after_state,
        deliver_context ListenerState.poisoned (fun _ _ _ _ => rfl) hDeliver] at hPoisoned
      obtain ⟨e, he, hOp⟩ := hBefore hPoisoned
      exact ⟨e, List.mem_append_left _ he, hOp⟩
    · intro w request op choice _ hBefore hPoisoned
      rw [Machine.advance_state] at hPoisoned
      by_cases hOp : op = .setPoisoned l
      · exact ⟨_, List.mem_append_right _ (List.mem_singleton_self _), hOp⟩
      · have hSame : ((op.perform choice w.state).2.listener l).poisoned =
            (w.state.listener l).poisoned := by
          by_cases hContext : op.context = some l
          · cases op with
            | setPoisoned m =>
                cases hContext
                exact absurd rfl hOp
            | openListener m =>
                cases hContext
                simp only [Op.perform]
                split <;> simp
            | _ => cases hContext <;> simp [Op.perform]
          · rw [perform_of_foreign choice w.state hContext]
        obtain ⟨e, he, hSet⟩ := hBefore (hSame ▸ hPoisoned)
        exact ⟨e, List.mem_append_left _ he, hSet⟩
    · intro w call hBefore hPoisoned
      obtain ⟨e, he, hOp⟩ := hBefore hPoisoned
      exact ⟨e, List.mem_append_left _ he, hOp⟩
  obtain ⟨e, he, hSet⟩ := hKept.holds uses_entry uses_body run (fun hInit => by cases hInit) h
  obtain ⟨first, hFirst, hSend⟩ :=
    Machine.Runs.preceded setPoisoned_preceded (fun _ loop => loop.elim) run he hSet
  exact queued_of_sent run hLive hFirst hSend

/-- What a completed stop either meets or does. -/
def stopNote (l : Nat) : (op : Op) → op.Reply → List Unit
  | .isPoisoned m, true => if m = l then [()] else []
  | .sendConn m none, _ => if m = l then [()] else []
  | _, _ => []

theorem ends_listenerRecover (locals : Locals) (notes : List Unit) :
    (listenerRecover l locals).Ends (fun _ _ => True) (stopNote l) (fun notes _ => notes ≠ []) notes := by
  have hUnwind : (unwind locals.held).Uses fun op : signature.Op => ∀ reply, stopNote l op reply = [] :=
    uses_unwind (locals.held.all_of fun h => ⟨fun _ => rfl, fun _ => rfl, fun _ => rfl⟩)
  apply Program.Ends.bind
  apply Program.ends_of_uses hUnwind
  apply (Program.yields_true _).mono
  intro _ _ sent _ _ _ _ _
  change (if locals.owned = true then _ else _ : Code (Except Status Unit)).Ends _ _ _ _
  split <;> simp [stopNote, Program.Ends]

theorem ends_stopComplete (l : Nat) :
    (lifecycle.entry (.listener l .stopComplete)).Ends (fun _ _ => True) (stopNote l)
      (fun notes outcome => ∃ result, outcome = .inr result ∧ notes ≠ []) [] := by
  have hBody : (listenerCallback l .stopComplete).Follows Locals.keeps (fun _ _ => True)
      (stopNote l) (fun _ _ => True) (fun notes _ => notes ≠ []) {} [] := by
    intro sent _
    refine ⟨trivial, fun reply _ => ⟨trivial, ?_⟩⟩
    have hNotes : [] ++ stopNote l (.sendConn l none) sent ++ stopNote l (.sendShutdown l) reply ≠ [] := by
      simp [stopNote]
    exact hNotes
  have hHandler : (listenerHandler l .stopComplete).Ends (fun _ _ => True) (stopNote l)
      (fun notes _ => notes ≠ []) [] := by
    intro poisoned _
    cases poisoned with
    | true =>
        have hNotes : [] ++ stopNote l (.isPoisoned l) true ≠ [] := by simp [stopNote]
        exact hNotes
    | false =>
        have hAsk : ∀ k notes (next : Bool → Code (Except Status Unit)),
            (∀ struck, (next struck).Ends (fun _ _ => True) (stopNote l) (fun notes _ => notes ≠ []) notes) →
            (issue (.panicPoint k) >>= next).Ends (fun _ _ => True) (stopNote l)
              (fun notes _ => notes ≠ []) notes := by
          intro k notes next hNext struck _
          have hNote : notes ++ stopNote l (.panicPoint k) struck = notes := List.append_nil _
          rw [hNote]
          exact hNext struck
        exact Program.Ends.guardedWith hAsk (fun locals notes _ => ends_listenerRecover locals notes)
          hBody 0 trivial
  apply Program.Ends.bind
  apply hHandler.mono
  exact fun notes result hNotes => ⟨_, rfl, hNotes⟩

/-- A stopped listener was told so. -/
theorem begun_of_stopped (run : Runs trace reached)
    (h : (reached.state.listener l).stopped = true) :
    .begun (.listener l .stopComplete) ∈ trace := by
  have hKept : lifecycle.Kept permits fun w : LifecycleWorld =>
      (w.state.listener l).stopped = true → .begun (.listener l .stopComplete) ∈ w.trace := by
    constructor
    · intro w request s hDeliver hBefore hStopped
      rcases @deliver_cases l _ _ _ hDeliver with
        hSame | ⟨n, -, hOpen, hSame⟩ | ⟨rfl, -, -⟩ | ⟨-, hSame⟩
      · exact List.mem_append_left _ (hBefore (hSame ▸ hStopped))
      · rw [World.after_state, hSame, hOpen] at hStopped
        cases hStopped
      · exact List.mem_append_right _ (List.mem_singleton_self _)
      · rw [World.after_state, hSame] at hStopped
        exact List.mem_append_left _ (hBefore hStopped)
    · intro w request op choice _ hBefore hStopped
      rw [Machine.advance_state] at hStopped
      have hSame : ((op.perform choice w.state).2.listener l).stopped =
          (w.state.listener l).stopped := by
        by_cases hContext : op.context = some l
        · cases op with
          | openListener m =>
              cases hContext
              simp only [Op.perform]
              split <;> simp
          | _ => cases hContext <;> simp [Op.perform]
        · rw [perform_of_foreign choice w.state hContext]
      exact List.mem_append_left _ (hBefore (hSame ▸ hStopped))
    · exact fun w call hBefore hStopped => List.mem_append_left _ (hBefore hStopped)
  exact hKept.holds uses_entry uses_body run (fun hInit => by cases hInit) h

/-- A context that was seen poisoned stays so. -/
theorem poisoned_of_seen (run : Runs trace reached) {request : Request} {before after : State}
    (he : .event ⟨request, .isPoisoned l, true, before, after⟩ ∈ trace) :
    (reached.state.listener l).poisoned = true := by
  obtain ⟨earlier, later, rfl⟩ := List.append_of_mem he
  obtain ⟨first, move, second, -, hStep, hLater⟩ := Machine.Runs.pass run
  have hSecond : (second.state.listener l).poisoned = true := by
    rcases Machine.step_cases hStep with ⟨_, _, _, _, hKind, _⟩ |
      ⟨thread, choice, acting, events, op, following, -, hKind, rfl⟩ | ⟨_, _, _, _, _, hKind, _⟩
    · cases hKind
    · have hEvent := Label.event.inj hKind
      obtain rfl : op = .isPoisoned l := (Event.mk.inj hEvent).2.1.symm
      exact (eq_of_heq (Event.mk.inj hEvent).2.2.1).symm
    · cases hKind
  refine (Machine.Runs.keeps hLater (fun _ _ _ hDeliver hPoisoned => ?_) perform_poisoned hSecond).1
  rw [deliver_context ListenerState.poisoned (fun _ _ _ _ => rfl) hDeliver]
  exact hPoisoned

/-- The end of the connections queued a sentinel. -/
theorem Over.announced (run : Runs trace reached) (hLive : Live l trace) (h : Over l reached) :
    none ∈ queued l trace := by
  by_cases hPoisoned : (reached.state.listener l).poisoned = true
  · exact queued_of_poisoned run hLive hPoisoned
  · have hBegun := begun_of_stopped run (h.last.resolve_right hPoisoned)
    have hCalls : lifecycle.begunBy (.callback l .stopComplete) trace = _ :=
      Machine.Runs.begun_by_call run
    rw [h.callbacks, Option.map_none, Option.toList_none, List.append_nil] at hCalls
    have hServed : Request.listener l .stopComplete ∈
        lifecycle.begunBy (.callback l .stopComplete) trace :=
      List.mem_filterMap.2 ⟨_, hBegun, if_pos rfl⟩
    rw [hCalls] at hServed
    obtain ⟨call, hMem, hRequest⟩ := List.mem_map.1 hServed
    have hCall := (Machine.mem_callsOf.1 hMem).1
    have hTranscript := (Machine.endsTranscript (fun request => request = .listener l .stopComplete)
      (fun (_ : signature.Op) _ => True) (stopNote l) (fun _ notes _ => notes ≠ [])
      (fun request hScope => by rw [hScope]; exact ends_stopComplete l)).sound run
    obtain ⟨result, hOutcome, hNotes⟩ := hTranscript.2 call hCall hRequest fun _ _ => trivial
    obtain ⟨note, hNoted⟩ := List.exists_mem_of_ne_nil _ hNotes
    obtain ⟨e, he, hNote⟩ := List.mem_flatMap.1 hNoted
    have hEvent := ((Machine.Runs.call_events run).2 call hCall e he).2
    obtain ⟨request, op, reply, before, after⟩ := e
    cases op with
    | isPoisoned m =>
        cases reply with
        | false => cases hNote
        | true =>
            by_cases hSame : m = l
            · subst hSame
              exact absurd (poisoned_of_seen run hEvent) hPoisoned
            · simp [stopNote, hSame] at hNote
    | sendConn m message =>
        cases message with
        | some n => cases hNote
        | none =>
            by_cases hSame : m = l
            · subst hSame
              exact queued_of_sent run hLive hEvent rfl
            · simp [stopNote, hSame] at hNote
    | _ => cases hNote

end Sentinel

section End

variable {l : Nat} {trace : List LifecycleLabel} {reached : LifecycleConfig}

/-- How the connections of a live listener come out and end. -/
structure ListenerEnd (l : Nat) (trace : List LifecycleLabel) (reached : LifecycleConfig) : Prop where
  /-- A `poll_accept` polls the queue once and returns its answer. -/
  answers : ∀ call, .finished call ∈ trace → call.request = .pollAccept l →
    ∃ reply, call.events.flatMap (fun e => (connUse l e.op e.reply).toList) = [.poll reply] ∧
      call.result = .accept (answer reply)
  /-- What is queued comes out in its order, each at most once. -/
  inOrder : accepted l trace <+: queued l trace
  /-- The first end that is returned comes behind exactly what was queued before it. -/
  untilEnd : none ∈ accepted l trace →
    (accepted l trace).takeWhile Option.isSome = (queued l trace).takeWhile Option.isSome
  /-- A completed stop and a contained panic announce the end. -/
  announced : Over l reached → none ∈ queued l trace
  /-- Nothing is queued behind it. -/
  silent : Over l reached → ∀ later final, lifecycle.Runs reached later final → queued l later = []
  /-- A poll is left without an answer when it comes on top of what was queued. -/
  parked_iff : Channel.parked (connUses l trace) = true ↔
    (Channel.account (connUses l trace)).waiting < (Channel.account (connUses l trace)).polls

theorem takeWhile_prefix_of_mem {first second : List (Option Nat)} (h : first <+: second)
    (hNone : none ∈ first) : first.takeWhile Option.isSome = second.takeWhile Option.isSome := by
  obtain ⟨rest, rfl⟩ := h
  rw [List.takeWhile_append, if_neg]
  intro hLength
  have hAll := List.takeWhile_eq_self_iff.1 ((List.takeWhile_prefix _).eq_of_length hLength)
  cases hAll none hNone

theorem listener_end (run : Runs trace reached) (hLive : Live l trace) :
    ListenerEnd l trace reached := by
  obtain ⟨hSender, hReceiver⟩ := conn_open run hLive
  have hPrefix : accepted l trace <+: queued l trace := by
    have hFifo := (connLog (l := l) run).fifo hReceiver
    rw [taken_accepted run hLive, List.append_assoc] at hFifo
    exact ⟨_, hFifo.symm⟩
  exact {
    answers := fun call => pollAccept_answer run
    inOrder := hPrefix
    untilEnd := takeWhile_prefix_of_mem hPrefix
    announced := Over.announced run hLive
    silent := fun h _ _ => h.silent run
    parked_iff := ((connLog run).account_parked rfl hSender hReceiver).2 }

/-- A thread that served nothing is idle. -/
theorem idle_of_unserved (run : Runs trace reached) {thread : Thread}
    (h : lifecycle.begunBy thread trace = []) : reached.active thread = none := by
  have hCalls : lifecycle.begunBy thread trace = _ := Machine.Runs.begun_by_call run
  rw [h] at hCalls
  cases hActive : reached.active thread with
  | none => rfl
  | some a =>
      rw [hActive] at hCalls
      simp at hCalls

/-- A listener that delivers one connection, stops, and is polled three times. -/
def stopPolled : List LifecycleMove :=
  serveAll [(.withConfig 0, 5), (.listener 0 (.newConnection 3), 17), (.listener 0 .stopComplete, 7),
    (.pollAccept 0, 3), (.pollAccept 0, 2), (.pollAccept 0, 2)]

/-- A label of that schedule. -/
def ofStopPolled : LifecycleLabel → Bool
  | .event e => e.op != .closeListener 0
  | .begun (.listener _ (.newConnection n)) => n == 3
  | _ => true

set_option maxRecDepth 4000 in
theorem listener_end_stopPolled :
    ∃ trace reached, lifecycle.run (Machine.initial {}) stopPolled = some (trace, reached) ∧
      ListenerEnd 0 trace reached ∧ Over 0 reached ∧ accepted 0 trace = [some 3, none] ∧
      Channel.parked (connUses 0 trace) = true := by
  have hRun : (lifecycle.run (Machine.initial {}) stopPolled).any fun out =>
      accepted 0 out.1 = [some 3, none] ∧ Channel.parked (connUses 0 out.1) = true ∧
        out.1.all ofStopPolled = true ∧ (out.2.state.listener 0).stopped = true ∧
        (out.2.active (.frontend 0)).isNone ∧ (out.2.active (.callback 0 .stopComplete)).isNone ∧
        (out.2.active (.callback 0 (.newConnection 3))).isNone := by
    decide
  obtain ⟨⟨trace, reached⟩, hOut, hEnd⟩ := (Option.any_eq_true _ _).1 hRun
  obtain ⟨hAccepted, hParked, hAll, hStopped, hFrontend, hStop, hNew⟩ := of_decide_eq_true hEnd
  have hReached : Runs trace reached := Machine.runs_of_run hOut
  have hLabel : ∀ label ∈ trace, ofStopPolled label = true := List.all_eq_true.1 hAll
  have hCallbacks : ∀ event, reached.active (.callback 0 event) = none := by
    intro event
    cases event with
    | stopComplete => exact Option.isNone_iff_eq_none.1 hStop
    | newConnection n =>
        by_cases hThree : n = 3
        · rw [hThree]
          exact Option.isNone_iff_eq_none.1 hNew
        · apply idle_of_unserved hReached
          rw [Machine.begunBy, List.filterMap_eq_nil_iff]
          intro label hMem
          have hHere := hLabel label hMem
          cases label with
          | begun request =>
              apply if_neg
              intro hOwner
              cases request <;> cases hOwner
              exact hThree (eq_of_beq hHere)
          | _ => rfl
  have hLive : Live 0 trace := by
    intro e he
    exact bne_iff_ne.1 (hLabel _ he)
  exact ⟨trace, reached, hOut, listener_end hReached hLive,
    ⟨.inl hStopped, hCallbacks, Option.isNone_iff_eq_none.1 hFrontend⟩, hAccepted, hParked⟩

end End

end MsQuicH3.Lifecycle
