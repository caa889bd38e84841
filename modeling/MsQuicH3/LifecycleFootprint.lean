import MsQuicH3.Lifecycle

/-! Which requests issue each operation on the tracked handles, and which listener an
operation or a request is on. -/
namespace MsQuicH3.Lifecycle

open Concurrency

/-- The handle a request counts. -/
def Request.reserves : Request → Handle → Prop
  | .listener l (.newConnection n), h => h = .accepted l n
  | .withConfig l, h => h = .listener l
  | .connect n, h => h = .client n
  | _, _ => False

/-- The handles a request may have to drop. -/
def Request.drops : Request → Handle → Prop
  | .listener l (.newConnection n), h => h = .accepted l n
  | .withConfig l, h | .dropListener l, h => h = .listener l ∨ ∃ n, h = .accepted l n
  | .pollConnect n _, h | .dropConnect n _, h => h = .client n
  | .dropArc _ own, h => h = own
  | _, _ => False

/-- The handles a request has to do with. -/
def Request.touches : Request → Handle → Prop
  | .listener l (.newConnection n), h => h = .accepted l n
  | .listener _ .stopComplete, _ => False
  | .withConfig l, h | .dropListener l, h => h = .listener l ∨ ∃ n, h = .accepted l n
  | .pollAccept l, h => ∃ n, h = .accepted l n
  | .connect n, h | .pollConnect n _, h | .dropConnect n _, h => h = .client n
  | .cloneOpener _ own, h | .dropArc _ own, h => h = own

/-- The requests whose code issues an operation. -/
def permits (request : Request) : Op → Prop
  | .reserve h => request.reserves h
  | .release h | .arcNew h | .arcDrop h | .closeConnection h => request.drops h
  | .arcClone h => request.drops h ∨ ∃ k, request = .cloneOpener k h
  | .isPoisoned l | .setPoisoned l | .sendShutdown l | .sendConn l none =>
      ∃ event, request = .listener l event
  | .sendConn l (some n) => request = .listener l (.newConnection n)
  | .panicPoint _ => ∃ l event, request = .listener l event
  | .setConfiguration h | .fromRaw h | .setCallbackHandler h =>
      ∃ l n, request = .listener l (.newConnection n) ∧ h = .accepted l n
  | .handOver h _ => request.touches h ∧ ∀ l event, request ≠ .listener l event
  | .openListener l | .startListener l => request = .withConfig l
  | .closeListener l | .dropReceiver l => request = .withConfig l ∨ request = .dropListener l
  | .pollConn l => request = .pollAccept l
  | .openConnection n | .startConnection n | .pollConnected n =>
      ∃ point, request = .pollConnect n point
  | .setConnecting n connecting => connecting ≠ .fresh ∧
      (request = .connect n ∨ ∃ point, request = .pollConnect n point ∨ request = .dropConnect n point)

section Drop

variable {P : Op → Prop}

theorem uses_issue {op : Op} (hOp : P op) : (issue op).Uses P := ⟨hOp, fun _ => trivial⟩

/-- A property of the operations that drop a handle. -/
def Dropping (P : Op → Prop) (h : Handle) : Prop :=
  P (.arcDrop h) ∧ P (.closeConnection h) ∧ P (.release h)

theorem dropping_of_drops {request : Request} {h : Handle} (hDrops : request.drops h) :
    Dropping (permits request) h := ⟨hDrops, hDrops, hDrops⟩

theorem uses_dropArc {h : Handle} (hDropping : Dropping P h) : (dropArc h).Uses P := by
  obtain ⟨hDrop, hClose, hRelease⟩ := hDropping
  apply (uses_issue hDrop).bind
  intro last
  cases last with
  | true => exact ⟨hClose, fun _ => uses_issue hRelease⟩
  | false => trivial

theorem uses_dropArcs {h : Handle} (hDropping : Dropping P h) (count : Nat) :
    (dropArcs h count).Uses P := by
  induction count with
  | zero => trivial
  | succ count ih => exact (uses_dropArc hDropping).bind fun _ => ih

/-- A property of the handle that is held. -/
def Held.All (P : Handle → Prop) : Held → Prop
  | .nothing => True
  | .guard h | .parts h | .arcs h _ | .handle h => P h

theorem Held.all_of {P : Handle → Prop} (held : Held) (h : ∀ own, P own) : held.All P := by
  cases held with
  | nothing => trivial
  | _ => exact h _

theorem uses_unwind {held : Held} (hHeld : held.All (Dropping P)) : (unwind held).Uses P := by
  cases held with
  | nothing => trivial
  | guard h => exact uses_issue hHeld.2.2
  | parts h => exact ⟨hHeld.2.2, fun _ => uses_issue hHeld.2.1⟩
  | arcs h count => exact uses_dropArcs hHeld count
  | handle h => exact ⟨hHeld.2.1, fun _ => uses_issue hHeld.2.2⟩

end Drop

section Callback

variable (l : Nat)

/-- An operation of a callback leaves it with what it has to drop. -/
theorem keeps_of {event : ListenerEvent} {locals : Locals} {op : Op} {reply : op.Reply}
    (hHeld : locals.held.All (Request.listener l event).drops)
    (hOp : permits (.listener l event) op) :
    (locals.keeps op reply).held.All (Request.listener l event).drops := by
  cases op with
  | reserve h =>
      cases event with
      | newConnection n => exact hOp
      | stopComplete => cases hOp
  | release h => trivial
  | fromRaw h =>
      obtain ⟨m, n, hRequest, rfl⟩ := hOp
      cases hRequest
      rfl
  | arcNew h => exact hOp
  | arcClone h =>
      rcases hOp with hOwn | ⟨k, hClone⟩
      · exact hOwn
      · cases hClone
  | sendConn m message =>
      cases message with
      | none => exact hHeld
      | some n =>
          cases reply with
          | true => trivial
          | false => exact hHeld
  | arcDrop h =>
      cases reply with
      | true => exact hOp
      | false => exact hOp
  | closeConnection h => exact hOp
  | _ => exact hHeld

theorem uses_listenerRecover {event : ListenerEvent} {locals : Locals}
    (hHeld : locals.held.All (Request.listener l event).drops) :
    (listenerRecover l locals).Uses (permits (.listener l event)) := by
  have hDropping : locals.held.All (Dropping (permits (.listener l event))) := by
    cases hCase : locals.held with
    | nothing => trivial
    | _ =>
        rw [hCase] at hHeld
        exact dropping_of_drops hHeld
  apply (uses_unwind hDropping).bind
  intro _
  refine ⟨⟨event, rfl⟩, fun _ => ⟨⟨event, rfl⟩, fun _ => ⟨⟨event, rfl⟩, fun _ => ?_⟩⟩⟩
  change (if locals.owned = true then _ else _ : Code (Except Status Unit)).Uses _
  split <;> trivial

/-- The operations around the body of a callback. -/
def Op.ofGuard : Op → Bool
  | .isPoisoned _ | .panicPoint _ | .setPoisoned _ => true
  | _ => false

/-- What the body of a callback may issue. -/
def bodyPermits (event : ListenerEvent) (op : Op) : Prop :=
  permits (.listener l event) op ∧ op.ofGuard = false

theorem uses_deliverConnection (n : Nat) :
    (deliverConnection l n).Uses (bodyPermits l (.newConnection n)) := by
  have hOffer : ∃ m k, Request.listener l (.newConnection n) = .listener m (.newConnection k) ∧
      Handle.accepted l n = .accepted m k := ⟨l, n, rfl, rfl⟩
  refine ⟨⟨hOffer, rfl⟩, fun _ => ⟨⟨hOffer, rfl⟩, fun _ => ⟨⟨rfl, rfl⟩, fun _ =>
    ⟨⟨.inl rfl, rfl⟩, fun _ => ⟨⟨rfl, rfl⟩, ?_⟩⟩⟩⟩⟩
  intro sent
  cases sent with
  | true => trivial
  | false =>
      have hDropping : Dropping (bodyPermits l (.newConnection n)) (.accepted l n) :=
        ⟨⟨rfl, rfl⟩, ⟨rfl, rfl⟩, ⟨rfl, rfl⟩⟩
      exact (uses_dropArcs hDropping 2).bind fun _ => trivial

theorem uses_decideNewConnection (n : Nat) (config : Except Status Unit) :
    (decideNewConnection (.accepted l n) config (deliverConnection l n)).Uses
      (bodyPermits l (.newConnection n)) := by
  cases config with
  | error status => exact ⟨⟨rfl, rfl⟩, fun _ => trivial⟩
  | ok _ =>
      apply (uses_deliverConnection l n).bind
      intro delivered
      cases delivered <;> trivial

theorem uses_listenerCallback (event : ListenerEvent) :
    (listenerCallback l event).Uses (bodyPermits l event) := by
  cases event with
  | stopComplete => exact ⟨⟨⟨_, rfl⟩, rfl⟩, fun _ => ⟨⟨⟨_, rfl⟩, rfl⟩, fun _ => trivial⟩⟩
  | newConnection n =>
      refine ⟨⟨rfl, rfl⟩, fun _ => ⟨⟨⟨l, n, rfl, rfl⟩, rfl⟩, fun config => ?_⟩⟩
      apply (uses_decideNewConnection l n config).bind
      intro decision
      cases decision <;> trivial

theorem uses_listenerHandler (event : ListenerEvent) :
    (listenerHandler l event).Uses (permits (.listener l event)) := by
  refine ⟨⟨event, rfl⟩, fun poisoned => ?_⟩
  cases poisoned with
  | true => trivial
  | false =>
      exact Program.Uses.guardedWith (fun locals =>
          locals.held.All (Request.listener l event).drops)
        (fun k => uses_issue ⟨l, event, rfl⟩) (fun _ => uses_listenerRecover l)
        (fun _ _ _ => keeps_of l)
        ((uses_listenerCallback l event).mono fun _ hOp => hOp.1) 0 trivial

end Callback

section Frontend

variable (l n : Nat)

theorem uses_dropQueued {request : Request} (hDrops : ∀ n, request.drops (.accepted l n))
    (queue : List (Option Nat)) : (dropQueued l queue).Uses (permits request) := by
  induction queue with
  | nil => trivial
  | cons message queue ih =>
      cases message with
      | none => exact ih
      | some n => exact (uses_dropArcs (dropping_of_drops (hDrops n)) 2).bind fun _ => ih

theorem uses_dropListener {request : Request}
    (hRequest : request = .withConfig l ∨ request = .dropListener l) :
    (dropListener l).Uses (permits request) := by
  have hDrops : ∀ h, h = .listener l ∨ (∃ n, h = .accepted l n) → request.drops h := by
    rcases hRequest with rfl | rfl <;> exact fun h hOwn => hOwn
  refine ⟨hRequest, fun _ => ⟨hRequest, fun queue => ?_⟩⟩
  apply (uses_dropQueued l (fun n => hDrops _ (.inr ⟨n, rfl⟩)) queue).bind
  exact fun _ => uses_issue (hDrops _ (.inl rfl))

theorem uses_withConfig : (withConfig l).Uses (permits (.withConfig l)) := by
  refine ⟨rfl, fun _ => ⟨rfl, fun opened => ?_⟩⟩
  cases opened with
  | error status => exact ⟨.inl rfl, fun _ => trivial⟩
  | ok _ =>
      refine ⟨rfl, fun started => ?_⟩
      cases started with
      | error status => exact (uses_dropListener l (.inl rfl)).bind fun _ => trivial
      | ok _ => exact ⟨⟨.inl rfl, by simp⟩, fun _ => trivial⟩

theorem uses_pollAccept : (pollAccept l).Uses (permits (.pollAccept l)) := by
  refine ⟨rfl, fun polled => ?_⟩
  cases polled with
  | pending => trivial
  | ready message =>
      cases message with
      | none => trivial
      | some message =>
          cases message with
          | none => trivial
          | some n => exact ⟨⟨⟨n, rfl⟩, by simp⟩, fun _ => trivial⟩

theorem permits_setConnecting {connecting : Connecting} (point : Suspended)
    (h : connecting ≠ .fresh) : permits (.pollConnect n point) (.setConnecting n connecting) :=
  ⟨h, .inr ⟨point, .inl rfl⟩⟩

theorem uses_failConnect (point : Suspended) (status : Status) :
    (failConnect n status).Uses (permits (.pollConnect n point)) := by
  have hDrops : (Request.pollConnect n point).drops (.client n) := rfl
  apply (uses_dropArc (dropping_of_drops hDrops)).bind
  exact fun _ => ⟨permits_setConnecting n point (by simp), fun _ => trivial⟩

theorem uses_awaitConnected (point : Suspended) :
    (awaitConnected n).Uses (permits (.pollConnect n point)) := by
  refine ⟨⟨point, rfl⟩, fun polled => ?_⟩
  cases polled with
  | pending => exact ⟨permits_setConnecting n point (by simp), fun _ => trivial⟩
  | ready result =>
      cases result with
      | error status => exact uses_failConnect n point status
      | ok _ =>
          refine ⟨.inl rfl, fun _ => ⟨permits_setConnecting n point (by simp), fun _ => ?_⟩⟩
          exact ⟨⟨rfl, by simp⟩, fun _ => trivial⟩

theorem uses_startConnect (point : Suspended) :
    (startConnect n).Uses (permits (.pollConnect n point)) := by
  refine ⟨⟨point, rfl⟩, fun opened => ?_⟩
  cases opened with
  | error status =>
      exact ⟨rfl, fun _ => ⟨permits_setConnecting n point (by simp), fun _ => trivial⟩⟩
  | ok _ =>
      refine ⟨rfl, fun _ => ⟨⟨point, rfl⟩, fun started => ?_⟩⟩
      cases started with
      | error status => exact uses_failConnect n point status
      | ok _ => exact uses_awaitConnected n point

theorem uses_pollConnect (point : Suspended) :
    (pollConnect n point).Uses (permits (.pollConnect n point)) := by
  cases point with
  | unpolled => exact uses_startConnect n .unpolled
  | waiting => exact uses_awaitConnected n .waiting

theorem uses_dropConnect (point : Suspended) :
    (dropConnect n point).Uses (permits (.dropConnect n point)) := by
  refine ⟨⟨by simp, .inr ⟨point, .inr rfl⟩⟩, fun _ => ?_⟩
  cases point with
  | unpolled => exact uses_issue rfl
  | waiting =>
      have hDrops : (Request.dropConnect n .waiting).drops (.client n) := rfl
      exact uses_dropArc (dropping_of_drops hDrops)

end Frontend

/-- Every request keeps to its footprint. -/
theorem uses_entry (request : Request) : (lifecycle.entry request).Uses (permits request) := by
  have hStraight : ∀ {α : Type} {code : Code α} {result : α → Result},
      code.Uses (permits request) → (straight code result).Uses (permits request) :=
    fun h => h.bind fun _ => trivial
  cases request with
  | listener l event => exact hStraight (uses_listenerHandler l event)
  | withConfig l => exact hStraight (uses_withConfig l)
  | pollAccept l => exact hStraight (uses_pollAccept l)
  | dropListener l => exact hStraight (uses_dropListener l (.inr rfl))
  | connect n => exact hStraight ⟨rfl, fun _ => uses_issue ⟨by simp, .inl rfl⟩⟩
  | pollConnect n point => exact hStraight (uses_pollConnect n point)
  | dropConnect n point => exact hStraight (uses_dropConnect n point)
  | cloneOpener k h =>
      exact hStraight ⟨.inr ⟨k, rfl⟩, fun _ => uses_issue ⟨rfl, by simp⟩⟩
  | dropArc k h =>
      have hDrops : (Request.dropArc k h).drops h := rfl
      exact hStraight (uses_dropArc (dropping_of_drops hDrops))

theorem uses_body (request : Request) (loop : Empty) :
    (lifecycle.body request loop).Uses (permits request) := by
  cases loop

section Frame

/-- The listener an operation is on. -/
def Op.context : Op → Option Nat
  | .isPoisoned l | .setPoisoned l | .sendConn l _ | .sendShutdown l | .openListener l
  | .startListener l | .closeListener l | .pollConn l | .dropReceiver l => some l
  | _ => none

variable {l : Nat}

theorem perform_of_foreign (choice : Choice) {op : Op} (s : State) (h : op.context ≠ some l) :
    (op.perform choice s).2.listener l = s.listener l := by
  have hOther : ∀ m listener, some m ≠ some l → (s.setListener m listener).listener l = s.listener l :=
    fun m listener hNe => State.setListener_of_ne _ _ fun hEq => hNe (congrArg some hEq.symm)
  cases op with
  | openListener m =>
      simp only [Op.perform]
      split
      · exact hOther m _ h
      · rfl
  | setPoisoned m => exact hOther m _ h
  | sendConn m message => exact hOther m _ h
  | sendShutdown m => exact hOther m _ h
  | closeListener m => exact hOther m _ h
  | pollConn m => exact hOther m _ h
  | dropReceiver m => exact hOther m _ h
  | _ => rfl

/-- A delivery writes the books of native code and of the application only. -/
theorem deliver_cases {request : Request} {s s' : State} (h : deliver request s = some s') :
    s'.listener l = s.listener l ∨
    (∃ n, request = .listener l (.newConnection n) ∧ (s.listener l).stopped = false ∧
      s'.listener l = { s.listener l with offered := n :: (s.listener l).offered }) ∨
    (request = .listener l .stopComplete ∧ (s.listener l).stopped = false ∧
      s'.listener l = { s.listener l with stopped := true }) ∨
    (request = .withConfig l ∧ s'.listener l = { s.listener l with used := true }) := by
  have hTake : ∀ own, s.take own = some s' → s'.listener l = s.listener l := by
    intro own hTaken
    simp only [State.take, Option.ite_none_right_eq_some, Option.some.injEq] at hTaken
    rw [← hTaken.2]
  have hResume : ∀ n point, s.resume n point = some s' → s'.listener l = s.listener l := by
    intro n point hResumed
    simp only [State.resume, Option.ite_none_right_eq_some, Option.some.injEq] at hResumed
    rw [← hResumed.2]
  cases request with
  | listener m event =>
      cases event with
      | newConnection n =>
          simp only [deliver, Option.ite_none_right_eq_some, Option.some.injEq] at h
          obtain ⟨⟨-, hStopped, -⟩, rfl⟩ := h
          by_cases hSame : l = m
          · subst hSame
            exact .inr (.inl ⟨n, rfl, by simpa using hStopped, State.setListener_self ..⟩)
          · exact .inl (State.setListener_of_ne _ _ hSame)
      | stopComplete =>
          simp only [deliver, Option.ite_none_right_eq_some, Option.some.injEq] at h
          obtain ⟨⟨-, hStopped⟩, rfl⟩ := h
          by_cases hSame : l = m
          · subst hSame
            exact .inr (.inr (.inl ⟨rfl, by simpa using hStopped, State.setListener_self ..⟩))
          · exact .inl (State.setListener_of_ne _ _ hSame)
  | withConfig m =>
      simp only [deliver, Option.ite_none_left_eq_some, Option.some.injEq] at h
      obtain ⟨-, rfl⟩ := h
      by_cases hSame : l = m
      · subst hSame
        exact .inr (.inr (.inr ⟨rfl, State.setListener_self ..⟩))
      · exact .inl (State.setListener_of_ne _ _ hSame)
  | dropListener m => exact .inl (hTake _ h)
  | cloneOpener k own =>
      simp only [deliver, Option.ite_none_right_eq_some] at h
      exact .inl (hTake _ h.2)
  | dropArc k own =>
      simp only [deliver, Option.ite_none_right_eq_some] at h
      exact .inl (hTake _ h.2)
  | pollAccept m =>
      simp only [deliver, Option.ite_none_right_eq_some, Option.some.injEq] at h
      exact .inl (by rw [h.2])
  | connect n =>
      simp only [deliver, Option.ite_none_right_eq_some, Option.some.injEq] at h
      exact .inl (by rw [← h.2])
  | pollConnect n point => exact .inl (hResume n point h)
  | dropConnect n point => exact .inl (hResume n point h)

/-- A part of the callback context that no delivery writes. -/
theorem deliver_context {α : Type} (part : ListenerState → α)
    (hPart : ∀ (listener : ListenerState) offered stopped used,
      part { listener with offered, stopped, used } = part listener)
    {request : Request} {s s' : State} (h : deliver request s = some s') :
    part (s'.listener l) = part (s.listener l) := by
  rcases deliver_cases h with hSame | ⟨n, -, -, hSame⟩ | ⟨-, -, hSame⟩ | ⟨-, hSame⟩
  · rw [hSame]
  · rw [hSame]
    exact hPart _ _ _ _
  · rw [hSame]
    exact hPart _ _ _ _
  · rw [hSame]
    exact hPart _ _ _ _

theorem deliver_stopped {request : Request} {s s' : State} (h : deliver request s = some s')
    (hStopped : (s.listener l).stopped = true) : (s'.listener l).stopped = true := by
  rcases deliver_cases h with hSame | ⟨n, -, hOpen, -⟩ | ⟨-, -, hSame⟩ | ⟨-, hSame⟩
  · rw [hSame]
    exact hStopped
  · rw [hOpen] at hStopped
    cases hStopped
  · rw [hSame]
  · rw [hSame]
    exact hStopped

end Frame

end MsQuicH3.Lifecycle
