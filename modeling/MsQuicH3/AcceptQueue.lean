import MsQuicH3.Concurrency.ChannelLog
import MsQuicH3.Concurrency.Calls
import MsQuicH3.CauseOutline

/-! The queues of the accept frontends. Both directions have one of their own, which the
connection callback fills with the streams native code announces and closes behind a
recorded cause. -/
namespace MsQuicH3

open Concurrency

/-- The accept method of a direction. -/
def acceptRequest (uni : Bool) : Request := if uni then .pollAcceptRecv else .pollAcceptBidi

def acceptQueue (uni : Bool) (s : State) : Channel (Option StreamKey) := if uni then s.uni else s.bidi

/-- The use an operation makes of the queue of a direction. -/
def acceptUse (uni : Bool) : (op : Op) → op.Reply → Option (Channel.Use (Option StreamKey))
  | .conn (.sendUni key), sent => if uni then some (.send (some key) sent) else none
  | .conn (.sendBidi key), sent => if uni then none else some (.send (some key) sent)
  | .conn .pollUni, reply => if uni then some (.poll reply) else none
  | .conn .pollBidi, reply => if uni then none else some (.poll reply)
  | .conn .dropUni, _ => if uni then some .dropSender else none
  | .conn .dropBidi, _ => if uni then none else some .dropSender
  | _, _ => none

/-- The stream an operation hands to the queue of a direction. -/
def arrival (uni : Bool) : AdapterEvent → Option StreamKey
  | ⟨_, .conn (.sendUni key), true, _, _⟩ => if uni then some key else none
  | ⟨_, .conn (.sendBidi key), true, _, _⟩ => if uni then none else some key
  | _ => none

/-- The streams that were handed to the queue of a direction, in order. -/
def arrivedStreams (uni : Bool) (trace : List AdapterLabel) : List StreamKey :=
  trace.filterMap fun
    | .event e => arrival uni e
    | _ => none

theorem arrivedStreams_append {uni : Bool} (earlier later : List AdapterLabel) :
    arrivedStreams uni (earlier ++ later) = arrivedStreams uni earlier ++ arrivedStreams uni later :=
  List.filterMap_append

/-- The stream an event announces for a direction. -/
def announcement (uni : Bool) : Request → List StreamKey
  | .connection (.peerStreamStarted key unidirectional) =>
      if unidirectional = uni then [key] else []
  | _ => []

/-- The streams native code announced in a direction, in order. -/
def announcedStreams (uni : Bool) (trace : List AdapterLabel) : List StreamKey :=
  trace.flatMap fun
    | .begun request => announcement uni request
    | _ => []

section Queue

variable (config : H3Config) (uni : Bool)

theorem acceptWired : (adapter config).Wired (acceptQueue uni) (acceptUse uni) := by
  constructor
  · intro request s s' h
    rcases deliver_cases h with rfl | ⟨key, cancelled, context, -, -, rfl⟩
    · rfl
    · rfl
  · intro choice op s
    cases op with
    | stream key op => rfl
    | conn op =>
        cases op with
        | submitOpenStart direction =>
            have hUni := ConnOp.perform_uni choice (.submitOpenStart direction) s
            have hBidi := ConnOp.perform_bidi choice (.submitOpenStart direction) s
            cases uni with
            | true => exact hUni
            | false => exact hBidi
        | _ => cases uni <;> rfl

variable {config uni} {trace : List AdapterLabel} {reached : AdapterConfig}

/-- The history of the queue of a direction. -/
theorem acceptLog (run : Runs config trace reached) :
    Channel.Log .unbounded (Machine.usesOf (acceptUse uni) trace) (acceptQueue uni reached.state) := by
  have hLog := Machine.Runs.log run (acceptWired config uni)
  cases uni with
  | true => exact hLog
  | false => exact hLog

theorem acceptUse_ne_dropReceiver (op : Op) (reply : op.Reply) :
    acceptUse uni op reply ≠ some .dropReceiver := by
  unfold acceptUse
  split <;> (try split) <;> simp

theorem acceptQueue_receiver (run : Runs config trace reached) :
    (acceptQueue uni reached.state).receiver = true := by
  apply (acceptLog run).receiver rfl
  intro h
  obtain ⟨e, -, hUse⟩ := Machine.mem_usesOf.1 h
  exact acceptUse_ne_dropReceiver e.op e.reply hUse

end Queue

section Handler

/-- What a request may issue; a callback announces its own stream only. -/
def ownPermits (request : Request) (op : Op) : Prop :=
  permits request op ∧ ∀ event, request = .connection event → event.owns op

theorem owns_entry (config : H3Config) (request : Request) :
    (request.entry config).Uses (ownPermits request) := by
  apply (uses_entry config request).and
  cases request with
  | connection event =>
      have hOwns : ((Request.connection event).entry config).Uses event.owns :=
        uses_straight (owns_connectionHandler event)
      apply hOwns.mono
      intro op h announced hEvent
      cases hEvent
      exact h
  | _ =>
      apply (uses_entry config _).mono
      intro op _ event hEvent
      cases hEvent

theorem owns_body (request : Request) (round : SendRound) :
    (request.body round).Uses (ownPermits request) := by
  apply (uses_body request round).and
  cases request with
  | connection event => trivial
  | _ =>
      apply (uses_body _ round).mono
      intro op _ event hEvent
      cases hEvent

def Op.records : Op → Bool
  | .conn (.recordConnTerminal _) => true
  | _ => false

def Op.closesQueue : Op → Bool
  | .conn .dropUni | .conn .dropBidi => true
  | _ => false

/-- The queues are closed only once a cause was recorded. -/
abbrev RecordsFirst {α : Type} (code : Code α) : Prop :=
  code.Preceded (fun op : Op => op.records = true) (fun op : Op => op.closesQueue = true)

variable {α β : Type} {event : ConnectionEvent}

theorem recordsFirst_record (candidate : ConnectionTerminal) (next : Unit → Code α) :
    RecordsFirst (onConn (.recordConnTerminal candidate) >>= next) :=
  ⟨Bool.false_ne_true, .inl rfl⟩

theorem recordsFirst_op {op : ConnOp} (h : (Op.conn op).closesQueue = false) :
    RecordsFirst (onConn op) :=
  Program.preceded_of_uses (uses_onConn (by simp [h]))

theorem recordsFirst_acceptStreamId (key : StreamKey) : RecordsFirst (acceptStreamId key) := by
  apply (recordsFirst_op rfl).bind
  intro raw
  cases raw with
  | error status => exact recordsFirst_record _ _
  | ok raw =>
      dsimp only
      split
      · trivial
      · exact recordsFirst_record _ _

theorem recordsFirst_connectionCallback : RecordsFirst (connectionCallback event) := by
  cases event with
  | connected => exact (recordsFirst_op rfl).bind fun _ => trivial
  | shutdownInitiatedByPeer code => exact recordsFirst_record _ _
  | shutdownInitiatedByTransport status code => exact recordsFirst_record _ _
  | peerStreamStarted key unidirectional =>
      apply (recordsFirst_acceptStreamId key).bind
      intro id
      cases id with
      | error status => trivial
      | ok id =>
          apply (recordsFirst_op rfl).bind
          intro _
          have hDeliver : RecordsFirst (deliverStream key unidirectional) := by
            cases unidirectional <;> exact recordsFirst_op rfl
          apply hDeliver.bind
          intro delivered
          cases delivered with
          | true => trivial
          | false => exact (recordsFirst_op rfl).bind fun _ => trivial
  | shutdownComplete => exact recordsFirst_record _ _
  | other => trivial

theorem recordsFirst_connectionRecover : RecordsFirst connectionRecover := by
  apply (recordsFirst_op rfl).bind
  intro held
  cases held with
  | some key =>
      exact (recordsFirst_op rfl).bind fun _ => (recordsFirst_op rfl).bind fun _ =>
        recordsFirst_record _ _
  | none => exact (recordsFirst_op rfl).bind fun _ => recordsFirst_record _ _

theorem recordsFirst_connectionHandler : RecordsFirst (connectionHandler event) := by
  apply (recordsFirst_op rfl).bind
  intro _
  apply (recordsFirst_op rfl).bind
  intro poisoned
  cases poisoned with
  | true => trivial
  | false =>
      exact Program.Preceded.guarded (fun k => recordsFirst_op rfl) recordsFirst_connectionRecover
        recordsFirst_connectionCallback 0

theorem closesQueue_of_permits {request : Request} {op : Op} (h : permits request op)
    (hCloses : op.closesQueue = true) : ∃ event, request = .connection event := by
  cases op with
  | stream key op => cases hCloses
  | conn op =>
      apply connectionHandler_of_permits h
      cases op <;> first | rfl | cases hCloses

theorem recordsFirst_entry (config : H3Config) (request : Request) :
    RecordsFirst (request.entry config) := by
  cases request with
  | connection event => exact recordsFirst_connectionHandler.bind fun _ => trivial
  | _ =>
      apply Program.preceded_of_uses
      apply (uses_entry config _).mono
      intro op hPermits hCloses
      obtain ⟨event, hRequest⟩ := closesQueue_of_permits hPermits hCloses
      cases hRequest

theorem recordsFirst_body (request : Request) (round : SendRound) :
    RecordsFirst (request.body round) := by
  cases request with
  | connection event => trivial
  | _ =>
      apply Program.preceded_of_uses
      apply (uses_body _ round).mono
      intro op hPermits hCloses
      obtain ⟨event, hRequest⟩ := closesQueue_of_permits hPermits hCloses
      cases hRequest

end Handler

section Arrival

def Op.handsOver : Op → Bool
  | .conn (.sendUni _) | .conn (.sendBidi _) => true
  | _ => false

def isConnection : Request → Bool
  | .connection _ => true
  | _ => false

variable {event : ConnectionEvent} {uni : Bool}

/-- Only the event that announces a stream hands one over. -/
theorem quiet_of_announces {op : ConnOp} (hOwn : event.announces op = true)
    (hEvent : ∀ key unidirectional, event ≠ .peerStreamStarted key unidirectional) :
    (Op.conn op).handsOver = false := by
  cases op with
  | sendUni key => exact absurd (of_decide_eq_true hOwn) (hEvent key true)
  | sendBidi key => exact absurd (of_decide_eq_true hOwn) (hEvent key false)
  | _ => rfl

theorem quiet_of_bodyOwns {op : Op} (h : event.bodyOwns op)
    (hEvent : ∀ key unidirectional, event ≠ .peerStreamStarted key unidirectional) :
    op.handsOver = false := by
  cases op with
  | stream key op => exact h.elim
  | conn op => exact quiet_of_announces (Bool.and_eq_true_iff.1 h).2 hEvent

theorem atMost_connectionCallback :
    (connectionCallback event).AtMost Op.handsOver 1 := by
  have hQuiet : (∀ key unidirectional, event ≠ .peerStreamStarted key unidirectional) →
      (connectionCallback event).AtMost Op.handsOver 1 := fun hEvent =>
    Program.atMost_of_uses
      ((owns_connectionCallback event).mono fun _ h => quiet_of_bodyOwns h hEvent) 1
  cases event with
  | peerStreamStarted key unidirectional =>
      have hId : (acceptStreamId key).Uses fun op : Op => op.handsOver = false :=
        (@uses_acceptStreamId .connected key).mono fun _ h =>
          quiet_of_bodyOwns h fun _ _ hNever => by cases hNever
      apply Program.AtMost.of_uses_bind hId
      intro id
      cases id with
      | error status => trivial
      | ok id =>
          have hDeliver : (deliverStream key unidirectional).AtMost Op.handsOver 1 := by
            cases unidirectional <;> exact ⟨fun _ => Nat.one_pos, fun _ => trivial⟩
          apply Program.AtMost.of_uses_bind (uses_onConn rfl)
          intro _
          apply hDeliver.bind
          intro delivered
          cases delivered with
          | true => trivial
          | false =>
              have hClose : (onConn (.closeStream key)).Uses fun op : Op => op.handsOver = false :=
                uses_onConn rfl
              exact hClose.bind fun _ => trivial
  | _ => exact hQuiet fun _ _ hNever => by cases hNever

theorem atMost_connectionHandler : (connectionHandler event).AtMost Op.handsOver 1 := by
  have hRecover : connectionRecover.Uses fun op : Op => op.handsOver = false := by
    apply (uses_connectionRecover .connected).mono
    intro op h
    cases op with
    | stream key op => exact h.elim
    | conn op =>
        exact quiet_of_announces (Bool.and_eq_true_iff.1 h).2 fun _ _ hNever => by cases hNever
  apply Program.AtMost.of_uses_bind (uses_onConn rfl)
  intro _
  apply Program.AtMost.of_uses_bind (uses_onConn rfl)
  intro poisoned
  cases poisoned with
  | true => trivial
  | false =>
      have hPanic : ∀ k, (onConn (.panicPoint k)).Uses fun op : Op => op.handsOver = false :=
        fun k => uses_onConn rfl
      exact Program.AtMost.guarded hPanic hRecover atMost_connectionCallback 0

theorem isConnection_of_permits {request : Request} {op : Op} (h : permits request op)
    (hOp : op.handsOver = true) : isConnection request = true := by
  cases op with
  | stream key op => cases hOp
  | conn op =>
      obtain ⟨event, rfl⟩ : ∃ event, request = .connection event := by
        apply connectionHandler_of_permits h
        cases op <;> first | rfl | cases hOp
      rfl

theorem quiet_of_uses {request : Request} {α : Type} {code : Code α}
    (hUses : code.Uses (permits request)) (h : isConnection request = false) :
    code.Uses fun op : Op => op.handsOver = false := by
  apply hUses.mono
  intro op hPermits
  rw [← Bool.not_eq_true]
  intro hOp
  rw [isConnection_of_permits hPermits hOp] at h
  cases h

theorem atMost_handsOver_entry (config : H3Config) (request : Request) :
    (request.entry config).AtMost Op.handsOver (isConnection request).toNat := by
  cases hConnection : isConnection request with
  | false => exact Program.atMost_of_uses (quiet_of_uses (uses_entry config request) hConnection) _
  | true =>
      cases request with
      | connection event => exact atMost_connectionHandler.bind fun _ => trivial
      | _ => cases hConnection

theorem atMost_handsOver_body (request : Request) (round : SendRound) :
    (request.body round).AtMost Op.handsOver 0 := by
  cases hConnection : isConnection request with
  | false => exact Program.atMost_of_uses (quiet_of_uses (uses_body request round) hConnection) _
  | true =>
      cases request with
      | connection event => trivial
      | _ => cases hConnection

variable {config : H3Config} {trace : List AdapterLabel} {reached : AdapterConfig}

/-- The stream an operation hands over is the one its event announces. -/
theorem arrival_announced (run : Runs config trace reached) {e : AdapterEvent} {key : StreamKey}
    (he : .event e ∈ trace) (h : arrival uni e = some key) :
    e.request = .connection (.peerStreamStarted key uni) ∧ e.op.handsOver = true := by
  obtain ⟨hPermits, hOwns⟩ := Machine.Runs.permitted (owns_entry config) owns_body run he
  obtain ⟨request, op, reply, before, after⟩ := e
  unfold arrival at h
  split at h
  next sent _ _ hEq =>
    cases hEq
    cases uni with
    | false => cases h
    | true =>
        cases h
        obtain ⟨event, hEvent⟩ := connectionHandler_of_permits hPermits rfl
        have hOwn := (Bool.and_eq_true_iff.1 (hOwns event hEvent)).2
        exact ⟨hEvent.trans (congrArg _ (of_decide_eq_true hOwn)), rfl⟩
  next sent _ _ hEq =>
    cases hEq
    cases uni with
    | true => cases h
    | false =>
        cases h
        obtain ⟨event, hEvent⟩ := connectionHandler_of_permits hPermits rfl
        have hOwn := (Bool.and_eq_true_iff.1 (hOwns event hEvent)).2
        exact ⟨hEvent.trans (congrArg _ (of_decide_eq_true hOwn)), rfl⟩
  · cases h

/-- A call hands over the stream its event announces or none. -/
theorem arrivals_sublist (run : Runs config trace reached) {request : Request}
    {events : List AdapterEvent} (hEvents : ∀ e ∈ events, e.request = request ∧ .event e ∈ trace)
    (hMost : events.countP (fun e => e.op.handsOver) ≤ 1) :
    (events.flatMap fun e => (arrival uni e).toList).Sublist (announcement uni request) := by
  induction events with
  | nil => exact List.nil_sublist _
  | cons e events ih =>
      rw [List.flatMap_cons]
      rw [List.countP_cons] at hMost
      have hRest := ih (fun e he => hEvents e (List.mem_cons_of_mem _ he)) (by omega)
      cases hArrival : arrival uni e with
      | none => exact hRest
      | some key =>
          obtain ⟨hRequest, hMem⟩ := hEvents e List.mem_cons_self
          obtain ⟨hEvent, hOp⟩ := arrival_announced run hMem hArrival
          rw [if_pos hOp] at hMost
          have hNone : (events.flatMap fun e => (arrival uni e).toList) = [] := by
            rw [List.flatMap_eq_nil_iff]
            intro later hLater
            cases hLate : arrival uni later with
            | none => rfl
            | some other =>
                have hLaterOp := (arrival_announced run
                  (hEvents later (List.mem_cons_of_mem _ hLater)).2 hLate).2
                have hPos : 0 < events.countP fun e => e.op.handsOver :=
                  List.countP_pos_iff.2 ⟨later, hLater, hLaterOp⟩
                omega
          rw [hNone, ← hRequest, hEvent]
          simp [announcement]

theorem announcedStreams_eq (config : H3Config) (uni : Bool) (trace : List AdapterLabel) :
    announcedStreams uni trace =
      ((adapter config).begunBy .connCallback trace).flatMap (announcement uni) := by
  induction trace with
  | nil => rfl
  | cons label trace ih =>
      rw [announcedStreams, List.flatMap_cons]
      rw [announcedStreams] at ih
      rw [ih]
      cases label with
      | begun request =>
          cases request with
          | connection event => rfl
          | _ => rfl
      | _ => rfl

/-- Streams are handed over in the order of their announcements, each at most once. -/
theorem arrived_announced (run : Runs config trace reached) :
    (arrivedStreams uni trace).Sublist (announcedStreams uni trace) := by
  obtain ⟨hActive, hFinished⟩ := Machine.Runs.call_events run
  have hTranscript := (Machine.atMostTranscript Op.handsOver isConnection
    (atMost_handsOver_entry config) atMost_handsOver_body).sound run
  have hMost : ∀ request : Request, (isConnection request).toNat ≤ 1 := fun request =>
    Bool.toNat_le _
  have hForeign : ∀ e, .event e ∈ trace → e.request.owner ≠ .connCallback →
      (arrival uni e).toList = [] := by
    intro e he hOwner
    cases hArrival : arrival uni e with
    | none => rfl
    | some key =>
        rw [(arrival_announced run he hArrival).1] at hOwner
        exact absurd rfl hOwner
  have hSublist := Machine.Runs.notes_sublist run (announcement uni) hForeign
    (fun call hCall => by
      obtain ⟨n, -, hCount⟩ := hTranscript.2 call hCall
      exact arrivals_sublist run (hFinished call hCall)
        (Nat.le_trans (Nat.le_of_add_right_le hCount) (hMost _)))
    (fun a hEntry => by
      obtain ⟨-, n, -, hCount⟩ := hTranscript.1 _ a hEntry
      exact arrivals_sublist run (hActive _ a hEntry).2
        (Nat.le_trans (Nat.le_of_add_right_le hCount) (hMost _)))
  have hArrived : arrivedStreams uni trace =
      trace.flatMap (Machine.noted fun e => (arrival uni e).toList) := by
    rw [arrivedStreams, List.filterMap_eq_flatMap_toList]
    congr 1
    funext label
    cases label <;> rfl
  have hAnnounced : announcedStreams uni trace =
      ((adapter config).begunBy .connCallback trace).flatMap (announcement uni) :=
    announcedStreams_eq config uni trace
  rw [hArrived, hAnnounced]
  exact hSublist

end Arrival

section Slot

variable {config : H3Config} {trace : List AdapterLabel} {start reached : AdapterConfig}

/-- The slot never goes back. -/
theorem slot_le (run : (adapter config).Runs start trace reached) :
    start.state.conn.Le reached.state.conn := by
  refine (@Machine.Runs.keeps _ _ _ _ _ _ _ _ _ _ _ _ (fun s => start.state.conn.Le s.conn) run
    ?_ ?_ (.refl _)).1
  · intro request s s' hDeliver hLe
    rw [deliver_conn hDeliver]
    exact hLe
  · intro choice op s hLe
    rw [adapter_perform, Op.perform_conn]
    exact hLe.trans (op.slot_le _)

theorem Op.records_eq {op : Op} (h : op.records = true) :
    ∃ candidate, op = .conn (.recordConnTerminal candidate) := by
  cases op with
  | stream key op => exact absurd h Bool.false_ne_true
  | conn op =>
      cases op with
      | recordConnTerminal candidate => exact ⟨candidate, rfl⟩
      | _ => exact absurd h Bool.false_ne_true

/-- Once a cause was offered the slot is not empty. -/
theorem occupied_of_recorded (run : Runs config trace reached) {e : AdapterEvent}
    (he : .event e ∈ trace) (hRecords : e.op.records = true) :
    reached.state.conn.terminal.isSome := by
  obtain ⟨candidate, hOp⟩ := Op.records_eq hRecords
  obtain ⟨earlier, later, rfl⟩ := List.append_of_mem he
  obtain ⟨before, move, after, hBefore, hLast, hLater⟩ := Machine.Runs.pass run
  apply (slot_le hLater).occupied
  rcases Machine.step_cases hLast with ⟨_, _, _, _, hKind, _⟩ |
    ⟨thread, choice, request, events, op, following, hEntry, hKind, rfl⟩ | ⟨_, _, _, _, _, hKind, _⟩
  · cases hKind
  · cases hKind
    cases hOp
    exact record_isSome _ _ (cause_invariant config hBefore).occupied
  · cases hKind

end Slot

section Ends

variable {config : H3Config} {uni : Bool} {trace : List AdapterLabel} {reached : AdapterConfig}

/-- A closed queue has a recorded cause behind it. -/
theorem recorded_of_closed (run : Runs config trace reached)
    (hSender : (acceptQueue uni reached.state).sender = false) :
    reached.state.conn.terminal.isSome := by
  have hDropped := (acceptLog run).dropped rfl hSender
  obtain ⟨e, he, hUse⟩ := Machine.mem_usesOf.1 hDropped
  have hCloses : e.op.closesQueue = true := by
    unfold acceptUse at hUse
    split at hUse <;> simp_all [Op.closesQueue]
  obtain ⟨first, hFirst, hRecords⟩ :=
    run.preceded (recordsFirst_entry config) recordsFirst_body he hCloses
  exact occupied_of_recorded run hFirst hRecords

end Ends

end MsQuicH3
