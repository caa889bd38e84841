import MsQuicH3.Adapter

/-! Which operations each request of the adapter can issue. -/
namespace MsQuicH3

open Concurrency

/-- Operations of the connection callback. -/
def ConnectionEvent.issues : ConnOp → Bool
  | .recordConnTerminal _ | .isPoisoned | .panicPoint _ | .setPoisoned | .forceShutdown _
  | .resetStreamOwned | .streamOwned | .heldStream | .sendConnected _ | .sendShutdown
  | .dropUni | .dropBidi | .getStreamId _ | .fromRaw _ | .closeStream _ | .sendUni _
  | .sendBidi _ => true
  | _ => false

/-- Operations of the body of a connection callback. -/
def ConnectionEvent.bodyIssues : ConnOp → Bool
  | .recordConnTerminal _ | .sendConnected _ | .sendShutdown | .dropUni | .dropBidi
  | .getStreamId _ | .fromRaw _ | .closeStream _ | .sendUni _ | .sendBidi _ => true
  | _ => false

/-- A stream is put into the queue of its direction by the event that announces it. -/
def ConnectionEvent.announces (event : ConnectionEvent) : ConnOp → Bool
  | .sendUni key => event = .peerStreamStarted key true
  | .sendBidi key => event = .peerStreamStarted key false
  | _ => true

/-- Operations of the body of a stream callback. It publishes authoritative reasons
only. -/
def StreamEvent.bodyIssues (event : StreamEvent) : StreamOp → Bool
  | .dropSend | .receiveTerminalSent | .sendReceive _ | .endReceive
  | .dropReceive => true
  | .sendEvent .terminalWake => (event matches .sendComplete _ none | .peerReceiveAborted _)
  | .publishSend candidate => !candidate.isProvisional
  | .resolveStart _ => (event matches .startComplete ..)
  | .dropStart => (event matches .shutdownComplete ..)
  | .sendEvent (.complete _) | .dropBox _ => (event matches .sendComplete _ (some _))
  | .sendEvent (.finishComplete _) => (event matches .sendShutdownComplete _)
  | .receiveIsSome | .admitIndication _ => (event matches .receive ..)
  | _ => false

/-- Operations of the recovery from a panic of a stream callback. -/
def StreamOp.recovers : StreamOp → Bool
  | .forceShutdown _ | .sendEvent .terminalWake | .dropSend | .receiveTerminalSent
  | .sendReceive (.internal _) | .endReceive | .dropReceive | .resolveStart _
  | .setPoisoned => true
  | .publishSend candidate => (candidate matches .internal _)
  | _ => false

def StreamEvent.issues (event : StreamEvent) (op : StreamOp) : Bool :=
  event.bodyIssues op || op.recovers || (op matches .isPoisoned | .panicPoint _)

/-- Operations that reach the native stream from a send half. -/
def StreamOp.submits : StreamOp → Bool
  | .streamSend _ _ | .submitGraceful | .submitReset _ => true
  | _ => false

/-- Of the stream events only a shutdown caused by the connection records a cause. -/
def StreamEvent.issuesConn (event : StreamEvent) : ConnOp → Bool
  | .recordConnTerminal _ => (event matches .shutdownComplete true ..)
  | _ => false

def SendCall.issues (call : SendCall) : StreamOp → Bool
  | .finishStarted => (call matches .pollReady)
  | .pollSendChannel => (call matches .pollReady | .pollFinish)
  | .boxSendBuffer _ | .streamSend _ _ | .dropBox _ => (call matches .sendData _)
  | .submitGraceful => (call matches .pollFinish)
  | .submitReset _ => (call matches .reset _)
  | .dropSendHalf => (call matches .drop)
  | .loadWinner | .publishSend _ | .transition _ => !(call matches .drop)
  | _ => false

/-- A reset looks at the connection slot; every other method may freeze it. -/
def SendCall.issuesConn (call : SendCall) : ConnOp → Bool
  | .peekConnTerminal => !(call matches .drop)
  | .commitConn => (call matches .pollReady | .sendData _ | .pollFinish)
  | _ => false

def RecvCall.issues (call : RecvCall) : StreamOp → Bool
  | .receiveClosed | .recvTerminal | .pollReceive | .storeRecvTerminal _ | .onDrained _
  | .submitReceiveComplete _ => (call matches .pollData)
  | .submitStopSending _ | .closeReceiveLocally => (call matches .stopSending _)
  | .dropRecvHalf => (call matches .drop)
  | _ => false

def RecvCall.issuesConn (call : RecvCall) : ConnOp → Bool
  | .observeConnWinner => (call matches .pollData)
  | _ => false

def OpenCall.issues (n : Nat) (call : OpenCall) : ConnOp → Bool
  | .recordConnTerminal candidate => (call matches .close _) && candidate.isProvisional
  | .submitConnShutdown _ => (call matches .close _)
  | .commitConn | .submitOpenStart _ | .closeOpening _ => !(call matches .close _)
  | .holder opener _ | .setHolder opener _ _ => !(call matches .close _) && opener == n
  | _ => false

def OpenCall.issuesStream (call : OpenCall) : StreamOp → Bool
  | .pollStart => !(call matches .close _)
  | _ => false

/-- An accept frontend polls one of the two queues. -/
def acceptIssues (uni : Bool) : ConnOp → Bool
  | .failFastTerminal | .commitConn => true
  | .pollUni => uni
  | .pollBidi => !uni
  | _ => false

/-- What the body of a connection callback may issue. -/
def connBodyPermits : Op → Prop
  | .conn op => ConnectionEvent.bodyIssues op
  | .stream _ _ => False

/-- What the body of a stream callback may issue. -/
def bodyPermits (key : StreamKey) (event : StreamEvent) : Op → Prop
  | .conn op => event.issuesConn op
  | .stream other op => other = key ∧ event.bodyIssues op

/-- What the recovery of a stream callback may issue. -/
def recoverPermits (key : StreamKey) : Op → Prop
  | .conn _ => False
  | .stream other op => other = key ∧ op.recovers

/-- What each request may issue. -/
def permits : Request → Op → Prop
  | .connection _, .conn op => ConnectionEvent.issues op
  | .pollAcceptRecv, .conn op => acceptIssues true op
  | .pollAcceptBidi, .conn op => acceptIssues false op
  | .opener n call, .conn op => call.issues n op
  | .opener _ call, .stream _ op => call.issuesStream op
  | .stream _ event, .conn op => event.issuesConn op
  | .stream key event, .stream other op => other = key ∧ event.issues op
  | .send _ call, .conn op => call.issuesConn op
  | .send key call, .stream other op => other = key ∧ call.issues op
  | .recv _ call, .conn op => call.issuesConn op
  | .recv key call, .stream other op => other = key ∧ call.issues op
  | _, _ => False

section Owner

variable {key : StreamKey} {request : Request}

theorem owner_eq_sendHalf (h : request.owner = .sendHalf key) :
    ∃ call, request = .send key call := by
  cases request <;> cases h
  exact ⟨_, rfl⟩

theorem owner_eq_recvHalf (h : request.owner = .recvHalf key) :
    ∃ call, request = .recv key call := by
  cases request <;> cases h
  exact ⟨_, rfl⟩

theorem owner_eq_connCallback (h : request.owner = .connCallback) :
    ∃ event, request = .connection event := by
  cases request <;> cases h
  exact ⟨_, rfl⟩

theorem owner_eq_streamCallback (h : request.owner = .streamCallback key) :
    ∃ event, request = .stream key event := by
  cases request <;> cases h
  exact ⟨_, rfl⟩

/-- Operations that only the callback of the stream issues. -/
def StreamOp.ofHandler : StreamOp → Bool
  | .isPoisoned | .panicPoint _ | .setPoisoned | .forceShutdown _ | .resolveStart _ | .dropStart
  | .sendEvent _ | .dropSend | .receiveTerminalSent | .receiveIsSome | .admitIndication _
  | .sendReceive _ | .endReceive | .dropReceive => true
  | _ => false

/-- Operations that only the callback of the connection issues. -/
def ConnOp.ofHandler : ConnOp → Bool
  | .isPoisoned | .panicPoint _ | .setPoisoned | .forceShutdown _ | .resetStreamOwned
  | .streamOwned | .heldStream | .sendConnected _ | .sendShutdown | .dropUni | .dropBidi
  | .getStreamId _ | .fromRaw _ | .sendUni _ | .sendBidi _ => true
  | _ => false

theorem streamHandler_of_permits {op : StreamOp} (h : permits request (.stream key op))
    (hOp : op.ofHandler = true) : ∃ event, request = .stream key event := by
  cases request with
  | stream other event =>
      obtain ⟨rfl, -⟩ := h
      exact ⟨event, rfl⟩
  | send other call =>
      have hIssues := h.2
      cases op <;> first | exact absurd hOp Bool.false_ne_true | exact absurd hIssues Bool.false_ne_true
  | recv other call =>
      have hIssues := h.2
      cases op <;> first | exact absurd hOp Bool.false_ne_true | exact absurd hIssues Bool.false_ne_true
  | opener n call =>
      cases op <;> first | exact absurd hOp Bool.false_ne_true | exact absurd h Bool.false_ne_true
  | _ => exact h.elim

theorem connectionHandler_of_permits {op : ConnOp} (h : permits request (.conn op))
    (hOp : op.ofHandler = true) : ∃ event, request = .connection event := by
  cases request with
  | connection event => exact ⟨event, rfl⟩
  | _ => cases op <;> first | exact absurd hOp Bool.false_ne_true | exact absurd h Bool.false_ne_true

end Owner

section Uses

variable {α β : Type} {P : Op → Prop}

theorem uses_onConn {op : ConnOp} (h : P (.conn op)) :
    (onConn op).Uses (S := signature) P := ⟨h, fun _ => trivial⟩

theorem uses_onStream {key : StreamKey} {op : StreamOp} (h : P (.stream key op)) :
    (onStream key op).Uses (S := signature) P := ⟨h, fun _ => trivial⟩

theorem uses_straight {code : Code α} {result : α → Result} (h : code.Uses P) :
    (straight code result).Uses P := h.bind fun _ => trivial

section Send

variable (key : StreamKey) {call : SendCall}

theorem uses_sendOp {op : StreamOp} (h : call.issues op) :
    (onStream key op).Uses (permits (.send key call)) := uses_onStream ⟨rfl, h⟩

theorem uses_peekConn (h : call.issuesConn .peekConnTerminal) :
    (onConn .peekConnTerminal).Uses (permits (.send key call)) := uses_onConn h

theorem uses_commitConn (h : call.issuesConn .commitConn) :
    (onConn .commitConn).Uses (permits (.send key call)) := uses_onConn h

theorem uses_resolveTerminal (hLoad : call.issues .loadWinner)
    (h : call.issuesConn .peekConnTerminal) :
    (resolveTerminal key).Uses (permits (.send key call)) := by
  refine (uses_sendOp key hLoad).bind fun winner => ?_
  split
  · exact (uses_peekConn key h).bind fun _ => trivial
  · refine (uses_peekConn key h).bind fun reason => ?_
    split <;> trivial
  · exact (uses_peekConn key h).bind fun _ => trivial
  · trivial

theorem uses_commitSendWinner (winner : SendTerminal) {next : SendTerminal → Round}
    (h : call.issuesConn .commitConn)
    (hNext : ∀ winner, (next winner).Uses (permits (.send key call))) :
    (commitSendWinner winner >>= next).Uses (permits (.send key call)) := by
  refine Program.Uses.bind ?_ hNext
  cases winner with
  | connection fallback => exact (uses_commitConn key h).bind fun _ => trivial
  | _ => trivial

theorem uses_pollInput (input : SendPoll → Option SendTerminal → SendInput)
    (h : call.issues .pollSendChannel) (hLoad : call.issues .loadWinner)
    (hPeek : call.issuesConn .peekConnTerminal) :
    (pollInput key input).Uses (permits (.send key call)) :=
  (uses_sendOp key h).bind fun _ => (uses_resolveTerminal key hLoad hPeek).bind fun _ => trivial

theorem uses_publishInput (candidate : SendTerminal) (continuation : TerminalContinuation)
    (remaining : List UInt8) (h : call.issues (.publishSend candidate)) :
    (publishInput key candidate continuation remaining).Uses (permits (.send key call)) :=
  (uses_sendOp key h).bind fun _ => trivial

theorem uses_pollReady : (pollReady key).Uses (permits (.send key .pollReady)) := by
  refine (uses_sendOp key rfl).bind fun started => ?_
  split
  · refine (uses_resolveTerminal key rfl rfl).bind fun winner => ?_
    split
    · exact uses_commitSendWinner key _ rfl fun _ => trivial
    · trivial
  · exact uses_pollInput key _ rfl rfl rfl

theorem uses_pollReadyRound (round : SendRound) :
    (pollReadyRound key round).Uses (permits (.send key .pollReady)) := by
  refine (uses_sendOp key rfl).bind fun command => ?_
  split
  · trivial
  · trivial
  · exact uses_commitSendWinner key _ rfl fun _ => trivial
  · exact uses_pollInput key _ rfl rfl rfl
  · exact uses_publishInput key _ _ _ rfl
  · trivial

theorem uses_sendData (config : H3Config) (payload : List UInt8) :
    (sendData key config payload).Uses (permits (.send key (.sendData payload))) :=
  (uses_resolveTerminal key rfl rfl).bind fun _ => trivial

theorem uses_submitOwnedSend (buffer : SendBuffer) (payload : List UInt8) :
    (submitOwnedSend key buffer).Uses (permits (.send key (.sendData payload))) := by
  refine (uses_sendOp key rfl).bind fun context =>
    (uses_sendOp key rfl).bind fun result => ?_
  split
  · exact (uses_sendOp key rfl).bind fun _ => trivial
  · trivial

theorem uses_sendDataRound (round : SendRound) (payload : List UInt8) :
    (sendDataRound key round).Uses (permits (.send key (.sendData payload))) := by
  refine (uses_sendOp key rfl).bind fun command => ?_
  split
  · trivial
  · trivial
  · exact uses_commitSendWinner key _ rfl fun _ => trivial
  · exact (uses_submitOwnedSend key _ payload).bind fun _ =>
      (uses_resolveTerminal key rfl rfl).bind fun _ => trivial
  · exact uses_publishInput key _ _ _ rfl
  · trivial

theorem uses_pollFinishRound (round : SendRound) :
    (pollFinishRound key round).Uses (permits (.send key .pollFinish)) := by
  refine (uses_sendOp key rfl).bind fun command => ?_
  split
  · trivial
  · trivial
  · exact uses_commitSendWinner key _ rfl fun _ => trivial
  · exact (uses_sendOp key rfl).bind fun _ =>
      (uses_resolveTerminal key rfl rfl).bind fun _ => trivial
  · exact uses_pollInput key _ rfl rfl rfl
  · exact uses_publishInput key _ _ _ rfl
  · trivial

theorem uses_resetRound (round : SendRound) (code : Nat) :
    (resetRound key round).Uses (permits (.send key (.reset code))) := by
  refine (uses_sendOp key rfl).bind fun command => ?_
  split
  · trivial
  · exact (uses_sendOp key rfl).bind fun _ =>
      (uses_resolveTerminal key rfl rfl).bind fun _ => trivial
  · exact uses_publishInput key _ _ _ rfl
  · trivial

theorem uses_sendEntry (config : H3Config) (call : SendCall) :
    (call.entry config key).Uses (permits (.send key call)) := by
  cases call with
  | pollReady => exact uses_pollReady key
  | sendData payload => exact uses_sendData key config payload
  | pollFinish => exact uses_pollInput key _ rfl rfl rfl
  | reset code => exact (uses_resolveTerminal key rfl rfl).bind fun _ => trivial
  | drop => exact uses_straight (uses_sendOp key rfl)

end Send

section Receive

variable (key : StreamKey)

theorem uses_recvOp {op : StreamOp} {call : RecvCall}
    (h : call.issues op) :
    (onStream key op).Uses (permits (.recv key call)) := uses_onStream ⟨rfl, h⟩

theorem uses_observeConn :
    (onConn .observeConnWinner).Uses (permits (.recv key .pollData)) := uses_onConn rfl

theorem uses_storeAndConvert (terminal : ReceiveTerminal) :
    (storeAndConvert key terminal).Uses (permits (.recv key .pollData)) :=
  (uses_recvOp key rfl).bind fun _ => trivial

theorem uses_pollEvent : (pollEvent key).Uses (permits (.recv key .pollData)) := by
  refine (uses_recvOp key rfl).bind fun closed => ?_
  split
  · trivial
  refine (uses_recvOp key rfl).bind fun terminal => ?_
  split
  · trivial
  refine (uses_recvOp key rfl).bind fun polled => ?_
  split
  · trivial
  · trivial
  · exact uses_storeAndConvert key _
  · exact uses_storeAndConvert key _
  · exact (uses_observeConn key).bind fun _ => uses_storeAndConvert key _
  · exact uses_storeAndConvert key _
  · exact uses_storeAndConvert key _

theorem uses_pollData : (pollData key).Uses (permits (.recv key .pollData)) := by
  refine (uses_pollEvent key).bind fun polled => ?_
  split
  · refine (uses_recvOp key rfl).bind fun len => ?_
    split
    · exact (uses_recvOp key rfl).bind fun _ => trivial
    · trivial
  · trivial

theorem uses_recvEntry (call : RecvCall) :
    (call.entry key).Uses (permits (.recv key call)) := by
  cases call with
  | pollData => exact uses_straight (uses_pollData key)
  | stopSending code =>
      exact uses_straight ((uses_recvOp key rfl).bind fun _ =>
        uses_recvOp key rfl)
  | drop => exact uses_straight (uses_recvOp key rfl)

end Receive

theorem uses_guardCallback {isPoisoned : Code Bool} {panicPoint : Nat → Code Bool}
    {poisonedResult : Except Status Unit} {body recover : Code (Except Status Unit)}
    (hPoisoned : isPoisoned.Uses P) (hPanic : ∀ k, (panicPoint k).Uses P)
    (hBody : body.Uses P) (hRecover : recover.Uses P) :
    (guardCallback isPoisoned panicPoint poisonedResult body recover).Uses P := by
  refine hPoisoned.bind fun poisoned => ?_
  split
  · trivial
  · exact Program.Uses.guarded hPanic hRecover hBody 0

section StreamCallback

variable (key : StreamKey)

theorem uses_bodyOp {op : StreamOp} {event : StreamEvent} (h : event.bodyIssues op) :
    (onStream key op).Uses (bodyPermits key event) := uses_onStream ⟨rfl, h⟩

theorem uses_publishRecvTerminal {event : StreamEvent} {terminal : ReceiveEvent} :
    (publishRecvTerminal key terminal).Uses (bodyPermits key event) := by
  refine (uses_bodyOp key rfl).bind fun sent => ?_
  split
  · trivial
  · exact (uses_bodyOp key rfl).bind fun _ => uses_bodyOp key rfl

theorem uses_receiveData (buffers : List (List UInt8)) (fin : Bool) (bytes : List UInt8) :
    (receiveData key bytes).Uses (bodyPermits key (.receive buffers fin)) := by
  refine (uses_bodyOp key rfl).bind fun sent => (uses_bodyOp key rfl).bind fun isSome => ?_
  split
  · refine (uses_bodyOp key rfl).bind fun admitted => ?_
    split
    · trivial
    · trivial
    · exact (uses_bodyOp key rfl).bind fun _ => trivial
  · trivial

theorem uses_recordConnTerminal {event : StreamEvent} (candidate : ConnectionTerminal)
    (h : event.issuesConn (.recordConnTerminal candidate)) :
    (onConn (.recordConnTerminal candidate)).Uses (bodyPermits key event) := uses_onConn h

theorem uses_publishConnTerminal {event : StreamEvent} (reason : ConnectionTerminal)
    (h : event.issuesConn (.recordConnTerminal reason)) :
    (publishConnTerminal key reason).Uses (bodyPermits key event) :=
  (uses_recordConnTerminal key reason h).bind fun _ =>
    (uses_publishRecvTerminal key).bind fun _ => (uses_bodyOp key rfl).bind fun _ => trivial

theorem uses_streamCallback (event : StreamEvent) :
    (streamCallback key event).Uses (bodyPermits key event) := by
  cases event with
  | startComplete status id => exact (uses_bodyOp key rfl).bind fun _ => trivial
  | sendComplete cancelled context =>
      cases context <;>
        exact (uses_bodyOp key rfl).bind fun _ => (uses_bodyOp key rfl).bind fun _ => trivial
  | receive buffers fin =>
      exact (uses_receiveData key buffers fin _).bind fun _ =>
        ((uses_publishRecvTerminal key).when fin).bind fun _ => trivial
  | peerSendShutdown => exact (uses_publishRecvTerminal key).bind fun _ => trivial
  | peerSendAborted code => exact (uses_publishRecvTerminal key).bind fun _ => trivial
  | peerReceiveAborted code =>
      exact (uses_bodyOp key rfl).bind fun _ => (uses_bodyOp key rfl).bind fun _ => trivial
  | sendShutdownComplete graceful => exact (uses_bodyOp key rfl).bind fun _ => trivial
  | shutdownComplete connectionShutdown byApp closedRemotely code status =>
      refine Program.Uses.bind ?_ fun _ => (uses_bodyOp key rfl).bind fun _ =>
        (uses_bodyOp key rfl).bind fun _ => (uses_bodyOp key rfl).bind fun _ => trivial
      cases connectionShutdown with
      | true => exact uses_publishConnTerminal key _ rfl
      | false => trivial
  | other => trivial

theorem uses_recoverOp {op : StreamOp} (h : op.recovers) :
    (onStream key op).Uses (recoverPermits key) := uses_onStream ⟨rfl, h⟩

theorem uses_streamRecover : (streamRecover key).Uses (recoverPermits key) := by
  refine (uses_recoverOp key rfl).bind fun _ => (uses_recoverOp key rfl).bind fun _ =>
    (uses_recoverOp key rfl).bind fun _ => (uses_recoverOp key rfl).bind fun _ =>
    Program.Uses.bind ?_ fun _ => (uses_recoverOp key rfl).bind fun _ =>
    (uses_recoverOp key rfl).bind fun _ => trivial
  refine (uses_recoverOp key rfl).bind fun sent => ?_
  split
  · trivial
  · exact (uses_recoverOp key rfl).bind fun _ => uses_recoverOp key rfl

theorem bodyPermits_permits {key : StreamKey} {event : StreamEvent} {op : Op}
    (h : bodyPermits key event op) : permits (.stream key event) op := by
  cases op with
  | conn op => exact h
  | stream other op =>
      refine ⟨h.1, ?_⟩
      simp only [StreamEvent.issues, Bool.or_eq_true]
      exact .inl (.inl h.2)

theorem recoverPermits_permits {key : StreamKey} {event : StreamEvent} {op : Op}
    (h : recoverPermits key op) : permits (.stream key event) op := by
  cases op with
  | conn op => exact h.elim
  | stream other op =>
      refine ⟨h.1, ?_⟩
      simp only [StreamEvent.issues, Bool.or_eq_true]
      exact .inl (.inr h.2)

theorem uses_streamHandler (event : StreamEvent) :
    (streamHandler key event).Uses (permits (.stream key event)) := by
  have hPoisoned : permits (.stream key event) (.stream key .isPoisoned) :=
    ⟨rfl, by simp [StreamEvent.issues]⟩
  have hPanic : ∀ k, permits (.stream key event) (.stream key (.panicPoint k)) :=
    fun k => ⟨rfl, by simp [StreamEvent.issues]⟩
  exact uses_guardCallback (uses_onStream hPoisoned) (fun k => uses_onStream (hPanic k))
    ((uses_streamCallback key event).mono fun _ => bodyPermits_permits)
    ((uses_streamRecover key).mono fun _ => recoverPermits_permits)

end StreamCallback

section ConnCallback

/-- What the body of a connection callback may issue for an event. -/
def ConnectionEvent.bodyOwns (event : ConnectionEvent) : Op → Prop
  | .conn op => ConnectionEvent.bodyIssues op && event.announces op
  | .stream _ _ => False

theorem uses_connBodyOp {event : ConnectionEvent} {op : ConnOp}
    (h : ConnectionEvent.bodyIssues op && event.announces op) : (onConn op).Uses event.bodyOwns :=
  uses_onConn h

theorem uses_wakeAcceptors (hUni : (onConn .dropUni).Uses P) (hBidi : (onConn .dropBidi).Uses P) :
    wakeAcceptors.Uses P := hUni.bind fun _ => hBidi

theorem uses_acceptStreamId {event : ConnectionEvent} (key : StreamKey) :
    (acceptStreamId key).Uses event.bodyOwns := by
  have hWake := uses_wakeAcceptors (P := event.bodyOwns) (uses_connBodyOp rfl)
    (uses_connBodyOp rfl)
  refine (uses_connBodyOp rfl).bind fun raw => ?_
  split
  · exact (uses_connBodyOp rfl).bind fun _ => hWake.bind fun _ => trivial
  · split
    · trivial
    · exact (uses_connBodyOp rfl).bind fun _ => hWake.bind fun _ => trivial

theorem uses_deliverStream (key : StreamKey) (unidirectional : Bool) :
    (deliverStream key unidirectional).Uses
      (ConnectionEvent.peerStreamStarted key unidirectional).bodyOwns := by
  cases unidirectional <;>
    exact uses_connBodyOp (by simp [ConnectionEvent.bodyIssues, ConnectionEvent.announces])

theorem owns_connectionCallback (event : ConnectionEvent) :
    (connectionCallback event).Uses event.bodyOwns := by
  cases event with
  | connected => exact (uses_connBodyOp rfl).bind fun _ => trivial
  | shutdownInitiatedByPeer code =>
      exact (uses_connBodyOp rfl).bind fun _ =>
        (uses_connBodyOp rfl).bind fun _ => trivial
  | shutdownInitiatedByTransport status code =>
      exact (uses_connBodyOp rfl).bind fun _ =>
        (uses_connBodyOp rfl).bind fun _ => trivial
  | peerStreamStarted key unidirectional =>
      refine (uses_acceptStreamId key).bind fun id => ?_
      split
      · trivial
      refine (uses_connBodyOp rfl).bind fun _ => (uses_deliverStream key unidirectional).bind
        fun delivered => ?_
      split
      · trivial
      · exact (uses_connBodyOp rfl).bind fun _ => trivial
  | shutdownComplete =>
      exact (uses_connBodyOp rfl).bind fun _ => (uses_connBodyOp rfl).bind fun _ =>
        (uses_connBodyOp rfl).bind fun _ => (uses_connBodyOp rfl).bind fun _ =>
        (uses_connBodyOp rfl).bind fun _ => trivial
  | other => trivial

theorem uses_connectionCallback (event : ConnectionEvent) :
    (connectionCallback event).Uses connBodyPermits := by
  apply (owns_connectionCallback event).mono
  intro op h
  cases op with
  | conn op => exact (Bool.and_eq_true_iff.1 h).1
  | stream key op => exact h

variable (event : ConnectionEvent)

/-- What a connection callback may issue for an event. -/
def ConnectionEvent.owns (event : ConnectionEvent) : Op → Prop
  | .conn op => ConnectionEvent.issues op && event.announces op
  | .stream _ _ => False

theorem uses_connOp {op : ConnOp} (h : ConnectionEvent.issues op && event.announces op) :
    (onConn op).Uses event.owns := uses_onConn h

theorem uses_connectionRecover : connectionRecover.Uses event.owns := by
  have hEnd : ∀ owned : Bool, (if owned then pure (.ok ()) else pure (.error internalErrorStatus) :
      Code (Except Status Unit)).Uses event.owns := by
    intro owned
    split <;> trivial
  have hOp : ∀ op : ConnOp, (ConnectionEvent.issues op && event.announces op) = true →
      (onConn op).Uses event.owns := fun op h => uses_onConn h
  have hRest := (hOp (.forceShutdown h3InternalError) rfl).bind fun _ =>
    (hOp (.recordConnTerminal (.internal "connection callback panicked")) rfl).bind fun _ =>
    (hOp (.sendConnected (.error internalErrorStatus)) rfl).bind fun _ =>
    (uses_wakeAcceptors (hOp _ rfl) (hOp _ rfl)).bind fun _ =>
    (hOp .sendShutdown rfl).bind fun _ =>
    (hOp .setPoisoned rfl).bind fun _ => (hOp .streamOwned rfl).bind hEnd
  refine (hOp .heldStream rfl).bind fun held => ?_
  split
  · exact (uses_connOp event rfl).bind fun _ => hRest
  · exact hRest

theorem bodyOwns_owns {op : Op} (h : event.bodyOwns op) : event.owns op := by
  cases op with
  | stream key op => exact h
  | conn op =>
      obtain ⟨hIssues, hOwn⟩ := Bool.and_eq_true_iff.1 h
      refine Bool.and_eq_true_iff.2 ⟨?_, hOwn⟩
      cases op <;> first | rfl | cases hIssues

theorem owns_connectionHandler : (connectionHandler event).Uses event.owns :=
  (uses_connOp event rfl).bind fun _ => uses_guardCallback (uses_connOp event rfl)
    (fun _ => uses_connOp event rfl)
    ((owns_connectionCallback event).mono fun _ => bodyOwns_owns event)
    (uses_connectionRecover event)

theorem uses_connectionHandler :
    (connectionHandler event).Uses (permits (.connection event)) := by
  apply (owns_connectionHandler event).mono
  intro op h
  cases op with
  | conn op => exact (Bool.and_eq_true_iff.1 h).1
  | stream key op => exact h.elim

end ConnCallback

theorem uses_pollAccept {next : Code (Poll (Option (Option StreamKey)))}
    (hFail : P (.conn .failFastTerminal)) (hCommit : P (.conn .commitConn)) (h : next.Uses P) :
    (pollAccept next).Uses P := by
  refine (uses_onConn hFail).bind fun cause => ?_
  split
  · trivial
  refine h.bind fun polled => ?_
  split
  · trivial
  · trivial
  · refine Program.Uses.bind ((uses_onConn hCommit).bind fun cause => ?_) fun _ => trivial
    split <;> trivial

theorem uses_pollUni : (onConn .pollUni).Uses (permits .pollAcceptRecv) := uses_onConn rfl

theorem uses_pollBidi : (onConn .pollBidi).Uses (permits .pollAcceptBidi) := uses_onConn rfl

section Opener

variable (n : Nat) {call : OpenCall}

theorem uses_openerOp {op : ConnOp} (h : call.issues n op) :
    (onConn op).Uses (permits (.opener n call)) := uses_onConn h

variable (hCall : call.issuesStream .pollStart)
include hCall

theorem uses_commitOpen : (onConn .commitConn).Uses (permits (.opener n call)) :=
  uses_openerOp n hCall

theorem uses_closeOpening (key : StreamKey) :
    (onConn (.closeOpening key)).Uses (permits (.opener n call)) :=
  uses_openerOp n hCall

theorem uses_holder (uni : Bool) :
    (onConn (.holder n uni)).Uses (permits (.opener n call)) :=
  uses_openerOp n (Bool.and_eq_true_iff.2 ⟨hCall, beq_self_eq_true n⟩)

theorem uses_setHolder (uni : Bool) (key : Option StreamKey) :
    (onConn (.setHolder n uni key)).Uses (permits (.opener n call)) :=
  uses_openerOp n (Bool.and_eq_true_iff.2 ⟨hCall, beq_self_eq_true n⟩)

theorem uses_dropOpening (uni : Bool) :
    (dropOpening n uni).Uses (permits (.opener n call)) := by
  refine (uses_holder n hCall uni).bind fun held =>
    (uses_setHolder n hCall uni none).bind fun _ => ?_
  split
  · exact uses_closeOpening n hCall _
  · trivial

theorem uses_classifyStartOutcome (outcome : Except Status Nat) :
    (classifyStartOutcome outcome).Uses (permits (.opener n call)) := by
  unfold classifyStartOutcome
  split
  · refine (uses_commitOpen n hCall).bind fun cause => ?_
    split <;> trivial
  · split <;> trivial

theorem uses_pollOpening (uni : Bool) :
    (pollOpening n uni).Uses (permits (.opener n call)) := by
  refine (uses_holder n hCall uni).bind fun held => ?_
  split
  · trivial
  next key =>
    have hStart : (onStream key .pollStart).Uses (permits (.opener n call)) :=
      uses_onStream hCall
    refine hStart.bind fun polled => ?_
    split
    · trivial
    · refine (uses_dropOpening n hCall uni).bind fun _ => Program.Uses.bind ?_ fun _ => trivial
      refine (uses_commitOpen n hCall).bind fun cause => ?_
      split <;> trivial
    · refine (uses_setHolder n hCall uni none).bind fun _ =>
        (uses_classifyStartOutcome n hCall _).bind fun outcome => ?_
      split
      · trivial
      · exact (uses_closeOpening n hCall key).bind fun _ => trivial

theorem uses_pollOpenInner (uni : Bool) :
    (pollOpenInner n uni).Uses (permits (.opener n call)) := by
  refine (uses_commitOpen n hCall).bind fun cause => ?_
  split
  · exact (uses_dropOpening n hCall uni).bind fun _ => trivial
  refine (uses_holder n hCall uni).bind fun held => ?_
  split
  · exact uses_pollOpening n hCall uni
  have hStart : (onConn (.submitOpenStart uni)).Uses (permits (.opener n call)) :=
    uses_openerOp n hCall
  refine hStart.bind fun started => ?_
  split
  · exact (uses_setHolder n hCall uni _).bind fun _ => uses_pollOpening n hCall uni
  · refine (uses_commitOpen n hCall).bind fun cause => ?_
    split <;> trivial

omit hCall in
theorem uses_openEntry (call : OpenCall) : (call.entry n).Uses (permits (.opener n call)) := by
  cases call with
  | pollOpenBidi => exact uses_straight (uses_pollOpenInner n rfl false)
  | pollOpenSend => exact uses_straight (uses_pollOpenInner n rfl true)
  | close code =>
      exact uses_straight ((uses_openerOp n rfl).bind fun _ => uses_openerOp n rfl)

end Opener

/-- The code a request starts with keeps to what the request may issue. -/
theorem uses_entry (config : H3Config) (request : Request) :
    (request.entry config).Uses (permits request) := by
  cases request with
  | connection event => exact uses_straight (uses_connectionHandler event)
  | pollAcceptRecv =>
      exact uses_straight (uses_pollAccept rfl rfl uses_pollUni)
  | pollAcceptBidi =>
      exact uses_straight (uses_pollAccept rfl rfl uses_pollBidi)
  | opener n call => exact uses_openEntry n call
  | stream key event => exact uses_straight (uses_streamHandler key event)
  | send key call => exact uses_sendEntry key config call
  | recv key call => exact uses_recvEntry key call

/-- So does every later round of it. -/
theorem uses_body (request : Request) (round : SendRound) :
    (request.body round).Uses (permits request) := by
  unfold Request.body
  split
  · exact uses_pollReadyRound _ round
  · exact uses_sendDataRound _ round _
  · exact uses_pollFinishRound _ round
  · exact uses_resetRound _ round _
  · trivial

end Uses

end MsQuicH3
