import MsQuicH3.Concurrency.View
import MsQuicH3.Concurrency.Calls
import MsQuicH3.Effect

/-! The streams a peer starts. An invocation of the connection callback refuses the stream
it is offered, or takes it and then delivers it or closes it. A panic may strike anywhere:
it never makes both sides close a stream, and never none. -/
namespace MsQuicH3

open Concurrency

/-- What the callback does with a stream of the peer. -/
inductive PeerMark where
  | taken
  | delivered
  | closed
  deriving DecidableEq, Repr

def Op.peerMark : (op : Op) → op.Reply → List (StreamKey × PeerMark)
  | .conn (.fromRaw key), _ => [(key, .taken)]
  | .conn (.sendUni key), sent => if sent then [(key, .delivered)] else []
  | .conn (.sendBidi key), sent => if sent then [(key, .delivered)] else []
  | .conn (.closeStream key), _ => [(key, .closed)]
  | _, _ => []

def peerMarks (events : List AdapterEvent) : List (StreamKey × PeerMark) :=
  events.flatMap fun e => Op.peerMark e.op e.reply

/-- What became of the stream an invocation was offered, and what the invocation returned.
Native code closes the stream on an error, and only then. -/
inductive PeerFate (key : StreamKey) : List (StreamKey × PeerMark) → Except Status Unit → Prop where
  | refused (status : Status) : PeerFate key [] (.error status)
  | delivered : PeerFate key [(key, .taken), (key, .delivered)] (.ok ())
  | closed : PeerFate key [(key, .taken), (key, .closed)] (.ok ())

/-- Where the stream is while its invocation runs. -/
inductive PeerStage where
  | offered
  | held
  | delivered
  | closed

namespace PeerStage

variable (key : StreamKey)

def marks : PeerStage → List (StreamKey × PeerMark)
  | .offered => []
  | .held => [(key, .taken)]
  | .delivered => [(key, .taken), (key, .delivered)]
  | .closed => [(key, .taken), (key, .closed)]

/-- The local variable of the invocation and its ownership token. -/
def locals : PeerStage → Option StreamKey × Bool
  | .offered => (none, false)
  | .held => (some key, true)
  | .delivered | .closed => (none, true)

def next (stage : PeerStage) : (op : Op) → op.Reply → PeerStage
  | .conn (.fromRaw _), _ => .held
  | .conn (.sendUni _), sent | .conn (.sendBidi _), sent => if sent then .delivered else stage
  | .conn (.closeStream _), _ => .closed
  | _, _ => stage

/-- The stream is where the marks and the locals say. -/
def Stands (stage : PeerStage) (events : List AdapterEvent) (v : Option StreamKey × Bool) : Prop :=
  peerMarks events = stage.marks key ∧ v = stage.locals key

end PeerStage

/-- Operations on the stream of an invocation or on its ownership token. -/
def ConnOp.onPeer : ConnOp → Bool
  | .fromRaw _ | .closeStream _ | .sendUni _ | .sendBidi _ | .resetStreamOwned => true
  | _ => false

def peerLocals (s : State) : Option StreamKey × Bool := (s.heldStream, s.streamOwned)

section Perform

variable (choice : Choice) {op : ConnOp} (s : State)

theorem peerLocals_of_quiet (h : op.onPeer = false) :
    peerLocals (op.perform choice s).2 = peerLocals s := by
  cases op with
  | submitOpenStart uni =>
      obtain ⟨count, hCount⟩ := ConnOp.perform_submitOpenStart choice uni s
      rw [hCount]
      rfl
  | fromRaw _ | closeStream _ | sendUni _ | sendBidi _ | resetStreamOwned => cases h
  | _ => rfl

theorem peerMark_of_quiet (h : op.onPeer = false) (reply : op.Reply) :
    Op.peerMark (.conn op) reply = [] := by
  cases op with
  | fromRaw _ | closeStream _ | sendUni _ | sendBidi _ => cases h
  | _ => rfl

theorem connection_of_onPeer {request : Request} (h : permits request (.conn op))
    (hOp : op.onPeer = true) : ∃ event, request = .connection event := by
  cases request with
  | connection event => exact ⟨event, rfl⟩
  | _ =>
      cases op <;>
        first | exact absurd hOp Bool.false_ne_true | exact absurd h Bool.false_ne_true

end Perform

section Code

variable {config : H3Config} {key : StreamKey} {request : Request} {α : Type}
  {events : List AdapterEvent} {v : Option StreamKey × Bool}
  {post : α → List AdapterEvent → Option StreamKey × Bool → Prop}

theorem peerMarks_event (choice : Choice) (op : Op) (s : State) :
    peerMarks (events ++ [(adapter config).event choice request op s]) =
      peerMarks events ++ Op.peerMark op (op.perform config choice s).1 := by
  rw [peerMarks, List.flatMap_append, List.flatMap_singleton, peerMarks]
  rfl

/-- An operation that has nothing to do with the stream. -/
theorem sees_quietOp {stage : PeerStage} {op : ConnOp} {next : op.Reply → Code α}
    (hQuiet : op.onPeer = false) (hStands : stage.Stands key events v)
    (h : ∀ reply events, stage.Stands key events v →
      (adapter config).Sees peerLocals Eq request post events (next reply) v) :
    (adapter config).Sees peerLocals Eq request post events (onConn op >>= next) v := by
  rintro s rfl choice
  have hMarks : peerMarks (events ++ [(adapter config).event choice request (.conn op) s]) =
      peerMarks events := by
    rw [peerMarks_event, Op.perform, peerMark_of_quiet hQuiet, List.append_nil]
  have hNext := h (op.perform choice s).1 _ ⟨hMarks.trans hStands.1, hStands.2⟩
  rw [← peerLocals_of_quiet choice s hQuiet] at hNext
  exact hNext

/-- How an invocation ends. -/
def PeerEnds (key : StreamKey) (stage : PeerStage) (result : Except Status Unit)
    (events : List AdapterEvent) (v : Option StreamKey × Bool) : Prop :=
  v.1 = none ∧ PeerFate key (peerMarks events) result ∧ (stage = .offered → peerMarks events = [])

/-- Recovery returns an error unless the stream was taken. -/
theorem sees_verdict {stage : PeerStage} (h : stage.Stands key events v) (hRest : stage ≠ .held) :
    (adapter config).Sees peerLocals Eq request (PeerEnds key stage) events (do
      onConn (.forceShutdown h3InternalError)
      onConn (.recordConnTerminal (.internal "connection callback panicked"))
      onConn (.sendConnected (.error internalErrorStatus))
      wakeAcceptors
      onConn .sendShutdown
      onConn .setPoisoned
      if ← onConn .streamOwned then return .ok () else return .error internalErrorStatus) v := by
  iterate 7 refine sees_quietOp rfl h fun _ events h => ?_
  obtain ⟨hMarks, rfl⟩ := h
  intro s hView choice
  have hAfter : peerMarks (events ++ [(adapter config).event choice request (.conn .streamOwned)
      s]) = stage.marks key := (peerMarks_event choice _ s).trans ((List.append_nil _).trans hMarks)
  obtain ⟨hHeld, hOwned⟩ := Prod.mk.inj hView.symm
  change (adapter config).Sees peerLocals Eq request _ _ (if s.streamOwned then _ else _)
    (peerLocals s)
  cases stage with
  | offered =>
      rw [hOwned]
      refine ⟨hHeld, ?_, fun _ => hAfter⟩
      rw [hAfter]
      exact .refused _
  | held => exact absurd rfl hRest
  | delivered =>
      rw [hOwned]
      refine ⟨hHeld, ?_, fun hStage => by cases hStage⟩
      rw [hAfter]
      exact .delivered
  | closed =>
      rw [hOwned]
      refine ⟨hHeld, ?_, fun hStage => by cases hStage⟩
      rw [hAfter]
      exact .closed

/-- Recovery first closes the stream the invocation still held. -/
theorem sees_connectionRecover {stage : PeerStage} (h : stage.Stands key events v) :
    (adapter config).Sees peerLocals Eq request (PeerEnds key stage) events connectionRecover
      v := by
  obtain ⟨hMarks, rfl⟩ := h
  intro s hView choice
  obtain ⟨hHeld, hOwned⟩ := Prod.mk.inj hView.symm
  have hSame : peerMarks (events ++ [(adapter config).event choice request (.conn .heldStream) s]) =
      stage.marks key := (peerMarks_event choice _ s).trans ((List.append_nil _).trans hMarks)
  change (adapter config).Sees peerLocals Eq request _ _
    (match s.heldStream with | some key => _ | none => _) (peerLocals s)
  cases stage with
  | held =>
      rw [hHeld]
      intro s' hView' choice'
      obtain ⟨hHeld', hOwned'⟩ := Prod.mk.inj (hView'.symm.trans hView.symm)
      have hClosed : PeerStage.closed.Stands key
          (events ++ [(adapter config).event choice request (.conn .heldStream) s] ++
            [(adapter config).event choice' request (.conn (.closeStream key)) s'])
          (peerLocals ((Op.conn (.closeStream key)).perform config choice' s').2) := by
        refine ⟨(peerMarks_event choice' _ s').trans ?_, ?_⟩
        · rw [hSame]
          rfl
        · simp [peerLocals, Op.perform, ConnOp.perform, PeerStage.locals, hHeld', hOwned']
      apply (sees_verdict hClosed (by simp)).mono
      rintro result events v ⟨hNone, hFate, -⟩
      exact ⟨hNone, hFate, fun hStage => by cases hStage⟩
  | offered =>
      rw [hHeld]
      exact sees_verdict ⟨hSame, hView.symm⟩ (by simp)
  | delivered =>
      rw [hHeld]
      exact sees_verdict ⟨hSame, hView.symm⟩ (by simp)
  | closed =>
      rw [hHeld]
      exact sees_verdict ⟨hSame, hView.symm⟩ (by simp)

section Body

variable {stage : PeerStage} {fits : PeerStage → Prop}

/-- The body of an invocation that stands at a stage, one of those that fit it. -/
def TracksPeer (config : H3Config) (request : Request) (key : StreamKey) (fits : PeerStage → Prop)
    (post : α → List AdapterEvent → Option StreamKey × Bool → Prop) (stage : PeerStage)
    (code : Code α) : Prop :=
  (adapter config).Tracks peerLocals request PeerStage.next
    (fun stage events v => fits stage ∧ stage.Stands key events v) post stage code

theorem next_of_quiet {op : ConnOp} (hQuiet : op.onPeer = false) (reply : op.Reply) :
    stage.next (.conn op) reply = stage := by
  cases op with
  | fromRaw _ | closeStream _ | sendUni _ | sendBidi _ => cases hQuiet
  | _ => rfl

theorem tracks_quietOp {op : ConnOp} {next : op.Reply → Code α} (hQuiet : op.onPeer = false)
    (h : ∀ reply, TracksPeer config request key fits post stage (next reply)) :
    TracksPeer config request key fits post stage (onConn op >>= next) := by
  rintro events s choice ⟨hFits, hMarks, hLocals⟩
  have hStage : stage.next (.conn op) (op.perform choice s).1 = stage := next_of_quiet hQuiet _
  change (fits (stage.next (.conn op) (op.perform choice s).1) ∧
    (stage.next (.conn op) (op.perform choice s).1).Stands key _ _) ∧
    TracksPeer config request key fits post (stage.next (.conn op) (op.perform choice s).1) _
  rw [hStage]
  refine ⟨⟨hFits, ?_, ?_⟩, h _⟩
  · rw [peerMarks_event, Op.perform, peerMark_of_quiet hQuiet, List.append_nil]
    exact hMarks
  · exact (peerLocals_of_quiet choice s hQuiet).trans hLocals

theorem tracks_take {next : Unit → Code α} (hFits : fits .held)
    (h : TracksPeer config request key fits post .held (next ())) :
    TracksPeer config request key fits post .offered (onConn (.fromRaw key) >>= next) := by
  rintro events s choice ⟨-, hMarks, -⟩
  refine ⟨⟨hFits, ?_, rfl⟩, h⟩
  rw [peerMarks_event, hMarks]
  rfl

theorem tracks_close {next : Unit → Code α} (hFits : fits .closed)
    (h : TracksPeer config request key fits post .closed (next ())) :
    TracksPeer config request key fits post .held (onConn (.closeStream key) >>= next) := by
  rintro events s choice ⟨-, hMarks, hLocals⟩
  refine ⟨⟨hFits, ?_, ?_⟩, h⟩
  · rw [peerMarks_event, hMarks]
    rfl
  · obtain ⟨hHeld, hOwned⟩ := Prod.mk.inj hLocals
    simp [peerLocals, Op.perform, ConnOp.perform, PeerStage.locals, PeerStage.next, hHeld, hOwned]

theorem tracks_deliver {uni : Bool} {next : Bool → Code α} (hFits : fits .delivered)
    (hSent : TracksPeer config request key fits post .delivered (next true))
    (hKept : TracksPeer config request key fits post .held (next false)) :
    TracksPeer config request key fits post .held (deliverStream key uni >>= next) := by
  have hEither : ∀ sent : Bool,
      [(key, PeerMark.taken)] ++ (if sent then [(key, .delivered)] else []) =
        (if sent then PeerStage.delivered else .held).marks key ∧
      (if sent then none else some key, true) =
        (if sent then PeerStage.delivered else .held).locals key ∧
      (fits .held → fits (if sent then .delivered else .held)) ∧
      TracksPeer config request key fits post (if sent then .delivered else .held) (next sent) := by
    intro sent
    cases sent with
    | true => exact ⟨rfl, rfl, fun _ => hFits, hSent⟩
    | false => exact ⟨rfl, rfl, id, hKept⟩
  cases uni with
  | true =>
      rintro events s choice ⟨hHeldFits, hMarks, hLocals⟩
      obtain ⟨hHeld, hOwned⟩ := Prod.mk.inj hLocals
      obtain ⟨hSentMarks, hSentLocals, hSentFits, hRest⟩ :=
        hEither (s.uni.unboundedSend (some key)).1
      refine ⟨⟨hSentFits hHeldFits, (peerMarks_event choice _ s).trans ?_, ?_⟩, hRest⟩
      · rw [hMarks]
        exact hSentMarks
      · change (if (s.uni.unboundedSend (some key)).1 then none else s.heldStream,
          s.streamOwned) = _
        rw [hHeld, hOwned]
        exact hSentLocals
  | false =>
      rintro events s choice ⟨hHeldFits, hMarks, hLocals⟩
      obtain ⟨hHeld, hOwned⟩ := Prod.mk.inj hLocals
      obtain ⟨hSentMarks, hSentLocals, hSentFits, hRest⟩ :=
        hEither (s.bidi.unboundedSend (some key)).1
      refine ⟨⟨hSentFits hHeldFits, (peerMarks_event choice _ s).trans ?_, ?_⟩, hRest⟩
      · rw [hMarks]
        exact hSentMarks
      · change (if (s.bidi.unboundedSend (some key)).1 then none else s.heldStream,
          s.streamOwned) = _
        rw [hHeld, hOwned]
        exact hSentLocals

/-- The body for a stream that is offered. -/
theorem tracks_peerStreamStarted (uni : Bool) : TracksPeer config request key (fun _ => True)
    (fun result events v => v.1 = none ∧ PeerFate key (peerMarks events) result) .offered
    (connectionCallback (.peerStreamStarted key uni)) := by
  have hRefused : ∀ status, TracksPeer config request key (fun _ => True)
      (fun result events v => v.1 = none ∧ PeerFate key (peerMarks events) result) .offered
      (.done (.error status)) := by
    rintro status events v ⟨-, hMarks, rfl⟩
    refine ⟨rfl, ?_⟩
    rw [hMarks]
    exact .refused status
  apply tracks_quietOp rfl
  intro raw
  have hWake : ∀ status, TracksPeer config request key (fun _ => True)
      (fun result events v => v.1 = none ∧ PeerFate key (peerMarks events) result) .offered
      (wakeAcceptors >>= fun _ => .done (.error status)) := fun status =>
    tracks_quietOp rfl fun _ => tracks_quietOp rfl fun _ => hRefused status
  cases raw with
  | error status => exact tracks_quietOp rfl fun _ => hWake status
  | ok raw =>
      simp only [Program.bind]
      cases validateStreamId raw with
      | none => exact tracks_quietOp rfl fun _ => hWake .internalError
      | some id =>
          apply tracks_take trivial
          apply tracks_deliver trivial
          · rintro events v ⟨-, hMarks, rfl⟩
            refine ⟨rfl, ?_⟩
            rw [hMarks]
            exact .delivered
          · apply tracks_close trivial
            rintro events v ⟨-, hMarks, rfl⟩
            refine ⟨rfl, ?_⟩
            rw [hMarks]
            exact .closed

/-- The body for any other event. -/
theorem tracks_other {event : ConnectionEvent}
    {post : Except Status Unit → List AdapterEvent → Option StreamKey × Bool → Prop}
    (hEvent : ∀ other uni, event ≠ .peerStreamStarted other uni)
    (hPost : ∀ result events v, v.1 = none → peerMarks events = [] → post result events v) :
    TracksPeer config request key (fun stage => stage = .offered) post .offered
      (connectionCallback event) := by
  have hDone : ∀ result, TracksPeer config request key (fun stage => stage = .offered) post .offered
      (.done result) := by
    rintro result events v ⟨-, hMarks, rfl⟩
    exact hPost result events _ rfl hMarks
  cases event with
  | connected => exact tracks_quietOp rfl fun _ => hDone _
  | shutdownInitiatedByPeer code =>
      exact tracks_quietOp rfl fun _ => tracks_quietOp rfl fun _ => hDone _
  | shutdownInitiatedByTransport status code =>
      exact tracks_quietOp rfl fun _ => tracks_quietOp rfl fun _ => hDone _
  | peerStreamStarted other uni => exact absurd rfl (hEvent other uni)
  | shutdownComplete =>
      exact tracks_quietOp rfl fun _ => tracks_quietOp rfl fun _ => tracks_quietOp rfl fun _ =>
        tracks_quietOp rfl fun _ => tracks_quietOp rfl fun _ => hDone _
  | other => exact hDone _

end Body

/-- What an invocation of the connection callback makes of the streams of the peer. -/
def PeerPost (event : ConnectionEvent) (result : Except Status Unit) (events : List AdapterEvent)
    (v : Option StreamKey × Bool) : Prop :=
  v.1 = none ∧ match event with
    | .peerStreamStarted key _ => PeerFate key (peerMarks events) result
    | _ => peerMarks events = []

theorem sees_guarded {event : ConnectionEvent} {fits : PeerStage → Prop}
    {post : Except Status Unit → List AdapterEvent → Option StreamKey × Bool → Prop}
    (hBody : TracksPeer config request key fits post .offered (connectionCallback event))
    (hFits : fits .offered) (hPost : ∀ stage result events v, fits stage →
      PeerEnds key stage result events v → post result events v)
    (hStart : PeerStage.offered.Stands key events v) :
    (adapter config).Sees peerLocals Eq request post events
      (Program.guarded (fun k => onConn (.panicPoint k)) connectionRecover 0
        (connectionCallback event)) v := by
  rw [Program.guarded_eq_guardedWith PeerStage.next _ _ _ _ .offered]
  apply Machine.Sees.guardedWith _ _ _ hBody ⟨hFits, hStart⟩
  · rintro stage events v _ h rfl
    exact h
  · rintro k stage events v next ⟨hStage, hStands⟩ hNext
    exact sees_quietOp rfl hStands fun struck events h => hNext struck events v ⟨hStage, h⟩
  · rintro stage events v ⟨hStage, hStands⟩
    exact (sees_connectionRecover hStands).mono fun result events v =>
      hPost stage result events v hStage

theorem sees_connectionHandler (event : ConnectionEvent) (hIdle : v.1 = none) :
    (adapter config).Sees peerLocals Eq request (PeerPost event) [] (connectionHandler event)
      v := by
  intro s hView choice
  have hHeld : s.heldStream = none := (congrArg Prod.fst hView).symm.trans hIdle
  have hStart : ∀ key, PeerStage.offered.Stands key
      ([] ++ [(adapter config).event choice request (.conn .resetStreamOwned) s])
      (peerLocals ((adapter config).perform choice (.conn .resetStreamOwned) s).2) := fun key =>
    ⟨rfl, Prod.ext hHeld rfl⟩
  by_cases hPeer : ∃ key uni, event = .peerStreamStarted key uni
  · obtain ⟨key, uni, rfl⟩ := hPeer
    refine sees_quietOp rfl (hStart key) fun poisoned events hStands => ?_
    split
    · refine ⟨congrArg Prod.fst hStands.2, ?_⟩
      change PeerFate key (peerMarks events) (connPoisonDisp (.peerStreamStarted key uni))
      rw [hStands.1]
      exact .refused _
    · exact sees_guarded (tracks_peerStreamStarted uni) trivial
        (fun stage result events v _ hEnds => ⟨hEnds.1, hEnds.2.1⟩) hStands
  · have hOther : ∀ key uni, event ≠ .peerStreamStarted key uni := fun key uni hEvent =>
      hPeer ⟨key, uni, hEvent⟩
    have hPost : ∀ result events v, v.1 = none → peerMarks events = [] →
        PeerPost event result events v := by
      intro result events v hNone hMarks
      refine ⟨hNone, ?_⟩
      cases event with
      | peerStreamStarted key uni => exact absurd rfl (hOther key uni)
      | _ => exact hMarks
    refine sees_quietOp rfl (hStart (.opened 0)) fun poisoned events hStands => ?_
    split
    · exact hPost _ _ _ (congrArg Prod.fst hStands.2) hStands.1
    · exact sees_guarded (tracks_other hOther hPost) rfl
        (fun stage result events v hStage hEnds => hPost _ _ _ hEnds.1 (hEnds.2.2 hStage)) hStands

end Code

section Runs

variable (config : H3Config)

def peerView : (adapter config).View .connCallback (Option StreamKey × Bool) where
  view := peerLocals
  permits := permits
  rely := Eq
  idle v := v.1 = none
  loopInv _ _ _ _ := False
  post request result events v := ∃ event verdict, request = .connection event ∧
    result = .callback verdict ∧ PeerPost event verdict events v
  uses_entry := uses_entry config
  uses_body := uses_body
  rely_refl _ := rfl
  rely_trans := Eq.trans
  delivered request s s' _ hDeliver := by
    rcases deliver_cases hDeliver with rfl | ⟨_, _, _, _, _, rfl⟩ <;> rfl
  performed request op choice s hOwner hPermits := by
    cases op with
    | stream key op => rfl
    | conn op =>
        refine (peerLocals_of_quiet choice s ?_).symm
        rw [← Bool.not_eq_true]
        intro hPeer
        obtain ⟨event, rfl⟩ := connection_of_onPeer hPermits hPeer
        exact hOwner rfl
  idle_stable v v' hIdle hSame := hSame ▸ hIdle
  entry request s s' hOwner hDeliver hIdle := by
    obtain ⟨event, rfl⟩ := owner_eq_connCallback hOwner
    obtain rfl : s = s' := Option.some.inj hDeliver
    apply Machine.Sees.bind
    apply (sees_connectionHandler event hIdle).mono
    intro verdict events v hPost
    exact ⟨⟨event, verdict, rfl, rfl, hPost⟩, hPost.1⟩
  loop _ _ _ _ _ h := h.elim

variable {config} {trace : List AdapterLabel} {reached : AdapterConfig}

/-- What becomes of the streams the peer starts. -/
structure PeerDisposed (trace : List AdapterLabel) (reached : AdapterConfig) : Prop where
  offered : ∀ call key uni, .finished call ∈ trace →
    call.request = .connection (.peerStreamStarted key uni) →
    ∃ verdict, call.result = .callback verdict ∧ PeerFate key (peerMarks call.events) verdict
  /-- An invocation that still runs is on its way to one of the three ends. -/
  underway : ∀ a key uni, reached.active .connCallback = some a →
    a.request = .connection (.peerStreamStarted key uni) →
    ∃ marks verdict, PeerFate key marks verdict ∧ peerMarks a.events <+: marks
  /-- Nobody else touches a stream that was not delivered. -/
  foreign : ∀ call, .finished call ∈ trace →
    (∀ key uni, call.request ≠ .connection (.peerStreamStarted key uni)) →
    peerMarks call.events = []

/-- An operation on a peer stream is one of the connection callback. -/
theorem peerMark_of_foreign {request : Request} {op : Op} (h : permits request op)
    (hForeign : ∀ event, request ≠ .connection event) (reply : op.Reply) :
    Op.peerMark op reply = [] := by
  cases op with
  | stream key op => rfl
  | conn op =>
      apply peerMark_of_quiet
      rw [← Bool.not_eq_true]
      intro hPeer
      obtain ⟨event, hRequest⟩ := connection_of_onPeer h hPeer
      exact hForeign event hRequest

theorem peer_stream_disposed (run : Runs config trace reached) : PeerDisposed trace reached := by
  have hIdle : (peerView config).idle ((peerView config).view {}) := rfl
  obtain ⟨hLocal, hReturned⟩ := (peerView config).sound hIdle run
  constructor
  · intro call key uni hCall hRequest
    have hOwner : call.request.owner = .connCallback := by rw [hRequest]; rfl
    obtain ⟨v, ⟨event, verdict, hEvent, hResult, hPost⟩, -⟩ := hReturned call hCall hOwner
    rw [hRequest] at hEvent
    cases hEvent
    exact ⟨verdict, hResult, hPost.2⟩
  · intro a key uni hActive hRequest
    rw [hActive] at hLocal
    obtain ⟨-, before, hSame, hSees⟩ := hLocal
    have hSame : before = peerLocals reached.state := hSame
    rw [hSame] at hSees
    have hChoice : Nonempty Choice := ⟨{}⟩
    obtain ⟨outcome, later, v, hEnds⟩ := hSees.ends fun _ => rfl
    cases outcome with
    | inl loop => exact hEnds.elim
    | inr result =>
        obtain ⟨⟨event, verdict, hEvent, -, hPost⟩, -⟩ := hEnds
        rw [hRequest] at hEvent
        cases hEvent
        refine ⟨_, verdict, hPost.2, ?_⟩
        rw [peerMarks, peerMarks, List.flatMap_append]
        exact List.prefix_append _ _
  · intro call hCall hForeign
    by_cases hHandler : ∃ event, call.request = .connection event
    · obtain ⟨event, hRequest⟩ := hHandler
      have hOwner : call.request.owner = .connCallback := by rw [hRequest]; rfl
      obtain ⟨v, ⟨event, verdict, hEvent, -, hPost⟩, -⟩ := hReturned call hCall hOwner
      cases event with
      | peerStreamStarted key uni => exact absurd hEvent (hForeign key uni)
      | _ => exact hPost.2
    · rw [peerMarks, List.flatMap_eq_nil_iff]
      intro e he
      obtain ⟨hOwn, hMem⟩ := (Machine.Runs.call_events run).2 call hCall e he
      have hPermits := Machine.Runs.permitted (uses_entry config) uses_body run hMem
      rw [hOwn] at hPermits
      exact peerMark_of_foreign hPermits (fun event hRequest => hHandler ⟨event, hRequest⟩) _

/-- A stream is delivered, and a panic strikes the next invocation while it holds its stream. -/
def struckHolding : List AdapterMove :=
  serveAll [(.connection (.peerStreamStarted (.accepted 0) true), 10)] ++
    (Request.connection (.peerStreamStarted (.accepted 1) true)).serve
      (List.replicate 6 ({} : Choice) ++ { panics := true } :: List.replicate 11 ({} : Choice))

theorem peer_stream_disposed_struck : ∃ trace reached, Runs .default trace reached ∧
    (trace.flatMap (Machine.noted fun e => Op.peerMark e.op e.reply), reached.state.uni.queue) =
      ([(.accepted 0, .taken), (.accepted 0, .delivered), (.accepted 1, .taken),
        (.accepted 1, .closed)], [some (.accepted 0)]) ∧ PeerDisposed trace reached := by
  have hRun : ((adapter .default).run (Machine.initial {}) struckHolding).isSome := by decide
  exact ⟨_, _, Machine.runs_get hRun, rfl, peer_stream_disposed (Machine.runs_get hRun)⟩

end Runs

end MsQuicH3
