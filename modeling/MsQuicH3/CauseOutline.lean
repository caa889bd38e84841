import MsQuicH3.CauseInvariant
import MsQuicH3.SendChart

/-! A proof outline for the connection cause: every thread keeps the invariant of
the slot, and a call that returns a connection cause returns the frozen one. -/
namespace MsQuicH3

open Concurrency

/-- What the others may do to the slot meanwhile. -/
def causeRely (w w' : AdapterWorld) : Prop := w.state.conn.Le w'.state.conn

/-- Code keeps the invariant of the slot and ends in `post`. -/
abbrev CauseSafe {α : Type} (config : H3Config) (request : Request)
    (post : α → AdapterWorld → Prop) (events : List AdapterEvent) (program : Code α)
    (w : AdapterWorld) : Prop :=
  (adapter config).Safe (fun _ => True) CauseInv causeRely request
    (fun result _ w => post result w) events program w

/-- The post-condition of a call. -/
def CausePost (result : Result) (w : AdapterWorld) : Prop :=
  ∀ cause, result.connCause = some cause → FrozenAt w.state.conn cause

section Rules

variable {config : H3Config} {request : Request} {α β : Type}
  {post : α → AdapterWorld → Prop} {events : List AdapterEvent} {w : AdapterWorld}

theorem cause_call {op : Op} {next : op.Reply → Code α}
    (hOp : ∀ w' : AdapterWorld, causeRely w w' → op.Justified w'.state)
    (hNext : ∀ w' choice, causeRely w w' → CauseInv w' →
      CauseSafe config request post (events ++ [(adapter config).event choice request op w'.state])
        (next (op.perform config choice w'.state).1) ((adapter config).advance choice request op w')) :
    CauseSafe config request post events (Program.perform (S := signature) op >>= next) w := by
  intro w' hRely _ hInv choice _
  exact ⟨hInv.advance choice request (hOp w' hRely), hNext w' choice hRely hInv⟩

/-- An operation whose reply does not matter. -/
theorem cause_plain {op : Op} {next : op.Reply → Code α}
    (hOp : ∀ w' : AdapterWorld, causeRely w w' → op.Justified w'.state)
    (hNext : ∀ reply events (w' : AdapterWorld), causeRely w w' →
      CauseSafe config request post events (next reply) w') :
    CauseSafe config request post events (Program.perform (S := signature) op >>= next) w :=
  cause_call hOp fun _ choice hRely _ =>
    hNext _ _ _ (hRely.trans (CauseInv.conn_le _ _ choice request op))

theorem cause_commit {next : Option ConnectionTerminal → Code α}
    (hNext : ∀ reply events w', causeRely w w' →
      (∀ cause, reply = some cause → FrozenAt w'.state.conn cause) →
      CauseSafe config request post events (next reply) w') :
    CauseSafe config request post events (onConn .commitConn >>= next) w := by
  refine cause_call (fun _ _ => trivial) fun w' choice hRely _ => ?_
  refine hNext _ _ _ (hRely.trans (CauseInv.conn_le _ _ choice request _)) fun cause hReply => ?_
  exact (delivery_event config choice request (.conn .commitConn) hReply).2

/-- Code that spreads no cause. -/
theorem cause_uses {program : Code β} {next : β → Code α}
    (hUses : program.Uses fun op : Op => ∀ s, op.Justified s)
    (hNext : ∀ result events w', causeRely w w' →
      CauseSafe config request post events (next result) w') :
    CauseSafe config request post events (program >>= next) w := by
  induction program generalizing events w with
  | done result => exact hNext result events w (.refl _)
  | call op rest ih =>
      refine cause_plain (fun w' _ => hUses.1 w'.state) fun reply events w' hRely => ?_
      exact ih reply (hUses.2 reply) fun result events w'' hRely' =>
        hNext result events w'' (hRely.trans hRely')

theorem cause_bind (mid : β → AdapterWorld → Prop) {program : Code β} {next : β → Code α}
    (h : CauseSafe config request mid events program w)
    (hNext : ∀ result events w', mid result w' →
      CauseSafe config request post events (next result) w') :
    CauseSafe config request post events (program >>= next) w :=
  Machine.Safe.bind (h.mono fun result events w' => hNext result events w')

theorem causePost_none {result : Result} {w : AdapterWorld} (h : result.connCause = none) :
    CausePost result w := by
  intro cause hCause
  rw [h] at hCause
  cases hCause

theorem causePost_some {result : Result} {cause : ConnectionTerminal} {w : AdapterWorld}
    (h : result.connCause = some cause) (hFrozen : FrozenAt w.state.conn cause) :
    CausePost result w := by
  intro cause' hCause
  rw [h] at hCause
  cases hCause
  exact hFrozen

end Rules

section Frontends

variable {config : H3Config} {request : Request} {events : List AdapterEvent} {w : AdapterWorld}

theorem cause_pollAccept {next : Code (Poll (Option (Option StreamKey)))}
    (hUses : next.Uses fun op : Op => ∀ s, op.Justified s) :
    CauseSafe config request (fun result => CausePost (.pollAccept result)) events
      (pollAccept next) w := by
  refine cause_call (fun _ _ => trivial) fun w' choice hRely _ => ?_
  split
  next cause hReply =>
    exact causePost_some rfl
      (delivery_event config choice request (.conn .failFastTerminal) hReply).2
  next =>
    refine cause_uses hUses fun polled events w' _ => ?_
    split
    · exact causePost_none rfl
    · exact causePost_none rfl
    · refine cause_commit fun reply events w'' _ hReply => ?_
      cases reply with
      | some cause => exact causePost_some rfl (hReply cause rfl)
      | none => exact causePost_none rfl

/-- What an open failure says of the slot. -/
def OpenPost (error : OpenError) (w : AdapterWorld) : Prop :=
  ∀ cause, error = .recorded cause → FrozenAt w.state.conn cause

theorem OpenPost.result {error : OpenError} (h : OpenPost error w) :
    CausePost (.pollOpen (.ready (.error error))) w := by
  cases error with
  | recorded cause => exact causePost_some rfl (h cause rfl)
  | _ => exact causePost_none rfl

theorem cause_streamOpenConnError :
    CauseSafe config request OpenPost events streamOpenConnError w := by
  refine cause_commit fun reply events w' _ hReply => ?_
  cases reply with
  | some cause => exact fun cause' h => by cases h; exact hReply cause rfl
  | none => exact fun cause' h => by cases h

theorem cause_classifyStartOutcome (outcome : Except Status Nat) :
    CauseSafe config request (fun result w => ∀ error, result = .error error → OpenPost error w)
      events (classifyStartOutcome outcome) w := by
  cases outcome with
  | ok raw =>
      cases hValid : validateStreamId raw with
      | some id =>
          simp only [classifyStartOutcome, hValid]
          exact fun error h => by cases h
      | none =>
          simp only [classifyStartOutcome, hValid]
          exact fun error h cause h' => by cases h; cases h'
  | error status =>
      refine cause_commit fun reply events w' _ hReply => ?_
      cases reply with
      | some cause =>
          exact fun error h cause' h' => by cases h; cases h'; exact hReply cause rfl
      | none => exact fun error h cause' h' => by cases h; cases h'

theorem OpenPost.le {error : OpenError} {w' : AdapterWorld} (h : OpenPost error w)
    (hRely : causeRely w w') : OpenPost error w' :=
  fun cause hError => (h cause hError).le hRely

theorem pollOpenBidi_waits : OpenCall.pollOpenBidi.issuesStream .pollStart := rfl

theorem uses_justified (opener : Nat) (uni : Bool) :
    (dropOpening opener uni).Uses fun op : Op => ∀ s, op.Justified s := by
  refine (uses_dropOpening opener pollOpenBidi_waits uni).mono fun op hOp s => ?_
  cases op with
  | conn op => cases op <;> trivial
  | stream key op => cases op <;> trivial

theorem cause_pollOpening (opener : Nat) (uni : Bool) :
    CauseSafe config request (fun result => CausePost (.pollOpen result)) events
      (pollOpening opener uni) w := by
  refine cause_plain (fun _ _ => trivial) fun held events w' _ => ?_
  cases held with
  | none => exact causePost_none rfl
  | some key =>
      refine cause_plain (fun _ _ => trivial) fun polled events w' _ => ?_
      rcases polled with _ | _ | raw
      · exact causePost_none rfl
      · refine cause_uses (uses_justified opener uni) fun _ events w' _ => ?_
        exact cause_bind _ cause_streamOpenConnError fun error events w' h => h.result
      · refine cause_plain (fun _ _ => trivial) fun _ events w' _ => ?_
        refine cause_bind _ (cause_classifyStartOutcome raw) fun outcome events w' h => ?_
        cases outcome with
        | ok id => exact causePost_none rfl
        | error error =>
            exact cause_plain (fun _ _ => trivial) fun _ events w'' hRely =>
              ((h error rfl).le hRely).result

theorem cause_pollOpenInner (opener : Nat) (uni : Bool) :
    CauseSafe config request (fun result => CausePost (.pollOpen result)) events
      (pollOpenInner opener uni) w := by
  refine cause_commit fun reply events w' _ hReply => ?_
  cases reply with
  | some cause =>
      exact cause_uses (uses_justified opener uni) fun _ events w'' hRely =>
        causePost_some rfl ((hReply cause rfl).le hRely)
  | none =>
      refine cause_plain (fun _ _ => trivial) fun held events w' _ => ?_
      cases held with
      | some key => exact cause_pollOpening opener uni
      | none =>
          refine cause_plain (fun _ _ => trivial) fun started events w' _ => ?_
          cases started with
          | ok key =>
              exact cause_plain (fun _ _ => trivial) fun _ events w' _ =>
                cause_pollOpening opener uni
          | error status =>
              refine cause_commit fun reply events w' _ hReply => ?_
              cases reply with
              | some cause => exact causePost_some rfl (hReply cause rfl)
              | none => exact causePost_none rfl

end Frontends

section Receive

variable {config : H3Config} {request : Request} {events : List AdapterEvent} {w : AdapterWorld}

/-- A queued connection cause is exchanged for the frozen one, which is then cached. -/
theorem cause_observe {key : StreamKey} {fallback : ConnectionTerminal}
    (hSome : w.state.conn.terminal.isSome) :
    CauseSafe config request (fun polled => CausePost (.pollData polled)) events
      (do
        let winner ← onConn .observeConnWinner
        storeAndConvert key (.connection (winner.getD fallback))) w := by
  refine cause_call (fun w' hRely => hRely.occupied hSome) fun w' choice hRely _ => ?_
  obtain ⟨cause, hCause⟩ := Option.isSome_iff_exists.1 (hRely.occupied hSome)
  have hFrozen := (delivery_event config choice request (.conn .observeConnWinner) hCause).2
  have hReply : (Op.perform config choice (.conn .observeConnWinner) w'.state).1 = some cause := hCause
  rw [hReply]
  refine cause_plain (fun w'' hRely' => FrozenAt.le ?_ hRely') fun _ events w'' hRely' => ?_
  · exact hFrozen
  · exact causePost_some rfl (FrozenAt.le hFrozen hRely')

theorem cause_pollEvent (key : StreamKey) :
    CauseSafe config request (fun polled => CausePost (.pollData polled)) events
      (pollEvent key) w := by
  refine cause_plain (fun _ _ => trivial) fun closed events w' _ => ?_
  split
  · exact causePost_none rfl
  refine cause_call (fun _ _ => trivial) fun w' choice _ hInv => ?_
  split
  next terminal hTerminal =>
    cases terminal with
    | connection cause => exact causePost_some rfl (hInv.cached key cause hTerminal)
    | _ => exact causePost_none rfl
  refine cause_call (fun _ _ => trivial) fun w' choice _ hInv => ?_
  have hStore : ∀ terminal events w, (∀ cause, terminal ≠ .connection cause) →
      CauseSafe config request (fun polled => CausePost (.pollData polled)) events
        (storeAndConvert key terminal) w := by
    intro terminal events w hTerminal
    refine cause_plain (fun w' _ => ?_) fun _ events w' _ => ?_
    · cases terminal with
      | connection cause => exact absurd rfl (hTerminal cause)
      | _ => trivial
    · cases terminal with
      | connection cause => exact absurd rfl (hTerminal cause)
      | _ => exact causePost_none rfl
  split
  · exact causePost_none rfl
  · exact causePost_none rfl
  · exact hStore _ _ _ (by simp)
  · exact hStore _ _ _ (by simp)
  next fallback hPolled =>
    refine cause_observe ?_
    have hHead := Channel.pollNext_eq_some.1 hPolled
    exact (CauseInv.conn_le _ _ choice request _).occupied
      (hInv.queued key fallback (List.mem_of_head? hHead))
  · exact hStore _ _ _ (by simp)
  · exact hStore _ _ _ (by simp)

theorem cause_pollData (key : StreamKey) :
    CauseSafe config request (fun polled => CausePost (.pollData polled)) events
      (pollData key) w := by
  refine cause_bind _ (cause_pollEvent key) fun polled events w' h => ?_
  split
  · refine cause_plain (fun _ _ => trivial) fun drained events w' _ => ?_
    cases drained with
    | none => exact causePost_none rfl
    | some len =>
        exact cause_plain (fun _ _ => trivial) fun _ events w' _ => causePost_none rfl
  · exact h

end Receive

section StreamCallback

variable {config : H3Config} {request : Request} {events : List AdapterEvent} {w : AdapterWorld}
  {key : StreamKey}

/-- Every operation of the stream callback is justified, but for the spreading of a
connection cause. -/
theorem cause_publishRecvTerminal {event : ReceiveEvent}
    (hEvent : ∀ reason, event = .connection reason → w.state.conn.terminal.isSome)
    {α : Type} {post : α → AdapterWorld → Prop} {next : Unit → Code α}
    (hNext : ∀ events w', causeRely w w' →
      CauseSafe config request post events (next ()) w') :
    CauseSafe config request post events (publishRecvTerminal key event >>= next) w := by
  refine cause_bind (fun _ w' => causeRely w w') ?_ fun _ events w' hRely =>
    hNext events w' hRely
  refine cause_plain (fun _ _ => trivial) fun sent events w₁ hRely₁ => ?_
  cases sent with
  | true => exact hRely₁
  | false =>
      refine cause_plain (fun w' hRely => ?_) fun _ events w₂ hRely₂ => ?_
      · cases event with
        | connection reason => exact (hRely₁.trans hRely).occupied (hEvent reason rfl)
        | _ => trivial
      exact cause_plain (fun _ _ => trivial) fun _ events w₃ hRely₃ =>
        hRely₁.trans (hRely₂.trans hRely₃)

theorem record_isSome (slot : ConnTerminalState) (candidate : ConnectionTerminal)
    (h : slot.observed = true → slot.terminal.isSome) :
    (slot.record candidate).terminal.isSome := by
  unfold ConnTerminalState.record
  repeat' split
  all_goals simp_all

theorem cause_publishConnTerminal (reason : ConnectionTerminal) {α : Type}
    {post : α → AdapterWorld → Prop} {next : Unit → Code α}
    (hNext : ∀ events w', CauseSafe config request post events (next ()) w') :
    CauseSafe config request post events (publishConnTerminal key reason >>= next) w := by
  refine cause_bind (fun _ _ => True) ?_ fun _ events w' _ => hNext events w'
  refine cause_call (fun _ _ => trivial) fun w' choice _ hInv => ?_
  have hSome : ((adapter config).advance choice request (.conn (.recordConnTerminal reason))
      w').state.conn.terminal.isSome := record_isSome _ _ hInv.occupied
  refine cause_publishRecvTerminal (fun _ _ => hSome) fun events w'' hRely => ?_
  exact cause_plain (fun w₃ hRely' => (hRely.trans hRely').occupied hSome)
    fun _ events w' _ => trivial

theorem cause_receiveData (bytes : List UInt8) :
    CauseSafe config request (fun _ _ => True) events (receiveData key bytes) w := by
  refine cause_plain (fun _ _ => trivial) fun sent events w' _ =>
    cause_plain (fun _ _ => trivial) fun isSome events w' _ => ?_
  split
  · refine cause_plain (fun _ _ => trivial) fun admitted events w' _ => ?_
    cases admitted with
    | publishFailed =>
        exact cause_plain (fun _ _ => trivial) fun _ events w' _ => trivial
    | _ => trivial
  · trivial

theorem cause_streamCallback (event : StreamEvent) :
    CauseSafe config request (fun _ _ => True) events (streamCallback key event) w := by
  have hPlain : ∀ {α : Type} {op : StreamOp} {next : op.Reply → Code α} {events w},
      (∀ s, Op.Justified s (.stream key op)) →
      (∀ reply events w, CauseSafe config request (fun _ _ => True) events (next reply) w) →
      CauseSafe config request (fun _ _ => True) events (onStream key op >>= next) w :=
    fun hOp hNext => cause_plain (fun w' _ => hOp w'.state) fun reply events w' _ =>
      hNext reply events w'
  have hPublish : ∀ {event : ReceiveEvent} {next : Unit → Code (Except Status Unit)} {events w},
      (∀ reason, event ≠ .connection reason) →
      (∀ events w, CauseSafe config request (fun _ _ => True) events (next ()) w) →
      CauseSafe config request (fun _ _ => True) events (publishRecvTerminal key event >>= next) w :=
    fun hEvent hNext => cause_publishRecvTerminal (fun reason h => absurd h (hEvent reason))
      fun events w' _ => hNext events w'
  cases event with
  | startComplete status id => exact hPlain (fun _ => trivial) fun _ _ _ => trivial
  | sendComplete cancelled context =>
      cases context <;>
        exact hPlain (fun _ => trivial) fun _ _ _ => hPlain (fun _ => trivial) fun _ _ _ => trivial
  | receive buffers fin =>
      refine cause_bind _ (cause_receiveData _) fun pend events w' _ => ?_
      cases fin with
      | true => exact hPublish (by simp) fun _ _ => trivial
      | false => trivial
  | peerSendShutdown => exact hPublish (by simp) fun _ _ => trivial
  | peerSendAborted code => exact hPublish (by simp) fun _ _ => trivial
  | peerReceiveAborted code =>
      exact hPlain (fun _ => trivial) fun _ _ _ => hPlain (fun _ => trivial) fun _ _ _ => trivial
  | sendShutdownComplete graceful => exact hPlain (fun _ => trivial) fun _ _ _ => trivial
  | shutdownComplete connectionShutdown byApp closedRemotely code status =>
      have hEnd : ∀ events w, CauseSafe config request (fun _ _ => True) events (do
          onStream key .dropReceive
          onStream key .dropSend
          onStream key .dropStart
          return .ok () : Code (Except Status Unit)) w := fun events w =>
        hPlain (fun _ => trivial) fun _ _ _ => hPlain (fun _ => trivial) fun _ _ _ =>
          hPlain (fun _ => trivial) fun _ _ _ => trivial
      cases connectionShutdown with
      | true => exact cause_publishConnTerminal _ hEnd
      | false => exact hEnd _ _
  | other => trivial

theorem cause_streamRecover :
    CauseSafe config request (fun _ _ => True) events (streamRecover key) w := by
  refine cause_plain (fun _ _ => trivial) fun _ events w' _ =>
    cause_plain (fun _ _ => trivial) fun _ events w' _ =>
    cause_plain (fun _ _ => trivial) fun _ events w' _ =>
    cause_plain (fun _ _ => trivial) fun _ events w' _ =>
    cause_publishRecvTerminal (by simp) fun events w' _ => ?_
  exact cause_plain (fun _ _ => trivial) fun _ events w' _ =>
    cause_plain (fun _ _ => trivial) fun _ events w' _ => trivial

theorem cause_streamHandler (event : StreamEvent) :
    CauseSafe config request (fun _ _ => True) events (streamHandler key event) w := by
  refine cause_plain (fun _ _ => trivial) fun poisoned events w' _ => ?_
  split
  · trivial
  · refine Machine.safe_guarded (fun h h' => h.trans h') (fun _ _ _ _ _ => trivial) ?_
      (fun _ _ _ => cause_streamRecover) (cause_streamCallback event) 0
    intro k events w next hNext
    refine cause_call (fun _ _ => trivial) fun w' choice hRely hInv => ?_
    exact hNext _ _ _ (hRely.trans (CauseInv.conn_le _ _ choice request _))
      (hInv.advance choice request trivial)

end StreamCallback

section Send

variable {config : H3Config} {key : StreamKey} {call : SendCall} {w : AdapterWorld}

/-- A connection cause in hand is backed by one in the slot. -/
def Backed (terminal : Option SendTerminal) (w : AdapterWorld) : Prop :=
  ∀ fallback, terminal = some (.connection fallback) → w.state.conn.terminal.isSome

theorem Backed.le {terminal : Option SendTerminal} {w' : AdapterWorld} (h : Backed terminal w)
    (hRely : causeRely w w') : Backed terminal w' :=
  fun fallback hTerminal => hRely.occupied (h fallback hTerminal)

/-- The assertion at each point of a send method. -/
def causeAt : SendPoint → AdapterWorld → Prop
  | .peek _ slot, w => Backed slot w
  | .again round, w | .feed round, w => Backed round.input.terminal w
  | .publish candidate _ _, w => Backed (some candidate) w
  | .commit _, w => w.state.conn.terminal.isSome
  | .exit result, w => CausePost result w
  | _, _ => True

theorem causeAt_returning {winner : SendTerminal} (h : Backed (some winner) w) :
    causeAt (call.returning winner) w := by
  cases winner with
  | connection fallback => exact h fallback rfl
  | _ => cases call <;> exact causePost_none rfl

theorem causeAt_resolved {terminal : Option SendTerminal} {purpose : Purpose}
    (h : Backed terminal w) : causeAt (call.resolved config terminal purpose) w := by
  cases purpose with
  | guard =>
      cases terminal with
      | none => cases call <;> exact causePost_none rfl
      | some winner => exact causeAt_returning h
  | poll poll => cases call <;> exact h
  | _ => exact h

theorem causeAt_obey {remaining : List UInt8} {state : SendState} {input : SendInput}
    (h : Backed input.terminal w) :
    causeAt (call.obey remaining (transition state input).1) w := by
  have hError : ∀ winner, (transition state input).1 = .returnError winner →
      Backed (some winner) w := by
    intro winner hCommand fallback hWinner
    cases hWinner
    rcases transition_returnError hCommand with hMisuse | hInput
    · cases hMisuse
    · exact h fallback (definitive_eq_some.1 hInput).1
  have hPublish : ∀ candidate continuation,
      (transition state input).1 = .publishTerminal candidate continuation →
      Backed (some candidate) w := by
    intro candidate continuation hCommand fallback hCandidate
    cases hCandidate
    rcases transition_publishTerminal hCommand with hOwn | hInput
    · cases hOwn
    · exact h fallback (definitive_eq_some.1 hInput).1
  cases hCommand : (transition state input).1 with
  | returnError winner => cases call <;> first | exact causeAt_returning (hError _ hCommand) | exact causePost_none rfl
  | publishTerminal candidate continuation => cases call <;> first | exact hPublish _ _ hCommand | exact causePost_none rfl
  | _ => cases call <;> first | exact causePost_none rfl | trivial

theorem publishSend_backed {slot : Option SendTerminal} {candidate : SendTerminal}
    {fallback : ConnectionTerminal} (h : (publishSend slot candidate).1 = .connection fallback) :
    slot = some (.connection fallback) ∨ candidate = .connection fallback := by
  unfold publishSend at h
  repeat' split at h
  all_goals simp_all

theorem resolveWith_connection {slot : Option SendTerminal} {reason : Option ConnectionTerminal}
    {fallback : ConnectionTerminal} (h : resolveWith slot reason = some (.connection fallback)) :
    (∃ other, slot = some (.connection other)) ∨ reason.isSome := by
  unfold resolveWith at h
  split at h
  · exact .inl ⟨_, rfl⟩
  · exact .inr rfl
  · exact .inl ⟨_, h⟩

/-- The assertions hold together. -/
theorem causeAt_annotated :
    (adapter config).Annotated (call.chart config key) (fun _ => True) CauseInv causeRely
      (.send key call) (fun point _ w => causeAt point w)
      (Machine.RoundEnd (fun round _ w => Backed round.input.terminal w)
        (fun result _ w => CausePost result w)) := by
  intro point events w h
  have hLe : ∀ {w' : AdapterWorld} choice op, causeRely w w' →
      causeRely w ((adapter config).advance choice (.send key call) op w') :=
    fun choice op hRely => hRely.trans (CauseInv.conn_le _ _ choice _ op)
  cases point with
  | again round => exact h
  | exit result => exact h
  | publish candidate continuation remaining =>
      intro w' hRely _ hInv choice _
      have hBacked : Op.Justified w'.state (.stream key (.publishSend candidate)) := by
        cases candidate with
        | connection fallback => exact hRely.occupied (h fallback rfl)
        | _ => trivial
      refine ⟨hInv.advance choice _ hBacked, fun fallback hWinner => ?_⟩
      rcases publishSend_backed (Option.some.inj hWinner) with hSlot | rfl
      · exact (CauseInv.conn_le _ _ choice _ _).occupied (hInv.published key fallback hSlot)
      · exact (hLe choice _ hRely).occupied (h fallback rfl)
  | peek purpose slot =>
      intro w' hRely _ hInv choice _
      refine ⟨hInv.advance choice _ trivial, causeAt_resolved fun fallback hResolved => ?_⟩
      rcases resolveWith_connection hResolved with ⟨other, hSlot⟩ | hReason
      · exact (hLe choice _ hRely).occupied (h other hSlot)
      · exact (CauseInv.conn_le _ _ choice _ _).occupied hReason
  | load purpose =>
      intro w' hRely _ hInv choice _
      refine ⟨hInv.advance choice _ trivial, ?_⟩
      have hSlot : Backed (w'.state.stream key).sendTerminal
          ((adapter config).advance choice (.send key call) (.stream key .loadWinner) w') :=
        fun fallback hSlot => (CauseInv.conn_le _ _ choice _ _).occupied (hInv.published key _ hSlot)
      dsimp only
      split
      · exact causeAt_resolved hSlot
      · exact hSlot
  | feed round =>
      intro w' hRely _ hInv choice _
      exact ⟨hInv.advance choice _ trivial, causeAt_obey (h.le (hLe choice _ hRely))⟩
  | commit fallback =>
      intro w' hRely _ hInv choice _
      refine ⟨hInv.advance choice _ trivial, ?_⟩
      obtain ⟨cause, hCause⟩ := Option.isSome_iff_exists.1 (hRely.occupied h)
      have hReply : (commitConn w'.state.conn).1 = some cause := by
        simp [commitConn, ConnTerminalState.observe, ConnTerminalState.terminalIsSome, hCause]
      have hFrozen := (delivery_event config choice (.send key call) (.conn .commitConn)
        hReply).2
      change CausePost (call.failure (.connection ((commitConn w'.state.conn).1.getD fallback))) _
      rw [hReply]
      cases call <;> first | exact causePost_some rfl hFrozen | exact causePost_none rfl
  | guard =>
      intro w' _ _ hInv choice _
      refine ⟨hInv.advance choice _ trivial, ?_⟩
      dsimp only
      split <;> trivial
  | submit context buffer =>
      intro w' _ _ hInv choice _
      refine ⟨hInv.advance choice _ trivial, ?_⟩
      dsimp only
      split <;> trivial
  | dropHalf =>
      exact fun w' _ _ hInv choice _ => ⟨hInv.advance choice _ trivial, causePost_none rfl⟩
  | _ => exact fun w' _ _ hInv choice _ => ⟨hInv.advance choice _ trivial, trivial⟩

end Send

section Outline

variable (config : H3Config)

theorem cause_straight {request : Request} {α : Type} {code : Code α} {result : α → Result}
    {w : AdapterWorld}
    (h : CauseSafe config request (fun value => CausePost (result value)) [] code w) :
    (adapter config).Safe (fun _ => True) CauseInv causeRely request
      (Machine.RoundEnd (fun round _ w => Backed round.input.terminal w)
        (fun result _ w => CausePost result w)) [] (straight code result) w :=
  Machine.Safe.bind (h.mono fun _ _ _ hPost => hPost)

theorem cause_callback {request : Request} {code : Code (Except Status Unit)} {w : AdapterWorld}
    (h : CauseSafe config request (fun _ _ => True) [] code w) :
    (adapter config).Safe (fun _ => True) CauseInv causeRely request
      (Machine.RoundEnd (fun round _ w => Backed round.input.terminal w)
        (fun result _ w => CausePost result w)) [] (straight code .callback) w :=
  cause_straight config (h.mono fun _ _ _ _ => causePost_none rfl)

theorem cause_connectionHandler (event : ConnectionEvent) (w : AdapterWorld) :
    CauseSafe config (.connection event) (fun _ _ => True) [] (connectionHandler event) w := by
  refine Machine.safe_of_uses (uses_connectionHandler event) (fun op hOp w choice _ hInv _ => ?_)
    fun _ _ _ => trivial
  refine hInv.advance choice _ ?_
  cases op with
  | conn op => cases op <;> trivial
  | stream key op => cases op <;> trivial

theorem cause_entry (request : Request) (w : AdapterWorld) :
    (adapter config).Safe (fun _ => True) CauseInv causeRely request
      (Machine.RoundEnd (fun round _ w => Backed round.input.terminal w)
        (fun result _ w => CausePost result w)) [] (request.entry config) w := by
  cases request with
  | connection event => exact cause_callback config (cause_connectionHandler config event w)
  | pollAcceptRecv => exact cause_straight config (cause_pollAccept ⟨fun _ => trivial, fun _ => trivial⟩)
  | pollAcceptBidi => exact cause_straight config (cause_pollAccept ⟨fun _ => trivial, fun _ => trivial⟩)
  | opener n call =>
      cases call with
      | pollOpenBidi => exact cause_straight config (cause_pollOpenInner n false)
      | pollOpenSend => exact cause_straight config (cause_pollOpenInner n true)
      | close code =>
          refine cause_straight config ?_
          exact cause_plain (fun _ _ => trivial) fun _ _ _ _ =>
            cause_plain (fun _ _ => trivial) fun _ _ _ _ => causePost_none rfl
  | stream key event => exact cause_callback config (cause_streamHandler event)
  | send key call =>
      refine Machine.safe_of_describes causeAt_annotated (describes_entry config key call) ?_
      cases call <;> trivial
  | recv key call =>
      cases call with
      | pollData => exact cause_straight config (cause_pollData key)
      | stopSending code =>
          refine cause_straight config ?_
          exact cause_plain (fun _ _ => trivial) fun _ _ _ _ =>
            cause_plain (fun _ _ => trivial) fun _ _ _ _ => causePost_none rfl
      | drop =>
          refine cause_straight config ?_
          exact cause_plain (fun _ _ => trivial) fun _ _ _ _ => causePost_none rfl

theorem cause_body (request : Request) (round : SendRound) (events : List AdapterEvent)
    (w : AdapterWorld) (h : Backed round.input.terminal w) :
    (adapter config).Safe (fun _ => True) CauseInv causeRely request
      (Machine.RoundEnd (fun round _ w => Backed round.input.terminal w)
        (fun result _ w => CausePost result w)) events (request.body round) w := by
  by_cases hSend : ∃ key call, request = .send key call ∧ call ≠ .drop
  · obtain ⟨key, call, rfl, hCall⟩ := hSend
    exact Machine.safe_of_describes causeAt_annotated (describes_body config key call hCall round) h
  · have hBody : request.body round = Round.exit .unit := by
      unfold Request.body
      split <;> first | rfl | exact absurd ⟨_, _, rfl, by simp⟩ hSend
    rw [hBody]
    exact causePost_none rfl

/-- Every thread keeps the invariant of the connection slot. -/
def causeOutline : (adapter config).Outline {} where
  permits := permits
  known _ := True
  inv := CauseInv
  rely _ := causeRely
  idle _ _ := True
  loopInv _ round _ w := Backed round.input.terminal w
  post _ result _ w := CausePost result w
  uses_entry := uses_entry config
  uses_body := uses_body
  rely_refl _ w := .refl _
  rely_trans _ _ _ _ h h' := h.trans h'
  interference := by
    intro thread w w' hStep _ _ _ _
    cases hStep with
    | begun _ hDeliver =>
        unfold causeRely
        rw [World.after_state, deliver_conn hDeliver]
        exact .refl _
    | event _ _ => exact CauseInv.conn_le _ _ _ _ _
    | finished _ => exact .refl _
  init := ⟨rfl, rfl, by simp, by simp [Channel.unbounded], by simp, by simp, by simp⟩
  idle_init _ := trivial
  idle_stable _ _ _ _ _ _ _ := trivial
  begin request w state _ hInv _ hDeliver _ :=
    ⟨hInv.begun hDeliver, cause_entry config request _⟩
  loop request round events w _ _ h := cause_body config request round events w h
  finish request result events w w' hPost hRely _ hInv _ :=
    ⟨hInv.finished fun cause hCause => (hPost cause hCause).le hRely, trivial⟩

/-- What holds of the connection slot in every run. -/
theorem cause_invariant {trace : List AdapterLabel} {reached : AdapterConfig}
    (run : Runs config trace reached) : CauseInv ⟨reached.state, trace⟩ :=
  ((causeOutline config).sound run fun _ _ _ _ => trivial).1

end Outline

end MsQuicH3
