import MsQuicH3.CauseOutline

/-! The connection cause as h3 sees it: all deliveries agree, and the slot is
frozen by deliveries and by nothing else. -/
namespace MsQuicH3

open Concurrency

section Honors

/-- The round is over and its result is this cause. -/
def HonorRound (cause : ConnectionTerminal) : SendRound ⊕ Result → Prop
  | .inl _ => False
  | .inr result => result.connCause = some cause

variable {config : H3Config} {key : StreamKey}

theorem honors_straight {α : Type} {code : Code α} {result : α → Result}
    {honor : ConnectionTerminal → α → Prop} (h : code.Honors Op.reports honor)
    (hKeep : ∀ cause value, honor cause value → (result value).connCause = some cause) :
    (straight code result).Honors Op.reports HonorRound :=
  h.bind (fun _ => trivial) fun cause value hValue => hKeep cause value hValue

theorem honors_plain {α : Type} {op : Op} {next : op.Reply → Code α}
    {honor : ConnectionTerminal → α → Prop} (hOp : ∀ reply, op.reports reply = none)
    (hNext : ∀ reply, (next reply).Honors Op.reports honor) :
    (Program.perform (S := signature) op >>= next).Honors Op.reports honor := by
  refine fun reply => ⟨hNext reply, fun cause h => ?_⟩
  rw [hOp reply] at h
  cases h

theorem honors_commit {α : Type} {next : Option ConnectionTerminal → Code α}
    {honor : ConnectionTerminal → α → Prop} (hNone : (next none).Honors Op.reports honor)
    (hSome : ∀ cause, (next (some cause)).Honors Op.reports honor)
    (hHonor : ∀ cause, (next (some cause)).Yields (honor cause)) :
    (onConn .commitConn >>= next).Honors Op.reports honor := by
  intro reply
  cases reply with
  | none => exact ⟨hNone, fun _ h => by cases h⟩
  | some cause => exact ⟨hSome cause, fun _ h => by cases h; exact hHonor cause⟩

theorem honors_pollAccept {next : Code (Poll (Option (Option StreamKey)))}
    (hNext : next.Honors Op.reports fun _ _ => False) :
    (pollAccept next).Honors Op.reports
      fun cause polled => polled = .ready (.error (.recorded cause)) := by
  intro reply
  cases reply with
  | some cause => exact ⟨trivial, fun cause' h => by cases h; rfl⟩
  | none =>
      refine ⟨hNext.bind (fun polled => ?_) fun _ _ h => h.elim, fun _ h => by cases h⟩
      split
      · trivial
      · trivial
      · exact honors_commit trivial (fun _ => trivial) fun _ => rfl

theorem honors_dropOpening (opener : Nat) (uni : Bool) {α : Type}
    {honor : ConnectionTerminal → α → Prop} {next : Unit → Code α}
    (hNext : (next ()).Honors Op.reports honor) :
    (dropOpening opener uni >>= next).Honors Op.reports honor := by
  refine honors_plain (fun _ => rfl) fun held => honors_plain (fun _ => rfl) fun _ => ?_
  cases held with
  | none => exact hNext
  | some key => exact honors_plain (fun _ => rfl) fun _ => hNext

def HonorOpen (cause : ConnectionTerminal)
    (polled : Poll (Except OpenError (StreamKey × Nat))) : Prop :=
  polled = .ready (.error (.recorded cause))

theorem honors_pollOpening (opener : Nat) (uni : Bool) :
    (pollOpening opener uni).Honors Op.reports HonorOpen := by
  refine honors_plain (fun _ => rfl) fun held => ?_
  cases held with
  | none => trivial
  | some key =>
      refine honors_plain (fun _ => rfl) fun polled => ?_
      rcases polled with _ | _ | raw
      · trivial
      · exact honors_dropOpening opener uni
          (honors_commit trivial (fun _ => trivial) fun _ => rfl)
      · refine honors_plain (fun _ => rfl) fun _ => ?_
        cases raw with
        | error status =>
            refine honors_commit ?_ (fun _ => ?_) fun _ => ?_
            · exact honors_plain (fun _ => rfl) fun _ => trivial
            · exact honors_plain (fun _ => rfl) fun _ => trivial
            · exact fun _ => rfl
        | ok raw =>
            cases hValid : validateStreamId raw with
            | some id =>
                simp only [classifyStartOutcome, hValid]
                trivial
            | none =>
                simp only [classifyStartOutcome, hValid]
                exact honors_plain (fun _ => rfl) fun _ => trivial

theorem honors_pollOpenInner (opener : Nat) (uni : Bool) :
    (pollOpenInner opener uni).Honors Op.reports HonorOpen := by
  refine honors_commit ?_ (fun _ => ?_) fun _ => ?_
  · refine honors_plain (fun _ => rfl) fun held => ?_
    cases held with
    | some key => exact honors_pollOpening opener uni
    | none =>
        refine honors_plain (fun _ => rfl) fun started => ?_
        cases started with
        | ok key => exact honors_plain (fun _ => rfl) fun _ => honors_pollOpening opener uni
        | error status => exact honors_commit trivial (fun _ => trivial) fun _ => rfl
  · exact honors_dropOpening opener uni trivial
  · exact (Program.yields_true _).bind fun _ _ => rfl

theorem honors_pollEvent :
    (pollEvent key).Honors Op.reports
      fun cause polled => polled = .ready (.terminal (.connection cause)) := by
  refine honors_plain (fun _ => rfl) fun closed => ?_
  split
  · trivial
  refine honors_plain (fun _ => rfl) fun terminal => ?_
  split
  · trivial
  refine honors_plain (fun _ => rfl) fun polled => ?_
  have hStore : ∀ terminal, (storeAndConvert key terminal).Honors Op.reports
      fun cause polled => polled = .ready (.terminal (.connection cause)) :=
    fun terminal => honors_plain (fun _ => rfl) fun _ => trivial
  split
  · trivial
  · trivial
  · exact hStore _
  · exact hStore _
  · refine fun reply => ⟨hStore _, fun cause hCause => ?_⟩
    cases hCause
    exact fun _ => rfl
  · exact hStore _
  · exact hStore _

theorem honors_pollData :
    (pollData key).Honors Op.reports
      fun cause polled => polled = .ready (.terminal (.connection cause)) := by
  refine honors_pollEvent.bind (fun polled => ?_) fun cause polled h => by cases h; rfl
  split
  · refine honors_plain (fun _ => rfl) fun drained => ?_
    cases drained with
    | none => trivial
    | some len => exact honors_plain (fun _ => rfl) fun _ => trivial
  · trivial

/-- A send method freezes the slot right before it returns the cause. -/
theorem honors_of_describes {call : SendCall} {point : SendPoint} {program : Round}
    (h : (call.chart config key).Describes point program)
    (hUses : program.Uses (permits (.send key call))) :
    program.Honors Op.reports HonorRound := by
  induction program generalizing point with
  | done outcome => trivial
  | call op next ih =>
      obtain ⟨target, hNode, hNext⟩ := h
      refine fun reply => ⟨ih reply (hNext reply) (hUses.2 reply), fun cause hCause => ?_⟩
      cases point with
      | commit fallback =>
          cases hNode
          have hCommit : call.issuesConn .commitConn := hUses.1
          have hExit := hNext reply
          change reply = some cause at hCause
          subst hCause
          cases hRest : next (some cause) with
          | done outcome =>
              rw [hRest] at hExit
              cases hExit
              cases call <;> first | rfl | cases hCommit
          | call op following =>
              rw [hRest] at hExit
              obtain ⟨_, hAbsurd, _⟩ := hExit
              cases hAbsurd
      | _ => cases hNode <;> cases hCause

/-- A callback takes nothing from the slot for a delivery. -/
theorem quiet_callback {request : Request}
    (h : (∃ event, request = .connection event) ∨ ∃ key event, request = .stream key event)
    {op : Op} (hOp : permits request op) (reply : op.Reply) : op.reports reply = none := by
  rcases h with ⟨event, rfl⟩ | ⟨key, event, rfl⟩
  · cases op with
    | conn op => cases op <;> first | rfl | cases hOp
    | stream key op => cases hOp
  · cases op with
    | conn op => cases op <;> first | rfl | cases hOp
    | stream key op => rfl

theorem honors_entry (request : Request) :
    (request.entry config).Honors Op.reports HonorRound := by
  cases request with
  | connection event =>
      exact Program.honors_of_uses ((uses_entry config (.connection event)).mono
        fun _ hOp reply => quiet_callback (.inl ⟨event, rfl⟩) hOp reply)
  | pollAcceptRecv =>
      exact honors_straight (honors_pollAccept (honors_plain (fun _ => rfl) fun _ => trivial))
        fun cause value h => by cases h; rfl
  | pollAcceptBidi =>
      exact honors_straight (honors_pollAccept (honors_plain (fun _ => rfl) fun _ => trivial))
        fun cause value h => by cases h; rfl
  | opener n call =>
      cases call with
      | pollOpenBidi =>
          exact honors_straight (honors_pollOpenInner n false) fun cause value h => by cases h; rfl
      | pollOpenSend =>
          exact honors_straight (honors_pollOpenInner n true) fun cause value h => by cases h; rfl
      | close code =>
          exact honors_plain (fun _ => rfl) fun _ => honors_plain (fun _ => rfl) fun _ => trivial
  | stream key event =>
      exact Program.honors_of_uses ((uses_entry config (.stream key event)).mono
        fun _ hOp reply => quiet_callback (.inr ⟨key, event, rfl⟩) hOp reply)
  | send key call =>
      exact honors_of_describes (describes_entry config key call)
        (uses_sendEntry key config call)
  | recv key call =>
      cases call with
      | pollData =>
          exact honors_straight honors_pollData fun cause value h => by cases h; rfl
      | stopSending code =>
          exact honors_plain (fun _ => rfl) fun _ => honors_plain (fun _ => rfl) fun _ => trivial
      | drop => exact honors_plain (fun _ => rfl) fun _ => trivial

theorem honors_body (config : H3Config) (request : Request) (round : SendRound) :
    (request.body round).Honors Op.reports HonorRound := by
  by_cases hSend : ∃ key call, request = .send key call ∧ call ≠ .drop
  · obtain ⟨key, call, rfl, hCall⟩ := hSend
    exact honors_of_describes (describes_body config key call hCall round) (uses_body _ round)
  · have hBody : request.body round = Round.exit .unit := by
      unfold Request.body
      split <;> first | rfl | exact absurd ⟨_, _, rfl, by simp⟩ hSend
    rw [hBody]
    trivial

end Honors

section Panic

/-- A panic strikes a stream callback. -/
def Op.strikes : (op : Op) → op.Reply → Prop
  | .stream _ (.panicPoint _), struck => struck = true
  | _, _ => False

/-- An operation that leaves the connection slot alone. -/
def Op.sparesSlot (op : Op) : Prop := ∀ slot, op.slot slot = slot

variable {config : H3Config} {key : StreamKey}

/-- Panics strike stream callbacks only, outside their body and their recovery. -/
theorem strikes_permitted {request : Request} {op : Op} (h : permits request op)
    {reply : op.Reply} (hStrike : op.strikes reply) : ∃ key event, request = .stream key event := by
  cases op with
  | conn op => exact hStrike.elim
  | stream other op =>
      cases op with
      | panicPoint k =>
          cases request with
          | stream key event => exact ⟨key, event, rfl⟩
          | opener n call => cases h
          | send key call => cases h.2
          | recv key call => cases h.2
          | _ => exact h.elim
      | _ => exact hStrike.elim

theorem hushes_streamHandler (event : StreamEvent) :
    (streamHandler key event).Hushes Op.strikes Op.sparesSlot := by
  have hBody : (streamCallback key event).Uses fun op : Op => ∀ reply, ¬op.strikes reply := by
    refine (uses_streamCallback key event).mono fun op hOp reply hStrike => ?_
    cases op with
    | conn op => exact hStrike
    | stream other op => cases op <;> first | exact hStrike | cases hOp.2
  have hRecover : (streamRecover key).Uses fun op : Op => ∀ reply, ¬op.strikes reply := by
    refine (uses_streamRecover key).mono fun op hOp reply hStrike => ?_
    cases op with
    | conn op => exact hStrike
    | stream other op => cases op <;> first | exact hStrike | cases hOp.2
  refine fun poisoned => ⟨?_, fun h => h.elim⟩
  cases poisoned with
  | true => trivial
  | false =>
      refine Program.Hushes.guarded (fun k next hUses hNext => ?_) ?_
        (Program.hushes_of_uses hRecover) hBody 0
      · intro struck
        refine ⟨hNext struck, fun h => ?_⟩
        cases h
        exact hUses
      · refine (uses_streamRecover key).mono fun op hOp slot => ?_
        cases op with
        | conn op => exact hOp.elim
        | stream other op => rfl

theorem hushes_of_permits {α : Type} {request : Request} {program : Code α}
    (h : program.Uses (permits request)) (hStream : ∀ key event, request ≠ .stream key event) :
    program.Hushes Op.strikes Op.sparesSlot := by
  refine Program.hushes_of_uses (h.mono fun op hOp reply hStrike => ?_)
  obtain ⟨key, event, hRequest⟩ := strikes_permitted hOp hStrike
  exact hStream key event hRequest

theorem hushes_entry (request : Request) :
    (request.entry config).Hushes Op.strikes Op.sparesSlot := by
  by_cases hStream : ∃ key event, request = .stream key event
  · obtain ⟨key, event, rfl⟩ := hStream
    exact (hushes_streamHandler event).bind (fun _ => trivial) fun _ => trivial
  · exact hushes_of_permits (uses_entry config request) fun key event h => hStream ⟨key, event, h⟩

theorem hushes_body (request : Request) (round : SendRound) :
    (request.body round).Hushes Op.strikes Op.sparesSlot := by
  by_cases hStream : ∃ key event, request = .stream key event
  · obtain ⟨key, event, rfl⟩ := hStream
    trivial
  · exact hushes_of_permits (uses_body request round) fun key event h => hStream ⟨key, event, h⟩

end Panic

section Transcript

/-- What the operations of a call say of the rest of its code. -/
structure CauseTranscript (request : Request) (events : List AdapterEvent) (rest : Round) :
    Prop where
  permitted : ∀ e ∈ events, permits request e.op
  uses : rest.Uses (permits request)
  honors : rest.Honors Op.reports HonorRound
  hushes : rest.Hushes Op.strikes Op.sparesSlot
  honored : ∀ e ∈ events, ∀ cause, e.op.reports e.reply = some cause →
    rest.Yields (HonorRound cause)
  hushed : ∀ e ∈ events, e.op.strikes e.reply → rest.Uses Op.sparesSlot
  quiet : events.Pairwise fun first second => first.op.strikes first.reply → second.op.sparesSlot

variable (config : H3Config)

theorem CauseTranscript.event {request : Request} {events : List AdapterEvent} {op : Op}
    {next : op.Reply → Round} (h : CauseTranscript request events (.call op next))
    (choice : Choice) (s : State) :
    CauseTranscript request (events ++ [(adapter config).event choice request op s])
      (next (op.perform config choice s).1) := by
  have hMem : ∀ {e : AdapterEvent}, e ∈ events ++ [(adapter config).event choice request op s] →
      e ∈ events ∨ e = (adapter config).event choice request op s := by simp
  refine ⟨fun e he => ?_, h.uses.2 _, (h.honors _).1, (h.hushes _).1, fun e he cause hCause => ?_,
    fun e he hStrike => ?_, ?_⟩
  · rcases hMem he with he | rfl
    · exact h.permitted e he
    · exact h.uses.1
  · rcases hMem he with he | rfl
    · exact h.honored e he cause hCause _
    · exact (h.honors _).2 cause hCause
  · rcases hMem he with he | rfl
    · exact (h.hushed e he hStrike).2 _
    · exact (h.hushes _).2 hStrike
  · refine List.pairwise_append.2 ⟨h.quiet, List.pairwise_singleton .., fun first hFirst second
      hSecond hStrike => ?_⟩
    rw [List.mem_singleton.1 hSecond]
    exact (h.hushed first hFirst hStrike).1

def causeTranscript : (adapter config).Transcript where
  inv := CauseTranscript
  entry request := ⟨by simp, uses_entry config request, honors_entry request, hushes_entry request,
    by simp, by simp, .nil⟩
  event _ _ _ _ choice s h := h.event config choice s
  again request events round h := by
    refine ⟨h.permitted, uses_body request round, honors_body config request round,
      hushes_body request round, fun e he cause hCause => (h.honored e he cause hCause).elim,
      fun e he hStrike => ?_, h.quiet⟩
    -- A loop that goes on has no strike behind it: stream callbacks have no loop.
    obtain ⟨key, event, rfl⟩ := strikes_permitted (h.permitted e he) hStrike
    trivial

end Transcript

section Agreement

/-- The cause a return gives to h3. -/
def returnedCause : AdapterLabel → Option ConnectionTerminal
  | .finished call => call.result.connCause
  | _ => none

/-- The connection causes h3 was given, in the order of the returns. -/
def deliveredCauses (trace : List AdapterLabel) : List ConnectionTerminal :=
  trace.filterMap returnedCause

variable {config : H3Config} {trace : List AdapterLabel} {reached : AdapterConfig}

theorem mem_deliveredCauses {cause : ConnectionTerminal} :
    cause ∈ deliveredCauses trace ↔
      ∃ call, .finished call ∈ trace ∧ call.result.connCause = some cause := by
  constructor
  · intro h
    obtain ⟨label, hLabel, hCause⟩ := List.mem_filterMap.1 h
    cases label with
    | finished call => exact ⟨call, hLabel, hCause⟩
    | _ => cases hCause
  · rintro ⟨call, hCall, hCause⟩
    exact List.mem_filterMap.2 ⟨_, hCall, hCause⟩

/-- All connection causes h3 is ever given are one value: the first that is not
provisional among those recorded before the first delivery, else a local close. -/
theorem deliveredCauses_agree (run : Runs config trace reached) :
    (∀ first ∈ deliveredCauses trace, ∀ second ∈ deliveredCauses trace, first = second) ∧
      ∀ cause ∈ deliveredCauses trace, settled (recordedBeforeDelivery trace) = some cause := by
  have hInv := cause_invariant config run
  have hSettled : ∀ cause ∈ deliveredCauses trace,
      settled (recordedBeforeDelivery trace) = some cause := by
    intro cause hCause
    obtain ⟨call, hCall, hReturned⟩ := mem_deliveredCauses.1 hCause
    exact hInv.slot.symm.trans (hInv.delivered call cause hCall hReturned).2
  refine ⟨fun first hFirst second hSecond => ?_, hSettled⟩
  exact Option.some.inj ((hSettled first hFirst).symm.trans (hSettled second hSecond))

/-- A local close is refined by the peer's, which a stream and the opener then report. -/
theorem deliveredCauses_agree_refined :
    ∃ trace reached, Runs .default trace reached ∧
      recordedBeforeDelivery trace = [.localClose, .peerApplication 5] ∧
      deliveredCauses trace = [.peerApplication 5, .peerApplication 5] ∧
      ((∀ first ∈ deliveredCauses trace, ∀ second ∈ deliveredCauses trace, first = second) ∧
        ∀ cause ∈ deliveredCauses trace,
          settled (recordedBeforeDelivery trace) = some cause) := by
  have hRun : ((adapter .default).run (Machine.initial {}) (serveAll
      [(.opener 0 (.close 7), 3), (.connection (.shutdownInitiatedByPeer 5), 8),
        (.send (.accepted 0) .pollReady, 7), (.opener 0 .pollOpenBidi, 4)])).isSome := by decide
  exact ⟨_, _, Machine.runs_get hRun, rfl, rfl,
    deliveredCauses_agree (Machine.runs_get hRun)⟩

end Agreement

section Commit

/-- The slot passes from refinable to frozen. -/
def freezes (e : AdapterEvent) : Prop :=
  e.before.conn.observed = false ∧ e.after.conn.observed = true

/-- The requests whose code may record a connection cause. -/
def Request.records : Request → Bool
  | .connection _ | .stream _ _ | .opener _ (.close _) => true
  | _ => false

/-- The requests whose code neither records a cause nor reports one. -/
def Request.sparesConn : Request → Bool
  | .send _ (.reset _) | .send _ .drop | .recv _ (.stopSending _) | .recv _ .drop => true
  | _ => false

/-- Once a panic has struck, the call leaves the slot alone. -/
def Contained (events : List AdapterEvent) : Prop :=
  events.Pairwise fun first second =>
    first.op.strikes first.reply → second.after.conn = second.before.conn

/-- When the connection slot is frozen, and what leaves it alone. -/
structure CommitsOnDelivery (trace : List AdapterLabel) (reached : AdapterConfig) : Prop where
  /-- Only a call that returns the cause then in the slot freezes it. -/
  freezing : ∀ e, .event e ∈ trace → freezes e → ∃ cause, e.before.conn.terminal = some cause ∧
    FrozenAt e.after.conn cause ∧
    ((∃ call, .finished call ∈ trace ∧ e ∈ call.events ∧ call.result.connCause = some cause) ∨
      ∃ thread a, reached.active thread = some a ∧ e ∈ a.events ∧
        a.rest.Yields (HonorRound cause))
  occupied : reached.state.conn.observed = true → reached.state.conn.terminal.isSome
  /-- A frontend call that returns no connection cause neither freezes nor writes the slot. -/
  untouched : ∀ call, .finished call ∈ trace → call.request.records = false →
    call.result.connCause = none → ∀ e ∈ call.events, e.after.conn = e.before.conn
  /-- Nor does any step of a reset or of a stop. -/
  spared : ∀ e, .event e ∈ trace → e.request.sparesConn = true → e.after.conn = e.before.conn
  /-- Nor does the recovery from a panic of a stream callback. -/
  contained : (∀ call, .finished call ∈ trace → Contained call.events) ∧
    ∀ thread a, reached.active thread = some a → Contained a.events
  /-- A delivered cause is the frozen one from the delivery on. -/
  delivered : ∀ call cause, .finished call ∈ trace → call.result.connCause = some cause →
    FrozenAt reached.state.conn cause

variable {config : H3Config} {trace : List AdapterLabel} {reached : AdapterConfig}

theorem event_after_conn (run : Runs config trace reached) {e : AdapterEvent}
    (h : .event e ∈ trace) : e.after.conn = e.op.slot e.before.conn := by
  obtain ⟨_, _, _, _, _, _, _, _, choice, hEvent⟩ := Machine.Runs.around run h
  rw [hEvent]
  exact e.op.perform_conn config choice e.before

/-- The cause invariant holds around every event of a run. -/
theorem cause_around (run : Runs config trace reached) {e : AdapterEvent}
    (h : .event e ∈ trace) : ∃ earlier, CauseInv ⟨e.before, earlier⟩ ∧
      CauseInv ⟨e.after, earlier ++ [.event e]⟩ := by
  obtain ⟨earlier, before, after, -, hBefore, hAfter, hStart, hEnd, -⟩ := Machine.Runs.around run h
  refine ⟨earlier, ?_, ?_⟩
  · rw [← hStart]
    exact cause_invariant config hBefore
  · rw [← hEnd]
    exact cause_invariant config hAfter

/-- A freezing event reports the cause it freezes. -/
theorem freezes_reports (run : Runs config trace reached) {e : AdapterEvent}
    (h : .event e ∈ trace) (hFreezes : freezes e) :
    ∃ cause, e.op.reports e.reply = some cause ∧ e.before.conn.terminal = some cause ∧
      FrozenAt e.after.conn cause := by
  obtain ⟨earlier, hBefore, hAfter⟩ := cause_around run h
  have hDelivery : (delivery (.event e)).isSome := by
    have hLater := hAfter.frozen
    rw [hasDelivery_snoc, ← hBefore.frozen, hFreezes.1, hFreezes.2, Bool.false_or] at hLater
    exact hLater.symm
  obtain ⟨cause, hCause⟩ := Option.isSome_iff_exists.1 hDelivery
  obtain ⟨_, _, _, _, _, _, _, _, choice, hEvent⟩ := Machine.Runs.around run h
  rw [hEvent] at hCause
  obtain ⟨hTerminal, hFrozen⟩ := delivery_event config choice e.request e.op hCause
  rw [← event_after_conn run h] at hFrozen
  exact ⟨cause, by rw [hEvent]; exact hCause, hTerminal, hFrozen⟩

/-- An operation that reports and records no cause leaves the slot alone. -/
theorem slot_eq_of_silent (run : Runs config trace reached) {e : AdapterEvent}
    (h : .event e ∈ trace) (hReports : e.op.reports e.reply = none)
    (hRecorded : recorded (.event e) = none) : e.after.conn = e.before.conn := by
  obtain ⟨_, _, _, _, _, _, _, _, choice, hEvent⟩ := Machine.Runs.around run h
  have hAfter := event_after_conn run h
  have hTerminal : e.after.conn.terminal = e.before.conn.terminal := by
    rw [hAfter]
    rw [hEvent] at hRecorded
    exact Op.slot_terminal config choice e.request _ _ hRecorded
  have hObserved : e.after.conn.observed = e.before.conn.observed := by
    have hLe : e.before.conn.Le e.after.conn := hAfter ▸ e.op.slot_le _
    cases hBefore : e.before.conn.observed with
    | true => rw [hLe.frozen hBefore, hBefore]
    | false =>
        cases hObserved : e.after.conn.observed with
        | false => rfl
        | true =>
            obtain ⟨cause, hCause, -⟩ := freezes_reports run h ⟨hBefore, hObserved⟩
            rw [hReports] at hCause
            cases hCause
  exact ConnTerminalState.ext hTerminal hObserved

/-- A frontend records nothing. -/
theorem recorded_of_permits {e : AdapterEvent} (h : permits e.request e.op)
    (hRequest : e.request.records = false) : recorded (.event e) = none := by
  obtain ⟨request, op, reply, before, after⟩ := e
  cases op with
  | stream key op => rfl
  | conn op =>
      cases op with
      | recordConnTerminal candidate =>
          cases request with
          | connection event => cases hRequest
          | stream key event => cases hRequest
          | opener n call =>
              cases call with
              | close code => cases hRequest
              | _ => exact absurd h Bool.false_ne_true
          | _ => cases h
      | _ => rfl

/-- So do a reset, a stop and the drop of a half, and they report nothing. -/
theorem silent_of_permits {e : AdapterEvent} (h : permits e.request e.op)
    (hRequest : e.request.sparesConn = true) :
    e.op.reports e.reply = none ∧ recorded (.event e) = none := by
  obtain ⟨request, op, reply, before, after⟩ := e
  have hConn : ∀ op : ConnOp, permits request (.conn op) → op = .peekConnTerminal := by
    intro op hOp
    cases request with
    | send key call => cases call <;> cases hRequest <;> cases op <;> first | rfl | cases hOp
    | recv key call => cases call <;> cases hRequest <;> cases op <;> cases hOp
    | _ => cases hRequest
  cases op with
  | stream key op => exact ⟨rfl, rfl⟩
  | conn op =>
      cases hConn op h
      exact ⟨rfl, rfl⟩

theorem contained_of_quiet (run : Runs config trace reached) {events : List AdapterEvent}
    (h : events.Pairwise fun first second => first.op.strikes first.reply → second.op.sparesSlot)
    (hTrace : ∀ e ∈ events, .event e ∈ trace) : Contained events := by
  refine h.imp_of_mem fun {first second} _ hSecond hSpares hStrike => ?_
  rw [event_after_conn run (hTrace second hSecond)]
  exact hSpares hStrike _

/-- The operation of every event is one its request may issue. -/
theorem event_permitted (run : Runs config trace reached) {e : AdapterEvent}
    (h : .event e ∈ trace) : permits e.request e.op := by
  obtain ⟨hActive, hFinished⟩ := (causeTranscript config).sound run
  obtain ⟨hActiveEvents, hEvents⟩ := Machine.Runs.call_events run
  rcases Machine.Runs.event_cases run h with ⟨call, hCall, hMem⟩ | ⟨thread, a, hEntry, hMem⟩
  · rw [(hEvents call hCall e hMem).1]
    exact (hFinished call hCall).permitted e hMem
  · rw [((hActiveEvents thread a hEntry).2 e hMem).1]
    exact (hActive thread a hEntry).2.permitted e hMem

/-- The slot is frozen by deliveries and by nothing else. -/
theorem commits_on_delivery (run : Runs config trace reached) :
    CommitsOnDelivery trace reached := by
  have hInv := cause_invariant config run
  obtain ⟨hActive, hFinished⟩ := (causeTranscript config).sound run
  obtain ⟨hActiveEvents, hEvents⟩ := Machine.Runs.call_events run
  refine ⟨fun e he hFreezes => ?_, hInv.occupied, fun call hCall hRequest hNone e he => ?_,
    fun e he hRequest => ?_, ⟨fun call hCall => ?_, fun thread a hEntry => ?_⟩, hInv.delivered⟩
  · obtain ⟨cause, hReports, hBefore, hAfter⟩ := freezes_reports run he hFreezes
    refine ⟨cause, hBefore, hAfter, ?_⟩
    rcases Machine.Runs.event_cases run he with ⟨call, hCall, hMem⟩ | ⟨thread, a, hEntry, hMem⟩
    · exact .inl ⟨call, hCall, hMem, (hFinished call hCall).honored e hMem cause hReports⟩
    · exact .inr ⟨thread, a, hEntry, hMem, (hActive thread a hEntry).2.honored e hMem cause hReports⟩
  · obtain ⟨hOwn, hTrace⟩ := hEvents call hCall e he
    have hTranscript := hFinished call hCall
    refine slot_eq_of_silent run hTrace ?_
      (recorded_of_permits (hOwn ▸ hTranscript.permitted e he) (hOwn ▸ hRequest))
    cases hReports : e.op.reports e.reply with
    | none => rfl
    | some cause =>
        have hCause : call.result.connCause = some cause := hTranscript.honored e he cause hReports
        rw [hNone] at hCause
        cases hCause
  · obtain ⟨hReports, hRecorded⟩ := silent_of_permits (event_permitted run he) hRequest
    exact slot_eq_of_silent run he hReports hRecorded
  · exact contained_of_quiet run (hFinished call hCall).quiet fun e he => (hEvents call hCall e he).2
  · exact contained_of_quiet run (hActive thread a hEntry).2.quiet
      fun e he => ((hActiveEvents thread a hEntry).2 e he).2

/-- One cause is frozen by `poll_ready`, after a reset and a contained panic spared it. -/
theorem commits_on_delivery_pollReady :
    ∃ trace reached, Runs .default trace reached ∧
      deliveredCauses trace = [.peerApplication 5] ∧ CommitsOnDelivery trace reached := by
  have hRun : ((adapter .default).run (Machine.initial {}) (serveAll
      [(.connection (.shutdownInitiatedByPeer 5), 8), (.send (.accepted 0) (.reset 3), 4),
        (.send (.accepted 1) .pollReady, 7)] ++
      (Request.stream (.accepted 2) .peerSendShutdown).serve
        ({} :: { panics := true } :: List.replicate 10 {}))).isSome := by decide
  exact ⟨_, _, Machine.runs_get hRun, rfl, commits_on_delivery (Machine.runs_get hRun)⟩

end Commit

end MsQuicH3
