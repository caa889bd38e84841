import MsQuicH3.Concurrency.Calls
import MsQuicH3.RecvAccounting

/-! Pauses and their completions. Every PENDING return of a receive callback is one
decision of the budget, and the reader answers these decisions in order, each once
and with the full length of its indication. -/
namespace MsQuicH3

open Concurrency

/-- What an operation notes in the log of one stream. -/
def streamNote {α : Type} (key : StreamKey) (f : StreamStep → Option α) :
    (op : Op) → op.Reply → List α
  | .stream target op, reply => if target = key then (f ⟨op, reply⟩).toList else []
  | .conn _, _ => []

theorem filterMap_streamLog {α : Type} (key : StreamKey) (f : StreamStep → Option α)
    (trace : List AdapterLabel) :
    (streamLog key trace).filterMap f =
      trace.flatMap (Machine.noted fun e => streamNote key f e.op e.reply) := by
  induction trace with
  | nil => rfl
  | cons label trace ih =>
      have hHead : ((streamStep key label).toList).filterMap f =
          Machine.noted (fun e => streamNote key f e.op e.reply) label := by
        cases label with
        | event e =>
            obtain ⟨request, op, reply, before, after⟩ := e
            cases op with
            | conn op => rfl
            | stream target op =>
                simp only [streamStep, Machine.noted, streamNote]
                split
                · rw [Option.toList_some, List.filterMap_cons]
                  cases f ⟨op, reply⟩ <;> rfl
                · rfl
        | _ => rfl
      have hSplit : streamLog key (label :: trace) =
          (streamStep key label).toList ++ streamLog key trace := by
        rw [streamLog, List.filterMap_cons]
        cases streamStep key label <;> rfl
      rw [hSplit, List.filterMap_append, hHead, ih, List.flatMap_cons]

/-- No contained panic. -/
def Op.calm : (op : Op) → op.Reply → Prop
  | .stream _ (.panicPoint _), struck => struck = false
  | _, _ => True

/-- A panic that strikes a callback of the stream. -/
def panics (key : StreamKey) : AdapterLabel → Bool
  | .event ⟨.stream other _, .stream _ (.panicPoint _), struck, _, _⟩ => other = key && struck
  | _ => false

/-- The full length of an indication whose callback returned PENDING. -/
def pendReturn : StreamEvent → Result → List Nat
  | .receive buffers _, .callback (.error .pending) => [(buffers.map List.length).sum]
  | _, _ => []

/-- The PENDING returns of a stream, by the full lengths of their indications. -/
def pendReturns (key : StreamKey) (trace : List AdapterLabel) : List Nat :=
  trace.flatMap fun
    | .finished ⟨.stream other event, _, result⟩ => if other = key then pendReturn event result else []
    | _ => []

def Uninterrupted (key : StreamKey) (trace : List AdapterLabel) : Prop :=
  ∀ label ∈ trace, panics key label = false

instance (key : StreamKey) (trace : List AdapterLabel) : Decidable (Uninterrupted key trace) :=
  inferInstanceAs (Decidable (∀ label ∈ trace, panics key label = false))

/-- Native code indicates nothing between a PENDING return and its completion. -/
def HoldsPaused (key : StreamKey) (trace : List AdapterLabel) : Prop :=
  ∀ earlier request, request.receives key = true → earlier ++ [.begun request] <+: trace →
    (pendReturns key earlier).length ≤ (completed (streamLog key earlier)).length

/-- An indication behind a PENDING return that was not completed. -/
def overtakes (key : StreamKey) (earlier : List AdapterLabel) : Option AdapterLabel → Bool
  | some (.begun request) => request.receives key &&
      decide ((completed (streamLog key earlier)).length < (pendReturns key earlier).length)
  | _ => false

theorem holdsPaused_iff {key : StreamKey} {labels : List AdapterLabel} :
    HoldsPaused key labels ↔
      ∀ n ∈ List.range labels.length, overtakes key (labels.take n) (labels[n]?) = false := by
  constructor
  · intro h n hMem
    have hLt := List.mem_range.1 hMem
    rw [List.getElem?_eq_getElem hLt]
    cases hLabel : labels[n] with
    | begun request =>
        have hPrefix : labels.take n ++ [.begun request] <+: labels := by
          rw [← hLabel, List.take_append_getElem]
          exact List.take_prefix _ _
        simp only [overtakes, Bool.and_eq_false_imp, decide_eq_false_iff_not, Nat.not_lt]
        exact fun hReceives => h _ request hReceives hPrefix
    | _ => rfl
  · rintro h earlier request hReceives ⟨later, rfl⟩
    have hAt := h earlier.length (List.mem_range.2 (by simp))
    simp only [List.append_assoc, List.take_left', List.getElem?_append_right (Nat.le_refl _),
      Nat.sub_self, List.singleton_append, List.getElem?_cons_zero, overtakes, hReceives,
      Bool.true_and, decide_eq_false_iff_not, Nat.not_lt] at hAt
    exact hAt

instance (key : StreamKey) (labels : List AdapterLabel) : Decidable (HoldsPaused key labels) :=
  decidable_of_iff' _ holdsPaused_iff

/-- The decisions to pause of an invocation that has not returned yet. -/
def deciding (key : StreamKey) (reached : AdapterConfig) : List Nat :=
  (Machine.inProgress (.streamCallback key) reached).flatMap fun e =>
    streamNote key StreamStep.pauses e.op e.reply

section Decisions

variable {config : H3Config} {key : StreamKey}

theorem indicationBytes_length (buffers : List (List UInt8)) :
    (indicationBytes buffers).length = (buffers.map List.length).sum := by
  unfold indicationBytes
  induction buffers with
  | nil => rfl
  | cons buffer buffers ih =>
      cases buffer with
      | nil => simpa using ih
      | cons byte rest =>
          simp only [List.isEmpty_cons, Bool.not_false, List.filter_cons_of_pos, List.flatten_cons,
            List.length_append, List.map_cons, List.sum_cons, ih]

/-- What a callback notes of its decisions to pause. -/
abbrev PauseEnds {α : Type} (key : StreamKey) (P : List Nat → α → Prop) (notes : List Nat)
    (code : Code α) : Prop :=
  code.Ends Op.calm (streamNote key StreamStep.pauses) P notes

theorem pauseNote_of_quiet {op : Op} (h : op.admitsOn key = false) (reply : op.Reply) :
    streamNote key StreamStep.pauses op reply = [] := by
  cases op with
  | conn op => rfl
  | stream target op =>
      cases op with
      | admitIndication bytes =>
          have hKey : target ≠ key := by simpa [Op.admitsOn] using h
          exact if_neg hKey
      | _ => exact ite_self _

theorem pauseEnds_of_quiet {α : Type} {P : List Nat → α → Prop} {notes : List Nat} {code : Code α}
    (h : code.Uses (S := signature) fun op => op.admitsOn key = false)
    (hResult : code.Yields (P notes)) : PauseEnds key P notes code :=
  Program.ends_of_uses (h.mono fun _ hOp reply => pauseNote_of_quiet hOp reply) hResult

variable {α : Type} {P : List Nat → α → Prop} {notes : List Nat}

/-- An operation other than an admission. -/
theorem PauseEnds.skip {op : StreamOp} {next : op.Reply → Code α}
    (hOp : (Op.stream key op).admitsOn key = false)
    (hNext : ∀ reply, (Op.stream key op).calm reply → PauseEnds key P notes (next reply)) :
    PauseEnds key P notes (onStream key op >>= next) := by
  intro reply hReply
  rw [pauseNote_of_quiet hOp, List.append_nil]
  exact hNext reply hReply

theorem pauseEnds_receiveData (bytes : List UInt8) :
    PauseEnds key (fun notes pend => notes = if pend then [bytes.length] else []) []
      (receiveData key bytes) := by
  refine PauseEnds.skip rfl fun sent _ => PauseEnds.skip rfl fun isSome _ => ?_
  split
  · intro decision _
    have hNote : ∀ decision : Admit,
        [] ++ streamNote key StreamStep.pauses (.stream key (.admitIndication bytes)) decision =
          if decision = .pend then [bytes.length] else [] := by
      intro decision
      cases decision <;> simp [streamNote, StreamStep.pauses]
    rw [hNote]
    cases decision with
    | publishFailed => exact PauseEnds.skip rfl fun _ _ => rfl
    | _ => rfl
  · exact rfl

theorem pauseEnds_streamCallback (event : StreamEvent) :
    PauseEnds key (fun notes result => notes = pendReturn event (.callback result)) []
      (streamCallback key event) := by
  cases hReceives : (Request.stream key event).receives key with
  | true =>
      obtain ⟨buffers, fin, hEvent⟩ := receives_eq hReceives
      cases hEvent
      apply Program.Ends.bind
      apply (pauseEnds_receiveData (indicationBytes buffers)).mono
      rintro notes pend rfl
      apply Program.Ends.bind
      apply pauseEnds_of_quiet ((uses_publishRecvTerminal_of (P := fun op => op.admitsOn key = false)
        rfl rfl rfl).when fin)
      apply (Program.yields_true _).mono
      intro _ _
      cases pend with
      | true => simp [pendReturn, indicationBytes_length, Program.Ends]
      | false => simp [pendReturn, Program.Ends]
  | false =>
      have hNone : ∀ result, [] = pendReturn event (.callback result) := by
        intro result
        cases event with
        | receive buffers fin => simp [Request.receives] at hReceives
        | _ => rfl
      apply pauseEnds_of_quiet
      · apply (uses_streamCallback key event).mono
        intro op hPermits
        rw [← Bool.not_eq_true]
        intro hOp
        rw [receives_of_permits (bodyPermits_permits hPermits) hOp] at hReceives
        cases hReceives
      · exact (Program.yields_true _).mono fun result _ => hNone result

/-- An invocation that no panic strikes pauses exactly when it returns PENDING. -/
theorem pauseEnds_streamHandler (event : StreamEvent) :
    PauseEnds key (fun notes result => notes = pendReturn event (.callback result)) []
      (streamHandler key event) := by
  refine PauseEnds.skip rfl fun poisoned _ => ?_
  split
  · change [] = pendReturn event (.callback (streamPoisonDisp event))
    cases event <;> rfl
  · refine (pauseEnds_streamCallback event).guarded (fun k notes next hNext => ?_) 0
    refine PauseEnds.skip rfl fun struck hCalm => ?_
    obtain rfl : struck = false := hCalm
    exact hNext

end Decisions

/-- What the invocations of one stream callback note, as far as no panic strikes. -/
def pauseTranscript (config : H3Config) (key : StreamKey) : (adapter config).Transcript :=
  Machine.endsTranscript (fun request => request.owner = .streamCallback key) Op.calm
    (streamNote key StreamStep.pauses)
    (fun request notes result => ∀ event, request = .stream key event →
      notes = pendReturn event result)
    (by
      intro request hOwner
      obtain ⟨event, rfl⟩ := owner_eq_streamCallback hOwner
      apply Program.Ends.bind
      apply (pauseEnds_streamHandler event).mono
      rintro notes result rfl
      refine ⟨_, rfl, fun event' hEvent => ?_⟩
      cases hEvent
      rfl)

section Runs

variable {config : H3Config} {key : StreamKey} {trace : List AdapterLabel} {reached : AdapterConfig}

theorem Uninterrupted.calm (h : Uninterrupted key trace) {e : AdapterEvent}
    (hMem : .event e ∈ trace) (hOwner : e.request.owner = .streamCallback key) :
    e.op.calm e.reply := by
  have hLabel := h _ hMem
  obtain ⟨request, op, reply, before, after⟩ := e
  obtain ⟨event, rfl⟩ := owner_eq_streamCallback hOwner
  cases op with
  | conn op => trivial
  | stream target op =>
      cases op with
      | panicPoint k =>
          have hReply : reply = false := by simpa [panics] using hLabel
          exact hReply
      | _ => trivial

theorem pendReturns_eq (trace : List AdapterLabel) :
    pendReturns key trace = ((adapter config).callsOf (.streamCallback key) trace).flatMap fun call =>
      match call.request with
      | .stream _ event => pendReturn event call.result
      | _ => [] := by
  induction trace using List.reverseRecOn with
  | nil => rfl
  | append_singleton trace label ih =>
      rw [Machine.callsOf_snoc, List.flatMap_append, ← ih, pendReturns, List.flatMap_append,
        List.flatMap_singleton]
      congr 1
      cases label with
      | finished call =>
          obtain ⟨request, events, result⟩ := call
          cases request with
          | stream other event =>
              by_cases hKey : other = key
              · subst hKey
                simp [Machine.callsOf, Request.owner]
              · simp [Machine.callsOf, Request.owner, hKey]
          | _ => simp [Machine.callsOf, Request.owner]
      | _ => rfl

/-- Without a contained panic every decision to pause is a PENDING return. -/
theorem paused_eq (run : Runs config trace reached) (hCalm : Uninterrupted key trace) :
    paused (streamLog key trace) = pendReturns key trace ++ deciding key reached := by
  have hForeign : ∀ e : AdapterEvent, .event e ∈ trace →
      (adapter config).owner e.request ≠ .streamCallback key →
      streamNote key StreamStep.pauses e.op e.reply = [] := by
    intro e he hOwner
    apply pauseNote_of_quiet
    rw [← Bool.not_eq_true]
    intro hOp
    have hPermits := Machine.Runs.permitted (uses_entry config) uses_body run he
    obtain ⟨buffers, fin, hRequest⟩ := receives_eq (receives_of_permits hPermits hOp)
    rw [hRequest] at hOwner
    exact hOwner rfl
  rw [paused, filterMap_streamLog, Machine.Runs.notes_by_call run hForeign, @pendReturns_eq config]
  congr 1
  apply List.flatMap_congr
  intro call hCall
  obtain ⟨hMem, hOwner⟩ := Machine.mem_callsOf.1 hCall
  obtain ⟨event, hRequest⟩ := owner_eq_streamCallback hOwner
  have hEvents := (Machine.Runs.call_events run).2 call hMem
  obtain ⟨result, hResult, hNotes⟩ := ((pauseTranscript config key).sound run).2 call hMem hOwner
    fun e he => hCalm.calm (hEvents e he).2 ((congrArg Request.owner (hEvents e he).1).trans hOwner)
  cases hResult
  rw [hNotes event hRequest, hRequest]

/-- The contract on native code in terms of the stream's own state. -/
theorem HoldsPaused.paced (h : HoldsPaused key trace) (hCalm : Uninterrupted key trace) :
    PacedReceives config key trace := by
  intro earlier
  induction hLength : earlier.length using Nat.strong_induction_on generalizing earlier with
  | _ n ih =>
      intro request after hReceives hRun hPrefix
      subst hLength
      obtain ⟨before, move, hBefore, hLast⟩ := Machine.Runs.last hRun
      have hEarlier : earlier <+: trace := (List.prefix_append _ _).trans hPrefix
      have hPaced : PacedReceives config key earlier := by
        intro shorter other middle hOther hShorter hInner
        refine ih shorter.length ?_ shorter rfl other middle hOther hShorter (hInner.trans hEarlier)
        have hLe := hInner.length_le
        rw [List.length_append, List.length_singleton] at hLe
        omega
      have hBooks := pauseBooks_holds hBefore (hPaced.admitsUnpaused hBefore)
      have hLedger := recvLedger_holds hBefore key
      have hPaused := paused_eq hBefore fun e he => hCalm e (hEarlier.subset he)
      have hReturns := h earlier request hReceives hPrefix
      obtain ⟨buffers, fin, rfl⟩ := receives_eq hReceives
      rcases Machine.step_cases hLast with ⟨_, state, hFree, hDeliver, hKind, rfl⟩ |
        ⟨_, _, _, _, _, _, _, hKind, _⟩ | ⟨_, _, _, _, _, hKind, _⟩
      · cases hKind
        have hDeciding : deciding key before = [] := by
          have hIdle : before.active (.streamCallback key) = none := hFree
          rw [deciding, Machine.inProgress, hIdle]
          rfl
        have hDelivered : deliver (.stream key (.receive buffers fin)) before.state = some state :=
          hDeliver
        have hState := deliver_stream StreamState.recvState (fun _ _ => rfl) hDelivered key
        have hAnswered := hLedger.answered.length_le
        have hPending := congrArg List.length hBooks.pauses
        rw [hPaused, hDeciding, List.append_nil, List.length_append] at hPending
        rw [State.paused]
        change (state.stream key).recvState.pendOutstanding = false
        rw [hState, ← Bool.not_eq_true]
        intro hPend
        rw [RecvState.pending, if_pos hPend, List.length_singleton] at hPending
        omega
      · cases hKind
      · cases hKind

end Runs

end MsQuicH3
