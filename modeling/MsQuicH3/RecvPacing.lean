import MsQuicH3.RecvReader

/-! Receive pacing. Native code indicates no more data on a stream that is paused;
then an indication is admitted only while the budget has room, whatever the reader
does in the meantime. -/
namespace MsQuicH3

open Concurrency

/-- A receive indication on the stream. -/
def Request.receives (key : StreamKey) : Request → Bool
  | .stream other (.receive _ _) => other = key
  | _ => false

def Op.admitsOn (key : StreamKey) : Op → Bool
  | .stream target (.admitIndication _) => target = key
  | _ => false

abbrev State.paused (s : State) (key : StreamKey) : Bool := (s.stream key).recvState.pendOutstanding

/-- Every admission of a trace found the stream unpaused. -/
def AdmitsUnpaused (key : StreamKey) (trace : List AdapterLabel) : Prop :=
  ∀ e, .event e ∈ trace → e.op.admitsOn key = true → e.before.paused key = false

/-- Every receive indication of a trace found the stream unpaused. -/
def PacedReceives (config : H3Config) (key : StreamKey) (trace : List AdapterLabel) : Prop :=
  ∀ earlier request reached, request.receives key = true →
    Runs config (earlier ++ [.begun request]) reached →
    earlier ++ [.begun request] <+: trace → reached.state.paused key = false

theorem receives_eq {key : StreamKey} {request : Request} (h : request.receives key = true) :
    ∃ buffers fin, request = .stream key (.receive buffers fin) := by
  unfold Request.receives at h
  split at h
  next other buffers fin =>
    obtain rfl : other = key := by simpa using h
    exact ⟨buffers, fin, rfl⟩
  · cases h

section Pacing

variable {config : H3Config} {key : StreamKey} {request : Request} {op : Op}

theorem receives_of_permits (h : permits request op) (hOp : op.admitsOn key = true) :
    request.receives key = true := by
  unfold Op.admitsOn at hOp
  split at hOp
  next target bytes =>
    obtain rfl : target = key := by simpa using hOp
    cases request with
    | stream other event =>
        obtain ⟨rfl, hIssues⟩ := h
        unfold StreamEvent.issues StreamEvent.bodyIssues StreamOp.recovers at hIssues
        cases event with
        | receive buffers fin => simp [Request.receives]
        | _ => exact absurd hIssues Bool.false_ne_true
    | send other call => exact absurd h.2 Bool.false_ne_true
    | recv other call => exact absurd h.2 Bool.false_ne_true
    | opener n call => exact absurd h Bool.false_ne_true
    | _ => exact h.elim
  · cases hOp

/-- Only an admission pauses a stream. -/
theorem unpaused_perform {choice : Choice} {s : State} (h : s.paused key = false)
    (hOp : op.admitsOn key = false) : (op.perform config choice s).2.paused key = false := by
  cases op with
  | conn op =>
      rw [State.paused, Op.perform_conn_stream]
      exact h
  | stream target op =>
      by_cases hKey : key = target
      · subst hKey
        rw [State.paused, Op.perform_stream_self, StreamOp.perform_recvState]
        cases op with
        | admitIndication bytes => simp [Op.admitsOn] at hOp
        | onDrained len =>
            unfold RecvBudget.onDrained
            dsimp only
            split
            · rfl
            · exact h
        | _ => exact h
      · rw [State.paused, Op.perform_stream_of_ne _ _ _ _ hKey]
        exact h

theorem AdmitsUnpaused.snoc {trace : List AdapterLabel} {label : AdapterLabel}
    (h : AdmitsUnpaused key trace)
    (hLabel : ∀ e, label = .event e → e.op.admitsOn key = true → e.before.paused key = false) :
    AdmitsUnpaused key (trace ++ [label]) := by
  intro e he hOp
  rcases List.mem_append.1 he with he | he
  · exact h e he hOp
  · exact hLabel e (List.mem_singleton.1 he).symm hOp

/-- A label that is no operation admits nothing. -/
theorem AdmitsUnpaused.rest {trace : List AdapterLabel} {label : AdapterLabel}
    (h : AdmitsUnpaused key trace) (hLabel : ∀ e, label ≠ .event e) :
    AdmitsUnpaused key (trace ++ [label]) :=
  h.snoc fun e he _ => (hLabel e he).elim

/-- The last thing that happened was no indication on a paused stream. -/
def LastPaced (key : StreamKey) (w : AdapterWorld) : Prop :=
  ∀ request, request.receives key = true → w.trace.getLast? = some (.begun request) →
    w.state.paused key = false

abbrev PacingRely (key : StreamKey) (w w' : AdapterWorld) : Prop :=
  w.state.paused key = false → w'.state.paused key = false

/-- Code of the callback of a stream, with every admission unpaused. -/
abbrev PacingSafe {α : Type} (config : H3Config) (key : StreamKey) (request : Request)
    (code : Code α) (w : AdapterWorld) : Prop :=
  ∀ events, (adapter config).Safe (LastPaced key) (fun w => AdmitsUnpaused key w.trace)
    (PacingRely key) request (fun _ _ _ => True) events code w

variable {α β : Type} {w : AdapterWorld}

theorem pacingSafe_of_uses {code : Code α} (h : code.Uses (S := signature) fun op => op.admitsOn key = false) :
    PacingSafe config key request code w := by
  intro events
  refine Machine.safe_of_uses h ?_ fun _ _ _ => trivial
  intro op hOp w choice _ hInv _
  refine hInv.snoc fun e he hAdmits => ?_
  cases he
  rw [Machine.event_op, hOp] at hAdmits
  cases hAdmits

/-- One operation before the admission. -/
theorem PacingSafe.step {op : StreamOp} {next : op.Reply → Code α}
    (hPaused : w.state.paused key = false) (hOp : (Op.stream key op).admitsOn key = false)
    (hNext : ∀ reply w', w'.state.paused key = false → PacingSafe config key request (next reply) w') :
    PacingSafe config key request (onStream key op >>= next) w := by
  intro events w' hRely _ hInv choice _
  refine ⟨hInv.snoc fun e he hAdmits => ?_, hNext _ _ (unpaused_perform (hRely hPaused) hOp) _⟩
  cases he
  rw [Machine.event_op, hOp] at hAdmits
  cases hAdmits

/-- The admission itself. -/
theorem PacingSafe.admission {bytes : List UInt8} {next : Admit → Code α}
    (hPaused : w.state.paused key = false)
    (hNext : ∀ reply, (next reply).Uses (S := signature) fun op => op.admitsOn key = false) :
    PacingSafe config key request (onStream key (.admitIndication bytes) >>= next) w := by
  intro events w' hRely _ hInv choice _
  refine ⟨hInv.snoc fun e he hAdmits => ?_, pacingSafe_of_uses (hNext _) _⟩
  cases he
  exact hRely hPaused

theorem PacingSafe.bind {code : Code α} {f : α → Code β}
    (h : PacingSafe config key request code w)
    (hNext : ∀ result, (f result).Uses (S := signature) fun op => op.admitsOn key = false) :
    PacingSafe config key request (code >>= f) w := by
  intro events
  apply Machine.Safe.bind
  exact (h events).mono fun result events w _ => pacingSafe_of_uses (hNext result) events

theorem pacingSafe_receive {buffers : List (List UInt8)} {fin : Bool}
    (hPaused : w.state.paused key = false) :
    PacingSafe config key request (streamCallback key (.receive buffers fin)) w := by
  refine PacingSafe.bind ?_ fun pend => ?_
  · refine PacingSafe.step hPaused rfl fun sent w hPaused => ?_
    refine PacingSafe.step hPaused rfl fun isSome w hPaused => ?_
    split
    · refine PacingSafe.admission hPaused fun reply => ?_
      split
      · trivial
      · trivial
      · exact (uses_onStream (P := fun op => op.admitsOn key = false) rfl).bind fun _ => trivial
    · exact fun _ => trivial
  · exact ((uses_publishRecvTerminal_of (P := fun op => op.admitsOn key = false)
      rfl rfl rfl).when fin).bind fun _ => trivial

theorem quiet_streamRecover :
    (streamRecover key).Uses (S := signature) fun op => op.admitsOn key = false := by
  apply (uses_streamRecover key).mono
  intro op h
  rw [← Bool.not_eq_true]
  intro hOp
  cases op with
  | conn op => cases hOp
  | stream target op =>
      cases op with
      | admitIndication bytes => exact absurd h.2 Bool.false_ne_true
      | _ => cases hOp

theorem pacingSafe_streamHandler {event : StreamEvent}
    (h : (Request.stream key event).receives key = true → w.state.paused key = false) :
    PacingSafe config key (.stream key event) (streamHandler key event) w := by
  cases hReceives : (Request.stream key event).receives key with
  | false =>
      apply pacingSafe_of_uses
      apply (uses_streamHandler key event).mono
      intro op hPermits
      rw [← Bool.not_eq_true]
      intro hOp
      rw [receives_of_permits hPermits hOp] at hReceives
      cases hReceives
  | true =>
      obtain ⟨buffers, fin, hEvent⟩ := receives_eq hReceives
      cases hEvent
      refine PacingSafe.step (h hReceives) rfl fun poisoned w hPaused => ?_
      split
      · exact fun _ => trivial
      intro events
      apply Machine.safe_guarded
      · exact fun left right hBefore => right (left hBefore)
      · exact fun _ _ _ _ _ => trivial
      · intro k events w next hNext w' hRely _ hInv choice _
        have hQuiet : (Op.stream key (.panicPoint k)).admitsOn key = false := rfl
        have hInv' : AdmitsUnpaused key ((adapter config).advance choice
            (.stream key (.receive buffers fin)) (.stream key (.panicPoint k)) w').trace := by
          refine hInv.snoc fun e he hAdmits => ?_
          cases he
          cases hAdmits
        exact ⟨hInv', hNext _ _ _ (fun hBefore => unpaused_perform (hRely hBefore) hQuiet) hInv'⟩
      · exact fun events w _ => pacingSafe_of_uses quiet_streamRecover events
      · exact pacingSafe_receive hPaused events

theorem pacing_stable (w w' : AdapterWorld)
    (h : (adapter config).Interference permitsPlain (.streamCallback key) w w')
    (hInv : AdmitsUnpaused key w.trace) : AdmitsUnpaused key w'.trace ∧ PacingRely key w w' := by
  cases h with
  | begun hOwner hDeliver =>
      refine ⟨hInv.rest (fun e he => by cases he), fun hPaused => ?_⟩
      have hState := deliver_stream StreamState.recvState (fun _ _ => rfl) hDeliver key
      rw [World.after_state, State.paused, hState]
      exact hPaused
  | @event request op choice hOwner hPermits =>
      have hForeign : op.admitsOn key = false := by
        rw [← Bool.not_eq_true]
        intro hOp
        obtain ⟨buffers, fin, rfl⟩ := receives_eq (receives_of_permits hPermits.1 hOp)
        exact hOwner rfl
      refine ⟨hInv.snoc fun e he hAdmits => ?_, fun hPaused => unpaused_perform hPaused hForeign⟩
      cases he
      rw [Machine.event_op, hForeign] at hAdmits
      cases hAdmits
  | finished hOwner => exact ⟨hInv.rest (fun e he => by cases he), id⟩

/-- The callback admits at most once an indication, and nothing pauses the stream
between the start of the indication and its admission. -/
def pacingWatch (config : H3Config) (key : StreamKey) :
    (adapter config).Watch {} (.streamCallback key) where
  permits := permitsPlain
  known := LastPaced key
  inv w := AdmitsUnpaused key w.trace
  rely := PacingRely key
  idle _ := True
  post _ _ _ _ := True
  uses_entry := plain_entry config
  uses_body := plain_body
  rely_refl _ := id
  rely_trans left right := right ∘ left
  stable w w' h _ _ hInv := pacing_stable w w' h hInv
  init := fun e he => absurd he List.not_mem_nil
  idle_init := trivial
  idle_stable _ _ _ _ := trivial
  begin request w state hOwner _ hInv _ hDeliver hKnown := by
    obtain ⟨event, rfl⟩ := owner_eq_streamCallback hOwner
    refine ⟨hInv.rest (fun e he => by cases he), ?_⟩
    have hPaused : (Request.stream key event).receives key = true →
        (w.after (.begun (.stream key event)) state).state.paused key = false :=
      fun hReceives => hKnown _ hReceives (by simp)
    apply Machine.Safe.bind
    apply (pacingSafe_streamHandler hPaused []).mono
    exact fun _ _ _ _ => trivial
  finish _ _ _ _ _ _ _ _ _ hInv _ := ⟨hInv.rest (fun e he => by cases he), trivial⟩

end Pacing

section Runs

variable {config : H3Config} {key : StreamKey} {trace : List AdapterLabel} {reached : AdapterConfig}

/-- On a paced stream every admission finds the budget open. -/
theorem PacedReceives.admitsUnpaused (h : PacedReceives config key trace)
    (run : Runs config trace reached) : AdmitsUnpaused key trace := by
  refine ((pacingWatch config key).sound run ?_).1
  intro earlier config' hRun hPrefix request hReceives hLast
  obtain ⟨shorter, rfl⟩ := List.getLast?_eq_some_iff.1 hLast
  exact h shorter request config' hReceives hRun hPrefix

theorem AdmitsUnpaused.of_prefix {earlier : List AdapterLabel} (h : AdmitsUnpaused key trace)
    (hPrefix : earlier <+: trace) : AdmitsUnpaused key earlier :=
  fun e he => h e (hPrefix.subset he)

end Runs

/-- The length of an indication that reached the accounting. -/
def StreamStep.indicates : StreamStep → Option Nat
  | ⟨.admitIndication bytes, _⟩ => some bytes.length
  | _ => none

/-- The length of the last indication that reached the accounting. -/
def lastIndication (log : List StreamStep) : Nat :=
  (log.filterMap StreamStep.indicates).getLastD 0

/-- The books of the pauses of a paced stream, and how far its budget is exceeded. -/
structure PauseBooks (budget : RecvBudget) (st : RecvState) (log : List StreamStep) : Prop where
  pauses : rearmed log ++ st.pending = paused log
  bytes : st.buffered ≤ budget.maxBytes - 1 + lastIndication log
  units : st.units ≤ budget.maxUnits

namespace RecvBudget

variable {budget : RecvBudget} {st : RecvState}

/-- A drain hands out the pending pause or keeps it. -/
theorem onDrained_pending (len : Nat) :
    (budget.onDrained st len).1.toList ++ (budget.onDrained st len).2.pending = st.pending := by
  unfold onDrained RecvState.pending
  dsimp only
  split
  next hRearm =>
    simp only [Bool.and_eq_true] at hRearm
    simp [hRearm.1.1]
  · rfl

theorem charge_pending (h : st.pendOutstanding = false) (total : Nat) (chargeUnit : Bool) :
    (budget.charge st total chargeUnit).2.pending =
      if (budget.charge st total chargeUnit).1 then [total] else [] := by
  have hPend : (budget.charge st total chargeUnit).2.pendOutstanding =
      ((budget.charge st total chargeUnit).1 || st.pendOutstanding) := rfl
  have hLen : (budget.charge st total chargeUnit).2.pendingIndicationLen =
      if (budget.charge st total chargeUnit).1 then total else st.pendingIndicationLen := rfl
  rw [RecvState.pending, hPend, hLen, h, Bool.or_false]
  cases (budget.charge st total chargeUnit).1 <;> rfl

end RecvBudget

namespace PauseBooks

variable {budget : RecvBudget} {s : StreamState} {log : List StreamStep}

theorem initial (budget : RecvBudget) : PauseBooks budget {} [] := ⟨rfl, Nat.zero_le _, Nat.zero_le _⟩

/-- A step that neither admits nor drains. -/
theorem silent {st : RecvState} (h : PauseBooks budget st log) {step : StreamStep}
    (hPauses : StreamStep.pauses step = none) (hRearms : StreamStep.rearms step = none)
    (hIndicates : StreamStep.indicates step = none) : PauseBooks budget st (log ++ [step]) := by
  constructor
  · rw [rearmed, paused, filterMap_snoc, filterMap_snoc, hPauses, hRearms]
    simpa [rearmed, paused] using h.pauses
  · rw [lastIndication, filterMap_snoc, hIndicates]
    simpa [lastIndication] using h.bytes
  · exact h.units

theorem lastIndication_admission (bytes : List UInt8) (reply : Admit) :
    lastIndication (log ++ [⟨.admitIndication bytes, reply⟩]) = bytes.length := by
  rw [lastIndication, filterMap_snoc]
  simp [StreamStep.indicates]

theorem admission (h : PauseBooks budget s.recvState log) (hGated : budget.Gated s.recvState)
    (choice : Choice) (bytes : List UInt8) (hOpen : s.recvState.pendOutstanding = false) :
    PauseBooks budget ((StreamOp.admitIndication bytes).perform budget choice s).2.recvState
      (log ++ [⟨.admitIndication bytes,
        ((StreamOp.admitIndication bytes).perform budget choice s).1⟩]) := by
  have hRoom : ¬budget.Exhausted s.recvState := by
    intro hExhausted
    rw [hGated.2 hExhausted] at hOpen
    cases hOpen
  rw [RecvBudget.Exhausted, not_or] at hRoom
  have hPending : s.recvState.pending = [] := by rw [RecvState.pending, hOpen]; rfl
  have hPauses := h.pauses
  rw [hPending, List.append_nil] at hPauses
  rcases admit_cases budget choice bytes s with ⟨-, -, hPerform⟩ | ⟨-, hPerform⟩
  · rw [hPerform]
    constructor
    · rw [rearmed, paused, filterMap_snoc, filterMap_snoc, hPending]
      simpa [rearmed, paused, StreamStep.pauses, StreamStep.rearms] using hPauses
    · rw [lastIndication_admission]
      dsimp only
      omega
    · exact h.units
  · rw [hPerform]
    constructor
    · rw [rearmed, paused, filterMap_snoc, filterMap_snoc, RecvBudget.charge_pending hOpen]
      simp only [rearmed, paused] at hPauses
      cases (budget.charge s.recvState bytes.length (!bytes.isEmpty)).1 <;>
        simp [StreamStep.pauses, StreamStep.rearms, hPauses]
    · rw [lastIndication_admission]
      dsimp only
      rw [RecvBudget.charge_buffered]
      omega
    · dsimp only
      rw [RecvBudget.charge_units]
      have hUnit := Bool.toNat_le (!bytes.isEmpty)
      omega

theorem drain (h : PauseBooks budget s.recvState log) (choice : Choice) (len : Nat) :
    PauseBooks budget ((StreamOp.onDrained len).perform budget choice s).2.recvState
      (log ++ [⟨.onDrained len, ((StreamOp.onDrained len).perform budget choice s).1⟩]) := by
  change PauseBooks budget (budget.onDrained s.recvState len).2
    (log ++ [⟨.onDrained len, (budget.onDrained s.recvState len).1⟩])
  have hPending := @RecvBudget.onDrained_pending budget s.recvState len
  have hPauses := h.pauses
  constructor
  · rw [rearmed, paused, filterMap_snoc, filterMap_snoc]
    have hRearms : StreamStep.rearms ⟨.onDrained len, (budget.onDrained s.recvState len).1⟩ =
        (budget.onDrained s.recvState len).1 := by
      cases (budget.onDrained s.recvState len).1 <;> rfl
    rw [hRearms, List.append_assoc, hPending]
    simpa [rearmed, paused, StreamStep.pauses] using hPauses
  · have hBytes := h.bytes
    have hLast : lastIndication (log ++ [⟨.onDrained len, (budget.onDrained s.recvState len).1⟩]) =
        lastIndication log := by
      rw [lastIndication, filterMap_snoc]
      simp [StreamStep.indicates, lastIndication]
    rw [hLast, RecvBudget.onDrained_buffered]
    omega
  · have hUnits := h.units
    rw [RecvBudget.onDrained_units]
    omega

theorem perform (h : PauseBooks budget s.recvState log) (hGated : budget.Gated s.recvState)
    (choice : Choice) (op : StreamOp)
    (hOpen : ∀ bytes, op = .admitIndication bytes → s.recvState.pendOutstanding = false) :
    PauseBooks budget (op.perform budget choice s).2.recvState
      (log ++ [⟨op, (op.perform budget choice s).1⟩]) := by
  have hState := StreamOp.perform_recvState budget choice op s
  cases op with
  | admitIndication bytes => exact h.admission hGated choice bytes (hOpen bytes rfl)
  | onDrained len => exact h.drain choice len
  | _ =>
      rw [hState]
      exact h.silent rfl rfl rfl

end PauseBooks

section Paced

variable {config : H3Config} {key : StreamKey} {trace : List AdapterLabel} {reached : AdapterConfig}

theorem pauseBooks_holds (run : Runs config trace reached) (hUnpaused : AdmitsUnpaused key trace) :
    PauseBooks config.recvBudget (reached.state.stream key).recvState (streamLog key trace) := by
  induction run with
  | start => exact .initial _
  | @step trace label config' next move prior last ih =>
      have hBooks := ih (hUnpaused.of_prefix (List.prefix_append _ _))
      rcases Machine.step_cases last with ⟨request, state, -, hDeliver, rfl, rfl⟩ |
        ⟨thread, choice, request, events, op, following, -, rfl, rfl⟩ |
        ⟨thread, request, events, result, -, rfl, rfl⟩
      · have hState := deliver_stream StreamState.recvState (fun _ _ => rfl) hDeliver key
        rw [streamLog_begun]
        exact hState ▸ hBooks
      · have hGated := (recvLedger_holds prior key).gated
        rcases @advance_stream_cases config choice request ⟨config'.state, trace⟩ key op with
          ⟨own, rfl, hStream, hLog⟩ | ⟨-, hStream, hLog⟩
        · simp only [Machine.advance_state, Machine.advance_trace] at hStream hLog
          rw [hStream, hLog]
          refine hBooks.perform hGated choice own ?_
          rintro bytes rfl
          exact hUnpaused _ (List.mem_append_right _ List.mem_cons_self) (by simp [Op.admitsOn])
        · simp only [Machine.advance_state, Machine.advance_trace] at hStream hLog
          rw [hStream, hLog]
          exact hBooks
      · rw [streamLog_finished]
        exact hBooks

end Paced

end MsQuicH3
