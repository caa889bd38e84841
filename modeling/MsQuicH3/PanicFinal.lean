import MsQuicH3.PanicRecovery

/-! The promise of panic containment: recovery hangs nobody, happens once, and is
final for its context. -/
namespace MsQuicH3

open Concurrency

/-- Nobody waits for the stream any more: the start is answered, the send channel is
closed behind an authoritative winner, the receive channel is closed. -/
structure StreamState.Resolved (s : StreamState) : Prop where
  start : s.start ≠ .waiting
  winner : (definitive s.sendTerminal).isSome
  send : s.send.sender = false
  receive : s.receive.sender = false
  poisoned : s.poisoned = true

/-- Nobody waits for the connection any more. -/
structure State.Resolved (s : State) : Prop where
  connected : s.connected ≠ .waiting
  shutdown : s.shutdown ≠ .waiting
  uni : s.uni.sender = false
  bidi : s.bidi.sender = false
  cause : s.conn.terminal.isSome
  poisoned : s.connPoisoned = true

namespace CallbackContext

def Resolved : CallbackContext → State → Prop
  | .connection, s => s.Resolved
  | .stream key, s => (s.stream key).Resolved

/-- A panic strikes the body of a callback of the context. -/
def strikes : CallbackContext → AdapterEvent → Bool
  | .connection, ⟨_, .conn (.panicPoint _), struck, _, _⟩ => struck
  | .stream key, ⟨_, .stream target (.panicPoint _), struck, _, _⟩ => target = key && struck
  | _, _ => false

/-- A forced shutdown of the native handle of the context is requested. -/
def forces : CallbackContext → AdapterLabel → Bool
  | .connection, .event ⟨_, .conn (.forceShutdown _), _, _, _⟩ => true
  | .stream key, .event ⟨_, .stream target (.forceShutdown _), _, _, _⟩ => target = key
  | _, _ => false

/-- What the handler of a context sent on its receive channel. -/
def sent (context : CallbackContext) (trace : List AdapterLabel) : List ReceiveEvent :=
  (context.notes trace).filterMap GuardNote.event

end CallbackContext

/-- The handle behind the callback is gone. -/
def Request.shutsDown : Request → Bool
  | .connection .shutdownComplete | .stream _ (.shutdownComplete ..) => true
  | _ => false

/-- A step that changes nothing but the local variable of its own invocation. -/
def Untouched (e : AdapterEvent) : Prop :=
  e.after = { e.before with streamOwned := e.after.streamOwned }

/-- The fate of a callback context in a run. -/
structure PanicFinal (config : H3Config) (context : CallbackContext) (trace : List AdapterLabel)
    (reached : AdapterConfig) : Prop where
  forced : trace.countP context.forces ≤ 1
  /-- Once the handler that a panic struck has returned, every waiter is resolved. What
  was sent last on a receive channel that still had its sender is the terminal. -/
  resolved : ∀ e, .event e ∈ trace → context.strikes e = true →
    reached.active context.thread = none → context.Resolved reached.state ∧
      (context.feeds e.before = true →
        (context.sent trace).getLast? = some (.internal "stream callback panicked"))
  /-- The recovery of a stream leaves the connection slot alone. -/
  contained : (∀ call, .finished call ∈ trace → Contained call.events) ∧
    ∀ thread a, reached.active thread = some a → Contained a.events
  /-- From then on the handlers of the context change nothing. -/
  final : (∃ e, .event e ∈ trace ∧ context.strikes e = true) →
    reached.active context.thread = none →
    ∀ later last, (adapter config).Runs reached later last → context.Resolved last.state ∧
      (∀ e, .event e ∈ later → e.request.owner = context.thread → Untouched e) ∧
      ∀ call, .finished call ∈ later → call.request.owner = context.thread →
        ∃ result, call.result = .callback result ∧ (result = .ok () ↔ call.request.shutsDown = true)

variable {config : H3Config} {context : CallbackContext} {trace : List AdapterLabel}
  {reached : AdapterConfig}

theorem CallbackContext.resolved_of_settled {s : State} (h : ∀ part, context.Settled part s) :
    context.Resolved s := by
  cases context with
  | connection => exact ⟨h .connected, h .shutdown, h .uni, h .bidi, h .cause, h .poisoned⟩
  | stream key => exact ⟨h .start, h .winner, h .send, h .receive, h .poisoned⟩

/-- Recovery settles every part. -/
theorem settled_of_recovered (run : Runs config trace reached)
    (h : context.Recovered ⟨reached.state, trace⟩) (part : Part) :
    context.Settled part reached.state := by
  obtain ⟨-, live, body, -, hNotes⟩ := h
  have hMem : .settled part ∈ context.mending live → context.Settled part reached.state := by
    intro hMem
    apply settled_of_notes run
    rw [hNotes]
    exact List.mem_append_right _ (List.mem_cons_of_mem _ hMem)
  cases context with
  | connection => cases part <;> first | trivial | exact hMem (by simp [CallbackContext.mending])
  | stream key => cases part <;> first | trivial | exact hMem (by simp [CallbackContext.mending])

/-- What the handler of a context did is in its notes. -/
theorem guardNote_of_touches (run : Runs config trace reached) {e : AdapterEvent}
    (h : .event e ∈ trace) (hOp : context.touches e.op = true) :
    context.guardNote (.event e) = context.opNote e.op e.reply e.before :=
  if_pos (CallbackContext.owner_of_touches (event_permitted run h) hOp)

theorem struck_of_strikes (run : Runs config trace reached) {e : AdapterEvent} (h : .event e ∈ trace)
    (hStrikes : context.strikes e = true) :
    .struck (context.feeds e.before) ∈ context.notes trace := by
  suffices hNote : context.touches e.op = true ∧
      context.opNote e.op e.reply e.before = some (.struck (context.feeds e.before)) by
    refine List.mem_filterMap.2 ⟨_, h, ?_⟩
    rw [guardNote_of_touches run h hNote.1, hNote.2]
  obtain ⟨request, op, reply, before, after⟩ := e
  unfold CallbackContext.strikes at hStrikes
  split at hStrikes
  next heq =>
    cases heq
    subst hStrikes
    exact ⟨rfl, rfl⟩
  next heq =>
    cases heq
    obtain ⟨hKey, rfl⟩ := Bool.and_eq_true_iff.1 hStrikes
    obtain rfl := of_decide_eq_true hKey
    exact ⟨by simp [CallbackContext.touches, StreamOp.ofHandler], if_pos rfl⟩
  · cases hStrikes

theorem forced_of_forces (run : Runs config trace reached) {label : AdapterLabel}
    (h : label ∈ trace) (hForces : context.forces label = true) :
    context.guardNote label = some .forced := by
  unfold CallbackContext.forces at hForces
  split at hForces
  · exact guardNote_of_touches run h rfl
  next target code _ _ _ =>
    obtain rfl := of_decide_eq_true hForces
    rw [guardNote_of_touches run h (by simp [CallbackContext.touches, StreamOp.ofHandler])]
    exact if_pos rfl
  · cases hForces

theorem count_forced_body {body : List GuardNote} (h : ∀ note ∈ body, note.ofBody) :
    body.count .forced = 0 := by
  refine List.count_eq_zero.2 fun hMem => ?_
  have hBody := h _ hMem
  cases hBody

/-- A context in order notes one forced shutdown at most. -/
theorem CallbackContext.Orderly.count_forced {w : AdapterWorld} (h : context.Orderly w) :
    (context.notes w.trace).count .forced ≤ 1 := by
  rcases h with hPlain | ⟨live, tail, hTail, body, hBody, hNotes⟩
  · rw [count_forced_body hPlain]
    exact Nat.zero_le 1
  · rw [hNotes, List.count_append, count_forced_body hBody, List.count_cons_of_ne (by simp),
      Nat.zero_add]
    apply (hTail.sublist.count_le _).trans
    cases context <;> cases live <;> simp [CallbackContext.mending]

theorem forces_le_one (run : Runs config trace reached) : trace.countP context.forces ≤ 1 := by
  have hOrderly := ((panicWatch config context).sound run fun _ _ hRun _ => contextSound hRun).1
  refine Nat.le_trans ?_ hOrderly.count_forced
  rw [CallbackContext.notes, List.count, List.countP_filterMap]
  refine List.countP_mono_left fun label hLabel hForces => ?_
  rw [forced_of_forces run hLabel hForces]
  rfl

/-- A context whose handler has returned is as the watch says. -/
theorem idle_of_inactive (run : Runs config trace reached)
    (hIdle : reached.active context.thread = none) : context.Idle ⟨reached.state, trace⟩ := by
  have hLocal := ((panicWatch config context).sound run fun _ _ hRun _ => contextSound hRun).2
  rw [hIdle] at hLocal
  exact hLocal

theorem recovered_of_struck {live : Bool} {w : AdapterWorld}
    (h : .struck live ∈ context.notes w.trace) (hIdle : context.Idle w) :
    context.Recovered w ∧ context.Struck live (context.mending live) w := by
  rcases hIdle with hCalm | ⟨hPoisoned, live', body, hBody, hNotes⟩
  · have hBody := hCalm.plain _ h
    cases hBody
  · have hSame : live = live' := by
      rw [hNotes, List.mem_append, List.mem_cons] at h
      rcases h with h | h | h
      · have hPlain := hBody _ h
        cases hPlain
      · exact GuardNote.struck.inj h
      · cases context <;> cases live' <;> simp [CallbackContext.mending] at h
    subst hSame
    exact ⟨⟨hPoisoned, live, body, hBody, hNotes⟩, body, hBody, hNotes⟩

/-- Behind a strike with the sender alive, a terminal event was sent last. -/
theorem sent_of_struck {w : AdapterWorld} (hFeeds : ∃ key, context = .stream key)
    (h : context.Struck true (context.mending true) w) :
    (context.sent w.trace).getLast? = some (.internal "stream callback panicked") := by
  obtain ⟨key, rfl⟩ := hFeeds
  obtain ⟨body, -, hNotes⟩ := h
  rw [CallbackContext.sent, hNotes, List.filterMap_append]
  exact List.getLast?_append_of_ne_nil _ (List.cons_ne_nil _ _)

section Silence

variable (config) in
/-- A handler that finds its context poisoned returns at once. -/
theorem steady_handler (request : Request) (hOwner : request.owner = context.thread) :
    (adapter config).Steady (fun s => ∀ part, context.Settled part s) Untouched
      (fun outcome => ∃ result, outcome = .inr result ∧ ∃ status, result = .callback status ∧
        (status = .ok () ↔ request.shutsDown = true)) request (request.entry config) := by
  cases context with
  | stream key =>
      obtain ⟨event, rfl⟩ := owner_eq_streamCallback hOwner
      intro choice s hSettled
      have hPoisoned : (s.stream key).poisoned = true := hSettled .poisoned
      refine ⟨?_, ?_⟩
      · simp [Untouched, Machine.event, Op.perform, StreamOp.perform, State.setStream]
      · change (adapter config).Steady _ _ _ _ ((if (s.stream key).poisoned then _ else _) >>= _)
        rw [hPoisoned, if_pos rfl]
        refine ⟨_, rfl, _, rfl, ?_⟩
        cases event <;> simp [streamPoisonDisp, Request.shutsDown]
  | connection =>
      obtain ⟨event, rfl⟩ := owner_eq_connCallback hOwner
      refine fun choice s _ => ⟨rfl, fun choice s hSettled => ⟨rfl, ?_⟩⟩
      have hPoisoned : s.connPoisoned = true := hSettled .poisoned
      change (adapter config).Steady _ _ _ _ ((if s.connPoisoned then _ else _) >>= _)
      rw [hPoisoned, if_pos rfl]
      refine ⟨_, rfl, _, rfl, ?_⟩
      cases event <;> simp [connPoisonDisp, Request.shutsDown]

end Silence

/-- Panic recovery hangs nobody, forces one shutdown, and is final. -/
theorem panic_final (run : Runs config trace reached) (context : CallbackContext) :
    PanicFinal config context trace reached := by
  obtain ⟨hActive, hFinished⟩ := (causeTranscript config).sound run
  obtain ⟨hActiveEvents, hEvents⟩ := Machine.Runs.call_events run
  refine ⟨forces_le_one run, fun e he hStrikes hIdle => ?_, ⟨fun call hCall => ?_,
    fun thread a hEntry => ?_⟩, ?_⟩
  · obtain ⟨hRecovered, hStruck⟩ :=
      recovered_of_struck (struck_of_strikes run he hStrikes) (idle_of_inactive run hIdle)
    refine ⟨CallbackContext.resolved_of_settled (settled_of_recovered run hRecovered), fun hFeeds => ?_⟩
    rw [hFeeds] at hStruck
    refine sent_of_struck ?_ hStruck
    cases context with
    | connection => cases hFeeds
    | stream key => exact ⟨key, rfl⟩
  · exact contained_of_quiet run (hFinished call hCall).quiet fun e he => (hEvents call hCall e he).2
  · exact contained_of_quiet run (hActive thread a hEntry).2.quiet
      fun e he => ((hActiveEvents thread a hEntry).2 e he).2
  · rintro ⟨e, he, hStrikes⟩ hIdle later last hLater
    obtain ⟨hRecovered, -⟩ :=
      recovered_of_struck (struck_of_strikes run he hStrikes) (idle_of_inactive run hIdle)
    have hSettled := settled_of_recovered run hRecovered
    have hDeliver : ∀ request s s', (adapter config).deliver request s = some s' →
        (∀ part, context.Settled part s) → ∀ part, context.Settled part s' :=
      fun _ _ _ hDeliver h part => settled_deliver hDeliver (h part)
    have hPerform : ∀ choice op s, (∀ part, context.Settled part s) →
        ∀ part, context.Settled part ((adapter config).perform choice op s).2 :=
      fun _ op _ h part => settled_perform op (h part)
    have hLast := (hLater.keeps hDeliver hPerform hSettled).1
    obtain ⟨hSilent, hResults, -⟩ := hLater.steady hDeliver hPerform hSettled
      (fun request _ _ hOwner _ _ => steady_handler config request hOwner)
      (fun thread a h => (hActive thread a h).1) hIdle
    exact ⟨CallbackContext.resolved_of_settled hLast, hSilent, hResults⟩

/-- A panic strikes between the publication of a terminal and the close behind it. -/
theorem panic_final_shutdown :
    ∃ trace reached, Runs .default trace reached ∧
      (∃ e, .event e ∈ trace ∧ (CallbackContext.stream (.accepted 0)).strikes e = true) ∧
      reached.active (.streamCallback (.accepted 0)) = none ∧
      (CallbackContext.stream (.accepted 0)).sent trace =
        [.fin, .internal "stream callback panicked"] ∧
      PanicFinal .default (.stream (.accepted 0)) trace reached := by
  have hRun : ((adapter .default).run (Machine.initial {})
      ((Request.stream (.accepted 0) .peerSendShutdown).serve
        ({} :: {} :: {} :: {} :: {} :: { panics := true } :: List.replicate 10 {}))).isSome := by decide
  refine ⟨_, _, Machine.runs_get hRun, ⟨_, @List.mem_of_getElem? _ _ 6 _ rfl, rfl⟩, rfl, rfl,
    panic_final (Machine.runs_get hRun) _⟩

end MsQuicH3
