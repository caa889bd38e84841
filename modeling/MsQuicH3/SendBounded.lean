import MsQuicH3.SendLoop

/-! The calls of the send half, bounded whatever the other threads do. Only the reducer
is private to the half; the slots and the channel are taken as they come. -/
namespace MsQuicH3

open Concurrency

/-- A transition of the reducer. -/
def Op.feeds : Op → Bool
  | .stream _ (.transition _) => true
  | _ => false

/-- A native submission. -/
def Op.submits : Op → Bool
  | .stream _ op => op.submits
  | .conn _ => false

/-- Neither of them. -/
def Op.quiet (op : Op) : Prop := op.feeds = false ∧ op.submits = false

/-- The command is one that the method has an arm for. -/
def SendCall.answers (call : SendCall) : AdapterEvent → Bool
  | ⟨_, .stream _ (.transition _), command, _, _⟩ => call.handles command
  | _ => true

/-- The operations of a call so far, with the rounds, the submissions and the operations
of this round that may still follow. -/
structure SendCall.Bounded (call : SendCall) (rounds submissions steps : Nat)
    (events : List AdapterEvent) : Prop where
  rounds : events.countP (fun e => e.op.feeds) + rounds ≤ call.bound
  submissions : events.countP (fun e => e.op.submits) + submissions ≤ 1
  steps : events.length + steps ≤ 6 * events.countP (fun e => e.op.feeds) + 4
  answers : ∀ e ∈ events, call.answers e = true

theorem Op.submits_of_feeds {op : Op} (h : op.feeds = true) : op.submits = false := by
  unfold feeds at h
  split at h
  · rfl
  · cases h

theorem SendCall.answers_of_not_feeds (call : SendCall) {e : AdapterEvent}
    (h : e.op.feeds = false) : call.answers e = true := by
  unfold SendCall.answers
  split
  · simp [Op.feeds] at h
  · rfl

section Bounded

variable {config : H3Config} {call : SendCall} {rounds submissions steps : Nat}
  {events later : List AdapterEvent}

namespace SendCall.Bounded

theorem start (h : rounds ≤ call.bound) (hSubmissions : submissions ≤ 1) :
    call.Bounded rounds submissions 4 [] where
  rounds := by simpa using h
  submissions := by simpa using hSubmissions
  steps := Nat.le_refl 4
  answers := by simp

theorem mono (h : call.Bounded rounds submissions steps events) {fewer less shorter : Nat}
    (hRounds : fewer ≤ rounds) (hSubmissions : less ≤ submissions) (hSteps : shorter ≤ steps) :
    call.Bounded fewer less shorter events where
  rounds := Nat.le_trans (Nat.add_le_add_left hRounds _) h.rounds
  submissions := Nat.le_trans (Nat.add_le_add_left hSubmissions _) h.submissions
  steps := Nat.le_trans (Nat.add_le_add_left hSteps _) h.steps
  answers := h.answers

theorem quiet (h : call.Bounded rounds submissions (steps + later.length) events)
    (hQuiet : ∀ e ∈ later, e.op.quiet) : call.Bounded rounds submissions steps (events ++ later) := by
  have hFeeds : later.countP (fun e => e.op.feeds) = 0 :=
    List.countP_eq_zero.2 fun e he => by simp [(hQuiet e he).1]
  have hSubmits : later.countP (fun e => e.op.submits) = 0 :=
    List.countP_eq_zero.2 fun e he => by simp [(hQuiet e he).2]
  obtain ⟨hRounds, hSubmissions, hSteps, hAnswers⟩ := h
  refine ⟨?_, ?_, ?_, fun e he => ?_⟩
  · rwa [List.countP_append, hFeeds, Nat.add_zero]
  · rwa [List.countP_append, hSubmits, Nat.add_zero]
  · rw [List.countP_append, hFeeds, List.length_append]
    omega
  · rcases List.mem_append.1 he with hOld | hNew
    · exact hAnswers e hOld
    · exact call.answers_of_not_feeds (hQuiet e hNew).1

theorem feed (h : call.Bounded (1 + rounds) submissions 0 events) {e : AdapterEvent}
    (hFeeds : e.op.feeds = true) (hAnswers : call.answers e = true) :
    call.Bounded rounds submissions 5 (events ++ [e]) := by
  have hSubmits := Op.submits_of_feeds hFeeds
  obtain ⟨hRounds, hSubmissions, hSteps, hOld⟩ := h
  refine ⟨?_, ?_, ?_, fun other hOther => ?_⟩
  · rw [List.countP_append, List.countP_singleton, if_pos hFeeds]
    omega
  · rw [List.countP_append, List.countP_singleton, hSubmits]
    simpa using hSubmissions
  · rw [List.countP_append, List.countP_singleton, if_pos hFeeds, List.length_append,
      List.length_singleton]
    omega
  · rcases List.mem_append.1 hOther with hOther | hOther
    · exact hOld other hOther
    · rw [List.mem_singleton.1 hOther]
      exact hAnswers

theorem submit (h : call.Bounded rounds 1 (steps + 1) events) {e : AdapterEvent}
    (hSubmits : e.op.submits = true) : call.Bounded rounds 0 steps (events ++ [e]) := by
  have hFeeds : e.op.feeds = false := by
    by_contra hFeeds
    rw [Op.submits_of_feeds (Bool.not_eq_false _ ▸ hFeeds)] at hSubmits
    cases hSubmits
  obtain ⟨hRounds, hSubmissions, hSteps, hOld⟩ := h
  refine ⟨?_, ?_, ?_, fun other hOther => ?_⟩
  · rw [List.countP_append, List.countP_singleton, hFeeds]
    simpa using hRounds
  · rw [List.countP_append, List.countP_singleton, if_pos hSubmits]
    omega
  · rw [List.countP_append, List.countP_singleton, hFeeds, List.length_append,
      List.length_singleton]
    simp only [Bool.false_eq_true, ↓reduceIte]
    omega
  · rcases List.mem_append.1 hOther with hOther | hOther
    · exact hOld other hOther
    · rw [List.mem_singleton.1 hOther]
      exact call.answers_of_not_feeds hFeeds

/-- What holds of the operations of a call holds of its first ones. -/
theorem of_append (h : call.Bounded rounds submissions steps (events ++ later)) :
    events.countP (fun e => e.op.feeds) ≤ call.bound ∧
      events.countP (fun e => e.op.submits) ≤ 1 ∧ events.length ≤ 6 * call.bound + 4 ∧
      ∀ e ∈ events, call.answers e = true := by
  obtain ⟨hRounds, hSubmissions, hSteps, hAnswers⟩ := h
  rw [List.countP_append] at hRounds hSubmissions hSteps
  rw [List.length_append] at hSteps
  refine ⟨by omega, by omega, by omega, fun e he => hAnswers e (List.mem_append_left _ he)⟩

end SendCall.Bounded

end Bounded

section Points

variable {config : H3Config} {key : StreamKey} {call : SendCall} {state : SendState}

/-- The reservation at each point of a method. -/
def Purpose.reserves (call : SendCall) (state : SendState) : Purpose → Prop
  | .guard => call = .pollReady ∧ state.submissionReserved = false
  | .request payload => call = .sendData payload ∧ state.submissionReserved = false
  | .poll _ => (call = .pollReady ∨ call = .pollFinish) ∧ state.submissionReserved = false
  | .reset _ => (∃ code, call = .reset code) ∧ state.submissionReserved = false
  | .sendSubmitted _ => (∃ payload, call = .sendData payload) ∧ call.Reserves state .submitSend
  | .gracefulSubmitted _ => call = .pollFinish ∧ call.Reserves state .submitGraceful
  | .resetSubmitted code _ => (∃ code, call = .reset code) ∧ call.Reserves state (.submitReset code)

def SendPoint.reserves (call : SendCall) (state : SendState) : SendPoint → Prop
  | .guard => call = .pollReady ∧ state.submissionReserved = false
  | .poll => (call = .pollReady ∨ call = .pollFinish) ∧ state.submissionReserved = false
  | .load purpose | .peek purpose _ => purpose.reserves call state
  | .again round | .feed round => call.Awaits state round.input
  | .publish candidate continuation _ => call.Reserves state (.publishTerminal candidate continuation)
  | .box _ | .submit _ _ | .reclaim _ _ =>
      (∃ payload, call = .sendData payload) ∧ call.Reserves state .submitSend
  | .submitGraceful => call = .pollFinish ∧ call.Reserves state .submitGraceful
  | .submitReset code => (∃ code, call = .reset code) ∧ call.Reserves state (.submitReset code)
  | .commit _ | .dropHalf | .exit _ => state.submissionReserved = false

/-- The submission a poll of the channel may lead to. -/
def SendCall.pollSubmissions (call : SendCall) (state : SendState) : Nat :=
  match call with
  | .pollFinish => if state.finishStarted then 0 else 1
  | _ => 0

def Purpose.rounds (call : SendCall) (state : SendState) : Purpose → Nat
  | .guard => 0
  | .request _ | .reset _ | .gracefulSubmitted _ => 3
  | .poll _ => call.pollRounds state
  | .sendSubmitted _ | .resetSubmitted _ _ => 2

def Purpose.submissions (call : SendCall) (state : SendState) : Purpose → Nat
  | .request _ | .reset _ => 1
  | .poll _ => call.pollSubmissions state
  | _ => 0

/-- The misuse guard reports what it resolved, in the same round. -/
def Purpose.steps : Purpose → Nat
  | .guard => 1
  | _ => 0

/-- The rounds left at a point. -/
def SendPoint.rounds (call : SendCall) (state : SendState) : SendPoint → Nat
  | .guard | .poll => call.pollRounds state
  | .load purpose | .peek purpose _ => purpose.rounds call state
  | .again round | .feed round => call.rounds state round.input
  | .publish candidate continuation _ =>
      call.roundsAfter state (.publishTerminal candidate continuation)
  | .box _ | .submit _ _ | .reclaim _ _ | .submitReset _ => 2
  | .submitGraceful => 3
  | .commit _ | .dropHalf | .exit _ => 0

/-- The native submissions left at a point. -/
def SendPoint.submissions (call : SendCall) (state : SendState) : SendPoint → Nat
  | .poll => call.pollSubmissions state
  | .load purpose | .peek purpose _ => purpose.submissions call state
  | .again round | .feed round => state.submissions round.input
  | .publish candidate continuation _ =>
      state.submissionsAfter (.publishTerminal candidate continuation)
  | .box _ | .submit _ _ | .submitGraceful | .submitReset _ => 1
  | .guard | .reclaim _ _ | .commit _ | .dropHalf | .exit _ => 0

/-- The operations left at a point before the next round or the return. -/
def SendPoint.steps : SendPoint → Nat
  | .guard => 4
  | .poll => 3
  | .load purpose => 2 + purpose.steps
  | .peek purpose _ => 1 + purpose.steps
  | .again _ | .feed _ | .exit _ => 0
  | .publish .. | .commit _ | .dropHalf => 1
  | .box _ => 5
  | .submit _ _ => 4
  | .reclaim _ _ | .submitGraceful | .submitReset _ => 3

/-- A point of a call that keeps to its bounds. -/
structure SendCall.Within (call : SendCall) (point : SendPoint) (events : List AdapterEvent)
    (state : SendState) : Prop where
  reserves : point.reserves call state
  bounded : call.Bounded (point.rounds call state) (point.submissions call state) point.steps events

variable {events : List AdapterEvent}

theorem SendPoint.steps_le (point : SendPoint) : point.steps ≤ 5 := by
  cases point with
  | load purpose | peek purpose slot => cases purpose <;> simp [steps, Purpose.steps]
  | _ => simp [steps]

theorem within_start (h : state.submissionReserved = false) :
    call.Within call.start [] state := by
  cases call with
  | pollReady =>
      refine ⟨⟨rfl, h⟩, ?_⟩
      have hRounds : SendCall.pollReady.pollRounds state ≤ SendCall.pollReady.bound := by
        simp only [SendCall.pollRounds, SendCall.bound]
        split <;> omega
      exact SendCall.Bounded.start hRounds (Nat.zero_le 1)
  | sendData payload =>
      exact ⟨⟨rfl, h⟩, (SendCall.Bounded.start (Nat.le_refl 3) (Nat.le_refl 1)).mono
        (Nat.le_refl _) (Nat.le_refl _) (by simp [SendCall.start, SendPoint.steps, Purpose.steps])⟩
  | pollFinish =>
      refine ⟨⟨.inr rfl, h⟩, ?_⟩
      have hRounds : SendCall.pollFinish.pollRounds state ≤ SendCall.pollFinish.bound := by
        simp only [SendCall.pollRounds, SendCall.bound]
        repeat' split
        all_goals omega
      have hSubmissions : SendCall.pollFinish.pollSubmissions state ≤ 1 := by
        simp only [SendCall.pollSubmissions]
        split <;> omega
      exact (SendCall.Bounded.start hRounds hSubmissions).mono (Nat.le_refl _) (Nat.le_refl _)
        (Nat.le_succ 3)
  | reset code =>
      exact ⟨⟨⟨code, rfl⟩, h⟩, (SendCall.Bounded.start (Nat.le_refl 3) (Nat.le_refl 1)).mono
        (Nat.le_refl _) (Nat.le_refl _) (by simp [SendCall.start, SendPoint.steps, Purpose.steps])⟩
  | drop =>
      exact ⟨h, (SendCall.Bounded.start (Nat.le_refl 0) (Nat.zero_le 1)).mono
        (Nat.le_refl _) (Nat.le_refl _) (Nat.le_add_left 1 3)⟩

/-- A winner that is about to be returned. -/
theorem within_returning {winner : SendTerminal} {rounds submissions steps : Nat}
    (hFree : state.submissionReserved = false)
    (h : call.Bounded rounds submissions (steps + 1) events) :
    call.Within (call.returning winner) events state := by
  unfold SendCall.returning
  split
  · exact ⟨hFree, h.mono (Nat.zero_le _) (Nat.zero_le _) (Nat.le_add_left 1 _)⟩
  · exact ⟨hFree, h.mono (Nat.zero_le _) (Nat.zero_le _) (Nat.zero_le _)⟩

theorem within_resolved {purpose : Purpose} {terminal : Option SendTerminal}
    (hReserves : purpose.reserves call state)
    (h : call.Bounded (purpose.rounds call state) (purpose.submissions call state) purpose.steps
      events) : call.Within (call.resolved config terminal purpose) events state := by
  cases purpose with
  | guard =>
      cases terminal with
      | none => exact ⟨hReserves.2, h.mono (Nat.zero_le _) (Nat.zero_le _) (Nat.zero_le _)⟩
      | some winner => exact within_returning hReserves.2 h
  | request payload => exact ⟨⟨⟨payload, hReserves.1⟩, hReserves.2⟩, h⟩
  | poll poll =>
      obtain ⟨rfl | rfl, hFree⟩ := hReserves
      · exact ⟨⟨rfl, hFree⟩, h⟩
      · exact ⟨⟨rfl, hFree⟩, h⟩
  | reset code => exact ⟨hReserves, h⟩
  | sendSubmitted result => exact ⟨hReserves, h⟩
  | gracefulSubmitted result => exact ⟨hReserves, h⟩
  | resetSubmitted code result => exact ⟨hReserves, h⟩

/-- What a method does with a command keeps to what the reducer left it. -/
theorem within_obey {remaining : List UInt8} {command : SendCommand}
    (hHandled : call.handles command = true) (hReserves : call.Reserves state command)
    (h : call.Bounded (call.roundsAfter state command) (state.submissionsAfter command) 5 events) :
    call.Within (call.obey remaining command) events state := by
  have hShort : ∀ {n}, n ≤ 5 →
      call.Bounded (call.roundsAfter state command) (state.submissionsAfter command) n events :=
    fun hn => h.mono (Nat.le_refl _) (Nat.le_refl _) hn
  have hExit : call.Bounded 0 0 0 events := h.mono (Nat.zero_le _) (Nat.zero_le _) (Nat.zero_le _)
  cases call with
  | pollReady =>
      cases command with
      | pending => exact ⟨hReserves, hExit⟩
      | returnReady => exact ⟨hReserves, hExit⟩
      | returnError winner => exact within_returning hReserves h
      | repollReady => exact ⟨⟨.inl rfl, hReserves⟩, h.mono (Nat.le_refl _) (Nat.zero_le _) (SendPoint.steps_le _)⟩
      | publishTerminal candidate continuation => exact ⟨hReserves, hShort (SendPoint.steps_le _)⟩
      | _ => cases hHandled
  | sendData payload =>
      cases command with
      | returnSent => exact ⟨hReserves, hExit⟩
      | returnImmediateError error => exact ⟨hReserves, hExit⟩
      | returnError winner => exact within_returning hReserves h
      | submitSend => exact ⟨⟨⟨payload, rfl⟩, hReserves⟩, h⟩
      | publishTerminal candidate continuation => exact ⟨hReserves, hShort (SendPoint.steps_le _)⟩
      | _ => cases hHandled
  | pollFinish =>
      cases command with
      | pending => exact ⟨hReserves, hExit⟩
      | returnFinished => exact ⟨hReserves, hExit⟩
      | returnError winner => exact within_returning hReserves h
      | submitGraceful => exact ⟨⟨rfl, hReserves⟩, hShort (SendPoint.steps_le _)⟩
      | repollFinish => exact ⟨⟨.inr rfl, hReserves⟩, hShort (SendPoint.steps_le _)⟩
      | publishTerminal candidate continuation => exact ⟨hReserves, hShort (SendPoint.steps_le _)⟩
      | _ => cases hHandled
  | reset code =>
      cases command with
      | noOp => exact ⟨hReserves, hExit⟩
      | submitReset target => exact ⟨⟨⟨code, rfl⟩, hReserves⟩, hShort (SendPoint.steps_le _)⟩
      | publishTerminal candidate continuation => exact ⟨hReserves, hShort (SendPoint.steps_le _)⟩
      | _ => cases hHandled
  | drop => cases command <;> cases hHandled

theorem perform_reducer_of_not_feeds {op : Op} (h : op.feeds = false) (choice : Choice) (s : State) :
    (op.perform config choice s).2.reducer key = s.reducer key := by
  cases op with
  | conn op => simp [State.reducer]
  | stream target op =>
      by_cases hKey : key = target
      · subst hKey
        simp only [State.reducer, Op.perform_stream_self, StreamOp.perform_reducer]
        cases op <;> first | rfl | cases h
      · simp only [State.reducer, Op.perform_stream_of_ne _ _ _ _ hKey]

/-- A publication returns the marker only for a marker. -/
theorem within_published {candidate : SendTerminal} {continuation : TerminalContinuation}
    {remaining : List UInt8} (slot : Option SendTerminal)
    (hReserves : call.Reserves state (.publishTerminal candidate continuation))
    (h : call.Bounded (call.roundsAfter state (.publishTerminal candidate continuation))
      (state.submissionsAfter (.publishTerminal candidate continuation)) 0 events) :
    call.Within (.again ⟨.terminalPublished (publishSend slot candidate).1 continuation, remaining⟩)
      events state := by
  obtain ⟨hCall, hFree, hMarker⟩ := hReserves
  cases hCandidate : candidate.isProvisional with
  | false =>
      have hWinner := @publishSend_isProvisional slot candidate hCandidate
      refine ⟨⟨hCall, hFree, fun hPending => ?_⟩, h.mono ?_ ?_ (Nat.le_refl 0)⟩
      · rw [hWinner] at hPending
        cases hPending
      · simp [SendPoint.rounds, SendCall.rounds, SendCall.roundsAfter, hWinner, hCandidate]
      · cases continuation <;>
          simp [SendPoint.submissions, SendState.submissions, hWinner]
  | true =>
      refine ⟨⟨hCall, hFree, fun _ => hMarker hCandidate⟩, h.mono ?_ ?_ (Nat.le_refl 0)⟩
      · simp only [SendPoint.rounds, SendCall.rounds, SendCall.roundsAfter, hCandidate]
        split <;> simp
      · cases continuation <;>
          simp only [SendPoint.submissions, SendState.submissions, SendState.submissionsAfter,
            hCandidate, Bool.true_and, Nat.le_refl]
        cases (publishSend slot candidate).1.isProvisional <;> simp

/-- An operation leads from a point to one within the same bounds. -/
theorem within_step {point : SendPoint} {op : Op} {target : op.Reply → SendPoint} {s : State}
    (hNode : call.node config key point = .inl ⟨op, target⟩)
    (h : call.Within point events (s.reducer key)) (choice : Choice) :
    call.Within (target (op.perform config choice s).1)
      (events ++ [(adapter config).event choice (.send key call) op s])
      ((op.perform config choice s).2.reducer key) := by
  have hQuiet : ∀ {rounds submissions steps}, op.quiet →
      call.Bounded rounds submissions (steps + 1) events → call.Bounded rounds submissions steps
        (events ++ [(adapter config).event choice (.send key call) op s]) := by
    intro rounds submissions steps hOp hBounded
    refine hBounded.quiet fun e he => ?_
    rw [List.mem_singleton.1 he]
    exact hOp
  have hSubmit : ∀ {rounds steps}, op.submits = true →
      call.Bounded rounds 1 (steps + 1) events → call.Bounded rounds 0 steps
        (events ++ [(adapter config).event choice (.send key call) op s]) :=
    fun hOp hBounded => hBounded.submit hOp
  have hSame : op.feeds = false → (op.perform config choice s).2.reducer key = s.reducer key :=
    fun hOp => perform_reducer_of_not_feeds hOp choice s
  obtain ⟨hReserves, hBounded⟩ := h
  cases point with
  | guard =>
      cases hNode
      obtain ⟨rfl, hFree⟩ := hReserves
      have hNext := hQuiet ⟨rfl, rfl⟩ hBounded
      rw [hSame rfl]
      change SendCall.Within _ (if (s.reducer key).finishStarted then .load .guard else .poll) _ _
      split
      · exact ⟨⟨rfl, hFree⟩, hNext.mono (Nat.zero_le _) (Nat.le_refl 0) (Nat.le_refl 3)⟩
      · exact ⟨⟨.inl rfl, hFree⟩, hNext⟩
  | poll =>
      cases hNode
      rw [hSame rfl]
      exact ⟨hReserves, hQuiet ⟨rfl, rfl⟩ hBounded⟩
  | load purpose =>
      cases hNode
      have hSteps : (SendPoint.load purpose).steps = 1 + purpose.steps + 1 := by
        simp only [SendPoint.steps]
        omega
      rw [hSteps] at hBounded
      have hNext := hQuiet ⟨rfl, rfl⟩ hBounded
      rw [hSame rfl]
      dsimp only
      split
      · exact within_resolved hReserves
          (hNext.mono (Nat.le_refl _) (Nat.le_refl _) (Nat.le_add_left _ 1))
      · exact ⟨hReserves, hNext⟩
  | peek purpose slot =>
      cases hNode
      have hSteps : (SendPoint.peek purpose slot).steps = purpose.steps + 1 := Nat.add_comm 1 _
      rw [hSteps] at hBounded
      rw [hSame rfl]
      exact within_resolved hReserves (hQuiet ⟨rfl, rfl⟩ hBounded)
  | again round => cases hNode
  | feed round =>
      cases hNode
      have hObeyed := obeyed hReserves
      have hReducer : (Op.perform config choice (.stream key (.transition round.input)) s).2.reducer key =
          (transition (s.reducer key) round.input).2 := by
        simp only [State.reducer, Op.perform_stream_self, StreamOp.perform_reducer]
      rw [hReducer]
      apply within_obey hObeyed.handled hObeyed.reserves
      exact (hBounded.mono hObeyed.rounds hObeyed.submissions (Nat.le_refl 0)).feed rfl hObeyed.handled
  | publish candidate continuation remaining =>
      cases hNode
      rw [hSame rfl]
      exact within_published _ hReserves (hQuiet ⟨rfl, rfl⟩ hBounded)
  | box buffer =>
      cases hNode
      rw [hSame rfl]
      exact ⟨hReserves, hQuiet ⟨rfl, rfl⟩ hBounded⟩
  | submit context buffer =>
      cases hNode
      have hNext := hSubmit rfl hBounded
      rw [hSame rfl]
      dsimp only
      split
      · exact ⟨hReserves, hNext.mono (Nat.le_refl _) (Nat.le_refl _) (by decide)⟩
      · exact ⟨hReserves, hNext⟩
  | reclaim context status =>
      cases hNode
      rw [hSame rfl]
      exact ⟨hReserves, hQuiet ⟨rfl, rfl⟩ hBounded⟩
  | submitGraceful =>
      cases hNode
      rw [hSame rfl]
      exact ⟨hReserves, hSubmit rfl hBounded⟩
  | submitReset code =>
      cases hNode
      rw [hSame rfl]
      exact ⟨hReserves, hSubmit rfl hBounded⟩
  | commit fallback =>
      cases hNode
      rw [hSame rfl]
      exact ⟨hReserves, hQuiet ⟨rfl, rfl⟩ hBounded⟩
  | dropHalf =>
      cases hNode
      rw [hSame rfl]
      exact ⟨hReserves, hQuiet ⟨rfl, rfl⟩ hBounded⟩
  | exit result => cases hNode

end Points

section Termination

/-- What a call does before it returns: a bounded number of rounds and operations, each
command obeyed by an arm of its own, and at most one native submission. -/
structure SendCall.Contained (call : SendCall) (events : List AdapterEvent) : Prop where
  rounds : events.countP (fun e => e.op.feeds) ≤ call.bound
  submissions : events.countP (fun e => e.op.submits) ≤ 1
  operations : events.length ≤ 6 * call.bound + 4
  answers : ∀ e ∈ events, call.answers e = true

theorem SendCall.Bounded.contained {call : SendCall} {rounds submissions steps : Nat}
    {events : List AdapterEvent} (h : call.Bounded rounds submissions steps events) :
    call.Contained events := by
  obtain ⟨hRounds, hSubmissions, hSteps, hAnswers⟩ := h
  exact ⟨by omega, by omega, by omega, hAnswers⟩

variable {config : H3Config} {key : StreamKey} {initial : State}

/-- The send half alone decides how long its calls take, from any state on. -/
def loopFocus (config : H3Config) (key : StreamKey) (initial : State)
    (hFree : (initial.reducer key).submissionReserved = false) :
    (adapter config).Focus initial (.sendHalf key) SendPoint where
  permits := permits
  chart := SendOutline.chartOf config key
  start := SendOutline.startOf
  resumed := .feed
  known _ := True
  inv w := ∀ call events result, .finished ⟨.send key call, events, result⟩ ∈ w.trace →
    call.Contained events
  rely w w' := w'.state.reducer key = w.state.reducer key
  idle w := (w.state.reducer key).submissionReserved = false
  assertion request point events w := ∃ call, request = .send key call ∧
    call.Within point events (w.state.reducer key)
  uses_entry := uses_entry config
  uses_body := uses_body
  describes_entry := SendOutline.describes_owned config key
  rely_refl _ := rfl
  rely_trans left right := right.trans left
  stable w w' hStep _ _ hInv := by
    refine ⟨fun call events result hCall => ?_, (sendRely_of_interference hStep).reducer⟩
    obtain ⟨label, hTrace, hOwner⟩ := interference_trace hStep
    rw [hTrace, List.mem_append, List.mem_singleton] at hCall
    rcases hCall with hCall | rfl
    · exact hInv call events result hCall
    · exact absurd rfl hOwner
  init := by simp
  idle_init := hFree
  idle_stable w w' h hRely := hRely ▸ h
  begin request w state hOwner _ hInv hIdle hDeliver _ := by
    obtain ⟨call, rfl⟩ := owner_eq_sendHalf hOwner
    have hSame : state = w.state := SendOutline.deliver_send call hDeliver
    subst hSame
    exact ⟨by simpa using hInv, call, rfl, within_start hIdle⟩
  step request point events w op target hAt hNode w' hRely _ hInv choice _ := by
    obtain ⟨call, rfl, hWithin⟩ := hAt
    rw [← hRely] at hWithin
    exact ⟨by simpa using hInv, call, rfl, within_step hNode hWithin choice⟩
  again request point events w loop hAt hNode := by
    obtain ⟨call, rfl, hReserves, hBounded⟩ := hAt
    cases point <;> cases hNode
    have hCall : call ≠ .drop := by
      rintro rfl
      obtain ⟨input, remaining⟩ := loop
      cases input <;> simp [SendPoint.reserves, SendCall.Awaits, SendCall.continuation] at hReserves
    exact ⟨describes_body config key call hCall loop, call, rfl, hReserves, hBounded⟩
  finish request point events w result hAt hNode w' hRely _ hInv _ := by
    obtain ⟨call, rfl, hReserves, hBounded⟩ := hAt
    cases point <;> cases hNode
    refine ⟨fun other otherEvents otherResult hOther => ?_, hRely ▸ hReserves⟩
    simp only [World.after_trace, List.mem_append, List.mem_singleton] at hOther
    rcases hOther with hOther | hOther
    · exact hInv other otherEvents otherResult hOther
    · cases hOther
      exact hBounded.contained

theorem straight_ne_again {α : Type} (code : Code α) (result : α → Result) (round : SendRound) :
    straight code result ≠ .done (.inl round) := by
  intro h
  cases code <;> cases h

/-- No request asks for a further round before its first operation. -/
theorem entry_ne_again (config : H3Config) (request : Request) (round : SendRound) :
    request.entry config ≠ .done (.inl round) := by
  cases request with
  | opener n call => cases call <;> exact straight_ne_again _ _ round
  | recv key call => cases call <;> exact straight_ne_again _ _ round
  | send key call =>
      intro h
      cases call <;> cases h
  | _ => exact straight_ne_again _ _ round

theorem body_ne_again (request : Request) (round next : SendRound) :
    request.body round ≠ .done (.inl next) := by
  intro h
  unfold Request.body at h
  split at h <;> cases h

/-- From every state without a reservation on, whatever the slots and the channel hold
and whatever the callbacks publish in between, a call of the send half that is in progress
has kept to its bounds and can go on; one that returned kept to them and left no reservation. -/
theorem send_loops_terminate (config : H3Config) (key : StreamKey) (s : State)
    (hFree : (s.reducer key).submissionReserved = false) {trace : List AdapterLabel}
    {reached : AdapterConfig} (run : (adapter config).Runs (Machine.initial s) trace reached) :
    (∀ call events rest, reached.active (.sendHalf key) = some ⟨.send key call, events, rest⟩ →
      call.Contained events ∧
        ∀ choice, ((adapter config).step reached (.act (.sendHalf key) choice)).isSome) ∧
    (∀ call events result, .finished ⟨.send key call, events, result⟩ ∈ trace →
      call.Contained events) ∧
    (reached.active (.sendHalf key) = none → (reached.state.reducer key).submissionReserved = false) := by
  obtain ⟨hFinished, hLocal⟩ := (loopFocus config key s hFree).sound run fun _ _ _ _ => trivial
  refine ⟨fun call events rest hActive => ?_, hFinished, fun hIdle => ?_⟩
  · rw [hActive] at hLocal
    obtain ⟨point, before, -, -, other, hCall, hWithin⟩ := hLocal
    cases hCall
    exact ⟨hWithin.bounded.contained, fun choice =>
      run.progress (entry_ne_again config) body_ne_again hActive choice⟩
  · rw [hIdle] at hLocal
    exact hLocal

/-- A send half with a cancelled completion, a wake and a retained marker in its books. -/
def retainedStream : StreamState where
  send := { queue := [.complete true, .terminalWake], sender := true, receiver := true }
  sendTerminal := some .provisionalAbort
  reducer := { sendInprogress := true }

/-- A finish of that half polls twice, publishes twice and fails. -/
theorem send_loops_terminate_retained :
    ∃ trace reached events, (adapter .default).Runs
        (Machine.initial { stream := fun _ => retainedStream }) trace reached ∧
      .finished ⟨.send (.accepted 0) .pollFinish, events, .pollSend
        (.ready (.error (.winner (.failed .aborted))))⟩ ∈ trace ∧
      SendCall.pollFinish.Contained events := by
  have hRun : ((adapter .default).run (Machine.initial { stream := fun _ => retainedStream })
      (serveAll [(.send (.accepted 0) .pollFinish, 13)])).isSome := by
    decide
  refine ⟨_, _, _, Machine.runs_get hRun, @List.mem_of_getElem? _ _ 13 _ rfl, ?_⟩
  exact (send_loops_terminate .default (.accepted 0) _ rfl (Machine.runs_get hRun)).2.1 _ _ _
    (@List.mem_of_getElem? _ _ 13 _ rfl)

end Termination

end MsQuicH3
