import MsQuicH3.HandleCount

/-! What becomes of an offered connection. Every invocation of a `NewConnection` callback
ends in one of five ways, with the verdict that goes with it, whatever the invocations beside
it do; and who was not handed the connection never touches its handle. -/
namespace MsQuicH3.Lifecycle

open Concurrency

/-- How an invocation disposes of the connection it is offered. -/
inductive Fate where
  | untouched
  | refused
  | delivered
  | dropped
  | stripped
  deriving DecidableEq, Repr

def Fate.marks : Fate → List Mark
  | .untouched => []
  | .refused => Life.refused.marks
  | .delivered => [.reserved, .acquired, .built]
  | .dropped => Life.full.marks
  | .stripped => Life.stripped.marks

/-- Whether the callback took the connection, which is what it returns `Ok` for. -/
def Fate.taken : Fate → Bool
  | .untouched | .refused => false
  | .delivered | .dropped | .stripped => true

/-- A connection that the accept queue took. -/
def Op.delivers : (op : Op) → op.Reply → Bool
  | .sendConn _ (some _), sent => sent
  | _, _ => false

/-- A panic between the ownership token and the `ConnHandle`. -/
def Shaken (h : Handle) (events : List LifecycleEvent) : Prop :=
  ∃ before p after, events = before ++ p :: after ∧ Op.panics p.op p.reply = true ∧
    before.flatMap (marked h) = [.reserved, .acquired]

section Trail

/-- Where an invocation is with the connection it is offered: what it has noted, how often it
delivered, whether it was shaken and what it has in hand. -/
inductive Trail : List Mark → Nat → Prop → Share → Prop where
  | offered {shaken : Prop} {struck : Nat} (calm : ¬shaken) :
      Trail [] 0 shaken { right := 1, struck }
  | reserved {shaken : Prop} {struck : Nat} (calm : ¬shaken) :
      Trail [.reserved] 0 shaken { claim := 1, guard := 1, struck }
  | refused {shaken : Prop} {struck : Nat} (calm : ¬shaken) :
      Trail [.reserved, .released] 0 shaken { claim := 1, struck }
  | taken {shaken : Prop} {struck : Nat} (told : shaken ↔ 0 < struck) :
      Trail [.reserved, .acquired] 0 shaken { raw := 1, sole := 1, struck }
  | built {shaken : Prop} {own struck : Nat} (calm : ¬shaken) (some : 0 < own) :
      Trail [.reserved, .acquired, .built] 0 shaken { sole := 1, own, struck }
  | delivered {shaken : Prop} {struck : Nat} (calm : ¬shaken) :
      Trail [.reserved, .acquired, .built] 1 shaken { struck }
  | last {shaken : Prop} {struck : Nat} (calm : ¬shaken) :
      Trail [.reserved, .acquired, .built] 0 shaken { sole := 1, fields := 1, struck }
  | closed {shaken : Prop} {struck : Nat} (calm : ¬shaken) :
      Trail [.reserved, .acquired, .built, .closed] 0 shaken { sole := 1, guard := 1, struck }
  | dropped {shaken : Prop} {struck : Nat} (calm : ¬shaken) :
      Trail [.reserved, .acquired, .built, .closed, .released] 0 shaken { sole := 1, struck }
  | bare {shaken : Prop} {struck : Nat} (told : shaken) :
      Trail [.reserved, .acquired, .released] 0 shaken { sole := 1, bare := 1, struck }
  | stripped {shaken : Prop} {struck : Nat} (told : shaken) :
      Trail [.reserved, .acquired, .released, .closed] 0 shaken { sole := 1, struck }

variable {marks : List Mark} {sent l n : Nat} {shaken : Prop} {x : Share} {op : Op}

/-- A panic shakes an invocation that has taken the connection and not built its handle. -/
theorem Trail.strike (h : Trail marks sent shaken x) :
    Trail marks sent (shaken ∨ marks = [.reserved, .acquired]) (x + { struck := 1 }) := by
  cases h with
  | offered calm => exact .offered (by simpa using calm)
  | reserved calm => exact .reserved (by simpa using calm)
  | refused calm => exact .refused (by simpa using calm)
  | taken told => exact .taken (by simp)
  | built calm some => exact .built (by simpa using calm) some
  | delivered calm => exact .delivered (by simpa using calm)
  | last calm => exact .last (by simpa using calm)
  | closed calm => exact .closed (by simpa using calm)
  | dropped calm => exact .dropped (by simpa using calm)
  | bare told => exact .bare (.inl told)
  | stripped told => exact .stripped (.inl told)

/-- An operation of the invocation on the connection goes on with its trail. -/
theorem Trail.trade (h : Trail marks sent shaken x) {reply : op.Reply}
    (hPermits : permits (.listener l (.newConnection n)) op)
    (hSubject : op.subject = some (.accepted l n)) (hNeeds : op.needs x)
    (hFits : fitting (.accepted l n) op reply x) :
    Trail (marks ++ op.marks reply) (sent + (op.delivers reply).toNat) shaken (op.leaves reply x) := by
  cases op with
  | reserve own =>
      cases h with
      | offered calm => exact .reserved calm
      | _ => exact absurd hNeeds (Nat.lt_irrefl 0)
  | setConfiguration own =>
      cases h with
      | reserved calm => exact .reserved calm
      | refused calm => exact .refused calm
      | _ => exact absurd hNeeds (Nat.lt_irrefl 0)
  | setCallbackHandler own =>
      cases h with
      | taken told => exact .taken told
      | _ => exact absurd hNeeds (Nat.lt_irrefl 0)
  | fromRaw own =>
      obtain ⟨hClaim, hGuard, hCalm⟩ := hNeeds
      cases h with
      | reserved calm => exact .taken (iff_of_false calm (Nat.not_lt.2 (Nat.le_of_eq hCalm)))
      | _ => first | exact absurd hClaim (Nat.lt_irrefl 0) | exact absurd hGuard (Nat.lt_irrefl 0)
  | arcNew own =>
      obtain ⟨hRaw, -, hCalm⟩ := hNeeds
      cases h with
      | taken told =>
          exact .built (fun hShaken => Nat.ne_of_gt (told.1 hShaken) hCalm) Nat.one_pos
      | _ => exact absurd hRaw (Nat.lt_irrefl 0)
  | release own =>
      cases h with
      | reserved calm => exact .refused calm
      | taken told =>
          obtain ⟨-, hStruck⟩ := hNeeds.resolve_left (Nat.lt_irrefl 0)
          exact .bare (told.2 hStruck)
      | closed calm => exact .dropped calm
      | _ => exact (hNeeds.elim (Nat.lt_irrefl 0) fun hRaw => Nat.lt_irrefl 0 hRaw.1).elim
  | arcClone own =>
      cases h with
      | built calm some =>
          simp only [Op.leaves, some, ↓reduceIte]
          exact .built calm (Nat.succ_pos _)
      | _ => exact (hNeeds.elim (Nat.lt_irrefl 0) (Nat.lt_irrefl 0)).elim
  | arcDrop own =>
      cases h with
      | @built _ count struck calm some =>
          simp only [Op.leaves, some, ↓reduceIte]
          cases reply with
          | true =>
              obtain rfl : count = 1 := (hFits (Option.some.inj hSubject)).1 rfl
              exact .last calm
          | false =>
              refine .built calm ?_
              have hMore : count ≠ 1 := fun hOne => by
                cases (hFits (Option.some.inj hSubject)).2 hOne
              omega
      | _ => exact (hNeeds.elim (Nat.lt_irrefl 0) (Nat.lt_irrefl 0)).elim
  | closeConnection own =>
      cases h with
      | last calm => exact .closed calm
      | bare told => exact .stripped told
      | _ => exact (hNeeds.elim (Nat.lt_irrefl 0) (Nat.lt_irrefl 0)).elim
  | sendConn m message =>
      obtain ⟨hSole, hOwn⟩ := hNeeds
      cases message with
      | none => cases hSubject
      | some k =>
          cases h with
          | built calm some =>
              obtain rfl := hOwn
              cases reply with
              | true => exact .delivered calm
              | false => exact .built calm Nat.two_pos
          | _ => cases hOwn
  | handOver own count => exact absurd rfl (hPermits.2 l _)
  | _ => cases hSubject

theorem received_of_permits (reply : op.Reply) (hPermits : permits (.listener l (.newConnection n)) op) :
    received (.accepted l n) op reply = { struck := (op.panics reply).toNat } := by
  cases op with
  | panicPoint k => cases reply <;> rfl
  | pollConn m => cases hPermits
  | dropReceiver m => cases hPermits <;> contradiction
  | _ => rfl

theorem Op.calm_of_subject {own : Handle} (hSubject : op.subject = some own) (reply : op.Reply) :
    op.panics reply = false := by
  cases op with
  | panicPoint k => cases hSubject
  | _ => rfl

theorem Op.delivers_of_other (reply : op.Reply)
    (hPermits : permits (.listener l (.newConnection n)) op) (hSubject : op.subject ≠ some (.accepted l n)) :
    op.delivers reply = false := by
  cases op with
  | sendConn m message =>
      cases message with
      | none => rfl
      | some k =>
          cases hPermits
          exact absurd rfl hSubject
  | _ => rfl

theorem shaken_snoc {h : Handle} {events : List LifecycleEvent} {e : LifecycleEvent} :
    Shaken h (events ++ [e]) ↔ Shaken h events ∨
      Op.panics e.op e.reply = true ∧ events.flatMap (marked h) = [.reserved, .acquired] := by
  constructor
  · rintro ⟨before, p, after, hEvents, hPanics, hMarks⟩
    rcases List.eq_nil_or_concat after with rfl | ⟨rest, last, rfl⟩
    · obtain ⟨rfl, hLast⟩ := List.append_inj' hEvents rfl
      cases hLast
      exact .inr ⟨hPanics, hMarks⟩
    · rw [List.concat_eq_append, ← List.cons_append, ← List.append_assoc] at hEvents
      obtain ⟨rfl, -⟩ := List.append_inj' hEvents rfl
      exact .inl ⟨before, p, rest, rfl, hPanics, hMarks⟩
  · rintro (⟨before, p, after, rfl, hPanics, hMarks⟩ | ⟨hPanics, hMarks⟩)
    · exact ⟨before, p, after ++ [e], by simp, hPanics, hMarks⟩
    · exact ⟨events, e, [], rfl, hPanics, hMarks⟩

/-- An invocation is on a trail after all its operations. -/
theorem trail_of_taken {trace : List LifecycleLabel} {events : List LifecycleEvent}
    (hPermits : ∀ e ∈ events, permits (.listener l (.newConnection n)) e.op)
    (hTaken : (ledger (.accepted l n)).Taken trace (.listener l (.newConnection n)) events) :
    Trail (events.flatMap (marked (.accepted l n)))
      (events.countP fun e => Op.delivers e.op e.reply) (Shaken (.accepted l n) events)
      (share (.accepted l n) (.listener l (.newConnection n)) events) := by
  induction hTaken with
  | nil =>
      have hStart : share (.accepted l n) (.listener l (.newConnection n)) [] = { right := 1 } :=
        if_pos rfl
      rw [hStart]
      refine .offered ?_
      rintro ⟨before, p, after, hEvents, -⟩
      simp at hEvents
  | @snoc events e earlier later frame prior own place issued ih =>
      have hTrail := ih fun p hp => hPermits p (List.mem_append_left _ hp)
      have hOp := hPermits e (by simp)
      have hHold : share (.accepted l n) (.listener l (.newConnection n)) (events ++ [e]) =
          (ownership (.accepted l n)).keeps
            (share (.accepted l n) (.listener l (.newConnection n)) events) e.op e.reply :=
        (ledger (.accepted l n)).hold_snoc ..
      have hSent : [e].countP (fun e => Op.delivers e.op e.reply) = (Op.delivers e.op e.reply).toNat := by
        rw [List.countP_singleton, Bool.toNat, Bool.cond_eq_ite]
      rw [hHold, List.flatMap_append, List.flatMap_singleton, List.countP_append, hSent, shaken_snoc]
      by_cases hSubject : Op.subject e.op = some (.accepted l n)
      · have hNext := hTrail.trade hOp hSubject (needs_of_issued issued hSubject) issued.possible
        simpa [ownership, marked, hSubject, Op.calm_of_subject hSubject] using hNext
      · have hNone := received_of_permits e.reply hOp
        simp only [ownership, marked, hSubject, ↓reduceIte, List.append_nil, hNone,
          Op.delivers_of_other e.reply hOp hSubject, Bool.toNat_false, Nat.add_zero]
        cases hPanics : Op.panics e.op e.reply with
        | true => simpa using hTrail.strike
        | false =>
            have hSame : ∀ x : Share, x + {} = x := add_zero
            simpa [hSame] using hTrail

/-- An invocation ends where nothing is in hand, and the verdict tells whether it has taken
the connection. -/
theorem Trail.ends {marks : List Mark} {sent : Nat} {shaken taken : Prop} {x : Share}
    (h : Trail marks sent shaken x) (hSettled : x.Settled) (hVerdict : taken ↔ x.right + x.claim = 0) :
    ∃ fate : Fate, marks = fate.marks ∧ sent = (if fate = .delivered then 1 else 0) ∧
      (taken ↔ fate.taken = true) ∧ (shaken ↔ fate = .stripped) := by
  obtain ⟨hGuard, hRaw, hFields, hBare, hOwn, -, -⟩ := hSettled
  cases h with
  | offered calm => exact ⟨.untouched, rfl, rfl, hVerdict.trans (by simp [Fate.taken]), by simpa using calm⟩
  | reserved calm => cases hGuard
  | refused calm => exact ⟨.refused, rfl, rfl, hVerdict.trans (by simp [Fate.taken]), by simpa using calm⟩
  | taken told => cases hRaw
  | built calm some => exact absurd hOwn (Nat.ne_of_gt some)
  | delivered calm => exact ⟨.delivered, rfl, rfl, hVerdict.trans (by simp [Fate.taken]), by simpa using calm⟩
  | last calm => cases hFields
  | closed calm => cases hGuard
  | dropped calm => exact ⟨.dropped, rfl, rfl, hVerdict.trans (by simp [Fate.taken]), by simpa using calm⟩
  | bare told => cases hBare
  | stripped told => exact ⟨.stripped, rfl, rfl, hVerdict.trans (by simp [Fate.taken]), by simpa using told⟩

end Trail

section Alone

variable {l n : Nat} {trace : List LifecycleLabel} {reached : LifecycleConfig}

/-- Native code offers a connection once. -/
theorem offered_once (run : Runs trace reached) :
    (lifecycle.begunBy (.callback l (.newConnection n)) trace).length ≤
      introduced reached.state (.accepted l n) := by
  induction run with
  | start => exact Nat.zero_le _
  | @step trace label config next move prior last ih =>
      rw [Machine.begunBy_snoc, List.length_append]
      rcases Machine.step_cases last with ⟨request, state, -, hDeliver, rfl, rfl⟩ |
        ⟨acting, choice, request, events, op, following, -, rfl, rfl⟩ |
        ⟨acting, request, events, result, -, rfl, rfl⟩
      · obtain ⟨right, pen, hDelivered⟩ := @delivered (.accepted l n) _ _ _ hDeliver
        by_cases hOwn : request = .listener l (.newConnection n)
        · subst hOwn
          simp only [lifecycle, deliver, Option.ite_none_right_eq_some, Option.some.injEq] at hDeliver
          obtain ⟨⟨-, -, hNew⟩, rfl⟩ := hDeliver
          have hZero : introduced config.state (.accepted l n) = 0 := if_neg hNew
          rw [hZero, Nat.le_zero] at ih
          rw [ih]
          simp [Machine.begunBy, lifecycle, Request.owner, introduced]
        · have hOther : Request.owner request ≠ .callback l (.newConnection n) := by
            intro hSame
            cases request <;> cases hSame
            exact hOwn rfl
          have hNone : lifecycle.begunBy (.callback l (.newConnection n)) [.begun request] = [] := by
            simp [Machine.begunBy, lifecycle, hOther]
          have hGrow := hDelivered.introduced
          rw [hNone]
          change _ + 0 ≤ introduced state _
          omega
      · have hOffered : ((op.perform choice config.state).2.listener l).offered =
            (config.state.listener l).offered :=
          perform_context choice config.state ListenerState.offered l fun _ _ _ _ _ => rfl
        have hSame : introduced (op.perform choice config.state).2 (.accepted l n) =
            introduced config.state (.accepted l n) := by simp only [introduced, hOffered]
        exact hSame ▸ ih
      · exact ih

/-- The connection is reserved and taken by the callback it is offered to. -/
theorem marked_foreign {e : LifecycleEvent} {mark : Mark} (hPermits : permits e.request e.op)
    (hMark : mark ∈ marked (.accepted l n) e) (hFirst : mark = .reserved ∨ mark = .acquired) :
    e.request = .listener l (.newConnection n) := by
  obtain ⟨request, op, reply, before, after⟩ := e
  simp only [marked] at hMark
  split at hMark
  next hSubject =>
      cases op with
      | reserve own =>
          cases hSubject
          cases request with
          | listener m event =>
              cases event with
              | newConnection k => cases hPermits; rfl
              | stopComplete => cases hPermits
          | _ => cases hPermits
      | fromRaw own =>
          obtain ⟨m, k, hRequest, hSame⟩ := hPermits
          cases hSubject
          cases hSame
          exact hRequest
      | openListener m => cases hSubject
      | openConnection k => cases hSubject
      | _ => rcases hFirst with rfl | rfl <;> simp [Op.marks] at hMark
  next => cases hMark

/-- The one invocation that is offered a connection. -/
theorem invocation_unique (run : Runs trace reached) {call : Completed signature State Request Result}
    (hCall : .finished call ∈ trace) (hRequest : call.request = .listener l (.newConnection n))
    {e : LifecycleEvent} (he : .event e ∈ trace) (hOwn : e.request = .listener l (.newConnection n)) :
    e ∈ call.events := by
  have hOnce := (offered_once (l := l) (n := n) run).trans (introduced_le _ _)
  rw [Machine.Runs.begun_by_call run, List.length_append, List.length_map] at hOnce
  obtain ⟨hActive, hFinished⟩ := Machine.Runs.call_events run
  have hMem : call ∈ lifecycle.callsOf (.callback l (.newConnection n)) trace :=
    Machine.mem_callsOf.2 ⟨hCall, by rw [hRequest]; rfl⟩
  have hCount := List.length_pos_of_mem hMem
  rcases Machine.Runs.event_cases run he with ⟨other, hOther, hEvent⟩ | ⟨thread, a, hBusy, hEvent⟩
  · have hSame : other ∈ lifecycle.callsOf (.callback l (.newConnection n)) trace := by
      refine Machine.mem_callsOf.2 ⟨hOther, ?_⟩
      rw [← ((hFinished other hOther) e hEvent).1, hOwn]
      rfl
    obtain ⟨only, hOnly⟩ := List.length_eq_one_iff.1 (Nat.le_antisymm (by omega) hCount)
    rw [hOnly, List.mem_singleton] at hMem hSame
    rw [hMem, ← hSame]
    exact hEvent
  · obtain ⟨hThread, hEvents⟩ := hActive thread a hBusy
    rw [← (hEvents e hEvent).1, hOwn] at hThread
    have hHere : reached.active (.callback l (.newConnection n)) = some a := by
      rw [← hBusy, ← hThread]
      rfl
    simp only [hHere, Option.map_some, Option.toList_some, List.length_singleton] at hOnce
    omega

theorem history_of_fate {past : List Mark} (fate : Fate) (hBegins : Begins past)
    (hSublist : fate.marks.Sublist past) (hReserved : .reserved ∈ past → .reserved ∈ fate.marks)
    (hAcquired : .acquired ∈ past → .acquired ∈ fate.marks) :
    if fate = .delivered then fate.marks <+: past else past = fate.marks := by
  have hCases := begins_cases hBegins
  simp only [List.mem_cons, List.not_mem_nil, or_false] at hCases
  revert hSublist hReserved hAcquired
  rcases hCases with rfl | rfl | rfl | rfl | rfl | rfl | rfl | rfl | rfl <;> cases fate <;> decide

/-- The first marks of a connection are those of the invocation it is offered to. -/
theorem first_of_call (run : Runs trace reached) {call : Completed signature State Request Result}
    (hCall : .finished call ∈ trace) (hRequest : call.request = .listener l (.newConnection n))
    {mark : Mark} (hFirst : mark = .reserved ∨ mark = .acquired)
    (hMark : mark ∈ history (.accepted l n) trace) :
    mark ∈ call.events.flatMap (marked (.accepted l n)) := by
  obtain ⟨label, hLabel, hNoted⟩ := List.mem_flatMap.1 hMark
  cases label with
  | event e =>
      have hPermits := Machine.Runs.permitted uses_entry uses_body run hLabel
      have hOwn := marked_foreign hPermits hNoted hFirst
      exact List.mem_flatMap.2 ⟨e, invocation_unique run hCall hRequest hLabel hOwn, hNoted⟩
  | _ => cases hNoted

theorem noted_sublist (h : Handle) (run : Runs trace reached)
    {call : Completed signature State Request Result} (hCall : .finished call ∈ trace) :
    (call.events.flatMap (marked h)).Sublist (history h trace) := by
  have hSublist := ((Machine.Runs.events_sublist run).2 call hCall).flatMap (Machine.noted (marked h))
  rwa [List.flatMap_map] at hSublist

/-- Every invocation of the callback disposes of the connection it is offered in one of five
ways: it never counts it, it counts it and is refused by the configuration, it delivers it,
it drops it, or it is shaken and takes it apart. It returns `Ok` for the last three alone,
and unless it has delivered the connection nothing else ever happens to it. -/
theorem connection_disposed (run : Runs trace reached)
    {call : Completed signature State Request Result} (hCall : .finished call ∈ trace)
    (hRequest : call.request = .listener l (.newConnection n)) :
    ∃ fate : Fate, call.events.flatMap (marked (.accepted l n)) = fate.marks ∧
      call.events.countP (fun e => Op.delivers e.op e.reply) = (if fate = .delivered then 1 else 0) ∧
      (call.result = .callback (.ok ()) ↔ fate.taken = true) ∧
      (Shaken (.accepted l n) call.events ↔ fate = .stripped) ∧
      if fate = .delivered then fate.marks <+: history (.accepted l n) trace
      else history (.accepted l n) trace = fate.marks := by
  have hPermits : ∀ e, .event e ∈ trace → permits e.request e.op := fun e =>
    Machine.Runs.permitted uses_entry uses_body run
  obtain ⟨hTaken, hSettled, hVerdict⟩ := (ledger (.accepted l n)).returned (valid_initial _) run hCall
  have hEvents := (Machine.Runs.call_events run).2 call hCall
  rw [hRequest] at hTaken hSettled
  have hVerdict := hVerdict l n hRequest rfl
  rw [hRequest] at hVerdict
  have hTrail := trail_of_taken (fun e he => by
    have hPermitted := hPermits e (hEvents e he).2
    rwa [(hEvents e he).1, hRequest] at hPermitted) hTaken
  obtain ⟨fate, hMarks, hSent, hResult, hShaken⟩ := hTrail.ends hSettled hVerdict
  refine ⟨fate, hMarks, hSent, hResult, hShaken, history_of_fate fate (begins_history _ run) ?_ ?_ ?_⟩
  · rw [← hMarks]
    exact noted_sublist _ run hCall
  · rw [← hMarks]
    exact first_of_call run hCall hRequest (.inl rfl)
  · rw [← hMarks]
    exact first_of_call run hCall hRequest (.inr rfl)

/-- Whether a label is the return of a `NewConnection` callback. -/
def returnsFrom (l n : Nat) : LifecycleLabel → Bool
  | .finished call => call.request == .listener l (.newConnection n)
  | _ => false

set_option maxRecDepth 4000 in
theorem connection_disposed_shaken :
    ∃ trace reached, ∃ call : Completed signature State Request Result,
      lifecycle.run (Machine.initial {}) shakenOpen = some (trace, reached) ∧
      .finished call ∈ trace ∧ history (.accepted 0 3) trace = Fate.stripped.marks ∧
      ∃ fate : Fate, call.events.flatMap (marked (.accepted 0 3)) = fate.marks ∧
        call.events.countP (fun e => Op.delivers e.op e.reply) =
          (if fate = .delivered then 1 else 0) ∧
        (call.result = .callback (.ok ()) ↔ fate.taken = true) ∧
        (Shaken (.accepted 0 3) call.events ↔ fate = .stripped) ∧
        if fate = .delivered then fate.marks <+: history (.accepted 0 3) trace
        else history (.accepted 0 3) trace = fate.marks := by
  have hRun : (lifecycle.run (Machine.initial {}) shakenOpen).any fun out =>
      out.1.any (returnsFrom 0 3) = true ∧
        history (.accepted 0 3) out.1 = Fate.stripped.marks := by decide
  obtain ⟨⟨trace, reached⟩, hOut, hEnd⟩ := (Option.any_eq_true _ _).1 hRun
  obtain ⟨hReturns, hMarks⟩ := of_decide_eq_true hEnd
  obtain ⟨label, hLabel, hReturn⟩ := List.any_eq_true.1 hReturns
  cases label with
  | finished call =>
      exact ⟨trace, reached, call, hOut, hLabel, hMarks,
        connection_disposed (Machine.runs_of_run hOut) hLabel (eq_of_beq hReturn)⟩
  | _ => cases hReturn

end Alone

end MsQuicH3.Lifecycle
