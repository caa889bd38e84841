import MsQuicH3.HandleLedger

/-! The life of a tracked handle in every run. Its history is at every point the beginning
of one of three lives. The third one, a guard that is released before the native handle is
closed, is that of an accepted connection whose callback panicked between the two. -/
namespace MsQuicH3.Lifecycle

open Concurrency

/-- A handle that was taken, one that could not be, and one that was taken apart. -/
inductive Life where
  | full
  | refused
  | stripped
  deriving DecidableEq, Repr

def Life.marks : Life → List Mark
  | .full => [.reserved, .acquired, .built, .closed, .released]
  | .refused => [.reserved, .released]
  | .stripped => [.reserved, .acquired, .released, .closed]

/-- A history that begins a life. -/
def Begins (past : List Mark) : Prop := ∃ life : Life, past <+: life.marks

instance (past : List Mark) : Decidable (Begins past) :=
  decidable_of_iff (past <+: Life.full.marks ∨ past <+: Life.refused.marks ∨
    past <+: Life.stripped.marks)
    ⟨fun h => by rcases h with h | h | h <;> exact ⟨_, h⟩,
      fun ⟨life, h⟩ => by cases life <;> simp [h]⟩

theorem begins_cases {past : List Mark} (h : Begins past) :
    past ∈ [[], [.reserved], [.reserved, .released], [.reserved, .acquired],
      [.reserved, .acquired, .built], [.reserved, .acquired, .built, .closed],
      [.reserved, .acquired, .built, .closed, .released], [.reserved, .acquired, .released],
      [.reserved, .acquired, .released, .closed]] := by
  obtain ⟨life, h⟩ := h
  rw [← List.mem_inits] at h
  cases life <;> revert h past <;> decide

/-- The third life begins like the first one. -/
theorem prefix_stripped {past : List Mark} (h : past <+: Life.stripped.marks) :
    past <+: Life.full.marks ∨ .acquired ∈ past ∧ .released ∈ past ∧ .built ∉ past := by
  rw [← List.mem_inits] at h
  revert h past
  decide

/-- A history with nothing open is that of an untouched handle or a whole life. -/
theorem lived_of_counts {past : List Mark} (h : Begins past)
    (hReleased : past.count .released = past.count .reserved)
    (hClosed : past.count .closed = past.count .acquired) :
    past = [] ∨ ∃ life : Life, past = life.marks := by
  have hCases := begins_cases h
  simp only [List.mem_cons, List.not_mem_nil, or_false] at hCases
  rcases hCases with rfl | rfl | rfl | rfl | rfl | rfl | rfl | rfl | rfl
  · exact .inl rfl
  · cases hReleased
  · exact .inr ⟨.refused, rfl⟩
  · cases hReleased
  · cases hReleased
  · cases hReleased
  · exact .inr ⟨.full, rfl⟩
  · cases hClosed
  · exact .inr ⟨.stripped, rfl⟩

theorem reserved_of_acquired {past : List Mark} (h : Begins past) (hAcquired : .acquired ∈ past) :
    .reserved ∈ past := by
  obtain ⟨life, h⟩ := h
  rw [← List.mem_inits] at h
  revert hAcquired
  cases life <;> revert h past <;> decide

/-- What was acquired and released was closed, or its guard went before it was built. -/
theorem closed_or_bare {past : List Mark} (h : Begins past) (hAcquired : .acquired ∈ past)
    (hReleased : .released ∈ past) : .closed ∈ past ∨ .built ∉ past := by
  obtain ⟨life, h⟩ := h
  rw [← List.mem_inits] at h
  revert hReleased
  revert hAcquired
  cases life <;> revert h past <;> decide

/-- What a life can go on with. A native handle that was put together with its guard is
closed before the guard is released. -/
def Mark.follows : Mark → List Mark → Prop
  | .reserved, past => past.count .reserved = 0
  | .acquired, past =>
      past.count .reserved = 1 ∧ past.count .acquired = 0 ∧ past.count .released = 0
  | .built, past => past.count .acquired = 1 ∧ past.count .built = 0 ∧ past.count .released = 0
  | .closed, past => past.count .acquired = 1 ∧ past.count .closed = 0 ∧
      (past.count .built = 1 ∨ past.count .released = 1)
  | .released, past => past.count .reserved = 1 ∧ past.count .released = 0 ∧
      (past.count .acquired = 0 ∨ past.count .built = 0 ∨ past.count .closed = 1)

theorem begins_snoc {past : List Mark} {mark : Mark} (h : Begins past) (hFollows : mark.follows past) :
    Begins (past ++ [mark]) := by
  have hCases := begins_cases h
  simp only [List.mem_cons, List.not_mem_nil, or_false] at hCases
  rcases hCases with rfl | rfl | rfl | rfl | rfl | rfl | rfl | rfl | rfl
  all_goals
    cases mark <;> first | decide | simp [Mark.follows] at hFollows

section Step

variable {past : List Mark} {arcs introduced running : Nat} {held rest : Share} {op : Op}

/-- A native handle beside its guard was taken and nothing else. -/
theorem taken_of_raw (hBegins : Begins past) (hBooks : Books past arcs introduced running (held + rest))
    (hOnce : introduced ≤ 1) (hRaw : 0 < held.raw) : past = [.reserved, .acquired] := by
  obtain ⟨hReserved, hAcquired, -, hBuilt, -, -, -, -, hGuard, hNative, -⟩ := hBooks
  simp only [Share.add_eq] at hReserved hAcquired hBuilt hGuard hNative
  have hCounts : past.count .acquired = 1 ∧ past.count .built = 0 ∧ past.count .released = 0 := by
    omega
  have hCases := begins_cases hBegins
  simp only [List.mem_cons, List.not_mem_nil, or_false] at hCases
  rcases hCases with rfl | rfl | rfl | rfl | rfl | rfl | rfl | rfl | rfl <;>
    first | rfl | simp at hCounts

/-- The books allow for every mark of an operation that has what it needs. -/
theorem begins_step (hBegins : Begins past) (hBooks : Books past arcs introduced running (held + rest))
    (hOnce : introduced ≤ 1) (hNeeds : op.needs held) (reply : op.Reply) :
    Begins (past ++ op.marks reply) := by
  have hQuiet : Begins (past ++ []) := by
    rw [List.append_nil]
    exact hBegins
  obtain ⟨hReserved, hAcquired, hAlone, hBuilt, hJoined, -, -, -, hGuard, hNative, -⟩ := hBooks
  simp only [Share.add_eq] at hReserved hAcquired hAlone hBuilt hJoined hGuard hNative
  have hTaken : 0 < held.claim → 0 < held.guard → Begins (past ++ [.acquired]) := by
    intro hClaim hGuards
    apply begins_snoc hBegins
    refine ⟨?_, ?_, ?_⟩ <;> omega
  cases op with
  | reserve own =>
      have hRight : 0 < held.right := hNeeds
      apply begins_snoc hBegins
      change past.count .reserved = 0
      omega
  | release own =>
      have hHas : 0 < held.guard ∨ 0 < held.raw := hNeeds.imp_right And.left
      apply begins_snoc hBegins
      refine ⟨?_, ?_, ?_⟩ <;> omega
  | fromRaw own => exact hTaken hNeeds.1 hNeeds.2.1
  | arcNew own =>
      obtain ⟨hRaw, -, -⟩ := hNeeds
      apply begins_snoc hBegins
      refine ⟨?_, ?_, ?_⟩ <;> omega
  | closeConnection own =>
      have hHas : 0 < held.fields ∨ 0 < held.bare := hNeeds
      apply begins_snoc hBegins
      refine ⟨?_, ?_, ?_⟩ <;> omega
  | openListener l =>
      cases reply with
      | error status => exact hQuiet
      | ok _ =>
          have hFirst := hTaken hNeeds.1 hNeeds.2.1
          have hClaim := hNeeds.1
          have hHas := hNeeds.2.1
          change Begins (past ++ ([.acquired] ++ [.built]))
          rw [← List.append_assoc]
          apply begins_snoc hFirst
          refine ⟨?_, ?_, ?_⟩ <;> simp only [List.count_append, List.count_singleton, reduceCtorEq,
            beq_iff_eq, ↓reduceIte] <;> omega
  | closeListener l =>
      have hHas : 0 < held.fields := hNeeds
      apply begins_snoc hBegins
      refine ⟨?_, ?_, ?_⟩ <;> omega
  | openConnection n =>
      cases reply with
      | error status => exact hQuiet
      | ok _ => exact hTaken hNeeds.1 hNeeds.2.1
  | _ => exact hQuiet

end Step

section Runs

variable {h : Handle} {request : Request} {earlier later trace : List LifecycleLabel}
  {reached : LifecycleConfig} {e : LifecycleEvent} {events : List LifecycleEvent} {held frame : Share}

/-- The share of a handle that a call has in hand after its operations so far. -/
def share (h : Handle) (request : Request) (events : List LifecycleEvent) : Share :=
  (ledger h).hold request events

theorem issued (h : Handle) (run : Runs (earlier ++ .event e :: later) reached) :
    ∃ events frame, (ledger h).Taken earlier e.request events ∧
      (ledger h).Issued earlier e (share h e.request events) frame :=
  (ledger h).issued (valid_initial h) run

theorem issued_last (h : Handle) (run : Runs (earlier ++ [.event e]) reached) :
    ∃ events frame, (ledger h).Taken earlier e.request events ∧
      (ledger h).Issued earlier e (share h e.request events) frame := issued h run

theorem needs_of_issued (hIssued : (ledger h).Issued earlier e held frame)
    (hSubject : Op.subject e.op = some h) : Op.needs e.op held := hIssued.takes hSubject

theorem books_of_issued (hIssued : (ledger h).Issued earlier e held frame) :
    Books (history h earlier) (e.before.arcs h) (introduced e.before h) (running e.before h)
      (held + (stored e.before h + frame)) := by
  rw [add_left_comm]
  exact hIssued.valid

theorem history_event : history h (earlier ++ [.event e]) = history h earlier ++ marked h e :=
  history_snoc h earlier (.event e)

/-- The history of a handle begins a life at every point of a run. -/
theorem begins_history (h : Handle) (run : Runs trace reached) : Begins (history h trace) := by
  induction run with
  | start => exact ⟨.full, List.nil_prefix⟩
  | @step trace label config next move prior last ih =>
      cases label with
      | event e =>
          obtain ⟨events, frame, -, hIssued⟩ := issued_last h (prior.step last)
          rw [history_event, marked]
          split
          next hSubject =>
              exact begins_step ih (books_of_issued hIssued) (introduced_le _ _)
                (needs_of_issued hIssued hSubject) e.reply
          next => rwa [List.append_nil]
      | _ => rw [history_snoc]; exact (List.append_nil _).symm ▸ ih

theorem runs_before (run : Runs (earlier ++ .event e :: later) reached) :
    ∃ config, Runs earlier config ∧ config.state = e.before := by
  obtain ⟨config, move, after, hEarlier, hStep, -⟩ := Machine.Runs.pass run
  refine ⟨config, hEarlier, ?_⟩
  rcases Machine.step_cases hStep with ⟨_, _, _, _, hKind, _⟩ | ⟨_, _, _, _, _, _, _, hKind, _⟩ |
    ⟨_, _, _, _, _, hKind, _⟩
  · cases hKind
  · cases hKind
    rfl
  · cases hKind

end Runs

/-- Whether an operation is a contained panic. -/
def Op.panics : (op : Op) → op.Reply → Bool
  | .panicPoint _, struck => struck
  | _, _ => false

section Torn

variable {h : Handle} {request : Request} {earlier later trace : List LifecycleLabel}
  {reached : LifecycleConfig} {e : LifecycleEvent} {events : List LifecycleEvent} {held frame : Share}
  {op : Op}

/-- The request panicked when the handle was taken and not yet put together. -/
def Torn (h : Handle) (request : Request) (trace : List LifecycleLabel) : Prop :=
  ∃ earlier e later, trace = earlier ++ .event e :: later ∧ e.request = request ∧
    Op.panics e.op e.reply = true ∧ history h earlier = [.reserved, .acquired]

theorem Torn.grow (hTorn : Torn h request trace) (further : List LifecycleLabel) :
    Torn h request (trace ++ further) := by
  obtain ⟨earlier, e, later, rfl, hOwn, hPanics, hPast⟩ := hTorn
  exact ⟨earlier, e, later ++ further, by simp, hOwn, hPanics, hPast⟩

theorem brings_struck (h : Handle) (request : Request) : (request.brings h).struck = 0 := by
  have hCase : ∀ (c : Prop) [Decidable c] (x : Share), x.struck = 0 →
      (if c then x else {}).struck = 0 := by
    intro c _ x hCalm
    split
    · exact hCalm
    · rfl
  cases request with
  | listener l event => cases event <;> first | rfl | exact hCase _ _ rfl
  | pollAccept l => rfl
  | pollConnect n point => cases point <;> exact hCase _ _ rfl
  | dropConnect n point => cases point <;> exact hCase _ _ rfl
  | _ => exact hCase _ _ rfl

theorem received_struck (h : Handle) (op : Op) (reply : op.Reply) :
    (received h op reply).struck = (op.panics reply).toNat := by
  cases op with
  | panicPoint k => cases reply <;> rfl
  | pollConn l =>
      rcases reply with - | (- | (- | n))
      · rfl
      · rfl
      · rfl
      · simp only [received]
        split <;> rfl
  | dropReceiver l =>
      cases h with
      | accepted m n =>
          simp only [received]
          split <;> rfl
      | _ => rfl
  | _ => rfl

theorem received_raw (h : Handle) (op : Op) (reply : op.Reply) : (received h op reply).raw = 0 := by
  rw [received_eq]

theorem leaves_struck (reply : op.Reply) : (op.leaves reply held).struck = held.struck := by
  cases op with
  | release own => simp only [Op.leaves]; split <;> rfl
  | arcClone own => simp only [Op.leaves]; split <;> rfl
  | arcDrop own => simp only [Op.leaves]; split <;> rfl
  | closeConnection own => simp only [Op.leaves]; split <;> rfl
  | handOver own count => cases own <;> first | rfl | exact held.give_struck count
  | sendConn l message => cases reply <;> first | rfl | exact held.give_struck 2
  | openListener l => cases reply <;> rfl
  | openConnection n => cases reply <;> rfl
  | setConnecting n connecting =>
      rcases connecting with - | (- | -) | - | - <;> first | rfl | exact Share.give_struck _ 1
  | _ => rfl

/-- Nothing is taken behind a panic. -/
theorem leaves_raw (reply : op.Reply) (hNeeds : op.needs held) (hRaw : 0 < (op.leaves reply held).raw) :
    0 < held.raw ∨ held.struck = 0 := by
  cases op with
  | fromRaw own => exact .inr hNeeds.2.2
  | arcNew own => exact .inr hNeeds.2.2
  | openListener l => exact .inr hNeeds.2.2
  | openConnection n => exact .inr hNeeds.2.2
  | release own =>
      simp only [Op.leaves] at hRaw
      split at hRaw
      · exact .inl hRaw
      · exact .inl (Nat.lt_of_lt_of_le hRaw (Nat.sub_le ..))
  | arcClone own => simp only [Op.leaves] at hRaw; split at hRaw <;> exact .inl hRaw
  | arcDrop own => simp only [Op.leaves] at hRaw; split at hRaw <;> exact .inl hRaw
  | closeConnection own => simp only [Op.leaves] at hRaw; split at hRaw <;> exact .inl hRaw
  | handOver own count =>
      cases own <;> first | exact .inl hRaw | exact .inl (held.give_raw count ▸ hRaw)
  | sendConn l message =>
      cases reply with
      | false => exact .inl hRaw
      | true => exact .inl (held.give_raw 2 ▸ hRaw)
  | setConnecting n connecting =>
      rcases connecting with - | (- | -) | - | - <;>
        first | exact .inl hRaw | exact .inl (Share.give_raw { held with pen := held.pen - 1 } 1 ▸ hRaw)
  | _ => exact .inl hRaw

/-- A native handle in hand behind a panic was there before the panic. -/
theorem torn_of_taken (run : Runs trace reached) (hTaken : (ledger h).Taken trace request events)
    (hRaw : 0 < (share h request events).raw) (hStruck : 0 < (share h request events).struck) :
    Torn h request trace := by
  induction hTaken with
  | nil =>
      exact absurd hStruck (Nat.not_lt.2 (Nat.le_of_eq (brings_struck h request)))
  | @snoc events e earlier later frame prior own place issued ih =>
      have hHold : share h request (events ++ [e]) =
          (ownership h).keeps (share h request events) e.op e.reply := (ledger h).hold_snoc ..
      rw [hHold] at hRaw hStruck
      simp only [ownership] at hRaw hStruck
      split at hRaw
      next hSubject =>
          rw [if_pos hSubject, leaves_struck] at hStruck
          apply ih _ hStruck
          have hCases := leaves_raw e.reply (needs_of_issued issued hSubject) hRaw
          exact hCases.resolve_right (Nat.ne_of_gt hStruck)
      next hSubject =>
          rw [if_neg hSubject, Share.add_struck, received_struck] at hStruck
          rw [Share.add_raw, received_raw, Nat.add_zero] at hRaw
          cases hPanics : Op.panics e.op e.reply with
          | false => exact ih hRaw (by simpa [hPanics] using hStruck)
          | true =>
              refine ⟨earlier, e, later, place, own, hPanics, ?_⟩
              subst place
              obtain ⟨config, hEarlier, -⟩ := runs_before run
              exact taken_of_raw (begins_history h hEarlier) (books_of_issued issued)
                (introduced_le _ _) hRaw

theorem marks_released {reply : op.Reply} (hMark : .released ∈ op.marks reply) :
    ∃ own, op = .release own := by
  cases op with
  | release own => exact ⟨own, rfl⟩
  | openListener l => cases reply <;> simp [Op.marks] at hMark
  | openConnection n => cases reply <;> simp [Op.marks] at hMark
  | _ => simp [Op.marks] at hMark

theorem marks_acquired {reply : op.Reply} (hMark : .acquired ∈ op.marks reply) (hNeeds : op.needs held) :
    0 < held.guard ∧ .released ∉ op.marks reply := by
  cases op with
  | fromRaw own => exact ⟨hNeeds.2.1, by simp [Op.marks]⟩
  | openListener l => exact ⟨hNeeds.2.1, by cases reply <;> simp [Op.marks]⟩
  | openConnection n => exact ⟨hNeeds.2.1, by cases reply <;> simp [Op.marks]⟩
  | _ => simp [Op.marks] at hMark

/-- Only callbacks contain panics. -/
theorem torn_request (run : Runs trace reached) (hTorn : Torn h request trace) :
    ∃ l event, request = .listener l event := by
  obtain ⟨earlier, p, later, rfl, rfl, hPanics, -⟩ := hTorn
  have hPermits := Machine.Runs.permitted uses_entry uses_body run (e := p) (by simp)
  obtain ⟨own, op, reply, before⟩ := p
  cases op with
  | panicPoint k => exact hPermits
  | _ => cases hPanics

/-- A native handle whose guard goes first was in hand of a callback that panicked. -/
theorem torn_of_release {own : Handle} (run : Runs (earlier ++ .event e :: later) reached)
    (hOp : e.op = .release own) (hAcquired : .acquired ∈ history own earlier)
    (hBuilt : .built ∉ history own earlier) :
    ∃ l n, own = .accepted l n ∧ Torn own (.listener l (.newConnection n)) earlier := by
  obtain ⟨config, hEarlier, -⟩ := runs_before run
  obtain ⟨events, frame, hTaken, hIssued⟩ := issued own run
  have hNeeds := needs_of_issued hIssued (by rw [hOp]; rfl)
  rw [hOp] at hNeeds
  rcases hNeeds with hGuard | ⟨hRaw, hStruck⟩
  · obtain ⟨hReserved, -, hAlone, -, -, -, -, -, -, -, -⟩ := books_of_issued hIssued
    have hOnce := introduced_le e.before own
    rw [List.count_eq_zero.2 hBuilt, Share.add_guard] at hAlone
    have hCount := List.count_pos_iff.2 hAcquired
    omega
  · have hTorn := torn_of_taken hEarlier hTaken hRaw hStruck
    have hDrops : e.request.drops own := by
      have hPermits := Machine.Runs.permitted uses_entry uses_body run (e := e) (by simp)
      rwa [hOp] at hPermits
    obtain ⟨l, event, hRequest⟩ := torn_request hEarlier hTorn
    rw [hRequest] at hTorn hDrops
    cases event with
    | stopComplete => cases hDrops
    | newConnection n => exact ⟨l, n, hDrops, hTorn⟩

/-- The guard of a native handle that was not put together with it went first. -/
theorem torn_of_stripped (run : Runs trace reached) (hAcquired : .acquired ∈ history h trace)
    (hReleased : .released ∈ history h trace) (hBuilt : .built ∉ history h trace) :
    ∃ l n, h = .accepted l n ∧ Torn h (.listener l (.newConnection n)) trace := by
  induction run with
  | start => cases hAcquired
  | @step trace label config next move prior last ih =>
      have hGrow : (∃ l n, h = .accepted l n ∧ Torn h (.listener l (.newConnection n)) trace) →
          ∃ l n, h = .accepted l n ∧ Torn h (.listener l (.newConnection n)) (trace ++ [label]) := by
        rintro ⟨l, n, hAccepted, hTorn⟩
        exact ⟨l, n, hAccepted, hTorn.grow [label]⟩
      have run : Runs (trace ++ [label]) next := prior.step last
      rw [history_snoc, List.mem_append] at hAcquired hReleased hBuilt
      rw [not_or] at hBuilt
      cases label with
      | begun request => exact hGrow (ih (by simpa [Machine.noted] using hAcquired)
          (by simpa [Machine.noted] using hReleased) hBuilt.1)
      | finished call => exact hGrow (ih (by simpa [Machine.noted] using hAcquired)
          (by simpa [Machine.noted] using hReleased) hBuilt.1)
      | event e =>
          obtain ⟨events, frame, -, hIssued⟩ := issued_last h run
          by_cases hSubject : Op.subject e.op = some h
          · have hNeeds := needs_of_issued hIssued hSubject
            have hMarked : marked h e = Op.marks e.op e.reply := if_pos hSubject
            simp only [Machine.noted, hMarked] at hAcquired hReleased hBuilt
            rcases hAcquired with hAcquired | hNow
            · rcases hReleased with hReleased | hNow
              · exact hGrow (ih hAcquired hReleased hBuilt.1)
              · obtain ⟨own, hOp⟩ := marks_released hNow
                obtain rfl : own = h := by simpa [hOp, Op.subject] using hSubject
                exact hGrow (torn_of_release run hOp hAcquired hBuilt.1)
            · obtain ⟨hGuards, hNot⟩ := marks_acquired hNow hNeeds
              have hCount := List.count_pos_iff.2 (hReleased.resolve_right hNot)
              have hBooks := books_of_issued hIssued
              have hGuard := hBooks.guard
              have hReserved := hBooks.reserved
              have hOnce := introduced_le e.before h
              rw [Share.add_guard] at hGuard
              omega
          · have hMarked : marked h e = [] := if_neg hSubject
            simp only [Machine.noted, hMarked, List.not_mem_nil, or_false] at hAcquired hReleased
            exact hGrow (ih hAcquired hReleased hBuilt.1)

/-- Every handle lives one of three lives, and the third one only behind a panic of the
callback that took it. -/
theorem life_of_handle (run : Runs trace reached) (h : Handle) :
    ∃ life : Life, history h trace <+: life.marks ∧ (life = .stripped →
      ∃ l n, h = .accepted l n ∧ Torn h (.listener l (.newConnection n)) trace) := by
  obtain ⟨life, hPrefix⟩ := begins_history h run
  cases life with
  | full => exact ⟨.full, hPrefix, fun hOther => by cases hOther⟩
  | refused => exact ⟨.refused, hPrefix, fun hOther => by cases hOther⟩
  | stripped =>
      rcases prefix_stripped hPrefix with hFull | ⟨hAcquired, hReleased, hBuilt⟩
      · exact ⟨.full, hFull, fun hOther => by cases hOther⟩
      · exact ⟨.stripped, hPrefix, fun _ => torn_of_stripped run hAcquired hReleased hBuilt⟩

/-- A connection that is offered, accepted and dropped beside its listener. -/
def servedOut : List LifecycleMove :=
  serveAll [(.withConfig 0, 5), (.listener 0 (.newConnection 3), 17), (.pollAccept 0, 3),
    (.dropListener 0, 4), (.dropArc 0 (.accepted 0 3), 2), (.dropArc 0 (.accepted 0 3), 4)]

/-- A callback that panics when it has taken the connection. -/
def shakenOpen : List LifecycleMove :=
  serveAll [(.withConfig 0, 5)] ++ (Request.listener 0 (.newConnection 3)).serve
    (List.replicate 7 ({} : Choice) ++ { panics := true } :: List.replicate 6 ({} : Choice))

set_option maxRecDepth 4000 in
theorem life_of_handle_shaken :
    ∃ trace reached, lifecycle.run (Machine.initial {}) shakenOpen = some (trace, reached) ∧
      history (.accepted 0 3) trace = Life.stripped.marks ∧
      ∃ l n, Handle.accepted 0 3 = .accepted l n ∧
        Torn (.accepted 0 3) (.listener l (.newConnection n)) trace := by
  have hRun : (lifecycle.run (Machine.initial {}) shakenOpen).any fun out =>
      history (.accepted 0 3) out.1 = Life.stripped.marks := by decide
  obtain ⟨⟨trace, reached⟩, hOut, hEnd⟩ := (Option.any_eq_true _ _).1 hRun
  have hMarks : history (.accepted 0 3) trace = Life.stripped.marks := of_decide_eq_true hEnd
  obtain ⟨life, hPrefix, hTorn⟩ := life_of_handle (Machine.runs_of_run hOut) (.accepted 0 3)
  refine ⟨trace, reached, hOut, hMarks, hTorn ?_⟩
  rw [hMarks] at hPrefix
  revert hPrefix
  cases life <;> decide

end Torn

end MsQuicH3.Lifecycle
