import Mathlib.Data.Set.Card
import MsQuicH3.HandleLife

/-! The rundown count and the handles it stands for. The count is at every point of a run the
number of handles that were reserved and not yet released, a native handle is used while it
is open and counted, and between the calls the count is the number of handles somebody has. -/
namespace MsQuicH3.Lifecycle

open Concurrency

/-- The handle whose native object an operation uses. -/
def Op.uses : Op → Option Handle
  | .setCallbackHandler h | .arcNew h | .arcClone h | .arcDrop h | .closeConnection h => some h
  | .sendConn l (some n) => some (.accepted l n)
  | .startListener l | .closeListener l => some (.listener l)
  | .startConnection n => some (.client n)
  | _ => none

/-- The handles the rundown waits for. -/
def tracked (trace : List LifecycleLabel) : Set Handle :=
  { h | .reserved ∈ history h trace ∧ .released ∉ history h trace }

section Count

variable {h : Handle} {trace earlier later : List LifecycleLabel} {reached : LifecycleConfig}
  {e : LifecycleEvent} {held rest : Share} {op : Op} {arcs introduced running : Nat}

theorem deliver_active {request : Request} {s s' : State} (hDeliver : deliver request s = some s') :
    s'.active = s.active := by
  have hTake : ∀ {h : Handle}, s.take h = some s' → s'.active = s.active := by
    intro h hTaken
    simp only [State.take, Option.ite_none_right_eq_some, Option.some.injEq] at hTaken
    obtain ⟨-, rfl⟩ := hTaken
    rfl
  have hResume : ∀ {n point}, s.resume n point = some s' → s'.active = s.active := by
    intro n point hResumed
    simp only [State.resume, Option.ite_none_right_eq_some, Option.some.injEq] at hResumed
    obtain ⟨-, rfl⟩ := hResumed
    rfl
  cases request with
  | dropListener l => exact hTake hDeliver
  | pollConnect n point => exact hResume hDeliver
  | dropConnect n point => exact hResume hDeliver
  | cloneOpener k own =>
      simp only [deliver, Option.ite_none_right_eq_some] at hDeliver
      exact hTake hDeliver.2
  | dropArc k own =>
      simp only [deliver, Option.ite_none_right_eq_some] at hDeliver
      exact hTake hDeliver.2
  | withConfig l =>
      simp only [deliver, Option.ite_none_left_eq_some, Option.some.injEq] at hDeliver
      obtain ⟨-, rfl⟩ := hDeliver
      rfl
  | listener l event =>
      cases event <;>
        simp only [deliver, Option.ite_none_right_eq_some, Option.some.injEq] at hDeliver <;>
        (obtain ⟨-, rfl⟩ := hDeliver; rfl)
  | _ =>
      simp only [deliver, Option.ite_none_right_eq_some, Option.some.injEq] at hDeliver
      obtain ⟨-, rfl⟩ := hDeliver
      rfl

/-- The count changes with a reservation and a release alone. -/
theorem perform_active (choice : Choice) (s : State) (hReserve : ∀ own, op ≠ .reserve own)
    (hRelease : ∀ own, op ≠ .release own) : (op.perform choice s).2.active = s.active := by
  cases op with
  | reserve own => exact absurd rfl (hReserve own)
  | release own => exact absurd rfl (hRelease own)
  | openListener l =>
      simp only [Op.perform]
      split <;> rfl
  | _ => rfl

theorem marks_reserved {reply : op.Reply} (hMark : .reserved ∈ op.marks reply) :
    ∃ own, op = .reserve own := by
  cases op with
  | reserve own => exact ⟨own, rfl⟩
  | openListener l => cases reply <;> simp [Op.marks] at hMark
  | openConnection n => cases reply <;> simp [Op.marks] at hMark
  | _ => simp [Op.marks] at hMark

theorem mem_marked {mark : Mark} (h : mark ∈ marked h e) : mark ∈ Op.marks e.op e.reply := by
  rw [marked] at h
  split at h
  · exact h
  · cases h

theorem tracked_snoc (label : LifecycleLabel) (hQuiet : ∀ h, .reserved ∉ Machine.noted (marked h) label ∧
    .released ∉ Machine.noted (marked h) label) : tracked (trace ++ [label]) = tracked trace := by
  ext h
  obtain ⟨hReserved, hReleased⟩ := hQuiet h
  simp [tracked, history_snoc, hReserved, hReleased]

theorem tracked_reserve (hOp : e.op = .reserve h) (hOpen : .released ∉ history h trace) :
    tracked (trace ++ [.event e]) = insert h (tracked trace) := by
  obtain ⟨request, op, reply, before, after⟩ := e
  cases hOp
  ext other
  by_cases hSame : other = h
  · subst hSame
    simp [tracked, history_event, marked, Op.subject, Op.marks, hOpen]
  · have hOther : h ≠ other := Ne.symm hSame
    simp [tracked, history_event, marked, Op.subject, hSame, hOther]

theorem tracked_release (hOp : e.op = .release h) :
    tracked (trace ++ [.event e]) = tracked trace \ {h} := by
  obtain ⟨request, op, reply, before, after⟩ := e
  cases hOp
  ext other
  by_cases hSame : other = h
  · subst hSame
    simp [tracked, history_event, marked, Op.subject, Op.marks]
  · have hOther : h ≠ other := Ne.symm hSame
    simp [tracked, history_event, marked, Op.subject, hSame, hOther]

/-- What a reservation and a release find. -/
theorem tracked_of_books (hBooks : Books (history h trace) arcs introduced running (held + rest))
    (hOnce : introduced ≤ 1) :
    (0 < held.right → .released ∉ history h trace ∧ h ∉ tracked trace) ∧
      (0 < held.guard ∨ 0 < held.raw → h ∈ tracked trace) := by
  have hGuard := hBooks.guard
  have hReserved := hBooks.reserved
  simp only [Share.add_guard, Share.add_raw, Share.add_right] at hGuard hReserved
  refine ⟨fun hRight => ?_, fun hHas => ⟨?_, ?_⟩⟩
  · have hNone : (history h trace).count .reserved = 0 := by omega
    refine ⟨List.count_eq_zero.1 ?_, fun hTracked => List.count_eq_zero.1 hNone hTracked.1⟩
    omega
  · apply List.count_pos_iff.1
    omega
  · apply List.count_eq_zero.1
    omega

/-- The count is the number of handles that were reserved and not yet released. -/
theorem active_eq_tracked (run : Runs trace reached) :
    (tracked trace).Finite ∧ reached.state.active = (tracked trace).ncard := by
  induction run with
  | start =>
      have hNone : tracked [] = ∅ := by simp [tracked, history]
      rw [hNone]
      exact ⟨Set.finite_empty, Set.ncard_empty _ ▸ rfl⟩
  | @step trace label config next move prior last ih =>
      obtain ⟨hFinite, hCount⟩ := ih
      have run : Runs (trace ++ [label]) next := prior.step last
      have hQuiet : next.state.active = config.state.active →
          (∀ h, .reserved ∉ Machine.noted (marked h) label ∧
            .released ∉ Machine.noted (marked h) label) →
          (tracked (trace ++ [label])).Finite ∧
            next.state.active = (tracked (trace ++ [label])).ncard := by
        intro hActive hMarks
        rw [tracked_snoc label hMarks, hActive]
        exact ⟨hFinite, hCount⟩
      rcases Machine.step_cases last with ⟨request, state, -, hDeliver, rfl, rfl⟩ |
        ⟨acting, choice, request, events, op, following, -, rfl, rfl⟩ |
        ⟨acting, request, events, result, -, rfl, rfl⟩
      · exact hQuiet (deliver_active hDeliver) fun _ => by simp [Machine.noted]
      · by_cases hReserve : ∃ own, op = .reserve own
        · obtain ⟨own, rfl⟩ := hReserve
          obtain ⟨earlier, frame, -, hIssued⟩ := issued_last own run
          obtain ⟨hOpen, hNew⟩ := (tracked_of_books (books_of_issued hIssued) (introduced_le _ _)).1
            (needs_of_issued hIssued rfl)
          rw [tracked_reserve rfl hOpen, Set.ncard_insert_of_notMem hNew hFinite, ← hCount]
          exact ⟨hFinite.insert own, rfl⟩
        · by_cases hRelease : ∃ own, op = .release own
          · obtain ⟨own, rfl⟩ := hRelease
            obtain ⟨earlier, frame, -, hIssued⟩ := issued_last own run
            have hNeeds := needs_of_issued hIssued rfl
            have hTracked := (tracked_of_books (books_of_issued hIssued) (introduced_le _ _)).2
              (hNeeds.imp_right And.left)
            rw [tracked_release rfl, Set.ncard_sdiff_singleton_of_mem hTracked, ← hCount]
            exact ⟨hFinite.subset Set.sdiff_subset, rfl⟩
          · rw [not_exists] at hReserve hRelease
            refine hQuiet (perform_active choice _ hReserve hRelease) fun h => ⟨?_, ?_⟩
            · intro hMark
              obtain ⟨own, hOp⟩ := marks_reserved (mem_marked hMark)
              exact hReserve own hOp
            · intro hMark
              obtain ⟨own, hOp⟩ := marks_released (mem_marked hMark)
              exact hRelease own hOp
      · exact hQuiet rfl fun _ => by simp [Machine.noted]

/-- The count is not zero while a handle is tracked. -/
theorem active_pos (run : Runs trace reached) (h : h ∈ tracked trace) : 0 < reached.state.active := by
  obtain ⟨hFinite, hCount⟩ := active_eq_tracked run
  rw [hCount, Set.ncard_pos hFinite]
  exact ⟨_, h⟩

/-- The rundown count is the number of tracked handles. When it is zero, every native handle
is closed but those whose guard went first. -/
theorem rundown_counts (run : Runs trace reached) :
    reached.state.active = (tracked trace).ncard ∧ (reached.state.active = 0 →
      ∀ h, .acquired ∈ history h trace → .closed ∈ history h trace ∨
        ∃ l n, h = .accepted l n ∧ Torn h (.listener l (.newConnection n)) trace) := by
  refine ⟨(active_eq_tracked run).2, fun hZero h hAcquired => ?_⟩
  have hBegins := begins_history h run
  have hReleased : .released ∈ history h trace := by
    by_contra hNot
    have hTracked : h ∈ tracked trace := ⟨reserved_of_acquired hBegins hAcquired, hNot⟩
    exact Nat.ne_of_gt (active_pos run hTracked) hZero
  exact (closed_or_bare hBegins hAcquired hReleased).imp_right
    (torn_of_stripped run hAcquired hReleased)

set_option maxRecDepth 4000 in
theorem rundown_counts_servedOut :
    ∃ trace reached, lifecycle.run (Machine.initial {}) servedOut = some (trace, reached) ∧
      (tracked trace).ncard = 0 ∧ .acquired ∈ history (.accepted 0 3) trace ∧
      (.closed ∈ history (.accepted 0 3) trace ∨ ∃ l n, Handle.accepted 0 3 = .accepted l n ∧
        Torn (.accepted 0 3) (.listener l (.newConnection n)) trace) := by
  have hRun : (lifecycle.run (Machine.initial {}) servedOut).any fun out =>
      out.2.state.active = 0 ∧ .acquired ∈ history (.accepted 0 3) out.1 := by decide
  obtain ⟨⟨trace, reached⟩, hOut, hEnd⟩ := (Option.any_eq_true _ _).1 hRun
  obtain ⟨hZero, hAcquired⟩ := of_decide_eq_true hEnd
  obtain ⟨hCount, hClosed⟩ := rundown_counts (Machine.runs_of_run hOut)
  exact ⟨trace, reached, hOut, hCount.symm.trans hZero, hAcquired, hClosed hZero _ hAcquired⟩

end Count

section Use

variable {h : Handle} {trace earlier later : List LifecycleLabel} {reached : LifecycleConfig}
  {e : LifecycleEvent} {held rest : Share} {op : Op} {arcs introduced running : Nat}

/-- What an operation needs that uses a native handle. -/
theorem has_of_uses (hUses : op.uses = some h) (hNeeds : op.needs held) :
    0 < held.raw + held.fields + held.own + held.refs ∨ op = .closeConnection h ∧ 0 < held.bare := by
  cases op with
  | setCallbackHandler own => exact .inl (by have hRaw : 0 < held.raw := hNeeds; omega)
  | arcNew own => exact .inl (by have hRaw : 0 < held.raw := hNeeds.1; omega)
  | arcClone own => exact .inl (by have hHas : 0 < held.own ∨ 0 < held.refs := hNeeds; omega)
  | arcDrop own => exact .inl (by have hHas : 0 < held.own ∨ 0 < held.refs := hNeeds; omega)
  | closeConnection own =>
      cases hUses
      rcases hNeeds with hFields | hBare
      · exact .inl (by omega)
      · exact .inr ⟨rfl, hBare⟩
  | sendConn l message => exact .inl (by have hOwn : held.own = 2 := hNeeds.2; omega)
  | startListener l => exact .inl (by have hFields : 0 < held.fields := hNeeds; omega)
  | closeListener l => exact .inl (by have hFields : 0 < held.fields := hNeeds; omega)
  | startConnection n => exact .inl (by have hOwn : 0 < held.own := hNeeds; omega)
  | _ => cases hUses

theorem subject_of_uses (hUses : op.uses = some h) : op.subject = some h := by
  cases op with
  | sendConn l message => cases message <;> exact hUses
  | _ => first | exact hUses | cases hUses

/-- A native handle is used when it was taken, while it is not closed, and while the rundown
waits for it. The one exception is the close of a handle whose guard went first. -/
theorem used_while_open (run : Runs (earlier ++ .event e :: later) reached)
    (hUses : Op.uses e.op = some h) :
    .acquired ∈ history h earlier ∧ .closed ∉ history h earlier ∧
      (h ∈ tracked earlier ∧ 0 < e.before.active ∨ e.op = .closeConnection h ∧
        ∃ l n, h = .accepted l n ∧ Torn h (.listener l (.newConnection n)) earlier) := by
  obtain ⟨config, hEarlier, hState⟩ := runs_before run
  obtain ⟨events, frame, -, hIssued⟩ := issued h run
  have hOnce := introduced_le e.before h
  have hHas := has_of_uses hUses (needs_of_issued hIssued (subject_of_uses hUses))
  obtain ⟨hReserved, hAcquired, hAlone, hBuilt, hJoined, -, -, hCount, hGuard, hNative, -⟩ :=
    books_of_issued hIssued
  simp only [Share.add_eq] at hReserved hAcquired hAlone hBuilt hJoined hCount hGuard hNative
  have hTaken : .acquired ∈ history h earlier := List.count_pos_iff.1 (by omega)
  refine ⟨hTaken, List.count_eq_zero.1 (by omega), ?_⟩
  rcases hHas with hHas | ⟨hClose, hBare⟩
  · have hTracked : h ∈ tracked earlier :=
      ⟨List.count_pos_iff.1 (by omega), List.count_eq_zero.1 (by omega)⟩
    rw [← hState]
    exact .inl ⟨hTracked, active_pos hEarlier hTracked⟩
  · refine .inr ⟨hClose, torn_of_stripped hEarlier hTaken ?_ ?_⟩
    · exact List.count_pos_iff.1 (by omega)
    · exact List.count_eq_zero.1 (by omega)

/-- The handle that the last operation of a trace uses. -/
def lastUse (trace : List LifecycleLabel) : Option Handle :=
  match trace.getLast? with
  | some (.event e) => Op.uses e.op
  | _ => none

theorem lastUse_event (hLast : lastUse trace = some h) :
    ∃ earlier e, trace = earlier ++ [.event e] ∧ Op.uses e.op = some h := by
  rcases List.eq_nil_or_concat trace with rfl | ⟨earlier, label, rfl⟩
  · cases hLast
  · rw [List.concat_eq_append] at hLast
    simp only [lastUse, List.getLast?_concat] at hLast
    cases label with
    | event e => exact ⟨earlier, e, List.concat_eq_append .., hLast⟩
    | _ => cases hLast

/-- A callback that is about to close the connection it was shaken with. -/
def shakenClose : List LifecycleMove := shakenOpen.dropLast.dropLast.dropLast.dropLast

set_option maxRecDepth 4000 in
theorem used_while_open_shaken :
    ∃ earlier e reached, lifecycle.run (Machine.initial {}) shakenClose =
        some (earlier ++ [.event e], reached) ∧ Op.uses e.op = some (.accepted 0 3) ∧
      .acquired ∈ history (.accepted 0 3) earlier ∧ .closed ∉ history (.accepted 0 3) earlier ∧
      (.accepted 0 3 ∈ tracked earlier ∧ 0 < e.before.active ∨ e.op = .closeConnection (.accepted 0 3) ∧
        ∃ l n, Handle.accepted 0 3 = .accepted l n ∧
          Torn (.accepted 0 3) (.listener l (.newConnection n)) earlier) := by
  have hRun : (lifecycle.run (Machine.initial {}) shakenClose).any fun out =>
      lastUse out.1 = some (.accepted 0 3) := by decide
  obtain ⟨⟨trace, reached⟩, hOut, hEnd⟩ := (Option.any_eq_true _ _).1 hRun
  obtain ⟨earlier, e, rfl, hUses⟩ := lastUse_event (of_decide_eq_true hEnd)
  exact ⟨earlier, e, reached, hOut, hUses, used_while_open (Machine.runs_of_run hOut) hUses⟩

end Use

section Idle

variable {h : Handle} {trace : List LifecycleLabel} {reached : LifecycleConfig} {s : State}

/-- The application has references to the handle, an accept queue has the connection, or a
connect attempt is suspended. -/
def Possessed (s : State) : Handle → Prop
  | .listener l => 0 < s.external (.listener l)
  | .accepted l n => 0 < s.external (.accepted l n) ∨ some n ∈ (s.listener l).conn.queue
  | .client n => 0 < s.external (.client n) ∨ ∃ point, s.connecting n = .suspended point

theorem possessed_iff : Possessed s h ↔
    0 < (stored s h).guard + (stored s h).fields + (stored s h).refs := by
  cases h with
  | listener l => simp [Possessed, stored]
  | accepted l n =>
      simp only [Possessed, stored, ← List.count_pos_iff]
      omega
  | client n =>
      cases hPoint : s.connecting n with
      | suspended point => cases point <;> simp [Possessed, stored, hPoint]
      | _ => simp [Possessed, stored, hPoint]

theorem stored_parts (s : State) (h : Handle) :
    (stored s h).raw = 0 ∧ (stored s h).bare = 0 ∧ (stored s h).own = 0 := by
  cases h with
  | client n =>
      simp only [stored]
      split <;> exact ⟨rfl, rfl, rfl⟩
  | _ => exact ⟨rfl, rfl, rfl⟩

/-- What nobody has when no call is in progress has lived its life, and the count is the
number of handles somebody has. -/
theorem disposed_when_idle (run : Runs trace reached) (hIdle : ∀ thread, reached.active thread = none) :
    reached.state.active = { h | Possessed reached.state h }.ncard ∧
      ∀ h, ¬Possessed reached.state h →
        history h trace = [] ∨ ∃ life : Life, history h trace = life.marks := by
  have hBooks : ∀ h, Books (history h trace) (reached.state.arcs h) (introduced reached.state h)
      (running reached.state h) (stored reached.state h) := fun h => (balanced h run).idle hIdle
  refine ⟨?_, fun h hFree => ?_⟩
  · have hSame : tracked trace = { h | Possessed reached.state h } := by
      ext h
      obtain ⟨hReserved, -, -, -, -, -, -, hCount, hGuard, -, -⟩ := hBooks h
      obtain ⟨hRaw, -, hOwn⟩ := stored_parts reached.state h
      have hOnce := introduced_le reached.state h
      rw [Set.mem_ofPred_eq, possessed_iff, tracked, Set.mem_ofPred_eq, ← List.count_pos_iff,
        ← List.count_eq_zero]
      omega
    rw [← hSame]
    exact (active_eq_tracked run).2
  · obtain ⟨-, -, -, -, -, -, -, hCount, hGuard, hNative, -⟩ := hBooks h
    obtain ⟨hRaw, hBare, hOwn⟩ := stored_parts reached.state h
    rw [possessed_iff] at hFree
    apply lived_of_counts (begins_history h run) <;> omega

/-- Whether the thread of a request is idle. -/
def idleAfter (reached : LifecycleConfig) : LifecycleLabel → Bool
  | .begun request => (reached.active request.owner).isNone
  | _ => true

set_option maxRecDepth 4000 in
theorem disposed_when_idle_servedOut :
    ∃ trace reached, lifecycle.run (Machine.initial {}) servedOut = some (trace, reached) ∧
      history (.accepted 0 3) trace ≠ [] ∧
      reached.state.active = { h | Possessed reached.state h }.ncard ∧
      ∀ h, ¬Possessed reached.state h →
        history h trace = [] ∨ ∃ life : Life, history h trace = life.marks := by
  have hRun : (lifecycle.run (Machine.initial {}) servedOut).any fun out =>
      out.1.all (idleAfter out.2) = true ∧ history (.accepted 0 3) out.1 ≠ [] := by decide
  obtain ⟨⟨trace, reached⟩, hOut, hEnd⟩ := (Option.any_eq_true _ _).1 hRun
  obtain ⟨hAll, hSome⟩ := of_decide_eq_true hEnd
  have hReached : Runs trace reached := Machine.runs_of_run hOut
  have hIdle : ∀ thread, reached.active thread = none := by
    intro thread
    cases hActive : reached.active thread with
    | none => rfl
    | some a =>
        obtain ⟨hOwner, hBegun⟩ := Machine.Runs.begun_of_active hReached hActive
        have hHere : (reached.active a.request.owner).isNone = true := List.all_eq_true.1 hAll _ hBegun
        have hThread : a.request.owner = thread := hOwner
        rw [hThread, hActive] at hHere
        cases hHere
  exact ⟨trace, reached, hOut, hSome, disposed_when_idle hReached hIdle⟩

end Idle

end MsQuicH3.Lifecycle
