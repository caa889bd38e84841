import MsQuicH3.Concurrency.Calls

/-! Calls that leave the shared state alone. A schedule without the moves of such calls
leads to the same labels of everything else, so two schedules that differ only in such
calls cannot be told apart by the rest. -/
namespace Concurrency
namespace Machine

variable {S : Signature} {State Choice Thread Request Loop Result : Type}
  {m : Machine S State Choice Thread Request Loop Result}

/-- Every request is served by the thread it belongs to. -/
def Owned (m : Machine S State Choice Thread Request Loop Result)
    (config : Config S State Thread Request Loop Result) : Prop :=
  ∀ thread a, config.active thread = some a → m.owner a.request = thread

/-- The thread a move is about. -/
def mover (m : Machine S State Choice Thread Request Loop Result) :
    Move Choice Thread Request → Thread
  | .begin request => m.owner request
  | .act thread _ => thread

variable [DecidableEq Thread]

variable (m) in
/-- The next call of a thread to return is a silent one. -/
def hushed (silent : Completed S State Request Result → Bool)
    (trace : List (Label S State Request Result)) (thread : Thread) : Bool :=
  (m.callsOf thread trace).head?.any silent

variable (m) in
/-- A run without its silent calls. -/
def audible (silent : Completed S State Request Result → Bool) :
    List (Move Choice Thread Request × Label S State Request Result) →
      List (Move Choice Thread Request × Label S State Request Result)
  | [] => []
  | step :: rest =>
      if m.hushed silent ((step :: rest).map Prod.snd) (m.mover step.1) then audible silent rest
      else step :: audible silent rest

variable (m) in
/-- A configuration in which no silent call is in progress. -/
def without (silent : Completed S State Request Result → Bool)
    (trace : List (Label S State Request Result))
    (config : Config S State Thread Request Loop Result) :
    Config S State Thread Request Loop Result where
  state := config.state
  active thread := if m.hushed silent trace thread then none else config.active thread

section Step

variable {config config' next : Config S State Thread Request Loop Result}
  {move : Move Choice Thread Request} {label : Label S State Request Result}

omit [DecidableEq Thread] in
theorem owned_initial (state : State) : m.Owned (Machine.initial state) := by
  intro thread a h
  cases h

theorem owned_step (hOwned : m.Owned config) (h : m.step config move = some (label, next)) :
    m.Owned next := by
  rcases step_cases h with ⟨request, state, -, -, rfl, rfl⟩ |
    ⟨acting, choice, request, events, op, following, hBusy, rfl, rfl⟩ |
    ⟨acting, request, events, result, -, rfl, rfl⟩
  · intro thread a hActive
    rcases update_eq_some hActive with ⟨hThread, hHere⟩ | ⟨-, hHere⟩
    · cases hHere
      exact hThread.symm
    · exact hOwned thread a hHere
  · intro thread a hActive
    rcases update_eq_some hActive with ⟨hThread, hHere⟩ | ⟨-, hHere⟩
    · cases hHere
      exact (hOwned acting _ hBusy).trans hThread.symm
    · exact hOwned thread a hHere
  · intro thread a hActive
    rcases update_eq_some hActive with ⟨-, hHere⟩ | ⟨-, hHere⟩
    · cases hHere
    · exact hOwned thread a hHere

/-- The label of a step belongs to the thread of the move, whose entry alone changes. -/
theorem step_mover (hOwned : m.Owned config) (h : m.step config move = some (label, next)) :
    m.owner label.request = m.mover move ∧
      next.active = Function.update config.active (m.mover move) (next.active (m.mover move)) := by
  cases move with
  | begin request =>
      simp only [step] at h
      split at h
      · cases h
      · simp only [Option.map_eq_some_iff, Prod.mk.injEq] at h
        obtain ⟨state, -, rfl, rfl⟩ := h
        exact ⟨rfl, by simp [mover]⟩
  | act thread choice =>
      simp only [step] at h
      split at h
      · cases h
      · cases h
      next request events result hActive =>
        cases h
        exact ⟨hOwned thread _ hActive, by simp [mover]⟩
      next request events op following hActive =>
        cases h
        exact ⟨hOwned thread _ hActive, by simp [mover]⟩

/-- A step looks at the shared state and at its own thread only. -/
theorem step_congr (h : m.step config move = some (label, next))
    (hState : config'.state = config.state)
    (hActive : config'.active (m.mover move) = config.active (m.mover move)) :
    m.step config' move = some (label, ⟨next.state,
      Function.update config'.active (m.mover move) (next.active (m.mover move))⟩) := by
  cases move with
  | begin request =>
      simp only [step, mover] at h hActive ⊢
      rw [hState, hActive]
      split at h
      · cases h
      next hFree =>
        simp only [Option.map_eq_some_iff, Prod.mk.injEq] at h
        obtain ⟨state, hDeliver, rfl, rfl⟩ := h
        simp [hDeliver]
  | act thread choice =>
      simp only [step, mover] at h hActive ⊢
      rw [hState, hActive]
      split at h
      · cases h
      · cases h
      next request events result hBusy =>
        cases h
        simp
      next request events op following hBusy =>
        cases h
        simp

end Step

theorem callsOf_cons (thread : Thread) (label : Label S State Request Result)
    (trace : List (Label S State Request Result)) :
    m.callsOf thread (label :: trace) = m.callsOf thread [label] ++ m.callsOf thread trace :=
  List.filterMap_append (l := [label])

theorem callsOf_of_ne {thread : Thread} {label : Label S State Request Result}
    (h : m.owner label.request ≠ thread) : m.callsOf thread [label] = [] := by
  cases label with
  | finished call =>
      have hOther : m.owner call.request ≠ thread := h
      simp [callsOf, hOther]
  | _ => rfl

theorem mem_of_head? {thread : Thread} {trace : List (Label S State Request Result)}
    {call : Completed S State Request Result} (h : (m.callsOf thread trace).head? = some call) :
    .finished call ∈ trace :=
  (mem_callsOf.1 (List.mem_of_head? h)).1

section Run

variable {config final : Config S State Thread Request Loop Result}
  {moves : List (Move Choice Thread Request)} {trace : List (Label S State Request Result)}

theorem run_cons {move : Move Choice Thread Request}
    (h : m.run config (move :: moves) = some (trace, final)) :
    ∃ label next labels, m.step config move = some (label, next) ∧
      m.run next moves = some (labels, final) ∧ trace = label :: labels := by
  simp only [run, Option.bind_eq_bind, Option.bind_eq_some_iff, Prod.exists] at h
  obtain ⟨label, next, hStep, labels, last, hRun, hEq⟩ := h
  cases hEq
  exact ⟨label, next, labels, hStep, hRun, rfl⟩

theorem run_length (h : m.run config moves = some (trace, final)) :
    trace.length = moves.length := by
  induction moves generalizing config trace with
  | nil =>
      cases h
      rfl
  | cons move moves ih =>
      obtain ⟨label, next, labels, -, hRun, rfl⟩ := run_cons h
      simp [ih hRun]

/-- What a call in progress has done so far is the beginning of what it will have done. -/
theorem events_prefix {thread : Thread} {a : Activity S State Request Loop Result}
    {call : Completed S State Request Result} (hOwned : m.Owned config)
    (h : m.run config moves = some (trace, final)) (hActive : config.active thread = some a)
    (hCall : (m.callsOf thread trace).head? = some call) :
    call.request = a.request ∧ a.events <+: call.events := by
  induction moves generalizing config trace a with
  | nil =>
      cases h
      cases hCall
  | cons move moves ih =>
      obtain ⟨label, next, labels, hStep, hRun, rfl⟩ := run_cons h
      have hNext := owned_step hOwned hStep
      rw [callsOf_cons] at hCall
      rcases step_cases hStep with ⟨request, state, hFree, -, rfl, rfl⟩ |
        ⟨acting, choice, request, events, op, following, hBusy, rfl, rfl⟩ |
        ⟨acting, request, events, result, hBusy, rfl, rfl⟩
      · have hOther : thread ≠ m.owner request := by
          intro hThread
          rw [hThread, hFree] at hActive
          cases hActive
        exact ih hNext hRun (by simpa only [Function.update_of_ne hOther] using hActive) hCall
      · by_cases hThread : thread = acting
        · subst hThread
          rw [hBusy] at hActive
          cases hActive
          obtain ⟨hRequest, hPrefix⟩ := ih hNext hRun (Function.update_self ..) hCall
          exact ⟨hRequest, (List.prefix_append ..).trans hPrefix⟩
        · exact ih hNext hRun (by simpa only [Function.update_of_ne hThread] using hActive) hCall
      · have hOwner := hOwned acting _ hBusy
        by_cases hThread : thread = acting
        · subst hThread
          rw [hBusy] at hActive
          cases hActive
          have hHere : m.callsOf thread [.finished ⟨request, events, result⟩] =
              [⟨request, events, result⟩] := by simp [callsOf, hOwner]
          rw [hHere] at hCall
          cases hCall
          exact ⟨rfl, List.prefix_refl _⟩
        · rw [callsOf_of_ne fun hOwn => hThread (hOwn.symm.trans hOwner), List.nil_append] at hCall
          exact ih hNext hRun (by simpa only [Function.update_of_ne hThread] using hActive) hCall

end Run

section Audible

variable {silent : Completed S State Request Result → Bool}
  {config next final : Config S State Thread Request Loop Result}
  {move : Move Choice Thread Request} {label : Label S State Request Result}
  {moves : List (Move Choice Thread Request)} {labels : List (Label S State Request Result)}

theorem hushed_cons_of_ne {thread : Thread} (h : m.owner label.request ≠ thread) :
    m.hushed silent (label :: labels) thread = m.hushed silent labels thread := by
  rw [hushed, callsOf_cons, callsOf_of_ne h, List.nil_append, hushed]

theorem without_nil (config : Config S State Thread Request Loop Result) :
    m.without silent [] config = config := rfl

theorem without_initial (trace : List (Label S State Request Result)) (state : State) :
    m.without silent trace (Machine.initial state) = Machine.initial state := by
  rw [without, Machine.initial]
  congr 1
  funext thread
  exact ite_self _

/-- Past a step, what counts for its own thread is whether it goes on with a silent call. -/
theorem without_step (hOwned : m.Owned config) (h : m.step config move = some (label, next)) :
    (if m.hushed silent labels (m.mover move) then none else next.active (m.mover move)) =
      if m.hushed silent (label :: labels) (m.mover move) then none
        else next.active (m.mover move) := by
  obtain ⟨hOwner, -⟩ := step_mover hOwned h
  rcases step_cases h with ⟨request, state, -, -, rfl, rfl⟩ |
    ⟨acting, choice, request, events, op, following, hBusy, rfl, rfl⟩ |
    ⟨acting, request, events, result, hBusy, rfl, rfl⟩
  · rfl
  · rfl
  · have hActing : m.mover move = acting := hOwner.symm.trans (hOwned acting _ hBusy)
    simp [hActing]

/-- A silent step leaves the shared state as it is. -/
theorem silent_step (hOwned : m.Owned config) (h : m.step config move = some (label, next))
    (hRun : m.run next moves = some (labels, final))
    (hDeliver : ∀ call s s', silent call = true → m.deliver call.request s = some s' → s' = s)
    (hStill : ∀ call, .finished call ∈ label :: labels → silent call = true →
      ∀ e ∈ call.events, e.after = e.before)
    (hHushed : m.hushed silent (label :: labels) (m.mover move) = true) :
    next.state = config.state := by
  obtain ⟨call, hCall, hSilent⟩ := (Option.any_eq_true _ _).1 hHushed
  have hNext := owned_step hOwned h
  obtain ⟨hOwner, -⟩ := step_mover hOwned h
  have hMem := mem_of_head? hCall
  rcases step_cases h with ⟨request, state, -, hDelivered, rfl, rfl⟩ |
    ⟨acting, choice, request, events, op, following, hBusy, rfl, rfl⟩ |
    ⟨acting, request, events, result, hBusy, rfl, rfl⟩
  · rw [← hOwner] at hCall
    obtain ⟨hRequest, -⟩ := events_prefix hNext hRun (Function.update_self ..) hCall
    have hSame : call.request = request := hRequest
    exact hDeliver call _ _ hSilent (hSame ▸ hDelivered)
  · have hActing : m.mover move = acting := hOwner.symm.trans (hOwned acting _ hBusy)
    rw [hActing] at hCall
    obtain ⟨-, hPrefix⟩ := events_prefix hNext hRun (Function.update_self ..) hCall
    exact hStill call hMem hSilent (m.event choice request op config.state)
      (hPrefix.subset (List.mem_append_right _ (List.mem_singleton_self _)))
  · rfl

/-- The audible part of a run is a run of its own to the same end. -/
theorem run_audible {trace : List (Label S State Request Result)} (hOwned : m.Owned config)
    (h : m.run config moves = some (trace, final))
    (hDeliver : ∀ call s s', silent call = true → m.deliver call.request s = some s' → s' = s)
    (hStill : ∀ call, .finished call ∈ trace → silent call = true →
      ∀ e ∈ call.events, e.after = e.before) :
    m.run (m.without silent trace config) ((m.audible silent (moves.zip trace)).map Prod.fst) =
      some ((m.audible silent (moves.zip trace)).map Prod.snd, final) := by
  induction moves generalizing config trace with
  | nil =>
      cases h
      rfl
  | cons move moves ih =>
      obtain ⟨label, next, labels, hStep, hRun, rfl⟩ := run_cons h
      obtain ⟨hOwner, hActive⟩ := step_mover hOwned hStep
      have hRest := ih (owned_step hOwned hStep) hRun fun call hCall =>
        hStill call (List.mem_cons_of_mem _ hCall)
      have hLabels : ((move, label) :: moves.zip labels).map Prod.snd = label :: labels := by
        rw [List.map_cons, List.map_snd_zip (Nat.le_of_eq (run_length hRun))]
      have hHere : (if m.hushed silent labels (m.mover move) then none
          else next.active (m.mover move)) =
        if m.hushed silent (label :: labels) (m.mover move) then none
          else next.active (m.mover move) := without_step hOwned hStep
      rw [List.zip_cons_cons, audible, hLabels]
      cases hHushed : m.hushed silent (label :: labels) (m.mover move) with
      | true =>
          have hState := silent_step hOwned hStep hRun hDeliver hStill hHushed
          have hSame : m.without silent (label :: labels) config = m.without silent labels next := by
            rw [without, without, hState]
            congr 1
            funext thread
            by_cases hThread : thread = m.mover move
            · rw [hThread, hHere, hHushed]
              rfl
            · rw [hushed_cons_of_ne fun h => hThread (h.symm.trans hOwner), hActive,
                Function.update_of_ne hThread]
          rw [if_pos rfl, hSame]
          exact hRest
      | false =>
          rw [if_neg Bool.false_ne_true, List.map_cons, List.map_cons]
          have hMove := @step_congr _ _ _ _ _ _ _ _ _ _
            (m.without silent (label :: labels) config) _ _ _ hStep rfl (by simp [without, hHushed])
          have hSame : (⟨next.state, Function.update (m.without silent (label :: labels) config).active
              (m.mover move) (next.active (m.mover move))⟩ :
              Config S State Thread Request Loop Result) = m.without silent labels next := by
            rw [without, without]
            congr 1
            funext thread
            by_cases hThread : thread = m.mover move
            · rw [hThread, Function.update_self, hHere, hHushed]
              rfl
            · rw [Function.update_of_ne hThread, hActive, Function.update_of_ne hThread,
                ← hushed_cons_of_ne fun h => hThread (h.symm.trans hOwner)]
          rw [hSame] at hMove
          simp [run, hMove, hRest]

/-- Two schedules that differ only in the moves of silent calls agree on every other label
and lead to the same configuration. -/
theorem audible_agree {first second : List (Move Choice Thread Request)}
    {trace trace' : List (Label S State Request Result)} {state : State}
    {final final' : Config S State Thread Request Loop Result}
    (left : m.run (Machine.initial state) first = some (trace, final))
    (right : m.run (Machine.initial state) second = some (trace', final'))
    (hDeliver : ∀ call s s', silent call = true → m.deliver call.request s = some s' → s' = s)
    (hStill : ∀ call, .finished call ∈ trace → silent call = true →
      ∀ e ∈ call.events, e.after = e.before)
    (hStill' : ∀ call, .finished call ∈ trace' → silent call = true →
      ∀ e ∈ call.events, e.after = e.before)
    (hSame : (m.audible silent (first.zip trace)).map Prod.fst =
      (m.audible silent (second.zip trace')).map Prod.fst) :
    (m.audible silent (first.zip trace)).map Prod.snd =
      (m.audible silent (second.zip trace')).map Prod.snd ∧ final = final' := by
  have hLeft := run_audible (owned_initial state) left hDeliver hStill
  have hRight := run_audible (owned_initial state) right hDeliver hStill'
  rw [without_initial] at hLeft hRight
  rw [hSame, hRight, Option.some.injEq, Prod.mk.injEq] at hLeft
  exact ⟨hLeft.1.symm, hLeft.2.symm⟩

end Audible

end Machine
end Concurrency
