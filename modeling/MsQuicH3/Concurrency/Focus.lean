import MsQuicH3.Concurrency.Flowchart

/-! One thread of a machine, verified point by point. The thread runs code its
flowcharts describe; of the other threads only the operations they may issue
matter. What a point asserts has to survive every step of the others. -/
namespace Concurrency
namespace Machine

variable {S : Signature} {State Choice Thread Request Loop Result Point : Type}

section Uses

variable (m : Machine S State Choice Thread Request Loop Result)

/-- Every request keeps to what it may issue, in every run. -/
def usesTranscript (permits : Request → S.Op → Prop)
    (uses_entry : ∀ request, (m.entry request).Uses (permits request))
    (uses_body : ∀ request loop, (m.body request loop).Uses (permits request)) :
    m.Transcript where
  inv request _ rest := rest.Uses (permits request)
  entry := uses_entry
  event _ _ _ _ _ _ h := h.2 _
  again request _ loop _ := uses_body request loop

/-- An invariant of the world that starting a request, every operation a request may
issue and every return keep. -/
structure Kept (permits : Request → S.Op → Prop) (inv : World S State Request Result → Prop) :
    Prop where
  begun : ∀ w request state, m.deliver request w.state = some state → inv w →
    inv (w.after (.begun request) state)
  event : ∀ w request op choice, permits request op → inv w → inv (m.advance choice request op w)
  finished : ∀ w call, inv w → inv (w.after (.finished call) w.state)

variable [DecidableEq Thread]

theorem Kept.holds {m : Machine S State Choice Thread Request Loop Result}
    {permits : Request → S.Op → Prop} {inv : World S State Request Result → Prop}
    (h : m.Kept permits inv)
    (uses_entry : ∀ request, (m.entry request).Uses (permits request))
    (uses_body : ∀ request loop, (m.body request loop).Uses (permits request))
    {initial : State} {trace : List (Label S State Request Result)}
    {reached : Config S State Thread Request Loop Result}
    (run : m.Runs (Machine.initial initial) trace reached) (hInit : inv ⟨initial, []⟩) :
    inv ⟨reached.state, trace⟩ := by
  induction run with
  | start => exact hInit
  | @step trace config next label move prior last ih =>
      have hUses := ((m.usesTranscript permits uses_entry uses_body).sound prior).1
      rcases step_cases last with ⟨request, state, -, hDeliver, rfl, rfl⟩ |
        ⟨acting, choice, request, events, op, following, hActive, rfl, rfl⟩ |
        ⟨acting, request, events, result, -, rfl, rfl⟩
      · exact h.begun ⟨_, trace⟩ request state hDeliver ih
      · obtain ⟨-, hCode⟩ := hUses acting _ hActive
        exact h.event ⟨_, trace⟩ request op choice hCode.1 ih
      · exact h.finished ⟨_, trace⟩ _ ih

end Uses

/-- Assertions for the points of one thread's code, an invariant of the whole
machine, and what the thread leaves behind between two requests. -/
structure Focus (m : Machine S State Choice Thread Request Loop Result) (initial : State)
    (thread : Thread) (Point : Type) where
  permits : Request → S.Op → Prop
  chart : Request → Flowchart S Point (Loop ⊕ Result)
  start : Request → Point
  resumed : Loop → Point
  known : World S State Request Result → Prop
  inv : World S State Request Result → Prop
  rely : World S State Request Result → World S State Request Result → Prop
  idle : World S State Request Result → Prop
  assertion : Request → Post S State Request Result Point
  uses_entry : ∀ request, (m.entry request).Uses (permits request)
  uses_body : ∀ request loop, (m.body request loop).Uses (permits request)
  describes_entry : ∀ request, m.owner request = thread →
    (chart request).Describes (start request) (m.entry request)
  rely_refl : ∀ w, rely w w
  rely_trans : ∀ {w w' w''}, rely w w' → rely w' w'' → rely w w''
  stable : ∀ w w', m.Interference permits thread w w' → known w → known w' → inv w →
    inv w' ∧ rely w w'
  init : inv ⟨initial, []⟩
  idle_init : idle ⟨initial, []⟩
  idle_stable : ∀ w w', idle w → rely w w' → idle w'
  begin : ∀ request w state, m.owner request = thread → known w → inv w → idle w →
    m.deliver request w.state = some state → known (w.after (.begun request) state) →
    inv (w.after (.begun request) state) ∧
      assertion request (start request) [] (w.after (.begun request) state)
  step : ∀ request point events w op target, assertion request point events w →
    (chart request).node point = .inl ⟨op, target⟩ → ∀ w', rely w w' → known w' → inv w' →
    ∀ choice, known (m.advance choice request op w') →
      inv (m.advance choice request op w') ∧
        assertion request (target (m.perform choice op w'.state).1)
          (events ++ [m.event choice request op w'.state]) (m.advance choice request op w')
  again : ∀ request point events w loop, assertion request point events w →
    (chart request).node point = .inr (.inl loop) →
      (chart request).Describes (resumed loop) (m.body request loop) ∧
        assertion request (resumed loop) events w
  finish : ∀ request point events w result, assertion request point events w →
    (chart request).node point = .inr (.inr result) → ∀ w', rely w w' → known w' → inv w' →
    known (w'.after (.finished ⟨request, events, result⟩) w'.state) →
      inv (w'.after (.finished ⟨request, events, result⟩) w'.state) ∧
        idle (w'.after (.finished ⟨request, events, result⟩) w'.state)

namespace Focus

variable {m : Machine S State Choice Thread Request Loop Result} {initial : State}
  {thread : Thread}

/-- The code in progress is at a point whose assertion held when the thread last acted. -/
def At (f : m.Focus initial thread Point) (request : Request)
    (events : List (Event S State Request)) (rest : Program S (Loop ⊕ Result))
    (w : World S State Request Result) : Prop :=
  ∃ point before, (f.chart request).Describes point rest ∧ f.rely before w ∧
    f.assertion request point events before

def Local (f : m.Focus initial thread Point)
    (activity : Option (Activity S State Request Loop Result))
    (w : World S State Request Result) : Prop :=
  match activity with
  | none => f.idle w
  | some a => f.At a.request a.events a.rest w

theorem Local.stable {f : m.Focus initial thread Point}
    {activity : Option (Activity S State Request Loop Result)}
    {w w' : World S State Request Result} (h : f.Local activity w) (hRely : f.rely w w') :
    f.Local activity w' := by
  cases activity with
  | none => exact f.idle_stable w w' h hRely
  | some a =>
      obtain ⟨point, before, hPoint, hBefore, hAt⟩ := h
      exact ⟨point, before, hPoint, f.rely_trans hBefore hRely, hAt⟩

/-- After an operation the code is at the point its reply leads to. -/
theorem At.step {f : m.Focus initial thread Point} {request : Request}
    {events : List (Event S State Request)} {op : S.Op}
    {next : S.Reply op → Program S (Loop ⊕ Result)} {w : World S State Request Result}
    (h : f.At request events (.call op next) w) (hKnown : f.known w) (hInv : f.inv w)
    (choice : Choice) (hNext : f.known (m.advance choice request op w)) :
    f.inv (m.advance choice request op w) ∧
      f.At request (events ++ [m.event choice request op w.state])
        (m.resume request (next (m.perform choice op w.state).1))
        (m.advance choice request op w) := by
  obtain ⟨point, before, ⟨target, hNode, hTarget⟩, hRely, hAt⟩ := h
  obtain ⟨hInv', hAt'⟩ :=
    f.step request point events before op target hAt hNode w hRely hKnown hInv choice hNext
  have hPoint := hTarget (m.perform choice op w.state).1
  refine ⟨hInv', ?_⟩
  cases hRest : next (m.perform choice op w.state).1 with
  | call op following =>
      rw [hRest] at hPoint
      exact ⟨_, _, hPoint, f.rely_refl _, hAt'⟩
  | done outcome =>
      rw [hRest] at hPoint
      cases outcome with
      | inl loop =>
          obtain ⟨hDescribes, hResumed⟩ := f.again request _ _ _ loop hAt' hPoint
          exact ⟨_, _, hDescribes, f.rely_refl _, hResumed⟩
      | inr result => exact ⟨_, _, hPoint, f.rely_refl _, hAt'⟩

variable [DecidableEq Thread]

/-- The invariant holds in every world a run reaches, and the thread is where its
assertions say, when what is known holds at every point of that run. -/
theorem sound (f : m.Focus initial thread Point) {trace : List (Label S State Request Result)}
    {reached : Config S State Thread Request Loop Result}
    (run : m.Runs (Machine.initial initial) trace reached)
    (hKnown : ∀ earlier config, m.Runs (Machine.initial initial) earlier config →
      earlier <+: trace → f.known ⟨config.state, earlier⟩) :
    f.inv ⟨reached.state, trace⟩ ∧ f.Local (reached.active thread) ⟨reached.state, trace⟩ := by
  induction run with
  | start => exact ⟨f.init, f.idle_init⟩
  | @step trace config next label move prior last ih =>
      obtain ⟨hInv, hLocal⟩ := ih fun earlier config hRun hPrefix =>
        hKnown earlier config hRun (hPrefix.trans (List.prefix_append _ _))
      have hBefore := hKnown _ _ prior (List.prefix_append _ _)
      have hAfter := hKnown _ _ (.step prior last) List.prefix_rfl
      have hPermits := ((m.usesTranscript f.permits f.uses_entry f.uses_body).sound prior).1
      rcases step_cases last with ⟨request, state, hActive, hDeliver, rfl, rfl⟩ |
        ⟨acting, choice, request, events, op, following, hActive, rfl, rfl⟩ |
        ⟨acting, request, events, result, hActive, rfl, rfl⟩
      · by_cases hOwner : m.owner request = thread
        · subst hOwner
          rw [hActive] at hLocal
          obtain ⟨hInv', hStart⟩ := f.begin request _ state rfl hBefore hInv hLocal hDeliver hAfter
          refine ⟨hInv', ?_⟩
          simp only [Function.update_self]
          exact ⟨_, _, f.describes_entry request rfl, f.rely_refl _, hStart⟩
        · obtain ⟨hInv', hRely⟩ := f.stable _ _ (.begun hOwner hDeliver) hBefore hAfter hInv
          simp only [Function.update_of_ne (Ne.symm hOwner)]
          exact ⟨hInv', hLocal.stable hRely⟩
      · obtain ⟨hOwner, hUses⟩ := hPermits acting _ hActive
        by_cases hThread : acting = thread
        · subst hThread
          rw [hActive] at hLocal
          have hStep := At.step hLocal hBefore hInv choice hAfter
          simp only [Function.update_self]
          exact hStep
        · have hOther : m.owner request ≠ thread := by
            intro h
            exact hThread (hOwner.symm.trans h)
          obtain ⟨hInv', hRely⟩ := f.stable _ _ (.event hOther hUses.1) hBefore hAfter hInv
          simp only [Function.update_of_ne (Ne.symm hThread)]
          exact ⟨hInv', hLocal.stable hRely⟩
      · obtain ⟨hOwner, -⟩ := hPermits acting _ hActive
        by_cases hThread : acting = thread
        · subst hThread
          rw [hActive] at hLocal
          obtain ⟨point, before, hPoint, hRely, hAt⟩ := hLocal
          simp only [Function.update_self]
          exact f.finish request point events before result hAt hPoint _ hRely hBefore hInv hAfter
        · have hOther : m.owner request ≠ thread := by
            intro h
            exact hThread (hOwner.symm.trans h)
          obtain ⟨hInv', hRely⟩ := f.stable _ _ (.finished hOther) hBefore hAfter hInv
          simp only [Function.update_of_ne (Ne.symm hThread)]
          exact ⟨hInv', hLocal.stable hRely⟩

/-- When a call of the thread returned, it was at an exit of its flowchart. -/
theorem returned (f : m.Focus initial thread Point)
    {trace : List (Label S State Request Result)}
    {reached : Config S State Thread Request Loop Result}
    (run : m.Runs (Machine.initial initial) trace reached)
    (hKnown : ∀ earlier config, m.Runs (Machine.initial initial) earlier config →
      earlier <+: trace → f.known ⟨config.state, earlier⟩)
    {call : Completed S State Request Result} (hOwner : m.owner call.request = thread)
    (hCall : .finished call ∈ trace) :
    ∃ earlier config point before, earlier ++ [.finished call] <+: trace ∧
      m.Runs (Machine.initial initial) earlier config ∧ f.inv ⟨config.state, earlier⟩ ∧
      (f.chart call.request).node point = .inr (.inr call.result) ∧
      f.rely before ⟨config.state, earlier⟩ ∧
      f.assertion call.request point call.events before := by
  obtain ⟨earlier, later, rfl⟩ := List.append_of_mem hCall
  have hTrace : earlier ++ .finished call :: later = (earlier ++ [.finished call]) ++ later := by
    simp
  have hPrefix : earlier ++ [.finished call] <+: earlier ++ .finished call :: later :=
    ⟨later, hTrace.symm⟩
  rw [hTrace] at run
  obtain ⟨after, hAfter, -⟩ := run.split
  obtain ⟨config, move, hBefore, hLast⟩ := hAfter.last
  obtain ⟨hInv, hLocal⟩ := f.sound hBefore fun shorter state hRun hShorter =>
    hKnown shorter state hRun (hShorter.trans ((List.prefix_append _ _).trans hPrefix))
  have hUses := ((m.usesTranscript f.permits f.uses_entry f.uses_body).sound hBefore).1
  rcases step_cases hLast with ⟨_, _, _, _, hKind, _⟩ | ⟨_, _, _, _, _, _, _, hKind, _⟩ |
    ⟨acting, request, events, result, hActive, hKind, -⟩
  · cases hKind
  · cases hKind
  · cases hKind
    have hThread : acting = thread := (hUses acting _ hActive).1.symm.trans hOwner
    subst hThread
    rw [hActive] at hLocal
    obtain ⟨point, before, hPoint, hRely, hAt⟩ := hLocal
    exact ⟨earlier, config, point, before, hPrefix, hBefore, hInv, hPoint, hRely, hAt⟩

end Focus
end Machine
end Concurrency
