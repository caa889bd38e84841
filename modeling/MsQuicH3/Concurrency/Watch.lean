import MsQuicH3.Concurrency.Focus

/-! One thread of a machine, verified along its code. Of the other threads only the
operations they may issue matter. The thread's requests do not loop; what one of
them leaves behind is found by the next. -/
namespace Concurrency
namespace Machine

variable {S : Signature} {State Choice Thread Request Loop Result : Type}

/-- What a request without loops ends with. -/
def Straight (post : Post S State Request Result Result) :
    Post S State Request Result (Loop ⊕ Result)
  | .inl _, _, _ => False
  | .inr result, events, w => post result events w

/-- An invariant of the whole machine, and what one thread knows along its code. -/
structure Watch (m : Machine S State Choice Thread Request Loop Result) (initial : State)
    (thread : Thread) where
  permits : Request → S.Op → Prop
  known : World S State Request Result → Prop
  inv : World S State Request Result → Prop
  rely : World S State Request Result → World S State Request Result → Prop
  idle : World S State Request Result → Prop
  post : Request → Post S State Request Result Result
  uses_entry : ∀ request, (m.entry request).Uses (permits request)
  uses_body : ∀ request loop, (m.body request loop).Uses (permits request)
  rely_refl : ∀ w, rely w w
  rely_trans : ∀ {w w' w''}, rely w w' → rely w' w'' → rely w w''
  stable : ∀ w w', m.Interference permits thread w w' → known w → known w' → inv w →
    inv w' ∧ rely w w'
  init : inv ⟨initial, []⟩
  idle_init : idle ⟨initial, []⟩
  idle_stable : ∀ w w', idle w → rely w w' → idle w'
  begin : ∀ request w state, m.owner request = thread → known w → inv w → idle w →
    m.deliver request w.state = some state → known (w.after (.begun request) state) →
    inv (w.after (.begun request) state) ∧
      m.Safe known inv rely request (Straight (post request)) [] (m.entry request)
        (w.after (.begun request) state)
  finish : ∀ request result events w w', m.owner request = thread →
    post request result events w → rely w w' → known w' → inv w' →
    known (w'.after (.finished ⟨request, events, result⟩) w'.state) →
    inv (w'.after (.finished ⟨request, events, result⟩) w'.state) ∧
      idle (w'.after (.finished ⟨request, events, result⟩) w'.state)

namespace Watch

variable {m : Machine S State Choice Thread Request Loop Result} {initial : State}
  {thread : Thread}

def Local (o : m.Watch initial thread)
    (activity : Option (Activity S State Request Loop Result))
    (w : World S State Request Result) : Prop :=
  match activity with
  | none => o.idle w
  | some a => ∃ before, o.rely before w ∧
      m.Safe o.known o.inv o.rely a.request (Straight (o.post a.request)) a.events a.rest before

theorem Local.stable {o : m.Watch initial thread}
    {activity : Option (Activity S State Request Loop Result)}
    {w w' : World S State Request Result} (h : o.Local activity w) (hRely : o.rely w w') :
    o.Local activity w' := by
  cases activity with
  | none => exact o.idle_stable w w' h hRely
  | some a =>
      obtain ⟨before, hBefore, hSafe⟩ := h
      exact ⟨before, o.rely_trans hBefore hRely, hSafe⟩

/-- Code without loops is not resumed. -/
theorem resume_straight {request : Request} {post : Post S State Request Result Result}
    {known inv : World S State Request Result → Prop}
    {rely : World S State Request Result → World S State Request Result → Prop}
    {events : List (Event S State Request)} {rest : Program S (Loop ⊕ Result)}
    {w : World S State Request Result}
    (h : m.Safe known inv rely request (Straight post) events rest w) :
    m.resume request rest = rest := by
  cases rest with
  | done outcome =>
      cases outcome with
      | inl loop => exact h.elim
      | inr result => rfl
  | call op next => rfl

variable [DecidableEq Thread]

/-- The invariant holds in every world a run reaches, and the thread knows what its
code says, when what is known holds at every point of that run. -/
theorem sound (o : m.Watch initial thread) {trace : List (Label S State Request Result)}
    {reached : Config S State Thread Request Loop Result}
    (run : m.Runs (Machine.initial initial) trace reached)
    (hKnown : ∀ earlier config, m.Runs (Machine.initial initial) earlier config →
      earlier <+: trace → o.known ⟨config.state, earlier⟩) :
    o.inv ⟨reached.state, trace⟩ ∧ o.Local (reached.active thread) ⟨reached.state, trace⟩ := by
  induction run with
  | start => exact ⟨o.init, o.idle_init⟩
  | @step trace config next label move prior last ih =>
      obtain ⟨hInv, hLocal⟩ := ih fun earlier config hRun hPrefix =>
        hKnown earlier config hRun (hPrefix.trans (List.prefix_append _ _))
      have hBefore := hKnown _ _ prior (List.prefix_append _ _)
      have hAfter := hKnown _ _ (.step prior last) List.prefix_rfl
      have hPermits := ((m.usesTranscript o.permits o.uses_entry o.uses_body).sound prior).1
      rcases step_cases last with ⟨request, state, hActive, hDeliver, rfl, rfl⟩ |
        ⟨acting, choice, request, events, op, following, hActive, rfl, rfl⟩ |
        ⟨acting, request, events, result, hActive, rfl, rfl⟩
      · by_cases hOwner : m.owner request = thread
        · subst hOwner
          rw [hActive] at hLocal
          obtain ⟨hInv', hSafe⟩ := o.begin request _ state rfl hBefore hInv hLocal hDeliver hAfter
          refine ⟨hInv', ?_⟩
          simp only [Function.update_self]
          exact ⟨_, o.rely_refl _, hSafe⟩
        · obtain ⟨hInv', hRely⟩ := o.stable _ _ (.begun hOwner hDeliver) hBefore hAfter hInv
          simp only [Function.update_of_ne (Ne.symm hOwner)]
          exact ⟨hInv', hLocal.stable hRely⟩
      · obtain ⟨hOwner, hUses⟩ := hPermits acting _ hActive
        by_cases hThread : acting = thread
        · subst hThread
          rw [hActive] at hLocal
          obtain ⟨before, hRely, hSafe⟩ := hLocal
          obtain ⟨hInv', hRest⟩ := hSafe _ hRely hBefore hInv choice hAfter
          simp only [Function.update_self]
          rw [resume_straight hRest]
          exact ⟨hInv', _, o.rely_refl _, hRest⟩
        · have hOther : m.owner request ≠ thread := by
            intro h
            exact hThread (hOwner.symm.trans h)
          obtain ⟨hInv', hRely⟩ := o.stable _ _ (.event hOther hUses.1) hBefore hAfter hInv
          simp only [Function.update_of_ne (Ne.symm hThread)]
          exact ⟨hInv', hLocal.stable hRely⟩
      · obtain ⟨hOwner, -⟩ := hPermits acting _ hActive
        by_cases hThread : acting = thread
        · subst hThread
          rw [hActive] at hLocal
          obtain ⟨before, hRely, hPost⟩ := hLocal
          simp only [Function.update_self]
          exact o.finish request result events before _ hOwner hPost hRely hBefore hInv hAfter
        · have hOther : m.owner request ≠ thread := by
            intro h
            exact hThread (hOwner.symm.trans h)
          obtain ⟨hInv', hRely⟩ := o.stable _ _ (.finished hOther) hBefore hAfter hInv
          simp only [Function.update_of_ne (Ne.symm hThread)]
          exact ⟨hInv', hLocal.stable hRely⟩

end Watch
end Machine
end Concurrency
