import MsQuicH3.Concurrency.Machine

/-! Thread-modular reasoning about a machine. The code of one request is followed
operation by operation while the other threads may take any steps its rely
allows in between; an invariant of state and history holds at every point. -/
namespace Concurrency

variable {S : Signature} {State Choice Thread Request Loop Result : Type}

/-- The shared state together with everything that happened so far. -/
structure World (S : Signature) (State Request Result : Type) where
  state : State
  trace : List (Label S State Request Result)

/-- What holds at the end of code, given its result and its own operations. -/
abbrev Post (S : Signature) (State Request Result α : Type) :=
  α → List (Event S State Request) → World S State Request Result → Prop

namespace World

def after (w : World S State Request Result) (label : Label S State Request Result)
    (state : State) : World S State Request Result :=
  ⟨state, w.trace ++ [label]⟩

@[simp] theorem after_state (w : World S State Request Result)
    (label : Label S State Request Result) (state : State) :
    (w.after label state).state = state := rfl

@[simp] theorem after_trace (w : World S State Request Result)
    (label : Label S State Request Result) (state : State) :
    (w.after label state).trace = w.trace ++ [label] := rfl

end World

namespace Machine

variable (m : Machine S State Choice Thread Request Loop Result)

/-- The world after one more operation. -/
def advance (choice : Choice) (request : Request) (op : S.Op)
    (w : World S State Request Result) : World S State Request Result :=
  w.after (.event (m.event choice request op w.state)) (m.perform choice op w.state).2

@[simp] theorem advance_state (choice : Choice) (request : Request) (op : S.Op)
    (w : World S State Request Result) :
    (m.advance choice request op w).state = (m.perform choice op w.state).2 := rfl

@[simp] theorem advance_trace (choice : Choice) (request : Request) (op : S.Op)
    (w : World S State Request Result) :
    (m.advance choice request op w).trace =
      w.trace ++ [.event (m.event choice request op w.state)] := rfl

/-- One step of a thread other than `thread`, given what each request may issue. -/
inductive Interference (permits : Request → S.Op → Prop) (thread : Thread) :
    World S State Request Result → World S State Request Result → Prop where
  | begun {w} {request : Request} {state : State} (hOwner : m.owner request ≠ thread)
      (hDeliver : m.deliver request w.state = some state) :
      Interference permits thread w (w.after (.begun request) state)
  | event {w} {request : Request} {op : S.Op} {choice : Choice}
      (hOwner : m.owner request ≠ thread) (hPermits : permits request op) :
      Interference permits thread w (m.advance choice request op w)
  | finished {w} {call : Completed S State Request Result}
      (hOwner : m.owner call.request ≠ thread) :
      Interference permits thread w (w.after (.finished call) w.state)

/-- Whatever the others do within `rely` between its operations, code of `request`
keeps `inv` and ends in `post`. `known` holds at every world met. -/
def Safe {α : Type} (known inv : World S State Request Result → Prop)
    (rely : World S State Request Result → World S State Request Result → Prop)
    (request : Request) (post : Post S State Request Result α) :
    List (Event S State Request) → Program S α → World S State Request Result → Prop
  | events, .done result, w => post result events w
  | events, .call op next, w => ∀ w', rely w w' → known w' → inv w' → ∀ choice,
      known (m.advance choice request op w') →
      inv (m.advance choice request op w') ∧
        Safe known inv rely request post (events ++ [m.event choice request op w'.state])
          (next (m.perform choice op w'.state).1) (m.advance choice request op w')

section Rules

variable {m} {α β : Type} {known inv : World S State Request Result → Prop}
  {rely : World S State Request Result → World S State Request Result → Prop}
  {request : Request} {events : List (Event S State Request)}
  {w : World S State Request Result}

@[simp] theorem safe_done {post : Post S State Request Result α} {result : α} :
    m.Safe known inv rely request post events (.done result) w ↔ post result events w := Iff.rfl

theorem Safe.mono {post post' : Post S State Request Result α} {program : Program S α}
    (h : m.Safe known inv rely request post events program w)
    (hPost : ∀ result events w, post result events w → post' result events w) :
    m.Safe known inv rely request post' events program w := by
  induction program generalizing events w with
  | done result => exact hPost _ _ _ h
  | call op next ih =>
      intro w' hRely hKnown hInv choice hNext
      obtain ⟨hInv', hRest⟩ := h w' hRely hKnown hInv choice hNext
      exact ⟨hInv', ih _ hRest⟩

theorem Safe.bind {post : Post S State Request Result β} {program : Program S α}
    {f : α → Program S β}
    (h : m.Safe known inv rely request
      (fun result events w => m.Safe known inv rely request post events (f result) w)
      events program w) :
    m.Safe known inv rely request post events (program >>= f) w := by
  induction program generalizing events w with
  | done result => exact h
  | call op next ih =>
      intro w' hRely hKnown hInv choice hNext
      obtain ⟨hInv', hRest⟩ := h w' hRely hKnown hInv choice hNext
      exact ⟨hInv', ih _ hRest⟩

/-- Code whose every operation keeps the invariant by itself is safe. -/
theorem safe_of_uses {permits : S.Op → Prop} {post : Post S State Request Result α}
    {program : Program S α} (hUses : program.Uses permits)
    (hOp : ∀ op, permits op → ∀ w choice, known w → inv w →
      known (m.advance choice request op w) → inv (m.advance choice request op w))
    (hPost : ∀ result events w, post result events w) :
    m.Safe known inv rely request post events program w := by
  induction program generalizing events w with
  | done result => exact hPost _ _ _
  | call op next ih =>
      intro w' _ hKnown hInv choice hNext
      exact ⟨hOp op hUses.1 w' choice hKnown hInv hNext, ih _ (hUses.2 _)⟩

/-- Where the transcript does not matter, any other one will do. -/
theorem Safe.anyEvents {post : α → World S State Request Result → Prop} {program : Program S α}
    (h : m.Safe known inv rely request (fun result _ w => post result w) events program w)
    (other : List (Event S State Request)) :
    m.Safe known inv rely request (fun result _ w => post result w) other program w := by
  induction program generalizing events other w with
  | done result => exact h
  | call op next ih =>
      intro w' hRely hKnown hInv choice hNext
      obtain ⟨hInv', hRest⟩ := h w' hRely hKnown hInv choice hNext
      exact ⟨hInv', ih _ hRest _⟩

/-- What is safe stays so while only the others act. -/
theorem Safe.stable {post : Post S State Request Result α} {program : Program S α}
    {w' : World S State Request Result}
    (h : m.Safe known inv rely request post events program w) (hRely : rely w w')
    (hTrans : ∀ {a b c}, rely a b → rely b c → rely a c)
    (hPost : ∀ result w w', post result events w → rely w w' → post result events w') :
    m.Safe known inv rely request post events program w' := by
  cases program with
  | done result => exact hPost result w w' h hRely
  | call op next => exact fun w'' hRely' => h w'' (hTrans hRely hRely')

/-- Code under a takeover handler is safe when the code is, the handler is safe
wherever it takes over, and passing a point where it does not disturbs nothing. -/
theorem safe_guarded_ready (ready : World S State Request Result → Prop)
    {post : α → World S State Request Result → Prop}
    {strikes : Nat → Program S Bool} {recover body : Program S α}
    (hTrans : ∀ {a b c}, rely a b → rely b c → rely a c)
    (hPost : ∀ result w w', post result w → rely w w' → post result w')
    (hStrikes : ∀ k events w (next : Bool → Program S α),
      (∀ events w', rely w w' → inv w' →
        m.Safe known inv rely request (fun result _ w => post result w) events (next false) w') →
      (∀ events w', ready w' →
        m.Safe known inv rely request (fun result _ w => post result w) events (next true) w') →
      m.Safe known inv rely request (fun result _ w => post result w) events
        (strikes k >>= next) w)
    (hRecover : ∀ events w, ready w →
      m.Safe known inv rely request (fun result _ w => post result w) events recover w)
    (hBody : m.Safe known inv rely request (fun result _ w => post result w) events body w)
    (k : Nat) :
    m.Safe known inv rely request (fun result _ w => post result w) events
      (Program.guarded strikes recover k body) w := by
  induction body generalizing events w k with
  | done result =>
      refine hStrikes k _ w _ (fun events w' hRely hInv => ?_) hRecover
      exact hPost result w w' hBody hRely
  | call op next ih =>
      refine hStrikes k _ w _ (fun events w' hRely hInv => ?_) hRecover
      intro w'' hRely' hKnown hInv' choice hNext
      obtain ⟨hInv'', hRest⟩ := hBody w'' (hTrans hRely hRely') hKnown hInv' choice hNext
      exact ⟨hInv'', ih _ (hRest.anyEvents _) _⟩

/-- A takeover handler that is safe wherever the invariant holds. -/
theorem safe_guarded {post : α → World S State Request Result → Prop}
    {strikes : Nat → Program S Bool} {recover body : Program S α}
    (hTrans : ∀ {a b c}, rely a b → rely b c → rely a c)
    (hPost : ∀ result w w', post result w → rely w w' → post result w')
    (hStrikes : ∀ k events w (next : Bool → Program S α),
      (∀ struck events w', rely w w' → inv w' →
        m.Safe known inv rely request (fun result _ w => post result w) events (next struck) w') →
      m.Safe known inv rely request (fun result _ w => post result w) events
        (strikes k >>= next) w)
    (hRecover : ∀ events w, inv w →
      m.Safe known inv rely request (fun result _ w => post result w) events recover w)
    (hBody : m.Safe known inv rely request (fun result _ w => post result w) events body w)
    (k : Nat) :
    m.Safe known inv rely request (fun result _ w => post result w) events
      (Program.guarded strikes recover k body) w := by
  refine safe_guarded_ready inv @hTrans hPost (fun k events w next hCalm hStruck => ?_)
    hRecover hBody k
  apply hStrikes
  intro struck events w' hRely hInv
  cases struck with
  | true => exact hStruck events w' hInv
  | false => exact hCalm events w' hRely hInv

/-- Under a takeover handler, code whose operations all keep `calm` may be taken over
wherever that holds. -/
theorem safe_guarded_of_uses {permits : S.Op → Prop} (calm ready : World S State Request Result → Prop)
    {post : Post S State Request Result α} {strikes : Nat → Program S Bool}
    {recover body : Program S α} (hCalm : ∀ w w', calm w → rely w w' → calm w')
    (hOp : ∀ op, permits op → ∀ w choice, known w → inv w → calm w →
      known (m.advance choice request op w) →
      inv (m.advance choice request op w) ∧ calm (m.advance choice request op w))
    (hStrikes : ∀ k events w (next : Bool → Program S α), calm w →
      (∀ events w', calm w' → m.Safe known inv rely request post events (next false) w') →
      (∀ events w', ready w' → m.Safe known inv rely request post events (next true) w') →
      m.Safe known inv rely request post events (strikes k >>= next) w)
    (hRecover : ∀ events w, ready w → m.Safe known inv rely request post events recover w)
    (hResult : ∀ result events w, calm w → post result events w)
    (hBody : body.Uses permits) (k : Nat) (hStart : calm w) :
    m.Safe known inv rely request post events (Program.guarded strikes recover k body) w := by
  induction body generalizing events w k with
  | done result =>
      refine hStrikes k _ w _ hStart (fun events w' hHere => ?_) hRecover
      exact hResult result events w' hHere
  | call op next ih =>
      refine hStrikes k _ w _ hStart (fun events w' hHere => ?_) hRecover
      intro w'' hRely hKnown hInv choice hNext
      obtain ⟨hInv', hAfter⟩ := hOp op hBody.1 w'' choice hKnown hInv (hCalm _ _ hHere hRely) hNext
      exact ⟨hInv', ih _ (hBody.2 _) _ hAfter⟩

end Rules

/-- How a round of a request ends: with another round or with the result. -/
def RoundEnd (loopInv : Post S State Request Result Loop)
    (post : Post S State Request Result Result) : Post S State Request Result (Loop ⊕ Result)
  | .inl loop => loopInv loop
  | .inr result => post result

/-- A proof outline for all threads at once. `known` is what earlier outlines have
established of every world; `idle` is what a thread leaves behind between two
requests, `loopInv` what a round hands to the next. -/
structure Outline (initial : State) where
  permits : Request → S.Op → Prop
  known : World S State Request Result → Prop
  inv : World S State Request Result → Prop
  rely : Thread → World S State Request Result → World S State Request Result → Prop
  idle : Thread → World S State Request Result → Prop
  loopInv : Request → Post S State Request Result Loop
  post : Request → Post S State Request Result Result
  uses_entry : ∀ request, (m.entry request).Uses (permits request)
  uses_body : ∀ request loop, (m.body request loop).Uses (permits request)
  rely_refl : ∀ thread w, rely thread w w
  rely_trans : ∀ thread {w w' w''}, rely thread w w' → rely thread w' w'' → rely thread w w''
  interference : ∀ thread w w', m.Interference permits thread w w' →
    known w → known w' → inv w → inv w' → rely thread w w'
  init : inv ⟨initial, []⟩
  idle_init : ∀ thread, idle thread ⟨initial, []⟩
  idle_stable : ∀ thread w w', idle thread w → rely thread w w' → known w' → inv w' →
    idle thread w'
  begin : ∀ request w state, known w → inv w → idle (m.owner request) w →
    m.deliver request w.state = some state → known (w.after (.begun request) state) →
    inv (w.after (.begun request) state) ∧
      m.Safe known inv (rely (m.owner request)) request
        (RoundEnd (loopInv request) (post request)) [] (m.entry request)
        (w.after (.begun request) state)
  loop : ∀ request loop events w, known w → inv w → loopInv request loop events w →
    m.Safe known inv (rely (m.owner request)) request
      (RoundEnd (loopInv request) (post request)) events (m.body request loop) w
  finish : ∀ request result events w w', post request result events w →
    rely (m.owner request) w w' → known w' → inv w' →
    known (w'.after (.finished ⟨request, events, result⟩) w'.state) →
    inv (w'.after (.finished ⟨request, events, result⟩) w'.state) ∧
      idle (m.owner request) (w'.after (.finished ⟨request, events, result⟩) w'.state)

namespace Outline

variable {m} {initial : State}

/-- What the outline promises of one thread. -/
def Local (o : m.Outline initial) (thread : Thread)
    (activity : Option (Activity S State Request Loop Result))
    (w : World S State Request Result) : Prop :=
  match activity with
  | none => o.idle thread w
  | some a => m.owner a.request = thread ∧ a.rest.Uses (o.permits a.request) ∧
      ∃ before, o.rely thread before w ∧ m.Safe o.known o.inv (o.rely thread) a.request
        (RoundEnd (o.loopInv a.request) (o.post a.request)) a.events a.rest before

theorem Local.stable {o : m.Outline initial} {thread : Thread}
    {activity : Option (Activity S State Request Loop Result)}
    {w w' : World S State Request Result} (h : o.Local thread activity w)
    (hRely : o.rely thread w w') (hKnown : o.known w') (hInv : o.inv w') :
    o.Local thread activity w' := by
  cases activity with
  | none => exact o.idle_stable thread w w' h hRely hKnown hInv
  | some a =>
      obtain ⟨hOwner, hUses, before, hBefore, hSafe⟩ := h
      exact ⟨hOwner, hUses, before, o.rely_trans thread hBefore hRely, hSafe⟩

variable [DecidableEq Thread]

/-- An update of one thread's entry leaves the promises of the others to stability. -/
theorem local_update {o : m.Outline initial}
    {active : Thread → Option (Activity S State Request Loop Result)}
    {thread : Thread} {activity : Option (Activity S State Request Loop Result)}
    {w w' : World S State Request Result}
    (hOld : ∀ other, o.Local other (active other) w) (hNew : o.Local thread activity w')
    (hRely : ∀ other, thread ≠ other → o.rely other w w') (hKnown : o.known w')
    (hInv : o.inv w') :
    ∀ other, o.Local other (Function.update active thread activity other) w' := by
  intro other
  by_cases hOther : other = thread
  · subst other
    rw [Function.update_self]
    exact hNew
  · rw [Function.update_of_ne hOther]
    exact (hOld other).stable (hRely other (Ne.symm hOther)) hKnown hInv

omit [DecidableEq Thread] in
/-- A round that asked for another one continues with its code at once. -/
theorem local_resume {o : m.Outline initial} {request : Request}
    {events : List (Event S State Request)} {rest : Program S (Loop ⊕ Result)}
    {w : World S State Request Result} (hKnown : o.known w) (hInv : o.inv w)
    (hUses : rest.Uses (o.permits request))
    (hSafe : m.Safe o.known o.inv (o.rely (m.owner request)) request
      (RoundEnd (o.loopInv request) (o.post request)) events rest w) :
    o.Local (m.owner request) (some ⟨request, events, m.resume request rest⟩) w := by
  cases rest with
  | done outcome =>
      cases outcome with
      | inl loop =>
          exact ⟨rfl, o.uses_body request loop, w, o.rely_refl _ _,
            o.loop request loop events w hKnown hInv hSafe⟩
      | inr result => exact ⟨rfl, trivial, w, o.rely_refl _ _, hSafe⟩
  | call op next => exact ⟨rfl, hUses, w, o.rely_refl _ _, hSafe⟩

/-- One step of the machine keeps the invariant and every thread's promise. -/
theorem sound_step (o : m.Outline initial) {trace : List (Label S State Request Result)}
    {config next : Config S State Thread Request Loop Result}
    {label : Label S State Request Result} {move : Move Choice Thread Request}
    (hStep : m.step config move = some (label, next))
    (hKnown : o.known ⟨config.state, trace⟩) (hNext : o.known ⟨next.state, trace ++ [label]⟩)
    (hInv : o.inv ⟨config.state, trace⟩)
    (hLocal : ∀ thread, o.Local thread (config.active thread) ⟨config.state, trace⟩) :
    o.inv ⟨next.state, trace ++ [label]⟩ ∧
      ∀ thread, o.Local thread (next.active thread) ⟨next.state, trace ++ [label]⟩ := by
  rcases step_cases hStep with ⟨request, state, hActive, hDeliver, rfl, rfl⟩ |
    ⟨thread, choice, request, events, op, following, hActive, rfl, rfl⟩ |
    ⟨thread, request, events, result, hActive, rfl, rfl⟩
  · have hIdle := hLocal (m.owner request)
    rw [hActive] at hIdle
    obtain ⟨hInv', hSafe⟩ := o.begin request _ state hKnown hInv hIdle hDeliver hNext
    refine ⟨hInv', local_update hLocal ?_ ?_ hNext hInv'⟩
    · exact ⟨rfl, o.uses_entry request, _, o.rely_refl _ _, hSafe⟩
    · intro other hOther
      exact o.interference other _ _ (.begun hOther hDeliver) hKnown hNext hInv hInv'
  · have hOwn := hLocal thread
    rw [hActive] at hOwn
    obtain ⟨rfl, hUses, before, hBefore, hSafe⟩ := hOwn
    obtain ⟨hInv', hRest⟩ := hSafe _ hBefore hKnown hInv choice hNext
    refine ⟨hInv', local_update hLocal ?_ ?_ hNext hInv'⟩
    · exact local_resume hNext hInv' (hUses.2 _) hRest
    · intro other hOther
      exact o.interference other _ _ (.event hOther hUses.1) hKnown hNext hInv hInv'
  · have hOwn := hLocal thread
    rw [hActive] at hOwn
    obtain ⟨rfl, hUses, before, hBefore, hPost⟩ := hOwn
    obtain ⟨hInv', hIdle⟩ := o.finish request result events _ _ hPost hBefore hKnown hInv hNext
    refine ⟨hInv', local_update hLocal hIdle ?_ hNext hInv'⟩
    intro other hOther
    exact o.interference other _ _ (.finished hOther) hKnown hNext hInv hInv'

/-- Everything the outline promises holds in every world a run reaches, when what
is known holds at every point of that run. -/
theorem sound (o : m.Outline initial) {trace : List (Label S State Request Result)}
    {config : Config S State Thread Request Loop Result}
    (run : m.Runs (Machine.initial initial) trace config)
    (hKnown : ∀ earlier config, m.Runs (Machine.initial initial) earlier config →
      earlier <+: trace → o.known ⟨config.state, earlier⟩) :
    o.inv ⟨config.state, trace⟩ ∧
      ∀ thread, o.Local thread (config.active thread) ⟨config.state, trace⟩ := by
  induction run with
  | start => exact ⟨o.init, o.idle_init⟩
  | @step trace config next label move prior last ih =>
      have hPrior := ih fun earlier config hRun hPrefix =>
        hKnown earlier config hRun (hPrefix.trans (List.prefix_append _ _))
      exact o.sound_step last (hKnown _ _ prior (List.prefix_append _ _))
        (hKnown _ _ (.step prior last) List.prefix_rfl) hPrior.1 hPrior.2

end Outline
end Machine
end Concurrency
