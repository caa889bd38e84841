import MsQuicH3.Concurrency.Focus

/-! One thread of a machine and a part of the shared state that matters to it. The
code is followed on that part alone: the other threads change it only within a
rely, and everything else they do is invisible. -/
namespace Concurrency
namespace Machine

variable {S : Signature} {State Choice Thread Request Loop Result V α β σ : Type}

section Sees

variable (m : Machine S State Choice Thread Request Loop Result) (view : State → V)
  (rely : V → V → Prop) (request : Request)

/-- Whatever the others do to the view within `rely`, code of `request` ends in `post`. -/
def Sees (post : α → List (Event S State Request) → V → Prop) :
    List (Event S State Request) → Program S α → V → Prop
  | events, .done result, v => post result events v
  | events, .call op next, v => ∀ s, rely v (view s) → ∀ choice,
      Sees post (events ++ [m.event choice request op s]) (next (m.perform choice op s).1)
        (view (m.perform choice op s).2)

/-- Every operation of the body keeps what `owns` says of the things it owns, and so
does its result. -/
def Tracks (keeps : σ → (op : S.Op) → S.Reply op → σ)
    (owns : σ → List (Event S State Request) → V → Prop)
    (post : α → List (Event S State Request) → V → Prop) : σ → Program S α → Prop
  | owned, .done result => ∀ events v, owns owned events v → post result events v
  | owned, .call op next => ∀ events s choice, owns owned events (view s) →
      owns (keeps owned op (m.perform choice op s).1) (events ++ [m.event choice request op s])
        (view (m.perform choice op s).2) ∧
      Tracks keeps owns post (keeps owned op (m.perform choice op s).1)
        (next (m.perform choice op s).1)

variable {m view rely request} {post : α → List (Event S State Request) → V → Prop}
  {events : List (Event S State Request)} {v : V}

theorem Sees.bind {post : β → List (Event S State Request) → V → Prop} {program : Program S α}
    {f : α → Program S β}
    (h : m.Sees view rely request (fun result events v => m.Sees view rely request post events
      (f result) v) events program v) :
    m.Sees view rely request post events (program >>= f) v := by
  induction program generalizing events v with
  | done result => exact h
  | call op next ih => exact fun s hRely choice => ih _ (h s hRely choice)

theorem Sees.mono {post' : α → List (Event S State Request) → V → Prop} {program : Program S α}
    (h : m.Sees view rely request post events program v)
    (hPost : ∀ result events v, post result events v → post' result events v) :
    m.Sees view rely request post' events program v := by
  induction program generalizing events v with
  | done result => exact hPost _ _ _ h
  | call op next ih => exact fun s hRely choice => ih _ (h s hRely choice)

/-- A handler that may take over anywhere is given what the body owns there. -/
theorem Sees.guardedWith {keeps : σ → (op : S.Op) → S.Reply op → σ}
    {owns : σ → List (Event S State Request) → V → Prop} {strikes : Nat → Program S Bool}
    {recover : σ → Program S α} {body : Program S α} {owned : σ}
    (hStable : ∀ owned events v v', owns owned events v → rely v v' → owns owned events v')
    (hStrikes : ∀ k owned events v (next : Bool → Program S α), owns owned events v →
      (∀ struck events v, owns owned events v →
        m.Sees view rely request post events (next struck) v) →
      m.Sees view rely request post events (strikes k >>= next) v)
    (hRecover : ∀ owned events v, owns owned events v →
      m.Sees view rely request post events (recover owned) v)
    (hBody : m.Tracks view request keeps owns post owned body) (hStart : owns owned events v)
    (k : Nat) :
    m.Sees view rely request post events
      (Program.guardedWith keeps strikes recover k owned body) v := by
  induction body generalizing events v k owned with
  | done result =>
      refine hStrikes k owned _ _ _ hStart fun struck events v hOwns => ?_
      cases struck with
      | true => exact hRecover owned events v hOwns
      | false => exact hBody events v hOwns
  | call op next ih =>
      refine hStrikes k owned _ _ _ hStart fun struck events v hOwns => ?_
      cases struck with
      | true => exact hRecover owned events v hOwns
      | false =>
          intro s hRely choice
          obtain ⟨hNext, hRest⟩ := hBody events s choice (hStable _ _ _ _ hOwns hRely)
          exact ih _ hRest hNext (k + 1)

/-- Short code that leaves the view alone. -/
theorem Sees.of_quiet {quiet : S.Op → Prop} {P : α → Prop} {program : Program S α} {n : Nat}
    (hUses : program.Uses quiet) (hMost : program.AtMost (fun _ => true) n)
    (hYields : program.Yields P)
    (hKeeps : ∀ op choice s, quiet op → view (m.perform choice op s).2 = view s)
    (hPost : ∀ result later, later.length ≤ n → (∀ e ∈ later, quiet e.op) → P result →
      post result (events ++ later) v) :
    m.Sees view Eq request post events program v := by
  induction program generalizing events n with
  | done result =>
      have hEnd := hPost result [] (Nat.zero_le n) (by simp) hYields
      rw [List.append_nil] at hEnd
      exact hEnd
  | call op next ih =>
      intro s hView choice
      have hSome := hMost.1 rfl
      have hSame : view (m.perform choice op s).2 = v := (hKeeps op choice s hUses.1).trans hView.symm
      rw [hSame]
      apply ih _ (hUses.2 _) (hMost.2 _) (hYields _)
      intro result later hLater hQuiet hResult
      rw [List.append_assoc]
      refine hPost result _ ?_ ?_ hResult
      · simp only [Bool.toNat_true] at hLater
        simp only [List.singleton_append, List.length_cons]
        omega
      · intro e he
        rcases List.mem_append.1 he with hFirst | hRest
        · rw [List.mem_singleton.1 hFirst]
          exact hUses.1
        · exact hQuiet e hRest

end Sees

/-- Code followed on the view reaches an end from wherever it is. -/
theorem Sees.ends {m : Machine S State Choice Thread Request Loop Result} {view : State → V}
    {rely : V → V → Prop} {request : Request} [Nonempty Choice]
    {post : α → List (Event S State Request) → V → Prop} {events : List (Event S State Request)}
    {program : Program S α} {s : State} (hRefl : ∀ v, rely v v)
    (h : m.Sees view rely request post events program (view s)) :
    ∃ result later v, post result (events ++ later) v := by
  induction program generalizing events s with
  | done result =>
      refine ⟨result, [], view s, ?_⟩
      rw [List.append_nil]
      exact h
  | call op next ih =>
      obtain ⟨choice⟩ := ‹Nonempty Choice›
      obtain ⟨result, later, v, hPost⟩ := ih _ (h s (hRefl _) choice)
      exact ⟨result, _ :: later, v, by simpa using hPost⟩

/-- A thread followed on a view of the state. A round of a loop hands `loopInv` to the
next one; what `post` says of a request may rest on what an earlier one left in the view. -/
structure View (m : Machine S State Choice Thread Request Loop Result) (thread : Thread)
    (V : Type) where
  view : State → V
  permits : Request → S.Op → Prop
  rely : V → V → Prop
  idle : V → Prop
  loopInv : Request → Loop → List (Event S State Request) → V → Prop
  post : Request → Result → List (Event S State Request) → V → Prop
  uses_entry : ∀ request, (m.entry request).Uses (permits request)
  uses_body : ∀ request loop, (m.body request loop).Uses (permits request)
  rely_refl : ∀ v, rely v v
  rely_trans : ∀ {v v' v''}, rely v v' → rely v' v'' → rely v v''
  delivered : ∀ request s s', m.owner request ≠ thread → m.deliver request s = some s' →
    rely (view s) (view s')
  performed : ∀ request op choice s, m.owner request ≠ thread → permits request op →
    rely (view s) (view (m.perform choice op s).2)
  idle_stable : ∀ v v', idle v → rely v v' → idle v'
  entry : ∀ request s s', m.owner request = thread → m.deliver request s = some s' →
    idle (view s) → m.Sees view rely request
      (fun outcome events v => Sum.elim (fun loop => loopInv request loop events v)
        (fun result => post request result events v ∧ idle v) outcome)
      [] (m.entry request) (view s')
  loop : ∀ request loop events v, m.owner request = thread → loopInv request loop events v →
    m.Sees view rely request
      (fun outcome events v => Sum.elim (fun loop => loopInv request loop events v)
        (fun result => post request result events v ∧ idle v) outcome)
      events (m.body request loop) v

namespace View

variable {m : Machine S State Choice Thread Request Loop Result} {thread : Thread}

/-- How code of the thread ends: with another round, or with a result and an idle thread. -/
def Ends (o : m.View thread V) (request : Request) (outcome : Loop ⊕ Result)
    (events : List (Event S State Request)) (v : V) : Prop :=
  Sum.elim (fun loop => o.loopInv request loop events v)
    (fun result => o.post request result events v ∧ o.idle v) outcome

/-- The code in progress is seen to its end from where the thread last acted. -/
def Local (o : m.View thread V) (activity : Option (Activity S State Request Loop Result))
    (s : State) : Prop :=
  match activity with
  | none => o.idle (o.view s)
  | some a => m.owner a.request = thread ∧ ∃ before, o.rely before (o.view s) ∧
      m.Sees o.view o.rely a.request (o.Ends a.request) a.events a.rest before

theorem Local.stable {o : m.View thread V}
    {activity : Option (Activity S State Request Loop Result)} {s s' : State}
    (h : o.Local activity s) (hRely : o.rely (o.view s) (o.view s')) : o.Local activity s' := by
  cases activity with
  | none => exact o.idle_stable _ _ h hRely
  | some a =>
      obtain ⟨hOwner, before, hBefore, hSees⟩ := h
      exact ⟨hOwner, before, o.rely_trans hBefore hRely, hSees⟩

/-- A round that asked for another one continues with its code at once. -/
theorem sees_resume {o : m.View thread V} {request : Request} (hOwner : m.owner request = thread)
    {events : List (Event S State Request)} {rest : Program S (Loop ⊕ Result)} {v : V}
    (h : m.Sees o.view o.rely request (o.Ends request) events rest v) :
    m.Sees o.view o.rely request (o.Ends request) events (m.resume request rest) v := by
  cases rest with
  | call op next => exact h
  | done outcome =>
      cases outcome with
      | inl loop => exact o.loop request loop events v hOwner h
      | inr result => exact h

variable [DecidableEq Thread]

/-- The thread is where its code says, and its calls that returned ended as they should. -/
theorem sound (o : m.View thread V) {initial : State} (hInitial : o.idle (o.view initial))
    {trace : List (Label S State Request Result)}
    {reached : Config S State Thread Request Loop Result}
    (run : m.Runs (Machine.initial initial) trace reached) :
    o.Local (reached.active thread) reached.state ∧
      ∀ call, .finished call ∈ trace → m.owner call.request = thread →
        ∃ v, o.post call.request call.result call.events v ∧ o.idle v := by
  induction run with
  | start => exact ⟨hInitial, by simp⟩
  | @step trace label config next move prior last ih =>
      obtain ⟨hLocal, hFinished⟩ := ih
      have hPermits := ((m.usesTranscript o.permits o.uses_entry o.uses_body).sound prior).1
      rcases step_cases last with ⟨request, state, hFree, hDeliver, rfl, rfl⟩ |
        ⟨acting, choice, request, events, op, following, hBusy, rfl, rfl⟩ |
        ⟨acting, request, events, result, hBusy, rfl, rfl⟩
      · refine ⟨?_, by simpa using hFinished⟩
        by_cases hOwner : m.owner request = thread
        · subst hOwner
          rw [hFree] at hLocal
          simp only [Function.update_self]
          exact ⟨rfl, _, o.rely_refl _, o.entry request _ _ rfl hDeliver hLocal⟩
        · simp only [Function.update_of_ne (Ne.symm hOwner)]
          exact hLocal.stable (o.delivered _ _ _ hOwner hDeliver)
      · refine ⟨?_, by simpa using hFinished⟩
        obtain ⟨hOwner, hUses⟩ := hPermits acting _ hBusy
        by_cases hThread : acting = thread
        · subst hThread
          rw [hBusy] at hLocal
          obtain ⟨-, before, hRely, hSees⟩ := hLocal
          simp only [Function.update_self]
          exact ⟨hOwner, _, o.rely_refl _, sees_resume hOwner (hSees _ hRely choice)⟩
        · have hOther : m.owner request ≠ thread := fun h => hThread (hOwner.symm.trans h)
          simp only [Function.update_of_ne (Ne.symm hThread)]
          exact hLocal.stable (o.performed _ _ _ _ hOther hUses.1)
      · obtain ⟨hOwner, -⟩ := hPermits acting _ hBusy
        by_cases hThread : acting = thread
        · subst hThread
          rw [hBusy] at hLocal
          obtain ⟨-, before, hRely, hPost, hIdle⟩ := hLocal
          simp only [Function.update_self]
          refine ⟨o.idle_stable _ _ hIdle hRely, fun call hCall hCallOwner => ?_⟩
          rw [List.mem_append, List.mem_singleton] at hCall
          rcases hCall with hCall | hCall
          · exact hFinished call hCall hCallOwner
          · cases hCall
            exact ⟨before, hPost, hIdle⟩
        · have hOther : m.owner request ≠ thread := fun h => hThread (hOwner.symm.trans h)
          simp only [Function.update_of_ne (Ne.symm hThread)]
          refine ⟨hLocal, fun call hCall hCallOwner => ?_⟩
          rw [List.mem_append, List.mem_singleton] at hCall
          rcases hCall with hCall | hCall
          · exact hFinished call hCall hCallOwner
          · cases hCall
            exact absurd hCallOwner hOther

/-- What the thread's calls return, in every run. -/
theorem returned (o : m.View thread V) {initial : State} (hInitial : o.idle (o.view initial))
    {trace : List (Label S State Request Result)}
    {reached : Config S State Thread Request Loop Result}
    (run : m.Runs (Machine.initial initial) trace reached)
    {call : Completed S State Request Result} (hCall : .finished call ∈ trace)
    (hOwner : m.owner call.request = thread) :
    ∃ v, o.post call.request call.result call.events v ∧ o.idle v :=
  (o.sound hInitial run).2 call hCall hOwner

end View
end Machine
end Concurrency
