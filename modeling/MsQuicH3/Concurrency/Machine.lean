import Mathlib.Data.List.Induction
import MsQuicH3.Concurrency.Program

/-! Threads that serve requests over one shared state. A thread serves one request
at a time; between two atomic operations of one thread any other thread may run.
A served request may loop: its code then returns the value of the next round. -/
namespace Concurrency

universe u

variable {S : Signature} {State Choice Thread Request Loop Result : Type}

/-- `perform` is the meaning of one atomic operation, where `Choice` settles what
the outside decides. `deliver` says when the outside may issue a request and
what it does to its own books; the code of the request starts from there. -/
structure Machine (S : Signature) (State Choice Thread Request Loop Result : Type) where
  perform : Choice → (op : S.Op) → State → S.Reply op × State
  deliver : Request → State → Option State
  owner : Request → Thread
  entry : Request → Program S (Loop ⊕ Result)
  body : Request → Loop → Program S (Loop ⊕ Result)

/-- One performed operation, the request it is part of and the shared state around it. -/
structure Event (S : Signature) (State Request : Type) where
  request : Request
  op : S.Op
  reply : S.Reply op
  before : State
  after : State

/-- A served request: its operations in order and what it returned. -/
structure Completed (S : Signature) (State Request Result : Type) where
  request : Request
  events : List (Event S State Request)
  result : Result

inductive Label (S : Signature) (State Request Result : Type) where
  | begun (request : Request)
  | event (event : Event S State Request)
  | finished (call : Completed S State Request Result)

/-- The request a label belongs to. -/
def Label.request {S : Signature} {State Request Result : Type} :
    Label S State Request Result → Request
  | .begun request => request
  | .event performed => performed.request
  | .finished call => call.request

structure Activity (S : Signature) (State Request Loop Result : Type) where
  request : Request
  events : List (Event S State Request)
  rest : Program S (Loop ⊕ Result)

structure Config (S : Signature) (State Thread Request Loop Result : Type) where
  state : State
  active : Thread → Option (Activity S State Request Loop Result)

inductive Move (Choice Thread Request : Type) where
  | begin (request : Request)
  | act (thread : Thread) (choice : Choice)
  deriving DecidableEq

namespace Machine

variable (m : Machine S State Choice Thread Request Loop Result)

def event (choice : Choice) (request : Request) (op : S.Op) (state : State) :
    Event S State Request where
  request := request
  op := op
  reply := (m.perform choice op state).1
  before := state
  after := (m.perform choice op state).2

@[simp] theorem event_request (choice : Choice) (request : Request) (op : S.Op) (state : State) :
    (m.event choice request op state).request = request := rfl

@[simp] theorem event_op (choice : Choice) (request : Request) (op : S.Op) (state : State) :
    (m.event choice request op state).op = op := rfl

@[simp] theorem event_reply (choice : Choice) (request : Request) (op : S.Op) (state : State) :
    (m.event choice request op state).reply = (m.perform choice op state).1 := rfl

@[simp] theorem event_before (choice : Choice) (request : Request) (op : S.Op) (state : State) :
    (m.event choice request op state).before = state := rfl

@[simp] theorem event_after (choice : Choice) (request : Request) (op : S.Op) (state : State) :
    (m.event choice request op state).after = (m.perform choice op state).2 := rfl

/-- A round of a loop that ends by asking for another one continues with it. -/
def resume (request : Request) : Program S (Loop ⊕ Result) → Program S (Loop ⊕ Result)
  | .done (.inl loop) => m.body request loop
  | rest => rest

variable [DecidableEq Thread]

def step (config : Config S State Thread Request Loop Result) :
    Move Choice Thread Request →
      Option (Label S State Request Result × Config S State Thread Request Loop Result)
  | .begin request =>
      match config.active (m.owner request) with
      | some _ => none
      | none => (m.deliver request config.state).map fun state =>
          (.begun request,
            { state
              active := Function.update config.active (m.owner request)
                (some ⟨request, [], m.entry request⟩) })
  | .act thread choice =>
      match config.active thread with
      | none => none
      | some ⟨_, _, .done (.inl _)⟩ => none
      | some ⟨request, events, .done (.inr result)⟩ =>
          some (.finished ⟨request, events, result⟩,
            { config with active := Function.update config.active thread none })
      | some ⟨request, events, .call op next⟩ =>
          let performed := m.event choice request op config.state
          some (.event performed,
            { state := performed.after
              active := Function.update config.active thread
                (some ⟨request, events ++ [performed], m.resume request (next performed.reply)⟩) })

variable {m} {config next : Config S State Thread Request Loop Result}
  {label : Label S State Request Result}

/-- What a step can be: the start of a request, one operation, or a return. -/
theorem step_cases {move : Move Choice Thread Request}
    (h : m.step config move = some (label, next)) :
    (∃ request state, config.active (m.owner request) = none ∧
      m.deliver request config.state = some state ∧ label = .begun request ∧
      next = ⟨state, Function.update config.active (m.owner request)
        (some ⟨request, [], m.entry request⟩)⟩) ∨
    (∃ thread choice request events op following,
      config.active thread = some ⟨request, events, .call op following⟩ ∧
      label = .event (m.event choice request op config.state) ∧
      next = ⟨(m.perform choice op config.state).2, Function.update config.active thread
        (some ⟨request, events ++ [m.event choice request op config.state],
          m.resume request (following (m.perform choice op config.state).1)⟩)⟩) ∨
    (∃ thread request events result,
      config.active thread = some ⟨request, events, .done (.inr result)⟩ ∧
      label = .finished ⟨request, events, result⟩ ∧
      next = ⟨config.state, Function.update config.active thread none⟩) := by
  cases move with
  | begin request =>
      simp only [step] at h
      split at h
      · cases h
      next hActive =>
        simp only [Option.map_eq_some_iff, Prod.mk.injEq] at h
        obtain ⟨state, hDeliver, rfl, rfl⟩ := h
        exact .inl ⟨request, state, hActive, hDeliver, rfl, rfl⟩
  | act thread choice =>
      simp only [step] at h
      split at h
      · cases h
      · cases h
      next request events result hActive =>
        cases h
        exact .inr (.inr ⟨thread, request, events, result, hActive, rfl, rfl⟩)
      next request events op following hActive =>
        cases h
        exact .inr (.inl ⟨thread, choice, request, events, op, following, hActive, rfl, rfl⟩)

variable (m)

/-- Follow a schedule, as far as every move of it is possible. -/
def run (config : Config S State Thread Request Loop Result) :
    List (Move Choice Thread Request) →
      Option (List (Label S State Request Result) ×
        Config S State Thread Request Loop Result)
  | [] => some ([], config)
  | move :: moves => do
      let (label, next) ← m.step config move
      let (labels, final) ← run next moves
      return (label :: labels, final)

/-- Everything that can happen from `start`: the labels in the order in which they
happened and the configuration reached. -/
inductive Runs (start : Config S State Thread Request Loop Result) :
    List (Label S State Request Result) →
      Config S State Thread Request Loop Result → Prop where
  | start : Runs start [] start
  | step {trace label config next} {move : Move Choice Thread Request}
      (prior : Runs start trace config) (last : m.step config move = some (label, next)) :
      Runs start (trace ++ [label]) next

variable {m}

theorem Runs.trans {start middle final : Config S State Thread Request Loop Result}
    {first second : List (Label S State Request Result)}
    (left : m.Runs start first middle) (right : m.Runs middle second final) :
    m.Runs start (first ++ second) final := by
  induction right with
  | start => simpa using left
  | step prior last ih =>
      rw [← List.append_assoc]
      exact .step ih last

/-- A schedule that could be followed is a run. -/
theorem runs_of_run {start final : Config S State Thread Request Loop Result}
    {moves : List (Move Choice Thread Request)}
    {trace : List (Label S State Request Result)}
    (h : m.run start moves = some (trace, final)) : m.Runs start trace final := by
  induction moves generalizing start trace with
  | nil =>
      simp only [run, Option.some.injEq, Prod.mk.injEq] at h
      obtain ⟨rfl, rfl⟩ := h
      exact .start
  | cons move moves ih =>
      simp only [run, Option.bind_eq_bind, Option.bind_eq_some_iff, Prod.exists] at h
      obtain ⟨label, next, hStep, labels, last, hRun, hEq⟩ := h
      cases hEq
      have hFirst : m.Runs start [label] next := .step .start hStep
      simpa using hFirst.trans (ih hRun)

theorem runs_get {start : Config S State Thread Request Loop Result}
    {moves : List (Move Choice Thread Request)} (h : (m.run start moves).isSome) :
    m.Runs start ((m.run start moves).get h).1 ((m.run start moves).get h).2 :=
  runs_of_run (Option.some_get h).symm

variable (m) in
/-- What a trace says of the requests of one thread. -/
def own (thread : Thread) (trace : List (Label S State Request Result)) :
    List (Label S State Request Result) :=
  trace.filter (fun label => m.owner label.request = thread)

theorem own_append (thread : Thread) (first second : List (Label S State Request Result)) :
    m.own thread (first ++ second) = m.own thread first ++ m.own thread second :=
  List.filter_append ..

theorem own_snoc {thread : Thread} {trace : List (Label S State Request Result)}
    {label : Label S State Request Result} (h : m.owner label.request = thread) :
    m.own thread (trace ++ [label]) = m.own thread trace ++ [label] := by
  simp [own, h]

theorem own_snoc_of_ne {thread : Thread} {trace : List (Label S State Request Result)}
    {label : Label S State Request Result} (h : m.owner label.request ≠ thread) :
    m.own thread (trace ++ [label]) = m.own thread trace := by
  simp [own, h]

/-- No thread is serving a request. -/
def initial (state : State) : Config S State Thread Request Loop Result where
  state := state
  active := fun _ => none

/-- The last step of a run. -/
theorem Runs.last {start final : Config S State Thread Request Loop Result}
    {trace : List (Label S State Request Result)} {label : Label S State Request Result}
    (run : m.Runs start (trace ++ [label]) final) :
    ∃ prior move, m.Runs start trace prior ∧ m.step prior move = some (label, final) := by
  generalize hTrace : trace ++ [label] = labels at run
  cases run with
  | start => simp at hTrace
  | step prior last =>
      obtain ⟨rfl, hLabel⟩ := List.append_inj' hTrace rfl
      obtain rfl := List.singleton_inj.1 hLabel
      exact ⟨_, _, prior, last⟩

/-- A run passes through every prefix of its trace. -/
theorem Runs.split {start final : Config S State Thread Request Loop Result}
    {first second : List (Label S State Request Result)}
    (run : m.Runs start (first ++ second) final) :
    ∃ middle, m.Runs start first middle ∧ m.Runs middle second final := by
  induction second using List.reverseRecOn generalizing final with
  | nil => exact ⟨final, by simpa using run, .start⟩
  | append_singleton second label ih =>
      rw [← List.append_assoc] at run
      obtain ⟨prior, move, hPrior, hLast⟩ := run.last
      obtain ⟨middle, hFirst, hSecond⟩ := ih hPrior
      exact ⟨middle, hFirst, .step hSecond hLast⟩

/-- A run takes every step of its trace. -/
theorem Runs.pass {start final : Config S State Thread Request Loop Result}
    {earlier later : List (Label S State Request Result)} {label : Label S State Request Result}
    (run : m.Runs start (earlier ++ label :: later) final) :
    ∃ before move after, m.Runs start earlier before ∧
      m.step before move = some (label, after) ∧ m.Runs after later final := by
  rw [List.append_cons] at run
  obtain ⟨after, hAfter, hLater⟩ := run.split
  obtain ⟨before, move, hBefore, hLast⟩ := hAfter.last
  exact ⟨before, move, after, hBefore, hLast, hLater⟩

/-- The states around an event are those of the run. -/
theorem Runs.around {start final : Config S State Thread Request Loop Result}
    {trace : List (Label S State Request Result)} {e : Event S State Request}
    (run : m.Runs start trace final) (h : .event e ∈ trace) :
    ∃ earlier before after, earlier ++ [.event e] <+: trace ∧ m.Runs start earlier before ∧
      m.Runs start (earlier ++ [.event e]) after ∧ before.state = e.before ∧
      after.state = e.after ∧ ∃ choice, e = m.event choice e.request e.op e.before := by
  obtain ⟨earlier, later, rfl⟩ := List.append_of_mem h
  have hTrace : earlier ++ .event e :: later = (earlier ++ [.event e]) ++ later := by simp
  rw [hTrace] at run
  obtain ⟨after, hAfter, -⟩ := run.split
  obtain ⟨before, move, hBefore, hLast⟩ := hAfter.last
  refine ⟨earlier, before, after, ⟨later, hTrace.symm⟩, hBefore, hAfter, ?_⟩
  rcases step_cases hLast with ⟨_, _, _, _, hKind, _⟩ |
    ⟨thread, choice, request, events, op, following, hEntry, hKind, hNext⟩ |
    ⟨_, _, _, _, _, hKind, _⟩
  · cases hKind
  · cases hKind
    subst hNext
    exact ⟨rfl, rfl, choice, rfl⟩
  · cases hKind

/-- An entry of a table after one of its threads changed. -/
theorem update_eq_some {active : Thread → Option (Activity S State Request Loop Result)}
    {thread other : Thread} {entry : Option (Activity S State Request Loop Result)}
    {a : Activity S State Request Loop Result}
    (h : Function.update active thread entry other = some a) :
    (other = thread ∧ entry = some a) ∨ (other ≠ thread ∧ active other = some a) := by
  by_cases hOther : other = thread
  · subst hOther
    exact .inl ⟨rfl, by simpa using h⟩
  · exact .inr ⟨hOther, by simpa [Function.update_of_ne hOther] using h⟩

/-- What every transcript of a request satisfies together with the code that is left,
whatever the other threads do. -/
structure Transcript (m : Machine S State Choice Thread Request Loop Result) where
  inv : Request → List (Event S State Request) → Program S (Loop ⊕ Result) → Prop
  entry : ∀ request, inv request [] (m.entry request)
  event : ∀ request events op next choice state, inv request events (.call op next) →
    inv request (events ++ [m.event choice request op state]) (next (m.perform choice op state).1)
  again : ∀ request events loop, inv request events (.done (.inl loop)) →
    inv request events (m.body request loop)

namespace Transcript

variable (t : m.Transcript)

omit [DecidableEq Thread] in
theorem resume {request : Request} {events : List (Event S State Request)}
    {rest : Program S (Loop ⊕ Result)} (h : t.inv request events rest) :
    t.inv request events (m.resume request rest) := by
  cases rest with
  | done outcome =>
      cases outcome with
      | inl loop => exact t.again request events loop h
      | inr result => exact h
  | call op next => exact h

/-- A call in progress and a call that returned. -/
theorem sound {initial : State} {trace : List (Label S State Request Result)}
    {reached : Config S State Thread Request Loop Result}
    (run : m.Runs (Machine.initial initial) trace reached) :
    (∀ thread a, reached.active thread = some a →
      m.owner a.request = thread ∧ t.inv a.request a.events a.rest) ∧
    ∀ call, .finished call ∈ trace → t.inv call.request call.events (.done (.inr call.result)) := by
  induction run with
  | start => exact ⟨fun _ _ h => by simp [Machine.initial] at h, fun _ h => by simp at h⟩
  | step prior last ih =>
      obtain ⟨hActive, hFinished⟩ := ih
      rcases step_cases last with ⟨request, state, -, -, rfl, rfl⟩ |
        ⟨thread, choice, request, events, op, following, hEntry, rfl, rfl⟩ |
        ⟨thread, request, events, result, hEntry, rfl, rfl⟩
      · refine ⟨fun other a h => ?_, fun call h => hFinished call (by simpa using h)⟩
        rcases update_eq_some h with ⟨hOther, hHere⟩ | ⟨-, hHere⟩
        · cases hHere
          exact ⟨hOther.symm, t.entry request⟩
        · exact hActive other a hHere
      · refine ⟨fun other a h => ?_, fun call h => hFinished call (by simpa using h)⟩
        rcases update_eq_some h with ⟨hOther, hHere⟩ | ⟨-, hHere⟩
        · cases hHere
          obtain ⟨hOwner, hInv⟩ := hActive _ _ hEntry
          exact ⟨hOwner.trans hOther.symm, t.resume (t.event _ _ _ _ choice _ hInv)⟩
        · exact hActive other a hHere
      · refine ⟨fun other a h => ?_, fun call h => ?_⟩
        · rcases update_eq_some h with ⟨-, hHere⟩ | ⟨-, hHere⟩
          · cases hHere
          · exact hActive other a hHere
        · rw [List.mem_append, List.mem_singleton] at h
          rcases h with h | h
          · exact hFinished call h
          · cases h
            exact (hActive _ _ hEntry).2

end Transcript

/-- The events of the calls of a run are events of the run. -/
theorem Runs.call_events {initial : State} {trace : List (Label S State Request Result)}
    {reached : Config S State Thread Request Loop Result}
    (run : m.Runs (Machine.initial initial) trace reached) :
    (∀ thread a, reached.active thread = some a →
      m.owner a.request = thread ∧ ∀ e ∈ a.events, e.request = a.request ∧ .event e ∈ trace) ∧
    ∀ call, .finished call ∈ trace →
      ∀ e ∈ call.events, e.request = call.request ∧ .event e ∈ trace := by
  induction run with
  | start => exact ⟨fun _ _ h => by simp [Machine.initial] at h, fun _ h => by simp at h⟩
  | step prior last ih =>
      obtain ⟨hActive, hFinished⟩ := ih
      rcases step_cases last with ⟨request, state, -, -, rfl, rfl⟩ |
        ⟨thread, choice, request, events, op, following, hEntry, rfl, rfl⟩ |
        ⟨thread, request, events, result, hEntry, rfl, rfl⟩
      · refine ⟨fun other a h => ?_, fun call h e he => ?_⟩
        · rcases update_eq_some h with ⟨hOther, hHere⟩ | ⟨-, hHere⟩
          · cases hHere
            exact ⟨hOther.symm, by simp⟩
          · obtain ⟨hOwner, hEvents⟩ := hActive other a hHere
            exact ⟨hOwner, fun e he => ⟨(hEvents e he).1, List.mem_append_left _ (hEvents e he).2⟩⟩
        · obtain ⟨hRequest, hMem⟩ := hFinished call (by simpa using h) e he
          exact ⟨hRequest, List.mem_append_left _ hMem⟩
      · refine ⟨fun other a h => ?_, fun call h e he => ?_⟩
        · rcases update_eq_some h with ⟨hOther, hHere⟩ | ⟨-, hHere⟩
          · cases hHere
            obtain ⟨hOwner, hEvents⟩ := hActive _ _ hEntry
            refine ⟨hOwner.trans hOther.symm, fun e he => ?_⟩
            rcases List.mem_append.1 he with he | he
            · exact ⟨(hEvents e he).1, List.mem_append_left _ (hEvents e he).2⟩
            · rw [List.mem_singleton.1 he]
              exact ⟨rfl, by simp⟩
          · obtain ⟨hOwner, hEvents⟩ := hActive other a hHere
            exact ⟨hOwner, fun e he => ⟨(hEvents e he).1, List.mem_append_left _ (hEvents e he).2⟩⟩
        · obtain ⟨hRequest, hMem⟩ := hFinished call (by simpa using h) e he
          exact ⟨hRequest, List.mem_append_left _ hMem⟩
      · refine ⟨fun other a h => ?_, fun call h e he => ?_⟩
        · rcases update_eq_some h with ⟨-, hHere⟩ | ⟨-, hHere⟩
          · cases hHere
          · obtain ⟨hOwner, hEvents⟩ := hActive other a hHere
            exact ⟨hOwner, fun e he => ⟨(hEvents e he).1, List.mem_append_left _ (hEvents e he).2⟩⟩
        · rcases List.mem_append.1 h with h | h
          · obtain ⟨hRequest, hMem⟩ := hFinished call h e he
            exact ⟨hRequest, List.mem_append_left _ hMem⟩
          · cases List.mem_singleton.1 h
            obtain ⟨-, hEvents⟩ := hActive _ _ hEntry
            exact ⟨(hEvents e he).1, List.mem_append_left _ (hEvents e he).2⟩

/-- Every event of a run belongs to a call of it. -/
theorem Runs.event_cases {initial : State} {trace : List (Label S State Request Result)}
    {reached : Config S State Thread Request Loop Result}
    (run : m.Runs (Machine.initial initial) trace reached) {e : Event S State Request}
    (h : .event e ∈ trace) :
    (∃ call, .finished call ∈ trace ∧ e ∈ call.events) ∨
      ∃ thread a, reached.active thread = some a ∧ e ∈ a.events := by
  induction run with
  | start => simp at h
  | step prior last ih =>
      have hKeep : ∀ {label : Label S State Request Result}
          {config next : Config S State Thread Request Loop Result}
          {trace : List (Label S State Request Result)},
          ((∃ call, .finished call ∈ trace ∧ e ∈ call.events) ∨
            ∃ thread a, config.active thread = some a ∧ e ∈ a.events) →
          (∀ thread a, config.active thread = some a → e ∈ a.events →
            (∃ a', next.active thread = some a' ∧ e ∈ a'.events) ∨
              ∃ call, label = .finished call ∧ e ∈ call.events) →
          (∃ call, .finished call ∈ trace ++ [label] ∧ e ∈ call.events) ∨
            ∃ thread a, next.active thread = some a ∧ e ∈ a.events := by
        rintro label config next trace (⟨call, hMem, he⟩ | ⟨thread, a, hEntry, he⟩) hNext
        · exact .inl ⟨call, List.mem_append_left _ hMem, he⟩
        · rcases hNext thread a hEntry he with ⟨a', hEntry', he'⟩ | ⟨call, rfl, he'⟩
          · exact .inr ⟨thread, a', hEntry', he'⟩
          · exact .inl ⟨call, by simp, he'⟩
      rw [List.mem_append, List.mem_singleton] at h
      rcases step_cases last with ⟨request, state, hFree, -, rfl, rfl⟩ |
        ⟨thread, choice, request, events, op, following, hBusy, rfl, rfl⟩ |
        ⟨thread, request, events, result, hBusy, rfl, rfl⟩
      · refine hKeep (ih (h.resolve_right (by simp))) fun other a hEntry he => .inl ⟨a, ?_, he⟩
        have hOther : other ≠ m.owner request := by
          rintro rfl
          rw [hFree] at hEntry
          cases hEntry
        simpa only [Function.update_of_ne hOther] using hEntry
      · rcases h with h | h
        · refine hKeep (ih h) fun other a hEntry he => ?_
          by_cases hOther : other = thread
          · subst hOther
            rw [hBusy] at hEntry
            cases hEntry
            exact .inl ⟨_, Function.update_self .., List.mem_append_left _ he⟩
          · exact .inl ⟨a, by simpa only [Function.update_of_ne hOther] using hEntry, he⟩
        · cases h
          exact .inr ⟨thread, _, Function.update_self .., by simp⟩
      · refine hKeep (ih (h.resolve_right (by simp))) fun other a hEntry he => ?_
        by_cases hOther : other = thread
        · subst hOther
          rw [hBusy] at hEntry
          cases hEntry
          exact .inr ⟨_, rfl, he⟩
        · exact .inl ⟨a, by simpa only [Function.update_of_ne hOther] using hEntry, he⟩

/-- Where no code ends with a further round before its first operation, a thread that
serves a request can always take its next step. -/
theorem Runs.progress {initial : State} {trace : List (Label S State Request Result)}
    {reached : Config S State Thread Request Loop Result}
    (run : m.Runs (Machine.initial initial) trace reached)
    (hEntry : ∀ request loop, m.entry request ≠ .done (.inl loop))
    (hBody : ∀ request round loop, m.body request round ≠ .done (.inl loop)) {thread : Thread}
    {a : Activity S State Request Loop Result} (hActive : reached.active thread = some a)
    (choice : Choice) : (m.step reached (.act thread choice)).isSome := by
  have hRest : ∀ loop, a.rest ≠ .done (.inl loop) := by
    have hResume : ∀ request rest loop, m.resume request rest ≠ .done (.inl loop) := by
      intro request rest loop
      cases rest with
      | call op next =>
          intro h
          cases h
      | done outcome =>
          cases outcome with
          | inl round => exact hBody request round loop
          | inr result =>
              intro h
              cases h
    induction run generalizing thread a with
    | start => cases hActive
    | step prior last ih =>
        rcases step_cases last with ⟨request, state, -, -, rfl, rfl⟩ |
          ⟨acting, choice, request, events, op, following, -, rfl, rfl⟩ |
          ⟨acting, request, events, result, -, rfl, rfl⟩
        · rcases update_eq_some hActive with ⟨-, hHere⟩ | ⟨-, hHere⟩
          · cases hHere
            exact hEntry request
          · exact ih hHere
        · rcases update_eq_some hActive with ⟨-, hHere⟩ | ⟨-, hHere⟩
          · cases hHere
            exact hResume request _
          · exact ih hHere
        · rcases update_eq_some hActive with ⟨-, hHere⟩ | ⟨-, hHere⟩
          · cases hHere
          · exact ih hHere
  obtain ⟨request, events, rest⟩ := a
  cases rest with
  | call op next =>
      rw [Machine.step, hActive]
      rfl
  | done outcome =>
      cases outcome with
      | inl loop => exact absurd rfl (hRest loop)
      | inr result =>
          rw [Machine.step, hActive]
          rfl

section Segment

variable {start reached : Config S State Thread Request Loop Result}
  {trace : List (Label S State Request Result)}

/-- A property of the state that no step takes away. -/
theorem Runs.keeps {P : State → Prop} (run : m.Runs start trace reached)
    (hDeliver : ∀ request s s', m.deliver request s = some s' → P s → P s')
    (hPerform : ∀ choice op s, P s → P (m.perform choice op s).2) (hStart : P start.state) :
    P reached.state ∧ ∀ e, .event e ∈ trace → P e.before := by
  induction run with
  | start => exact ⟨hStart, by simp⟩
  | @step trace label config next move prior last ih =>
      obtain ⟨hPrior, hEvents⟩ := ih
      rcases step_cases last with ⟨request, state, -, hDelivered, rfl, rfl⟩ |
        ⟨thread, choice, request, events, op, following, -, rfl, rfl⟩ |
        ⟨thread, request, events, result, -, rfl, rfl⟩
      · refine ⟨hDeliver request _ _ hDelivered hPrior, fun e he => ?_⟩
        exact hEvents e (by simpa using he)
      · refine ⟨hPerform choice op _ hPrior, fun e he => ?_⟩
        rw [List.mem_append, List.mem_singleton] at he
        rcases he with he | he
        · exact hEvents e he
        · cases he
          exact hPrior
      · refine ⟨hPrior, fun e he => ?_⟩
        exact hEvents e (by simpa using he)

variable (m) in
/-- Code that ends in an allowed result through admissible operations, as long as each
of them meets a state in `P`. -/
def Steady {α : Type} (P : State → Prop) (admissible : Event S State Request → Prop)
    (allowed : α → Prop) (request : Request) : Program S α → Prop
  | .done result => allowed result
  | .call op next => ∀ choice state, P state → admissible (m.event choice request op state) ∧
      Steady P admissible allowed request (next (m.perform choice op state).1)

omit [DecidableEq Thread] in
theorem steady_of_yields {α : Type} {P : State → Prop} {allowed : α → Prop} {request : Request}
    {program : Program S α} (h : program.Yields allowed) :
    m.Steady P (fun _ => True) allowed request program := by
  induction program with
  | done result => exact h
  | call op next ih => exact fun choice state _ => ⟨trivial, ih _ (h _)⟩

omit [DecidableEq Thread] in
theorem Steady.mono {α : Type} {P : State → Prop} {admissible : Event S State Request → Prop}
    {allowed permitted : α → Prop} {request : Request} {program : Program S α}
    (h : m.Steady P admissible allowed request program)
    (hAllowed : ∀ result, allowed result → permitted result) :
    m.Steady P admissible permitted request program := by
  induction program with
  | done result => exact hAllowed result h
  | call op next ih =>
      intro choice state hState
      obtain ⟨hAdmissible, hNext⟩ := h choice state hState
      exact ⟨hAdmissible, ih _ hNext⟩

/-- What an idle thread does from a state on that no step leads out of. -/
theorem Runs.steady {P : State → Prop} {admissible : Event S State Request → Prop}
    {allowed : Request → Result → Prop} {thread : Thread} (run : m.Runs start trace reached)
    (hDeliver : ∀ request s s', m.deliver request s = some s' → P s → P s')
    (hPerform : ∀ choice op s, P s → P (m.perform choice op s).2) (hStart : P start.state)
    (hEntry : ∀ request s s', m.owner request = thread → P s → m.deliver request s = some s' →
      m.Steady P admissible
        (fun outcome => ∃ result, outcome = .inr result ∧ allowed request result) request
        (m.entry request))
    (hOwner : ∀ other a, start.active other = some a → m.owner a.request = other)
    (hIdle : start.active thread = none) :
    (∀ e, .event e ∈ trace → m.owner e.request = thread → admissible e) ∧
    (∀ call, .finished call ∈ trace → m.owner call.request = thread →
      allowed call.request call.result) ∧
    ∀ other a, reached.active other = some a → m.owner a.request = other ∧
      (other = thread → m.Steady P admissible
        (fun outcome => ∃ result, outcome = .inr result ∧ allowed a.request result) a.request
        a.rest) := by
  induction run with
  | start =>
      refine ⟨by simp, by simp, fun other a h => ⟨hOwner other a h, ?_⟩⟩
      rintro rfl
      rw [hIdle] at h
      cases h
  | @step trace label config next move prior last ih =>
      obtain ⟨hEvents, hFinished, hActive⟩ := ih
      have hState := (prior.keeps hDeliver hPerform hStart).1
      rcases step_cases last with ⟨request, state, -, hDelivered, rfl, rfl⟩ |
        ⟨acting, choice, request, events, op, following, hBusy, rfl, rfl⟩ |
        ⟨acting, request, events, result, hBusy, rfl, rfl⟩
      · refine ⟨by simpa using hEvents, by simpa using hFinished, fun other a h => ?_⟩
        rcases update_eq_some h with ⟨hOther, hHere⟩ | ⟨-, hHere⟩
        · cases hHere
          exact ⟨hOther.symm, fun hThread =>
            hEntry _ _ _ (hOther.symm.trans hThread) hState hDelivered⟩
        · exact hActive other a hHere
      · obtain ⟨hActing, hSteady⟩ := hActive _ _ hBusy
        refine ⟨fun e he hThread => ?_, by simpa using hFinished, fun other a h => ?_⟩
        · rw [List.mem_append, List.mem_singleton] at he
          rcases he with he | he
          · exact hEvents e he hThread
          · cases he
            exact (hSteady (hActing.symm.trans hThread) choice _ hState).1
        · rcases update_eq_some h with ⟨hOther, hHere⟩ | ⟨-, hHere⟩
          · cases hHere
            refine ⟨hActing.trans hOther.symm, fun hThread => ?_⟩
            have hRest := (hSteady (hOther.symm.trans hThread) choice _ hState).2
            cases hNext : following (m.perform choice op config.state).1 with
            | call op next =>
                rw [hNext] at hRest
                exact hRest
            | done outcome =>
                rw [hNext] at hRest
                obtain ⟨result, rfl, hAllowed⟩ := hRest
                exact ⟨result, rfl, hAllowed⟩
          · exact hActive other a hHere
      · obtain ⟨hActing, hSteady⟩ := hActive _ _ hBusy
        refine ⟨by simpa using hEvents, fun call hCall hThread => ?_, fun other a h => ?_⟩
        · rw [List.mem_append, List.mem_singleton] at hCall
          rcases hCall with hCall | hCall
          · exact hFinished call hCall hThread
          · cases hCall
            obtain ⟨_, hResult, hAllowed⟩ := hSteady (hActing.symm.trans hThread)
            cases hResult
            exact hAllowed
        · rcases update_eq_some h with ⟨-, hHere⟩ | ⟨-, hHere⟩
          · cases hHere
          · exact hActive other a hHere

end Segment

section Counting

/-- The events of a trace that are counted. -/
def counts (counted : Event S State Request → Bool) : Label S State Request Result → Bool
  | .event e => counted e
  | _ => false

/-- The starts of a trace that are counted. -/
def begins (allows : Request → Bool) : Label S State Request Result → Bool
  | .begun request => allows request
  | _ => false

omit [DecidableEq Thread] in
theorem countP_snoc {α : Type} (counted : α → Bool) (trace : List α) (label : α) :
    (trace ++ [label]).countP counted = trace.countP counted + (counted label).toNat := by
  rw [List.countP_append, List.countP_singleton]
  cases counted label <;> rfl

/-- A call of the thread in progress may still have its own event before it. -/
def Balanced (allows : Request → Bool) (counted : Event S State Request → Bool)
    (activity : Option (Activity S State Request Loop Result))
    (trace : List (Label S State Request Result)) : Prop :=
  match activity with
  | none => trace.countP (counts counted) ≤ trace.countP (begins allows)
  | some a => trace.countP (counts counted) + (allows a.request).toNat ≤
      trace.countP (begins allows) + a.events.countP counted

theorem Balanced.snoc {allows : Request → Bool} {counted : Event S State Request → Bool}
    {activity : Option (Activity S State Request Loop Result)}
    {trace : List (Label S State Request Result)} {label : Label S State Request Result}
    (h : Balanced allows counted activity trace) (hLabel : counts counted label = false) :
    Balanced allows counted activity (trace ++ [label]) := by
  cases activity with
  | none =>
      simp only [Balanced, countP_snoc, hLabel, Bool.toNat_false, Nat.add_zero]
      exact Nat.le_trans h (Nat.le_add_right _ _)
  | some a =>
      simp only [Balanced] at h
      simp only [Balanced, countP_snoc, hLabel, Bool.toNat_false, Nat.add_zero]
      omega

/-- A thread that counts at most one event in a request that allows for one, and none
in any other, counts no more events than there were such requests. -/
theorem Runs.balanced (t : m.Transcript) (thread : Thread) {allows : Request → Bool}
    {counted : Event S State Request → Bool}
    (hCount : ∀ request events rest, t.inv request events rest →
      events.countP counted ≤ (allows request).toNat)
    (hOwner : ∀ e, counted e = true → m.owner e.request = thread) {initial : State}
    {trace : List (Label S State Request Result)}
    {reached : Config S State Thread Request Loop Result}
    (run : m.Runs (Machine.initial initial) trace reached) :
    Balanced allows counted (reached.active thread) trace := by
  induction run with
  | start => exact Nat.le_refl 0
  | @step trace config next label move prior last ih =>
      have hActive := (t.sound prior).1
      rcases step_cases last with ⟨request, state, hFree, -, rfl, rfl⟩ |
        ⟨acting, choice, request, events, op, following, hBusy, rfl, rfl⟩ |
        ⟨acting, request, events, result, hBusy, rfl, rfl⟩
      · by_cases hThread : thread = m.owner request
        · subst hThread
          rw [hFree] at ih
          simp only [Balanced] at ih
          simp only [Function.update_self, Balanced, countP_snoc, counts, begins, List.countP_nil,
            Bool.toNat_false, Nat.add_zero]
          omega
        · simp only [Function.update_of_ne hThread]
          exact Balanced.snoc ih rfl
      · obtain ⟨hActing, -⟩ := hActive acting _ hBusy
        by_cases hThread : thread = acting
        · subst hThread
          rw [hBusy] at ih
          simp only [Balanced] at ih
          simp only [Function.update_self, Balanced, countP_snoc, counts, begins, Bool.toNat_false,
            Nat.add_zero]
          omega
        · have hSilent : counted (m.event choice request op next.state) = false := by
            rw [← Bool.not_eq_true]
            intro hCounted
            exact hThread ((hOwner _ hCounted).symm.trans hActing)
          simp only [Function.update_of_ne hThread]
          exact Balanced.snoc ih hSilent
      · obtain ⟨hActing, hInv⟩ := hActive acting _ hBusy
        by_cases hThread : thread = acting
        · subst hThread
          rw [hBusy] at ih
          have hMost := hCount request events _ hInv
          simp only [Balanced] at ih
          simp only [Function.update_self, Balanced, countP_snoc, counts, begins, Bool.toNat_false,
            Nat.add_zero]
          omega
        · simp only [Function.update_of_ne hThread]
          exact Balanced.snoc ih rfl

theorem Runs.countP_le (t : m.Transcript) (thread : Thread) {allows : Request → Bool}
    {counted : Event S State Request → Bool}
    (hCount : ∀ request events rest, t.inv request events rest →
      events.countP counted ≤ (allows request).toNat)
    (hOwner : ∀ e, counted e = true → m.owner e.request = thread) {initial : State}
    {trace : List (Label S State Request Result)}
    {reached : Config S State Thread Request Loop Result}
    (run : m.Runs (Machine.initial initial) trace reached) :
    trace.countP (counts counted) ≤ trace.countP (begins allows) := by
  have hBalanced := run.balanced t thread hCount hOwner
  cases hEntry : reached.active thread with
  | none =>
      rw [hEntry] at hBalanced
      exact hBalanced
  | some a =>
      rw [hEntry] at hBalanced
      have hMost := hCount a.request a.events a.rest ((t.sound run).1 thread a hEntry).2
      simp only [Balanced] at hBalanced
      omega

end Counting

end Machine
end Concurrency
