import Mathlib.Data.List.Flatten
import MsQuicH3.Concurrency.Focus

/-! The history of one thread, call by call. What the operations of a thread note in
a trace is what its calls noted, in order, followed by the call in progress; and
what a call noted is decided by its code alone. -/
namespace Concurrency

variable {S : Signature} {α β γ : Type}

namespace Program

/-- Along every path whose replies are admissible, the code ends with notes and a
result in `P`. -/
def Ends (allows : (op : S.Op) → S.Reply op → Prop) (note : (op : S.Op) → S.Reply op → List γ)
    (P : List γ → α → Prop) : List γ → Program S α → Prop
  | notes, .done result => P notes result
  | notes, .call op next => ∀ reply, allows op reply →
      (next reply).Ends allows note P (notes ++ note op reply)

section Ends

variable {allows : (op : S.Op) → S.Reply op → Prop} {note : (op : S.Op) → S.Reply op → List γ}
  {notes : List γ}

theorem Ends.mono {P Q : List γ → α → Prop} {program : Program S α}
    (h : program.Ends allows note P notes) (hPQ : ∀ notes result, P notes result → Q notes result) :
    program.Ends allows note Q notes := by
  induction program generalizing notes with
  | done result => exact hPQ notes result h
  | call op next ih => exact fun reply hReply => ih reply (h reply hReply)

theorem Ends.bind {P : List γ → β → Prop} {program : Program S α} {f : α → Program S β}
    (h : program.Ends allows note (fun notes result => (f result).Ends allows note P notes) notes) :
    (program >>= f).Ends allows note P notes := by
  induction program generalizing notes with
  | done result => exact h
  | call op next ih => exact fun reply hReply => ih reply (h reply hReply)

/-- Code that notes nothing. -/
theorem ends_of_uses {P : List γ → α → Prop} {program : Program S α}
    (h : program.Uses fun op => ∀ reply, note op reply = []) (hResult : program.Yields (P notes)) :
    program.Ends allows note P notes := by
  induction program with
  | done result => exact hResult
  | call op next ih =>
      intro reply _
      rw [h.1 reply, List.append_nil]
      exact ih reply (h.2 reply) (hResult reply)

/-- A takeover that is not admissible does not happen. -/
theorem Ends.guarded {P : List γ → α → Prop} {ask : Nat → Program S Bool}
    {recover body : Program S α} (h : body.Ends allows note P notes)
    (hAsk : ∀ k notes (next : Bool → Program S α), (next false).Ends allows note P notes →
      (ask k >>= next).Ends allows note P notes) (k : Nat) :
    (Program.guarded ask recover k body).Ends allows note P notes := by
  induction body generalizing notes k with
  | done result => exact hAsk k notes _ h
  | call op next ih =>
      apply hAsk
      exact fun reply hReply => ih reply (h reply hReply) (k + 1)

/-- As `Ends`, for a body whose account `tracks` ties to its notes at every point. -/
def Follows {σ : Type} (keeps : σ → (op : S.Op) → S.Reply op → σ)
    (allows : (op : S.Op) → S.Reply op → Prop) (note : (op : S.Op) → S.Reply op → List γ)
    (tracks : σ → List γ → Prop) (P : List γ → α → Prop) : σ → List γ → Program S α → Prop
  | _, notes, .done result => P notes result
  | owned, notes, .call op next => ∀ reply, allows op reply →
      tracks (keeps owned op reply) (notes ++ note op reply) ∧
        (next reply).Follows keeps allows note tracks P (keeps owned op reply)
          (notes ++ note op reply)

/-- A handler takes over with what the account says of the notes so far. -/
theorem Ends.guardedWith {σ : Type} {keeps : σ → (op : S.Op) → S.Reply op → σ}
    {tracks : σ → List γ → Prop} {P : List γ → α → Prop} {ask : Nat → Program S Bool}
    {recover : σ → Program S α} {body : Program S α} {owned : σ}
    (hAsk : ∀ k notes (next : Bool → Program S α),
      (∀ struck, (next struck).Ends allows note P notes) → (ask k >>= next).Ends allows note P notes)
    (hRecover : ∀ owned notes, tracks owned notes → (recover owned).Ends allows note P notes)
    (hBody : body.Follows keeps allows note tracks P owned notes) (k : Nat)
    (hStart : tracks owned notes) :
    (Program.guardedWith keeps ask recover k owned body).Ends allows note P notes := by
  induction body generalizing owned notes k with
  | done result =>
      apply hAsk
      intro struck
      cases struck with
      | true => exact hRecover owned notes hStart
      | false => exact hBody
  | call op next ih =>
      apply hAsk
      intro struck
      cases struck with
      | true => exact hRecover owned notes hStart
      | false =>
          intro reply hReply
          obtain ⟨hTracks, hNext⟩ := hBody reply hReply
          exact ih reply hNext (k + 1) hTracks

end Ends
end Program

namespace Machine

variable {State Choice Thread Request Loop Result : Type}
  {m : Machine S State Choice Thread Request Loop Result}

/-- What the calls of some requests note when all their replies are admissible. The
code of these requests does not loop. -/
def endsTranscript (scope : Request → Prop) (allows : (op : S.Op) → S.Reply op → Prop)
    (note : (op : S.Op) → S.Reply op → List γ) (P : Request → List γ → Result → Prop)
    (hEntry : ∀ request, scope request → (m.entry request).Ends allows note
      (fun notes outcome => ∃ result, outcome = .inr result ∧ P request notes result) []) :
    m.Transcript where
  inv request events rest := scope request → (∀ e ∈ events, allows e.op e.reply) →
    rest.Ends allows note
      (fun notes outcome => ∃ result, outcome = .inr result ∧ P request notes result)
      (events.flatMap fun e => note e.op e.reply)
  entry request hScope _ := hEntry request hScope
  event request events op next choice state h hScope hAllows := by
    have hLast := hAllows (m.event choice request op state)
      (List.mem_append_right _ (List.mem_singleton_self _))
    have hEnds := h hScope fun e he => hAllows e (List.mem_append_left _ he)
    rw [List.flatMap_append, List.flatMap_singleton]
    exact hEnds _ hLast
  again request events loop h hScope hAllows := by
    obtain ⟨result, hResult, -⟩ := h hScope hAllows
    cases hResult

/-- In every call an operation in `after` comes behind one in `before`. -/
def precededTranscript {before after : S.Op → Prop}
    (hEntry : ∀ request, (m.entry request).Preceded before after)
    (hBody : ∀ request loop, (m.body request loop).Preceded before after) : m.Transcript where
  inv _ events rest := (∃ e ∈ events, before e.op) ∨
    (∀ e ∈ events, ¬after e.op) ∧ rest.Preceded before after
  entry request := .inr ⟨by simp, hEntry request⟩
  event request events op next choice state h := by
    rcases h with ⟨e, he, hBefore⟩ | ⟨hNone, hOp, hRest⟩
    · exact .inl ⟨e, List.mem_append_left _ he, hBefore⟩
    · rcases hRest with hHere | hLater
      · exact .inl ⟨_, List.mem_append_right _ (List.mem_singleton_self _), hHere⟩
      · refine .inr ⟨fun e he => ?_, hLater _⟩
        rw [List.mem_append, List.mem_singleton] at he
        rcases he with he | rfl
        · exact hNone e he
        · exact hOp
  again request events loop h := by
    rcases h with hSome | ⟨hNone, -⟩
    · exact .inl hSome
    · exact .inr ⟨hNone, hBody request loop⟩

/-- No call issues more counted operations than its request allows for. -/
def atMostTranscript (counted : S.Op → Bool) (allows : Request → Bool)
    (hEntry : ∀ request, (m.entry request).AtMost counted (allows request).toNat)
    (hBody : ∀ request loop, (m.body request loop).AtMost counted 0) : m.Transcript where
  inv request events rest := ∃ n, rest.AtMost counted n ∧
    events.countP (fun e => counted e.op) + n ≤ (allows request).toNat
  entry request := ⟨_, hEntry request, Nat.le_of_eq (Nat.zero_add _)⟩
  event request events op next choice state h := by
    obtain ⟨n, ⟨hPos, hNext⟩, hCount⟩ := h
    refine ⟨_, hNext _, ?_⟩
    rw [List.countP_append, List.countP_singleton]
    cases hOp : counted op with
    | false =>
        simp only [event_op, hOp, Bool.toNat_false]
        exact hCount
    | true =>
        have hLeft := hPos hOp
        simp only [event_op, hOp, Bool.toNat_true, ↓reduceIte]
        omega
  again request events loop h := by
    obtain ⟨n, -, hCount⟩ := h
    exact ⟨0, hBody request loop, by omega⟩

variable [DecidableEq Thread]

/-- The operations of a call stand in the trace in their order. -/
theorem Runs.events_sublist {initial : State} {trace : List (Label S State Request Result)}
    {reached : Config S State Thread Request Loop Result}
    (run : m.Runs (Machine.initial initial) trace reached) :
    (∀ thread a, reached.active thread = some a → (a.events.map Label.event).Sublist trace) ∧
    ∀ call, .finished call ∈ trace → (call.events.map Label.event).Sublist trace := by
  induction run with
  | start => exact ⟨fun _ _ h => by simp [Machine.initial] at h, fun _ h => by simp at h⟩
  | @step trace label config next move prior last ih =>
      obtain ⟨hActive, hFinished⟩ := ih
      have hGrow : ∀ events : List (Event S State Request),
          (events.map Label.event).Sublist trace →
          (events.map Label.event).Sublist (trace ++ [label]) :=
        fun events h => h.trans (List.sublist_append_left _ _)
      rcases step_cases last with ⟨request, state, -, -, rfl, rfl⟩ |
        ⟨acting, choice, request, events, op, following, hBusy, rfl, rfl⟩ |
        ⟨acting, request, events, result, hBusy, rfl, rfl⟩
      · refine ⟨fun other a h => ?_, fun call h => hGrow _ (hFinished call (by simpa using h))⟩
        rcases update_eq_some h with ⟨-, hHere⟩ | ⟨-, hHere⟩
        · cases hHere
          exact List.nil_sublist _
        · exact hGrow _ (hActive other a hHere)
      · refine ⟨fun other a h => ?_, fun call h => hGrow _ (hFinished call (by simpa using h))⟩
        rcases update_eq_some h with ⟨-, hHere⟩ | ⟨-, hHere⟩
        · cases hHere
          rw [List.map_append, List.map_singleton]
          exact (hActive _ _ hBusy).append (List.Sublist.refl _)
        · exact hGrow _ (hActive other a hHere)
      · refine ⟨fun other a h => ?_, fun call h => ?_⟩
        · rcases update_eq_some h with ⟨-, hHere⟩ | ⟨-, hHere⟩
          · cases hHere
          · exact hGrow _ (hActive other a hHere)
        · rw [List.mem_append, List.mem_singleton] at h
          rcases h with h | h
          · exact hGrow _ (hFinished call h)
          · cases h
            exact hGrow _ (hActive _ _ hBusy)

theorem Runs.preceded {before after : S.Op → Prop}
    (hEntry : ∀ request, (m.entry request).Preceded before after)
    (hBody : ∀ request loop, (m.body request loop).Preceded before after)
    {initial : State} {trace : List (Label S State Request Result)}
    {reached : Config S State Thread Request Loop Result}
    (run : m.Runs (Machine.initial initial) trace reached) {e : Event S State Request}
    (he : .event e ∈ trace) (hAfter : after e.op) :
    ∃ first, .event first ∈ trace ∧ before first.op := by
  obtain ⟨hActive, hFinished⟩ := run.call_events
  obtain ⟨hCodes, hCalls⟩ := (precededTranscript hEntry hBody).sound run
  rcases run.event_cases he with ⟨call, hCall, hMem⟩ | ⟨thread, a, hEntry, hMem⟩
  · rcases hCalls call hCall with ⟨first, hFirst, hBefore⟩ | ⟨hNone, -⟩
    · exact ⟨first, (hFinished call hCall first hFirst).2, hBefore⟩
    · exact absurd hAfter (hNone e hMem)
  · rcases (hCodes thread a hEntry).2 with ⟨first, hFirst, hBefore⟩ | ⟨hNone, -⟩
    · exact ⟨first, ((hActive thread a hEntry).2 first hFirst).2, hBefore⟩
    · exact absurd hAfter (hNone e hMem)

variable (m) in
/-- The finished calls of one thread, in order. -/
def callsOf (thread : Thread) (trace : List (Label S State Request Result)) :
    List (Completed S State Request Result) :=
  trace.filterMap fun
    | .finished call => if m.owner call.request = thread then some call else none
    | _ => none

/-- The operations so far of the call a thread has in progress. -/
def inProgress (thread : Thread) (config : Config S State Thread Request Loop Result) :
    List (Event S State Request) :=
  match config.active thread with
  | some a => a.events
  | none => []

def noted (note : Event S State Request → List γ) : Label S State Request Result → List γ
  | .event e => note e
  | _ => []

variable {thread : Thread} {note : Event S State Request → List γ}

theorem callsOf_snoc (trace : List (Label S State Request Result))
    (label : Label S State Request Result) :
    m.callsOf thread (trace ++ [label]) = m.callsOf thread trace ++ m.callsOf thread [label] :=
  List.filterMap_append ..

omit [DecidableEq Thread] in
theorem noted_snoc (trace : List (Label S State Request Result))
    (label : Label S State Request Result) :
    (trace ++ [label]).flatMap (noted note) = trace.flatMap (noted note) ++ noted note label := by
  rw [List.flatMap_append, List.flatMap_singleton]

/-- What one thread alone notes in a trace is what its calls noted one by one. -/
theorem Runs.notes_by_call {initial : State} {trace : List (Label S State Request Result)}
    {reached : Config S State Thread Request Loop Result}
    (run : m.Runs (Machine.initial initial) trace reached)
    (hForeign : ∀ e, .event e ∈ trace → m.owner e.request ≠ thread → note e = []) :
    trace.flatMap (noted note) =
      (m.callsOf thread trace).flatMap (fun call => call.events.flatMap note) ++
        (inProgress thread reached).flatMap note := by
  induction run with
  | start => rfl
  | @step trace label config next move prior last ih =>
      have hTrace := ih fun e he => hForeign e (List.mem_append_left _ he)
      have hActive := (Runs.call_events prior).1
      rw [noted_snoc, callsOf_snoc, List.flatMap_append, hTrace]
      rcases step_cases last with ⟨request, state, hFree, -, rfl, rfl⟩ |
        ⟨acting, choice, request, events, op, following, hBusy, rfl, rfl⟩ |
        ⟨acting, request, events, result, hBusy, rfl, rfl⟩
      · have hSame : inProgress thread ⟨state, Function.update config.active (m.owner request)
            (some ⟨request, [], m.entry request⟩)⟩ = inProgress thread config := by
          by_cases hThread : thread = m.owner request
          · subst hThread
            simp only [inProgress, Function.update_self, hFree]
          · simp only [inProgress, Function.update_of_ne hThread]
        rw [hSame]
        simp [callsOf, noted]
      · have hOwner := (hActive acting _ hBusy).1
        by_cases hThread : thread = acting
        · subst hThread
          simp only [inProgress, Function.update_self, hBusy]
          simp [callsOf, noted, List.append_assoc]
        · have hSilent : note (m.event choice request op config.state) = [] := by
            apply hForeign _ (List.mem_append_right _ (List.mem_singleton_self _))
            intro hOwn
            exact hThread (hOwn.symm.trans hOwner)
          simp only [inProgress, Function.update_of_ne hThread]
          simp [callsOf, noted, hSilent]
      · have hOwner := (hActive acting _ hBusy).1
        by_cases hThread : thread = acting
        · subst hThread
          simp only [inProgress, Function.update_self, hBusy]
          have hCall : m.callsOf thread [.finished ⟨request, events, result⟩] =
              [⟨request, events, result⟩] := by simp [callsOf, hOwner]
          simp [hCall, noted]
        · have hCall : m.callsOf thread [.finished ⟨request, events, result⟩] = [] := by
            have hOther : m.owner request ≠ thread := fun hOwn => hThread (hOwn.symm.trans hOwner)
            simp [callsOf, hOther]
          simp only [inProgress, Function.update_of_ne hThread]
          simp [hCall, noted]

theorem mem_callsOf {trace : List (Label S State Request Result)}
    {call : Completed S State Request Result} :
    call ∈ m.callsOf thread trace ↔ .finished call ∈ trace ∧ m.owner call.request = thread := by
  simp only [callsOf, List.mem_filterMap]
  constructor
  · rintro ⟨label, hMem, hLabel⟩
    cases label with
    | finished other =>
        simp only [Option.ite_none_right_eq_some, Option.some.injEq] at hLabel
        obtain ⟨hOwner, rfl⟩ := hLabel
        exact ⟨hMem, hOwner⟩
    | _ => cases hLabel
  · rintro ⟨hMem, hOwner⟩
    exact ⟨_, hMem, if_pos hOwner⟩

variable (m) in
/-- The requests one thread began to serve, in order. -/
def begunBy (thread : Thread) (trace : List (Label S State Request Result)) : List Request :=
  trace.filterMap fun
    | .begun request => if m.owner request = thread then some request else none
    | _ => none

theorem begunBy_snoc (trace : List (Label S State Request Result))
    (label : Label S State Request Result) :
    m.begunBy thread (trace ++ [label]) = m.begunBy thread trace ++ m.begunBy thread [label] :=
  List.filterMap_append ..

/-- A thread serves its requests one after the other. -/
theorem Runs.begun_by_call {initial : State} {trace : List (Label S State Request Result)}
    {reached : Config S State Thread Request Loop Result}
    (run : m.Runs (Machine.initial initial) trace reached) :
    m.begunBy thread trace = (m.callsOf thread trace).map Completed.request ++
      ((reached.active thread).map Activity.request).toList := by
  induction run with
  | start => rfl
  | @step trace label config next move prior last ih =>
      have hActive := (Runs.call_events prior).1
      rw [begunBy_snoc, callsOf_snoc, List.map_append, ih]
      rcases step_cases last with ⟨request, state, hFree, -, rfl, rfl⟩ |
        ⟨acting, choice, request, events, op, following, hBusy, rfl, rfl⟩ |
        ⟨acting, request, events, result, hBusy, rfl, rfl⟩
      · by_cases hThread : thread = m.owner request
        · subst hThread
          simp [begunBy, callsOf, hFree]
        · have hOther : m.owner request ≠ thread := fun hOwn => hThread hOwn.symm
          simp [begunBy, callsOf, hOther, Function.update_of_ne hThread]
      · by_cases hThread : thread = acting
        · subst hThread
          simp [begunBy, callsOf, hBusy]
        · simp [begunBy, callsOf, Function.update_of_ne hThread]
      · have hOwner := (hActive acting _ hBusy).1
        by_cases hThread : thread = acting
        · subst hThread
          have hHere : m.owner request = thread := hOwner
          simp [begunBy, callsOf, hBusy, hHere]
        · have hOther : m.owner request ≠ thread := fun hOwn => hThread (hOwn.symm.trans hOwner)
          simp [begunBy, callsOf, hOther, Function.update_of_ne hThread]

/-- A request that is being served was begun. -/
theorem Runs.begun_of_active {initial : State} {trace : List (Label S State Request Result)}
    {reached : Config S State Thread Request Loop Result}
    (run : m.Runs (Machine.initial initial) trace reached) {a : Activity S State Request Loop Result}
    (hActive : reached.active thread = some a) :
    m.owner a.request = thread ∧ .begun a.request ∈ trace := by
  have hServed : a.request ∈ m.begunBy thread trace := by
    rw [run.begun_by_call, hActive]
    simp
  obtain ⟨label, hMem, hLabel⟩ := List.mem_filterMap.1 hServed
  cases label with
  | begun request =>
      simp only [Option.ite_none_right_eq_some, Option.some.injEq] at hLabel
      obtain ⟨hOwner, rfl⟩ := hLabel
      exact ⟨hOwner, hMem⟩
  | _ => cases hLabel

/-- If no call notes more than is due to its request, a trace notes no more than is due
to the requests of the thread, in their order. -/
theorem Runs.notes_sublist {initial : State} {trace : List (Label S State Request Result)}
    {reached : Config S State Thread Request Loop Result}
    (run : m.Runs (Machine.initial initial) trace reached) (due : Request → List γ)
    (hForeign : ∀ e, .event e ∈ trace → m.owner e.request ≠ thread → note e = [])
    (hCall : ∀ call, .finished call ∈ trace → (call.events.flatMap note).Sublist (due call.request))
    (hActive : ∀ a, reached.active thread = some a →
      (a.events.flatMap note).Sublist (due a.request)) :
    (trace.flatMap (noted note)).Sublist ((m.begunBy thread trace).flatMap due) := by
  rw [run.notes_by_call hForeign, run.begun_by_call, List.flatMap_append, List.flatMap_map]
  apply List.Sublist.append
  · apply List.Sublist.flatMap_right
    intro call hMem
    exact hCall call (mem_callsOf.1 hMem).1
  · cases hEntry : reached.active thread with
    | none => simp [inProgress, hEntry]
    | some a => simpa [inProgress, hEntry] using hActive a hEntry

/-- Every operation of a run is one its request may issue. -/
theorem Runs.permitted {permits : Request → S.Op → Prop}
    (uses_entry : ∀ request, (m.entry request).Uses (permits request))
    (uses_body : ∀ request loop, (m.body request loop).Uses (permits request))
    {initial : State} {trace : List (Label S State Request Result)}
    {reached : Config S State Thread Request Loop Result}
    (run : m.Runs (Machine.initial initial) trace reached) {e : Event S State Request}
    (h : .event e ∈ trace) : permits e.request e.op := by
  have hKept : m.Kept permits fun w : World S State Request Result =>
      ∀ e, .event e ∈ w.trace → permits e.request e.op := by
    constructor
    · intro w request state _ hBefore e he
      simp only [World.after_trace, List.mem_append, List.mem_singleton, reduceCtorEq, or_false] at he
      exact hBefore e he
    · intro w request op choice hPermits hBefore e he
      simp only [advance_trace, List.mem_append, List.mem_singleton, Label.event.injEq] at he
      rcases he with he | rfl
      · exact hBefore e he
      · exact hPermits
    · intro w call hBefore e he
      simp only [World.after_trace, List.mem_append, List.mem_singleton, reduceCtorEq, or_false] at he
      exact hBefore e he
  refine hKept.holds uses_entry uses_body run ?_ e h
  intro e he
  exact absurd he List.not_mem_nil

end Machine
end Concurrency
