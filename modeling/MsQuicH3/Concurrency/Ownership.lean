import Mathlib.Algebra.BigOperators.Finprod
import Mathlib.Algebra.Group.Submonoid.Defs
import MsQuicH3.Concurrency.Logic

/-! Ownership in a machine. What a call has in hand is an element of a commutative monoid.
What is in hand of all the calls in progress and what the shared state stores add up to a
total; an operation trades its own share and leaves the rest of the total alone. -/
namespace Concurrency

variable {S : Signature} {M α β σ : Type}

/-- How operations trade what is in hand: what one takes, the replies that are possible
with it, and what each reply leaves. -/
structure Discipline (S : Signature) (M : Type) where
  takes : S.Op → M → Prop
  possible : (op : S.Op) → S.Reply op → M → Prop
  keeps : M → (op : S.Op) → S.Reply op → M

/-- An operation that may be issued wherever `P` holds of what is in hand, and keeps it. -/
def Discipline.Keeps (d : Discipline S M) (P : M → Prop) (op : S.Op) : Prop :=
  ∀ held, P held → d.takes op held ∧ ∀ reply, P (d.keeps held op reply)

/-- What is in hand after some operations. -/
def Discipline.hold {State Request : Type} (d : Discipline S M) (held : M)
    (events : List (Event S State Request)) : M :=
  events.foldl (fun held e => d.keeps held e.op e.reply) held

namespace Program

variable {d : Discipline S M} {P Q : M → α → Prop} {held : M}

/-- Code that has `held` in hand issues every operation with what it takes, and ends in `P`. -/
def Affords (d : Discipline S M) (P : M → α → Prop) : M → Program S α → Prop
  | held, .done result => P held result
  | held, .call op next => d.takes op held ∧ ∀ reply, d.possible op reply held →
      (next reply).Affords d P (d.keeps held op reply)

theorem Affords.mono {program : Program S α} (h : program.Affords d P held)
    (hPQ : ∀ held result, P held result → Q held result) : program.Affords d Q held := by
  induction program generalizing held with
  | done result => exact hPQ held result h
  | call op next ih => exact ⟨h.1, fun reply hReply => ih reply (h.2 reply hReply)⟩

theorem Affords.bind {P : M → β → Prop} {program : Program S α} {f : α → Program S β}
    (h : program.Affords d (fun held result => (f result).Affords d P held) held) :
    (program >>= f).Affords d P held := by
  induction program generalizing held with
  | done result => exact h
  | call op next ih => exact ⟨h.1, fun reply hReply => ih reply (h.2 reply hReply)⟩

/-- Code that keeps what is in hand within `I`. -/
theorem affords_of_uses {I : M → Prop} {program : Program S α} (h : program.Uses (d.Keeps I))
    (hStart : I held) (hResult : program.Yields fun result => ∀ held, I held → P held result) :
    program.Affords d P held := by
  induction program generalizing held with
  | done result => exact hResult held hStart
  | call op next ih =>
      obtain ⟨hTakes, hKeeps⟩ := h.1 held hStart
      exact ⟨hTakes, fun reply _ => ih reply (h.2 reply) (hKeeps reply) (hResult reply)⟩

/-- As `Affords`, for a body whose account `tracks` ties to what is in hand at every point. -/
def Carries (d : Discipline S M) (keeps : σ → (op : S.Op) → S.Reply op → σ)
    (tracks : σ → M → Prop) (P : M → α → Prop) : σ → M → Program S α → Prop
  | _, held, .done result => P held result
  | owned, held, .call op next => d.takes op held ∧ ∀ reply, d.possible op reply held →
      tracks (keeps owned op reply) (d.keeps held op reply) ∧
        (next reply).Carries d keeps tracks P (keeps owned op reply) (d.keeps held op reply)

/-- A handler takes over with what the account says is in hand, and the mark of `hit`. -/
theorem Affords.guardedWith {keeps : σ → (op : S.Op) → S.Reply op → σ} {tracks : σ → M → Prop}
    {hit : M → M} {ask : Nat → Program S Bool} {recover : σ → Program S α} {body : Program S α}
    {owned : σ}
    (hAsk : ∀ k held (next : Bool → Program S α), (next false).Affords d P held →
      (next true).Affords d P (hit held) → (ask k >>= next).Affords d P held)
    (hRecover : ∀ owned held, tracks owned held → (recover owned).Affords d P (hit held))
    (hBody : body.Carries d keeps tracks P owned held) (k : Nat) (hStart : tracks owned held) :
    (Program.guardedWith keeps ask recover k owned body).Affords d P held := by
  induction body generalizing owned held k with
  | done result => exact hAsk k held _ hBody (hRecover owned held hStart)
  | call op next ih =>
      apply hAsk k held _ _ (hRecover owned held hStart)
      refine ⟨hBody.1, fun reply hReply => ?_⟩
      obtain ⟨hTracks, hNext⟩ := hBody.2 reply hReply
      exact ih reply hNext (k + 1) hTracks

end Program

/-- One term of a finite sum beside all the others. -/
theorem finsum_eq_add_update {ι : Type} [DecidableEq ι] [AddCommMonoid M] {f : ι → M}
    (hFinite : f.support.Finite) (i : ι) :
    ∑ᶠ j, f j = f i + ∑ᶠ j, Function.update f i 0 j := by
  have hAll : f.support ⊆ (insert i hFinite.toFinset : Finset ι) := by simp
  have hOthers : (Function.update f i 0).support ⊆ (insert i hFinite.toFinset : Finset ι) := by
    intro j hj
    by_cases hSame : j = i
    · simp [hSame]
    · exact hAll (by simpa [Function.update_of_ne hSame] using hj)
  rw [finsum_eq_sum_of_support_subset f hAll, finsum_eq_sum_of_support_subset _ hOthers,
    ← Finset.add_sum_erase _ f (Finset.mem_insert_self i _),
    ← Finset.add_sum_erase _ (Function.update f i 0) (Finset.mem_insert_self i _),
    Function.update_self, zero_add]
  congr 1
  apply Finset.sum_congr rfl
  intro j hj
  exact (Function.update_of_ne (Finset.ne_of_mem_erase hj) 0 f).symm

namespace Machine

variable {State Choice Thread Request Loop Result : Type}

/-- `start` is what a request brings along and `stored` what the shared state holds;
`valid` says what a total has to do with the world. Every share is in `shares`. -/
structure Ledger (m : Machine S State Choice Thread Request Loop Result) (M : Type)
    [AddCommMonoid M] where
  discipline : Discipline S M
  shares : AddSubmonoid M
  start : Request → M
  stored : World S State Request Result → M
  valid : World S State Request Result → M → Prop
  looped : Request → Loop → M → Prop
  post : Request → M → Result → Prop
  start_mem : ∀ request, start request ∈ shares
  stored_mem : ∀ w, stored w ∈ shares
  keeps_mem : ∀ held op reply, held ∈ shares → discipline.takes op held →
    discipline.possible op reply held → discipline.keeps held op reply ∈ shares
  entry : ∀ request s s', m.deliver request s = some s' → (m.entry request).Affords discipline
    (fun held => Sum.elim (fun loop => looped request loop held) (post request held))
    (start request)
  body : ∀ request loop held, looped request loop held → (m.body request loop).Affords discipline
    (fun held => Sum.elim (fun loop => looped request loop held) (post request held)) held
  begun : ∀ w request state frame, m.deliver request w.state = some state → frame ∈ shares →
    valid w (stored w + frame) →
    valid (w.after (.begun request) state)
      (stored (w.after (.begun request) state) + (start request + frame))
  event : ∀ w request op choice held frame, held ∈ shares → frame ∈ shares →
    discipline.takes op held → valid w (stored w + (held + frame)) →
    discipline.possible op (m.perform choice op w.state).1 held ∧
      valid (m.advance choice request op w) (stored (m.advance choice request op w) +
        (discipline.keeps held op (m.perform choice op w.state).1 + frame))
  finished : ∀ w call frame, frame ∈ shares →
    post call.request (discipline.hold (start call.request) call.events) call.result →
    valid w (stored w + (discipline.hold (start call.request) call.events + frame)) →
    valid (w.after (.finished call) w.state) (stored (w.after (.finished call) w.state) + frame)

namespace Ledger

variable [AddCommMonoid M] {m : Machine S State Choice Thread Request Loop Result}
  (l : m.Ledger M)

/-- What a call has in hand after its operations so far. -/
def hold (request : Request) (events : List (Event S State Request)) : M :=
  l.discipline.hold (l.start request) events

theorem hold_snoc (request : Request) (events : List (Event S State Request))
    (e : Event S State Request) : l.hold request (events ++ [e]) =
      l.discipline.keeps (l.hold request events) e.op e.reply := by
  simp [hold, Discipline.hold]

def handOf (activity : Option (Activity S State Request Loop Result)) : M :=
  match activity with
  | none => 0
  | some a => l.hold a.request a.events

/-- What every thread has in hand. -/
def hands (config : Config S State Thread Request Loop Result) (thread : Thread) : M :=
  l.handOf (config.active thread)

/-- What all the calls in progress have in hand. -/
noncomputable def inHand (config : Config S State Thread Request Loop Result) : M :=
  ∑ᶠ thread, l.hands config thread

/-- How code of a request ends. -/
def Ending (request : Request) (held : M) : Loop ⊕ Result → Prop :=
  Sum.elim (fun loop => l.looped request loop held) (l.post request held)

/-- An operation of a run that was issued with `held` in hand, and `frame` in the hands of all
the others. -/
structure Issued (earlier : List (Label S State Request Result)) (e : Event S State Request)
    (held frame : M) : Prop where
  held_mem : held ∈ l.shares
  frame_mem : frame ∈ l.shares
  takes : l.discipline.takes e.op held
  possible : l.discipline.possible e.op e.reply held
  valid : l.valid ⟨e.before, earlier⟩ (l.stored ⟨e.before, earlier⟩ + (held + frame))

/-- The operations of a call in a trace, each issued with what those before it left. -/
inductive Taken (trace : List (Label S State Request Result)) (request : Request) :
    List (Event S State Request) → Prop
  | nil : Taken trace request []
  | snoc {events : List (Event S State Request)} {e : Event S State Request}
      {earlier later : List (Label S State Request Result)} {frame : M}
      (prior : Taken trace request events) (own : e.request = request)
      (place : trace = earlier ++ .event e :: later)
      (issued : l.Issued earlier e (l.hold request events) frame) : Taken trace request (events ++ [e])

variable {l} in
theorem Taken.grow {trace : List (Label S State Request Result)} {request : Request}
    {events : List (Event S State Request)} (h : l.Taken trace request events)
    (further : List (Label S State Request Result)) : l.Taken (trace ++ further) request events := by
  induction h with
  | nil => exact .nil
  | @snoc events e earlier later frame prior own place issued ih =>
      have hPlace : trace ++ further = earlier ++ .event e :: (later ++ further) := by
        rw [place, List.append_assoc, List.cons_append]
      exact ih.snoc own hPlace issued

/-- A call in progress took what its operations needed, and affords the code that is left. -/
structure Sound (trace : List (Label S State Request Result))
    (a : Activity S State Request Loop Result) : Prop where
  shares : l.hold a.request a.events ∈ l.shares
  taken : l.Taken trace a.request a.events
  rest : a.rest.Affords l.discipline (l.Ending a.request) (l.hold a.request a.events)

variable {l} in
theorem Sound.grow {trace : List (Label S State Request Result)}
    {a : Activity S State Request Loop Result} (h : l.Sound trace a)
    (further : List (Label S State Request Result)) : l.Sound (trace ++ further) a :=
  ⟨h.shares, h.taken.grow further, h.rest⟩

theorem sound_resume {request : Request} {events : List (Event S State Request)}
    {rest : Program S (Loop ⊕ Result)}
    (h : rest.Affords l.discipline (l.Ending request) (l.hold request events)) :
    (m.resume request rest).Affords l.discipline (l.Ending request) (l.hold request events) := by
  cases rest with
  | call op next => exact h
  | done outcome =>
      cases outcome with
      | inl loop => exact l.body request loop _ h
      | inr result => exact h

variable [DecidableEq Thread]

/-- What all the other threads have in hand. -/
noncomputable def others (config : Config S State Thread Request Loop Result) (thread : Thread) : M :=
  ∑ᶠ other, Function.update (l.hands config) thread 0 other

/-- A point of a run as the ledger has it. -/
structure Balanced (trace : List (Label S State Request Result))
    (config : Config S State Thread Request Loop Result) : Prop where
  total : l.valid ⟨config.state, trace⟩ (l.stored ⟨config.state, trace⟩ + l.inHand config)
  sound : ∀ thread a, config.active thread = some a → l.Sound trace a
  finite : (l.hands config).support.Finite

section Balanced

variable {l} {trace : List (Label S State Request Result)}
  {config : Config S State Thread Request Loop Result} {thread : Thread}

theorem Balanced.inHand_eq (h : l.Balanced trace config) (thread : Thread) :
    l.inHand config = l.hands config thread + l.others config thread :=
  finsum_eq_add_update h.finite thread

omit [DecidableEq Thread] in
theorem Balanced.hands_mem (h : l.Balanced trace config) (thread : Thread) : l.hands config thread ∈ l.shares := by
  rw [hands]
  cases hActive : config.active thread with
  | none => exact l.shares.zero_mem
  | some a => exact (h.sound thread a hActive).shares

omit [DecidableEq Thread] in
/-- Between the calls everything is stored. -/
theorem Balanced.idle (h : l.Balanced trace config) (hIdle : ∀ thread, config.active thread = none) :
    l.valid ⟨config.state, trace⟩ (l.stored ⟨config.state, trace⟩) := by
  have hNone : l.inHand config = 0 := by
    apply finsum_eq_zero_of_forall_eq_zero
    intro thread
    rw [hands, hIdle]
    rfl
  have hTotal := h.total
  rw [hNone, add_zero] at hTotal
  exact hTotal

theorem Balanced.others_mem (h : l.Balanced trace config) (thread : Thread) :
    l.others config thread ∈ l.shares := by
  apply finsum_induction (· ∈ l.shares) l.shares.zero_mem fun _ _ => l.shares.add_mem
  intro other
  by_cases hSame : other = thread
  · rw [hSame, Function.update_self]
    exact l.shares.zero_mem
  · rw [Function.update_of_ne hSame]
    exact h.hands_mem other

/-- What the ledger says when one thread takes a step. -/
theorem Balanced.move (h : l.Balanced trace config) {entry : Option (Activity S State Request Loop Result)}
    {label : Label S State Request Result} {state : State}
    (hTotal : l.valid ⟨state, trace ++ [label]⟩
      (l.stored ⟨state, trace ++ [label]⟩ + (l.handOf entry + l.others config thread)))
    (hEntry : ∀ a, entry = some a → l.Sound (trace ++ [label]) a) :
    l.Balanced (trace ++ [label]) ⟨state, Function.update config.active thread entry⟩ := by
  have hHands : l.hands ⟨state, Function.update config.active thread entry⟩ =
      Function.update (l.hands config) thread (l.handOf entry) := by
    funext other
    by_cases hSame : other = thread
    · subst hSame
      simp [hands]
    · simp [hands, Function.update_of_ne hSame]
  have hFinite : (l.hands ⟨state, Function.update config.active thread entry⟩).support.Finite := by
    apply (h.finite.insert thread).subset
    intro other hOther
    by_cases hSame : other = thread
    · exact .inl hSame
    · refine .inr ?_
      simpa [hHands, Function.update_of_ne hSame] using hOther
  refine ⟨?_, ?_, hFinite⟩
  · rw [inHand, finsum_eq_add_update hFinite thread, hHands, Function.update_self,
      Function.update_idem]
    exact hTotal
  · intro other a hOther
    rcases update_eq_some hOther with ⟨-, hHere⟩ | ⟨-, hHere⟩
    · exact hEntry a hHere
    · exact (h.sound other a hHere).grow [label]

end Balanced

variable {initial : State} {trace : List (Label S State Request Result)}
  {reached : Config S State Thread Request Loop Result}

/-- The books balance at every point of a run. -/
theorem sound (hInit : l.valid ⟨initial, []⟩ (l.stored ⟨initial, []⟩))
    (run : m.Runs (Machine.initial initial) trace reached) : l.Balanced trace reached := by
  induction run with
  | start =>
      have hNone : l.hands (Machine.initial initial : Config S State Thread Request Loop Result) = 0 :=
        rfl
      constructor
      · simp only [inHand, hNone, Pi.zero_apply, finsum_zero, add_zero]
        exact hInit
      · intro thread a hActive
        cases hActive
      · rw [hNone]
        simp
  | @step trace label config next move prior last ih =>
      rcases step_cases last with ⟨request, state, hFree, hDeliver, rfl, rfl⟩ |
        ⟨acting, choice, request, events, op, following, hBusy, rfl, rfl⟩ |
        ⟨acting, request, events, result, hBusy, rfl, rfl⟩
      · have hTotal := ih.total
        rw [ih.inHand_eq (m.owner request), hands, hFree, handOf, zero_add] at hTotal
        refine ih.move (l.begun ⟨_, trace⟩ request state _ hDeliver (ih.others_mem _) hTotal) ?_
        intro a hEntry
        cases hEntry
        exact ⟨l.start_mem request, .nil, l.entry request _ _ hDeliver⟩
      · obtain ⟨hMem, hTaken, hTakes, hRest⟩ := ih.sound acting _ hBusy
        have hTotal := ih.total
        rw [ih.inHand_eq acting, hands, hBusy] at hTotal
        obtain ⟨hPossible, hNext⟩ :=
          l.event ⟨_, trace⟩ request op choice _ _ hMem (ih.others_mem _) hTakes hTotal
        have hIssued : l.Issued trace (m.event choice request op config.state) (l.hold request events)
            (l.others config acting) := ⟨hMem, ih.others_mem _, hTakes, hPossible, hTotal⟩
        refine ih.move ?_ ?_
        · rw [handOf, hold_snoc]
          exact hNext
        · intro a hEntry
          cases hEntry
          refine ⟨?_, (hTaken.grow _).snoc rfl rfl hIssued, l.sound_resume ?_⟩
          · rw [hold_snoc]
            exact l.keeps_mem _ _ _ hMem hTakes hPossible
          · rw [hold_snoc]
            exact hRest _ hPossible
      · have hPost := (ih.sound acting _ hBusy).rest
        have hTotal := ih.total
        rw [ih.inHand_eq acting, hands, hBusy] at hTotal
        refine ih.move ?_ fun _ h => by cases h
        rw [handOf, zero_add]
        exact l.finished ⟨_, trace⟩ ⟨request, events, result⟩ _ (ih.others_mem _) hPost hTotal

/-- Every operation of a run was issued so. -/
theorem issued (hInit : l.valid ⟨initial, []⟩ (l.stored ⟨initial, []⟩))
    {earlier later : List (Label S State Request Result)} {e : Event S State Request}
    (run : m.Runs (Machine.initial initial) (earlier ++ .event e :: later) reached) :
    ∃ events frame, l.Taken earlier e.request events ∧
      l.Issued earlier e (l.hold e.request events) frame := by
  obtain ⟨config, move, after, hEarlier, hStep, -⟩ := run.pass
  have hBalanced := l.sound hInit hEarlier
  rcases step_cases hStep with ⟨_, _, _, _, hKind, _⟩ |
    ⟨acting, choice, request, events, op, following, hBusy, hKind, -⟩ | ⟨_, _, _, _, _, hKind, _⟩
  · cases hKind
  · cases hKind
    obtain ⟨hMem, hTaken, hTakes, -⟩ := hBalanced.sound acting _ hBusy
    have hTotal := hBalanced.total
    rw [hBalanced.inHand_eq acting, hands, hBusy] at hTotal
    obtain ⟨hPossible, -⟩ :=
      l.event ⟨_, earlier⟩ request op choice _ _ hMem (hBalanced.others_mem _) hTakes hTotal
    exact ⟨events, l.others config acting, hTaken,
      ⟨hMem, hBalanced.others_mem acting, hTakes, hPossible, hTotal⟩⟩
  · cases hKind

/-- A call returns with what it promised, and took what its operations needed. -/
theorem returned (hInit : l.valid ⟨initial, []⟩ (l.stored ⟨initial, []⟩))
    (run : m.Runs (Machine.initial initial) trace reached) {call : Completed S State Request Result}
    (hCall : .finished call ∈ trace) : l.Taken trace call.request call.events ∧
      l.post call.request (l.hold call.request call.events) call.result := by
  obtain ⟨earlier, later, rfl⟩ := List.append_of_mem hCall
  obtain ⟨config, move, after, hEarlier, hStep, -⟩ := run.pass
  rcases step_cases hStep with ⟨_, _, _, _, hKind, _⟩ | ⟨_, _, _, _, _, _, _, hKind, _⟩ |
    ⟨acting, request, events, result, hBusy, hKind, -⟩
  · cases hKind
  · cases hKind
  · cases hKind
    obtain ⟨-, hTaken, hPost⟩ := (l.sound hInit hEarlier).sound acting _ hBusy
    exact ⟨hTaken.grow _, hPost⟩

end Ledger
end Machine
end Concurrency
