import MsQuicH3.Rundown
import MsQuicH3.Concurrency.Watch

/-! The waker table of a rundown. Every slot is the last registration of one future,
and a registration that was re-checked is covered by a guard. -/
namespace MsQuicH3.Rundown

open Concurrency

/-- What a request may issue. -/
def permits : Request → Op → Prop
  | .newGuard _, op => op = .fetchAdd
  | .dropGuard _, op => op = .fetchSub ∨ op = .drainAndWake
  | .poll n _, op => op = .load ∨ op = .deregister n ∨ ∃ waker, op = .register n waker
  | .dropWaiter n, op => op = .deregister n

section Uses

theorem uses_completePoll (n waker : Nat) : (completePoll n).Uses (permits (.poll n waker)) :=
  ⟨.inr (.inl rfl), fun _ => trivial⟩

theorem uses_waitIdlePoll (n waker : Nat) : (waitIdlePoll n waker).Uses (permits (.poll n waker)) := by
  refine ⟨.inl rfl, fun active => ?_⟩
  change (if active = 0 then _ else _ : Code Result).Uses _
  split
  · exact uses_completePoll n waker
  refine ⟨.inr (.inr ⟨waker, rfl⟩), fun _ => ⟨.inl rfl, fun active => ?_⟩⟩
  change (if active = 0 then _ else _ : Code Result).Uses _
  split
  · exact uses_completePoll n waker
  · trivial

theorem uses_code (request : Request) : (request.code).Uses (permits request) := by
  cases request with
  | newGuard n => exact ⟨rfl, fun _ => trivial⟩
  | dropGuard n =>
      refine ⟨.inl rfl, fun old => ?_⟩
      change (if old = 1 then _ else _ : Code Result).Uses _
      split
      · exact ⟨.inr rfl, fun _ => trivial⟩
      · trivial
  | poll n waker => exact uses_waitIdlePoll n waker
  | dropWaiter n => exact ⟨rfl, fun _ => trivial⟩

theorem uses_entry (request : Request) : (rundown.entry request).Uses (permits request) :=
  (uses_code request).bind fun _ => trivial

theorem uses_body (request : Request) (loop : Empty) :
    (rundown.body request loop).Uses (permits request) := nomatch loop

end Uses

/-- The waker a future registered under a key, and whether it was woken since. -/
structure Registration where
  key : Nat
  waker : Nat
  woken : Bool := false
  deriving DecidableEq, Repr

/-- What a drain of these slots does to a registration. -/
def Registration.wake (drained : List (Nat × Nat)) (registration : Registration) : Registration :=
  { registration with
    woken := registration.woken || drained.contains (registration.key, registration.waker) }

/-- What a run says of one future: its last registration, whether the counter was found
positive since, and what its last call returned. -/
structure WaiterLog where
  last : Option Registration := none
  checked : Bool := false
  returned : Option Result := none
  deriving DecidableEq, Repr

def WaiterLog.step (n : Nat) (log : WaiterLog) : RundownLabel → WaiterLog
  | .event ⟨_, .register m waker, key, _, _⟩ =>
      if m = n then { log with last := some { key, waker }, checked := false } else log
  | .event ⟨request, .load, active, _, _⟩ =>
      if request.owner = .waiter n ∧ active ≠ 0 then { log with checked := true } else log
  | .event ⟨_, .drainAndWake, drained, _, _⟩ =>
      { log with last := log.last.map (Registration.wake drained) }
  | .finished call =>
      if call.request.owner = .waiter n then { log with returned := some call.result } else log
  | _ => log

def waiterLog (n : Nat) (trace : List RundownLabel) : WaiterLog :=
  trace.foldl (WaiterLog.step n) {}

/-- A guard took the last unit and has not drained the table yet. -/
def drains (n : Nat) (pending : Bool) : RundownLabel → Bool
  | .event ⟨request, .fetchSub, old, _, _⟩ =>
      pending || decide (request.owner = .guard n) && old == 1
  | .event ⟨request, .drainAndWake, _, _, _⟩ => pending && !decide (request.owner = .guard n)
  | _ => pending

def draining (n : Nat) (trace : List RundownLabel) : Bool := trace.foldl (drains n) false

theorem waiterLog_snoc (n : Nat) (trace : List RundownLabel) (label : RundownLabel) :
    waiterLog n (trace ++ [label]) = (waiterLog n trace).step n label := by
  simp [waiterLog, List.foldl_append]

theorem draining_snoc (n : Nat) (trace : List RundownLabel) (label : RundownLabel) :
    draining n (trace ++ [label]) = drains n (draining n trace) label := by
  simp [draining, List.foldl_append]

/-- A positive counter, or a drain to come, will wake who waits. -/
def Covered (w : RundownWorld) : Prop := w.state.active ≠ 0 ∨ ∃ g, draining g w.trace = true

structure TableInv (w : RundownWorld) : Prop where
  bounded : ∀ n key, w.state.key n = some key → key < w.state.next
  distinct : ∀ n m key, w.state.key n = some key → w.state.key m = some key → n = m
  owned : ∀ slot ∈ w.state.map, ∃ n, w.state.key n = some slot.1 ∧
    (waiterLog n w.trace).last = some { key := slot.1, waker := slot.2 }
  covered : ∀ slot ∈ w.state.map, ∀ n, w.state.key n = some slot.1 →
    (waiterLog n w.trace).checked = true → Covered w

section Table

theorem mem_insert {map : List (Nat × Nat)} {key waker : Nat} {slot : Nat × Nat} :
    slot ∈ insert map key waker ↔ (slot ∈ map ∧ slot.1 ≠ key) ∨ slot = (key, waker) := by
  simp [insert]

theorem mem_remove {map : List (Nat × Nat)} {key : Nat} {slot : Nat × Nat} :
    slot ∈ remove map key ↔ slot ∈ map ∧ slot.1 ≠ key := by
  simp [remove]

end Table

section Invariant

variable {w : RundownWorld} {request : Request}

theorem advance_log (n : Nat) (op : Op) :
    waiterLog n (rundown.advance () request op w).trace =
      (waiterLog n w.trace).step n (.event (rundown.event () request op w.state)) := waiterLog_snoc ..

theorem advance_draining (n : Nat) (op : Op) :
    draining n (rundown.advance () request op w).trace =
      drains n (draining n w.trace) (.event (rundown.event () request op w.state)) := draining_snoc ..

/-- What a registration changes. -/
theorem perform_register (n waker : Nat) (s : State) :
    ∃ key, ((Op.register n waker).perform s).1 = key ∧
      ((Op.register n waker).perform s).2.map = insert s.map key waker ∧
      ((Op.register n waker).perform s).2.active = s.active ∧
      ((Op.register n waker).perform s).2.key = Function.update s.key n (some key) ∧
      ((s.key n = some key ∧ ((Op.register n waker).perform s).2.next = s.next) ∨
        (s.key n = none ∧ key = s.next ∧ ((Op.register n waker).perform s).2.next = s.next + 1)) := by
  cases hKey : s.key n with
  | some key =>
      have hSame : s.key = Function.update s.key n (some key) := by rw [← hKey, Function.update_eq_self]
      refine ⟨key, ?_, ?_, ?_, ?_, .inl ⟨rfl, ?_⟩⟩ <;> simp only [Op.perform, hKey]
      exact hSame
  | none =>
      refine ⟨s.next, ?_⟩
      simp [Op.perform, hKey]

/-- A removal takes the slot of its own future and nothing else. -/
theorem perform_deregister (n : Nat) (s : State) :
    ((Op.deregister n).perform s).2.active = s.active ∧
      ((Op.deregister n).perform s).2.next = s.next ∧
      ((Op.deregister n).perform s).2.key = Function.update s.key n none ∧
      ∀ slot, slot ∈ ((Op.deregister n).perform s).2.map ↔
        slot ∈ s.map ∧ s.key n ≠ some slot.1 := by
  cases hKey : s.key n with
  | some key =>
      refine ⟨?_, ?_, ?_, fun slot => ?_⟩ <;> simp only [Op.perform, hKey]
      rw [mem_remove]
      simp [eq_comm]
  | none =>
      have hSame : s.key = Function.update s.key n none := by rw [← hKey, Function.update_eq_self]
      refine ⟨?_, ?_, ?_, fun slot => ?_⟩ <;> simp only [Op.perform, hKey]
      · exact hSame
      · simp

namespace TableInv

/-- A step that leaves the table and what is known of its futures alone. -/
theorem keep {w' : RundownWorld} (h : TableInv w) (hKey : w'.state.key = w.state.key)
    (hNext : w'.state.next = w.state.next) (hMap : ∀ slot ∈ w'.state.map, slot ∈ w.state.map)
    (hLast : ∀ n, ∀ slot ∈ w'.state.map,
      (waiterLog n w'.trace).last = (waiterLog n w.trace).last)
    (hCovered : ∀ slot ∈ w'.state.map, ∀ n, (waiterLog n w'.trace).checked = true →
      ((waiterLog n w.trace).checked = true → Covered w) → Covered w') : TableInv w' := by
  refine ⟨?_, ?_, fun slot hSlot => ?_, fun slot hSlot n hOwn hChecked => ?_⟩
  · rw [hKey, hNext]
    exact h.bounded
  · rw [hKey]
    exact h.distinct
  · obtain ⟨n, hOwn, hLog⟩ := h.owned slot (hMap slot hSlot)
    exact ⟨n, by rw [hKey, hOwn], by rw [hLast n slot hSlot, hLog]⟩
  · rw [hKey] at hOwn
    exact hCovered slot hSlot n hChecked fun hBefore => h.covered slot (hMap slot hSlot) n hOwn hBefore

theorem load (h : TableInv w) : TableInv (rundown.advance () request .load w) := by
  refine h.keep rfl rfl (fun _ hSlot => hSlot) (fun n slot _ => ?_) fun slot _ n hChecked hBefore => ?_
  · rw [advance_log]
    dsimp only [WaiterLog.step, Machine.event]
    split <;> rfl
  · rw [advance_log] at hChecked
    dsimp only [WaiterLog.step, Machine.event] at hChecked
    split at hChecked
    next hFound => exact .inl hFound.2
    · rcases hBefore hChecked with hActive | ⟨g, hDraining⟩
      · exact .inl hActive
      · exact .inr ⟨g, by rw [advance_draining]; exact hDraining⟩

theorem fetchAdd (h : TableInv w) : TableInv (rundown.advance () request .fetchAdd w) := by
  refine h.keep rfl rfl (fun _ hSlot => hSlot) (fun n slot _ => ?_) fun slot _ n _ _ => ?_
  · rw [advance_log]
    rfl
  · exact .inl (Nat.succ_ne_zero _)

theorem fetchSub {g : Nat} (h : TableInv w) (hOwner : request.owner = .guard g) :
    TableInv (rundown.advance () request .fetchSub w) := by
  refine h.keep rfl rfl (fun _ hSlot => hSlot) (fun n slot _ => ?_) fun slot _ n hChecked hBefore => ?_
  · rw [advance_log]
    rfl
  · rw [advance_log] at hChecked
    by_cases hLast : w.state.active = 1
    · refine .inr ⟨g, ?_⟩
      rw [advance_draining]
      change (draining g w.trace || decide (request.owner = .guard g) && w.state.active == 1) = true
      rw [hLast]
      simp [hOwner]
    · rcases hBefore hChecked with hActive | ⟨other, hDraining⟩
      · left
        change w.state.active - 1 ≠ 0
        omega
      · refine .inr ⟨other, ?_⟩
        rw [advance_draining]
        change (draining other w.trace || _) = true
        rw [hDraining, Bool.true_or]

theorem drainAndWake (h : TableInv w) :
    TableInv (rundown.advance () request .drainAndWake w) :=
  h.keep rfl rfl nofun nofun nofun

theorem register (h : TableInv w) (n waker : Nat) :
    TableInv (rundown.advance () request (.register n waker) w) := by
  obtain ⟨key, hReply, hMap, hActive, hKey, hNext⟩ := perform_register n waker w.state
  have hOthers : ∀ m, m ≠ n → w.state.key m ≠ some key := by
    intro m hOther hSame
    rcases hNext with ⟨hOwn, -⟩ | ⟨-, rfl, -⟩
    · exact hOther (h.distinct m n key hSame hOwn)
    · exact Nat.lt_irrefl _ (h.bounded m _ hSame)
  have hOwnLog : waiterLog n (rundown.advance () request (.register n waker) w).trace =
      { waiterLog n w.trace with last := some { key, waker }, checked := false } := by
    rw [advance_log]
    change (if n = n then { waiterLog n w.trace with
      last := some { key := ((Op.register n waker).perform w.state).1, waker }, checked := false }
      else _) = _
    rw [if_pos rfl, hReply]
  have hOtherLog : ∀ m, m ≠ n → waiterLog m (rundown.advance () request (.register n waker) w).trace =
      waiterLog m w.trace := by
    intro m hOther
    rw [advance_log]
    exact if_neg (Ne.symm hOther)
  have hCovered : Covered w → Covered (rundown.advance () request (.register n waker) w) := by
    rintro (hCounted | ⟨g, hDraining⟩)
    · exact .inl (hActive.trans_ne hCounted)
    · exact .inr ⟨g, by rw [advance_draining]; exact hDraining⟩
  have hAfter : (rundown.advance () request (.register n waker) w).state.key =
      Function.update w.state.key n (some key) := hKey
  have hTable : ∀ slot, slot ∈ (rundown.advance () request (.register n waker) w).state.map ↔
      (slot ∈ w.state.map ∧ slot.1 ≠ key) ∨ slot = (key, waker) := by
    intro slot
    change slot ∈ ((Op.register n waker).perform w.state).2.map ↔ _
    rw [hMap, mem_insert]
  refine ⟨fun m taken hTaken => ?_, fun m m' taken hTaken hTaken' => ?_, fun slot hSlot => ?_,
    fun slot hSlot m hTaken hChecked => ?_⟩
  · change taken < ((Op.register n waker).perform w.state).2.next
    rw [hAfter] at hTaken
    by_cases hOwn : m = n
    · subst hOwn
      obtain rfl : key = taken := by simpa using hTaken
      rcases hNext with ⟨hOwn, hNext⟩ | ⟨-, rfl, hNext⟩
      · exact hNext ▸ h.bounded m key hOwn
      · omega
    · rw [Function.update_of_ne hOwn] at hTaken
      have hBound := h.bounded m taken hTaken
      rcases hNext with ⟨-, hNext⟩ | ⟨-, -, hNext⟩ <;> omega
  · rw [hAfter] at hTaken hTaken'
    by_cases hOwn : m = n <;> by_cases hOwn' : m' = n
    · exact hOwn.trans hOwn'.symm
    · subst hOwn
      obtain rfl : key = taken := by simpa using hTaken
      rw [Function.update_of_ne hOwn'] at hTaken'
      exact (hOthers m' hOwn' hTaken').elim
    · subst hOwn'
      obtain rfl : key = taken := by simpa using hTaken'
      rw [Function.update_of_ne hOwn] at hTaken
      exact (hOthers m hOwn hTaken).elim
    · rw [Function.update_of_ne hOwn] at hTaken
      rw [Function.update_of_ne hOwn'] at hTaken'
      exact h.distinct m m' taken hTaken hTaken'
  · rcases (hTable slot).1 hSlot with ⟨hBefore, hForeign⟩ | rfl
    · obtain ⟨m, hOwn, hLast⟩ := h.owned slot hBefore
      have hOther : m ≠ n := by
        rintro rfl
        rcases hNext with ⟨hSame, -⟩ | ⟨hNone, -⟩
        · exact hForeign (Option.some.inj (hOwn.symm.trans hSame))
        · rw [hNone] at hOwn
          cases hOwn
      exact ⟨m, by rw [hAfter, Function.update_of_ne hOther, hOwn], by rw [hOtherLog m hOther, hLast]⟩
    · exact ⟨n, by rw [hAfter, Function.update_self], by rw [hOwnLog]⟩
  · by_cases hOwn : m = n
    · subst hOwn
      rw [hOwnLog] at hChecked
      cases hChecked
    · rw [hAfter, Function.update_of_ne hOwn] at hTaken
      rw [hOtherLog m hOwn] at hChecked
      rcases (hTable slot).1 hSlot with ⟨hBefore, -⟩ | rfl
      · exact hCovered (h.covered slot hBefore m hTaken hChecked)
      · exact (hOthers m hOwn hTaken).elim

theorem deregister (h : TableInv w) (n : Nat) :
    TableInv (rundown.advance () request (.deregister n) w) := by
  obtain ⟨hActive, hNext, hKey, hMap⟩ := perform_deregister n w.state
  have hKept : ∀ m taken, ((Op.deregister n).perform w.state).2.key m = some taken →
      w.state.key m = some taken := by
    intro m taken hTaken
    rw [hKey] at hTaken
    by_cases hOwn : m = n
    · subst hOwn
      simp at hTaken
    · rwa [Function.update_of_ne hOwn] at hTaken
  have hLog : ∀ m, waiterLog m (rundown.advance () request (.deregister n) w).trace =
      waiterLog m w.trace := fun m => advance_log m _
  refine ⟨fun m taken hTaken => ?_, fun m m' taken hTaken hTaken' => ?_, fun slot hSlot => ?_,
    fun slot hSlot m hTaken hChecked => ?_⟩
  · exact hNext ▸ h.bounded m taken (hKept m taken hTaken)
  · exact h.distinct m m' taken (hKept m taken hTaken) (hKept m' taken hTaken')
  · obtain ⟨hBefore, hForeign⟩ := (hMap slot).1 hSlot
    obtain ⟨m, hOwn, hLast⟩ := h.owned slot hBefore
    refine ⟨m, ?_, hLog m ▸ hLast⟩
    change ((Op.deregister n).perform w.state).2.key m = some slot.1
    rw [hKey, Function.update_of_ne, hOwn]
    rintro rfl
    exact hForeign hOwn
  · rw [hLog] at hChecked
    rcases h.covered slot ((hMap slot).1 hSlot).1 m (hKept m _ hTaken) hChecked with
      hCounted | ⟨g, hDraining⟩
    · exact .inl (hActive.trans_ne hCounted)
    · exact .inr ⟨g, by rw [advance_draining]; exact hDraining⟩

theorem initial : TableInv ⟨{}, []⟩ := ⟨nofun, nofun, nofun, nofun⟩

/-- A delivery books what the owner does with a guard or a future. -/
theorem deliver_state {s s' : State} (h : deliver request s = some s') :
    s'.active = s.active ∧ s'.next = s.next ∧ s'.map = s.map ∧ s'.key = s.key := by
  cases request <;> simp only [deliver, Option.ite_none_right_eq_some, Option.some.injEq] at h <;>
    obtain ⟨-, rfl⟩ := h <;> exact ⟨rfl, rfl, rfl, rfl⟩

theorem begun (h : TableInv w) {s : State} (hDeliver : deliver request w.state = some s) :
    TableInv (w.after (.begun request) s) := by
  obtain ⟨hActive, hNext, hMap, hKey⟩ := deliver_state hDeliver
  have hLog : ∀ n, waiterLog n (w.after (.begun request) s).trace = waiterLog n w.trace :=
    fun n => waiterLog_snoc n w.trace _
  have hDraining : ∀ g, draining g (w.after (.begun request) s).trace = draining g w.trace :=
    fun g => draining_snoc g w.trace _
  refine h.keep hKey hNext (fun slot hSlot => hMap ▸ hSlot) (fun n slot _ => by rw [hLog])
    fun slot _ n hChecked hBefore => ?_
  rw [hLog] at hChecked
  rcases hBefore hChecked with hCounted | ⟨g, hDrains⟩
  · exact .inl (hActive.trans_ne hCounted)
  · exact .inr ⟨g, by rw [hDraining, hDrains]⟩

theorem finished (h : TableInv w) (call : Completed signature State Request Result) :
    TableInv (w.after (.finished call) w.state) := by
  have hLog : ∀ n, (waiterLog n (w.after (.finished call) w.state).trace).last =
      (waiterLog n w.trace).last ∧ (waiterLog n (w.after (.finished call) w.state).trace).checked =
      (waiterLog n w.trace).checked := by
    intro n
    rw [World.after_trace, waiterLog_snoc]
    dsimp only [WaiterLog.step]
    split <;> exact ⟨rfl, rfl⟩
  have hDraining : ∀ g, draining g (w.after (.finished call) w.state).trace = draining g w.trace :=
    fun g => draining_snoc g w.trace _
  refine h.keep rfl rfl (fun slot hSlot => hSlot) (fun n slot _ => (hLog n).1)
    fun slot _ n hChecked hBefore => ?_
  rw [(hLog n).2] at hChecked
  rcases hBefore hChecked with hCounted | ⟨g, hDrains⟩
  · exact .inl hCounted
  · exact .inr ⟨g, by rw [hDraining, hDrains]⟩

end TableInv

/-- Every step keeps the table in order. -/
theorem tableKept : rundown.Kept permits TableInv where
  begun w request s hDeliver h := h.begun hDeliver
  finished w call h := h.finished call
  event w request op choice hPermits h := by
    cases request with
    | newGuard g =>
        cases hPermits
        exact h.fetchAdd
    | dropGuard g =>
        rcases hPermits with rfl | rfl
        · exact h.fetchSub rfl
        · exact h.drainAndWake
    | poll n waker =>
        rcases hPermits with rfl | rfl | ⟨waker, rfl⟩
        · exact h.load
        · exact h.deregister n
        · exact h.register n waker
    | dropWaiter n =>
        cases hPermits
        exact h.deregister n

theorem tableInv {trace : List RundownLabel} {reached : RundownConfig} (run : Runs trace reached) :
    TableInv ⟨reached.state, trace⟩ :=
  tableKept.holds uses_entry uses_body run .initial

end Invariant

end MsQuicH3.Rundown
