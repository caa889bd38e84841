import MsQuicH3.RundownTable

/-! Waiting for the rundown. A future that was told to wait is woken by the drain that
finds the rundown idle, and no future touches the slot of another. -/
namespace MsQuicH3.Rundown

open Concurrency

/-- The last registration of a future is in the table, or was woken. -/
def Holds (n key waker : Nat) (w : RundownWorld) : Prop :=
  w.state.key n = some key ∧ ∃ woken, (waiterLog n w.trace).last = some { key, waker, woken } ∧
    (woken = true ∨ (key, waker) ∈ w.state.map)

/-- A future that found the counter positive after its last registration. -/
def Waits (n : Nat) (w : RundownWorld) : Prop :=
  (waiterLog n w.trace).checked = true ∧ ∃ key waker, Holds n key waker w

/-- Only a future that was told to wait keeps a key. -/
structure WaiterIdle (n : Nat) (w : RundownWorld) : Prop where
  waiting : (waiterLog n w.trace).returned = some (.poll .pending) → Waits n w
  gone : (waiterLog n w.trace).returned ≠ some (.poll .pending) → w.state.key n = none

/-- What the other threads leave to a future. -/
structure WaiterRely (n : Nat) (w w' : RundownWorld) : Prop where
  key : w'.state.key n = w.state.key n
  checked : (waiterLog n w'.trace).checked = (waiterLog n w.trace).checked
  returned : (waiterLog n w'.trace).returned = (waiterLog n w.trace).returned
  holds : ∀ key waker, Holds n key waker w → Holds n key waker w'

/-- A future completes only after it read an idle counter. -/
def Honest (events : List RundownEvent) (result : Result) : Prop :=
  result = .poll (.ready ()) → ∃ e ∈ events, e.op = .load ∧ e.before.active = 0

/-- Every finished call of a future is honest. -/
def HonestCalls (n : Nat) (w : RundownWorld) : Prop :=
  ∀ call, .finished call ∈ w.trace → call.request.owner = .waiter n → Honest call.events call.result

/-- What a call leaves behind. -/
def WaiterPost (n : Nat) (result : Result) (events : List RundownEvent) (w : RundownWorld) : Prop :=
  Honest events result ∧ (result = .poll .pending → Waits n w) ∧
    (result ≠ .poll .pending → w.state.key n = none)

section Stable

variable {n : Nat} {w w' w'' : RundownWorld}

theorem WaiterRely.refl (w : RundownWorld) : WaiterRely n w w := ⟨rfl, rfl, rfl, fun _ _ => id⟩

theorem WaiterRely.trans (left : WaiterRely n w w') (right : WaiterRely n w' w'') :
    WaiterRely n w w'' :=
  ⟨right.key.trans left.key, right.checked.trans left.checked, right.returned.trans left.returned,
    fun key waker h => right.holds key waker (left.holds key waker h)⟩

theorem Waits.stable (h : Waits n w) (hRely : WaiterRely n w w') : Waits n w' := by
  obtain ⟨hChecked, key, waker, hHolds⟩ := h
  exact ⟨hRely.checked.trans hChecked, key, waker, hRely.holds key waker hHolds⟩

theorem WaiterIdle.stable (h : WaiterIdle n w) (hRely : WaiterRely n w w') : WaiterIdle n w' := by
  refine ⟨fun hReturned => ?_, fun hReturned => ?_⟩
  · rw [hRely.returned] at hReturned
    exact (h.waiting hReturned).stable hRely
  · rw [hRely.returned] at hReturned
    exact hRely.key.trans (h.gone hReturned)

/-- A step that leaves the future's own data alone, and its slot unless it wakes it. -/
theorem waiterRely_of_same (hKey : w'.state.key n = w.state.key n)
    (hLog : waiterLog n w'.trace = waiterLog n w.trace)
    (hMap : ∀ key waker, w.state.key n = some key → (key, waker) ∈ w.state.map →
      (key, waker) ∈ w'.state.map) : WaiterRely n w w' := by
  refine ⟨hKey, by rw [hLog], by rw [hLog], fun key waker hHolds => ?_⟩
  obtain ⟨hOwn, woken, hLast, hSlot⟩ := hHolds
  refine ⟨hKey.trans hOwn, woken, by rw [hLog, hLast], hSlot.imp_right (hMap key waker hOwn)⟩

theorem Registration.wake_mem {drained : List (Nat × Nat)} {key waker : Nat} {woken : Bool}
    (h : woken = true ∨ (key, waker) ∈ drained) :
    Registration.wake drained { key, waker, woken } = { key, waker, woken := true } := by
  rcases h with rfl | h <;> simp [Registration.wake, *]

theorem waiterRely_drain {request : Request} :
    WaiterRely n w (rundown.advance () request .drainAndWake w) := by
  have hLog : waiterLog n (rundown.advance () request .drainAndWake w).trace =
      { waiterLog n w.trace with
        last := (waiterLog n w.trace).last.map (Registration.wake w.state.map) } := advance_log n _
  refine ⟨rfl, by rw [hLog], by rw [hLog], fun key waker hHolds => ?_⟩
  obtain ⟨hOwn, woken, hLast, hSlot⟩ := hHolds
  refine ⟨hOwn, true, ?_, .inl rfl⟩
  rw [hLog, hLast, Option.map_some, Registration.wake_mem hSlot]

section Apart

variable {request : Request} {m key : Nat} (hOther : m ≠ n) (hTable : TableInv w)
  (hOwn : w.state.key n = some key)
include hOther hTable hOwn

/-- A registration of one future leaves the slot of another alone. -/
theorem register_apart (waker other : Nat) :
    (key, other) ∈ (rundown.advance () request (.register m waker) w).state.map ↔
      (key, other) ∈ w.state.map := by
  obtain ⟨taken, -, hMap, -, -, hNext⟩ := perform_register m waker w.state
  change (key, other) ∈ ((Op.register m waker).perform w.state).2.map ↔ _
  rw [hMap, mem_insert]
  have hForeign : key ≠ taken := by
    rintro rfl
    rcases hNext with ⟨hSame, -⟩ | ⟨-, hFresh, -⟩
    · exact hOther (hTable.distinct m n key hSame hOwn)
    · exact absurd (hTable.bounded n key hOwn) (hFresh ▸ Nat.lt_irrefl _)
  simp [hForeign]

theorem deregister_apart (other : Nat) :
    (key, other) ∈ (rundown.advance () request (.deregister m) w).state.map ↔
      (key, other) ∈ w.state.map := by
  obtain ⟨-, -, -, hMap⟩ := perform_deregister m w.state
  refine (hMap _).trans (and_iff_left fun hSame => ?_)
  exact hOther (hTable.distinct m n key hSame hOwn)

end Apart

theorem key_register_of_ne {request : Request} {m : Nat} (hOther : m ≠ n) (waker : Nat) :
    (rundown.advance () request (.register m waker) w).state.key n = w.state.key n := by
  obtain ⟨taken, -, -, -, hKey, -⟩ := perform_register m waker w.state
  change ((Op.register m waker).perform w.state).2.key n = _
  rw [hKey, Function.update_of_ne (Ne.symm hOther)]

theorem key_deregister_of_ne {request : Request} {m : Nat} (hOther : m ≠ n) :
    (rundown.advance () request (.deregister m) w).state.key n = w.state.key n := by
  obtain ⟨-, -, hKey, -⟩ := perform_deregister m w.state
  change ((Op.deregister m).perform w.state).2.key n = _
  rw [hKey, Function.update_of_ne (Ne.symm hOther)]

/-- An operation of another thread. -/
theorem waiterRely_event {request : Request} {op : Op} (hOwner : request.owner ≠ .waiter n)
    (hPermits : permits request op) (hTable : TableInv w) :
    WaiterRely n w (rundown.advance () request op w) := by
  cases request with
  | newGuard g =>
      cases hPermits
      exact waiterRely_of_same rfl (advance_log n _) fun _ _ _ h => h
  | dropGuard g =>
      rcases hPermits with rfl | rfl
      · exact waiterRely_of_same rfl (advance_log n _) fun _ _ _ h => h
      · exact waiterRely_drain
  | poll m waker =>
      have hOther : m ≠ n := fun h => hOwner (congrArg Thread.waiter h)
      rcases hPermits with rfl | rfl | ⟨waker, rfl⟩
      · refine waiterRely_of_same rfl ((advance_log n _).trans (if_neg ?_)) fun _ _ _ h => h
        exact fun h => hOwner h.1
      · exact waiterRely_of_same (key_deregister_of_ne hOther) (advance_log n _)
          fun _ other hOwn => (deregister_apart hOther hTable hOwn other).2
      · exact waiterRely_of_same (key_register_of_ne hOther waker) ((advance_log n _).trans (if_neg hOther))
          fun _ other hOwn => (register_apart hOther hTable hOwn waker other).2
  | dropWaiter m =>
      cases hPermits
      have hOther : m ≠ n := fun h => hOwner (congrArg Thread.waiter h)
      exact waiterRely_of_same (key_deregister_of_ne hOther) (advance_log n _)
        fun _ other hOwn => (deregister_apart hOther hTable hOwn other).2

theorem waiterRely_begun {request : Request} {s : State} (h : deliver request w.state = some s) :
    WaiterRely n w (w.after (.begun request) s) := by
  obtain ⟨-, -, hMap, hKey⟩ := TableInv.deliver_state h
  exact waiterRely_of_same (congrFun hKey n) (waiterLog_snoc n w.trace _) fun _ _ _ hSlot => hMap ▸ hSlot

theorem waiter_stable (w w' : RundownWorld)
    (h : rundown.Interference permits (.waiter n) w w') (hTable : TableInv w)
    (hInv : HonestCalls n w) : HonestCalls n w' ∧ WaiterRely n w w' := by
  cases h with
  | begun hOwner hDeliver =>
      refine ⟨fun call hCall => hInv call ?_, waiterRely_begun hDeliver⟩
      simpa using hCall
  | event hOwner hPermits =>
      refine ⟨fun call hCall => hInv call ?_, waiterRely_event hOwner hPermits hTable⟩
      simpa using hCall
  | finished hOwner =>
      refine ⟨fun call hCall hOwn => ?_, waiterRely_of_same rfl ?_ fun _ _ _ h => h⟩
      · rw [World.after_trace, List.mem_append, List.mem_singleton] at hCall
        rcases hCall with hCall | hCall
        · exact hInv call hCall hOwn
        · cases hCall
          exact (hOwner hOwn).elim
      · exact (waiterLog_snoc n w.trace _).trans (if_neg hOwner)

end Stable

section Code

/-- Code of a future. -/
abbrev WaiterSafe (n : Nat) (request : Request) (code : Code Result)
    (events : List RundownEvent) (w : RundownWorld) : Prop :=
  rundown.Safe TableInv (HonestCalls n) (WaiterRely n) request (WaiterPost n) events code w

variable {n : Nat} {w : RundownWorld} {events : List RundownEvent} {request : Request}

theorem HonestCalls.event (h : HonestCalls n w) (op : Op) :
    HonestCalls n (rundown.advance () request op w) := by
  intro call hCall
  exact h call (by simpa using hCall)

/-- A removal leaves the future without a key. -/
theorem key_deregister (w : RundownWorld) :
    (rundown.advance () request (.deregister n) w).state.key n = none := by
  obtain ⟨-, -, hKey, -⟩ := perform_deregister n w.state
  change ((Op.deregister n).perform w.state).2.key n = none
  rw [hKey, Function.update_self]

theorem waiterSafe_completePoll
    (hIdle : ∃ e ∈ events, e.op = .load ∧ e.before.active = 0) :
    WaiterSafe n request (completePoll n) events w := by
  intro w' hRely hTable hInv _ _
  refine ⟨hInv.event _, fun _ => ?_, nofun, fun _ => key_deregister w'⟩
  obtain ⟨e, he, hLoad⟩ := hIdle
  exact ⟨e, List.mem_append_left _ he, hLoad⟩

theorem waiterSafe_drop : WaiterSafe n request (waitIdleDrop n) events w := by
  intro w' hRely hTable hInv _ _
  exact ⟨hInv.event _, nofun, nofun, fun _ => key_deregister w'⟩

/-- A registration is in the table. -/
theorem holds_register {waker : Nat} (w : RundownWorld) :
    ∃ key, Holds n key waker (rundown.advance () request (.register n waker) w) := by
  obtain ⟨key, hReply, hMap, -, hKey, -⟩ := perform_register n waker w.state
  refine ⟨key, ?_, false, ?_, .inr ?_⟩
  · change ((Op.register n waker).perform w.state).2.key n = some key
    rw [hKey, Function.update_self]
  · rw [advance_log]
    change (if n = n then { waiterLog n w.trace with
      last := some { key := ((Op.register n waker).perform w.state).1, waker }, checked := false }
      else _).last = _
    rw [if_pos rfl, hReply]
  · change (key, waker) ∈ ((Op.register n waker).perform w.state).2.map
    rw [hMap]
    exact mem_insert.2 (.inr rfl)

theorem waiterSafe_poll (waker : Nat) :
    WaiterSafe n (.poll n waker) (waitIdlePoll n waker) [] w := by
  intro w₁ _ _ hInv₁ _ _
  refine ⟨hInv₁.event _, ?_⟩
  change WaiterSafe n _ (if w₁.state.active = 0 then _ else _) _ _
  split
  next hZero => exact waiterSafe_completePoll ⟨_, List.mem_cons_self, rfl, hZero⟩
  intro w₂ _ _ hInv₂ _ _
  refine ⟨hInv₂.event _, ?_⟩
  have hRegistered : ∃ key, Holds n key waker
      (rundown.advance () (.poll n waker) (.register n waker) w₂) := holds_register w₂
  obtain ⟨key, hHolds⟩ := hRegistered
  intro w₃ hRely _ hInv₃ _ _
  refine ⟨hInv₃.event _, ?_⟩
  change WaiterSafe n _ (if w₃.state.active = 0 then _ else _) _ _
  split
  next hZero =>
    refine waiterSafe_completePoll ⟨_, List.mem_append_right _ (List.mem_singleton_self _), rfl, hZero⟩
  next hCounted =>
    have hLog : waiterLog n (rundown.advance () (.poll n waker) .load w₃).trace =
        { waiterLog n w₃.trace with checked := true } := (advance_log n _).trans (if_pos ⟨rfl, hCounted⟩)
    refine ⟨nofun, fun _ => ⟨by rw [hLog], key, waker, ?_⟩, fun h => (h rfl).elim⟩
    obtain ⟨hOwn, woken, hLast, hSlot⟩ := hRely.holds key waker hHolds
    exact ⟨hOwn, woken, by rw [hLog]; exact hLast, hSlot⟩

theorem owner_eq_waiter (h : request.owner = .waiter n) :
    request = .dropWaiter n ∨ ∃ waker, request = .poll n waker := by
  cases request with
  | newGuard g => cases h
  | dropGuard g => cases h
  | poll m waker =>
      cases h
      exact .inr ⟨waker, rfl⟩
  | dropWaiter m =>
      cases h
      exact .inl rfl

theorem waiterSafe_code (hOwner : request.owner = .waiter n) :
    WaiterSafe n request request.code [] w := by
  rcases owner_eq_waiter hOwner with rfl | ⟨waker, rfl⟩
  · exact waiterSafe_drop
  · exact waiterSafe_poll waker

/-- A future between its calls. -/
def waiterWatch (n : Nat) : rundown.Watch {} (.waiter n) where
  permits := permits
  known := TableInv
  inv := HonestCalls n
  rely := WaiterRely n
  idle := WaiterIdle n
  post _ := WaiterPost n
  uses_entry := uses_entry
  uses_body := uses_body
  rely_refl := .refl
  rely_trans := .trans
  stable w w' h hTable _ hInv := waiter_stable w w' h hTable hInv
  init := nofun
  idle_init := ⟨nofun, fun _ => rfl⟩
  idle_stable _ _ h hRely := h.stable hRely
  begin request w state hOwner _ hInv _ hDeliver _ := by
    refine ⟨fun call hCall => hInv call (by simpa using hCall), ?_⟩
    apply Machine.Safe.bind
    exact (waiterSafe_code hOwner).mono fun _ _ _ h => h
  finish request result events w w' hOwner hPost hRely _ hInv _ := by
    obtain ⟨hHonest, hPending, hGone⟩ := hPost
    have hLog : waiterLog n (w'.after (.finished ⟨request, events, result⟩) w'.state).trace =
        { waiterLog n w'.trace with returned := some result } :=
      (waiterLog_snoc n w'.trace _).trans (if_pos hOwner)
    refine ⟨fun call hCall hOwn => ?_, fun hReturned => ?_, fun hReturned => ?_⟩
    · rw [World.after_trace, List.mem_append, List.mem_singleton] at hCall
      rcases hCall with hCall | hCall
      · exact hInv call hCall hOwn
      · cases hCall
        exact hHonest
    · rw [hLog, Option.some.injEq] at hReturned
      obtain ⟨hChecked, key, waker, hOwn, woken, hLast, hSlot⟩ := (hPending hReturned).stable hRely
      exact ⟨by rw [hLog]; exact hChecked, key, waker, hOwn, woken, by rw [hLog]; exact hLast, hSlot⟩
    · rw [hLog, ne_eq, Option.some.injEq] at hReturned
      exact hRely.key.trans (hGone hReturned)

end Code

/-- What waiting for the rundown promises in a run. -/
structure NoLostWakeup (trace : List RundownLabel) (reached : RundownConfig) : Prop where
  /-- A poll completes only after it read an idle counter. -/
  honest : ∀ call n waker, .finished call ∈ trace → call.request = .poll n waker →
    call.result = .poll (.ready ()) → ∃ e ∈ call.events, e.op = .load ∧ e.before.active = 0
  /-- With the rundown idle and no drain to come, everybody who waits was woken. -/
  woken : reached.state.active = 0 → (∀ g, draining g trace = false) →
    ∀ n, reached.active (.waiter n) = none →
      (waiterLog n trace).returned = some (.poll .pending) →
      ∃ registration, (waiterLog n trace).last = some registration ∧ registration.woken = true
  /-- A step of one future neither removes nor overwrites the slot of another. -/
  apart : ∀ e, .event e ∈ trace → ∀ n, e.request.owner = .waiter n →
    ∀ m, m ≠ n → ∀ key, e.before.key m = some key → e.after.key m = some key ∧
      ∀ waker, (key, waker) ∈ e.after.map ↔ (key, waker) ∈ e.before.map
  /-- Every slot is the last registration of one future, which is not dropped and did
  not complete. -/
  owned : ∀ slot ∈ reached.state.map, ∃ n, reached.state.key n = some slot.1 ∧
    (waiterLog n trace).last = some { key := slot.1, waker := slot.2 } ∧
    (∀ m, reached.state.key m = some slot.1 → m = n) ∧
    (reached.active (.waiter n) = none →
      (waiterLog n trace).returned = some (.poll .pending))

section Runs

variable {trace : List RundownLabel} {reached : RundownConfig}

theorem waiter_sound (run : Runs trace reached) (n : Nat) :
    HonestCalls n ⟨reached.state, trace⟩ ∧
      (waiterWatch n).Local (reached.active (.waiter n)) ⟨reached.state, trace⟩ :=
  (waiterWatch n).sound run fun _ _ hRun _ => tableInv hRun

theorem idle_waiter (run : Runs trace reached) {n : Nat} (hIdle : reached.active (.waiter n) = none) :
    WaiterIdle n ⟨reached.state, trace⟩ := by
  have hLocal := (waiter_sound run n).2
  rw [hIdle] at hLocal
  exact hLocal

/-- One step of a future leaves the others' slots alone. -/
theorem slots_apart {request : Request} {w : RundownWorld} {op : Op} {n m key : Nat}
    (hOwner : request.owner = .waiter n) (hPermits : permits request op) (hTable : TableInv w)
    (hOther : m ≠ n) (hKey : w.state.key m = some key) :
    (rundown.advance () request op w).state.key m = some key ∧ ∀ waker,
      (key, waker) ∈ (rundown.advance () request op w).state.map ↔ (key, waker) ∈ w.state.map := by
  rcases owner_eq_waiter hOwner with rfl | ⟨waker, rfl⟩
  · cases hPermits
    exact ⟨(key_deregister_of_ne (Ne.symm hOther)).trans hKey,
      deregister_apart (Ne.symm hOther) hTable hKey⟩
  · rcases hPermits with rfl | rfl | ⟨waker, rfl⟩
    · exact ⟨hKey, fun _ => Iff.rfl⟩
    · exact ⟨(key_deregister_of_ne (Ne.symm hOther)).trans hKey,
        deregister_apart (Ne.symm hOther) hTable hKey⟩
    · exact ⟨(key_register_of_ne (Ne.symm hOther) waker).trans hKey,
        register_apart (Ne.symm hOther) hTable hKey waker⟩

/-- No wakeup is lost, and no future resolves early. -/
theorem wait_idle_woken (run : Runs trace reached) : NoLostWakeup trace reached := by
  have hTable := tableInv run
  refine ⟨fun call n waker hCall hRequest hReady => ?_, fun hZero hDrained n hIdle hPending => ?_,
    fun e he n hOwner m hOther key hKey => ?_, fun slot hSlot => ?_⟩
  · exact (waiter_sound run n).1 call hCall (hRequest ▸ rfl) hReady
  · obtain ⟨hChecked, key, waker, hOwn, woken, hLast, hSlot⟩ := (idle_waiter run hIdle).waiting hPending
    refine ⟨_, hLast, hSlot.resolve_right fun hMem => ?_⟩
    rcases hTable.covered _ hMem n hOwn hChecked with hCounted | ⟨g, hDraining⟩
    · exact hCounted hZero
    · have hNone := hDrained g
      rw [hDraining] at hNone
      cases hNone
  · obtain ⟨earlier, before, after, -, hBefore, -, hStart, -, choice, hEvent⟩ :=
      Machine.Runs.around run he
    have hPermits := Machine.Runs.permitted uses_entry uses_body run he
    have hWorld := tableInv hBefore
    rw [hStart] at hWorld
    rw [hEvent]
    exact @slots_apart e.request ⟨e.before, earlier⟩ e.op n m key hOwner hPermits hWorld hOther hKey
  · obtain ⟨n, hOwn, hLast⟩ := hTable.owned slot hSlot
    refine ⟨n, hOwn, hLast, fun m hSame => hTable.distinct m n _ hSame hOwn, fun hIdle => ?_⟩
    by_contra hReturned
    have hGone := (idle_waiter run hIdle).gone hReturned
    rw [hOwn] at hGone
    cases hGone

/-- Serve the requests one after the other, each in so many steps. -/
def serveAll (requests : List (Request × Nat)) : List (Move Unit Thread Request) :=
  requests.flatMap fun served =>
    .begin served.1 :: List.replicate served.2 (.act served.1.owner ())

/-- The last guard wakes a future, which then completes. -/
theorem wait_idle_woken_drop :
    ∃ trace reached, Runs trace reached ∧
      (waiterLog 0 trace).last = some { key := 0, waker := 7, woken := true } ∧
      (waiterLog 0 trace).returned = some (.poll (.ready ())) ∧ NoLostWakeup trace reached := by
  have hRun : (rundown.run (Machine.initial {}) (serveAll
      [(.newGuard 0, 2), (.poll 0 7, 4), (.dropGuard 0, 3), (.poll 0 8, 3)])).isSome := by decide
  exact ⟨_, _, Machine.runs_get hRun, rfl, rfl, wait_idle_woken (Machine.runs_get hRun)⟩

end Runs

end MsQuicH3.Rundown
