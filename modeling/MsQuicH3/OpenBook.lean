import MsQuicH3.Effect
import MsQuicH3.Concurrency.Watch

/-! The book of a stream opener: which native streams it opened in each direction, which
of them it handed out or dropped, and whose start it has seen resolved. -/
namespace MsQuicH3

open Concurrency

/-- The method that opens streams in a direction. -/
def openCall (uni : Bool) : OpenCall := if uni then .pollOpenSend else .pollOpenBidi

/-- The native stream a step of an opener opens in a direction. -/
def opens (n : Nat) (uni : Bool) : AdapterLabel → Option StreamKey
  | .event ⟨.opener m _, .conn (.submitOpenStart direction), .ok key, _, _⟩ =>
      if m = n ∧ direction = uni then some key else none
  | _ => none

/-- The native stream a step of an opener drops, or hands out as a return value. -/
def settles (n : Nat) (uni : Bool) : AdapterLabel → Option StreamKey
  | .event ⟨.opener m call, .conn (.closeOpening key), _, _, _⟩ =>
      if m = n ∧ call = openCall uni then some key else none
  | .finished ⟨.opener m call, _, .pollOpen (.ready (.ok (key, _)))⟩ =>
      if m = n ∧ call = openCall uni then some key else none
  | _ => none

/-- The native stream whose start a poll of an opener finds resolved. -/
def spends (n : Nat) : AdapterLabel → Option StreamKey
  | .event ⟨.opener m _, .stream key .pollStart, .ready _, _, _⟩ => if m = n then some key else none
  | _ => none

def openedStreams (n : Nat) (uni : Bool) (trace : List AdapterLabel) : List StreamKey :=
  trace.filterMap (opens n uni)

def settledStreams (n : Nat) (uni : Bool) (trace : List AdapterLabel) : List StreamKey :=
  trace.filterMap (settles n uni)

def spentStreams (n : Nat) (trace : List AdapterLabel) : List StreamKey :=
  trace.filterMap (spends n)

@[ext] structure OpenBook where
  opener : OpenerState
  opened : Bool → List StreamKey
  settled : Bool → List StreamKey
  spent : List StreamKey

def openBook (n : Nat) (w : AdapterWorld) : OpenBook where
  opener := w.state.opener n
  opened uni := openedStreams n uni w.trace
  settled uni := settledStreams n uni w.trace
  spent := spentStreams n w.trace

namespace OpenBook

variable (b : OpenBook) (uni direction : Bool) (key : StreamKey) (holder : Option StreamKey)

def hold : OpenBook := { b with opener := b.opener.setHolder uni holder }

def starting : OpenBook :=
  { b with opened := Function.update b.opened uni (b.opened uni ++ [key]) }

def settle : OpenBook :=
  { b with settled := Function.update b.settled uni (b.settled uni ++ [key]) }

/-- The entry of a return. -/
def close (result : Result) : OpenBook :=
  match result with
  | .pollOpen (.ready (.ok (key, _))) => b.settle uni key
  | _ => b

end OpenBook

section Entries

variable {n : Nat} {uni : Bool} {w : AdapterWorld} {label : AdapterLabel} {s : State}

theorem opens_foreign (h : label.request.owner ≠ .opener n) : opens n uni label = none := by
  unfold opens
  split
  · rw [if_neg]
    rintro ⟨rfl, -⟩
    exact h rfl
  · rfl

theorem settles_foreign (h : label.request.owner ≠ .opener n) : settles n uni label = none := by
  unfold settles
  split
  · rw [if_neg]
    rintro ⟨rfl, -⟩
    exact h rfl
  · rw [if_neg]
    rintro ⟨rfl, -⟩
    exact h rfl
  · rfl

theorem spends_foreign (h : label.request.owner ≠ .opener n) : spends n label = none := by
  unfold spends
  split
  · rw [if_neg]
    rintro rfl
    exact h rfl
  · rfl

theorem openBook_after (hOpens : ∀ direction, opens n direction label = none)
    (hSettles : ∀ direction, settles n direction label = none) (hSpends : spends n label = none)
    (hOpener : s.opener n = w.state.opener n) : openBook n (w.after label s) = openBook n w := by
  simp [openBook, openedStreams, settledStreams, spentStreams, hOpens, hSettles, hSpends, hOpener]

/-- The steps of others leave the book alone. -/
theorem openBook_foreign (h : label.request.owner ≠ .opener n)
    (hOpener : s.opener n = w.state.opener n) : openBook n (w.after label s) = openBook n w :=
  openBook_after (fun _ => opens_foreign h) (fun _ => settles_foreign h) (spends_foreign h) hOpener

end Entries

section Keys

variable {n m : Nat} {uni direction : Bool} {key : StreamKey}

theorem mem_openedStreams_snoc {trace : List AdapterLabel} {label : AdapterLabel} :
    key ∈ openedStreams n uni (trace ++ [label]) ↔
      key ∈ openedStreams n uni trace ∨ opens n uni label = some key := by
  simp [openedStreams]

/-- Every native open has a key of its own. -/
structure OpenKeys (w : AdapterWorld) : Prop where
  below : ∀ n uni key, key ∈ openedStreams n uni w.trace →
    ∃ k, key = .opened k ∧ k < w.state.openedCount
  owner : ∀ n m uni direction key, key ∈ openedStreams n uni w.trace →
    key ∈ openedStreams m direction w.trace → n = m ∧ uni = direction
  nodup : ∀ n uni, (openedStreams n uni w.trace).Nodup

theorem owner_eq_opener {request : Request} (h : request.owner = .opener n) :
    ∃ call, request = .opener n call := by
  cases request with
  | opener m call =>
      cases h
      exact ⟨call, rfl⟩
  | _ => cases h

theorem opens_event {config : H3Config} {choice : Choice} {request : Request} {op : Op} {s : State}
    (h : opens n uni (.event ((adapter config).event choice request op s)) = some key) :
    key = .opened s.openedCount ∧ op = .conn (.submitOpenStart uni) ∧
      (∃ call, request = .opener n call) ∧
      (op.perform config choice s).2.openedCount = s.openedCount + 1 := by
  obtain ⟨call, rfl⟩ : ∃ call, request = .opener n call := by
    apply owner_eq_opener
    by_contra hOther
    have hNone : opens n uni (.event ((adapter config).event choice request op s)) = none :=
      opens_foreign hOther
    rw [hNone] at h
    cases h
  cases op with
  | stream other op => cases h
  | conn op =>
      cases op with
      | submitOpenStart direction =>
          obtain ⟨result, rawId, panics⟩ := choice
          cases result with
          | error status => cases h
          | ok _ =>
              obtain ⟨rfl, hKey⟩ : direction = uni ∧ StreamKey.opened s.openedCount = key := by
                simpa [opens, Machine.event, Op.perform, ConnOp.perform] using h
              exact ⟨hKey.symm, rfl, ⟨call, rfl⟩, rfl⟩
      | _ => cases h

theorem perform_openedCount (config : H3Config) (choice : Choice) (op : Op) (s : State) :
    s.openedCount ≤ (op.perform config choice s).2.openedCount := by
  cases op with
  | stream key op => exact Nat.le_refl _
  | conn op =>
      cases op with
      | submitOpenStart direction =>
          cases h : choice.result <;> simp [Op.perform, ConnOp.perform, h]
      | _ => exact Nat.le_refl _

namespace OpenKeys

variable {w : AdapterWorld}

theorem silent (h : OpenKeys w) {label : AdapterLabel} {s : State}
    (hLabel : ∀ n uni, opens n uni label = none) (hCount : w.state.openedCount ≤ s.openedCount) :
    OpenKeys (w.after label s) := by
  have hSame : ∀ n uni, openedStreams n uni (w.after label s).trace = openedStreams n uni w.trace := by
    intro n uni
    simp [openedStreams, hLabel]
  constructor
  · intro n uni key hKey
    rw [hSame] at hKey
    obtain ⟨k, rfl, hBelow⟩ := h.below n uni key hKey
    exact ⟨k, rfl, Nat.lt_of_lt_of_le hBelow hCount⟩
  · intro n m uni direction key hLeft hRight
    rw [hSame] at hLeft hRight
    exact h.owner n m uni direction key hLeft hRight
  · intro n uni
    rw [hSame]
    exact h.nodup n uni

theorem event (h : OpenKeys w) (config : H3Config) (request : Request) (op : Op) (choice : Choice) :
    OpenKeys ((adapter config).advance choice request op w) := by
  by_cases hNone : ∀ n uni,
      opens n uni (.event ((adapter config).event choice request op w.state)) = none
  · exact h.silent hNone (perform_openedCount config choice op w.state)
  · obtain ⟨n, hNone⟩ := not_forall.1 hNone
    obtain ⟨uni, hSome⟩ := not_forall.1 hNone
    obtain ⟨key, hKey⟩ := Option.ne_none_iff_exists'.1 hSome
    obtain ⟨rfl, hOp, ⟨call, hRequest⟩, hCount⟩ := opens_event hKey
    have hFresh : ∀ m direction, .opened w.state.openedCount ∉ openedStreams m direction w.trace := by
      intro m direction hMem
      obtain ⟨k, hEq, hBelow⟩ := h.below m direction _ hMem
      cases hEq
      exact Nat.lt_irrefl _ hBelow
    have hHere : ∀ m direction key,
        opens m direction (.event ((adapter config).event choice request op w.state)) = some key →
        m = n ∧ direction = uni ∧ key = .opened w.state.openedCount := by
      intro m direction key hOpens
      obtain ⟨rfl, hOther, ⟨_, hOwner⟩, -⟩ := opens_event hOpens
      rw [hOp] at hOther
      rw [hRequest] at hOwner
      cases hOther
      cases hOwner
      exact ⟨rfl, rfl, rfl⟩
    constructor
    · intro m direction key hMem
      rw [Machine.advance_trace, mem_openedStreams_snoc] at hMem
      rw [Machine.advance_state, adapter_perform, hCount]
      rcases hMem with hOld | hNew
      · obtain ⟨k, rfl, hBelow⟩ := h.below m direction key hOld
        exact ⟨k, rfl, Nat.lt_succ_of_lt hBelow⟩
      · obtain ⟨rfl, -⟩ := opens_event hNew
        exact ⟨_, rfl, Nat.lt_succ_self _⟩
    · intro m k direction other key hLeft hRight
      rw [Machine.advance_trace, mem_openedStreams_snoc] at hLeft hRight
      rcases hLeft with hLeft | hLeft
      · rcases hRight with hRight | hRight
        · exact h.owner m k direction other key hLeft hRight
        · obtain ⟨-, -, rfl⟩ := hHere _ _ _ hRight
          exact absurd hLeft (hFresh _ _)
      · obtain ⟨rfl, rfl, rfl⟩ := hHere _ _ _ hLeft
        rcases hRight with hRight | hRight
        · exact absurd hRight (hFresh _ _)
        · obtain ⟨rfl, rfl, -⟩ := hHere _ _ _ hRight
          exact ⟨rfl, rfl⟩
    · intro m direction
      rw [Machine.advance_trace, openedStreams, List.filterMap_append]
      cases hOpens : opens m direction (.event ((adapter config).event choice request op w.state)) with
      | none => simpa [hOpens, openedStreams] using h.nodup m direction
      | some key =>
          obtain ⟨rfl, rfl, rfl⟩ := hHere _ _ _ hOpens
          simp only [List.filterMap_cons, hOpens, List.filterMap_nil]
          apply List.Nodup.append (h.nodup _ _) (List.nodup_singleton _)
          intro key hOld hNew
          rw [List.mem_singleton.1 hNew] at hOld
          exact hFresh _ _ hOld

end OpenKeys

end Keys

end MsQuicH3
