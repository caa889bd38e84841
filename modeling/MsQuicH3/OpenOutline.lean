import MsQuicH3.OpenBook

/-! A stream opener along its code. Of the book of an opener only its own steps change
anything, so its methods are followed on the book. -/
namespace MsQuicH3

open Concurrency

/-- Operations that put an opening stream away. -/
def Op.tidies : Op → Bool
  | .conn (.holder _ _) | .conn (.setHolder _ _ none) | .conn (.closeOpening _) => true
  | _ => false

/-- The connection cause an open error reports. -/
def OpenError.cause : OpenError → Option ConnectionTerminal
  | .recorded cause => some cause
  | _ => none

/-- A call waits with its waker registered on the start of the stream in the holder. -/
def Waits (n : Nat) (uni : Bool) (events : List AdapterEvent) : Prop :=
  ∃ earlier wait key, events = earlier ++ [wait] ∧ wait.op = .stream key .pollStart ∧
    (wait.before.stream key).start = .waiting ∧ (wait.after.opener n).holder uni = some key

/-- The error was decided by a last look at the connection slot. -/
def Decides (error : OpenError) (events : List AdapterEvent) : Prop :=
  ∃ earlier look later, events = earlier ++ look :: later ∧ look.op = .conn .commitConn ∧
    (∀ e ∈ later, e.op.tidies = true) ∧ error.cause = look.before.conn.terminal

/-- The stream was handed out under the ID its start came with. -/
def Identified (key : StreamKey) (id : Nat) (events : List AdapterEvent) : Prop :=
  id ≤ maxQuicVarint ∧ ∃ e ∈ events, e.op = .stream key .pollStart ∧
    (e.before.stream key).start = .sent (.ok id)

def Op.closesOpening : Op → Bool
  | .conn (.closeOpening _) => true
  | _ => false

/-- How a call of a method of the opener ends. -/
structure OpenEnd (n : Nat) (uni : Bool) (events : List AdapterEvent) (result : Result) : Prop where
  waits : result = .pollOpen .pending → Waits n uni events
  decides : ∀ error, result = .pollOpen (.ready (.error error)) → error ≠ .invalidId →
    Decides error events
  identified : ∀ key id, result = .pollOpen (.ready (.ok (key, id))) → Identified key id events
  dropped : ∀ e ∈ events, e.op.closesOpening = true →
    ∃ error, result = .pollOpen (.ready (.error error))

/-- At most one stream of a direction is not settled. -/
def OpenBook.Sound (b : OpenBook) : Prop :=
  ∀ uni, ∃ flight : Option StreamKey, b.opened uni = b.settled uni ++ flight.toList

/-- What the opener has in flight is in its holders, and not resolved yet. -/
structure OpenBook.Idle (b : OpenBook) : Prop where
  held : ∀ uni, b.opened uni = b.settled uni ++ (b.opener.holder uni).toList
  spent : ∀ key ∈ b.spent, ∃ uni, key ∈ b.settled uni

namespace OpenBook

variable {b : OpenBook} {uni : Bool} {key : StreamKey}

theorem Idle.sound (h : b.Idle) : b.Sound := fun uni => ⟨_, h.held uni⟩

theorem holder_setHolder (opener : OpenerState) (uni direction : Bool) (holder : Option StreamKey) :
    (opener.setHolder uni holder).holder direction =
      if direction = uni then holder else opener.holder direction := by
  cases uni <;> cases direction <;> rfl

theorem Idle.clear (h : b.Idle) (hHolder : b.opener.holder uni = none) : (b.hold uni none).Idle := by
  refine ⟨fun direction => ?_, h.spent⟩
  have hHeld := h.held direction
  simp only [hold, holder_setHolder]
  by_cases hDirection : direction = uni
  · subst hDirection
    simpa [hHolder] using hHeld
  · simpa [hDirection] using hHeld

theorem Idle.started (h : b.Idle) (hHolder : b.opener.holder uni = none) :
    ((b.starting uni key).hold uni (some key)).Idle := by
  refine ⟨fun direction => ?_, h.spent⟩
  have hHeld := h.held direction
  simp only [hold, starting, holder_setHolder]
  by_cases hDirection : direction = uni
  · subst hDirection
    simp [hHeld, hHolder]
  · simpa [hDirection] using hHeld

/-- The stream in a holder has not been resolved. -/
theorem Idle.fresh {n : Nat} {w : AdapterWorld} (h : b.Idle) (hHolder : b.opener.holder uni = some key)
    (hBook : openBook n w = b) (hKeys : OpenKeys w) : key ∉ b.spent := by
  intro hSpent
  obtain ⟨direction, hSettled⟩ := h.spent key hSpent
  have hOpened : ∀ direction, b.opened direction = openedStreams n direction w.trace := by
    intro direction
    rw [← hBook]
    rfl
  have hHere : key ∈ b.opened uni := by
    rw [h.held uni, hHolder]
    simp
  have hThere : key ∈ b.opened direction := by
    rw [h.held direction]
    exact List.mem_append_left _ hSettled
  rw [hOpened] at hHere hThere
  obtain ⟨-, rfl⟩ := hKeys.owner n n uni direction key hHere hThere
  have hNodup := hKeys.nodup n uni
  rw [← hOpened, h.held uni, hHolder] at hNodup
  exact (List.nodup_append.1 hNodup).2.2 key hSettled key (by simp) rfl

end OpenBook

/-- The opener polled only starts of its own streams, and none of them again once it
was resolved; and its calls ended as they should. -/
structure OpenInv (n : Nat) (w : AdapterWorld) : Prop where
  sound : (openBook n w).Sound
  polled : ∀ earlier e later key, w.trace = earlier ++ .event e :: later →
    e.request.owner = .opener n → e.op = .stream key .pollStart →
    (∃ uni, key ∈ openedStreams n uni earlier) ∧ key ∉ spentStreams n earlier
  ended : ∀ call uni, .finished call ∈ w.trace → call.request = .opener n (openCall uni) →
    OpenEnd n uni call.events call.result

/-- A decomposition of a trace with a further label. -/
theorem snoc_eq {α : Type} {trace earlier later : List α} {label e : α}
    (h : trace ++ [label] = earlier ++ e :: later) :
    (∃ rest, later = rest ++ [label] ∧ trace = earlier ++ e :: rest) ∨
      (later = [] ∧ trace = earlier ∧ label = e) := by
  cases later using List.reverseRecOn with
  | nil =>
      obtain ⟨hTrace, hLabel⟩ := List.append_inj' h rfl
      exact .inr ⟨rfl, hTrace, List.singleton_inj.1 hLabel⟩
  | append_singleton rest last =>
      rw [← List.cons_append, ← List.append_assoc] at h
      obtain ⟨hTrace, hLabel⟩ := List.append_inj' h rfl
      exact .inl ⟨rest, by rw [List.singleton_inj.1 hLabel], hTrace⟩

namespace OpenInv

variable {n : Nat} {w : AdapterWorld} {label : AdapterLabel} {s : State}

/-- A step that is neither a poll of a start nor a return of the opener. -/
theorem step (h : OpenInv n w) (hSound : (openBook n (w.after label s)).Sound)
    (hPoll : ∀ e key, label = .event e → e.request.owner = .opener n →
      e.op = .stream key .pollStart →
      (∃ uni, key ∈ openedStreams n uni w.trace) ∧ key ∉ spentStreams n w.trace)
    (hCall : ∀ call uni, label = .finished call → call.request = .opener n (openCall uni) →
      OpenEnd n uni call.events call.result) : OpenInv n (w.after label s) := by
  refine ⟨hSound, ?_, ?_⟩
  · intro earlier e later key hTrace hOwner hOp
    rcases snoc_eq hTrace with ⟨rest, -, hOld⟩ | ⟨-, rfl, rfl⟩
    · exact h.polled earlier e rest key hOld hOwner hOp
    · exact hPoll e key rfl hOwner hOp
  · intro call uni hMem hRequest
    rw [World.after_trace, List.mem_append, List.mem_singleton] at hMem
    rcases hMem with hOld | rfl
    · exact h.ended call uni hOld hRequest
    · exact hCall call uni rfl hRequest

/-- A step of another thread. -/
theorem foreign (h : OpenInv n w) (hOwner : label.request.owner ≠ .opener n)
    (hOpener : s.opener n = w.state.opener n) : OpenInv n (w.after label s) := by
  apply h.step
  · rw [openBook_foreign hOwner hOpener]
    exact h.sound
  · rintro e key rfl hOwn -
    exact absurd hOwn hOwner
  · rintro call uni rfl hRequest
    exact absurd (congrArg Request.owner hRequest) hOwner

end OpenInv

/-- Code of a method of the opener, followed on the book. -/
abbrev OpenSafe {α : Type} (config : H3Config) (n : Nat) (uni : Bool)
    (post : α → List AdapterEvent → OpenBook → Prop) (events : List AdapterEvent) (code : Code α)
    (b : OpenBook) : Prop :=
  ∀ w, openBook n w = b → (adapter config).Safe OpenKeys (OpenInv n)
    (fun w w' => openBook n w' = openBook n w) (.opener n (openCall uni))
    (fun result events w => post result events (openBook n w)) events code w

section Rules

variable {config : H3Config} {n : Nat} {uni : Bool} {α β : Type}
  {post : α → List AdapterEvent → OpenBook → Prop} {events : List AdapterEvent} {b : OpenBook}

theorem open_bind {mid : β → List AdapterEvent → OpenBook → Prop} {code : Code β}
    {next : β → Code α} (h : OpenSafe config n uni mid events code b)
    (hNext : ∀ result events b, mid result events b →
      OpenSafe config n uni post events (next result) b) :
    OpenSafe config n uni post events (code >>= next) b := by
  intro w hBook
  exact ((h w hBook).mono fun result events w' hMid => hNext result events _ hMid w' rfl).bind

end Rules

section Ends

variable {n : Nat} {uni : Bool} {events : List AdapterEvent}

/-- Nothing was dropped so far. -/
def Keeps (events : List AdapterEvent) : Prop := ∀ e ∈ events, e.op.closesOpening = false

theorem Keeps.snoc {e : AdapterEvent} (h : Keeps events) (he : e.op.closesOpening = false) :
    Keeps (events ++ [e]) := by
  intro other hOther
  rcases List.mem_append.1 hOther with hOld | hNew
  · exact h other hOld
  · rw [List.mem_singleton.1 hNew]
    exact he

end Ends

section Code

variable {config : H3Config} {n : Nat} {uni : Bool} {α : Type} {events : List AdapterEvent}
  {b : OpenBook}

end Code

section Outline

variable (config : H3Config) (n : Nat)

variable {n} in
theorem OpenBook.Idle.initial : (openBook n ⟨{}, []⟩).Idle :=
  ⟨fun uni => by cases uni <;> rfl, by simp [openBook, spentStreams]⟩

theorem OpenInv.initial : OpenInv n ⟨{}, []⟩ := by
  refine ⟨fun uni => ⟨none, rfl⟩, ?_, by simp⟩
  intro earlier e later key hTrace
  simp at hTrace

variable {config n}

end Outline

end MsQuicH3
