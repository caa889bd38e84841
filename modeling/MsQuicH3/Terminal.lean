import MsQuicH3.Error

/-! The two shared slots that record why a connection and why a send half ended,
and the classification of native shutdowns into connection terminals. Every
function here is one critical section of the slot's lock. -/
namespace MsQuicH3

@[ext] structure ConnTerminalState where
  terminal : Option ConnectionTerminal := none
  observed : Bool := false
  deriving DecidableEq, Repr

namespace ConnTerminalState

/-- The first cause wins; a provisional one gives way to a specific one. A frozen
slot ignores every candidate. -/
def record (slot : ConnTerminalState) (candidate : ConnectionTerminal) : ConnTerminalState :=
  if slot.observed then slot
  else match slot.terminal with
    | none => { slot with terminal := some candidate }
    | some existing =>
        if existing.isProvisional && !candidate.isProvisional then
          { slot with terminal := some candidate }
        else slot

/-- Freeze the slot, whatever it holds. -/
def observe (slot : ConnTerminalState) : Option ConnectionTerminal × ConnTerminalState :=
  (slot.terminal, { slot with observed := true })

def hasInternal (slot : ConnTerminalState) : Bool :=
  match slot.terminal with
  | some (.internal _) => true
  | _ => false

def terminalIsSome (slot : ConnTerminalState) : Bool := slot.terminal.isSome

end ConnTerminalState

/-- Freeze the slot for a delivery, but never an empty one. -/
def commitConn (slot : ConnTerminalState) : Option ConnectionTerminal × ConnTerminalState :=
  if slot.terminalIsSome then slot.observe else (none, slot)

/-- Freeze the slot only if an internal failure has been recorded. -/
def failFastTerminal (slot : ConnTerminalState) :
    Option ConnectionTerminal × ConnTerminalState :=
  if slot.hasInternal then slot.observe else (none, slot)

/-- The value a slot holds that every candidate was offered to and nobody froze:
the first cause that is not provisional, else the provisional one. -/
def settled (candidates : List ConnectionTerminal) : Option ConnectionTerminal :=
  match candidates.find? (fun cause => !cause.isProvisional) with
  | some cause => some cause
  | none => candidates.head?.map fun _ => .localClose

theorem ConnectionTerminal.isProvisional_iff {cause : ConnectionTerminal} :
    cause.isProvisional = true ↔ cause = .localClose := by
  cases cause <;> simp [isProvisional]

theorem settled_append (candidates : List ConnectionTerminal) (candidate : ConnectionTerminal) :
    settled (candidates ++ [candidate]) =
      (ConnTerminalState.record ⟨settled candidates, false⟩ candidate).terminal := by
  unfold settled ConnTerminalState.record
  rw [List.find?_append]
  cases hFind : candidates.find? (fun cause => !cause.isProvisional) with
  | some cause =>
      have hCause : cause.isProvisional = false := by simpa using List.find?_some hFind
      simp [hCause]
  | none =>
      cases candidates with
      | nil => cases candidate <;> rfl
      | cons first rest => cases candidate <;> rfl

/-- How a slot may change: once frozen it stays, and it is never emptied. -/
structure ConnTerminalState.Le (slot later : ConnTerminalState) : Prop where
  frozen : slot.observed = true → later = slot
  occupied : slot.terminal.isSome → later.terminal.isSome

namespace ConnTerminalState

theorem Le.refl (slot : ConnTerminalState) : slot.Le slot := ⟨fun _ => rfl, id⟩

theorem Le.trans {first second third : ConnTerminalState} (left : first.Le second)
    (right : second.Le third) : first.Le third where
  frozen h := by
    have hSecond := left.frozen h
    rw [right.frozen (hSecond ▸ h), hSecond]
  occupied h := right.occupied (left.occupied h)

theorem record_le (slot : ConnTerminalState) (candidate : ConnectionTerminal) :
    slot.Le (slot.record candidate) := by
  unfold record
  constructor
  · intro h
    simp [h]
  · intro h
    repeat' split
    all_goals simp_all

theorem observe_le (slot : ConnTerminalState) : slot.Le slot.observe.2 := by
  cases slot with
  | mk terminal observed => exact ⟨fun h => by simp_all [observe], id⟩

end ConnTerminalState

theorem commitConn_le (slot : ConnTerminalState) : slot.Le (commitConn slot).2 := by
  unfold commitConn
  split
  · exact slot.observe_le
  · exact .refl slot

theorem failFastTerminal_le (slot : ConnTerminalState) : slot.Le (failFastTerminal slot).2 := by
  unfold failFastTerminal
  split
  · exact slot.observe_le
  · exact .refl slot

/-- The candidate's outcome: the winner that now owns the slot, and the slot. -/
def publishSend (slot : Option SendTerminal) (candidate : SendTerminal) :
    SendTerminal × Option SendTerminal :=
  match slot with
  | none => (candidate, some candidate)
  | some existing =>
      if existing.isProvisional && !candidate.isProvisional then (candidate, some candidate)
      else (existing, some existing)

/-- How a send slot may change: an authoritative winner stays, and no slot is emptied. -/
structure SlotLe (slot later : Option SendTerminal) : Prop where
  winner : ∀ terminal, definitive slot = some terminal → later = slot
  occupied : slot.isSome → later.isSome

namespace SlotLe

theorem refl (slot : Option SendTerminal) : SlotLe slot slot := ⟨fun _ _ => rfl, id⟩

theorem trans {first second third : Option SendTerminal} (left : SlotLe first second)
    (right : SlotLe second third) : SlotLe first third where
  winner terminal h := by
    have hSecond := left.winner terminal h
    rw [right.winner terminal (hSecond ▸ h), hSecond]
  occupied h := right.occupied (left.occupied h)

end SlotLe

theorem publishSend_le (slot : Option SendTerminal) (candidate : SendTerminal) :
    SlotLe slot (publishSend slot candidate).2 := by
  unfold publishSend
  constructor
  · intro terminal h
    cases slot with
    | none => cases h
    | some existing => cases existing <;> first | rfl | cases h
  · intro h
    repeat' split
    all_goals simp_all

/-- The winner a publication reports is the one the slot now holds. -/
theorem publishSend_slot (slot : Option SendTerminal) (candidate : SendTerminal) :
    (publishSend slot candidate).2 = some (publishSend slot candidate).1 := by
  unfold publishSend
  repeat' split
  all_goals rfl

/-- A publication ends with the candidate or with a winner that was there before. -/
theorem publishSend_cases (slot : Option SendTerminal) (candidate : SendTerminal) :
    ((publishSend slot candidate).1 = candidate ∧ definitive slot = none) ∨
      slot = some (publishSend slot candidate).1 := by
  cases slot with
  | none => exact .inl ⟨rfl, rfl⟩
  | some existing =>
      cases existing with
      | provisionalAbort =>
          cases candidate with
          | provisionalAbort => exact .inr rfl
          | _ => exact .inl ⟨rfl, rfl⟩
      | _ => exact .inr rfl

/-- The marker never wins against an authoritative candidate. -/
theorem publishSend_isProvisional {slot : Option SendTerminal} {candidate : SendTerminal}
    (h : candidate.isProvisional = false) : (publishSend slot candidate).1.isProvisional = false := by
  cases slot with
  | none => exact h
  | some existing => cases existing <;> cases candidate <;> first | rfl | cases h

def classifyTransport (status : Status) (errorCode : Nat) : ConnectionTerminal :=
  match status with
  | .connectionTimeout | .connectionIdle => .timeout
  | _ => .transport status errorCode

def classifyConnShutdown (byApp closedRemotely : Bool) (errorCode : Nat) (status : Status) :
    ConnectionTerminal :=
  match byApp, closedRemotely with
  | true, true => .peerApplication errorCode
  | true, false => .localClose
  | false, _ => classifyTransport status errorCode

end MsQuicH3
