import MsQuicH3.Error

/-! Payload classification and the owned copy of a payload handed to the native
side. -/
namespace MsQuicH3

inductive SendLen where
  | empty
  | nonEmpty
  | oversized
  deriving DecidableEq, Repr

def classifySendLen (remaining ceiling : Nat) : SendLen :=
  if remaining = 0 then .empty
  else if remaining > ceiling then .oversized
  else .nonEmpty

theorem classifySendLen_eq_empty {remaining ceiling : Nat} :
    classifySendLen remaining ceiling = .empty ↔ remaining = 0 := by
  unfold classifySendLen
  split
  next hEmpty => simp [hEmpty]
  next hSome => split <;> simp [hSome]

theorem classifySendLen_eq_nonEmpty {remaining ceiling : Nat} :
    classifySendLen remaining ceiling = .nonEmpty ↔ remaining ≠ 0 ∧ remaining ≤ ceiling := by
  unfold classifySendLen
  split
  next hEmpty => simp [hEmpty]
  next hSome => split <;> simp <;> omega

/-- The bytes of one payload and the length the native buffer carries for them,
which is cast from the byte count. -/
structure SendBuffer where
  length : UInt32
  bytes : List UInt8
  deriving DecidableEq, Repr

def SendBuffer.new (bytes : List UInt8) : SendBuffer where
  length := UInt32.ofNat bytes.length
  bytes := bytes

/-- The one copy of a payload: all of its remaining bytes. -/
def copyIntoSendBuffer (remaining : List UInt8) : SendBuffer := .new remaining

def classifyPayload (remaining ceiling : Nat) : SendPayload :=
  match classifySendLen remaining ceiling with
  | .empty => .empty
  | .oversized => .oversized remaining ceiling
  | .nonEmpty => .nonEmpty (UInt32.ofNat remaining)

end MsQuicH3
