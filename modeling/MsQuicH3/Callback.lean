import MsQuicH3.Outcome

/-! Panic containment around a callback body. -/
namespace MsQuicH3

open Concurrency

/-- The application code of a forced close. -/
def h3InternalError : Nat := 0x0102

def internalErrorStatus : Status := .internalError

/-- Run `body` unless an earlier panic poisoned the context. A panic may strike
before any operation of the body and before its return, and hands over to
`recover`. -/
def guardCallback (isPoisoned : Code Bool) (panicPoint : Nat → Code Bool)
    (poisonedResult : Except Status Unit) (body recover : Code (Except Status Unit)) :
    Code (Except Status Unit) := do
  if ← isPoisoned then return poisonedResult
  else Program.guarded panicPoint recover 0 body

end MsQuicH3
