import MsQuicH3.Connection

/-! The stream opener: it starts native streams and drives each of them to a stream
with a validated ID. -/
namespace MsQuicH3

open Concurrency

/-- Empty a holder; dropping the opening stream in it closes the native one. -/
def dropOpening (opener : Nat) (uni : Bool) : Code Unit := do
  let held ← onConn (.holder opener uni)
  onConn (.setHolder opener uni none)
  match held with
  | some key => onConn (.closeOpening key)
  | none => pure ()

/-- The cause of a cancelled start. -/
def streamOpenConnError : Code OpenError := do
  match ← onConn .commitConn with
  | some cause => return .recorded cause
  | none => return .cancelled

def classifyStartOutcome : Except Status Nat → Code (Except OpenError Nat)
  | .error status => do
      match ← onConn .commitConn with
      | some cause => return .error (.recorded cause)
      | none => return .error (.status status)
  | .ok raw =>
      match validateStreamId raw with
      | some id => return .ok id
      | none => return .error .invalidId

/-- Wait for the start of the stream in the holder and hand it out. -/
def pollOpening (opener : Nat) (uni : Bool) :
    Code (Poll (Except OpenError (StreamKey × Nat))) := do
  match ← onConn (.holder opener uni) with
  | none => return .pending
  | some key => do
      match ← onStream key .pollStart with
      | .pending => return .pending
      | .ready none => do
          dropOpening opener uni
          let error ← streamOpenConnError
          return .ready (.error error)
      | .ready (some raw) => do
          onConn (.setHolder opener uni none)
          match ← classifyStartOutcome raw with
          | .ok id => return .ready (.ok (key, id))
          | .error error => do
              onConn (.closeOpening key)
              return .ready (.error error)

def pollOpenInner (opener : Nat) (uni : Bool) :
    Code (Poll (Except OpenError (StreamKey × Nat))) := do
  match ← onConn .commitConn with
  | some cause => do
      dropOpening opener uni
      return .ready (.error (.recorded cause))
  | none => do
      match ← onConn (.holder opener uni) with
      | some _ => pollOpening opener uni
      | none => do
          match ← onConn (.submitOpenStart uni) with
          | .ok key => do
              onConn (.setHolder opener uni (some key))
              pollOpening opener uni
          | .error status => do
              match ← onConn .commitConn with
              | some cause => return .ready (.error (.recorded cause))
              | none => return .ready (.error (.status status))

/-- An application close records its provisional reason before the native call. -/
def close (code : Nat) : Code Unit := do
  onConn (.recordConnTerminal .localClose)
  onConn (.submitConnShutdown (clampApplicationCode code))

end MsQuicH3
