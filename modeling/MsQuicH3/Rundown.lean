import MsQuicH3.Concurrency.Channel
import MsQuicH3.Concurrency.Calls

/-! The rundown of a registration: guards that count tracked handles, and futures that
wait until none is left. Every step is an atomic access of the counter or a critical
section of the waker table; the wakers a drain collects are called by the same step.
Keys and the counter do not overflow. -/
namespace MsQuicH3.Rundown

open Concurrency

/-- What the owner of a guard or of a future may still do with it. -/
inductive Life where
  | fresh
  | live
  | dropped
  deriving DecidableEq, Repr

/-- The shared `RundownState` with its waker table, and the key of every future. -/
structure State where
  active : Nat := 0
  next : Nat := 0
  map : List (Nat × Nat) := []
  key : Nat → Option Nat := fun _ => none
  guard : Nat → Life := fun _ => .fresh
  waiter : Nat → Life := fun _ => .live

/-- The table with a waker stored under a key. -/
def insert (map : List (Nat × Nat)) (key waker : Nat) : List (Nat × Nat) :=
  map.filter (fun slot => slot.1 != key) ++ [(key, waker)]

def remove (map : List (Nat × Nat)) (key : Nat) : List (Nat × Nat) :=
  map.filter (fun slot => slot.1 != key)

inductive Op where
  | fetchAdd
  | fetchSub
  | drainAndWake
  | load
  | register (waiter waker : Nat)
  | deregister (waiter : Nat)
  deriving DecidableEq, Repr

@[reducible] def Op.Reply : Op → Type
  | .fetchAdd => Unit
  | .fetchSub | .load | .register _ _ => Nat
  | .drainAndWake => List (Nat × Nat)
  | .deregister _ => Option Nat

/-- A registration replies with the key it used, a removal with the key it took. -/
def Op.perform : (op : Op) → State → op.Reply × State
  | .fetchAdd, s => ((), { s with active := s.active + 1 })
  | .fetchSub, s => (s.active, { s with active := s.active - 1 })
  | .drainAndWake, s => (s.map, { s with map := [] })
  | .load, s => (s.active, s)
  | .register waiter waker, s =>
      match s.key waiter with
      | some key => (key, { s with map := insert s.map key waker })
      | none =>
          (s.next, { s with
            next := s.next + 1
            map := insert s.map s.next waker
            key := Function.update s.key waiter (some s.next) })
  | .deregister waiter, s =>
      match s.key waiter with
      | some key =>
          (some key, { s with
            map := remove s.map key
            key := Function.update s.key waiter none })
      | none => (none, s)

@[reducible] def signature : Signature where
  Op := Op
  Reply := Op.Reply

abbrev Code (α : Type) := Program signature α

def issue (op : Op) : Code op.Reply := Program.perform (S := signature) op

inductive Result where
  | unit
  | poll (polled : Poll Unit)
  deriving DecidableEq, Repr

def guardNew : Code Result := do
  issue .fetchAdd
  return .unit

def guardDrop : Code Result := do
  if (← issue .fetchSub) = 1 then
    let _ ← issue .drainAndWake
    return .unit
  else return .unit

/-- The end of a poll that found the rundown idle. -/
def completePoll (waiter : Nat) : Code Result := do
  let _ ← issue (.deregister waiter)
  return .poll (.ready ())

/-- The counter is read again once the waker is registered. -/
def waitIdlePoll (waiter waker : Nat) : Code Result := do
  if (← issue .load) = 0 then completePoll waiter
  else
    let _ ← issue (.register waiter waker)
    if (← issue .load) = 0 then completePoll waiter
    else return .poll .pending

def waitIdleDrop (waiter : Nat) : Code Result := do
  let _ ← issue (.deregister waiter)
  return .unit

/-- Every guard and every future is used by one thread at a time. -/
inductive Thread where
  | guard (n : Nat)
  | waiter (n : Nat)
  deriving DecidableEq, Repr

inductive Request where
  | newGuard (n : Nat)
  | dropGuard (n : Nat)
  | poll (waiter waker : Nat)
  | dropWaiter (waiter : Nat)
  deriving DecidableEq, Repr

def Request.owner : Request → Thread
  | .newGuard n | .dropGuard n => .guard n
  | .poll waiter _ | .dropWaiter waiter => .waiter waiter

def Request.code : Request → Code Result
  | .newGuard _ => guardNew
  | .dropGuard _ => guardDrop
  | .poll waiter waker => waitIdlePoll waiter waker
  | .dropWaiter waiter => waitIdleDrop waiter

/-- A guard is created and dropped once; a dropped future is not polled. -/
def deliver : Request → State → Option State
  | .newGuard n, s =>
      if s.guard n = .fresh then some { s with guard := Function.update s.guard n .live } else none
  | .dropGuard n, s =>
      if s.guard n = .live then some { s with guard := Function.update s.guard n .dropped } else none
  | .poll n _, s => if s.waiter n = .live then some s else none
  | .dropWaiter n, s =>
      if s.waiter n = .live then some { s with waiter := Function.update s.waiter n .dropped }
      else none

def rundown : Machine signature State Unit Thread Request Empty Result where
  perform _ op s := op.perform s
  deliver := deliver
  owner := Request.owner
  entry request := request.code >>= fun result => .done (.inr result)
  body _ loop := nomatch loop

abbrev RundownLabel := Label signature State Request Result

abbrev RundownEvent := Event signature State Request

abbrev RundownConfig := Config signature State Thread Request Empty Result

abbrev RundownWorld := World signature State Request Result

/-- Everything that can happen on a new registration. -/
def Runs : List RundownLabel → RundownConfig → Prop := rundown.Runs (Machine.initial {})

end MsQuicH3.Rundown
