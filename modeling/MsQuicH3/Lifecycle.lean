import MsQuicH3.Concurrency.Channel
import MsQuicH3.Concurrency.Calls
import MsQuicH3.Error

/-! The native handles a registration tracks: client connections, listeners and the
connections these accept, each counted by a rundown guard for as long as it lives. A
listener runs its callbacks in parallel, one thread for each invocation. What a panic
unwinds is what the body holds in its local variables at that point. -/
namespace MsQuicH3.Lifecycle

open Concurrency

inductive Handle where
  | client (n : Nat)
  | listener (l : Nat)
  | accepted (l n : Nat)
  deriving DecidableEq, Repr

/-- A connection is shared behind an `Arc`, a listener is not. -/
def Handle.shared : Handle → Bool
  | .listener _ => false
  | .client _ | .accepted _ _ => true

/-- The callback context of a listener with the channels to its frontend, and what native
code does with the handle: whether it indicates events, has indicated the last one, and
the connections it has offered. -/
structure ListenerState where
  conn : Channel (Option Nat) := .unbounded
  shutdown : OneShot Unit := .waiting
  poisoned : Bool := false
  used : Bool := false
  listening : Bool := false
  stopped : Bool := false
  offered : List Nat := []

/-- Where the future of a connect attempt is suspended: before its first poll, where it holds
the guard, or waiting for the connection, where it holds a reference to the handle. -/
inductive Suspended where
  | unpolled
  | waiting
  deriving DecidableEq, Repr

/-- A connect attempt. While it runs its future holds nothing. -/
inductive Connecting where
  | fresh
  | suspended (point : Suspended)
  | running
  | done
  deriving DecidableEq, Repr

/-- `arcs` counts the references to a `ConnHandle`, `external` those of a handle the
application has. -/
structure State where
  active : Nat := 0
  arcs : Handle → Nat := fun _ => 0
  external : Handle → Nat := fun _ => 0
  listener : Nat → ListenerState := fun _ => {}
  connecting : Nat → Connecting := fun _ => .fresh

namespace State

def setListener (s : State) (l : Nat) (listener : ListenerState) : State :=
  { s with listener := Function.update s.listener l listener }

@[simp] theorem setListener_self (s : State) (l : Nat) (listener : ListenerState) :
    (s.setListener l listener).listener l = listener := by simp [setListener]

theorem setListener_of_ne (s : State) {l other : Nat} (listener : ListenerState)
    (h : other ≠ l) : (s.setListener l listener).listener other = s.listener other := by
  simp [setListener, h]

@[simp] theorem setListener_arcs (s : State) (l : Nat) (listener : ListenerState) :
    (s.setListener l listener).arcs = s.arcs := rfl

@[simp] theorem setListener_external (s : State) (l : Nat) (listener : ListenerState) :
    (s.setListener l listener).external = s.external := rfl

@[simp] theorem setListener_connecting (s : State) (l : Nat) (listener : ListenerState) :
    (s.setListener l listener).connecting = s.connecting := rfl

end State

/-- What the outside decides: the result of a native call, whether a callback panics, and
what the connect waiter has been told. -/
structure Choice where
  result : Except Status Unit := .ok ()
  panics : Bool := false
  connected : Poll (Except Status Unit) := .ready (.ok ())
  deriving DecidableEq

/-- `arcNew` is the `ConnHandle` built of the native handle and its guard, in its `Arc`.
`fromRaw` takes ownership of an offered connection; nothing in between can panic until the
ownership token is set. `handOver` gives references to the application. -/
inductive Op where
  | reserve (h : Handle)
  | release (h : Handle)
  -- the callback context of a listener
  | isPoisoned (l : Nat)
  | panicPoint (k : Nat)
  | setPoisoned (l : Nat)
  | sendConn (l : Nat) (message : Option Nat)
  | sendShutdown (l : Nat)
  -- an offered connection
  | setConfiguration (h : Handle)
  | fromRaw (h : Handle)
  | setCallbackHandler (h : Handle)
  -- a connection handle
  | arcNew (h : Handle)
  | arcClone (h : Handle)
  | arcDrop (h : Handle)
  | closeConnection (h : Handle)
  | handOver (h : Handle) (count : Nat)
  -- the frontend of a listener
  | openListener (l : Nat)
  | startListener (l : Nat)
  | closeListener (l : Nat)
  | pollConn (l : Nat)
  | dropReceiver (l : Nat)
  -- a connect attempt
  | openConnection (n : Nat)
  | startConnection (n : Nat)
  | pollConnected (n : Nat)
  | setConnecting (n : Nat) (connecting : Connecting)
  deriving DecidableEq, Repr

@[reducible] def Op.Reply : Op → Type
  | .isPoisoned _ | .panicPoint _ | .sendConn _ _ | .arcDrop _ => Bool
  | .setConfiguration _ | .openListener _ | .startListener _ | .openConnection _
  | .startConnection _ => Except Status Unit
  | .pollConn _ => Poll (Option (Option Nat))
  | .dropReceiver _ => List (Option Nat)
  | .pollConnected _ => Poll (Except Status Unit)
  | _ => Unit

/-- The drop of a reference says whether it was the last one, the drop of the receiver what
was still queued. -/
def Op.perform (choice : Choice) : (op : Op) → State → op.Reply × State
  | .reserve _, s => ((), { s with active := s.active + 1 })
  | .release _, s => ((), { s with active := s.active - 1 })
  | .isPoisoned l, s => ((s.listener l).poisoned, s)
  | .panicPoint _, s => (choice.panics, s)
  | .setPoisoned l, s => ((), s.setListener l { s.listener l with poisoned := true })
  | .sendConn l message, s =>
      let sent := (s.listener l).conn.unboundedSend message
      (sent.1, s.setListener l { s.listener l with conn := sent.2 })
  | .sendShutdown l, s =>
      ((), s.setListener l { s.listener l with shutdown := (s.listener l).shutdown.send () })
  | .setConfiguration _, s => (choice.result, s)
  | .fromRaw _, s => ((), s)
  | .setCallbackHandler _, s => ((), s)
  | .arcNew h, s => ((), { s with arcs := Function.update s.arcs h 1 })
  | .arcClone h, s => ((), { s with arcs := Function.update s.arcs h (s.arcs h + 1) })
  | .arcDrop h, s =>
      (s.arcs h == 1, { s with arcs := Function.update s.arcs h (s.arcs h - 1) })
  | .closeConnection _, s => ((), s)
  | .handOver h count, s =>
      ((), { s with external := Function.update s.external h (s.external h + count) })
  | .openListener l, s =>
      match choice.result with
      | .ok () => (.ok (), s.setListener l { s.listener l with listening := true })
      | .error status => (.error status, s)
  | .startListener _, s => (choice.result, s)
  | .closeListener l, s => ((), s.setListener l { s.listener l with
      listening := false
      conn := (s.listener l).conn.dropSender })
  | .pollConn l, s =>
      let polled := (s.listener l).conn.pollNext
      (polled.1, s.setListener l { s.listener l with conn := polled.2 })
  | .dropReceiver l, s =>
      ((s.listener l).conn.queue,
        s.setListener l { s.listener l with conn := (s.listener l).conn.dropReceiver })
  | .openConnection _, s => (choice.result, s)
  | .startConnection _, s => (choice.result, s)
  | .pollConnected _, s => (choice.connected, s)
  | .setConnecting n connecting, s =>
      ((), { s with connecting := Function.update s.connecting n connecting })

@[reducible] def signature : Signature where
  Op := Op
  Reply := Op.Reply

abbrev Code (α : Type) := Program signature α

def issue (op : Op) : Code op.Reply := Program.perform (S := signature) op

section Connection

/-- The drop of one reference. The last one drops the `ConnHandle`: its native handle
first, then the guard. -/
def dropArc (h : Handle) : Code Unit := do
  if ← issue (.arcDrop h) then
    issue (.closeConnection h)
    issue (.release h)
  else return ()

def dropArcs (h : Handle) : Nat → Code Unit
  | 0 => return ()
  | count + 1 => do
      dropArc h
      dropArcs h count

/-- A `Connection` has a reference of its own and that of its opener. -/
def dropConnection (h : Handle) : Code Unit := dropArcs h 2

/-- The owned native handle and its guard become a `Connection`. -/
def attach (h : Handle) : Code Unit := do
  issue (.setCallbackHandler h)
  issue (.arcNew h)
  issue (.arcClone h)

end Connection

section Callback

/-- What the local variables of a callback body own: the guard of a reservation, the
parameters of `attach`, references to a handle, or the fields of a `ConnHandle` that is
being dropped. -/
inductive Held where
  | nothing
  | guard (h : Handle)
  | parts (h : Handle)
  | arcs (h : Handle) (count : Nat)
  | handle (h : Handle)
  deriving DecidableEq, Repr

/-- The local variables of one invocation, with its own ownership token. -/
structure Locals where
  held : Held := .nothing
  owned : Bool := false
  deriving DecidableEq, Repr

def Locals.keeps : Locals → (op : Op) → op.Reply → Locals
  | locals, .reserve h, _ => { locals with held := .guard h }
  | locals, .release _, _ => { locals with held := .nothing }
  | _, .fromRaw h, _ => { held := .parts h, owned := true }
  | locals, .arcNew h, _ => { locals with held := .arcs h 1 }
  | locals, .arcClone h, _ => { locals with held := .arcs h 2 }
  | locals, .sendConn _ (some _), true => { locals with held := .nothing }
  | locals, .arcDrop h, true => { locals with held := .handle h }
  | locals, .arcDrop h, false => { locals with held := .arcs h 1 }
  | locals, .closeConnection h, _ => { locals with held := .guard h }
  | locals, _, _ => locals

/-- Unwinding drops what is held. Parameters are dropped in the reverse of their order, so
the guard that was passed to `attach` goes before the native handle. -/
def unwind : Held → Code Unit
  | .nothing => return ()
  | .guard h => issue (.release h)
  | .parts h => do
      issue (.release h)
      issue (.closeConnection h)
  | .arcs h count => dropArcs h count
  | .handle h => do
      issue (.closeConnection h)
      issue (.release h)

inductive ListenerEvent where
  | newConnection (n : Nat)
  | stopComplete
  deriving DecidableEq, Repr

def listenerPoisonDisp : ListenerEvent → Except Status Unit
  | .stopComplete => .ok ()
  | .newConnection _ => .error .internalError

/-- The panic recovery of a listener callback, after the unwinding. -/
def listenerRecover (l : Nat) (locals : Locals) : Code (Except Status Unit) := do
  unwind locals.held
  let _ ← issue (.sendConn l none)
  issue (.sendShutdown l)
  issue (.setPoisoned l)
  if locals.owned then return .ok () else return .error .internalError

inductive NewConnDecision where
  | configFailedClose (status : Status)
  | deliveredOwned
  | deliveryFailedDropOwned
  deriving DecidableEq, Repr

/-- A delivery that is not attempted drops the guard its closure captured. -/
def decideNewConnection (h : Handle) (config : Except Status Unit) (deliver : Code Bool) :
    Code NewConnDecision := do
  match config with
  | .error status => do
      issue (.release h)
      return .configFailedClose status
  | .ok () => do
      if ← deliver then return .deliveredOwned
      else return .deliveryFailedDropOwned

/-- Take ownership of an offered connection and hand it to the accept queue. -/
def deliverConnection (l n : Nat) : Code Bool := do
  issue (.fromRaw (.accepted l n))
  attach (.accepted l n)
  if ← issue (.sendConn l (some n)) then return true
  else do
    dropConnection (.accepted l n)
    return false

def listenerCallback (l : Nat) : ListenerEvent → Code (Except Status Unit)
  | .newConnection n => do
      issue (.reserve (.accepted l n))
      let config ← issue (.setConfiguration (.accepted l n))
      match ← decideNewConnection (.accepted l n) config (deliverConnection l n) with
      | .configFailedClose status => return .error status
      | .deliveredOwned | .deliveryFailedDropOwned => return .ok ()
  | .stopComplete => do
      let _ ← issue (.sendConn l none)
      issue (.sendShutdown l)
      return .ok ()

/-- The handler registered with a listener. -/
def listenerHandler (l : Nat) (event : ListenerEvent) : Code (Except Status Unit) := do
  if ← issue (.isPoisoned l) then return listenerPoisonDisp event
  else
    Program.guardedWith Locals.keeps (fun k => issue (.panicPoint k)) (listenerRecover l) 0 {}
      (listenerCallback l event)

end Callback

section Frontend

/-- The connections left in an accept queue are dropped with it. -/
def dropQueued (l : Nat) : List (Option Nat) → Code Unit
  | [] => return ()
  | none :: queue => dropQueued l queue
  | some n :: queue => do
      dropConnection (.accepted l n)
      dropQueued l queue

/-- The fields of a `Listener` in their order: the native handle, the accept queue, the
guard. -/
def dropListener (l : Nat) : Code Unit := do
  issue (.closeListener l)
  let queue ← issue (.dropReceiver l)
  dropQueued l queue
  issue (.release (.listener l))

def withConfig (l : Nat) : Code (Except Status Unit) := do
  issue (.reserve (.listener l))
  match ← issue (.openListener l) with
  | .error status => do
      issue (.release (.listener l))
      return .error status
  | .ok () => do
      match ← issue (.startListener l) with
      | .error status => do
          dropListener l
          return .error status
      | .ok () => do
          issue (.handOver (.listener l) 1)
          return .ok ()

/-- The end of the queue reads as the end of the connections. -/
def pollAccept (l : Nat) : Code (Poll (Except Status (Option Nat))) := do
  match ← issue (.pollConn l) with
  | .pending => return .pending
  | .ready (some (some n)) => do
      issue (.handOver (.accepted l n) 2)
      return .ready (.ok (some n))
  | .ready _ => return .ready (.ok none)

/-- The reservation is made before the future is polled. -/
def connect (n : Nat) : Code Unit := do
  issue (.reserve (.client n))
  issue (.setConnecting n (.suspended .unpolled))

/-- The end of a connect attempt: the future drops the handle it has built. -/
def failConnect (n : Nat) (status : Status) : Code (Poll (Except Status Unit)) := do
  dropArc (.client n)
  issue (.setConnecting n .done)
  return .ready (.error status)

def awaitConnected (n : Nat) : Code (Poll (Except Status Unit)) := do
  match ← issue (.pollConnected n) with
  | .pending => do
      issue (.setConnecting n (.suspended .waiting))
      return .pending
  | .ready (.error status) => failConnect n status
  | .ready (.ok ()) => do
      issue (.arcClone (.client n))
      issue (.setConnecting n .done)
      issue (.handOver (.client n) 2)
      return .ready (.ok ())

/-- The first poll. An open handle is put into its `ConnHandle` before it is started. -/
def startConnect (n : Nat) : Code (Poll (Except Status Unit)) := do
  match ← issue (.openConnection n) with
  | .error status => do
      issue (.release (.client n))
      issue (.setConnecting n .done)
      return .ready (.error status)
  | .ok () => do
      issue (.arcNew (.client n))
      match ← issue (.startConnection n) with
      | .error status => failConnect n status
      | .ok () => awaitConnected n

def pollConnect (n : Nat) : Suspended → Code (Poll (Except Status Unit))
  | .unpolled => startConnect n
  | .waiting => awaitConnected n

/-- A future drops what it holds where it is suspended. -/
def dropConnect (n : Nat) (point : Suspended) : Code Unit := do
  issue (.setConnecting n .done)
  match point with
  | .unpolled => issue (.release (.client n))
  | .waiting => dropArc (.client n)

def cloneOpener (h : Handle) : Code Unit := do
  issue (.arcClone h)
  issue (.handOver h 2)

end Frontend

/-- Each invocation of a listener callback is a thread of its own, the application has any
number of further ones. -/
inductive Thread where
  | callback (l : Nat) (event : ListenerEvent)
  | frontend (l : Nat)
  | client (n : Nat)
  | user (k : Nat)
  deriving DecidableEq, Repr

inductive Request where
  | listener (l : Nat) (event : ListenerEvent)
  | withConfig (l : Nat)
  | pollAccept (l : Nat)
  | dropListener (l : Nat)
  | connect (n : Nat)
  | pollConnect (n : Nat) (point : Suspended)
  | dropConnect (n : Nat) (point : Suspended)
  | cloneOpener (k : Nat) (h : Handle)
  | dropArc (k : Nat) (h : Handle)
  deriving DecidableEq, Repr

def Request.owner : Request → Thread
  | .listener l event => .callback l event
  | .withConfig l | .pollAccept l | .dropListener l => .frontend l
  | .connect n | .pollConnect n _ | .dropConnect n _ => .client n
  | .cloneOpener k _ | .dropArc k _ => .user k

inductive Result where
  | unit
  | callback (result : Except Status Unit)
  | listener (result : Except Status Unit)
  | accept (poll : Poll (Except Status (Option Nat)))
  | connect (poll : Poll (Except Status Unit))
  deriving DecidableEq

/-- Code of a request, from its result to the common result type. -/
def straight {α : Type} (code : Code α) (result : α → Result) : Code (Empty ⊕ Result) := do
  let value ← code
  return .inr (result value)

def Request.entry : Request → Code (Empty ⊕ Result)
  | .listener l event => straight (listenerHandler l event) .callback
  | .withConfig l => straight (MsQuicH3.Lifecycle.withConfig l) .listener
  | .pollAccept l => straight (MsQuicH3.Lifecycle.pollAccept l) .accept
  | .dropListener l => straight (MsQuicH3.Lifecycle.dropListener l) fun _ => .unit
  | .connect n => straight (MsQuicH3.Lifecycle.connect n) fun _ => .unit
  | .pollConnect n point => straight (MsQuicH3.Lifecycle.pollConnect n point) .connect
  | .dropConnect n point => straight (MsQuicH3.Lifecycle.dropConnect n point) fun _ => .unit
  | .cloneOpener _ h => straight (MsQuicH3.Lifecycle.cloneOpener h) fun _ => .unit
  | .dropArc _ h => straight (MsQuicH3.Lifecycle.dropArc h) fun _ => .unit

/-- Take one reference of the application for a request. -/
def State.take (s : State) (h : Handle) : Option State :=
  if 0 < s.external h then
    some { s with external := Function.update s.external h (s.external h - 1) }
  else none

/-- Take the future of a connect attempt from where it is suspended. -/
def State.resume (s : State) (n : Nat) (point : Suspended) : Option State :=
  if s.connecting n = .suspended point then
    some { s with connecting := Function.update s.connecting n .running }
  else none

/-- Native code offers a connection once, indicates nothing behind the completed stop, and
both only on an open listener. The application uses what it has. -/
def deliver : Request → State → Option State
  | .listener l (.newConnection n), s =>
      let listener := s.listener l
      if listener.listening ∧ ¬listener.stopped ∧ n ∉ listener.offered then
        some (s.setListener l { listener with offered := n :: listener.offered })
      else none
  | .listener l .stopComplete, s =>
      let listener := s.listener l
      if listener.listening ∧ ¬listener.stopped then
        some (s.setListener l { listener with stopped := true })
      else none
  | .withConfig l, s =>
      if (s.listener l).used then none
      else some (s.setListener l { s.listener l with used := true })
  | .pollAccept l, s => if 0 < s.external (.listener l) then some s else none
  | .dropListener l, s => s.take (.listener l)
  | .connect n, s =>
      if s.connecting n = .fresh then
        some { s with connecting := Function.update s.connecting n .running }
      else none
  | .pollConnect n point, s | .dropConnect n point, s => s.resume n point
  | .cloneOpener _ h, s | .dropArc _ h, s => if h.shared then s.take h else none

def lifecycle : Machine signature State Choice Thread Request Empty Result where
  perform := Op.perform
  deliver := deliver
  owner := Request.owner
  entry := Request.entry
  body _ loop := nomatch loop

abbrev LifecycleLabel := Label signature State Request Result

abbrev LifecycleEvent := Event signature State Request

abbrev LifecycleConfig := Config signature State Thread Request Empty Result

abbrev LifecycleWorld := World signature State Request Result

abbrev LifecycleMove := Move Choice Thread Request

/-- Everything that can happen on a new registration. -/
def Runs : List LifecycleLabel → LifecycleConfig → Prop := lifecycle.Runs (Machine.initial {})

/-- Serve one request, one operation after the other. -/
def Request.serve (request : Request) (choices : List Choice) : List LifecycleMove :=
  .begin request :: choices.map (.act request.owner)

/-- Serve one request after the other, each to its end, with the default choices. -/
def serveAll (requests : List (Request × Nat)) : List LifecycleMove :=
  requests.flatMap fun served => served.1.serve (List.replicate served.2 {})

end MsQuicH3.Lifecycle
