import Mathlib.Data.List.Basic

/-! The two message-passing primitives threads share: an unbounded queue with one
sender and one receiver, and a cell that is resolved once. -/
namespace Concurrency

inductive Poll (α : Type) where
  | pending
  | ready (value : α)
  deriving DecidableEq, Repr

/-- An unbounded queue. Either end may be dropped; dropping the sender closes the
queue behind what is already in it, dropping the receiver discards it. -/
structure Channel (α : Type) where
  queue : List α
  sender : Bool
  receiver : Bool
  deriving Repr

namespace Channel

variable {α : Type}

def unbounded : Channel α := ⟨[], true, true⟩

/-- Whether the message was handed over; a message without a receiver is lost. -/
def unboundedSend (message : α) (channel : Channel α) : Bool × Channel α :=
  if channel.sender && channel.receiver then
    (true, { channel with queue := channel.queue ++ [message] })
  else (false, channel)

def dropSender (channel : Channel α) : Channel α := { channel with sender := false }

def dropReceiver (channel : Channel α) : Channel α :=
  { channel with queue := [], receiver := false }

/-- `ready none` is the end of a closed and drained queue. -/
def pollNext (channel : Channel α) : Poll (Option α) × Channel α :=
  match channel.queue with
  | message :: queue => (.ready (some message), { channel with queue := queue })
  | [] => (if channel.sender then .pending else .ready none, channel)

@[simp] theorem unboundedSend_sender (message : α) (channel : Channel α) :
    (channel.unboundedSend message).2.sender = channel.sender := by
  unfold unboundedSend
  split <;> rfl

@[simp] theorem unboundedSend_receiver (message : α) (channel : Channel α) :
    (channel.unboundedSend message).2.receiver = channel.receiver := by
  unfold unboundedSend
  split <;> rfl

theorem unboundedSend_queue (message : α) (channel : Channel α) :
    (channel.unboundedSend message).2.queue =
      channel.queue ++ if channel.sender && channel.receiver then [message] else [] := by
  unfold unboundedSend
  split <;> simp

@[simp] theorem dropSender_queue (channel : Channel α) :
    channel.dropSender.queue = channel.queue := rfl

@[simp] theorem dropSender_sender (channel : Channel α) :
    channel.dropSender.sender = false := rfl

@[simp] theorem dropSender_receiver (channel : Channel α) :
    channel.dropSender.receiver = channel.receiver := rfl

@[simp] theorem dropReceiver_queue (channel : Channel α) :
    channel.dropReceiver.queue = [] := rfl

@[simp] theorem dropReceiver_sender (channel : Channel α) :
    channel.dropReceiver.sender = channel.sender := rfl

@[simp] theorem dropReceiver_receiver (channel : Channel α) :
    channel.dropReceiver.receiver = false := rfl

@[simp] theorem pollNext_sender (channel : Channel α) :
    channel.pollNext.2.sender = channel.sender := by
  unfold pollNext
  split <;> rfl

@[simp] theorem pollNext_receiver (channel : Channel α) :
    channel.pollNext.2.receiver = channel.receiver := by
  unfold pollNext
  split <;> rfl

@[simp] theorem pollNext_queue (channel : Channel α) :
    channel.pollNext.2.queue = channel.queue.tail := by
  unfold pollNext
  split
  · next h => rw [h]; rfl
  · next h => rw [h]; rfl

theorem pollNext_eq_some {channel : Channel α} {message : α} :
    channel.pollNext.1 = .ready (some message) ↔ channel.queue.head? = some message := by
  unfold pollNext
  split
  · next h => simp [h]
  · next h =>
      rw [h]
      split <;> simp

theorem pollNext_eq_none {channel : Channel α} :
    channel.pollNext.1 = .ready none ↔ channel.queue = [] ∧ channel.sender = false := by
  unfold pollNext
  split
  · next h => simp [h]
  · next h =>
      rw [h]
      split <;> simp_all

/-- A poll is pending, and its waker registered, only on an open and empty queue. -/
theorem pollNext_eq_pending {channel : Channel α} :
    channel.pollNext.1 = .pending ↔ channel.queue = [] ∧ channel.sender = true := by
  unfold pollNext
  split
  · next h => simp [h]
  · next h =>
      rw [h]
      split <;> simp_all

end Channel

/-- A cell that is resolved at most once and read at most once. -/
inductive OneShot (α : Type) where
  | waiting
  | sent (value : α)
  | closed
  deriving DecidableEq, Repr

namespace OneShot

variable {α : Type}

/-- Take the sender, if it is still there, and send through it. -/
def send (value : α) : OneShot α → OneShot α
  | .waiting => .sent value
  | cell => cell

/-- Drop the sender, if it is still there, without sending. -/
def drop : OneShot α → OneShot α
  | .waiting => .closed
  | cell => cell

/-- `ready none` is a cancelled cell. A value is handed out once. -/
def poll : OneShot α → Poll (Option α) × OneShot α
  | .waiting => (.pending, .waiting)
  | .sent value => (.ready (some value), .closed)
  | .closed => (.ready none, .closed)

theorem send_ne_waiting (value : α) (cell : OneShot α) : cell.send value ≠ .waiting := by
  cases cell <;> simp [send]

theorem drop_ne_waiting (cell : OneShot α) : cell.drop ≠ .waiting := by
  cases cell <;> simp [drop]

theorem poll_ne_waiting {cell : OneShot α} (h : cell ≠ .waiting) : cell.poll.2 ≠ .waiting := by
  cases cell <;> simp_all [poll]

end OneShot
end Concurrency
