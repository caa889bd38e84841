import MsQuicH3.Concurrency.Channel
import MsQuicH3.Concurrency.Machine

/-! The history of one channel. What was handed over comes out in order and once, and
behind the end nothing comes in or out any more. -/
namespace Concurrency
namespace Channel

variable {α : Type}

/-- One use of a channel with what it answered. -/
inductive Use (α : Type) where
  | send (message : α) (sent : Bool)
  | poll (reply : Poll (Option α))
  | dropSender
  | dropReceiver

/-- The use leads from one state of the channel to the next. -/
def Use.On (channel : Channel α) : Use α → Channel α → Prop
  | .send message sent, next => channel.unboundedSend message = (sent, next)
  | .poll reply, next => channel.pollNext = (reply, next)
  | .dropSender, next => next = channel.dropSender
  | .dropReceiver, next => next = channel.dropReceiver

/-- A sequence of uses from one state of the channel to another. -/
inductive Log (start : Channel α) : List (Use α) → Channel α → Prop where
  | start : Log start [] start
  | step {uses channel next} {use : Use α} (prior : Log start uses channel)
      (last : use.On channel next) : Log start (uses ++ [use]) next

def Use.sent : Use α → Option α
  | .send message true => some message
  | _ => none

def Use.taken : Use α → Option α
  | .poll (.ready (some message)) => some message
  | _ => none

/-- The messages that were handed over. -/
def sent (uses : List (Use α)) : List α := uses.filterMap Use.sent

/-- The messages that were taken out. -/
def taken (uses : List (Use α)) : List α := uses.filterMap Use.taken

theorem sent_snoc (uses : List (Use α)) (use : Use α) :
    sent (uses ++ [use]) = sent uses ++ use.sent.toList := by
  cases h : use.sent <;> simp [sent, h]

theorem taken_snoc (uses : List (Use α)) (use : Use α) :
    taken (uses ++ [use]) = taken uses ++ use.taken.toList := by
  cases h : use.taken <;> simp [taken, h]

section On

variable {channel next : Channel α} {use : Use α}

/-- Neither end comes back. -/
theorem Use.On.ends (h : use.On channel next) :
    (channel.sender = false → next.sender = false) ∧
      (next.receiver = true → channel.receiver = true) := by
  cases use with
  | send message sent =>
      have hNext : next = (channel.unboundedSend message).2 := (congrArg Prod.snd h).symm
      rw [hNext, unboundedSend_sender, unboundedSend_receiver]
      exact ⟨id, id⟩
  | poll reply =>
      have hNext : next = channel.pollNext.2 := (congrArg Prod.snd h).symm
      rw [hNext, pollNext_sender, pollNext_receiver]
      exact ⟨id, id⟩
  | dropSender =>
      rw [Use.On] at h
      rw [h]
      exact ⟨fun _ => rfl, id⟩
  | dropReceiver =>
      rw [Use.On] at h
      rw [h]
      exact ⟨id, fun hNever => by cases hNever⟩

/-- What a use hands over is appended, what it takes is the head. -/
theorem Use.On.queue (h : use.On channel next) (hReceiver : next.receiver = true) :
    channel.queue ++ use.sent.toList = use.taken.toList ++ next.queue := by
  cases use with
  | send message sent =>
      have hSent : sent = (channel.unboundedSend message).1 := (congrArg Prod.fst h).symm
      have hNext : next = (channel.unboundedSend message).2 := (congrArg Prod.snd h).symm
      rw [hSent, hNext]
      unfold unboundedSend
      split <;> simp [Use.sent, Use.taken]
  | poll reply =>
      have hReply : reply = channel.pollNext.1 := (congrArg Prod.fst h).symm
      have hNext : next = channel.pollNext.2 := (congrArg Prod.snd h).symm
      rw [hReply, hNext]
      unfold pollNext
      split
      next hQueue => simp [Use.sent, Use.taken, hQueue]
      next hQueue => split <;> simp [Use.sent, Use.taken, hQueue]
  | dropSender =>
      rw [Use.On] at h
      simp [h, Use.sent, Use.taken]
  | dropReceiver =>
      rw [Use.On] at h
      rw [h] at hReceiver
      cases hReceiver

/-- A closed and drained channel stays so and hands nothing over. -/
theorem Use.On.silent (h : use.On channel next) (hSender : channel.sender = false)
    (hQueue : channel.queue = []) :
    next.sender = false ∧ next.queue = [] ∧ use.sent = none ∧ use.taken = none := by
  refine ⟨h.ends.1 hSender, ?_⟩
  cases use with
  | send message sent =>
      simp only [Use.On, unboundedSend, hSender, Bool.false_and, Bool.false_eq_true, ↓reduceIte,
        Prod.mk.injEq] at h
      obtain ⟨rfl, rfl⟩ := h
      exact ⟨hQueue, rfl, rfl⟩
  | poll reply =>
      simp only [Use.On, pollNext, hQueue, hSender, Bool.false_eq_true, ↓reduceIte,
        Prod.mk.injEq] at h
      obtain ⟨rfl, rfl⟩ := h
      exact ⟨hQueue, rfl, rfl⟩
  | dropSender =>
      rw [Use.On] at h
      rw [h]
      exact ⟨hQueue, rfl, rfl⟩
  | dropReceiver =>
      rw [Use.On] at h
      rw [h]
      exact ⟨rfl, rfl, rfl⟩

end On

namespace Log

variable {start channel : Channel α} {uses : List (Use α)}

/-- First in, first out, nothing lost and nothing twice. -/
theorem fifo (log : Log start uses channel) (hReceiver : channel.receiver = true) :
    start.queue ++ sent uses = taken uses ++ channel.queue := by
  induction log with
  | start => simp [sent, taken]
  | step prior last ih =>
      have hPrior := ih (last.ends.2 hReceiver)
      rw [sent_snoc, taken_snoc, ← List.append_assoc, hPrior, List.append_assoc, List.append_assoc,
        last.queue hReceiver]

/-- Behind the end the channel is closed and drained. -/
theorem ended (log : Log start uses channel) (h : .poll (.ready none) ∈ uses) :
    channel.sender = false ∧ channel.queue = [] := by
  induction log with
  | start => cases h
  | @step uses channel next use prior last ih =>
      rw [List.mem_append, List.mem_singleton] at h
      rcases h with h | rfl
      · obtain ⟨hSender, hQueue⟩ := ih h
        obtain ⟨hNext, hEmpty, -⟩ := last.silent hSender hQueue
        exact ⟨hNext, hEmpty⟩
      · have hEnd : channel.pollNext.1 = .ready none := congrArg Prod.fst last
        have hNext : next = channel.pollNext.2 := (congrArg Prod.snd last).symm
        obtain ⟨hQueue, hSender⟩ := pollNext_eq_none.1 hEnd
        rw [hNext, pollNext_sender, pollNext_queue, hQueue]
        exact ⟨hSender, rfl⟩

/-- A closed channel was closed by its sender's end. -/
theorem dropped (log : Log start uses channel) (hStart : start.sender = true)
    (hSender : channel.sender = false) : .dropSender ∈ uses := by
  induction log with
  | start =>
      rw [hStart] at hSender
      cases hSender
  | @step uses channel next use prior last ih =>
      cases use with
      | send message sent =>
          have hNext : next = (channel.unboundedSend message).2 := (congrArg Prod.snd last).symm
          rw [hNext, unboundedSend_sender] at hSender
          exact List.mem_append_left _ (ih hSender)
      | poll reply =>
          have hNext : next = channel.pollNext.2 := (congrArg Prod.snd last).symm
          rw [hNext, pollNext_sender] at hSender
          exact List.mem_append_left _ (ih hSender)
      | dropSender => simp
      | dropReceiver =>
          rw [Use.On] at last
          rw [last] at hSender
          exact List.mem_append_left _ (ih hSender)

theorem receiver (log : Log start uses channel) (hStart : start.receiver = true)
    (h : .dropReceiver ∉ uses) : channel.receiver = true := by
  induction log with
  | start => exact hStart
  | @step uses channel next use prior last ih =>
      rw [List.mem_append, List.mem_singleton, not_or] at h
      have hPrior := ih h.1
      cases use with
      | send message sent =>
          have hNext : next = (channel.unboundedSend message).2 := (congrArg Prod.snd last).symm
          rw [hNext, unboundedSend_receiver]
          exact hPrior
      | poll reply =>
          have hNext : next = channel.pollNext.2 := (congrArg Prod.snd last).symm
          rw [hNext, pollNext_receiver]
          exact hPrior
      | dropSender =>
          rw [Use.On] at last
          rw [last]
          exact hPrior
      | dropReceiver => exact absurd rfl h.2

/-- From a closed and drained channel on, nothing is handed over or taken. -/
theorem silent (log : Log start uses channel) (hSender : start.sender = false)
    (hQueue : start.queue = []) : sent uses = [] ∧ taken uses = [] := by
  have hAll : channel.sender = false ∧ channel.queue = [] ∧ sent uses = [] ∧ taken uses = [] := by
    induction log with
    | start => exact ⟨hSender, hQueue, rfl, rfl⟩
    | step prior last ih =>
        obtain ⟨hClosed, hEmpty, hSent, hTaken⟩ := ih
        obtain ⟨hNext, hNextEmpty, hNoSend, hNoTake⟩ := last.silent hClosed hEmpty
        rw [sent_snoc, taken_snoc, hSent, hTaken, hNoSend, hNoTake]
        exact ⟨hNext, hNextEmpty, rfl, rfl⟩
  exact hAll.2.2

end Log

section Account

/-- The messages that waited once the last one had been handed over, and the polls made
since. -/
structure Account where
  waiting : Nat := 0
  polls : Nat := 0
  deriving DecidableEq

def Account.book (account : Account) : Use α → Account
  | .send _ true => ⟨account.waiting - account.polls + 1, 0⟩
  | .poll _ => { account with polls := account.polls + 1 }
  | _ => account

/-- The account of a sequence of uses rests on the order of messages and polls alone. -/
def account (uses : List (Use α)) : Account := uses.foldl Account.book {}

/-- Whether a poll found nothing and no message was handed over since. -/
def parked (uses : List (Use α)) : Bool :=
  uses.foldl (fun parked use => match use with
    | .send _ true => false
    | .poll .pending => true
    | _ => parked) false

theorem account_snoc (uses : List (Use α)) (use : Use α) :
    account (uses ++ [use]) = (account uses).book use := by
  simp [account]

theorem parked_send (uses : List (Use α)) (message : α) :
    parked (uses ++ [.send message true]) = false := by
  simp [parked]

theorem parked_pending (uses : List (Use α)) : parked (uses ++ [.poll .pending]) = true := by
  simp [parked]

variable {start channel : Channel α} {uses : List (Use α)}

/-- What waits is what the polls have left of the messages, and a poll is parked when it
comes on top of them. -/
theorem Log.account_parked (log : Log start uses channel) (hStart : start.queue = [])
    (hSender : channel.sender = true) (hReceiver : channel.receiver = true) :
    channel.queue.length = (account uses).waiting - (account uses).polls ∧
      (parked uses = true ↔ (account uses).waiting < (account uses).polls) := by
  induction log with
  | start => simp [hStart, account, parked]
  | @step uses channel next use prior last ih =>
      have hEnds := last.ends
      have hBefore : channel.sender = true := by
        cases hClosed : channel.sender with
        | true => rfl
        | false =>
            rw [hEnds.1 hClosed] at hSender
            cases hSender
      obtain ⟨hLength, hParked⟩ := ih hBefore (hEnds.2 hReceiver)
      rw [account_snoc]
      cases use with
      | send message sent =>
          obtain ⟨rfl, rfl⟩ : sent = (channel.unboundedSend message).1 ∧
              next = (channel.unboundedSend message).2 := by
            rw [show channel.unboundedSend message = (sent, next) from last]
            exact ⟨rfl, rfl⟩
          have hOpen : (channel.sender && channel.receiver) = true := by
            rw [hBefore, hEnds.2 hReceiver]
            rfl
          simp only [unboundedSend, hOpen, if_true, Account.book, parked_send, List.length_append,
            List.length_singleton, hLength]
          simp
      | poll reply =>
          obtain ⟨rfl, rfl⟩ : reply = channel.pollNext.1 ∧ next = channel.pollNext.2 := by
            rw [show channel.pollNext = (reply, next) from last]
            exact ⟨rfl, rfl⟩
          rw [pollNext_queue, List.length_tail, hLength]
          simp only [Account.book]
          refine ⟨by omega, ?_⟩
          cases hQueue : channel.queue with
          | nil =>
              rw [hQueue, List.length_nil] at hLength
              rw [(pollNext_eq_pending).2 ⟨hQueue, hBefore⟩, parked_pending]
              simp only [true_iff]
              omega
          | cons message queue =>
              rw [hQueue, List.length_cons] at hLength
              have hReply : channel.pollNext.1 = .ready (some message) :=
                pollNext_eq_some.2 (by rw [hQueue]; rfl)
              have hSame : parked (uses ++ [.poll channel.pollNext.1]) = parked uses := by
                rw [hReply]
                simp [parked]
              rw [hSame, hParked]
              omega
      | dropSender =>
          obtain rfl : next = channel.dropSender := last
          cases hSender
      | dropReceiver =>
          obtain rfl : next = channel.dropReceiver := last
          cases hReceiver

end Account

end Channel

namespace Machine

variable {S : Signature} {State Choice Thread Request Loop Result α : Type}
  {m : Machine S State Choice Thread Request Loop Result}

/-- A channel of the shared state and the operations that use it. -/
structure Wired (m : Machine S State Choice Thread Request Loop Result)
    (channel : State → Channel α) (use : (op : S.Op) → S.Reply op → Option (Channel.Use α)) :
    Prop where
  delivered : ∀ request s s', m.deliver request s = some s' → channel s' = channel s
  performed : ∀ choice op s, match use op (m.perform choice op s).1 with
    | none => channel (m.perform choice op s).2 = channel s
    | some used => used.On (channel s) (channel (m.perform choice op s).2)

/-- The uses of a channel in a trace. -/
def usesOf (use : (op : S.Op) → S.Reply op → Option (Channel.Use α))
    (trace : List (Label S State Request Result)) : List (Channel.Use α) :=
  trace.filterMap fun
    | .event e => use e.op e.reply
    | _ => none

variable {channel : State → Channel α} {use : (op : S.Op) → S.Reply op → Option (Channel.Use α)}

theorem usesOf_snoc (trace : List (Label S State Request Result))
    (label : Label S State Request Result) :
    usesOf use (trace ++ [label]) = usesOf use trace ++ usesOf use [label] :=
  List.filterMap_append ..

theorem mem_usesOf {trace : List (Label S State Request Result)} {used : Channel.Use α} :
    used ∈ usesOf use trace ↔ ∃ e, .event e ∈ trace ∧ use e.op e.reply = some used := by
  simp only [usesOf, List.mem_filterMap]
  constructor
  · rintro ⟨label, hMem, hLabel⟩
    cases label with
    | event e => exact ⟨e, hMem, hLabel⟩
    | _ => cases hLabel
  · rintro ⟨e, hMem, hUse⟩
    exact ⟨.event e, hMem, hUse⟩

variable [DecidableEq Thread]

/-- A run keeps the history of every channel of the state. -/
theorem Runs.log {start reached : Config S State Thread Request Loop Result}
    {trace : List (Label S State Request Result)} (run : m.Runs start trace reached)
    (h : m.Wired channel use) :
    Channel.Log (channel start.state) (usesOf use trace) (channel reached.state) := by
  induction run with
  | start => exact .start
  | @step trace label config next move prior last ih =>
      rw [usesOf_snoc]
      rcases step_cases last with ⟨request, state, -, hDeliver, rfl, rfl⟩ |
        ⟨thread, choice, request, events, op, following, -, rfl, rfl⟩ |
        ⟨thread, request, events, result, -, rfl, rfl⟩
      · rw [h.delivered _ _ _ hDeliver]
        simpa [usesOf] using ih
      · have hOp := h.performed choice op config.state
        cases hUse : use op (m.perform choice op config.state).1 with
        | none =>
            have hSame : channel (m.perform choice op config.state).2 = channel config.state := by
              simpa only [hUse] using hOp
            rw [hSame]
            simpa [usesOf, hUse] using ih
        | some used =>
            have hOn : used.On (channel config.state) (channel (m.perform choice op config.state).2) := by
              simpa only [hUse] using hOp
            have hHere : usesOf use ([.event (m.event choice request op config.state)] :
                List (Label S State Request Result)) = [used] := by simp [usesOf, hUse]
            rw [hHere]
            exact .step ih hOn
      · simpa [usesOf] using ih

end Machine
end Concurrency
