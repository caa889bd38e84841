import MsQuicH3.HandleBooks

/-! The ledger of the tracked handles. What is in hand of all the calls in progress, with
what the application, an accept queue and a suspended connect attempt have, balances with
the references and the history of every handle in every run. -/
namespace MsQuicH3.Lifecycle

open Concurrency

def marked (h : Handle) (e : LifecycleEvent) : List Mark :=
  if Op.subject e.op = some h then Op.marks e.op e.reply else []

/-- What became of a handle, in order. -/
def history (h : Handle) (trace : List LifecycleLabel) : List Mark :=
  trace.flatMap (Machine.noted (marked h))

/-- What the application, an accept queue or a suspended connect attempt has of a handle. -/
def stored (s : State) : Handle → Share
  | .listener l => { fields := s.external (.listener l) }
  | .accepted l n =>
      { refs := s.external (.accepted l n) + 2 * (s.listener l).conn.queue.count (some n) }
  | .client n =>
      match s.connecting n with
      | .suspended .unpolled => { claim := 1, guard := 1, refs := s.external (.client n) }
      | .suspended .waiting => { refs := s.external (.client n) + 1 }
      | _ => { refs := s.external (.client n) }

/-- Whether a request that takes the handle was made. -/
def introduced (s : State) : Handle → Nat
  | .listener l => (s.listener l).used.toNat
  | .accepted l n => if n ∈ (s.listener l).offered then 1 else 0
  | .client n => if s.connecting n = .fresh then 0 else 1

/-- Whether a connect attempt is running. -/
def running (s : State) : Handle → Nat
  | .client n => if s.connecting n = .running then 1 else 0
  | _ => 0

theorem introduced_le (s : State) (h : Handle) : introduced s h ≤ 1 := by
  cases h with
  | listener l => exact Bool.toNat_le _
  | accepted l n => simp only [introduced]; split <;> simp
  | client n => simp only [introduced]; split <;> simp

theorem running_le (s : State) (h : Handle) : running s h ≤ 1 := by
  cases h with
  | client n => simp only [running]; split <;> simp
  | _ => exact Nat.zero_le 1

section Perform

variable {h : Handle} {op : Op} (choice : Choice) (s : State)

theorem arcs_of_subject (hSubject : op.subject = some h) :
    (op.perform choice s).2.arcs h = op.counts (s.arcs h) := by
  cases op with
  | sendConn l message => rfl
  | openListener l =>
      simp only [Op.perform, Op.counts]
      split <;> rfl
  | arcNew own => cases hSubject; exact Function.update_self ..
  | arcClone own => cases hSubject; exact Function.update_self ..
  | arcDrop own => cases hSubject; exact Function.update_self ..
  | _ => rfl

theorem counted_of_subject (hSubject : op.subject = some h) :
    op.counted (op.perform choice s).1 (s.arcs h) := by
  cases op with
  | arcDrop own => cases hSubject; rfl
  | _ => trivial

/-- Nobody else writes a connect attempt that is running. -/
theorem connecting_of_pen {n : Nat} (hPen : 0 < running s (.client n)) : s.connecting n = .running := by
  simp only [running] at hPen
  split at hPen
  next hRunning => exact hRunning
  · cases hPen

theorem introduced_of_subject (hSubject : op.subject = some h)
    (hPen : ∀ n connecting, op = .setConnecting n connecting → 0 < running s h ∧ connecting ≠ .fresh) :
    introduced (op.perform choice s).2 h = introduced s h := by
  cases op with
  | setConnecting n connecting =>
      cases hSubject
      obtain ⟨hRunning, hNotFresh⟩ := hPen n connecting rfl
      simp [introduced, Op.perform, connecting_of_pen s hRunning, hNotFresh]
  | sendConn l message =>
      cases message with
      | none => cases hSubject
      | some n => cases hSubject; simp [introduced, Op.perform]
  | openListener l =>
      cases hSubject
      simp only [Op.perform]
      split <;> simp [introduced]
  | closeListener l => cases hSubject; simp [introduced, Op.perform]
  | _ => cases h <;> first | rfl | cases hSubject

theorem running_of_subject (hSubject : op.subject = some h)
    (hPen : ∀ n connecting, op = .setConnecting n connecting → connecting ≠ .running) :
    running (op.perform choice s).2 h = op.runs (running s h) := by
  cases op with
  | setConnecting n connecting =>
      cases hSubject
      simp [running, Op.perform, Op.runs, hPen n connecting rfl]
  | openListener l =>
      cases hSubject
      rfl
  | _ => cases h <;> rfl

/-- What an operation passes on is stored from there on. -/
theorem stored_of_subject (hSubject : op.subject = some h)
    (hPen : ∀ n connecting, op = .setConnecting n connecting → 0 < running s h)
    (hOne : ∀ l count, op = .handOver (.listener l) count → count = 1) :
    stored (op.perform choice s).2 h = op.passes (op.perform choice s).1 (stored s h) := by
  cases op with
  | setConnecting n connecting =>
      cases hSubject
      have hRunning := connecting_of_pen s (hPen n connecting rfl)
      rcases connecting with - | (- | -) | - | - <;>
        simp [stored, Op.perform, Op.passes, hRunning, Share.add_eq, Nat.add_comm]
  | sendConn l message =>
      cases message with
      | none => cases hSubject
      | some n =>
          cases hSubject
          simp only [Op.perform, Channel.unboundedSend]
          split
          · simp [stored, Op.passes, Share.add_eq, Nat.mul_add]
            omega
          · simp [stored, Op.passes]
  | handOver own count =>
      cases hSubject
      cases h with
      | listener l => simp [stored, Op.perform, Op.passes, Share.add_eq, hOne l count rfl, Nat.add_comm]
      | accepted l n =>
          simp only [stored, Op.perform, Op.passes, Share.add_eq, Function.update_self]
          ext <;> simp only
          omega
      | client n =>
          simp only [stored, Op.perform, Op.passes, Function.update_self]
          split <;> simp [Share.add_eq] <;> omega
  | openListener l =>
      cases hSubject
      simp only [Op.perform]
      split <;> simp [stored, Op.passes]
  | closeListener l => cases hSubject; rfl
  | _ => cases h <;> first | rfl | cases hSubject

end Perform

section Frame

variable {h : Handle} {op : Op} (choice : Choice) (s : State)

theorem arcs_of_other (hSubject : op.subject ≠ some h) :
    (op.perform choice s).2.arcs h = s.arcs h := by
  have hNe : ∀ own, some own ≠ some h → h ≠ own := fun own hOther hSame => hOther (by rw [hSame])
  cases op with
  | arcNew own => exact Function.update_of_ne (hNe own hSubject) ..
  | arcClone own => exact Function.update_of_ne (hNe own hSubject) ..
  | arcDrop own => exact Function.update_of_ne (hNe own hSubject) ..
  | openListener l => simp only [Op.perform]; split <;> rfl
  | _ => rfl

theorem external_of_other (hSubject : op.subject ≠ some h) :
    (op.perform choice s).2.external h = s.external h := by
  cases op with
  | handOver own count =>
      have hNe : h ≠ own := fun hSame => hSubject (by rw [hSame]; rfl)
      exact Function.update_of_ne hNe ..
  | openListener l => simp only [Op.perform]; split <;> rfl
  | _ => rfl

theorem connecting_of_other {n : Nat} (hSubject : op.subject ≠ some (.client n)) :
    (op.perform choice s).2.connecting n = s.connecting n := by
  cases op with
  | setConnecting m connecting =>
      have hNe : n ≠ m := fun hSame => hSubject (by rw [hSame]; rfl)
      exact Function.update_of_ne hNe ..
  | openListener l => simp only [Op.perform]; split <;> rfl
  | _ => rfl

/-- A part of a listener that no operation writes. -/
theorem perform_context {α : Type} (part : ListenerState → α) (l : Nat)
    (hPart : ∀ (listener : ListenerState) conn shutdown poisoned listening,
      part { listener with conn, shutdown, poisoned, listening } = part listener) :
    part ((op.perform choice s).2.listener l) = part (s.listener l) := by
  by_cases hOp : op.context = some l
  · cases op with
    | openListener m =>
        cases hOp
        simp only [Op.perform]
        split
        · simpa using hPart (s.listener l) _ _ _ true
        · rfl
    | _ =>
        cases hOp <;> simp only [Op.perform, State.setListener_self] <;> exact hPart _ _ _ _ _
  · rw [perform_of_foreign choice s hOp]

/-- A connection in an accept queue stays there, or it is taken out. -/
theorem queue_of_other {l n : Nat} (hSubject : op.subject ≠ some (.accepted l n)) :
    2 * ((op.perform choice s).2.listener l).conn.queue.count (some n) +
      (received (.accepted l n) op (op.perform choice s).1).refs =
        2 * (s.listener l).conn.queue.count (some n) := by
  by_cases hOp : op.context = some l
  · cases op with
    | sendConn m message =>
        cases hOp
        have hMessage : message ≠ some n := fun hSame => hSubject (by rw [hSame]; rfl)
        simp only [Op.perform, State.setListener_self, Channel.unboundedSend_queue, List.count_append]
        split <;> simp [received, hMessage]
    | pollConn m =>
        cases hOp
        simp only [Op.perform, State.setListener_self, Channel.pollNext]
        cases hQueue : (s.listener l).conn.queue with
        | nil => cases hSender : (s.listener l).conn.sender <;> simp [received, hQueue]
        | cons message queue =>
            cases message with
            | none => simp [received]
            | some k =>
                by_cases hSame : n = k
                · subst hSame
                  simp [received]
                  omega
                · simp [received, hSame, Ne.symm hSame]
    | dropReceiver m =>
        cases hOp
        simp [Op.perform, received]
    | openListener m =>
        cases hOp
        simp only [Op.perform]
        split <;> simp [received]
    | _ => cases hOp <;> simp [Op.perform, received]
  · rw [perform_of_foreign choice s hOp]
    cases op with
    | pollConn m =>
        have hNe : l ≠ m := fun hSame => hOp (by rw [hSame]; rfl)
        rcases hPoll : (Op.perform choice (.pollConn m) s).1 with - | (- | (- | k)) <;>
          simp [received, hNe]
    | dropReceiver m =>
        have hNe : l ≠ m := fun hSame => hOp (by rw [hSame]; rfl)
        simp [received, hNe]
    | panicPoint k => cases hPanic : choice.panics <;> simp [Op.perform, received, hPanic]
    | _ => rfl

theorem received_eq (h : Handle) (op : Op) (reply : op.Reply) : received h op reply =
    { refs := (received h op reply).refs, struck := (received h op reply).struck } := by
  cases op with
  | pollConn l =>
      rcases reply with - | (- | (- | n))
      · rfl
      · rfl
      · rfl
      · simp only [received]
        split <;> rfl
  | dropReceiver l =>
      cases h with
      | accepted m n =>
          simp only [received]
          split <;> rfl
      | _ => rfl
  | panicPoint k => cases reply <;> rfl
  | _ => rfl

/-- Only accepted connections come out of a queue. -/
theorem received_refs {h : Handle} (hOther : ∀ l n, h ≠ .accepted l n) (op : Op) (reply : op.Reply) :
    (received h op reply).refs = 0 := by
  cases op with
  | pollConn l =>
      rcases reply with - | (- | (- | n)) <;> simp [received, hOther]
  | dropReceiver l =>
      cases h with
      | accepted m n => exact absurd rfl (hOther m n)
      | _ => rfl
  | panicPoint k => cases reply <;> rfl
  | _ => rfl

/-- An operation that is not on the handle leaves it alone, but for a connection that it
moves out of an accept queue. -/
theorem untouched_of_other (hSubject : op.subject ≠ some h) :
    introduced (op.perform choice s).2 h = introduced s h ∧
    running (op.perform choice s).2 h = running s h ∧
    stored (op.perform choice s).2 h + received h op (op.perform choice s).1 =
      stored s h + { struck := (received h op (op.perform choice s).1).struck } := by
  have hExternal := external_of_other choice s hSubject
  rw [received_eq]
  cases h with
  | listener l =>
      have hUsed : ((op.perform choice s).2.listener l).used = (s.listener l).used :=
        perform_context choice s ListenerState.used l fun _ _ _ _ _ => rfl
      refine ⟨?_, rfl, ?_⟩
      · simp only [introduced, hUsed]
      · simp only [stored, hExternal, received_refs (h := .listener l) (by simp)]
  | accepted l n =>
      have hOffered : ((op.perform choice s).2.listener l).offered = (s.listener l).offered :=
        perform_context choice s ListenerState.offered l fun _ _ _ _ _ => rfl
      have hQueue := queue_of_other choice s hSubject
      refine ⟨?_, rfl, ?_⟩
      · simp only [introduced, hOffered]
      · simp only [stored, hExternal, Share.add_eq]
        ext <;> simp only
        omega
  | client n =>
      have hConnecting := connecting_of_other choice s hSubject
      refine ⟨?_, ?_, ?_⟩
      · simp only [introduced, hConnecting]
      · simp only [running, hConnecting]
      · simp only [stored, hExternal, hConnecting, received_refs (h := .client n) (by simp)]

end Frame

section Deliver

variable {h : Handle} {request : Request} {s s' : State}

/-- How a request that is made changes what there is of a handle: it introduces it, takes
it over or leaves it alone. -/
structure Delivered (h : Handle) (request : Request) (s s' : State) (right pen : Nat) : Prop where
  arcs : s'.arcs h = s.arcs h
  introduced : introduced s' h = introduced s h + right
  running : running s' h = running s h + pen
  stored : stored s' h + request.brings h = stored s h + { right, pen }

theorem delivered_take {own : Handle} (hTake : s.take own = some s')
    (hBrings : request.brings h =
      if h = own then (if own.shared then { refs := 1 } else { fields := 1 }) else {}) :
    Delivered h request s s' 0 0 := by
  simp only [State.take, Option.ite_none_right_eq_some, Option.some.injEq] at hTake
  obtain ⟨hSome, rfl⟩ := hTake
  refine ⟨rfl, by cases h <;> rfl, by cases h <;> rfl, ?_⟩
  rw [hBrings]
  by_cases hSame : h = own
  · subst hSame
    cases h with
    | listener l =>
        simp [stored, Handle.shared, Share.add_eq]
        omega
    | accepted l n =>
        simp [stored, Handle.shared, Share.add_eq]
        omega
    | client n =>
        simp only [stored, Handle.shared, ↓reduceIte, Function.update_self]
        split <;> simp [Share.add_eq] <;> omega
  · cases h <;> simp [stored, hSame, Share.add_eq]

/-- A suspended attempt that runs again takes along what it was suspended with. -/
theorem delivered_resume {n : Nat} {point : Suspended} (hResume : s.resume n point = some s')
    (hBrings : request.brings h = (Request.pollConnect n point).brings h) :
    Delivered h request s s' 0 (if h = .client n then 1 else 0) := by
  simp only [State.resume, Option.ite_none_right_eq_some, Option.some.injEq] at hResume
  obtain ⟨hPoint, rfl⟩ := hResume
  by_cases hSame : h = .client n
  · subst hSame
    constructor
    · rfl
    · simp [introduced, hPoint]
    · simp [running, hPoint]
    · rw [hBrings]
      cases point <;> simp [stored, Request.brings, hPoint, Share.add_eq]
  · have hNone : request.brings h = {} := hBrings.trans (brings_of_foreign hSame)
    cases h with
    | client m =>
        have hNe : m ≠ n := fun hEq => hSame (by rw [hEq])
        constructor <;> simp [introduced, running, stored, hNe, hNone]
    | _ => constructor <;> simp [introduced, running, stored, hNone]

theorem delivered_connect {n : Nat} (hFresh : s.connecting n = .fresh) :
    Delivered h (.connect n) s { s with connecting := Function.update s.connecting n .running }
      (if h = .client n then 1 else 0) (if h = .client n then 1 else 0) := by
  by_cases hSame : h = .client n
  · subst hSame
    constructor <;> simp [introduced, running, stored, Request.brings, hFresh, Share.add_eq]
  · have hNone : (Request.connect n).brings h = {} := brings_of_foreign hSame
    cases h with
    | client m =>
        have hNe : m ≠ n := fun hEq => hSame (by rw [hEq])
        constructor <;> simp [introduced, running, stored, hNe, hNone]
    | _ => constructor <;> simp [introduced, running, stored, hNone]

/-- A request that is noted in the books of a listener. -/
theorem delivered_setListener {l right : Nat} {listener : ListenerState}
    (hConn : listener.conn = (s.listener l).conn)
    (hIntroduced : introduced (s.setListener l listener) h = introduced s h + right)
    (hBrings : request.brings h = { right }) :
    Delivered h request s (s.setListener l listener) right 0 := by
  refine ⟨rfl, hIntroduced, by cases h <;> rfl, ?_⟩
  rw [hBrings]
  cases h with
  | accepted m n =>
      by_cases hSame : m = l
      · subst hSame
        simp [stored, hConn]
      · simp [stored, State.setListener_of_ne _ _ hSame]
  | _ => rfl

theorem introduced_setListener {l : Nat} {listener : ListenerState}
    (hUsed : h = .listener l → listener.used = (s.listener l).used)
    (hOffered : ∀ n, h = .accepted l n → (n ∈ listener.offered ↔ n ∈ (s.listener l).offered)) :
    introduced (s.setListener l listener) h = introduced s h := by
  cases h with
  | listener m =>
      by_cases hSame : m = l
      · subst hSame
        simp [introduced, hUsed rfl]
      · simp [introduced, State.setListener_of_ne _ _ hSame]
  | accepted m n =>
      by_cases hSame : m = l
      · subst hSame
        simp [introduced, hOffered n rfl]
      · simp [introduced, State.setListener_of_ne _ _ hSame]
  | client n => rfl

theorem delivered (hDeliver : deliver request s = some s') :
    ∃ right pen, Delivered h request s s' right pen := by
  cases request with
  | dropListener l => exact ⟨0, 0, delivered_take hDeliver rfl⟩
  | pollConnect n point => exact ⟨0, _, delivered_resume hDeliver rfl⟩
  | dropConnect n point => exact ⟨0, _, delivered_resume hDeliver (by cases point <;> rfl)⟩
  | cloneOpener k own =>
      simp only [deliver, Option.ite_none_right_eq_some] at hDeliver
      exact ⟨0, 0, delivered_take hDeliver.2 (by rw [hDeliver.1]; rfl)⟩
  | dropArc k own =>
      simp only [deliver, Option.ite_none_right_eq_some] at hDeliver
      exact ⟨0, 0, delivered_take hDeliver.2 (by rw [hDeliver.1]; rfl)⟩
  | pollAccept l =>
      simp only [deliver, Option.ite_none_right_eq_some, Option.some.injEq] at hDeliver
      obtain ⟨-, rfl⟩ := hDeliver
      exact ⟨0, 0, rfl, rfl, rfl, rfl⟩
  | connect n =>
      simp only [deliver, Option.ite_none_right_eq_some, Option.some.injEq] at hDeliver
      obtain ⟨hFresh, rfl⟩ := hDeliver
      exact ⟨_, _, delivered_connect hFresh⟩
  | withConfig l =>
      simp only [deliver, Option.ite_none_left_eq_some, Option.some.injEq] at hDeliver
      obtain ⟨hUnused, rfl⟩ := hDeliver
      by_cases hSame : h = .listener l
      · subst hSame
        exact ⟨1, 0, delivered_setListener rfl (by simp [introduced, hUnused]) (if_pos rfl)⟩
      · refine ⟨0, 0, delivered_setListener rfl ?_ (if_neg hSame)⟩
        exact introduced_setListener (fun hEq => absurd hEq hSame) fun _ _ => Iff.rfl
  | listener l event =>
      cases event with
      | stopComplete =>
          simp only [deliver, Option.ite_none_right_eq_some, Option.some.injEq] at hDeliver
          obtain ⟨-, rfl⟩ := hDeliver
          refine ⟨0, 0, delivered_setListener rfl ?_ rfl⟩
          exact introduced_setListener (fun _ => rfl) fun _ _ => Iff.rfl
      | newConnection n =>
          simp only [deliver, Option.ite_none_right_eq_some, Option.some.injEq] at hDeliver
          obtain ⟨⟨-, -, hNew⟩, rfl⟩ := hDeliver
          by_cases hSame : h = .accepted l n
          · subst hSame
            exact ⟨1, 0, delivered_setListener rfl (by simp [introduced, hNew]) (if_pos rfl)⟩
          · refine ⟨0, 0, delivered_setListener rfl ?_ (if_neg hSame)⟩
            refine introduced_setListener (fun _ => rfl) ?_
            rintro k rfl
            have hNe : k ≠ n := fun hEq => hSame (by rw [hEq])
            simp [hNe]

end Deliver

section Ledger

variable {h : Handle}

theorem stored_mem (s : State) (h : Handle) : stored s h ∈ Share.fair := by
  cases h with
  | client n =>
      simp only [stored]
      split <;> exact fun _ => rfl
  | _ => exact fun _ => rfl

theorem brings_mem (h : Handle) (request : Request) : request.brings h ∈ Share.fair := by
  have hCase : ∀ (c : Prop) [Decidable c] (x : Share), x.own = 0 →
      (if c then x else {}) ∈ Share.fair := by
    intro c _ x hOwn
    split
    · exact fun _ => hOwn
    · exact fun _ => rfl
  cases request with
  | listener l event =>
      cases event with
      | newConnection n => exact hCase _ _ rfl
      | stopComplete => exact fun _ => rfl
  | pollAccept l => exact fun _ => rfl
  | pollConnect n point => cases point <;> exact hCase _ _ rfl
  | dropConnect n point => cases point <;> exact hCase _ _ rfl
  | _ => exact hCase _ _ rfl

theorem give_mem {held : Share} (hHeld : held ∈ Share.fair) (count : Nat) :
    held.give count ∈ Share.fair := by
  simp only [Share.give, Share.mem_fair] at *
  split
  · simp
  · exact hHeld

/-- Whoever has sole access keeps it as long as references of his own are left. -/
theorem leaves_mem {op : Op} {held : Share} (reply : op.Reply) (hHeld : held ∈ Share.fair)
    (hNeeds : op.needs held) : op.leaves reply held ∈ Share.fair := by
  have hTake : held.take ∈ Share.fair := by simp [Share.take]
  cases op with
  | release own =>
      simp only [Op.leaves]
      split <;> exact hHeld
  | fromRaw own => exact hTake
  | arcNew own =>
      intro hSole
      exact absurd hSole (Nat.ne_of_gt hNeeds.2.1)
  | arcClone own =>
      simp only [Op.leaves, Share.mem_fair] at *
      split <;> simp only <;> omega
  | arcDrop own =>
      simp only [Op.leaves, Share.mem_fair] at *
      split <;> simp only <;> omega
  | closeConnection own =>
      simp only [Op.leaves]
      split <;> exact hHeld
  | handOver own count => cases own <;> first | exact hHeld | exact give_mem hHeld count
  | sendConn l message =>
      cases reply with
      | true => exact give_mem hHeld 2
      | false => exact hHeld
  | openListener l =>
      cases reply with
      | error status => exact hHeld
      | ok _ => exact hTake
  | openConnection n =>
      cases reply with
      | error status => exact hHeld
      | ok _ => exact hTake
  | setConnecting n connecting =>
      have hStopped : { held with pen := held.pen - 1 } ∈ Share.fair := hHeld
      rcases connecting with - | (- | -) | - | -
      · exact hStopped
      · exact hStopped
      · exact give_mem hStopped 1
      · exact hStopped
      · exact hStopped
  | _ => exact hHeld

theorem keeps_mem {op : Op} {held : Share} (reply : op.Reply) (hHeld : held ∈ Share.fair)
    (hTakes : (ownership h).takes op held) : (ownership h).keeps held op reply ∈ Share.fair := by
  simp only [ownership] at *
  split
  next hSubject => exact leaves_mem reply hHeld (hTakes hSubject)
  next hSubject =>
      apply Share.fair.add_mem hHeld
      rw [received_eq]
      exact fun _ => rfl

/-- The books of a handle in a world. -/
def Valid (h : Handle) (w : LifecycleWorld) (x : Share) : Prop :=
  Books (history h w.trace) (w.state.arcs h) (introduced w.state h) (running w.state h) x

theorem history_snoc (h : Handle) (trace : List LifecycleLabel) (label : LifecycleLabel) :
    history h (trace ++ [label]) = history h trace ++ Machine.noted (marked h) label :=
  Machine.noted_snoc trace label

theorem valid_begun {request : Request} {w : LifecycleWorld} {s : State} {frame : Share}
    (hDeliver : deliver request w.state = some s) (hValid : Valid h w (stored w.state h + frame)) :
    Valid h (w.after (.begun request) s) (stored s h + (request.brings h + frame)) := by
  obtain ⟨right, pen, hArcs, hIntroduced, hRunning, hStored⟩ := @delivered h _ _ _ hDeliver
  have hPast : history h (w.after (.begun request) s).trace = history h w.trace := by
    simp [history_snoc, Machine.noted]
  rw [Valid, hPast, World.after_state, hArcs, hIntroduced, hRunning, ← add_assoc, hStored, add_right_comm]
  exact hValid.introduce right pen

theorem passes_add {op : Op} (reply : op.Reply) (x y : Share) :
    op.passes reply (x + y) = op.passes reply x + y := by
  cases op with
  | handOver own count => cases own <;> exact (add_assoc _ _ _).symm
  | sendConn l message =>
      cases reply with
      | true => exact (add_assoc _ _ _).symm
      | false => rfl
  | setConnecting n connecting =>
      rcases connecting with - | (- | -) | - | - <;> first | rfl | exact (add_assoc _ _ _).symm
  | _ => rfl

theorem fitting_of_other {op : Op} {held : Share} (reply : op.Reply) (hSubject : op.subject ≠ some h) :
    fitting h op reply held := by
  cases op with
  | arcDrop own => exact fun hSame => absurd (congrArg some hSame) hSubject
  | _ => trivial

theorem valid_event {request : Request} {op : Op} {w : LifecycleWorld} {choice : Choice}
    {held frame : Share} (hHeld : held ∈ Share.fair) (hFrame : frame ∈ Share.fair)
    (hTakes : (ownership h).takes op held) (hValid : Valid h w (stored w.state h + (held + frame))) :
    (ownership h).possible op (op.perform choice w.state).1 held ∧
      Valid h (lifecycle.advance choice request op w)
        (stored (op.perform choice w.state).2 h +
          ((ownership h).keeps held op (op.perform choice w.state).1 + frame)) := by
  have hPast : history h (lifecycle.advance choice request op w).trace = history h w.trace ++
      marked h (lifecycle.event choice request op w.state) := history_snoc ..
  rw [Valid, hPast, Machine.advance_state]
  change _ ∧ Books _ ((op.perform choice w.state).2.arcs h) (introduced (op.perform choice w.state).2 h)
    (running (op.perform choice w.state).2 h) _
  by_cases hSubject : op.subject = some h
  · have hNeeds : op.needs held := hTakes hSubject
    have hBooks : Books (history h w.trace) (w.state.arcs h) (introduced w.state h)
        (running w.state h) (held + (stored w.state h + frame)) := by
      rw [add_left_comm]
      exact hValid
    have hPen : ∀ n connecting, op = .setConnecting n connecting → 0 < running w.state h ∧
        connecting ≠ .fresh ∧ connecting ≠ .running := by
      rintro n connecting rfl
      have hRunning := hBooks.pen
      have hSome := hNeeds.1
      rw [Share.add_pen] at hRunning
      refine ⟨by omega, ?_, ?_⟩ <;> rintro rfl <;> exact hNeeds.2
    have hOne : ∀ l count, op = .handOver (.listener l) count → count = 1 := by
      rintro l count rfl
      exact hNeeds.1
    obtain ⟨hFit, hAfter⟩ := hBooks.trade hSubject (introduced_le _ _) (running_le _ _) hHeld
      (Share.fair.add_mem (stored_mem _ _) hFrame) hNeeds (counted_of_subject choice w.state hSubject)
    refine ⟨hFit, ?_⟩
    rw [arcs_of_subject choice w.state hSubject,
      introduced_of_subject choice w.state hSubject fun n c hOp => ⟨(hPen n c hOp).1, (hPen n c hOp).2.1⟩,
      running_of_subject choice w.state hSubject fun n c hOp => (hPen n c hOp).2.2,
      stored_of_subject choice w.state hSubject (fun n c hOp => (hPen n c hOp).1) hOne, add_left_comm,
      ← passes_add]
    have hKeeps : (ownership h).keeps held op (op.perform choice w.state).1 =
        op.leaves (op.perform choice w.state).1 held := if_pos hSubject
    have hMarked : marked h (lifecycle.event choice request op w.state) =
        op.marks (op.perform choice w.state).1 := if_pos hSubject
    rw [hKeeps, hMarked]
    exact hAfter
  · obtain ⟨hIntroduced, hRunning, hStored⟩ := untouched_of_other choice w.state hSubject
    refine ⟨fitting_of_other _ hSubject, ?_⟩
    have hKeeps : (ownership h).keeps held op (op.perform choice w.state).1 =
        held + received h op (op.perform choice w.state).1 := if_neg hSubject
    have hNone : marked h (lifecycle.event choice request op w.state) = [] := if_neg hSubject
    rw [hKeeps, hNone, List.append_nil, arcs_of_other choice w.state hSubject, hIntroduced, hRunning,
      add_right_comm held, add_comm (held + frame), ← add_assoc, hStored, add_right_comm]
    exact Books.strike hValid _

theorem valid_finished {request : Request} {result : Result} {events : List LifecycleEvent}
    {w : LifecycleWorld} {held frame : Share} (hPost : ReturnsWith h request held result)
    (hValid : Valid h w (stored w.state h + (held + frame))) :
    Valid h (w.after (.finished ⟨request, events, result⟩) w.state) (stored w.state h + frame) := by
  have hPast : history h (w.after (.finished ⟨request, events, result⟩) w.state).trace =
      history h w.trace := by
    simp [history_snoc, Machine.noted]
  rw [Valid, hPast, World.after_state]
  rw [Valid, add_left_comm] at hValid
  exact Books.settle hValid hPost.settled

/-- The ledger of a handle. -/
def ledger (h : Handle) : lifecycle.Ledger Share where
  discipline := ownership h
  shares := Share.fair
  start := Request.brings h
  stored w := stored w.state h
  valid := Valid h
  looped _ _ _ := False
  post := ReturnsWith h
  start_mem := brings_mem h
  stored_mem w := stored_mem w.state h
  keeps_mem _ _ reply hHeld hTakes _ := keeps_mem reply hHeld hTakes
  entry _ _ _ hDeliver := affords_entry h hDeliver
  body _ loop := loop.elim
  begun _ _ _ _ hDeliver _ hValid := valid_begun hDeliver hValid
  event _ _ _ _ _ _ hHeld hFrame hTakes hValid := valid_event hHeld hFrame hTakes hValid
  finished _ _ _ _ hPost hValid := valid_finished hPost hValid

theorem valid_initial (h : Handle) : Valid h ⟨{}, []⟩ (stored {} h) := by
  cases h <;> constructor <;> simp [stored, introduced, running, history, Channel.unbounded]

/-- The books of every handle balance at every point of a run. -/
theorem balanced (h : Handle) {trace : List LifecycleLabel} {reached : LifecycleConfig}
    (run : Runs trace reached) : (ledger h).Balanced trace reached :=
  (ledger h).sound (valid_initial h) run

end Ledger

end MsQuicH3.Lifecycle
