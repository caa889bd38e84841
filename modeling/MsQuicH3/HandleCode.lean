import MsQuicH3.HandleShare

/-! The code of every request affords what it does to a handle: from what the request
brings along, through every branch and every panic, to a return with nothing in hand. -/
namespace MsQuicH3.Lifecycle

open Concurrency

/-- What a request has of a handle at its start. -/
def Request.brings (h : Handle) : Request → Share
  | .listener l (.newConnection n) => if h = .accepted l n then { right := 1 } else {}
  | .withConfig l => if h = .listener l then { right := 1 } else {}
  | .connect n => if h = .client n then { right := 1, pen := 1 } else {}
  | .pollConnect n .unpolled | .dropConnect n .unpolled =>
      if h = .client n then { claim := 1, guard := 1, pen := 1 } else {}
  | .pollConnect n .waiting | .dropConnect n .waiting =>
      if h = .client n then { refs := 1, pen := 1 } else {}
  | .dropListener l => if h = .listener l then { fields := 1 } else {}
  | .cloneOpener _ own | .dropArc _ own => if h = own then { refs := 1 } else {}
  | _ => {}

/-- Nothing of the handle is left behind. -/
structure Share.Settled (x : Share) : Prop where
  guard : x.guard = 0
  raw : x.raw = 0
  fields : x.fields = 0
  bare : x.bare = 0
  own : x.own = 0
  refs : x.refs = 0
  pen : x.pen = 0

theorem settled_free {right claim sole struck : Nat} :
    ({ right, claim, sole, struck } : Share).Settled := ⟨rfl, rfl, rfl, rfl, rfl, rfl, rfl⟩

/-- How a request returns. A `NewConnection` callback returns `Ok` when it has taken the
connection and an error when it has not. -/
structure ReturnsWith (h : Handle) (request : Request) (x : Share) (result : Result) : Prop where
  settled : x.Settled
  verdict : ∀ l n, request = .listener l (.newConnection n) → h = .accepted l n →
    (result = .callback (.ok ()) ↔ x.right + x.claim = 0)

section Callback

variable {l n : Nat}

/-- What the local variables of a callback are at each point, and what they own. -/
inductive Locals.Tells (h : Handle) : Locals → Share → Prop where
  | before {right claim : Nat} (one : right + claim = 1) : Tells h {} { right, claim }
  | reserved : Tells h { held := .guard h } { claim := 1, guard := 1 }
  | taken : Tells h { held := .parts h, owned := true } { raw := 1, sole := 1 }
  | built {count : Nat} (few : count = 1 ∨ count = 2) :
      Tells h { held := .arcs h count, owned := true } { sole := 1, own := count }
  | last : Tells h { held := .handle h, owned := true } { fields := 1, sole := 1 }
  | closed : Tells h { held := .guard h, owned := true } { guard := 1, sole := 1 }
  | gone {sole : Nat} : Tells h { owned := true } { sole }

/-- The mark of a contained panic. -/
def Share.hit (x : Share) : Share := { x with struck := x.struck + 1 }

/-- Unwinding leaves nothing of the handle behind. -/
theorem affords_unwind {h : Handle} {locals : Locals} {x : Share} (hTells : locals.Tells h x) :
    (unwind locals.held).Affords (ownership h)
      (fun y _ => y.Settled ∧ (y.right + y.claim = 0 ↔ locals.owned = true)) x.hit := by
  cases hTells with
  | before one => exact ⟨settled_free, by simp [Share.hit, one]⟩
  | gone => exact ⟨settled_free, by simp [Share.hit]⟩
  | reserved =>
      refine affords_on rfl (Or.inl Nat.one_pos) fun _ _ => ?_
      exact ⟨settled_free, iff_of_false Nat.one_ne_zero Bool.false_ne_true⟩
  | closed =>
      refine affords_on rfl (Or.inl Nat.one_pos) fun _ _ => ?_
      exact ⟨settled_free, iff_of_true rfl rfl⟩
  | taken =>
      refine affords_on rfl (Or.inr ⟨Nat.one_pos, Nat.one_pos⟩) fun _ _ => ?_
      refine affords_on rfl (Or.inr Nat.one_pos) fun _ _ => ?_
      exact ⟨settled_free, iff_of_true rfl rfl⟩
  | last =>
      apply (affords_close Nat.one_pos).mono
      rintro y _ rfl
      exact ⟨settled_free, iff_of_true rfl rfl⟩
  | built few =>
      rcases few with rfl | rfl
      · apply Program.Affords.bind
        apply (affords_dropArc_own rfl).mono
        rintro y _ rfl
        exact ⟨settled_free, iff_of_true rfl rfl⟩
      · apply (affords_dropConnection rfl).mono
        rintro y _ rfl
        exact ⟨settled_free, iff_of_true rfl rfl⟩

/-- The recovery gives its verdict by the token. -/
theorem affords_listenerRecover {h : Handle} {locals : Locals} {x : Share}
    (hTells : locals.Tells h x) :
    (listenerRecover l locals).Affords (ownership h)
      (fun y result => y.Settled ∧ (result = .ok () ↔ y.right + y.claim = 0)) x.hit := by
  apply Program.Affords.bind
  apply (affords_unwind hTells).mono
  rintro y _ ⟨hSettled, hToken⟩
  refine affords_past (by simp [Op.subject]) (fun _ => rfl) fun _ => ?_
  refine affords_past (by simp [Op.subject]) (fun _ => rfl) fun _ => ?_
  refine affords_past (by simp [Op.subject]) (fun _ => rfl) fun _ => ?_
  change (if locals.owned = true then _ else _ : Code (Except Status Unit)).Affords _ _ _
  split
  next hOwned => exact ⟨hSettled, by simpa using hToken.2 hOwned⟩
  next hOwned => exact ⟨hSettled, by simpa [hOwned] using hToken⟩

section Body

variable {P : Share → Except Status Unit → Prop} {h : Handle} {locals : Locals} {x : Share} {op : Op}
  {next : op.Reply → Code (Except Status Unit)}

/-- An operation of a callback body on its connection. -/
theorem carries_on (hSubject : op.subject = some h) (hNeeds : op.needs x)
    (hNext : ∀ reply, fitting h op reply x →
      (locals.keeps op reply).Tells h (op.leaves reply x) ∧
        (next reply).Carries (ownership h) Locals.keeps (Locals.Tells h) P (locals.keeps op reply)
          (op.leaves reply x)) :
    Program.Carries (S := signature) (ownership h) Locals.keeps (Locals.Tells h) P locals x
      (.call op next) := by
  refine ⟨fun _ => hNeeds, fun reply hReply => ?_⟩
  simp only [ownership, hSubject, ↓reduceIte]
  exact hNext reply hReply

end Body

theorem carries_newConnection : (listenerCallback l (.newConnection n)).Carries
    (ownership (.accepted l n)) Locals.keeps (Locals.Tells (.accepted l n))
    (fun x result => x.Settled ∧ (result = .ok () ↔ x.right + x.claim = 0)) {} { right := 1 } := by
  refine carries_on rfl Nat.one_pos fun _ _ => ⟨.reserved, ?_⟩
  refine carries_on rfl Nat.one_pos fun config _ => ⟨.reserved, ?_⟩
  cases config with
  | error status =>
      refine carries_on rfl (Or.inl Nat.one_pos) fun _ _ => ⟨.before rfl, ?_⟩
      exact ⟨settled_free, iff_of_false (by simp) Nat.one_ne_zero⟩
  | ok _ =>
      refine carries_on rfl ⟨Nat.one_pos, Nat.one_pos, rfl⟩ fun _ _ => ⟨.taken, ?_⟩
      refine carries_on rfl Nat.one_pos fun _ _ => ⟨.taken, ?_⟩
      refine carries_on rfl ⟨Nat.one_pos, Nat.one_pos, rfl⟩ fun _ _ => ⟨.built (.inl rfl), ?_⟩
      refine carries_on rfl (Or.inl Nat.one_pos) fun _ _ => ⟨.built (.inr rfl), ?_⟩
      refine carries_on rfl ⟨Nat.one_pos, rfl⟩ fun sent _ => ?_
      cases sent with
      | true => exact ⟨.gone, settled_free, iff_of_true rfl rfl⟩
      | false =>
          refine ⟨.built (.inr rfl), ?_⟩
          refine carries_on rfl (Or.inl Nat.two_pos) fun last hFit => ?_
          cases last with
          | true => cases (hFit rfl).1 rfl
          | false =>
              refine ⟨.built (.inl rfl), ?_⟩
              refine carries_on rfl (Or.inl Nat.one_pos) fun last hFit => ?_
              obtain rfl : last = true := (hFit rfl).2 rfl
              refine ⟨.last, ?_⟩
              refine carries_on rfl (Or.inl Nat.one_pos) fun _ _ => ⟨.closed, ?_⟩
              refine carries_on rfl (Or.inl Nat.one_pos) fun _ _ => ⟨.gone, ?_⟩
              exact ⟨settled_free, iff_of_true rfl rfl⟩

theorem affords_panicPoint {h : Handle} {P : Share → Except Status Unit → Prop} (k : Nat) (x : Share)
    (next : Bool → Code (Except Status Unit)) (hCalm : (next false).Affords (ownership h) P x)
    (hStruck : (next true).Affords (ownership h) P x.hit) :
    (issue (.panicPoint k) >>= next).Affords (ownership h) P x := by
  refine affords_off (by simp [Op.subject]) fun struck => ?_
  cases struck with
  | true => exact hStruck
  | false => exact hCalm

/-- A callback ends with nothing in hand, and returns `Ok` when it has taken the connection. -/
theorem affords_listenerHandler : (listenerHandler l (.newConnection n)).Affords
    (ownership (.accepted l n))
    (fun x result => x.Settled ∧ (result = .ok () ↔ x.right + x.claim = 0)) { right := 1 } := by
  refine affords_past (by simp [Op.subject]) (fun _ => rfl) fun poisoned => ?_
  cases poisoned with
  | true => exact ⟨settled_free, iff_of_false (by simp [listenerPoisonDisp]) Nat.one_ne_zero⟩
  | false =>
      have hStart : Locals.Tells (.accepted l n) {} { right := 1 } := .before rfl
      refine Program.Affords.guardedWith affords_panicPoint ?_ carries_newConnection 0 hStart
      exact fun _ _ => affords_listenerRecover

end Callback

section Connect

variable {n : Nat}

theorem affords_connect : (connect n).Affords (ownership (.client n))
    (fun x _ => x.Settled) { right := 1, pen := 1 } := by
  refine affords_on rfl Nat.one_pos fun _ _ => ?_
  refine affords_on rfl ⟨Nat.one_pos, Nat.one_pos, Nat.one_pos⟩ fun _ _ => ?_
  exact settled_free

theorem affords_failConnect {x : Share} (status : Status)
    (hDrop : (dropArc (.client n)).Affords (ownership (.client n))
      (fun y _ => 0 < y.pen ∧ { y with pen := y.pen - 1 }.Settled) x) :
    (failConnect n status).Affords (ownership (.client n)) (fun y _ => y.Settled) x := by
  apply Program.Affords.bind
  apply hDrop.mono
  rintro y _ ⟨hPen, hSettled⟩
  refine affords_on rfl ⟨hPen, trivial⟩ fun _ _ => ?_
  exact hSettled

/-- From a reference of its own, or from the one the future was suspended with. -/
theorem affords_awaitConnected {x : Share}
    (hOne : x = { sole := 1, own := 1, pen := 1 } ∨ x = { refs := 1, pen := 1 }) :
    (awaitConnected n).Affords (ownership (.client n)) (fun y _ => y.Settled) x := by
  refine affords_past (by simp [Op.subject]) (fun _ => rfl) fun polled => ?_
  rcases polled with - | (status | -)
  · rcases hOne with rfl | rfl
    · refine affords_on rfl ⟨Nat.one_pos, .inl ⟨Nat.one_pos, rfl⟩⟩ fun _ _ => ?_
      exact settled_free
    · refine affords_on rfl ⟨Nat.one_pos, .inr ⟨rfl, Nat.one_pos⟩⟩ fun _ _ => ?_
      exact settled_free
  · apply affords_failConnect
    rcases hOne with rfl | rfl
    · apply (affords_dropArc_own rfl).mono
      rintro y _ rfl
      exact ⟨Nat.one_pos, settled_free⟩
    · apply (affords_dropArc_refs rfl Nat.one_pos).mono
      rintro y _ rfl
      exact ⟨Nat.one_pos, settled_free⟩
  · rcases hOne with rfl | rfl
    · refine affords_on rfl (Or.inl Nat.one_pos) fun _ _ => ?_
      refine affords_on rfl ⟨Nat.one_pos, trivial⟩ fun _ _ => ?_
      refine affords_on rfl (Or.inl ⟨Nat.one_pos, rfl⟩) fun _ _ => ?_
      exact settled_free
    · refine affords_on rfl (Or.inr Nat.one_pos) fun _ _ => ?_
      refine affords_on rfl ⟨Nat.one_pos, trivial⟩ fun _ _ => ?_
      refine affords_on rfl (Or.inr ⟨rfl, Nat.le_refl 2⟩) fun _ _ => ?_
      exact settled_free

theorem affords_startConnect : (startConnect n).Affords (ownership (.client n))
    (fun x _ => x.Settled) { claim := 1, guard := 1, pen := 1 } := by
  refine affords_on rfl ⟨Nat.one_pos, Nat.one_pos, rfl⟩ fun opened _ => ?_
  cases opened with
  | error status =>
      refine affords_on rfl (Or.inl Nat.one_pos) fun _ _ => ?_
      refine affords_on rfl ⟨Nat.one_pos, trivial⟩ fun _ _ => ?_
      exact settled_free
  | ok _ =>
      refine affords_on rfl ⟨Nat.one_pos, Nat.one_pos, rfl⟩ fun _ _ => ?_
      refine affords_on rfl Nat.one_pos fun started _ => ?_
      cases started with
      | error status =>
          apply affords_failConnect
          apply (affords_dropArc_own rfl).mono
          rintro y _ rfl
          exact ⟨Nat.one_pos, settled_free⟩
      | ok _ => exact affords_awaitConnected (.inl rfl)

theorem affords_dropConnect_unpolled : (dropConnect n .unpolled).Affords (ownership (.client n))
    (fun x _ => x.Settled) { claim := 1, guard := 1, pen := 1 } := by
  refine affords_on rfl ⟨Nat.one_pos, trivial⟩ fun _ _ => ?_
  refine affords_on rfl (Or.inl Nat.one_pos) fun _ _ => ?_
  exact settled_free

theorem affords_dropConnect_waiting : (dropConnect n .waiting).Affords (ownership (.client n))
    (fun x _ => x.Settled) { refs := 1, pen := 1 } := by
  refine affords_on rfl ⟨Nat.one_pos, trivial⟩ fun _ _ => ?_
  apply (affords_dropArc_refs rfl Nat.one_pos).mono
  rintro y _ rfl
  exact settled_free

end Connect

section Listener

variable {l : Nat}

/-- The connections that were still queued are dropped, each with both its references. -/
theorem affords_dropQueued (n : Nat) (queue : List (Option Nat)) :
    (dropQueued l queue).Affords (ownership (.accepted l n)) (fun x _ => x.Settled)
      { refs := 2 * queue.count (some n) } := by
  induction queue with
  | nil => exact settled_free
  | cons message queue ih =>
      cases message with
      | none =>
          rw [List.count_cons_of_ne (by simp)]
          exact ih
      | some k =>
          apply Program.Affords.bind
          by_cases hSame : k = n
          · subst hSame
            rw [List.count_cons_self]
            apply (affords_dropArcs 2 rfl (by simp)).mono
            rintro y _ rfl
            exact ih
          · rw [List.count_cons_of_ne (by simpa using hSame)]
            apply (affords_dropArcs_foreign (by simpa using hSame) 2).mono
            rintro y _ rfl
            exact ih

theorem affords_dropQueued_listener {x : Share} (queue : List (Option Nat)) :
    (dropQueued l queue).Affords (ownership (.listener l)) (fun y _ => y = x) x := by
  induction queue with
  | nil => rfl
  | cons message queue ih =>
      cases message with
      | none => exact ih
      | some k =>
          apply Program.Affords.bind
          apply (affords_dropArcs_foreign (by simp) 2).mono
          rintro y _ rfl
          exact ih

theorem affords_dropListener (n : Nat) : (dropListener l).Affords (ownership (.accepted l n))
    (fun x _ => x.Settled) {} := by
  refine affords_past (by simp [Op.subject]) (fun _ => rfl) fun _ => ?_
  refine affords_off (by simp [Op.subject]) fun queue => ?_
  have hReceived : received (.accepted l n) (.dropReceiver l) queue =
      { refs := 2 * queue.count (some n) } := if_pos rfl
  rw [hReceived, Share.empty_add]
  change (dropQueued l queue >>= fun _ => issue (.release (.listener l))).Affords _ _ _
  apply Program.Affords.bind
  apply (affords_dropQueued n queue).mono
  intro y _ hSettled
  exact affords_past (by simp [Op.subject]) (fun _ => rfl) fun _ => hSettled

/-- The listener itself, with what `with_config` has built or the application gave back. -/
theorem affords_closeListener {sole : Nat} : (dropListener l).Affords (ownership (.listener l))
    (fun x _ => x.Settled) { fields := 1, sole } := by
  refine affords_on rfl Nat.one_pos fun _ _ => ?_
  refine affords_past (by simp [Op.subject]) (fun _ => rfl) fun queue => ?_
  change (dropQueued l queue >>= fun _ => issue (.release (.listener l))).Affords _ _ _
  apply Program.Affords.bind
  apply (affords_dropQueued_listener queue).mono
  rintro y _ rfl
  refine affords_on rfl (Or.inl Nat.one_pos) fun _ _ => ?_
  exact settled_free

theorem affords_withConfig : (withConfig l).Affords (ownership (.listener l))
    (fun x _ => x.Settled) { right := 1 } := by
  refine affords_on rfl Nat.one_pos fun _ _ => ?_
  refine affords_on rfl ⟨Nat.one_pos, Nat.one_pos, rfl⟩ fun opened _ => ?_
  cases opened with
  | error status =>
      refine affords_on rfl (Or.inl Nat.one_pos) fun _ _ => ?_
      exact settled_free
  | ok _ =>
      refine affords_on rfl Nat.one_pos fun started _ => ?_
      cases started with
      | error status =>
          change (dropListener l >>= fun _ => .done (Except.error status)).Affords _ _ _
          apply Program.Affords.bind
          exact affords_closeListener.mono fun _ _ hSettled => hSettled
      | ok _ =>
          refine affords_on rfl ⟨rfl, Nat.one_pos⟩ fun _ _ => ?_
          exact settled_free

theorem affords_withConfig_queued (n : Nat) : (withConfig l).Affords (ownership (.accepted l n))
    (fun x _ => x.Settled) {} := by
  refine affords_past (by simp [Op.subject]) (fun _ => rfl) fun _ => ?_
  refine affords_past (by simp [Op.subject]) (fun _ => rfl) fun opened => ?_
  cases opened with
  | error status => exact affords_past (by simp [Op.subject]) (fun _ => rfl) fun _ => settled_free
  | ok _ =>
      refine affords_past (by simp [Op.subject]) (fun _ => rfl) fun started => ?_
      cases started with
      | error status =>
          change (dropListener l >>= fun _ => .done (Except.error status)).Affords _ _ _
          apply Program.Affords.bind
          exact (affords_dropListener n).mono fun _ _ hSettled => hSettled
      | ok _ => exact affords_past (by simp [Op.subject]) (fun _ => rfl) fun _ => settled_free

theorem affords_pollAccept (n : Nat) : (pollAccept l).Affords (ownership (.accepted l n))
    (fun x _ => x.Settled) {} := by
  refine affords_off (by simp [Op.subject]) fun polled => ?_
  rcases polled with - | (- | (- | k))
  · exact settled_free
  · exact settled_free
  · exact settled_free
  · by_cases hSame : k = n
    · subst hSame
      have hReceived : received (.accepted l k) (.pollConn l) (.ready (some (some k))) = { refs := 2 } :=
        if_pos rfl
      rw [hReceived, Share.empty_add]
      refine affords_on rfl (Or.inr ⟨rfl, Nat.le_refl 2⟩) fun _ _ => ?_
      exact settled_free
    · have hReceived : received (.accepted l n) (.pollConn l) (.ready (some (some k))) = {} :=
        if_neg (by simpa using Ne.symm hSame)
      rw [hReceived]
      refine affords_past (by simpa [Op.subject] using hSame) (fun _ => rfl) fun _ => ?_
      exact settled_free

end Listener

section Entry

variable {h : Handle}

theorem affords_cloneOpener (hShared : h.shared = true) : (cloneOpener h).Affords (ownership h)
    (fun x _ => x.Settled) { refs := 1 } := by
  refine affords_on rfl (Or.inr Nat.one_pos) fun _ _ => ?_
  cases h with
  | listener l => cases hShared
  | _ =>
      refine affords_on rfl (Or.inr ⟨rfl, Nat.le_refl 2⟩) fun _ _ => ?_
      exact settled_free

/-- No request loops. -/
theorem yields_entry (request : Request) :
    (lifecycle.entry request).Yields fun outcome => ∃ result, outcome = .inr result := by
  have hStraight : ∀ {α : Type} (code : Code α) (result : α → Result),
      (straight code result).Yields fun outcome => ∃ result, outcome = .inr result :=
    fun code _ => (Program.yields_true code).bind fun _ _ => ⟨_, rfl⟩
  cases request <;> exact hStraight _ _

theorem Share.Bystander.settled {x : Share} (hBystander : x.Bystander) : x.Settled := by
  rw [hBystander]
  exact settled_free

theorem brings_of_foreign {request : Request} (hForeign : ¬request.touches h) :
    request.brings h = {} := by
  cases request with
  | listener l event =>
      cases event with
      | newConnection n => exact if_neg hForeign
      | stopComplete => rfl
  | withConfig l => exact if_neg fun hOwn => hForeign (.inl hOwn)
  | pollAccept l => rfl
  | dropListener l => exact if_neg fun hOwn => hForeign (.inl hOwn)
  | connect n => exact if_neg hForeign
  | pollConnect n point => cases point <;> exact if_neg hForeign
  | dropConnect n point => cases point <;> exact if_neg hForeign
  | cloneOpener k own => exact if_neg hForeign
  | dropArc k own => exact if_neg hForeign

/-- Every request affords what it does, and returns with nothing in hand. -/
theorem affords_entry (h : Handle) {request : Request} {s s' : State}
    (hDeliver : deliver request s = some s') : (lifecycle.entry request).Affords (ownership h)
      (fun x => Sum.elim (fun _ => False) (ReturnsWith h request x)) (request.brings h) := by
  have hStraight : ∀ {α : Type} {code : Code α} {result : α → Result} {x : Share},
      (∀ l event, request ≠ .listener l event) →
      code.Affords (ownership h) (fun y _ => y.Settled) x →
      (straight code result).Affords (ownership h)
        (fun y => Sum.elim (fun _ => False) (ReturnsWith h request y)) x := by
    intro α code result x hOther hCode
    apply Program.Affords.bind
    exact hCode.mono fun y _ hSettled => ⟨hSettled, fun l n hSame => absurd hSame (hOther l _)⟩
  by_cases hTouches : request.touches h
  · cases request with
    | listener l event =>
        cases event with
        | stopComplete => cases hTouches
        | newConnection n =>
            obtain rfl : h = .accepted l n := hTouches
            simp only [Request.brings, ↓reduceIte]
            apply Program.Affords.bind
            apply affords_listenerHandler.mono
            rintro y result ⟨hSettled, hVerdict⟩
            exact ⟨hSettled, fun _ _ _ _ => by rw [← hVerdict]; simp⟩
    | withConfig l =>
        apply hStraight (by simp)
        rcases hTouches with rfl | ⟨n, rfl⟩
        · simp only [Request.brings, ↓reduceIte]
          exact affords_withConfig
        · exact affords_withConfig_queued n
    | dropListener l =>
        apply hStraight (by simp)
        rcases hTouches with rfl | ⟨n, rfl⟩
        · simp only [Request.brings, ↓reduceIte]
          exact affords_closeListener
        · exact affords_dropListener n
    | pollAccept l =>
        obtain ⟨n, rfl⟩ := hTouches
        exact hStraight (by simp) (affords_pollAccept n)
    | connect n =>
        obtain rfl : h = .client n := hTouches
        simp only [Request.brings, ↓reduceIte]
        exact hStraight (by simp) affords_connect
    | pollConnect n point =>
        obtain rfl : h = .client n := hTouches
        cases point with
        | unpolled =>
            simp only [Request.brings, ↓reduceIte]
            exact hStraight (by simp) affords_startConnect
        | waiting =>
            simp only [Request.brings, ↓reduceIte]
            exact hStraight (by simp) (affords_awaitConnected (.inr rfl))
    | dropConnect n point =>
        obtain rfl : h = .client n := hTouches
        cases point with
        | unpolled =>
            simp only [Request.brings, ↓reduceIte]
            exact hStraight (by simp) affords_dropConnect_unpolled
        | waiting =>
            simp only [Request.brings, ↓reduceIte]
            exact hStraight (by simp) affords_dropConnect_waiting
    | cloneOpener k own =>
        obtain rfl : h = own := hTouches
        simp only [deliver, Option.ite_none_right_eq_some] at hDeliver
        simp only [Request.brings, ↓reduceIte]
        exact hStraight (by simp) (affords_cloneOpener hDeliver.1)
    | dropArc k own =>
        obtain rfl : h = own := hTouches
        simp only [Request.brings, ↓reduceIte]
        apply hStraight (by simp)
        apply (affords_dropArc_refs rfl Nat.one_pos).mono
        rintro y _ rfl
        exact settled_free
  · rw [brings_of_foreign hTouches]
    have hKeeps : (lifecycle.entry request).Uses ((ownership h).Keeps Share.Bystander) :=
      (uses_entry request).mono fun _ hPermits => keeps_bystander hTouches hPermits
    have hStart : Share.Bystander {} := rfl
    apply Program.affords_of_uses hKeeps hStart
    apply (yields_entry request).mono
    rintro _ ⟨result, rfl⟩ y hBystander
    refine ⟨hBystander.settled, ?_⟩
    rintro l n rfl rfl
    exact absurd rfl hTouches

end Entry

end MsQuicH3.Lifecycle
