import Mathlib.Logic.Function.Basic

/-! Straight-line code of one thread as a tree of atomic operations. An operation
is data, its reply is supplied by whoever executes it, and everything between
two operations is private to the thread and therefore takes no step. -/
namespace Concurrency

/-- The atomic operations a thread may issue and the reply each one expects. -/
structure Signature where
  Op : Type
  Reply : Op → Type

inductive Program (S : Signature) (α : Type) where
  | done (result : α)
  | call (op : S.Op) (next : S.Reply op → Program S α)

namespace Program

variable {S : Signature} {α β γ : Type}

protected def bind : Program S α → (α → Program S β) → Program S β
  | .done result, f => f result
  | .call op next, f => .call op (fun reply => (next reply).bind f)

instance : Monad (Program S) where
  pure := .done
  bind := Program.bind

/-- Issue one operation and return its reply. -/
def perform (op : S.Op) : Program S (S.Reply op) := .call op .done

def when (condition : Bool) (program : Program S Unit) : Program S Unit :=
  if condition then program else .done ()

@[simp] theorem pure_eq (result : α) : (pure result : Program S α) = .done result := rfl

@[simp] theorem done_bind (result : α) (f : α → Program S β) :
    (Program.done result >>= f) = f result := rfl

@[simp] theorem call_bind (op : S.Op) (next : S.Reply op → Program S α) (f : α → Program S β) :
    (Program.call op next >>= f) = .call op (fun reply => next reply >>= f) := rfl

@[simp] theorem perform_bind (op : S.Op) (f : S.Reply op → Program S β) :
    (perform op >>= f) = .call op f := rfl

theorem bind_done (program : Program S α) : (program >>= .done) = program := by
  induction program with
  | done result => rfl
  | call op next ih =>
      rw [call_bind]
      congr 1
      funext reply
      exact ih reply

theorem bind_assoc (program : Program S α) (f : α → Program S β) (g : β → Program S γ) :
    ((program >>= f) >>= g) = (program >>= fun result => f result >>= g) := by
  induction program with
  | done result => rfl
  | call op next ih =>
      simp only [call_bind]
      congr 1
      funext reply
      exact ih reply

/-- Every operation the program can issue, whatever the replies, satisfies `P`. -/
def Uses (P : S.Op → Prop) : Program S α → Prop
  | .done _ => True
  | .call op next => P op ∧ ∀ reply, (next reply).Uses P

@[simp] theorem uses_done (P : S.Op → Prop) (result : α) :
    (Program.done result : Program S α).Uses P := trivial

@[simp] theorem uses_call (P : S.Op → Prop) (op : S.Op) (next : S.Reply op → Program S α) :
    (Program.call op next).Uses P ↔ P op ∧ ∀ reply, (next reply).Uses P := Iff.rfl

theorem Uses.bind {P : S.Op → Prop} {program : Program S α} {f : α → Program S β}
    (h : program.Uses P) (hNext : ∀ result, (f result).Uses P) : (program >>= f).Uses P := by
  induction program with
  | done result => exact hNext result
  | call op next ih => exact ⟨h.1, fun reply => ih reply (h.2 reply)⟩

theorem Uses.mono {P Q : S.Op → Prop} {program : Program S α} (h : program.Uses P)
    (hPQ : ∀ op, P op → Q op) : program.Uses Q := by
  induction program with
  | done result => trivial
  | call op next ih => exact ⟨hPQ op h.1, fun reply => ih reply (h.2 reply)⟩

theorem Uses.and {P Q : S.Op → Prop} {program : Program S α} (hP : program.Uses P)
    (hQ : program.Uses Q) : program.Uses fun op => P op ∧ Q op := by
  induction program with
  | done result => trivial
  | call op next ih => exact ⟨⟨hP.1, hQ.1⟩, fun reply => ih reply (hP.2 reply) (hQ.2 reply)⟩

theorem Uses.when {P : S.Op → Prop} {program : Program S Unit} (h : program.Uses P)
    (condition : Bool) : (Program.when condition program).Uses P := by
  cases condition with
  | true => exact h
  | false => trivial

/-- Whatever the replies, the program returns a result in `P`. -/
def Yields (P : α → Prop) : Program S α → Prop
  | .done result => P result
  | .call _ next => ∀ reply, (next reply).Yields P

theorem Yields.bind {P : α → Prop} {Q : β → Prop} {program : Program S α}
    {f : α → Program S β} (h : program.Yields P) (hNext : ∀ result, P result → (f result).Yields Q) :
    (program >>= f).Yields Q := by
  induction program with
  | done result => exact hNext result h
  | call op next ih => exact fun reply => ih reply (h reply)

theorem Yields.mono {P Q : α → Prop} {program : Program S α} (h : program.Yields P)
    (hPQ : ∀ result, P result → Q result) : program.Yields Q := by
  induction program with
  | done result => exact hPQ result h
  | call op next ih => exact fun reply => ih reply (h reply)

theorem yields_true (program : Program S α) : program.Yields fun _ => True := by
  induction program with
  | done result => trivial
  | call op next ih => exact ih

/-- Once an operation reports a value, the program returns a result that honors it. -/
def Honors (reports : (op : S.Op) → S.Reply op → Option γ) (honor : γ → α → Prop) :
    Program S α → Prop
  | .done _ => True
  | .call op next => ∀ reply, (next reply).Honors reports honor ∧
      ∀ value, reports op reply = some value → (next reply).Yields (honor value)

section Honors

variable {reports : (op : S.Op) → S.Reply op → Option γ} {honor : γ → α → Prop}

theorem honors_of_uses {program : Program S α}
    (h : program.Uses fun op => ∀ reply, reports op reply = none) :
    program.Honors reports honor := by
  induction program with
  | done result => trivial
  | call op next ih =>
      refine fun reply => ⟨ih reply (h.2 reply), fun value hValue => ?_⟩
      rw [h.1 reply] at hValue
      cases hValue

theorem Honors.bind {honorNext : γ → β → Prop} {program : Program S α} {f : α → Program S β}
    (h : program.Honors reports honor) (hNext : ∀ result, (f result).Honors reports honorNext)
    (hKeep : ∀ value result, honor value result → (f result).Yields (honorNext value)) :
    (program >>= f).Honors reports honorNext := by
  induction program with
  | done result => exact hNext result
  | call op next ih =>
      exact fun reply => ⟨ih reply (h reply).1, fun value hValue =>
        ((h reply).2 value hValue).bind (hKeep value)⟩

end Honors

/-- Run `body` under a handler that may take over before any operation and before
the return. `strikes k` decides whether it does so after `k` operations; what the
body did up to that point stays done. -/
def guarded (strikes : Nat → Program S Bool) (recover : Program S α) :
    Nat → Program S α → Program S α
  | k, .done result => strikes k >>= fun struck => if struck then recover else .done result
  | k, .call op next => strikes k >>= fun struck =>
      if struck then recover
      else .call op (fun reply => guarded strikes recover (k + 1) (next reply))

theorem Uses.guarded {P : S.Op → Prop} {strikes : Nat → Program S Bool}
    {recover body : Program S α} (hStrikes : ∀ k, (strikes k).Uses P)
    (hRecover : recover.Uses P) (hBody : body.Uses P) (k : Nat) :
    (guarded strikes recover k body).Uses P := by
  induction body generalizing k with
  | done result =>
      refine (hStrikes k).bind fun struck => ?_
      split
      · exact hRecover
      · trivial
  | call op next ih =>
      refine (hStrikes k).bind fun struck => ?_
      split
      · exact hRecover
      · exact ⟨hBody.1, fun reply => ih reply (hBody.2 reply) (k + 1)⟩

/-- As `guarded`, for a handler that takes over with what the body then owns; `keeps` says
what an operation leaves of that. -/
def guardedWith {σ : Type} (keeps : σ → (op : S.Op) → S.Reply op → σ)
    (strikes : Nat → Program S Bool) (recover : σ → Program S α) :
    Nat → σ → Program S α → Program S α
  | k, owned, .done result => strikes k >>= fun struck =>
      if struck then recover owned else .done result
  | k, owned, .call op next => strikes k >>= fun struck =>
      if struck then recover owned
      else .call op (fun reply =>
        guardedWith keeps strikes recover (k + 1) (keeps owned op reply) (next reply))

/-- A handler that owns nothing itself may be followed with any account of the body. -/
theorem guarded_eq_guardedWith {σ : Type} (keeps : σ → (op : S.Op) → S.Reply op → σ)
    (strikes : Nat → Program S Bool) (recover body : Program S α) (k : Nat) (owned : σ) :
    guarded strikes recover k body =
      guardedWith keeps strikes (fun _ => recover) k owned body := by
  induction body generalizing k owned with
  | done result => rfl
  | call op next ih =>
      rw [guarded, guardedWith]
      congr 1
      funext struck
      cases struck with
      | true => rfl
      | false =>
          simp only [Bool.false_eq_true, ↓reduceIte]
          congr 1
          funext reply
          exact ih reply (k + 1) _

/-- A handler that may take over with what fits the account of the body. -/
theorem Uses.guardedWith {σ : Type} {keeps : σ → (op : S.Op) → S.Reply op → σ} {P : S.Op → Prop}
    (fits : σ → Prop) {strikes : Nat → Program S Bool} {recover : σ → Program S α}
    {body : Program S α} (hStrikes : ∀ k, (strikes k).Uses P)
    (hRecover : ∀ owned, fits owned → (recover owned).Uses P)
    (hKeeps : ∀ owned op reply, fits owned → P op → fits (keeps owned op reply))
    (hBody : body.Uses P) (k : Nat) {owned : σ} (hFits : fits owned) :
    (guardedWith keeps strikes recover k owned body).Uses P := by
  induction body generalizing k owned with
  | done result =>
      apply (hStrikes k).bind
      intro struck
      cases struck with
      | true => exact hRecover owned hFits
      | false => trivial
  | call op next ih =>
      obtain ⟨hOp, hNext⟩ := hBody
      apply (hStrikes k).bind
      intro struck
      cases struck with
      | true => exact hRecover owned hFits
      | false => exact ⟨hOp, fun reply => ih reply (hNext reply) (k + 1) (hKeeps _ _ _ hFits hOp)⟩

/-- Once an operation strikes, only operations in `Q` follow. -/
def Hushes (strikes : (op : S.Op) → S.Reply op → Prop) (Q : S.Op → Prop) : Program S α → Prop
  | .done _ => True
  | .call op next => ∀ reply, (next reply).Hushes strikes Q ∧
      (strikes op reply → (next reply).Uses Q)

section Hushes

variable {strikes : (op : S.Op) → S.Reply op → Prop} {Q : S.Op → Prop}

theorem hushes_of_uses {program : Program S α}
    (h : program.Uses fun op => ∀ reply, ¬strikes op reply) : program.Hushes strikes Q := by
  induction program with
  | done result => trivial
  | call op next ih => exact fun reply => ⟨ih reply (h.2 reply), fun hStrike => absurd hStrike (h.1 reply)⟩

theorem Hushes.bind {program : Program S α} {f : α → Program S β} (h : program.Hushes strikes Q)
    (hNext : ∀ result, (f result).Hushes strikes Q) (hUses : ∀ result, (f result).Uses Q) :
    (program >>= f).Hushes strikes Q := by
  induction program with
  | done result => exact hNext result
  | call op next ih =>
      exact fun reply => ⟨ih reply (h reply).1, fun hStrike => ((h reply).2 hStrike).bind hUses⟩

theorem Hushes.guarded {ask : Nat → Program S Bool} {recover body : Program S α}
    (hAsk : ∀ k (next : Bool → Program S α), (next true).Uses Q →
      (∀ struck, (next struck).Hushes strikes Q) → (ask k >>= next).Hushes strikes Q)
    (hQuiet : recover.Uses Q) (hRecover : recover.Hushes strikes Q)
    (hBody : body.Uses fun op => ∀ reply, ¬strikes op reply) (k : Nat) :
    (guarded ask recover k body).Hushes strikes Q := by
  induction body generalizing k with
  | done result =>
      refine hAsk k _ hQuiet fun struck => ?_
      cases struck with
      | true => exact hRecover
      | false => trivial
  | call op next ih =>
      refine hAsk k _ hQuiet fun struck => ?_
      cases struck with
      | true => exact hRecover
      | false =>
          exact fun reply => ⟨ih reply (hBody.2 reply) (k + 1),
            fun hStrike => absurd hStrike (hBody.1 reply)⟩

end Hushes

/-- An operation in `after` is issued only once one in `before` was. -/
def Preceded (before after : S.Op → Prop) : Program S α → Prop
  | .done _ => True
  | .call op next => ¬after op ∧ (before op ∨ ∀ reply, (next reply).Preceded before after)

section Preceded

variable {before after : S.Op → Prop}

theorem preceded_of_uses {program : Program S α} (h : program.Uses fun op => ¬after op) :
    program.Preceded before after := by
  induction program with
  | done result => trivial
  | call op next ih => exact ⟨h.1, .inr fun reply => ih reply (h.2 reply)⟩

theorem Preceded.bind {program : Program S α} {f : α → Program S β}
    (h : program.Preceded before after) (hNext : ∀ result, (f result).Preceded before after) :
    (program >>= f).Preceded before after := by
  induction program with
  | done result => exact hNext result
  | call op next ih =>
      obtain ⟨hOp, hHere | hLater⟩ := h
      · exact ⟨hOp, .inl hHere⟩
      · exact ⟨hOp, .inr fun reply => ih reply (hLater reply)⟩

theorem Preceded.guarded {ask : Nat → Program S Bool} {recover body : Program S α}
    (hAsk : ∀ k, (ask k).Preceded before after) (hRecover : recover.Preceded before after)
    (hBody : body.Preceded before after) (k : Nat) :
    (guarded ask recover k body).Preceded before after := by
  induction body generalizing k with
  | done result =>
      apply (hAsk k).bind
      intro struck
      cases struck with
      | true => exact hRecover
      | false => trivial
  | call op next ih =>
      apply (hAsk k).bind
      intro struck
      obtain ⟨hOp, hHere | hLater⟩ := hBody
      · cases struck with
        | true => exact hRecover
        | false => exact ⟨hOp, .inl hHere⟩
      · cases struck with
        | true => exact hRecover
        | false => exact ⟨hOp, .inr fun reply => ih reply (hLater reply) (k + 1)⟩

theorem Preceded.guardedWith {σ : Type} {keeps : σ → (op : S.Op) → S.Reply op → σ}
    {ask : Nat → Program S Bool} {recover : σ → Program S α} {body : Program S α}
    (hAsk : ∀ k, (ask k).Preceded before after)
    (hRecover : ∀ owned, (recover owned).Preceded before after)
    (hBody : body.Preceded before after) (k : Nat) (owned : σ) :
    (guardedWith keeps ask recover k owned body).Preceded before after := by
  induction body generalizing k owned with
  | done result =>
      apply (hAsk k).bind
      intro struck
      cases struck with
      | true => exact hRecover owned
      | false => trivial
  | call op next ih =>
      obtain ⟨hOp, hRest⟩ := hBody
      apply (hAsk k).bind
      intro struck
      cases struck with
      | true => exact hRecover owned
      | false =>
          refine ⟨hOp, hRest.imp_right fun hLater reply => ?_⟩
          exact ih reply (hLater reply) (k + 1) _

end Preceded

/-- Whatever the replies, at most `n` of the operations issued are counted. -/
def AtMost (counted : S.Op → Bool) : Nat → Program S α → Prop
  | _, .done _ => True
  | n, .call op next => (counted op = true → 0 < n) ∧
      ∀ reply, (next reply).AtMost counted (n - (counted op).toNat)

section AtMost

variable {counted : S.Op → Bool}

theorem atMost_of_uses {program : Program S α} (h : program.Uses fun op => counted op = false)
    (n : Nat) : program.AtMost counted n := by
  induction program generalizing n with
  | done result => trivial
  | call op next ih =>
      obtain ⟨hOp, hNext⟩ := h
      refine ⟨fun hCounted => ?_, fun reply => ih reply (hNext reply) _⟩
      rw [hOp] at hCounted
      cases hCounted

theorem AtMost.bind {n : Nat} {program : Program S α} {f : α → Program S β}
    (h : program.AtMost counted n) (hNext : ∀ result, (f result).Uses fun op => counted op = false) :
    (program >>= f).AtMost counted n := by
  induction program generalizing n with
  | done result => exact atMost_of_uses (hNext result) n
  | call op next ih => exact ⟨h.1, fun reply => ih reply (h.2 reply)⟩

theorem AtMost.of_uses_bind {n : Nat} {program : Program S α} {f : α → Program S β}
    (h : program.Uses fun op => counted op = false) (hNext : ∀ result, (f result).AtMost counted n) :
    (program >>= f).AtMost counted n := by
  induction program with
  | done result => exact hNext result
  | call op next ih =>
      obtain ⟨hOp, hUses⟩ := h
      refine ⟨fun hCounted => ?_, fun reply => ?_⟩
      · rw [hOp] at hCounted
        cases hCounted
      · rw [hOp]
        exact ih reply (hUses reply)

/-- A takeover only cuts the counted operations short. -/
theorem AtMost.guarded {ask : Nat → Program S Bool} {recover body : Program S α} {n : Nat}
    (hAsk : ∀ k, (ask k).Uses fun op => counted op = false)
    (hRecover : recover.Uses fun op => counted op = false) (h : body.AtMost counted n) (k : Nat) :
    (guarded ask recover k body).AtMost counted n := by
  induction body generalizing k n with
  | done result =>
      apply AtMost.of_uses_bind (hAsk k)
      intro struck
      cases struck with
      | true => exact atMost_of_uses hRecover n
      | false => trivial
  | call op next ih =>
      apply AtMost.of_uses_bind (hAsk k)
      intro struck
      cases struck with
      | true => exact atMost_of_uses hRecover n
      | false => exact ⟨h.1, fun reply => ih reply (h.2 reply) (k + 1)⟩

end AtMost

end Program
end Concurrency
