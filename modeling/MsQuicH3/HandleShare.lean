import MsQuicH3.Concurrency.Ownership
import MsQuicH3.LifecycleFootprint

/-! Who owns a tracked handle. For one handle, a share counts what a call has of it: the
right to take it, its guard and native handle in the forms they pass through, and its
references. Every operation needs something of the handle in hand and trades it. -/
namespace MsQuicH3.Lifecycle

open Concurrency

/-- What somebody has of one handle. `right` and `claim` are those of the request that is
to reserve and to take it. `guard` is a guard alone, `raw` the native handle with its guard
before they are put together, `fields` the two put together in declaration order, `bare` a
native handle whose guard is gone. `own` counts references while their holder has `sole`
access, `refs` those that are shared. `pen` is the access to a running connect attempt,
`struck` are contained panics. -/
@[ext] structure Share where
  right : Nat := 0
  claim : Nat := 0
  guard : Nat := 0
  raw : Nat := 0
  fields : Nat := 0
  bare : Nat := 0
  sole : Nat := 0
  own : Nat := 0
  refs : Nat := 0
  pen : Nat := 0
  struck : Nat := 0
  deriving DecidableEq, Repr

namespace Share

instance : Zero Share := ⟨{}⟩

instance : Add Share := ⟨fun x y => {
  right := x.right + y.right
  claim := x.claim + y.claim
  guard := x.guard + y.guard
  raw := x.raw + y.raw
  fields := x.fields + y.fields
  bare := x.bare + y.bare
  sole := x.sole + y.sole
  own := x.own + y.own
  refs := x.refs + y.refs
  pen := x.pen + y.pen
  struck := x.struck + y.struck }⟩

section Fields

variable (x y : Share)

@[simp] theorem add_right : (x + y).right = x.right + y.right := rfl
@[simp] theorem add_claim : (x + y).claim = x.claim + y.claim := rfl
@[simp] theorem add_guard : (x + y).guard = x.guard + y.guard := rfl
@[simp] theorem add_raw : (x + y).raw = x.raw + y.raw := rfl
@[simp] theorem add_fields : (x + y).fields = x.fields + y.fields := rfl
@[simp] theorem add_bare : (x + y).bare = x.bare + y.bare := rfl
@[simp] theorem add_sole : (x + y).sole = x.sole + y.sole := rfl
@[simp] theorem add_own : (x + y).own = x.own + y.own := rfl
@[simp] theorem add_refs : (x + y).refs = x.refs + y.refs := rfl
@[simp] theorem add_pen : (x + y).pen = x.pen + y.pen := rfl
@[simp] theorem add_struck : (x + y).struck = x.struck + y.struck := rfl

@[simp] theorem zero_right : (0 : Share).right = 0 := rfl
@[simp] theorem zero_claim : (0 : Share).claim = 0 := rfl
@[simp] theorem zero_guard : (0 : Share).guard = 0 := rfl
@[simp] theorem zero_raw : (0 : Share).raw = 0 := rfl
@[simp] theorem zero_fields : (0 : Share).fields = 0 := rfl
@[simp] theorem zero_bare : (0 : Share).bare = 0 := rfl
@[simp] theorem zero_sole : (0 : Share).sole = 0 := rfl
@[simp] theorem zero_own : (0 : Share).own = 0 := rfl
@[simp] theorem zero_refs : (0 : Share).refs = 0 := rfl
@[simp] theorem zero_pen : (0 : Share).pen = 0 := rfl
@[simp] theorem zero_struck : (0 : Share).struck = 0 := rfl

end Fields

instance : AddCommMonoid Share where
  add_assoc _ _ _ := by ext <;> simp <;> omega
  zero_add _ := by ext <;> simp
  add_zero _ := by ext <;> simp
  add_comm _ _ := by ext <;> simp <;> omega
  nsmul := nsmulRec

theorem add_eq (x y : Share) : x + y = {
    right := x.right + y.right
    claim := x.claim + y.claim
    guard := x.guard + y.guard
    raw := x.raw + y.raw
    fields := x.fields + y.fields
    bare := x.bare + y.bare
    sole := x.sole + y.sole
    own := x.own + y.own
    refs := x.refs + y.refs
    pen := x.pen + y.pen
    struck := x.struck + y.struck } := rfl

theorem empty_add (x : Share) : {} + x = x := zero_add x

/-- References of one's own come with sole access. -/
def fair : AddSubmonoid Share where
  carrier := { x | x.sole = 0 → x.own = 0 }
  zero_mem' _ := rfl
  add_mem' := by
    intro x y hx hy hSole
    simp only [Set.mem_ofPred_eq, add_sole, add_own] at *
    omega

@[simp] theorem mem_fair {x : Share} : x ∈ fair ↔ (x.sole = 0 → x.own = 0) := Iff.rfl

end Share

/-- The handle an operation is on. -/
def Op.subject : Op → Option Handle
  | .reserve h | .release h | .setConfiguration h | .fromRaw h | .setCallbackHandler h
  | .arcNew h | .arcClone h | .arcDrop h | .closeConnection h | .handOver h _ => some h
  | .sendConn l (some n) => some (.accepted l n)
  | .openListener l | .startListener l | .closeListener l => some (.listener l)
  | .openConnection n | .startConnection n | .setConnecting n _ => some (.client n)
  | _ => none

/-- What the future of a connect attempt takes along where it is suspended. -/
def Connecting.needs : Connecting → Share → Prop
  | .suspended .unpolled, x => 0 < x.claim ∧ 0 < x.guard
  | .suspended .waiting, x => 0 < x.sole ∧ x.own = 1 ∨ x.own = 0 ∧ 0 < x.refs
  | .done, _ => True
  | _, _ => False

/-- What an operation needs in hand of the handle it is on. Nothing is taken or put together
behind a panic. -/
def Op.needs : Op → Share → Prop
  | .reserve _, x => 0 < x.right
  | .release _, x => 0 < x.guard ∨ 0 < x.raw ∧ 0 < x.struck
  | .setConfiguration _, x => 0 < x.claim
  | .fromRaw _, x | .openListener _, x | .openConnection _, x =>
      0 < x.claim ∧ 0 < x.guard ∧ x.struck = 0
  | .setCallbackHandler _, x => 0 < x.raw
  | .arcNew _, x => 0 < x.raw ∧ 0 < x.sole ∧ x.struck = 0
  | .arcClone _, x | .arcDrop _, x => 0 < x.own ∨ 0 < x.refs
  | .startConnection _, x => 0 < x.own
  | .closeConnection _, x => 0 < x.fields ∨ 0 < x.bare
  | .startListener _, x | .closeListener _, x => 0 < x.fields
  | .handOver (.listener _) count, x => count = 1 ∧ 0 < x.fields
  | .handOver _ count, x => 0 < x.sole ∧ x.own = count ∨ x.own = 0 ∧ count ≤ x.refs
  | .sendConn _ _, x => 0 < x.sole ∧ x.own = 2
  | .setConnecting _ connecting, x => 0 < x.pen ∧ connecting.needs x
  | _, _ => True

/-- Take an offered or newly opened native handle. -/
def Share.take (x : Share) : Share :=
  { x with claim := x.claim - 1, guard := x.guard - 1, raw := x.raw + 1, sole := x.sole + 1 }

/-- Give away references, all of one's own or some that are shared. -/
def Share.give (x : Share) (count : Nat) : Share :=
  if 0 < x.own then { x with own := 0, sole := x.sole - 1 }
  else { x with refs := x.refs - count }

@[simp] theorem Share.give_raw (x : Share) (count : Nat) : (x.give count).raw = x.raw := by
  simp only [Share.give]
  split <;> rfl

@[simp] theorem Share.give_struck (x : Share) (count : Nat) : (x.give count).struck = x.struck := by
  simp only [Share.give]
  split <;> rfl

/-- What is left behind a future that is suspended. -/
def Connecting.leaves : Connecting → Share → Share
  | .suspended .unpolled, x => { x with claim := x.claim - 1, guard := x.guard - 1 }
  | .suspended .waiting, x => x.give 1
  | _, x => x

/-- What an operation leaves in hand of the handle it is on. -/
def Op.leaves : (op : Op) → op.Reply → Share → Share
  | .reserve _, _, x =>
      { x with right := x.right - 1, claim := x.claim + 1, guard := x.guard + 1 }
  | .release _, _, x =>
      if 0 < x.guard then { x with guard := x.guard - 1 }
      else { x with raw := x.raw - 1, bare := x.bare + 1 }
  | .fromRaw _, _, x | .openConnection _, .ok (), x => x.take
  | .openListener _, .ok (), x => { x.take with raw := x.raw, fields := x.fields + 1 }
  | .arcNew _, _, x => { x with raw := x.raw - 1, own := x.own + 1 }
  | .arcClone _, _, x =>
      if 0 < x.own then { x with own := x.own + 1 } else { x with refs := x.refs + 1 }
  | .arcDrop _, last, x =>
      if 0 < x.own then { x with own := x.own - 1, fields := x.fields + last.toNat }
      else { x with refs := x.refs - 1, fields := x.fields + last.toNat }
  | .closeConnection _, _, x =>
      if 0 < x.fields then { x with fields := x.fields - 1, guard := x.guard + 1 }
      else { x with bare := x.bare - 1 }
  | .closeListener _, _, x => { x with fields := x.fields - 1, guard := x.guard + 1 }
  | .handOver (.listener _) _, _, x => { x with fields := x.fields - 1 }
  | .handOver _ count, _, x => x.give count
  | .sendConn _ _, true, x => x.give 2
  | .setConnecting _ connecting, _, x => connecting.leaves { x with pen := x.pen - 1 }
  | _, _, x => x

/-- What an operation that is on no handle brings of one: a connection out of an accept
queue, or a panic. -/
def received (h : Handle) : (op : Op) → op.Reply → Share
  | .pollConn l, .ready (some (some n)) => if h = .accepted l n then { refs := 2 } else {}
  | .dropReceiver l, queue =>
      match h with
      | .accepted m n => if m = l then { refs := 2 * queue.count (some n) } else {}
      | _ => {}
  | .panicPoint _, true => { struck := 1 }
  | _, _ => {}

/-- The replies that what is in hand allows for: the drop of a reference cannot have been
the last one beside another, and is that of one's own last one. -/
def fitting (h : Handle) : (op : Op) → op.Reply → Share → Prop
  | .arcDrop own, last, x =>
      own = h → (last = true → x.own + x.refs = 1) ∧ (x.own = 1 → last = true)
  | _, _, _ => True

/-- The ownership of one handle. -/
def ownership (h : Handle) : Discipline signature Share where
  takes op x := Op.subject op = some h → Op.needs op x
  possible op reply x := fitting h op reply x
  keeps x op reply := if Op.subject op = some h then Op.leaves op reply x else x + received h op reply

section Rules

variable {h : Handle} {α : Type} {P : Share → α → Prop} {x : Share} {op : Op}
  {next : op.Reply → Code α}

/-- An operation on the handle. -/
theorem affords_on (hSubject : op.subject = some h) (hNeeds : op.needs x)
    (hNext : ∀ reply, fitting h op reply x →
      (next reply).Affords (ownership h) P (op.leaves reply x)) :
    Program.Affords (S := signature) (ownership h) P x (.call op next) := by
  refine ⟨fun _ => hNeeds, fun reply hReply => ?_⟩
  simp only [ownership, hSubject, ↓reduceIte]
  exact hNext reply hReply

/-- An operation that is not on the handle. -/
theorem affords_off (hSubject : op.subject ≠ some h)
    (hNext : ∀ reply, (next reply).Affords (ownership h) P (x + received h op reply)) :
    Program.Affords (S := signature) (ownership h) P x (.call op next) := by
  refine ⟨fun hOn => absurd hOn hSubject, fun reply _ => ?_⟩
  simp only [ownership, hSubject, ↓reduceIte]
  exact hNext reply

/-- An operation that has nothing to do with the handle. -/
theorem affords_past (hSubject : op.subject ≠ some h) (hReceived : ∀ reply, received h op reply = 0)
    (hNext : ∀ reply, (next reply).Affords (ownership h) P x) :
    Program.Affords (S := signature) (ownership h) P x (.call op next) := by
  apply affords_off hSubject
  intro reply
  rw [hReceived, add_zero]
  exact hNext reply

end Rules

section Drop

variable {h : Handle} {x : Share}

/-- The fields of a `ConnHandle` are dropped in their order. -/
theorem affords_close (hFields : 0 < x.fields) :
    (issue (.closeConnection h) >>= fun _ => issue (.release h)).Affords (ownership h)
      (fun y _ => y = { x with fields := x.fields - 1 }) x := by
  refine affords_on rfl (Or.inl hFields) fun _ _ => ?_
  simp only [Op.leaves, hFields, ↓reduceIte]
  refine affords_on rfl (Or.inl (Nat.succ_pos _)) fun _ _ => ?_
  simp [Op.leaves, Program.Affords]

/-- The drop of one's own last reference is the last one. -/
theorem affords_dropArc_own (hOwn : x.own = 1) :
    (dropArc h).Affords (ownership h) (fun y _ => y = { x with own := 0 }) x := by
  refine affords_on rfl (Or.inl (by omega)) fun last hFit => ?_
  obtain rfl : last = true := (hFit rfl).2 hOwn
  simp only [Op.leaves, hOwn, Nat.one_pos, ↓reduceIte]
  apply (affords_close (Nat.succ_pos _)).mono
  rintro y _ rfl
  simp

/-- A second reference of one's own remains. -/
theorem affords_dropArc_two (hOwn : x.own = 2) :
    (dropArc h).Affords (ownership h) (fun y _ => y = { x with own := 1 }) x := by
  refine affords_on rfl (Or.inl (by omega)) fun last hFit => ?_
  cases last with
  | true =>
      have hOne := (hFit rfl).1 rfl
      omega
  | false =>
      change Op.leaves (.arcDrop h) false x = _
      simp [Op.leaves, hOwn]

theorem affords_dropConnection (hOwn : x.own = 2) :
    (dropConnection h).Affords (ownership h) (fun y _ => y = { x with own := 0 }) x := by
  apply Program.Affords.bind
  apply (affords_dropArc_two hOwn).mono
  rintro y _ rfl
  apply Program.Affords.bind
  apply (affords_dropArc_own rfl).mono
  rintro z _ rfl
  rfl

/-- A shared reference may or may not have been the last one. -/
theorem affords_dropArc_refs (hOwn : x.own = 0) (hRefs : 0 < x.refs) :
    (dropArc h).Affords (ownership h) (fun y _ => y = { x with refs := x.refs - 1 }) x := by
  refine affords_on rfl (Or.inr hRefs) fun last _ => ?_
  cases last with
  | true =>
      simp only [Op.leaves, hOwn, Nat.lt_irrefl, ↓reduceIte]
      apply (affords_close (Nat.succ_pos _)).mono
      rintro y _ rfl
      simp
  | false =>
      change Op.leaves (.arcDrop h) false x = _
      simp [Op.leaves, hOwn]

theorem affords_dropArcs (count : Nat) (hOwn : x.own = 0) (hRefs : count ≤ x.refs) :
    (dropArcs h count).Affords (ownership h) (fun y _ => y = { x with refs := x.refs - count }) x := by
  induction count generalizing x with
  | zero => rfl
  | succ count ih =>
      apply Program.Affords.bind
      apply (affords_dropArc_refs hOwn (by omega)).mono
      rintro y _ rfl
      apply (ih (x := { x with refs := x.refs - 1 }) hOwn (by simp only; omega)).mono
      rintro z _ rfl
      simp only [Share.mk.injEq, true_and, and_true]
      omega

/-- The drop of another handle. -/
theorem affords_dropArcs_foreign {own : Handle} (hOther : own ≠ h) (count : Nat) :
    (dropArcs own count).Affords (ownership h) (fun y _ => y = x) x := by
  have hDropping : Dropping (P := (ownership h).Keeps (· = x)) own := by
    refine ⟨?_, ?_, ?_⟩
    all_goals
      rintro y rfl
      have hSubject : some own ≠ some h := fun hSame => hOther (Option.some.inj hSame)
      exact ⟨fun hOn => absurd hOn hSubject, fun _ => (if_neg hSubject).trans (add_zero y)⟩
  apply Program.affords_of_uses (uses_dropArcs hDropping count) rfl
  exact (Program.yields_true _).mono fun _ _ y hSame => hSame

end Drop

section Bystander

variable {h : Handle} {request : Request} {op : Op}

theorem touches_of_permits (hPermits : permits request op) (hSubject : op.subject = some h) :
    request.touches h := by
  have hDrops : request.drops h → request.touches h := by
    cases request with
    | listener l event => cases event <;> exact id
    | _ => first | exact id | exact False.elim
  have hReserves : request.reserves h → request.touches h := by
    cases request with
    | listener l event => cases event <;> exact id
    | withConfig l => exact .inl
    | _ => first | exact id | exact False.elim
  cases op with
  | reserve own => cases hSubject; exact hReserves hPermits
  | release own => cases hSubject; exact hDrops hPermits
  | arcNew own => cases hSubject; exact hDrops hPermits
  | arcDrop own => cases hSubject; exact hDrops hPermits
  | closeConnection own => cases hSubject; exact hDrops hPermits
  | arcClone own =>
      cases hSubject
      rcases hPermits with hOwn | ⟨k, rfl⟩
      · exact hDrops hOwn
      · rfl
  | setConfiguration own => cases hSubject; obtain ⟨l, n, rfl, rfl⟩ := hPermits; rfl
  | fromRaw own => cases hSubject; obtain ⟨l, n, rfl, rfl⟩ := hPermits; rfl
  | setCallbackHandler own => cases hSubject; obtain ⟨l, n, rfl, rfl⟩ := hPermits; rfl
  | handOver own count => cases hSubject; exact hPermits.1
  | sendConn l message =>
      cases message with
      | none => cases hSubject
      | some n => cases hSubject; obtain rfl := hPermits; rfl
  | openListener l => cases hSubject; obtain rfl := hPermits; exact .inl rfl
  | startListener l => cases hSubject; obtain rfl := hPermits; exact .inl rfl
  | closeListener l => cases hSubject; rcases hPermits with rfl | rfl <;> exact .inl rfl
  | openConnection n => cases hSubject; obtain ⟨point, rfl⟩ := hPermits; rfl
  | startConnection n => cases hSubject; obtain ⟨point, rfl⟩ := hPermits; rfl
  | setConnecting n connecting =>
      cases hSubject
      obtain ⟨-, rfl | ⟨point, rfl | rfl⟩⟩ := hPermits <;> rfl
  | _ => cases hSubject

/-- A share without anything of the handle. -/
def Share.Bystander (x : Share) : Prop := x = { struck := x.struck }

/-- A request that has nothing to do with a handle gets nothing of it. -/
theorem keeps_bystander (hForeign : ¬request.touches h) (hPermits : permits request op) :
    (ownership h).Keeps Share.Bystander op := by
  intro x hBystander
  have hSubject : op.subject ≠ some h := fun hOn => hForeign (touches_of_permits hPermits hOn)
  refine ⟨fun hOn => absurd hOn hSubject, fun reply => ?_⟩
  have hNone : received h op reply = {} → (x + received h op reply).Bystander := by
    intro hEmpty
    rw [hEmpty]
    exact hBystander
  simp only [ownership, hSubject, ↓reduceIte]
  cases op with
  | panicPoint k =>
      cases reply with
      | false => exact hNone rfl
      | true =>
          rw [Share.Bystander, hBystander]
          rfl
  | pollConn l =>
      obtain rfl := hPermits
      rcases reply with - | (- | (- | n))
      · exact hNone rfl
      · exact hNone rfl
      · exact hNone rfl
      · exact hNone (if_neg fun hOwn => hForeign ⟨n, hOwn⟩)
  | dropReceiver l =>
      cases h with
      | client n => exact hNone rfl
      | listener m => exact hNone rfl
      | accepted m n =>
          refine hNone (if_neg ?_)
          rintro rfl
          rcases hPermits with rfl | rfl <;> exact hForeign (.inr ⟨n, rfl⟩)
  | _ => exact hNone rfl

end Bystander

end MsQuicH3.Lifecycle
