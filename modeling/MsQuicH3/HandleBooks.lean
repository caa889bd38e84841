import MsQuicH3.HandleCode

/-! The books of one handle. The total of all shares is tied to the history of the handle
and to the count of its references; an operation that has what it needs keeps them, whatever
the others have. -/
namespace MsQuicH3.Lifecycle

open Concurrency

/-- What can become of a handle. `built` is where the native handle and its guard are put
together, from where on they are dropped in their order. -/
inductive Mark where
  | reserved
  | acquired
  | built
  | closed
  | released
  deriving DecidableEq, Repr

def Op.marks : (op : Op) → op.Reply → List Mark
  | .reserve _, _ => [.reserved]
  | .fromRaw _, _ | .openConnection _, .ok () => [.acquired]
  | .openListener _, .ok () => [.acquired, .built]
  | .arcNew _, _ => [.built]
  | .closeConnection _, _ | .closeListener _, _ => [.closed]
  | .release _, _ => [.released]
  | _, _ => []

/-- The books of a handle: its history, the count of its references, whether it was
introduced and whether its attempt is running, and the total of all shares. -/
structure Books (past : List Mark) (arcs introduced running : Nat) (x : Share) : Prop where
  reserved : x.right + past.count .reserved ≤ introduced
  acquired : x.claim + past.count .acquired ≤ past.count .reserved
  alone : x.guard + past.count .acquired ≤ past.count .reserved + past.count .built
  built : x.raw + x.bare + past.count .built ≤ past.count .acquired
  joined : x.fields + min 1 arcs ≤ past.count .built
  sole : x.sole ≤ past.count .acquired
  shared : 0 < x.sole → x.refs = 0
  references : arcs = x.own + x.refs
  guard : x.guard + x.raw + x.fields + min 1 arcs + past.count .released = past.count .reserved
  native : x.raw + x.fields + x.bare + min 1 arcs + past.count .closed = past.count .acquired
  pen : x.pen = running

/-- What others have, with what an operation on a handle passes on to the application, an
accept queue or a future. -/
def Op.passes : (op : Op) → op.Reply → Share → Share
  | .handOver (.listener _) _, _, x => { fields := 1 } + x
  | .handOver _ count, _, x => { refs := count } + x
  | .sendConn _ _, true, x => { refs := 2 } + x
  | .setConnecting _ (.suspended .unpolled), _, x => { claim := 1, guard := 1 } + x
  | .setConnecting _ (.suspended .waiting), _, x => { refs := 1 } + x
  | _, _, x => x

/-- The references to a handle after an operation on it. -/
def Op.counts : Op → Nat → Nat
  | .arcNew _, _ => 1
  | .arcClone _, arcs => arcs + 1
  | .arcDrop _, arcs => arcs - 1
  | _, arcs => arcs

/-- Whether its attempt is running after an operation on it. -/
def Op.runs : Op → Nat → Nat
  | .setConnecting _ _, _ => 0
  | _, running => running

/-- The drop of a reference says whether it was the last one. -/
def Op.counted : (op : Op) → op.Reply → Nat → Prop
  | .arcDrop _, last, arcs => last = (arcs == 1)
  | _, _, _ => True

section Trade

variable {past : List Mark} {arcs introduced running : Nat} {held rest : Share}
  (hBooks : Books past arcs introduced running (held + rest))

include hBooks

theorem Books.reserve (hOnce : introduced ≤ 1) (hRight : 0 < held.right) :
    Books (past ++ [.reserved]) arcs introduced running
      ({ held with right := held.right - 1, claim := held.claim + 1, guard := held.guard + 1 } + rest) := by
  obtain ⟨hReserved, hAcquired, hAlone, hBuilt, hJoined, hSole, hShared, hCount, hGuard, hNative,
    hPen⟩ := hBooks
  simp only [Share.add_eq] at *
  constructor <;> simp <;> omega

theorem Books.take (hOnce : introduced ≤ 1) (hClaim : 0 < held.claim) (hGuard : 0 < held.guard) :
    Books (past ++ [.acquired]) arcs introduced running (held.take + rest) := by
  obtain ⟨hReserved, hAcquired, hAlone, hBuilt, hJoined, hSole, hShared, hCount, hGuards, hNative,
    hPen⟩ := hBooks
  simp only [Share.add_eq, Share.take] at *
  constructor <;> simp <;> omega

/-- A listener is put together at once. -/
theorem Books.takeBuilt (hOnce : introduced ≤ 1) (hClaim : 0 < held.claim) (hGuard : 0 < held.guard) :
    Books (past ++ [.acquired, .built]) arcs introduced running
      ({ held.take with raw := held.raw, fields := held.fields + 1 } + rest) := by
  obtain ⟨hReserved, hAcquired, hAlone, hBuilt, hJoined, hSole, hShared, hCount, hGuards, hNative,
    hPen⟩ := hBooks
  simp only [Share.add_eq, Share.take] at *
  constructor <;> simp <;> omega

theorem Books.build (hOnce : introduced ≤ 1) (hRaw : 0 < held.raw) (hSole : 0 < held.sole) :
    Books (past ++ [.built]) 1 introduced running
      ({ held with raw := held.raw - 1, own := held.own + 1 } + rest) := by
  obtain ⟨hReserved, hAcquired, hAlone, hBuilt, hJoined, hSoles, hShared, hCount, hGuard, hNative,
    hPen⟩ := hBooks
  simp only [Share.add_eq] at *
  constructor <;> simp <;> omega

/-- A guard that is released alone leaves nothing open. -/
theorem Books.release (hGuard : 0 < held.guard) :
    Books (past ++ [.released]) arcs introduced running
      ({ held with guard := held.guard - 1 } + rest) := by
  obtain ⟨hReserved, hAcquired, hAlone, hBuilt, hJoined, hSole, hShared, hCount, hGuards, hNative,
    hPen⟩ := hBooks
  simp only [Share.add_eq] at *
  constructor <;> simp <;> omega

/-- A guard that goes before its native handle. -/
theorem Books.strip (hRaw : 0 < held.raw) :
    Books (past ++ [.released]) arcs introduced running
      ({ held with raw := held.raw - 1, bare := held.bare + 1 } + rest) := by
  obtain ⟨hReserved, hAcquired, hAlone, hBuilt, hJoined, hSole, hShared, hCount, hGuard, hNative,
    hPen⟩ := hBooks
  simp only [Share.add_eq] at *
  constructor <;> simp <;> omega

theorem Books.close (hOnce : introduced ≤ 1) (hFields : 0 < held.fields) :
    Books (past ++ [.closed]) arcs introduced running
      ({ held with fields := held.fields - 1, guard := held.guard + 1 } + rest) := by
  obtain ⟨hReserved, hAcquired, hAlone, hBuilt, hJoined, hSole, hShared, hCount, hGuard, hNative,
    hPen⟩ := hBooks
  simp only [Share.add_eq] at *
  constructor <;> simp <;> omega

theorem Books.closeBare (hBare : 0 < held.bare) :
    Books (past ++ [.closed]) arcs introduced running ({ held with bare := held.bare - 1 } + rest) := by
  obtain ⟨hReserved, hAcquired, hAlone, hBuilt, hJoined, hSole, hShared, hCount, hGuard, hNative,
    hPen⟩ := hBooks
  simp only [Share.add_eq] at *
  constructor <;> simp <;> omega

theorem Books.clone (h : 0 < held.own ∨ 0 < held.refs) :
    Books past (arcs + 1) introduced running
      ((if 0 < held.own then { held with own := held.own + 1 }
        else { held with refs := held.refs + 1 }) + rest) := by
  obtain ⟨hReserved, hAcquired, hAlone, hBuilt, hJoined, hSole, hShared, hCount, hGuard, hNative,
    hPen⟩ := hBooks
  simp only [Share.add_eq] at *
  split <;> constructor <;> simp only <;> omega

/-- Whoever drops a last reference had all of them. -/
theorem Books.drop (hOnce : introduced ≤ 1) (hHeld : held ∈ Share.fair) (hRest : rest ∈ Share.fair)
    (h : 0 < held.own ∨ 0 < held.refs) {last : Bool} (hLast : last = (arcs == 1)) :
    ((last = true → held.own + held.refs = 1) ∧ (held.own = 1 → last = true)) ∧
      Books past (arcs - 1) introduced running
        ((if 0 < held.own then { held with own := held.own - 1, fields := held.fields + last.toNat }
          else { held with refs := held.refs - 1, fields := held.fields + last.toNat }) + rest) := by
  rw [Share.mem_fair] at hHeld hRest
  obtain ⟨hReserved, hAcquired, hAlone, hBuilt, hJoined, hSole, hShared, hCount, hGuard, hNative,
    hPen⟩ := hBooks
  simp only [Share.add_eq] at *
  have hNumber : last.toNat + min 1 (arcs - 1) = 1 := by
    rw [hLast]
    by_cases hOne : arcs = 1
    · simp [hOne]
    · rw [beq_false_of_ne hOne, Bool.toNat_false]
      omega
  refine ⟨⟨fun hTrue => ?_, fun hOwn => ?_⟩, ?_⟩
  · have hOne : arcs = 1 := by simpa [hTrue] using hLast
    omega
  · rw [hLast, beq_iff_eq]
    omega
  · split <;> constructor <;> simp only <;> omega

/-- References that are passed on are shared from there on. -/
theorem Books.give {count : Nat} (hOnce : introduced ≤ 1)
    (h : 0 < held.sole ∧ held.own = count ∨ held.own = 0 ∧ count ≤ held.refs) :
    Books past arcs introduced running (held.give count + ({ refs := count } + rest)) := by
  obtain ⟨hReserved, hAcquired, hAlone, hBuilt, hJoined, hSole, hShared, hReferences, hGuard, hNative,
    hPen⟩ := hBooks
  simp only [Share.add_eq, Share.give] at *
  split <;> constructor <;> simp only <;> omega

theorem Books.giveFields (hFields : 0 < held.fields) :
    Books past arcs introduced running
      ({ held with fields := held.fields - 1 } + ({ fields := 1 } + rest)) := by
  obtain ⟨hReserved, hAcquired, hAlone, hBuilt, hJoined, hSole, hShared, hReferences, hGuard, hNative,
    hPen⟩ := hBooks
  simp only [Share.add_eq] at *
  constructor <;> simp only <;> omega

theorem Books.giveGuard (hClaim : 0 < held.claim) (hGuard : 0 < held.guard) :
    Books past arcs introduced running ({ held with claim := held.claim - 1, guard := held.guard - 1 } +
      ({ claim := 1, guard := 1 } + rest)) := by
  obtain ⟨hReserved, hAcquired, hAlone, hBuilt, hJoined, hSole, hShared, hReferences, hGuards, hNative,
    hPen⟩ := hBooks
  simp only [Share.add_eq] at *
  constructor <;> simp only <;> omega

theorem Books.stop (hRunning : running ≤ 1) (hPen : 0 < held.pen) :
    Books past arcs introduced 0 ({ held with pen := held.pen - 1 } + rest) := by
  obtain ⟨hReserved, hAcquired, hAlone, hBuilt, hJoined, hSole, hShared, hReferences, hGuard, hNative,
    hPens⟩ := hBooks
  simp only [Share.add_eq] at *
  constructor <;> simp only <;> omega

end Trade

section Trade

variable {past : List Mark} {arcs introduced running : Nat} {held rest : Share} {h : Handle} {op : Op}

/-- An operation that has what it needs keeps the books, whatever the others have. -/
theorem Books.trade {reply : op.Reply} (hBooks : Books past arcs introduced running (held + rest))
    (hSubject : op.subject = some h) (hOnce : introduced ≤ 1) (hRunning : running ≤ 1)
    (hHeld : held ∈ Share.fair) (hRest : rest ∈ Share.fair) (hNeeds : op.needs held)
    (hCounted : op.counted reply arcs) :
    fitting h op reply held ∧ Books (past ++ op.marks reply) (op.counts arcs) introduced
      (op.runs running) (op.leaves reply held + op.passes reply rest) := by
  have hQuiet : ∀ {arcs running x}, Books past arcs introduced running x →
      Books (past ++ []) arcs introduced running x := by
    intro arcs running x hAfter
    rw [List.append_nil]
    exact hAfter
  cases op with
  | reserve own => exact ⟨trivial, hBooks.reserve hOnce hNeeds⟩
  | release own =>
      refine ⟨trivial, ?_⟩
      simp only [Op.leaves]
      split
      next hGuard => exact hBooks.release hGuard
      next hGuard => exact hBooks.strip (hNeeds.resolve_left hGuard).1
  | setConfiguration own => exact ⟨trivial, hQuiet hBooks⟩
  | fromRaw own => exact ⟨trivial, hBooks.take hOnce hNeeds.1 hNeeds.2.1⟩
  | setCallbackHandler own => exact ⟨trivial, hQuiet hBooks⟩
  | arcNew own => exact ⟨trivial, hBooks.build hOnce hNeeds.1 hNeeds.2.1⟩
  | arcClone own => exact ⟨trivial, hQuiet (hBooks.clone hNeeds)⟩
  | arcDrop own =>
      obtain ⟨hFit, hAfter⟩ := hBooks.drop hOnce hHeld hRest hNeeds hCounted
      exact ⟨fun _ => hFit, hQuiet hAfter⟩
  | closeConnection own =>
      refine ⟨trivial, ?_⟩
      simp only [Op.leaves]
      split
      next hFields => exact hBooks.close hOnce hFields
      next hFields => exact hBooks.closeBare (hNeeds.resolve_left hFields)
  | handOver own count =>
      refine ⟨trivial, ?_⟩
      cases own with
      | listener l => exact hQuiet (hBooks.giveFields hNeeds.2)
      | client n => exact hQuiet (hBooks.give hOnce hNeeds)
      | accepted l n => exact hQuiet (hBooks.give hOnce hNeeds)
  | sendConn l message =>
      refine ⟨trivial, ?_⟩
      cases reply with
      | false => exact hQuiet hBooks
      | true => exact hQuiet (hBooks.give hOnce (.inl hNeeds))
  | openListener l =>
      refine ⟨trivial, ?_⟩
      cases reply with
      | error status => exact hQuiet hBooks
      | ok _ => exact hBooks.takeBuilt hOnce hNeeds.1 hNeeds.2.1
  | startListener l => exact ⟨trivial, hQuiet hBooks⟩
  | closeListener l => exact ⟨trivial, hBooks.close hOnce hNeeds⟩
  | openConnection n =>
      refine ⟨trivial, ?_⟩
      cases reply with
      | error status => exact hQuiet hBooks
      | ok _ => exact hBooks.take hOnce hNeeds.1 hNeeds.2.1
  | startConnection n => exact ⟨trivial, hQuiet hBooks⟩
  | setConnecting n connecting =>
      obtain ⟨hPen, hParks⟩ := hNeeds
      have hStopped := hBooks.stop hRunning hPen
      refine ⟨trivial, ?_⟩
      rcases connecting with - | (- | -) | - | -
      · cases hParks
      · exact hQuiet (hStopped.giveGuard hParks.1 hParks.2)
      · exact hQuiet (hStopped.give hOnce hParks)
      · cases hParks
      · exact hQuiet hStopped
  | _ => cases hSubject

end Trade

section Others

variable {past : List Mark} {arcs introduced running : Nat} {x : Share}

/-- A request introduces a handle, or resumes its attempt. -/
theorem Books.introduce (hBooks : Books past arcs introduced running x) (right pen : Nat) :
    Books past arcs (introduced + right) (running + pen) (x + { right, pen }) := by
  obtain ⟨hReserved, hAcquired, hAlone, hBuilt, hJoined, hSole, hShared, hReferences, hGuard, hNative,
    hPen⟩ := hBooks
  simp only [Share.add_eq]
  constructor <;> simp only <;> omega

/-- Contained panics are not in the books. -/
theorem Books.strike (hBooks : Books past arcs introduced running x) (struck : Nat) :
    Books past arcs introduced running (x + { struck }) := by
  obtain ⟨hReserved, hAcquired, hAlone, hBuilt, hJoined, hSole, hShared, hReferences, hGuard, hNative,
    hPen⟩ := hBooks
  exact ⟨hReserved, hAcquired, hAlone, hBuilt, hJoined, hSole, hShared, hReferences, hGuard, hNative,
    hPen⟩

/-- A request that returns may leave rights behind that were not used. -/
theorem Books.settle {held : Share} (hBooks : Books past arcs introduced running (held + x))
    (hSettled : held.Settled) : Books past arcs introduced running x := by
  obtain ⟨hReserved, hAcquired, hAlone, hBuilt, hJoined, hSole, hShared, hReferences, hGuard, hNative,
    hPen⟩ := hBooks
  obtain ⟨hGuardless, hRaw, hFields, hBare, hOwn, hRefs, hPenless⟩ := hSettled
  simp only [Share.add_eq] at *
  constructor <;> omega

end Others

end MsQuicH3.Lifecycle
