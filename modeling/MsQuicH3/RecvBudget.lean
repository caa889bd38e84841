import MsQuicH3.Config

/-! The receive budget of one stream: bytes and units that were made visible to
the reader and not yet accounted as drained. -/
namespace MsQuicH3

structure RecvState where
  buffered : Nat := 0
  units : Nat := 0
  pendOutstanding : Bool := false
  pendingIndicationLen : Nat := 0
  peak : Nat := 0
  peakUnits : Nat := 0
  deriving DecidableEq, Repr

structure RecvBudget where
  maxBytes : Nat
  maxUnits : Nat
  deriving DecidableEq, Repr

def H3Config.recvBudget (config : H3Config) : RecvBudget :=
  ⟨config.maxRecvBytes, config.maxRecvUnits⟩

inductive Admit where
  | accepted
  | pend
  | publishFailed
  deriving DecidableEq, Repr

namespace RecvBudget

/-- The state with one more indication accounted. -/
def charge (budget : RecvBudget) (st : RecvState) (total : Nat) (chargeUnit : Bool) :
    Bool × RecvState :=
  let buffered := st.buffered + total
  let units := if chargeUnit then st.units + 1 else st.units
  let pend := decide (buffered ≥ budget.maxBytes ∨ units ≥ budget.maxUnits)
  (pend,
    { buffered
      units
      pendOutstanding := pend || st.pendOutstanding
      pendingIndicationLen := if pend then total else st.pendingIndicationLen
      peak := max st.peak buffered
      peakUnits := if chargeUnit then max st.peakUnits units else st.peakUnits })

/-- Account an indication and publish it last, under one lock. `published` is the
outcome of that publication; a failed one undoes the accounting. -/
def admitIndication (budget : RecvBudget) (st : RecvState) (total : Nat) (chargeUnit published : Bool) :
    Admit × RecvState :=
  let (pend, charged) := budget.charge st total chargeUnit
  if published then (if pend then .pend else .accepted, charged)
  else (.publishFailed, st)

/-- Account one drained `Data` event. The reply is the full length of the paused
indication when this drain re-arms the stream. -/
def onDrained (budget : RecvBudget) (st : RecvState) (len : Nat) : Option Nat × RecvState :=
  let drained := { st with buffered := st.buffered - len, units := st.units - 1 }
  if drained.pendOutstanding && decide (drained.buffered < budget.maxBytes)
      && decide (drained.units < budget.maxUnits) then
    (some drained.pendingIndicationLen,
      { drained with pendOutstanding := false, pendingIndicationLen := 0 })
  else (none, drained)

/-- One of the two caps is reached. -/
def Exhausted (budget : RecvBudget) (st : RecvState) : Prop :=
  budget.maxBytes ≤ st.buffered ∨ budget.maxUnits ≤ st.units

/-- A stream is paused exactly while its budget is exhausted. -/
def Gated (budget : RecvBudget) (st : RecvState) : Prop :=
  st.pendOutstanding = true ↔ budget.Exhausted st

variable {budget : RecvBudget} {st : RecvState}

@[simp] theorem charge_buffered (total : Nat) (chargeUnit : Bool) :
    (budget.charge st total chargeUnit).2.buffered = st.buffered + total := rfl

@[simp] theorem charge_units (total : Nat) (chargeUnit : Bool) :
    (budget.charge st total chargeUnit).2.units = st.units + chargeUnit.toNat := by
  cases chargeUnit <;> rfl

@[simp] theorem onDrained_buffered (len : Nat) :
    (budget.onDrained st len).2.buffered = st.buffered - len := by
  unfold onDrained
  dsimp only
  split <;> rfl

@[simp] theorem onDrained_units (len : Nat) :
    (budget.onDrained st len).2.units = st.units - 1 := by
  unfold onDrained
  dsimp only
  split <;> rfl

theorem charge_fst (total : Nat) (chargeUnit : Bool) :
    (budget.charge st total chargeUnit).1 = true ↔
      budget.Exhausted (budget.charge st total chargeUnit).2 := decide_eq_true_iff

theorem Gated.charge (h : budget.Gated st) (total : Nat) (chargeUnit : Bool) :
    budget.Gated (budget.charge st total chargeUnit).2 := by
  have hPend : (budget.charge st total chargeUnit).2.pendOutstanding =
      ((budget.charge st total chargeUnit).1 || st.pendOutstanding) := rfl
  rw [Gated, hPend, Bool.or_eq_true, charge_fst]
  constructor
  · rintro (hNow | hBefore)
    · exact hNow
    · have hExhausted := h.1 hBefore
      simp only [Exhausted, charge_buffered, charge_units] at hExhausted ⊢
      omega
  · exact .inl

/-- A drain re-arms the stream exactly when it brings both caps back. -/
theorem onDrained_cases (h : budget.Gated st) (len : Nat) :
    (∃ paused, (budget.onDrained st len).1 = some paused ∧ st.pendOutstanding = true ∧
      paused = st.pendingIndicationLen ∧ (budget.onDrained st len).2.pendOutstanding = false ∧
      ¬budget.Exhausted (budget.onDrained st len).2) ∨
    ((budget.onDrained st len).1 = none ∧
      (budget.onDrained st len).2.pendOutstanding = st.pendOutstanding ∧
      (budget.onDrained st len).2.pendingIndicationLen = st.pendingIndicationLen ∧
      (st.pendOutstanding = true ↔ budget.Exhausted (budget.onDrained st len).2)) := by
  simp only [Exhausted, onDrained_buffered, onDrained_units]
  unfold onDrained
  dsimp only
  split
  next hRearm =>
    simp only [Bool.and_eq_true, decide_eq_true_eq] at hRearm
    obtain ⟨⟨hPend, hBytes⟩, hUnits⟩ := hRearm
    exact .inl ⟨_, rfl, hPend, rfl, rfl, by omega⟩
  next hKeep =>
    refine .inr ⟨rfl, rfl, rfl, ?_⟩
    simp only [Bool.and_eq_true, decide_eq_true_eq, not_and] at hKeep
    simp only [Gated, Exhausted] at h
    constructor
    · intro hPend
      by_contra hFree
      exact hKeep ⟨hPend, by omega⟩ (by omega)
    · intro hExhausted
      exact h.2 (by omega)

theorem Gated.onDrained (h : budget.Gated st) (len : Nat) :
    budget.Gated (budget.onDrained st len).2 := by
  rcases onDrained_cases h len with ⟨paused, -, -, -, hPend, hFree⟩ | ⟨-, hPend, -, hExhausted⟩
  · rw [Gated, hPend]
    simp [hFree]
  · rw [Gated, hPend]
    exact hExhausted

end RecvBudget

theorem gated_initial (config : H3Config) : config.recvBudget.Gated {} := by
  have hBytes := config.recvBytes_pos
  have hUnits := config.recvUnits_pos
  simp only [RecvBudget.Gated, RecvBudget.Exhausted, H3Config.recvBudget]
  simp
  omega

end MsQuicH3
