import Mathlib.Algebra.Order.BigOperators.Group.List
import Mathlib.Algebra.Order.Group.Nat
import MsQuicH3.RecvBudget

/-! The unit cap of a receive budget beside its byte cap. For large enough frames
the bytes run out first, so that a stream cannot tell whether the unit cap is there. -/
namespace MsQuicH3

/-- A call on a receive budget: an indication with the outcome of its publication, or a
drained data event. -/
inductive BudgetCall where
  | indication (total : Nat) (published : Bool)
  | onDrained (len : Nat)
  deriving DecidableEq, Repr

inductive BudgetOutcome where
  | admitted (outcome : Admit)
  | drained (rearmed : Option Nat)
  deriving DecidableEq, Repr

/-- Only an indication that enqueues a data event is charged a unit. -/
def RecvBudget.call (budget : RecvBudget) (st : RecvState) : BudgetCall → BudgetOutcome × RecvState
  | .indication total published =>
      let admitted := budget.admitIndication st total (total != 0) published
      (.admitted admitted.1, admitted.2)
  | .onDrained len =>
      let drained := budget.onDrained st len
      (.drained drained.1, drained.2)

def RecvBudget.replay (budget : RecvBudget) (st : RecvState) : List BudgetCall → List BudgetOutcome
  | [] => []
  | call :: calls => (budget.call st call).1 :: budget.replay (budget.call st call).2 calls

/-- What a budget with the byte cap alone keeps. -/
structure ByteState where
  buffered : Nat := 0
  pendOutstanding : Bool := false
  pendingIndicationLen : Nat := 0
  deriving DecidableEq, Repr

/-- The abstract budget, with the byte cap alone: an indication pauses the stream when
the bytes reach the cap, and the drain that brings them back below it re-arms. -/
def ByteState.call (maxBytes : Nat) (st : ByteState) : BudgetCall → BudgetOutcome × ByteState
  | .indication _ false => (.admitted .publishFailed, st)
  | .indication total true =>
      if st.buffered + total ≥ maxBytes then (.admitted .pend, ⟨st.buffered + total, true, total⟩)
      else (.admitted .accepted, { st with buffered := st.buffered + total })
  | .onDrained len =>
      if st.pendOutstanding ∧ st.buffered - len < maxBytes then
        (.drained (some st.pendingIndicationLen), ⟨st.buffered - len, false, 0⟩)
      else (.drained none, { st with buffered := st.buffered - len })

def ByteState.replay (maxBytes : Nat) (st : ByteState) : List BudgetCall → List BudgetOutcome
  | [] => []
  | call :: calls => (st.call maxBytes call).1 :: replay maxBytes (st.call maxBytes call).2 calls

/-- The lengths of the data events that are published and not drained, after a call. -/
def BudgetCall.inFlight (frames : List Nat) : BudgetCall → List Nat
  | .indication total published => if published && total != 0 then frames ++ [total] else frames
  | .onDrained len => frames.erase len

/-- A call may admit a frame of at least `F` bytes, or drain one that is in flight. -/
def BudgetCall.Fits (F : Nat) (frames : List Nat) : BudgetCall → Prop
  | .indication total published => published = true → total ≠ 0 → F ≤ total
  | .onDrained len => len ∈ frames

/-- A run of calls with frames of at least `F` bytes, in which every drain is one of a
data event that was published and not drained before. -/
def LargeFrames (F : Nat) (frames : List Nat) : List BudgetCall → Prop
  | [] => True
  | call :: calls => call.Fits F frames ∧ LargeFrames F (call.inFlight frames) calls

/-- The budget as far as the byte cap sees it. -/
def RecvState.bytes (st : RecvState) : ByteState :=
  ⟨st.buffered, st.pendOutstanding, st.pendingIndicationLen⟩

/-- What is charged is what is in flight, and every frame of it is large. -/
structure Charged (F : Nat) (frames : List Nat) (st : RecvState) : Prop where
  buffered : st.buffered = frames.sum
  units : st.units = frames.length
  large : ∀ len ∈ frames, F ≤ len

variable {F maxBytes maxUnits : Nat} {frames : List Nat} {st : RecvState}

namespace Charged

theorem initial (F : Nat) : Charged F [] {} := ⟨rfl, rfl, by simp⟩

/-- Every unit in flight brings at least `F` bytes. -/
theorem units_mul_le (h : Charged F frames st) : st.units * F ≤ st.buffered := by
  rw [h.units, h.buffered]
  simpa using List.card_nsmul_le_sum frames F h.large

theorem charge (h : Charged F frames st) (budget : RecvBudget) {total : Nat}
    (hFits : total ≠ 0 → F ≤ total) :
    Charged F ((BudgetCall.indication total true).inFlight frames)
      (budget.charge st total (total != 0)).2 := by
  by_cases hEmpty : total = 0
  · subst hEmpty
    exact ⟨h.buffered, h.units, h.large⟩
  · have hFrames : (BudgetCall.indication total true).inFlight frames = frames ++ [total] := by
      simp [BudgetCall.inFlight, hEmpty]
    rw [hFrames]
    constructor
    · rw [RecvBudget.charge_buffered, h.buffered, List.sum_append, List.sum_singleton]
    · rw [RecvBudget.charge_units, h.units, List.length_append, List.length_singleton]
      simp [hEmpty]
    · intro len hLen
      rcases List.mem_append.1 hLen with hOld | hNew
      · exact h.large len hOld
      · rw [List.mem_singleton.1 hNew]
        exact hFits hEmpty

theorem drain (h : Charged F frames st) (budget : RecvBudget) {len : Nat} (hLen : len ∈ frames) :
    Charged F (frames.erase len) (budget.onDrained st len).2 := by
  have hSum := List.sum_erase hLen
  constructor
  · rw [RecvBudget.onDrained_buffered, h.buffered]
    omega
  · rw [RecvBudget.onDrained_units, h.units, List.length_erase_of_mem hLen]
  · exact fun other hOther => h.large other (List.mem_of_mem_erase hOther)

/-- With large frames alone, the units do not run out before the bytes. -/
theorem exhausted_iff (h : Charged F frames st) (hCaps : maxBytes ≤ maxUnits * F) :
    RecvBudget.Exhausted ⟨maxBytes, maxUnits⟩ st ↔ maxBytes ≤ st.buffered := by
  have hUnits := h.units_mul_le
  constructor
  · rintro (hBytes | hUnitCap)
    · exact hBytes
    · calc maxBytes ≤ maxUnits * F := hCaps
        _ ≤ st.units * F := Nat.mul_le_mul_right F hUnitCap
        _ ≤ st.buffered := hUnits
  · exact .inl

end Charged

section Step

variable (h : Charged F frames st) (hCaps : maxBytes ≤ maxUnits * F)
include h hCaps

theorem admit_bytes {total : Nat} (hFits : total ≠ 0 → F ≤ total) :
    (RecvBudget.call ⟨maxBytes, maxUnits⟩ st (.indication total true)).1 =
        (st.bytes.call maxBytes (.indication total true)).1 ∧
      (RecvBudget.call ⟨maxBytes, maxUnits⟩ st (.indication total true)).2.bytes =
        (st.bytes.call maxBytes (.indication total true)).2 := by
  have hCharged := h.charge ⟨maxBytes, maxUnits⟩ hFits
  have hPend := @RecvBudget.charge_fst ⟨maxBytes, maxUnits⟩ st total (total != 0)
  rw [hCharged.exhausted_iff hCaps, RecvBudget.charge_buffered] at hPend
  have hBytes : (RecvBudget.charge ⟨maxBytes, maxUnits⟩ st total (total != 0)).2.bytes =
      ⟨st.buffered + total,
        (RecvBudget.charge ⟨maxBytes, maxUnits⟩ st total (total != 0)).1 || st.pendOutstanding,
        if (RecvBudget.charge ⟨maxBytes, maxUnits⟩ st total (total != 0)).1 then total
          else st.pendingIndicationLen⟩ := rfl
  by_cases hFull : maxBytes ≤ st.buffered + total
  · have hNow := hPend.2 hFull
    simp only [RecvBudget.call, RecvBudget.admitIndication, ByteState.call, RecvState.bytes] at hBytes ⊢
    simp only [hNow, hFull, ↓reduceIte, Bool.true_or] at hBytes ⊢
    exact ⟨trivial, hBytes⟩
  · have hNow := Bool.eq_false_iff.2 (mt hPend.1 hFull)
    simp only [RecvBudget.call, RecvBudget.admitIndication, ByteState.call, RecvState.bytes] at hBytes ⊢
    simp only [hNow, hFull, Bool.false_eq_true, ↓reduceIte, Bool.false_or] at hBytes ⊢
    exact ⟨trivial, hBytes⟩

theorem drain_bytes {len : Nat} (hLen : len ∈ frames) :
    (RecvBudget.call ⟨maxBytes, maxUnits⟩ st (.onDrained len)).1 =
        (st.bytes.call maxBytes (.onDrained len)).1 ∧
      (RecvBudget.call ⟨maxBytes, maxUnits⟩ st (.onDrained len)).2.bytes =
        (st.bytes.call maxBytes (.onDrained len)).2 := by
  have hFree := (h.drain ⟨maxBytes, maxUnits⟩ hLen).exhausted_iff hCaps
  simp only [RecvBudget.Exhausted, RecvBudget.onDrained_buffered, RecvBudget.onDrained_units] at hFree
  -- The unit test of a drain says nothing that the byte test does not.
  have hUnits : st.buffered - len < maxBytes → st.units - 1 < maxUnits := by omega
  have hTest : (st.pendOutstanding && decide (st.buffered - len < maxBytes) &&
      decide (st.units - 1 < maxUnits)) =
      decide (st.pendOutstanding = true ∧ st.buffered - len < maxBytes) := by
    rw [Bool.eq_iff_iff]
    simp only [Bool.and_eq_true, decide_eq_true_eq]
    exact ⟨And.left, fun hBoth => ⟨hBoth, hUnits hBoth.2⟩⟩
  simp only [RecvBudget.call, RecvBudget.onDrained, hTest, ByteState.call, RecvState.bytes,
    decide_eq_true_eq]
  by_cases hRearm : st.pendOutstanding = true ∧ st.buffered - len < maxBytes
  · simp [hRearm]
  · simp [hRearm]

/-- One call has the same outcome with and without the unit cap. -/
theorem call_bytes {call : BudgetCall} (hFits : call.Fits F frames) :
    (RecvBudget.call ⟨maxBytes, maxUnits⟩ st call).1 = (st.bytes.call maxBytes call).1 ∧
      (RecvBudget.call ⟨maxBytes, maxUnits⟩ st call).2.bytes = (st.bytes.call maxBytes call).2 ∧
      Charged F (call.inFlight frames) (RecvBudget.call ⟨maxBytes, maxUnits⟩ st call).2 := by
  cases call with
  | indication total published =>
      cases published with
      | false => exact ⟨rfl, rfl, h⟩
      | true =>
          obtain ⟨hOutcome, hState⟩ := admit_bytes h hCaps (hFits rfl)
          exact ⟨hOutcome, hState, h.charge _ (hFits rfl)⟩
  | onDrained len =>
      obtain ⟨hOutcome, hState⟩ := drain_bytes h hCaps hFits
      exact ⟨hOutcome, hState, h.drain _ hFits⟩

end Step

/-- From any charged state on, a run of large frames goes the same way with and without
the unit cap. -/
theorem replay_bytes (h : Charged F frames st) (hCaps : maxBytes ≤ maxUnits * F)
    {calls : List BudgetCall} (hCalls : LargeFrames F frames calls) :
    RecvBudget.replay ⟨maxBytes, maxUnits⟩ st calls = st.bytes.replay maxBytes calls := by
  induction calls generalizing st frames with
  | nil => rfl
  | cons call calls ih =>
      obtain ⟨hFits, hRest⟩ := hCalls
      obtain ⟨hOutcome, hState, hNext⟩ := call_bytes h hCaps hFits
      simp only [RecvBudget.replay, ByteState.replay, hOutcome, ih hNext hRest, hState]

/-- When the units of the budget, filled with frames of `F` bytes, cover its bytes, every
run with frames at least that large has the same outcomes under the byte cap alone. -/
theorem unit_cap_invisible (maxBytes maxUnits F : Nat) (hCaps : maxBytes ≤ maxUnits * F)
    (calls : List BudgetCall) (hCalls : LargeFrames F [] calls) :
    RecvBudget.replay ⟨maxBytes, maxUnits⟩ {} calls = ByteState.replay maxBytes {} calls :=
  replay_bytes (Charged.initial F) hCaps hCalls

/-- Frames of 128 bytes under a small budget of the default shape, with a pause, a failed
publication and a drain out of step. -/
theorem unit_cap_invisible_128 :
    RecvBudget.replay ⟨256, 4⟩ {}
        [.indication 128 true, .indication 0 true, .indication 130 true, .indication 7 false, .onDrained 128] =
      ByteState.replay 256 {}
        [.indication 128 true, .indication 0 true, .indication 130 true, .indication 7 false, .onDrained 128] :=
  unit_cap_invisible 256 4 128 (by decide) _ (by simp [LargeFrames, BudgetCall.Fits, BudgetCall.inFlight])

end MsQuicH3
