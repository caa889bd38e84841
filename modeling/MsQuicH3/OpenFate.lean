import MsQuicH3.Concurrency.Calls
import MsQuicH3.OpenOutline

/-! What becomes of the streams an opener starts. Each of them is handed out under the ID
of its own start, dropped behind an error, or still waited for. -/
namespace MsQuicH3

open Concurrency

section Start

/-- Only a successful start complete event resolves a start with an ID, its own. -/
def names (request : Request) (op : Op) : Prop :=
  ∀ key id, op = .stream key (.resolveStart (.ok id)) →
    ∃ status, request = .stream key (.startComplete status id) ∧ status.isOk = true

theorem names_streamRecover (key : StreamKey) (request : Request) :
    (streamRecover key).Uses (names request) := by
  have hOp : ∀ op : StreamOp, (∀ id, op ≠ .resolveStart (.ok id)) →
      (onStream key op).Uses (names request) := by
    intro op h
    apply uses_onStream
    intro other id hEq
    cases hEq
    exact absurd rfl (h id)
  refine (hOp _ (by simp)).bind fun _ => (hOp _ (by simp)).bind fun _ =>
    (hOp _ (by simp)).bind fun _ => (hOp _ (by simp)).bind fun _ =>
    Program.Uses.bind ?_ fun _ => (hOp _ (by simp)).bind fun _ =>
    (hOp _ (by simp)).bind fun _ => trivial
  refine (hOp _ (by simp)).bind fun sent => ?_
  split
  · trivial
  · exact (hOp _ (by simp)).bind fun _ => hOp _ (by simp)

theorem names_streamCallback (key : StreamKey) (event : StreamEvent) :
    (streamCallback key event).Uses (names (.stream key event)) := by
  have hBody : (∀ status id, event ≠ .startComplete status id) →
      (streamCallback key event).Uses (names (.stream key event)) := by
    intro hEvent
    apply (uses_streamCallback key event).mono
    intro op h other id hEq
    subst hEq
    obtain ⟨-, hIssues⟩ := h
    cases event with
    | startComplete status id => exact absurd rfl (hEvent status id)
    | _ => cases hIssues
  cases event with
  | startComplete status id =>
      have hResolve : (onStream key (.resolveStart (if status.isOk then .ok id else .error status))).Uses
          (names (.stream key (.startComplete status id))) := by
        apply uses_onStream
        intro other raw hEq
        cases hOk : status.isOk with
        | true =>
            rw [hOk, if_pos rfl] at hEq
            cases hEq
            exact ⟨status, rfl, hOk⟩
        | false =>
            rw [hOk] at hEq
            cases hEq
      exact hResolve.bind fun _ => trivial
  | _ => exact hBody fun _ _ hNever => by cases hNever

theorem names_streamHandler (key : StreamKey) (event : StreamEvent) :
    (streamHandler key event).Uses (names (.stream key event)) := by
  have hOp : ∀ op : StreamOp, (∀ id, op ≠ .resolveStart (.ok id)) →
      (onStream key op).Uses (names (.stream key event)) := by
    intro op h
    apply uses_onStream
    intro other id hEq
    cases hEq
    exact absurd rfl (h id)
  exact uses_guardCallback (hOp _ (by simp)) (fun k => hOp _ (by simp))
    (names_streamCallback key event) (names_streamRecover key _)

/-- Only the callback of a stream resolves its start. -/
theorem names_of_permits {request : Request} {op : Op} (h : permits request op)
    (hRequest : ∀ key event, request ≠ .stream key event) : names request op := by
  intro key id hEq
  subst hEq
  obtain ⟨event, hStream⟩ := streamHandler_of_permits h rfl
  exact absurd hStream (hRequest key event)

theorem names_entry (config : H3Config) (request : Request) :
    (request.entry config).Uses (names request) := by
  cases request with
  | stream key event => exact uses_straight (names_streamHandler key event)
  | _ =>
      apply (uses_entry config _).mono
      exact fun op h => names_of_permits h fun _ _ hNever => by cases hNever

theorem names_body (request : Request) (round : SendRound) :
    (request.body round).Uses (names request) := by
  cases request with
  | stream key event => trivial
  | _ =>
      apply (uses_body _ round).mono
      exact fun op h => names_of_permits h fun _ _ hNever => by cases hNever

/-- A resolved start was resolved by an operation that found it open. -/
def StartLog (w : AdapterWorld) : Prop :=
  ∀ key value, (w.state.stream key).start = .sent value →
    ∃ e, .event e ∈ w.trace ∧ e.op = .stream key (.resolveStart value) ∧
      (e.before.stream key).start = .waiting

/-- A start gets its value by its resolution. -/
theorem StreamOp.resolved_or_resolving (budget : RecvBudget) (choice : Choice) (op : StreamOp)
    (s : StreamState) (value : Except Status Nat)
    (h : (op.perform budget choice s).2.start = .sent value) :
    s.start = .sent value ∨ op = .resolveStart value ∧ s.start = .waiting := by
  cases op with
  | resolveStart result =>
      simp only [StreamOp.perform] at h
      cases hStart : s.start <;> simp_all [OneShot.send]
  | dropStart =>
      simp only [StreamOp.perform] at h
      cases hStart : s.start <;> simp_all [OneShot.drop]
  | pollStart =>
      simp only [StreamOp.perform] at h
      cases hStart : s.start <;> simp_all [OneShot.poll]
  | streamSend context buffer =>
      cases hResult : choice.result <;> simp_all [StreamOp.perform]
  | _ => exact .inl h

theorem startLog {config : H3Config} {trace : List AdapterLabel} {reached : AdapterConfig}
    (run : Runs config trace reached) : StartLog ⟨reached.state, trace⟩ := by
  have hKept : (adapter config).Kept permits StartLog := by
    constructor
    · intro w request s hDeliver h key value hStart
      rw [World.after_state, deliver_stream StreamState.start (fun _ _ => rfl) hDeliver] at hStart
      obtain ⟨e, he, hOp⟩ := h key value hStart
      exact ⟨e, List.mem_append_left _ he, hOp⟩
    · intro w request op choice _ h key value hStart
      rw [Machine.advance_state, adapter_perform] at hStart
      have hOld : (w.state.stream key).start = .sent value →
          ∃ e, .event e ∈ ((adapter config).advance choice request op w).trace ∧
            e.op = .stream key (.resolveStart value) ∧ (e.before.stream key).start = .waiting := by
        intro hBefore
        obtain ⟨e, he, hOp⟩ := h key value hBefore
        exact ⟨e, List.mem_append_left _ he, hOp⟩
      cases op with
      | conn op => exact hOld (by simpa using hStart)
      | stream other op =>
          by_cases hKey : key = other
          · subst hKey
            rw [Op.perform_stream_self] at hStart
            rcases op.resolved_or_resolving _ _ _ _ hStart with hBefore | ⟨rfl, hWaiting⟩
            · exact hOld hBefore
            · exact ⟨_, List.mem_append_right _ (List.mem_singleton_self _), rfl, hWaiting⟩
          · rw [Op.perform_stream_of_ne _ _ _ _ hKey] at hStart
            exact hOld hStart
    · intro w call h key value hStart
      obtain ⟨e, he, hOp⟩ := h key value hStart
      exact ⟨e, List.mem_append_left _ he, hOp⟩
  apply hKept.holds (uses_entry config) uses_body run
  intro key value hStart
  cases hStart

end Start

section Fate

variable {config : H3Config} {n : Nat} {uni : Bool} {trace : List AdapterLabel}
  {reached : AdapterConfig}

/-- What an opener finds in a start came with the start complete event of the stream. -/
theorem started (run : Runs config trace reached) {e : AdapterEvent} {key : StreamKey} {id : Nat}
    (he : .event e ∈ trace) (hStart : (e.before.stream key).start = .sent (.ok id)) :
    ∃ e status, .event e ∈ trace ∧ e.request = .stream key (.startComplete status id) ∧
      status.isOk = true ∧ e.op = .stream key (.resolveStart (.ok id)) ∧
      (e.before.stream key).start = .waiting := by
  obtain ⟨earlier, before, _, hPrefix, hBefore, -, hState, -, -⟩ := Machine.Runs.around run he
  rw [← hState] at hStart
  obtain ⟨first, hFirst, hOp, hWaiting⟩ := startLog hBefore key _ hStart
  have hMem : .event first ∈ trace := hPrefix.subset (List.mem_append_left _ hFirst)
  have hNames := Machine.Runs.permitted (names_entry config) names_body run hMem
  obtain ⟨status, hRequest, hOk⟩ := hNames key id hOp
  exact ⟨first, status, hMem, hRequest, hOk, hOp, hWaiting⟩

end Fate

end MsQuicH3
