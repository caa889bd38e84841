import MsQuicH3.Concurrency.Logic

/-! Flowcharts of straight-line code: named program points, each with the one
operation issued there and the point every reply leads to. Code a flowchart
describes is verified by an assertion for every point. -/
namespace Concurrency

/-- At a point either one operation is issued, or the code ends. -/
structure Flowchart (S : Signature) (Point α : Type) where
  node : Point → (Σ op : S.Op, S.Reply op → Point) ⊕ α

namespace Flowchart

variable {S : Signature} {Point α β : Type}

/-- The code does what the flowchart says, from the given point on. -/
def Describes (chart : Flowchart S Point α) : Point → Program S α → Prop
  | point, .done result => chart.node point = .inr result
  | point, .call op next => ∃ target, chart.node point = .inl ⟨op, target⟩ ∧
      ∀ reply, chart.Describes (target reply) (next reply)

variable {chart : Flowchart S Point α}

theorem describes_done {point : Point} {result : α} (h : chart.node point = .inr result) :
    chart.Describes point (.done result) := h

theorem describes_call {point : Point} {op : S.Op} {target : S.Reply op → Point}
    {next : S.Reply op → Program S α} (h : chart.node point = .inl ⟨op, target⟩)
    (hNext : ∀ reply, chart.Describes (target reply) (next reply)) :
    chart.Describes point (.call op next) := ⟨target, h, hNext⟩

end Flowchart

namespace Machine

variable {S : Signature} {State Choice Thread Request Loop Result Point : Type}
variable (m : Machine S State Choice Thread Request Loop Result)

/-- The assertions hold together: from each point the operation leads to a point
whose assertion holds, and where the code ends `post` holds. -/
def Annotated {α : Type} (chart : Flowchart S Point α)
    (known inv : World S State Request Result → Prop)
    (rely : World S State Request Result → World S State Request Result → Prop)
    (request : Request) (assertion : Post S State Request Result Point)
    (post : Post S State Request Result α) : Prop :=
  ∀ point events w, assertion point events w →
    match chart.node point with
    | .inl ⟨op, target⟩ => ∀ w', rely w w' → known w' → inv w' → ∀ choice,
        known (m.advance choice request op w') →
        inv (m.advance choice request op w') ∧
          assertion (target (m.perform choice op w'.state).1)
            (events ++ [m.event choice request op w'.state]) (m.advance choice request op w')
    | .inr result => post result events w

variable {m}

theorem safe_of_describes {α : Type} {chart : Flowchart S Point α}
    {known inv : World S State Request Result → Prop}
    {rely : World S State Request Result → World S State Request Result → Prop}
    {request : Request} {assertion : Post S State Request Result Point}
    {post : Post S State Request Result α}
    (hChart : m.Annotated chart known inv rely request assertion post)
    {program : Program S α} {point : Point} (h : chart.Describes point program)
    {events : List (Event S State Request)} {w : World S State Request Result}
    (hStart : assertion point events w) :
    m.Safe known inv rely request post events program w := by
  induction program generalizing point events w with
  | done result =>
      have hPoint := hChart point events w hStart
      rw [Flowchart.Describes] at h
      rw [h] at hPoint
      exact hPoint
  | call op next ih =>
      obtain ⟨target, hNode, hNext⟩ := h
      have hPoint := hChart point events w hStart
      rw [hNode] at hPoint
      intro w' hRely hKnown hInv choice hAfter
      obtain ⟨hInv', hTarget⟩ := hPoint w' hRely hKnown hInv choice hAfter
      exact ⟨hInv', ih _ (hNext _) hTarget⟩

/-- What the calls of some requests have done so far, point by point, whatever states
their operations meet. -/
def chartTranscript (scope : Request → Prop)
    (chart : Request → Flowchart S Point (Loop ⊕ Result))
    (assertion : Request → Point → List (Event S State Request) → Prop)
    (hEntry : ∀ request, scope request → ∃ point,
      (chart request).Describes point (m.entry request) ∧ assertion request point [])
    (hStep : ∀ request point events op target, scope request →
      (chart request).node point = .inl ⟨op, target⟩ → assertion request point events →
      ∀ choice state, assertion request (target (m.perform choice op state).1)
        (events ++ [m.event choice request op state]))
    (hAgain : ∀ request point events loop, scope request →
      (chart request).node point = .inr (.inl loop) → assertion request point events →
      ∃ next, (chart request).Describes next (m.body request loop) ∧
        assertion request next events) :
    m.Transcript where
  inv request events rest := scope request → ∃ point,
    (chart request).Describes point rest ∧ assertion request point events
  entry := hEntry
  event request events op next choice state h hScope := by
    obtain ⟨point, ⟨target, hNode, hNext⟩, hAt⟩ := h hScope
    exact ⟨_, hNext _, hStep request point events op target hScope hNode hAt choice state⟩
  again request events loop h hScope := by
    obtain ⟨point, hNode, hAt⟩ := h hScope
    exact hAgain request point events loop hScope hNode hAt

end Machine
end Concurrency
