import CodeAtlas.Dump.Chain
import CodeAtlas.Symbol.Location

/-!
# References

A reference result lists the places where a symbol is defined and used, as the targets of its `item`
edges. It may nest other results; their items count as its own, at the place of the edge that nests
them. The walk enters each result once and refuses one that it meets again.
-/

namespace CodeAtlas

/-- A target of an item edge with the document that the edge names. -/
abbrev Item := ElementId × Option ElementId

def Edge.items (edge : Edge) : List Item :=
  edge.targets.map fun target => (target, edge.document)

structure Items where
  definitions : List Item
  references : List Item
  /-- Whether some edge lists definitions. -/
  hasDefinitions : Bool
  deriving DecidableEq, Repr

namespace Items

def empty : Items :=
  ⟨[], [], false⟩

def withDefinitions (edge : Edge) (items : Items) : Items :=
  { items with definitions := edge.items ++ items.definitions, hasDefinitions := true }

def withReferences (edge : Edge) (items : Items) : Items :=
  { items with references := edge.items ++ items.references }

/-- A step of the walk that is still to be done: to enter a result, or to pass one of its edges. -/
inductive Visit where
  | enter (result : ElementId)
  | pass (edge : Edge)

/-- A bound on the steps that a visit leads to before another result is entered. -/
def Visit.weight : Visit → Nat
  | .enter _ => 1
  | .pass edge => edge.targets.length + 2

def edgesOf (graph : Graph) (result : ElementId) : List Visit :=
  (graph.outgoingLabeled result .item).map fun link => .pass link.edge

def nestedBy (edge : Edge) : List Visit :=
  edge.targets.map .enter

/-- A bound on the steps that a list of visits leads to before another result is entered. -/
def weights (steps : List Visit) : Nat :=
  steps.foldr (fun step total => step.weight + total) 0

theorem weights_cons (step : Visit) (steps : List Visit) :
    weights (step :: steps) = step.weight + weights steps := rfl

theorem weights_append (first second : List Visit) :
    weights (first ++ second) = weights first + weights second := by
  induction first with
  | nil => simp [weights]
  | cons step first ih => rw [List.cons_append, weights_cons, weights_cons, ih, Nat.add_assoc]

theorem weights_nestedBy (edge : Edge) : weights (nestedBy edge) = edge.targets.length := by
  unfold nestedBy
  generalize edge.targets = targets
  induction targets with
  | nil => rfl
  | cons target targets ih =>
    rw [List.map_cons, weights_cons, ih, Visit.weight, List.length_cons, Nat.add_comm]

/-- A bound on the steps that the edges of the results not entered yet can lead to. -/
def ahead (graph : Graph) (visited : List ElementId) (results : List ElementId) : Nat :=
  results.foldr (fun id total => (if id ∈ visited then 0 else weights (edgesOf graph id)) + total) 0

theorem ahead_cons (graph : Graph) (visited : List ElementId) (id : ElementId)
    (results : List ElementId) :
    ahead graph visited (id :: results) =
      (if id ∈ visited then 0 else weights (edgesOf graph id)) + ahead graph visited results := rfl

/-- Once a result is entered, the steps of its edges are no longer ahead. -/
theorem ahead_add_le (graph : Graph) {visited : List ElementId} {id : ElementId}
    (fresh : id ∉ visited) (results : List ElementId) :
    ahead graph (id :: visited) results ≤ ahead graph visited results ∧
      (id ∈ results →
        ahead graph (id :: visited) results + weights (edgesOf graph id) ≤
          ahead graph visited results) := by
  induction results with
  | nil => exact ⟨Nat.le_refl _, fun mem => by cases mem⟩
  | cons first results ih =>
    obtain ⟨shrinks, leaves⟩ := ih
    rw [ahead_cons, ahead_cons]
    by_cases same : first = id
    · subst same
      rw [if_pos List.mem_cons_self, if_neg fresh]
      exact ⟨by omega, fun _ => by omega⟩
    · have kept : (first ∈ id :: visited) = (first ∈ visited) := by simp [same]
      simp only [kept]
      refine ⟨by omega, fun mem => ?_⟩
      have later := leaves ((List.mem_cons.mp mem).resolve_left (Ne.symm same))
      omega

/-- Entering a result turns the steps ahead into steps to be done. -/
theorem enter_decreases {graph : Graph} {visited : List ElementId} {id : ElementId}
    (fresh : id ∉ visited) (rest : List Visit) :
    ahead graph (id :: visited) graph.sources + weights (edgesOf graph id ++ rest) <
      ahead graph visited graph.sources + weights (.enter id :: rest) := by
  obtain ⟨shrinks, leaves⟩ := ahead_add_le graph fresh graph.sources
  rw [weights_append, weights_cons, Visit.weight]
  by_cases mem : id ∈ graph.sources
  · have := leaves mem
    omega
  · have none_there : graph.outgoing id = [] := by
      rw [Graph.sources, Std.TreeMap.mem_keys] at mem
      simp [Graph.outgoing, LinkTable.at, Std.TreeMap.getD_eq_fallback mem]
    have empty : weights (edgesOf graph id) = 0 := by
      simp [edgesOf, Graph.outgoingLabeled, none_there, weights]
    omega

/-- The items met on the steps still to be done, for a walk from `root` that has entered the results
`visited`. -/
def collect (graph : Graph) (root : ElementId) (visited : List ElementId) :
    List Visit → Except DumpFault Items
  | [] => .ok empty
  | .enter id :: rest =>
    if _seen : id ∈ visited then .error (.cycle root id)
    else collect graph root (id :: visited) (edgesOf graph id ++ rest)
  | .pass edge :: rest =>
    match edge.property with
    | some .definitions => (collect graph root visited rest).map (withDefinitions edge)
    | some .referenceResults => collect graph root visited (nestedBy edge ++ rest)
    | some .referenceLinks => collect graph root visited rest
    | _ => (collect graph root visited rest).map (withReferences edge)
termination_by steps => ahead graph visited graph.sources + weights steps
decreasing_by
  · exact enter_decreases _seen rest
  · simp [weights_cons, Visit.weight]
  · rw [weights_append, weights_nestedBy, weights_cons, Visit.weight]
    omega
  · simp [weights_cons, Visit.weight]
  · simp [weights_cons, Visit.weight]

theorem error_of_map_eq_error {result : Except DumpFault Items} {f : Items → Items} {fault : DumpFault}
    (failed : result.map f = .error fault) : result = .error fault := by
  cases result with
  | ok items => cases failed
  | error other =>
    cases failed
    rfl

/-- A walk fails only where it comes to a result again. -/
theorem collect_error {graph : Graph} {root : ElementId} {visited : List ElementId}
    {steps : List Visit} {fault : DumpFault} (failed : collect graph root visited steps = .error fault) :
    ∃ again, fault = .cycle root again := by
  fun_induction collect graph root visited steps with
  | case1 => cases failed
  | case2 visited id rest seen =>
    cases failed
    exact ⟨id, rfl⟩
  | case3 visited id rest fresh ih => exact ih failed
  | case4 visited edge rest property ih => exact ih (error_of_map_eq_error failed)
  | case5 visited edge rest property ih => exact ih failed
  | case6 visited edge rest property ih => exact ih failed
  | case7 visited edge rest _ _ _ ih => exact ih (error_of_map_eq_error failed)

end Items

/-- The items of a reference result and of the results it nests. -/
def Graph.items (graph : Graph) (result : ElementId) : Except DumpFault Items :=
  Items.collect graph result [] [.enter result]

/-- Where a symbol is defined and used. -/
structure ReferenceSet where
  definitions : List Location
  references : List Location
  deriving DecidableEq, Repr

def ReferenceSet.toJson (set : ReferenceSet) : Json :=
  .object [("definitions", .array (set.definitions.map Location.toJson)),
    ("references", .array (set.references.map Location.toJson))]

namespace Locator

/-- The locations of the items that are part of the site. -/
def locateAll (locator : Locator) (items : List Item) : Except DumpFault (List Location) := do
  return (← items.mapM fun item => locator.locate item.1 item.2).filterMap id

/-- The reference set of a result; there is none if it lists no definitions. -/
def referenceSet? (locator : Locator) (result : ElementId) :
    Except DumpFault (Option ReferenceSet) := do
  let items ← locator.graph.items result
  if items.hasDefinitions then
    return some ⟨← locator.locateAll items.definitions, ← locator.locateAll items.references⟩
  else return none

end Locator

end CodeAtlas
