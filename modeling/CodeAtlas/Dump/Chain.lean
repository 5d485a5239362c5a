import CodeAtlas.Dump.Graph

/-!
# The chain of result sets

A range rarely has its hover text or its definition itself. It points by a `next` edge to a result
set, and that perhaps to another; the first vertex on this chain that has an edge with the label
asked for answers. A chain that comes back to a vertex without an answer is refused.
-/

namespace CodeAtlas

namespace Graph

def firstLink? (graph : Graph) (id : ElementId) (label : EdgeLabel) : Option Link :=
  (graph.outgoing id).find? fun link => link.edge.label == label

def next? (graph : Graph) (id : ElementId) : Option ElementId :=
  (graph.firstLink? id .next).map fun link => link.edge.target

def sources (graph : Graph) : List ElementId :=
  graph.outgoingTable.keys

theorem mem_sources_of_next? {graph : Graph} {id after : ElementId}
    (h : graph.next? id = some after) : id ∈ graph.sources := by
  rw [sources, Std.TreeMap.mem_keys]
  apply Decidable.byContradiction
  intro absent
  have none_there : graph.outgoing id = [] := by
    simp [outgoing, LinkTable.at, Std.TreeMap.getD_eq_fallback absent]
  simp [next?, firstLink?, none_there] at h

/-- The vertices in `all` that a walk has not passed yet. -/
def unvisited (all visited : List ElementId) : Nat :=
  all.countP fun id => decide (id ∉ visited)

theorem unvisited_cons_lt {all visited : List ElementId} {id : ElementId} (mem : id ∈ all)
    (fresh : id ∉ visited) : unvisited all (id :: visited) < unvisited all visited := by
  unfold unvisited
  induction all with
  | nil => cases mem
  | cons first rest ih =>
    have shrink : rest.countP (fun x => decide (x ∉ id :: visited)) ≤
        rest.countP fun x => decide (x ∉ visited) :=
      List.countP_mono_left (by simp)
    by_cases same : first = id
    · subst same
      simp only [List.countP_cons, List.mem_cons, true_or, not_true_eq_false, decide_false, fresh,
        not_false_eq_true, decide_true, Bool.false_eq_true, ↓reduceIte]
      simp only [List.mem_cons] at shrink
      omega
    · have tail : id ∈ rest := by
        cases mem with
        | head => exact absurd rfl same
        | tail _ h => exact h
      have smaller := ih tail
      simp only [List.countP_cons, List.mem_cons, same, false_or] at smaller ⊢
      omega

/-- Follows the chain from `current`, which the vertices `visited` led to, until a vertex has an edge
with the given label. -/
def follow (graph : Graph) (label : EdgeLabel) (start : ElementId) (visited : List ElementId)
    (current : ElementId) : Except DumpFault (Option (ElementId × Vertex)) :=
  if _seen : current ∈ visited then .error (.cycle start current)
  else
    match graph.firstLink? current label with
    | some link => (graph.vertex link.edge.target).map fun vertex => some (link.edge.target, vertex)
    | none =>
      match _after : graph.next? current with
      | none => .ok none
      | some next => graph.follow label start (current :: visited) next
termination_by unvisited graph.sources visited
decreasing_by exact unvisited_cons_lt (mem_sources_of_next? _after) _seen

/-- The target of the first edge with the given label on the chain that starts at `start`. -/
def resolve (graph : Graph) (start : ElementId) (label : EdgeLabel) :
    Except DumpFault (Option (ElementId × Vertex)) :=
  graph.follow label start [] start

end Graph

end CodeAtlas
