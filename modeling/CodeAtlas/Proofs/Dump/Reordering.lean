import CodeAtlas.Proofs.Dump.Acceptance
import CodeAtlas.Symbol.Occurrence

/-!
# Vertices in another order

A list of elements may be put in another order, as long as its edges keep theirs, and the graph gives
the same answers. `Agrees` says so of the lookups; all that is asked of a graph goes through these.
-/

namespace CodeAtlas

/-! ### Lists of elements -/

section Lists

variable {first second : List Element}

theorem WellFormed.perm (wellFormed : WellFormed first) (perm : first.Perm second) :
    WellFormed second := by
  refine wellFormed_of_endpoints ((perm.map Element.id).nodup_iff.mp wellFormed.ids)
    ((perm.countP_eq _).symm.trans wellFormed.metaData) fun link mem id named => ?_
  have present : link ∈ linksOf first := (perm.filterMap Element.link?).mem_iff.mpr mem
  obtain ⟨vertex, found⟩ := wellFormed.endpoints link present id named
  exact ⟨vertex, perm.mem_iff.mp found⟩

theorem find?_id_perm (perm : first.Perm second) (ids : (first.map Element.id).Nodup)
    (id : ElementId) :
    first.find? (fun element => element.id == id) =
      second.find? fun element => element.id == id := by
  have idsSecond := (perm.map Element.id).nodup_iff.mp ids
  apply Option.ext
  intro element
  rw [find?_id_eq_some_iff ids, find?_id_eq_some_iff idsSecond, perm.mem_iff]

end Lists

namespace Graph

structure Agrees (graph other : Graph) : Prop where
  get : ∀ id, graph.get? id = other.get? id
  outgoing : ∀ id, graph.outgoing id = other.outgoing id
  incoming : ∀ id, graph.incoming id = other.incoming id
  metaData : graph.metaData = other.metaData

theorem Describes.agrees {graph other : Graph} {first second : List Element}
    (describes : graph.Describes first) (describesOther : other.Describes second)
    (perm : first.Perm second) (edges : linksOf first = linksOf second) : graph.Agrees other where
  get id := by rw [describes.get, describesOther.get, find?_id_perm perm describes.ids]
  outgoing id := by rw [describes.outgoing, describesOther.outgoing, linksFrom, linksFrom, edges]
  incoming id := by rw [describes.incoming, describesOther.incoming, linksTo, linksTo, edges]
  metaData := by
    have same := perm.filterMap Element.metaData?
    rw [describes.metaData, describesOther.metaData, List.singleton_perm_singleton] at same
    exact same

theorem Describes.documents_perm {graph other : Graph} {first second : List Element}
    (describes : graph.Describes first) (describesOther : other.Describes second)
    (perm : first.Perm second) : graph.documents.Perm other.documents := by
  rw [describes.documents, describesOther.documents]
  exact perm.filterMap _

/-! ### Walks -/

theorem follow_eq (graph : Graph) (label : EdgeLabel) (start : ElementId)
    (visited : List ElementId) (current : ElementId) :
    graph.follow label start visited current =
      if current ∈ visited then .error (.cycle start current)
      else
        match graph.firstLink? current label with
        | some link =>
          (graph.vertex link.edge.target).map fun vertex => some (link.edge.target, vertex)
        | none =>
          match graph.next? current with
          | none => .ok none
          | some next => graph.follow label start (current :: visited) next := by
  rw [follow]
  by_cases seen : current ∈ visited
  · simp only [seen, ↓reduceDIte, ↓reduceIte]
  · simp only [seen, ↓reduceDIte, ↓reduceIte]
    cases graph.firstLink? current label with
    | some link => rfl
    | none =>
      dsimp only
      split <;> simp only [*]

namespace Agrees

variable {graph other : Graph} (agrees : graph.Agrees other)

include agrees

theorem vertex (id : ElementId) : graph.vertex id = other.vertex id := by
  simp only [Graph.vertex, require, agrees.get]

theorem range (id : ElementId) : graph.range id = other.range id := by
  simp only [Graph.range, agrees.vertex]

theorem document (id : ElementId) : graph.document id = other.document id := by
  simp only [Graph.document, agrees.vertex]

theorem outgoingLabeled (id : ElementId) (label : EdgeLabel) :
    graph.outgoingLabeled id label = other.outgoingLabeled id label := by
  simp only [Graph.outgoingLabeled, agrees.outgoing]

theorem firstLink? (id : ElementId) (label : EdgeLabel) :
    graph.firstLink? id label = other.firstLink? id label := by
  simp only [Graph.firstLink?, agrees.outgoing]

theorem next? (id : ElementId) : graph.next? id = other.next? id := by
  simp only [Graph.next?, agrees.firstLink?]

theorem follow (label : EdgeLabel) (start : ElementId) (visited : List ElementId)
    (current : ElementId) :
    graph.follow label start visited current = other.follow label start visited current := by
  fun_induction graph.follow label start visited current with
  | case1 visited current seen => rw [follow_eq, if_pos seen]
  | case2 visited current fresh link first =>
    rw [follow_eq, if_neg fresh, ← agrees.firstLink?, first]
    simp only [agrees.vertex]
  | case3 visited current fresh none last =>
    rw [follow_eq, if_neg fresh, ← agrees.firstLink?, none, ← agrees.next?, last]
  | case4 visited current fresh none next after ih =>
    rw [ih, other.follow_eq label start visited current, if_neg fresh, ← agrees.firstLink?, none,
      ← agrees.next?, after]

theorem resolve (start : ElementId) (label : EdgeLabel) :
    graph.resolve start label = other.resolve start label :=
  agrees.follow label start [] start

theorem edgesOf (result : ElementId) : Items.edgesOf graph result = Items.edgesOf other result := by
  simp only [Items.edgesOf, agrees.outgoingLabeled]

theorem collect (root : ElementId) (visited : List ElementId) (steps : List Items.Visit) :
    Items.collect graph root visited steps = Items.collect other root visited steps := by
  fun_induction Items.collect graph root visited steps with
  | case1 visited => rw [Items.collect]
  | case2 visited id rest seen => rw [Items.collect, dif_pos seen]
  | case3 visited id rest fresh ih => rw [Items.collect, dif_neg fresh, ih, agrees.edgesOf]
  | case4 visited edge rest property ih => simp only [Items.collect, property, ih]
  | case5 visited edge rest property ih => simp only [Items.collect, property, ih]
  | case6 visited edge rest property ih => simp only [Items.collect, property, ih]
  | case7 visited edge rest noDefinitions noResults noLinks ih =>
    -- The last alternative of the walk is known only by what the property is not.
    rw [ih]
    conv => rhs; rw [Items.collect]
    split
    · exact absurd ‹_› noDefinitions
    · exact absurd ‹_› noResults
    · exact absurd ‹_› noLinks
    · rfl

theorem items (result : ElementId) : graph.items result = other.items result :=
  agrees.collect result [] [.enter result]

/-! ### Locations and documents -/

variable (pages : PageMap) (sources : SourceMap)

theorem owner? (id : ElementId) :
    Locator.owner? ⟨graph, pages, sources⟩ id = Locator.owner? ⟨other, pages, sources⟩ id := by
  have documentOf : Locator.documentOf? ⟨graph, pages, sources⟩ =
      Locator.documentOf? ⟨other, pages, sources⟩ := by
    funext link
    simp only [Locator.documentOf?, agrees.get]
  simp only [Locator.owner?, agrees.incoming, documentOf]

theorem locate (id : ElementId) (hint : Option ElementId) :
    Locator.locate ⟨graph, pages, sources⟩ id hint =
      Locator.locate ⟨other, pages, sources⟩ id hint := by
  simp only [Locator.locate, agrees.range, agrees.owner?, agrees.document]
  rfl

theorem referenceSet? (result : ElementId) :
    Locator.referenceSet? ⟨graph, pages, sources⟩ result =
      Locator.referenceSet? ⟨other, pages, sources⟩ result := by
  simp only [Locator.referenceSet?, Locator.locateAll, agrees.items, agrees.locate]

theorem definitionOf? (rangeId : ElementId) :
    Locator.definitionOf? ⟨graph, pages, sources⟩ rangeId =
      Locator.definitionOf? ⟨other, pages, sources⟩ rangeId := by
  simp only [Locator.definitionOf?, Locator.definition?, agrees.resolve, agrees.firstLink?,
    agrees.locate]

theorem occurrences (renderer : MarkdownRenderer) (document : ElementId) :
    Query.occurrences ⟨graph, pages, sources⟩ renderer document =
      Query.occurrences ⟨other, pages, sources⟩ renderer document := by
  have occurrence : Query.occurrence ⟨graph, pages, sources⟩ renderer =
      Query.occurrence ⟨other, pages, sources⟩ renderer := by
    funext id
    simp only [Query.occurrence, Query.hoverOf, Query.referencesOf, Query.referenceSet,
      agrees.vertex, agrees.resolve, agrees.definitionOf?, agrees.referenceSet?]
  simp only [Query.occurrences, agrees.outgoingLabeled, occurrence]

end Agrees

end Graph

end CodeAtlas
